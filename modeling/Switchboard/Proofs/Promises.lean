import Switchboard.Promise

/-!
# Laws of promise stores

What every operation on a store does to the promise of each name: completion touches outcomes only,
holding and releasing touch handles only, and a name beyond the store stands for a promise that
nobody ever completes.
-/

namespace Switchboard.Promises

/-- The number of promises in a store. -/
def size (s : Promises) : Nat := s.cells.size

/-- Changing one promise keeps the number of promises. -/
@[simp]
theorem size_update (s : Promises) (i : PromiseId) (f : Promise Response → Promise Response) :
    (s.update i f).size = s.size := by
  simp [size, update]

/-- A completion adds no promise. -/
@[simp]
theorem size_complete (s : Promises) (i : PromiseId) (o : Outcome Response) :
    (s.complete i o).2.size = s.size := size_update s i _

/-- Letting go of a promise adds none. -/
@[simp]
theorem size_release (s : Promises) (i : PromiseId) : (s.release i).size = s.size :=
  size_update s i _

/-- Holding a promise adds none. -/
@[simp]
theorem size_hold (s : Promises) (i : PromiseId) : (s.hold i).size = s.size :=
  size_update s i _

/-- One promise is added at a time. -/
@[simp]
theorem size_add (s : Promises) (p : Promise Response) : (s.add p).2.size = s.size + 1 := by
  simp [size, add]

/-- A name beyond the store stands for a pending promise. -/
theorem get_of_size_le (s : Promises) {i : PromiseId} (h : s.size ≤ i) : s.get i = .pending := by
  unfold size at h
  simp [get, h]

/-- A change reaches the promise of its name and no other. -/
theorem get_update (s : Promises) (i j : PromiseId) (f : Promise Response → Promise Response) :
    (s.update i f).get j = if i = j ∧ j < s.size then f (s.get j) else s.get j := by
  by_cases hj : j < s.size
  · have hj' : j < s.cells.size := hj
    by_cases hij : i = j
    · subst hij
      simp [get, update, hj, hj', Array.getElem_modify]
    · simp [get, update, hj', hij, Array.getElem_modify]
  · have hle : s.size ≤ j := Nat.le_of_not_lt hj
    rw [get_of_size_le s hle, get_of_size_le _ (by rw [size_update]; exact hle)]
    simp [hj]

/-- A new promise gets the next name, and the others stay. -/
theorem get_add (s : Promises) (p : Promise Response) (j : PromiseId) :
    (s.add p).2.get j = if j = s.size then p else s.get j := by
  unfold size
  simp only [get, add, Array.getD_eq_getD_getElem?, Array.getElem?_push]
  split <;> rfl

/-- Completion gives a pending promise its outcome and leaves every other outcome as it is. -/
theorem outcome_complete (s : Promises) (i j : PromiseId) (o : Outcome Response) :
    ((s.complete i o).2.get j).outcome =
      if i = j ∧ j < s.size then some ((s.get j).outcome.getD o) else (s.get j).outcome := by
  simp only [complete, get_update]
  split
  · exact Promise.outcome_complete _ _
  · rfl

/-- Completion leaves the handles as they are. -/
@[simp]
theorem handles_complete (s : Promises) (i j : PromiseId) (o : Outcome Response) :
    ((s.complete i o).2.get j).handles = (s.get j).handles := by
  simp only [complete, get_update]
  split
  · cases h : (s.get j).outcome <;> simp [Promise.complete, h]
  · rfl

/-- Completion says whether the promise was pending. -/
theorem complete_fst (s : Promises) (i : PromiseId) (o : Outcome Response) :
    (s.complete i o).1 = !(s.get i).isDone := rfl

/-- Giving up a handle leaves the outcomes as they are. -/
@[simp]
theorem outcome_release (s : Promises) (i j : PromiseId) :
    ((s.release i).get j).outcome = (s.get j).outcome := by
  simp only [release, get_update]
  split <;> rfl

/-- Whoever lets go takes one handle from that promise and from no other. -/
theorem handles_release (s : Promises) (i j : PromiseId) :
    ((s.release i).get j).handles =
      if i = j ∧ j < s.size then (s.get j).handles - 1 else (s.get j).handles := by
  simp only [release, get_update]
  split <;> rfl

/-- Another handle leaves the outcomes as they are. -/
@[simp]
theorem outcome_hold (s : Promises) (i j : PromiseId) :
    ((s.hold i).get j).outcome = (s.get j).outcome := by
  simp only [hold, get_update]
  split <;> rfl

/-- Whoever takes hold gives one handle to that promise and to no other. -/
theorem handles_hold (s : Promises) (i j : PromiseId) :
    ((s.hold i).get j).handles =
      if i = j ∧ j < s.size then (s.get j).handles + 1 else (s.get j).handles := by
  simp only [hold, get_update]
  split <;> rfl

/-- Whoever copies a handle has one more on the promise, and the promise counts one more. -/
theorem handles_hold_add_count (s : Promises) (i : PromiseId) {j : PromiseId}
    (held : List PromiseId) (hj : j < s.size) :
    ((s.hold i).get j).handles + held.count j = (s.get j).handles + (i :: held).count j := by
  rw [handles_hold, List.count_cons]
  by_cases heq : i = j
  · subst heq
    simp only [hj, and_self, if_true, beq_self_eq_true]
    omega
  · simp [heq]

/-- Whoever gives up a handle has one less on the promise, and the promise counts one less. -/
theorem handles_release_add_count (s : Promises) {i j : PromiseId} {held : List PromiseId}
    (hi : i ∈ held) (hj : j < s.size) (hcounted : held.count j ≤ (s.get j).handles) :
    ((s.release i).get j).handles + held.count j = (s.get j).handles + (held.erase i).count j := by
  rw [handles_release, List.count_erase]
  by_cases heq : i = j
  · subst heq
    have hcount : 0 < held.count i := List.count_pos_iff.mpr hi
    simp only [hj, and_self, if_true, beq_self_eq_true]
    omega
  · simp [heq]

end Switchboard.Promises
