import Std.Data.ExtTreeMap.Lemmas
import Switchboard.Registry.Coordinator

/-!
# Laws of the coordination tree

What a change of the tree does to the node at each path, and what is told of it: a node that comes
or goes is told to those who watch the path above it, and nothing is told of sessions.
-/

namespace Switchboard

/-- Whether an event is about a session. -/
def TreeEvent.isSession : TreeEvent → Bool
  | .session _ _ => true
  | _ => false

namespace Tree

private theorem getElem?_insert_eq (t : Tree) (here : String) (node : TreeNode) (key : String) :
    (t.insert here node)[key]? = if here = key then some node else t[key]? := by
  rw [Std.ExtTreeMap.getElem?_insert]
  simp only [Std.LawfulEqCmp.compare_eq_iff_eq]

private theorem not_contains_iff {t : Tree} {key : String} :
    (!t.contains key) = true ↔ t[key]? = none := by
  rw [Bool.not_eq_true', ← Bool.not_eq_true, Std.ExtTreeMap.contains_iff_mem,
    Std.ExtTreeMap.mem_iff_isSome_getElem?, Bool.not_eq_true, Option.isSome_eq_false_iff,
    Option.isNone_iff_eq_none]

/-- Creating the way to a path creates just what is missing on it, but for the node of the path;
what it creates belongs to nobody. -/
theorem getElem?_ensureWay_eq (path : String) (way : List String) (t : Tree) (key : String) :
    (ensureWay path way t).1[key]? =
      if key ∈ way ∧ key ≠ path ∧ t[key]? = none then some {} else t[key]? := by
  induction way generalizing t with
  | nil => simp [ensureWay]
  | cons here rest ih =>
    simp only [ensureWay, not_contains_iff, List.mem_cons]
    split
    · next hnew =>
      obtain ⟨hne, hfree⟩ := hnew
      simp only [ih, getElem?_insert_eq]
      by_cases hkey : here = key
      · subst hkey
        simp [hne, hfree]
      · simp [hkey, Ne.symm hkey]
    · next hold =>
      rw [ih]
      by_cases hkey : key = here
      · subst hkey
        rw [if_neg fun h => hold h.2, if_neg fun h => hold h.2]
      · simp [hkey]

/-- Of every node that is created on the way the path above it is told, and of nothing else. -/
theorem mem_told_ensureWay {path : String} {way : List String} {t : Tree} {event : TreeEvent} :
    event ∈ (ensureWay path way t).2 ↔
      ∃ key, key ∈ way ∧ key ≠ path ∧ t[key]? = none ∧ event = .childrenChanged (above key) := by
  induction way generalizing t with
  | nil => simp [ensureWay]
  | cons here rest ih =>
    simp only [ensureWay, not_contains_iff, List.mem_cons, or_and_right, exists_or,
      exists_eq_left]
    split
    · next hnew =>
      obtain ⟨hne, hfree⟩ := hnew
      simp only [List.mem_cons, ih, getElem?_insert_eq]
      constructor
      · rintro (rfl | ⟨key, hkey, hpath, hnone, rfl⟩)
        · exact .inl ⟨hne, hfree, rfl⟩
        · split at hnone
          · cases hnone
          · exact .inr ⟨key, hkey, hpath, hnone, rfl⟩
      · rintro (⟨-, -, rfl⟩ | ⟨key, hkey, hpath, hnone, rfl⟩)
        · exact .inl rfl
        · by_cases hhere : here = key
          · subst hhere
            exact .inl rfl
          · exact .inr ⟨key, hkey, hpath, by rwa [if_neg hhere], rfl⟩
    · next hold =>
      rw [ih, or_iff_right]
      exact fun h => hold ⟨h.1, h.2.1⟩

/-- Creating the way to a path leaves every node that is there, and the node of the path itself, as
it is; what it creates belongs to nobody and is told to the path above. -/
theorem getElem?_ensureWay (path : String) (way : List String) (t : Tree) (key : String) :
    (ensureWay path way t).1[key]? = t[key]? ∨
      t[key]? = none ∧ key ≠ path ∧ (ensureWay path way t).1[key]? = some {} ∧
        .childrenChanged (above key) ∈ (ensureWay path way t).2 := by
  rw [getElem?_ensureWay_eq, mem_told_ensureWay]
  split
  · next hnew =>
    obtain ⟨hway, hne, hfree⟩ := hnew
    exact .inr ⟨hfree, hne, rfl, key, hway, hne, hfree, rfl⟩
  · exact .inl rfl

/-- Putting a node gives its path the data and the owner. -/
theorem getElem?_put_self (t : Tree) (path : String) (data : Option String)
    (owner : Option SessionId) : (t.put path data owner).1[path]? = some { data, owner } := by
  simp only [put, putNode]
  split <;> simp

/-- Putting a node leaves every other node as it is; what it creates on the way belongs to nobody
and is told to the path above. -/
theorem getElem?_put_of_ne (t : Tree) {path key : String} (h : key ≠ path) (data : Option String)
    (owner : Option SessionId) :
    (t.put path data owner).1[key]? = t[key]? ∨
      t[key]? = none ∧ (t.put path data owner).1[key]? = some {} ∧
        .childrenChanged (above key) ∈ (t.put path data owner).2 := by
  have hput : (t.put path data owner).1[key]? =
      (ensureWay path (waypoints "" (segments path)) t).1[key]? := by
    simp only [put, putNode]
    split <;> simp [Std.ExtTreeMap.getElem?_insert, Ne.symm h]
  rw [hput]
  rcases getElem?_ensureWay path (waypoints "" (segments path)) t key with h | ⟨h, -, h', htold⟩
  · exact .inl h
  · exact .inr ⟨h, h', List.mem_append_left _ htold⟩

/-- Removal leaves the nodes that do not satisfy the condition. -/
theorem getElem?_removeWhere (t : Tree) (doomed : String → TreeNode → Bool) (key : String) :
    (t.removeWhere doomed).1[key]? = t[key]?.filter fun node => !doomed key node := by
  simp [removeWhere]

/-! ### What is told -/

private theorem isSession_ensureWay (path : String) (way : List String) (t : Tree) :
    ∀ event, event ∈ (ensureWay path way t).2 → event.isSession = false := by
  intro event hm
  obtain ⟨key, -, -, -, rfl⟩ := mem_told_ensureWay.mp hm
  rfl

/-- Putting a node tells nothing about sessions. -/
theorem isSession_put (t : Tree) (path : String) (data : Option String)
    (owner : Option SessionId) :
    ∀ event, event ∈ (t.put path data owner).2 → event.isSession = false := by
  intro event hm
  simp only [put, List.mem_append] at hm
  rcases hm with hm | hm
  · exact isSession_ensureWay _ _ _ event hm
  · generalize (ensureWay path (waypoints "" (segments path)) t).1 = t' at hm
    simp only [putNode] at hm
    split at hm
    · simp only at hm
      split at hm
      · cases hm
      · rw [List.mem_singleton.mp hm]
        rfl
    · rcases List.mem_cons.mp hm with rfl | hm
      · rfl
      · split at hm
        · rw [List.mem_singleton.mp hm]
          rfl
        · cases hm

/-- Removing nodes tells nothing about sessions. -/
theorem isSession_removeWhere (t : Tree) (doomed : String → TreeNode → Bool) :
    ∀ event, event ∈ (t.removeWhere doomed).2 → event.isSession = false := by
  intro event hm
  simp only [removeWhere, List.mem_flatMap] at hm
  obtain ⟨entry, -, hm⟩ := hm
  simp only [removalEvents] at hm
  rcases List.mem_cons.mp hm with rfl | hm
  · rfl
  · split at hm
    · rw [List.mem_singleton.mp hm]
      rfl
    · cases hm

end Tree

end Switchboard
