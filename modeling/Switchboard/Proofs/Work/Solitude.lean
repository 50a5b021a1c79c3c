import Switchboard.Proofs.Work.Performance
import Switchboard.Proofs.Work.Trails

/-!
# Routines that run alone

Where nobody else takes a turn, a routine finds every state as it left it, every gate is free, and
the clock moves just when the routine waits, to the time it waits for. So what a routine does alone
can be computed, and one routine after another does what each of them does. Such a run is a trail
between whose steps nobody comes, and where no work is begun it is what a machine does on which
there is no work but in the foreground.
-/

namespace Switchboard

/-- A state with a clock, and the number of tasks that were begun on it. -/
structure Solitude (σ : Type) where
  /-- The state. -/
  state : σ
  /-- The time. -/
  now : Nat := 0
  /-- How many tasks have been begun. -/
  begun : Nat := 0

namespace Routine

variable {σ δ γ α β : Type}

/-- What a routine comes to alone, if it does not wait for what only others could bring. -/
def alone : Routine σ δ γ α → Solitude σ → Option (α × Solitude σ)
  | .done a, s => some (a, s)
  | .act update next, s => (next s.state).alone { s with state := update s.state }
  | .start _ next, s => (next (s.begun + 1)).alone { s with begun := s.begun + 1 }
  | .cancel _ next, s => next.alone s
  | .clock next, s => (next s.now).alone s
  | .pause time ready next, s =>
    if ready s.state then next.alone s
    else time.bind fun time => next.alone { s with now := max s.now time }
  | .enter _ next, s => next.alone s
  | .leave _ next, s => next.alone s

variable {s s' : Solitude σ} {r : Routine σ δ γ α} {a : α}

/-- A value is come to at once. -/
@[simp]
theorem alone_pure (a : α) (s : Solitude σ) :
    (pure a : Routine σ δ γ α).alone s = some (a, s) := rfl

/-- One routine after another does what each of them does. -/
@[simp]
theorem alone_bind (r : Routine σ δ γ α) (k : α → Routine σ δ γ β) (s : Solitude σ) :
    (r >>= k).alone s = (r.alone s).bind fun end_ => (k end_.1).alone end_.2 := by
  change (r.bind k).alone s = _
  induction r generalizing s with
  | done a => rfl
  | act update next ih => exact ih _ _
  | start duty next ih => exact ih _ _
  | cancel task next ih => exact ih _
  | clock next ih => exact ih _ _
  | pause time ready next ih =>
    simp only [bind, alone]
    split
    · exact ih _
    · cases time with
      | none => rfl
      | some time => exact ih _
  | enter gate next ih => exact ih _
  | leave gate next ih => exact ih _

/-- A step is taken on the state there is. -/
@[simp]
theorem alone_step (f : σ → α × σ) (s : Solitude σ) :
    (step f : Routine σ δ γ α).alone s = some ((f s.state).1, { s with state := (f s.state).2 }) :=
  rfl

/-- A look changes nothing. -/
@[simp]
theorem alone_look (f : σ → α) (s : Solitude σ) :
    (look f : Routine σ δ γ α).alone s = some (f s.state, s) := rfl

/-- A change is made to the state there is. -/
@[simp]
theorem alone_modify (f : σ → σ) (s : Solitude σ) :
    (modify f : Routine σ δ γ Unit).alone s = some ((), { s with state := f s.state }) := rfl

/-- A task that is begun is the next one, and alone it never takes a turn. -/
@[simp]
theorem alone_begin (duty : δ) (s : Solitude σ) :
    (begin duty : Routine σ δ γ TaskId).alone s =
      some (s.begun + 1, { s with begun := s.begun + 1 }) := rfl

/-- The clock shows the time there is. -/
@[simp]
theorem alone_now (s : Solitude σ) : (now : Routine σ δ γ Nat).alone s = some (s.now, s) := rfl

/-- A sleep ends at the time that it was for, or at once if that is past. -/
@[simp]
theorem alone_sleepUntil (time : Nat) (s : Solitude σ) :
    (sleepUntil time : Routine σ δ γ Unit).alone s = some ((), { s with now := max s.now time }) :=
  rfl

/-- A sleep for a span takes just as long. -/
@[simp]
theorem alone_sleep (span : Nat) (s : Solitude σ) :
    (sleep span : Routine σ δ γ Unit).alone s = some ((), { s with now := s.now + span }) := by
  change some ((), { s with now := max s.now (s.now + span) }) = _
  rw [Nat.max_eq_right (Nat.le_add_right ..)]

/-- Alone, a gate is free. -/
@[simp]
theorem alone_through (gate : γ) (r : Routine σ δ γ α) (s : Solitude σ) :
    (through gate r).alone s = r.alone s := by
  refine (alone_bind r _ s).trans ?_
  cases r.alone s <;> rfl

/-- What a routine does alone is a trail on which nobody comes between. -/
theorem exists_trail_of_alone (h : r.alone s = some (a, s')) :
    ∃ steps, Trail r steps a ∧ Leads Eq s.state steps s'.state := by
  induction r generalizing s with
  | done =>
    cases h
    exact ⟨[], .done _, rfl⟩
  | act update next ih =>
    obtain ⟨steps, htrail, hleads⟩ := ih _ h
    exact ⟨_, .act htrail, rfl, hleads⟩
  | start duty next ih =>
    obtain ⟨steps, htrail, hleads⟩ := ih _ h
    exact ⟨steps, .start htrail, hleads⟩
  | cancel task next ih =>
    obtain ⟨steps, htrail, hleads⟩ := ih h
    exact ⟨steps, .cancel htrail, hleads⟩
  | clock next ih =>
    obtain ⟨steps, htrail, hleads⟩ := ih _ h
    exact ⟨steps, .clock htrail, hleads⟩
  | pause time ready next ih =>
    rw [alone] at h
    split at h
    · next hready =>
      obtain ⟨steps, htrail, hleads⟩ := ih h
      exact ⟨_, .pause (.inl hready) htrail, rfl, hleads⟩
    · obtain ⟨time, rfl, h⟩ := Option.bind_eq_some_iff.mp h
      obtain ⟨steps, htrail, hleads⟩ := ih h
      exact ⟨_, .pause (.inr rfl) htrail, rfl, hleads⟩
  | enter gate next ih =>
    obtain ⟨steps, htrail, hleads⟩ := ih h
    exact ⟨steps, .enter htrail, hleads⟩
  | leave gate next ih =>
    obtain ⟨steps, htrail, hleads⟩ := ih h
    exact ⟨steps, .leave htrail, hleads⟩

/-- No task that was begun is forgotten. -/
theorem begun_le_of_alone (h : r.alone s = some (a, s')) : s.begun ≤ s'.begun := by
  induction r generalizing s with
  | done =>
    cases h
    exact Nat.le_refl _
  | act update next ih => exact ih _ (s := { s with state := update s.state }) h
  | start duty next ih =>
    exact Nat.le_of_succ_le (ih _ (s := { s with begun := s.begun + 1 }) h)
  | cancel task next ih => exact ih h
  | clock next ih => exact ih _ h
  | pause time ready next ih =>
    rw [alone] at h
    split at h
    · exact ih h
    · obtain ⟨time, rfl, h⟩ := Option.bind_eq_some_iff.mp h
      exact ih (s := { s with now := max s.now time }) h
  | enter gate next ih => exact ih h
  | leave gate next ih => exact ih h

end Routine

namespace Machine

open Routine

variable {σ δ γ α : Type} [DecidableEq γ] {body : δ → Routine σ δ γ (Option δ)} {turns : Nat}
  {r : Routine σ δ γ α} {m : Machine σ δ γ} {a : α}

/-- Whether there is no work but in the foreground, which alone has places at gates. -/
def IsDeserted (m : Machine σ δ γ) : Prop := m.IsQuiet ∧ ∀ place ∈ m.places, place.2 = foreground

/-- What a machine has of a state, a clock and tasks. -/
def solitude (m : Machine σ δ γ) : Solitude σ := ⟨m.state, m.now, m.begun⟩

private theorem solitude_takePlace (m : Machine σ δ γ) (gate : γ) (task : TaskId) :
    (m.takePlace gate task).solitude = m.solitude := by
  unfold Machine.takePlace
  split <;> rfl

private theorem IsDeserted.takePlace (h : m.IsDeserted) (gate : γ) :
    (m.takePlace gate foreground).IsDeserted := by
  unfold Machine.takePlace
  split
  · exact h
  · refine ⟨h.1, fun place hplace => ?_⟩
    rcases List.mem_append.mp hplace with hplace | hplace
    · exact h.2 place hplace
    · rw [List.mem_singleton.mp hplace]

private theorem IsDeserted.leavePlace (h : m.IsDeserted) (gate : γ) :
    (m.leavePlace gate foreground).IsDeserted :=
  ⟨h.1, fun place hplace => h.2 place (List.mem_filter.mp hplace).1⟩

omit [DecidableEq γ] in
private theorem IsDeserted.cancel (h : m.IsDeserted) (task : TaskId) :
    (m.cancel task).IsDeserted := by
  obtain ⟨⟨hready, hwaiting⟩, hplaces⟩ := h
  refine ⟨⟨?_, ?_⟩, fun place hplace => hplaces place (List.mem_filter.mp hplace).1⟩
  · simp [Machine.cancel, leaveAll, hready]
  · simp [Machine.cancel, leaveAll, hwaiting]

private theorem firstAt_takePlace_of_isDeserted (h : m.IsDeserted) (gate : γ) :
    (m.takePlace gate foreground).firstAt gate = some foreground := by
  obtain ⟨place, hplace⟩ : ∃ place,
      (m.takePlace gate foreground).places.find? (fun place => place.1 == gate) = some place := by
    refine Option.isSome_iff_exists.mp (List.find?_isSome.mpr ⟨(gate, foreground), ?_, by simp⟩)
    unfold takePlace
    split
    · assumption
    · simp
  have hmem := List.mem_of_find?_eq_some hplace
  rw [firstAt, hplace, Option.map_some, (h.takePlace gate).2 place hmem]

/-- What a routine comes to alone, it comes to on a machine on which there is no work but in the
foreground, unless it begins any. -/
theorem ends_of_alone {s' : Solitude σ} (h : r.alone m.solitude = some (a, s'))
    (hm : m.IsDeserted) (hbegun : s'.begun = m.begun) :
    ∃ m', Ends body turns none r m a m' ∧ m'.solitude = s' ∧ m'.IsDeserted := by
  induction r generalizing m with
  | done =>
    cases h
    exact ⟨m, .pure _ m, rfl, hm⟩
  | act update next ih =>
    obtain ⟨m', hends, hm'⟩ := ih _ (m := { m with state := update m.state }) h hm hbegun
    exact ⟨m', hends.congr rfl, hm'⟩
  | start duty next ih =>
    have hle := begun_le_of_alone (s := { m.solitude with begun := m.begun + 1 }) h
    exact absurd hle (by simp [hbegun])
  | cancel task next ih =>
    obtain ⟨m', hends, hm'⟩ := ih (m := m.cancel task) h (hm.cancel task) hbegun
    exact ⟨m', hends.congr rfl, hm'⟩
  | clock next ih =>
    obtain ⟨m', hends, hm'⟩ := ih _ h hm hbegun
    exact ⟨m', hends.congr rfl, hm'⟩
  | pause time ready next ih =>
    rw [alone] at h
    split at h
    · next hready =>
      obtain ⟨m', hends, hm'⟩ := ih h hm hbegun
      refine ⟨m', hends.congr ?_, hm'⟩
      have hready : ready m.state = true := hready
      simp [run, hready]
    · next hready =>
      obtain ⟨time, rfl, h⟩ := Option.bind_eq_some_iff.mp h
      obtain ⟨m', hends, hm'⟩ := ih (m := { m with now := max m.now time }) h hm hbegun
      exact ⟨m', hm.1.pause_ends (Bool.eq_false_iff.mpr hready) hends, hm'⟩
  | enter gate next ih =>
    have hsame := solitude_takePlace m gate foreground
    obtain ⟨m', hends, hm'⟩ := ih (m := m.takePlace gate foreground) (hsame ▸ h)
      (hm.takePlace gate) (hbegun.trans (congrArg Solitude.begun hsame).symm)
    refine ⟨m', hends.congr ?_, hm'⟩
    simp only [run, firstAt_takePlace_of_isDeserted hm, if_true]
  | leave gate next ih =>
    obtain ⟨m', hends, hm'⟩ := ih (m := m.leavePlace gate foreground) h (hm.leavePlace gate) hbegun
    exact ⟨m', hends.congr rfl, hm'⟩

end Machine

end Switchboard
