import Mathlib.Logic.Function.Basic
import Switchboard.Proofs.Work.Trails

/-!
# Routines among each other

Routines that work at the same time on one state take their steps in any order. What happens is one
list of steps, each with the routine that takes it; those of one routine, picked out of the list,
are a trail of it, or the beginning of one if it has not ended yet. A routine that leaves the state
as it is may be left out: the others take the same steps and end with the same results.
-/

namespace Switchboard.Routine

variable {ι σ δ γ α : Type} [DecidableEq ι]

/-- The steps that one routine takes among those of all. -/
def own (steps : List (ι × σ × σ)) (i : ι) : List (σ × σ) :=
  (steps.filter (·.1 = i)).map Prod.snd

/-- Routines work at the same time, with what others do between their steps. A routine that has
ended has gone along a trail of its own, and one that has not has come to a step of such a trail. -/
structure Interleaved (others : σ → σ → Prop) (routine : ι → Routine σ δ γ α) (s : σ)
    (steps : List (ι × σ × σ)) (s' : σ) (result : ι → Option α) : Prop where
  /-- The steps follow each other. -/
  leads : Leads others s (steps.map Prod.snd) s'
  ended : ∀ i a, result i = some a → Trail (routine i) (own steps i) a
  underWay : ∀ i, result i = none →
    ∃ step more a, Trail (routine i) (own steps i ++ step :: more) a

section Own

variable {steps : List (ι × σ × σ)} {i : ι}

/-- What one had a part in over two runs is what it had a part in over each. -/
theorem own_append (steps more : List (ι × σ × σ)) (i : ι) :
    own (steps ++ more) i = own steps i ++ own more i := by
  simp [own]

/-- A step of one's own comes before the rest. -/
theorem own_cons_self (i : ι) (step : σ × σ) (steps : List (ι × σ × σ)) :
    own ((i, step) :: steps) i = step :: own steps i := by
  simp [own]

/-- One's own steps are those that bear one's name. -/
theorem mem_own {step : σ × σ} : step ∈ own steps i ↔ (i, step) ∈ steps := by
  simp [own]

/-- Whoever took no step has none. -/
theorem own_eq_nil_iff : own steps i = [] ↔ ∀ step ∈ steps, step.1 ≠ i := by
  simp [own]

/-- Whoever is left out is missed by nobody else. -/
theorem own_without {j : ι} (h : j ≠ i) : own (steps.filter (·.1 ≠ i)) j = own steps j := by
  rw [own, own, List.filter_filter]
  congr 1
  apply List.filter_congr
  intro step _
  by_cases hj : step.1 = j <;> simp [hj, h]

/-- Whoever takes steps takes a last one. -/
theorem exists_last (h : own steps i ≠ []) :
    ∃ before step after, steps = before ++ (i, step) :: after ∧ ∀ later ∈ after, later.1 ≠ i := by
  induction steps with
  | nil => exact absurd rfl h
  | cons first rest ih =>
    by_cases hrest : own rest i = []
    · have hfirst : first.1 = i := by
        by_contra hne
        exact h (own_eq_nil_iff.mpr (List.forall_mem_cons.mpr ⟨hne, own_eq_nil_iff.mp hrest⟩))
      exact ⟨[], first.2, rest, by rw [← hfirst]; rfl, own_eq_nil_iff.mp hrest⟩
    · obtain ⟨before, step, after, rfl, hlast⟩ := ih hrest
      exact ⟨first :: before, step, after, rfl, hlast⟩

end Own

/-- Others may come before the first step. -/
theorem Leads.trans_left {others : σ → σ → Prop} {s s' s'' : σ} {steps : List (σ × σ)}
    (hleads : Leads others s' steps s'') (htrans : ∀ {a b c}, others a b → others b c → others a c)
    (h : others s s') : Leads others s steps s'' := by
  cases steps with
  | nil => exact htrans h hleads
  | cons step rest => exact ⟨htrans h hleads.1, hleads.2⟩

omit [DecidableEq ι] in
/-- Steps that leave the state as it is may be left out. -/
theorem Leads.filter {others : σ → σ → Prop} {keep : ι × σ × σ → Bool}
    {steps : List (ι × σ × σ)} {s s' : σ} (h : Leads others s (steps.map Prod.snd) s')
    (htrans : ∀ {a b c}, others a b → others b c → others a c)
    (hidle : ∀ step ∈ steps, keep step = false → step.2.1 = step.2.2) :
    Leads others s ((steps.filter keep).map Prod.snd) s' := by
  induction steps generalizing s with
  | nil => exact h
  | cons step rest ih =>
    obtain ⟨hfound, hrest⟩ := h
    have hleft := ih hrest fun later hm => hidle later (List.mem_cons_of_mem step hm)
    cases hkeep : keep step with
    | true =>
      rw [List.filter_cons_of_pos hkeep]
      exact ⟨hfound, hleft⟩
    | false =>
      rw [List.filter_cons_of_neg (by simp [hkeep])]
      rw [← hidle step List.mem_cons_self hkeep] at hleft
      exact hleft.trans_left htrans hfound

namespace Interleaved

variable {others : σ → σ → Prop} {routine : ι → Routine σ δ γ α} {s s' : σ}
  {steps : List (ι × σ × σ)} {result : ι → Option α}

/-- A routine has come along some trail. -/
theorem exists_trail (h : Interleaved others routine s steps s' result) (i : ι) :
    ∃ more a, Trail (routine i) (own steps i ++ more) a := by
  cases hi : result i with
  | some a => exact ⟨[], a, by rw [List.append_nil]; exact h.ended i a hi⟩
  | none =>
    obtain ⟨step, more, a, htrail⟩ := h.underWay i hi
    exact ⟨step :: more, a, htrail⟩

/-- What a routine keeps each of its steps keeps. -/
theorem keeps (h : Interleaved others routine s steps s' result) {R : ι → σ → σ → Prop}
    (hkeeps : ∀ i, Keeps (R i) (routine i)) :
    ∀ step ∈ steps, R step.1 step.2.1 step.2.2 := by
  rintro ⟨i, step⟩ hm
  obtain ⟨more, a, htrail⟩ := h.exists_trail i
  exact hkeeps i _ a htrail step (List.mem_append_left _ (mem_own.mpr hm))

/-- A routine that leaves the state as it is may be left out. -/
theorem without (h : Interleaved others routine s steps s' result)
    (htrans : ∀ {a b c}, others a b → others b c → others a c) {i : ι}
    (hidle : Keeps Eq (routine i)) (hsteps : ∀ trail a, Trail (routine i) trail a → trail ≠ []) :
    Interleaved others routine s (steps.filter (·.1 ≠ i)) s' (Function.update result i none) where
  leads := by
    apply h.leads.filter htrans
    rintro ⟨j, step⟩ hm hj
    obtain rfl : j = i := by simpa using hj
    obtain ⟨more, a, htrail⟩ := h.exists_trail j
    exact hidle _ a htrail step (List.mem_append_left _ (mem_own.mpr hm))
  ended := by
    intro j a hj
    have hne : j ≠ i := by
      rintro rfl
      simp at hj
    rw [Function.update_of_ne hne] at hj
    rw [own_without hne]
    exact h.ended j a hj
  underWay := by
    intro j hj
    by_cases hji : j = i
    · subst hji
      -- whoever is left out has not begun
      obtain ⟨more, a, htrail⟩ := h.exists_trail j
      obtain ⟨step, rest, htrail'⟩ := List.exists_cons_of_ne_nil (hsteps _ a htrail)
      refine ⟨step, rest, a, ?_⟩
      rw [own_eq_nil_iff.mpr (by simp), List.nil_append, ← htrail']
      exact htrail
    · rw [Function.update_of_ne hji] at hj
      rw [own_without hji]
      exact h.underWay j hj

end Interleaved

end Switchboard.Routine
