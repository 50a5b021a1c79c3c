import Switchboard.Proofs.Calls.Deeds
import Switchboard.Proofs.Work.Interleavings

/-!
# All agree on what came of a promise

Many may do something with handles on one promise at the same time. The first completion settles
it. Only that one is told that it was first; whoever asks or waits is told of it from then on, and
of nothing before; and whoever waits, also one whose time runs out, is not noticed by anybody.
-/

namespace Switchboard.Promise

open Routine

variable {p : PromiseId}

section Many

variable {ι : Type} {deed : ι → Deed} {steps : List (ι × Board × Board)} {b b' : Board}

/-- The outcome of the first completion among steps, if there is one. -/
def firstOutcome (deed : ι → Deed) (steps : List (ι × Board × Board)) :
    Option (Outcome Response) :=
  steps.findSome? fun step => (deed step.1).outcome?

private theorem firstOutcome_append (before after : List (ι × Board × Board)) :
    firstOutcome deed (before ++ after) =
      (firstOutcome deed before).or (firstOutcome deed after) :=
  List.findSome?_append

private theorem firstOutcome_cons (step : ι × Board × Board) :
    firstOutcome deed (step :: steps) = (deed step.1).outcome?.or (firstOutcome deed steps) := by
  rw [firstOutcome, List.findSome?_cons]
  cases (deed step.1).outcome? <;> rfl

/-- Who is the first to complete a promise among steps, if anybody does. -/
def firstToComplete (deed : ι → Deed) (steps : List (ι × Board × Board)) : Option ι :=
  (steps.find? fun step => (deed step.1).outcome?.isSome).map Prod.fst

/-- Whoever is first comes before every other completion. -/
theorem firstToComplete_eq_some_iff {i : ι} :
    firstToComplete deed steps = some i ↔ ∃ before step after,
      steps = before ++ (i, step) :: after ∧ firstOutcome deed before = none ∧
        (deed i).outcome?.isSome := by
  simp only [firstToComplete, Option.map_eq_some_iff, List.find?_eq_some_iff_append, firstOutcome,
    List.findSome?_eq_none_iff, Bool.not_eq_true', Option.isSome_eq_false_iff,
    Option.isNone_iff_eq_none]
  constructor
  · rintro ⟨⟨_, step⟩, ⟨hsome, before, after, hsteps, hbefore⟩, rfl⟩
    exact ⟨before, step, after, hsteps, hbefore, hsome⟩
  · rintro ⟨before, step, after, hsteps, hbefore, hsome⟩
    exact ⟨(i, step), ⟨hsome, before, after, hsteps, hbefore⟩, rfl⟩

/-- What has come of a promise after some steps is what came of it before, or else the outcome of
the first completion among the steps. -/
theorem outcome_of_leads (hleads : Leads (Apart p) b (steps.map Prod.snd) b')
    (hmarks : ∀ step ∈ steps, Marks p (deed step.1) step.2.1 step.2.2)
    (hp : p < b.promises.size) :
    outcomeAt p b' = (outcomeAt p b).or (firstOutcome deed steps) := by
  induction steps generalizing b with
  | nil =>
    have hapart : Apart p b b' := hleads
    rw [hapart.outcome]
    exact (Option.or_none ..).symm
  | cons step rest ih =>
    obtain ⟨hfound, hrest⟩ : Apart p b step.2.1 ∧ Leads (Apart p) step.2.2 _ b' := hleads
    have hmark := hmarks step List.mem_cons_self
    have hstep := hfound.present hp
    rw [ih hrest (fun later hm => hmarks later (List.mem_cons_of_mem step hm))
      (hmark.present hstep), hmark.outcome hstep, hfound.outcome, firstOutcome_cons,
      Option.or_assoc]

/-- A wait runs out: its last look at the promise comes before every completion. -/
def RunsOut (deed : ι → Deed) (steps : List (ι × Board × Board)) (i : ι) : Prop :=
  ∃ before step after, steps = before ++ (i, step) :: after ∧
    (∀ later ∈ after, later.1 ≠ i) ∧ firstOutcome deed before = none

variable [DecidableEq ι] {reply : ι → Option Reply}
  (h : Interleaved (Apart p) (fun i => (deed i).op p) b steps b' reply)

include h

/-- A completion has ended with its one step. -/
theorem ended_of_complete {before after : List (ι × Board × Board)} {i : ι} {step : Board × Board}
    (hsteps : steps = before ++ (i, step) :: after) {o : Outcome Response}
    (hd : deed i = .complete o) : (∃ r, reply i = some r) ∧ ∀ later ∈ after, later.1 ≠ i := by
  have hone : ∀ trail r, Trail ((deed i).op p) trail r → trail.length = 1 := by
    intro trail r htrail
    rw [hd, trail_complete_iff] at htrail
    obtain ⟨_, rfl, -⟩ := htrail
    rfl
  have hown : own steps i = own before i ++ step :: own after i := by
    rw [hsteps, own_append, own_cons_self]
  cases hr : reply i with
  | none =>
    obtain ⟨next, more, r, htrail⟩ := h.underWay i hr
    have hlength := hone _ r htrail
    simp only [hown, List.length_append, List.length_cons] at hlength
    omega
  | some r =>
    have hlength := hone _ r (h.ended i r hr)
    simp only [hown, List.length_append, List.length_cons] at hlength
    refine ⟨⟨r, rfl⟩, own_eq_nil_iff.mp ?_⟩
    apply List.eq_nil_of_length_eq_zero
    omega

/-- Whoever waits may be left out: the others find the same boards and are told the same. -/
theorem interleaved_without_await {i : ι} {within : Option Duration} (hd : deed i = .await within) :
    Interleaved (Apart p) (fun i => (deed i).op p) b (steps.filter (·.1 ≠ i)) b'
      (Function.update reply i none) := by
  apply h.without Apart.trans
  · rw [hd]
    exact keeps_await_eq within
  · exact fun _ _ => trail_ne_nil

variable (hp : p < b.promises.size) (hpending : outcomeAt p b = none)

include hp hpending

/-- Every step finds the promise with the outcome of the first completion before it. -/
theorem outcome_found {before after : List (ι × Board × Board)} {i : ι} {step : Board × Board}
    (hsteps : steps = before ++ (i, step) :: after) :
    outcomeAt p step.1 = firstOutcome deed before := by
  subst hsteps
  have hmarks := h.keeps fun i => keeps_deed (p := p) (deed i)
  have hleads := h.leads
  rw [List.map_append] at hleads
  obtain ⟨mid, hbefore, hfound, -⟩ := (leads_append Apart.refl Apart.trans).mp hleads
  have hmid := outcome_of_leads hbefore
    (fun earlier hm => hmarks earlier (List.mem_append_left _ hm)) hp
  rw [hfound.outcome, hmid, hpending, Option.none_or]

/-- Whoever has ended is told what the first completion before its last step came to. -/
theorem told_at_last {before after : List (ι × Board × Board)} {i : ι} {step : Board × Board}
    (hsteps : steps = before ++ (i, step) :: after) (hlast : ∀ later ∈ after, later.1 ≠ i)
    {r : Reply} (hr : reply i = some r) :
    (deed i).told (firstOutcome deed before) = some r := by
  have htrail := h.ended i r hr
  rw [hsteps, own_append, own_cons_self, own_eq_nil_iff.mpr hlast] at htrail
  obtain ⟨earlier, found, left, heq, htold⟩ := told_of_trail htrail
  obtain ⟨rfl, hstep⟩ := List.append_inj' heq rfl
  obtain rfl : step = (found, left) := List.head_eq_of_cons_eq hstep
  have hfound := outcome_found h hp hpending hsteps
  rw [← hfound]
  apply htold
  intro first hfirst hsome
  -- what an earlier step has found, the steps between it and the last one do not take back
  obtain ⟨past, between, rfl⟩ := List.append_of_mem (mem_own.mp hfirst)
  have hpast := outcome_found h hp hpending (hsteps.trans (List.append_assoc ..))
  obtain ⟨o, ho⟩ := Option.isSome_iff_exists.mp hsome
  rw [hfound, firstOutcome_append, ← hpast, ho]
  rfl

/-- Whoever has ended has taken a last step, and is told what that one found. -/
theorem exists_told_of_reply {i : ι} {r : Reply} (hr : reply i = some r) :
    ∃ before step after, steps = before ++ (i, step) :: after ∧
      (∀ later ∈ after, later.1 ≠ i) ∧ (deed i).told (firstOutcome deed before) = some r := by
  obtain ⟨before, step, after, hsteps, hlast⟩ := exists_last (trail_ne_nil (h.ended i r hr))
  exact ⟨before, step, after, hsteps, hlast, told_at_last h hp hpending hsteps hlast hr⟩

/-- Whoever completes a promise is told that it was first just if it was. -/
theorem reply_eq_completed_true_iff {i : ι} :
    reply i = some (.completed true) ↔ firstToComplete deed steps = some i := by
  rw [firstToComplete_eq_some_iff]
  constructor
  · intro hr
    obtain ⟨before, step, after, hsteps, -, htold⟩ := exists_told_of_reply h hp hpending hr
    obtain ⟨hsome, hnone⟩ := Deed.told_eq_completed_iff.mp htold
    exact ⟨before, step, after, hsteps, Option.isNone_iff_eq_none.mp hnone, hsome⟩
  · rintro ⟨before, step, after, hsteps, hnone, hsome⟩
    obtain ⟨o, ho⟩ := Option.isSome_iff_exists.mp hsome
    have hd : deed i = .complete o := Deed.outcome?_eq_some_iff.mp ho
    obtain ⟨⟨r, hr⟩, hlast⟩ := ended_of_complete h hsteps hd
    have htold := told_at_last h hp hpending hsteps hlast hr
    rw [hd, hnone] at htold
    exact hr.trans htold.symm

/-- Of those who complete a promise just one is told that it was first. -/
theorem existsUnique_first {i : ι} {o : Outcome Response} (hd : deed i = .complete o)
    (hr : (reply i).isSome) : ∃! j, reply j = some (.completed true) := by
  obtain ⟨r, hr⟩ := Option.isSome_iff_exists.mp hr
  obtain ⟨before, step, after, hsteps, -⟩ := exists_told_of_reply h hp hpending hr
  have hsome : (firstToComplete deed steps).isSome := by
    rw [firstToComplete, Option.isSome_map, List.find?_isSome, hsteps]
    exact ⟨(i, step), List.mem_append_right _ List.mem_cons_self, by rw [hd]; rfl⟩
  obtain ⟨j, hj⟩ := Option.isSome_iff_exists.mp hsome
  refine ⟨j, (reply_eq_completed_true_iff h hp hpending).mpr hj, ?_⟩
  intro k hk
  have hfirst := (reply_eq_completed_true_iff h hp hpending).mp hk
  exact Option.some.inj (hfirst.symm.trans hj)

/-- Whoever waits is told the first outcome of all, unless the wait runs out. -/
theorem told_of_await {i : ι} {within : Option Duration} (hd : deed i = .await within) {r : Reply}
    (hr : reply i = some r) :
    (¬ RunsOut deed steps i → ∃ o, firstOutcome deed steps = some o ∧ r = .outcome o) ∧
      (RunsOut deed steps i →
        ∃ span, within = some span ∧ r = .outcome (.error (.timeout span))) := by
  constructor
  · intro hruns
    obtain ⟨before, step, after, hsteps, hlast, htold⟩ := exists_told_of_reply h hp hpending hr
    rw [hd] at htold
    obtain ⟨o, ho, rfl⟩ | ⟨hnone, -⟩ := Deed.told_await htold
    · refine ⟨o, ?_, rfl⟩
      rw [hsteps, firstOutcome_append, ho, Option.some_or]
    · exact absurd ⟨before, step, after, hsteps, hlast, hnone⟩ hruns
  · rintro ⟨before, step, after, hsteps, hlast, hnone⟩
    have htold := told_at_last h hp hpending hsteps hlast hr
    rw [hd, hnone] at htold
    obtain ⟨o, ho, -⟩ | ⟨-, hspan⟩ := Deed.told_await htold
    · cases ho
    · exact hspan

end Many

/-- Deeds at a new promise, whatever the order of their steps and whatever others do that leaves
the promise alone. Once a completion has ended, just one is told that it was first, and it was.
Whoever has ended is told what its last step found, the outcome of the first completion before that
step or that there was none. A wait ends with the first outcome of all, unless it runs out, and
then with the timeout. And without a wait the others find the same boards and are told the same. -/
theorem deeds_agree {ι : Type} [DecidableEq ι] {deed : ι → Deed} {b b' : Board}
    {steps : List (ι × Board × Board)} {reply : ι → Option Reply} (hp : p < b.promises.size)
    (hpending : (b.promises.get p).outcome = none)
    (h : Interleaved (Apart p) (fun i => (deed i).op p) b steps b' reply) :
    (∀ i o, deed i = .complete o → (reply i).isSome → ∃! j, reply j = some (.completed true)) ∧
    (∀ i, reply i = some (.completed true) ↔ firstToComplete deed steps = some i) ∧
    (∀ i r, reply i = some r → ∃ before step after, steps = before ++ (i, step) :: after ∧
      (∀ later ∈ after, later.1 ≠ i) ∧ (deed i).told (firstOutcome deed before) = some r) ∧
    (∀ i within r, deed i = .await within → reply i = some r →
      (¬ RunsOut deed steps i → ∃ o, firstOutcome deed steps = some o ∧ r = .outcome o) ∧
      (RunsOut deed steps i →
        ∃ span, within = some span ∧ r = .outcome (.error (.timeout span)))) ∧
    ∀ i within, deed i = .await within →
      Interleaved (Apart p) (fun j => (deed j).op p) b (steps.filter (·.1 ≠ i)) b'
        (Function.update reply i none) := by
  exact ⟨fun i o hd hr => existsUnique_first h hp hpending hd hr,
    fun i => reply_eq_completed_true_iff h hp hpending,
    fun i r hr => exists_told_of_reply h hp hpending hr,
    fun i within r hd hr => told_of_await h hp hpending hd hr,
    fun i within hd => interleaved_without_await h hd⟩

/-- A wait for 50 ms runs out before a response and a failure race for the promise; the response
comes first, and so a wait without a limit and a question for the value are told of it. -/
theorem deeds_agree_of_race :
    let pending : Board := { promises := ⟨#[.pending]⟩ }
    let answer : Outcome Response := .ok (.ofValue [1])
    let settled : Board := { promises := (pending.promises.complete 0 answer).2 }
    let span := Duration.ofMillis 50
    let deed : Fin 5 → Deed := fun
      | 0 => .await (some span)
      | 1 => .await none
      | 2 => .complete answer
      | 3 => .complete (.error .connectionClosed)
      | 4 => .value
    let reply : Fin 5 → Option Reply := fun
      | 0 => some (.outcome (.error (.timeout span)))
      | 1 => some (.outcome answer)
      | 2 => some (.completed true)
      | 3 => some (.completed false)
      | 4 => some (.value (some (.ofValue [1])))
    let steps : List (Fin 5 × Board × Board) :=
      [(0, pending, pending), (0, pending, pending), (2, pending, settled), (3, settled, settled),
        (1, settled, settled), (1, settled, settled), (4, settled, settled)]
    0 < pending.promises.size ∧ (pending.promises.get 0).outcome = none ∧
      Interleaved (Apart 0) (fun i => (deed i).op 0) pending steps settled reply ∧
      (∃! j, reply j = some (.completed true)) ∧ firstToComplete deed steps = some 2 ∧
      Interleaved (Apart 0) (fun i => (deed i).op 0) pending (steps.filter (·.1 ≠ 0)) settled
        (Function.update reply 0 none) := by
  intro pending answer settled span deed reply steps
  have hsize : 0 < pending.promises.size := by decide
  have h : Interleaved (Apart 0) (fun i => (deed i).op 0) pending steps settled reply := by
    refine ⟨?_, ?_, ?_⟩
    · exact ⟨.refl _, .refl _, .refl _, .refl _, .refl _, .refl _, .refl _, .refl _⟩
    · intro i r hr
      match i with
      | 0 =>
        obtain rfl := Option.some.inj hr
        exact trail_await_some_iff.mpr ⟨pending, pending, rfl, rfl⟩
      | 1 =>
        obtain rfl := Option.some.inj hr
        exact trail_await_none_iff.mpr ⟨settled, settled, rfl, rfl, rfl⟩
      | 2 =>
        obtain rfl := Option.some.inj hr
        exact trail_complete_iff.mpr ⟨pending, rfl, rfl⟩
      | 3 =>
        obtain rfl := Option.some.inj hr
        exact trail_complete_iff.mpr ⟨settled, rfl, rfl⟩
      | 4 =>
        obtain rfl := Option.some.inj hr
        exact trail_look_iff.mpr ⟨settled, rfl, rfl⟩
    · intro i hr
      match i with
      | 0 | 1 | 2 | 3 | 4 => cases hr
  obtain ⟨hunique, hfirst, -, -, hwithout⟩ := deeds_agree hsize rfl h
  exact ⟨hsize, rfl, h, hunique 2 answer rfl rfl, (hfirst 2).mp rfl, hwithout 0 (some span) rfl⟩

end Switchboard.Promise
