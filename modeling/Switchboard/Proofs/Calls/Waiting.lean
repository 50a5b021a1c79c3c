import Switchboard.Board.Basic
import Switchboard.Proofs.Promises
import Switchboard.Proofs.Work.Trails

/-!
# Waiting for a call

Whoever waits for the response of a call takes the outcome from the wait and settles the promise
afterwards, if the outcome is a failure. Others complete the promise whenever they like, also
between the two: then the promise keeps what they gave it, and whoever looks at it later sees that
and not what the wait returned.

By `SPEC_FULL.md`, section 4.6, a wait that runs out also fails the promise, so that all others who
wait are released.
-/

namespace Switchboard

namespace Promises

/-- From one store to a later one: a promise is not lost, and what came of it stays. -/
structure Lasts (p : PromiseId) (s s' : Promises) : Prop where
  /-- The promise is still there. -/
  present : p < s.size → p < s'.size
  /-- Its outcome is still the same. -/
  outcome : ∀ o, (s.get p).outcome = some o → (s'.get p).outcome = some o

section Lasts

variable {p : PromiseId} (s : Promises)

private theorem Lasts.refl : s.Lasts p s := ⟨id, fun _ => id⟩

variable {s}

private theorem Lasts.trans {s' s'' : Promises} (h : Lasts p s s') (h' : Lasts p s' s'') :
    Lasts p s s'' :=
  ⟨h'.present ∘ h.present, fun o ho => h'.outcome o (h.outcome o ho)⟩

variable (s)

/-- A completion of any promise leaves every outcome there is. -/
theorem lasts_complete (i : PromiseId) (o : Outcome Response) : Lasts p s (s.complete i o).2 := by
  refine ⟨by simp, fun o' ho' => ?_⟩
  rw [outcome_complete]
  split
  · rw [ho', Option.getD_some]
  · exact ho'

/-- A completion leaves a promise with the outcome it had, or else with the new one. -/
theorem outcome_complete_self {o : Outcome Response} (hp : p < s.size) :
    ((s.complete p o).2.get p).outcome = some ((s.get p).outcome.getD o) := by
  rw [outcome_complete, if_pos ⟨rfl, hp⟩]

end Lasts

end Promises

/-- A glance at a completed promise sees just one outcome of the call. -/
theorem Promise.glance_eq_iff {promise : Promise Response} {o : Outcome Response}
    (h : promise.outcome = some o) (res : Outcome Bytes) :
    promise.glance = res.map some ↔ responseOutcome o = res := by
  simp only [glance, h]
  cases responseOutcome o <;> cases res <;> simp [Except.map]

namespace Op

open Routine

variable {p : PromiseId} {span : Duration} {steps : List (Board × Board)} {res : Outcome Bytes}
  {b b' : Board}

/-- What others do to a board on which somebody waits for a promise: they may complete it, but it
stays. -/
def Spares (p : PromiseId) (b b' : Board) : Prop := b.promises.Lasts p b'.promises

/-- The wait ran out, and somebody completed the promise with another outcome before whoever had
waited for it did: the steps are the wait, the look at the promise and its completion. -/
def Overtaken (p : PromiseId) (span : Duration) : List (Board × Board) → Prop
  | [_, looked, settled] =>
    (looked.1.promises.get p).outcome = none ∧
      ∃ o, (settled.1.promises.get p).outcome = some o ∧ responseOutcome o ≠ .error (.timeout span)
  | _ => False

/-- Waits for a promise, for at most a span unless that is zero. -/
def wait (p : PromiseId) (span : Duration) : Op (Outcome Response) :=
  if 0 < span.toNanos then awaitPromiseWithin p span else awaitPromise p

/-- Returns the outcome of a call, and settles its promise before if that is a failure. -/
def settling (p : PromiseId) (outcome : Outcome Response) : Op (Outcome Bytes) :=
  match responseOutcome outcome with
  | .ok value => pure (.ok value)
  | .error f => do
    let _ ← complete p (.error f)
    pure (.error f)

private theorem processSync_eq : processSync p span = wait p span >>= settling p := by
  unfold wait
  split
  · next h => exact if_pos h
  · next h => exact if_neg h

/-- A wait for a promise ends with a look that tells what came of it, and if nothing did, that the
wait ran out. -/
theorem trail_wait {outcome : Outcome Response} (hleads : Leads (Spares p) b steps b')
    (h : Trail (wait p span) steps outcome) :
    ∃ waited looked, steps = [(waited, waited), (looked, looked)] ∧
      outcome = (looked.promises.get p).outcome.getD (.error (.timeout span)) := by
  unfold wait at h
  split at h
  · simp only [awaitPromiseWithin, trail_bind_iff, trail_awaitWithin_iff, trail_look_iff] at h
    obtain ⟨⟨⟩, _, _, ⟨waited, rfl⟩, ⟨looked, rfl, rfl⟩, rfl⟩ := h
    exact ⟨waited, looked, rfl, rfl⟩
  · simp only [awaitPromise, trail_bind_iff, trail_await_iff, trail_look_iff] at h
    obtain ⟨⟨⟩, _, _, ⟨waited, hready, rfl⟩, ⟨looked, rfl, rfl⟩, rfl⟩ := h
    refine ⟨waited, looked, rfl, ?_⟩
    -- Without a span the promise was done when the wait was over, and so it is at the look.
    obtain ⟨o, ho⟩ := Option.isSome_iff_exists.mp hready
    have hspares : Spares p waited looked := hleads.2.1
    rw [hspares.outcome o ho]
    rfl

private theorem Spares.refl (b : Board) : Spares p b b := Promises.Lasts.refl _

private theorem Spares.trans {b'' : Board} (h : Spares p b b') (h' : Spares p b' b'') :
    Spares p b b'' :=
  Promises.Lasts.trans h h'

/-! ### What others do

Others put new promises on the board, hold and release them, complete them, and wait for them as
well. -/

section Others

variable (q : PromiseId)

private theorem keeps_complete (o : Outcome Response) : Keeps (Spares p) (complete q o) :=
  keeps_step fun b => b.promises.lasts_complete q o

private theorem keeps_wait : Keeps (Spares p) (wait q span) := by
  unfold wait
  split
  · exact (keeps_awaitWithin Spares.refl _ _).bind fun _ => keeps_look Spares.refl _
  · exact (keeps_await Spares.refl _).bind fun _ => keeps_look Spares.refl _

/-- Who waits for a call, of the same promise or of another, is one of the others. -/
theorem keeps_processSync : Keeps (Spares p) (processSync q span) := by
  rw [processSync_eq]
  refine (keeps_wait q).bind fun outcome => ?_
  unfold settling
  split
  · exact keeps_pure _
  · exact (keeps_complete q _).bind fun _ => keeps_pure _

end Others

/-! ### What a wait returns and what it leaves -/

/-- Whoever waits for a call returns what the look told, and settles the promise before if that is
a failure. -/
theorem trail_processSync (hleads : Leads (Spares p) b steps b')
    (h : Trail (processSync p span) steps res) :
    ∃ waited looked,
      responseOutcome ((looked.promises.get p).outcome.getD (.error (.timeout span))) = res ∧
        ((∃ v, res = .ok v ∧ steps = [(waited, waited), (looked, looked)]) ∨
          ∃ f settled, res = .error f ∧ steps =
            [(waited, waited), (looked, looked),
              (settled, { settled with
                promises := (settled.promises.complete p (.error f)).2 })]) := by
  rw [processSync_eq, trail_bind_iff] at h
  obtain ⟨outcome, first, rest, hwait, hrest, rfl⟩ := h
  obtain ⟨mid, hfirst, -⟩ := (leads_append Spares.refl Spares.trans).mp hleads
  obtain ⟨waited, looked, rfl, rfl⟩ := trail_wait hfirst hwait
  refine ⟨waited, looked, ?_⟩
  unfold settling at hrest
  split at hrest
  · next v hv =>
    obtain ⟨rfl, rfl⟩ := trail_pure_iff.mp hrest
    exact ⟨hv, .inl ⟨v, rfl, rfl⟩⟩
  · next f hf =>
    simp only [complete, trail_bind_iff, trail_step_iff, trail_pure_iff] at hrest
    obtain ⟨_, _, _, ⟨settled, rfl, -⟩, ⟨rfl, rfl⟩, rfl⟩ := hrest
    exact ⟨hf, .inr ⟨f, settled, rfl, rfl⟩⟩

/-- Whoever has waited for a call leaves its promise completed. The outcome is the one that the wait
returned just if the wait was not overtaken, and only a wait that ran out can be. -/
theorem outcome_of_trail (hp : p < b.promises.size) (h : Trail (processSync p span) steps res)
    (hleads : Leads (Spares p) b steps b') :
    ∃ o, (b'.promises.get p).outcome = some o ∧
      (Overtaken p span steps → res = .error (.timeout span)) ∧
      (responseOutcome o = res ↔ ¬Overtaken p span steps) := by
  obtain ⟨waited, looked, hres, ⟨v, rfl, rfl⟩ | ⟨f, settled, rfl, rfl⟩⟩ :=
    trail_processSync hleads h
  · obtain ⟨-, -, hend⟩ := hleads
    cases ho : (looked.promises.get p).outcome with
    | none =>
      rw [ho] at hres
      cases hres
    | some o =>
      rw [ho] at hres
      exact ⟨o, hend.outcome o ho, False.elim, iff_of_true hres id⟩
  · obtain ⟨hwaited, hlooked, hsettled, hend⟩ := hleads
    have hsize : p < settled.promises.size :=
      hsettled.present (hlooked.present (hwaited.present hp))
    refine ⟨_, hend.outcome _ (settled.promises.outcome_complete_self hsize), ?_⟩
    cases ho : (looked.promises.get p).outcome with
    | some o =>
      rw [ho] at hres
      have hsame := hsettled.outcome o ho
      simp only [Overtaken, ho, hsame, Option.getD_some]
      exact ⟨nofun, iff_of_true hres nofun⟩
    | none =>
      rw [ho] at hres
      obtain rfl : .timeout span = f := Except.error.inj hres
      refine ⟨fun _ => rfl, ?_⟩
      -- Whoever waited completes the promise itself unless somebody else has done so since.
      cases ho' : (settled.promises.get p).outcome with
      | none => simp [Overtaken, ho', responseOutcome, Except.bind]
      | some o => simp [Overtaken, ho, ho']

/-- Where nobody comes between the end of the wait and the return, a glance at the promise sees what
the wait returned. -/
theorem glance_of_undisturbed {waited : Board} (hp : p < waited.promises.size)
    (h : Trail (processSync p span) ((waited, waited) :: steps) res)
    (hrest : Leads Eq waited steps b') : (b'.promises.get p).glance = res.map some := by
  have hleads : Leads (Spares p) waited ((waited, waited) :: steps) b' :=
    ⟨Spares.refl waited, hrest.mono fun heq => heq ▸ Spares.refl _⟩
  obtain ⟨o, ho, -, hiff⟩ := outcome_of_trail hp h hleads
  rw [Promise.glance_eq_iff ho, hiff]
  obtain ⟨_, looked, -, ⟨v, -, hsteps⟩ | ⟨f, settled, -, hsteps⟩⟩ := trail_processSync hleads h
  · rw [hsteps]
    exact id
  · rw [hsteps]
    rintro ⟨hpending, o', hdone, -⟩
    obtain ⟨-, rfl⟩ := List.cons.inj hsteps
    obtain ⟨rfl, rfl, -⟩ := hrest
    exact absurd (hdone.symm.trans hpending) nofun

/-- Whoever has waited for a call leaves its promise completed. Later glances at it agree with what
the wait returned just if the wait was not overtaken, and only a wait that ran out can be. -/
theorem glance_iff_not_overtaken (hp : p < b.promises.size)
    (h : Trail (processSync p span) steps res) (hleads : Leads (Spares p) b steps b') :
    (b'.promises.get p).isDone ∧
      (Overtaken p span steps → res = .error (.timeout span)) ∧
      ((b'.promises.get p).glance = res.map some ↔ ¬Overtaken p span steps) := by
  obtain ⟨o, ho, htimeout, hiff⟩ := outcome_of_trail hp h hleads
  exact ⟨Option.isSome_of_eq_some ho, htimeout, (Promise.glance_eq_iff ho res).trans hiff⟩

/-- A wait for a tenth of a second runs out, but before the timeout is put into the promise, the
response comes: the wait returns the timeout, and a glance sees the response. -/
theorem glance_of_late_response :
    let pending : Board := { promises := ⟨#[.pending]⟩ }
    let answered : Board :=
      { promises := (pending.promises.complete 0 (.ok (.ofValue [1]))).2 }
    let span := Duration.ofMillis 100
    let steps := [(pending, pending), (pending, pending), (answered, answered)]
    0 < pending.promises.size ∧ Trail (processSync 0 span) steps (.error (.timeout span)) ∧
      Leads (Spares 0) pending steps answered ∧ Overtaken 0 span steps ∧
      (answered.promises.get 0).glance = .ok (some [1]) ∧
      (answered.promises.get 0).glance ≠ .error (.timeout span) := by
  intro pending answered span steps
  have hsize : 0 < pending.promises.size := by decide
  have hover : Overtaken 0 span steps := ⟨rfl, _, rfl, nofun⟩
  have hwait : Trail (wait 0 span) [(pending, pending), (pending, pending)]
      (.error (.timeout span)) := by
    rw [wait, if_pos (by decide)]
    exact trail_bind_iff.mpr ⟨(), [_], [_], trail_awaitWithin_iff.mpr ⟨pending, rfl⟩,
      trail_look_iff.mpr ⟨pending, rfl, rfl⟩, rfl⟩
  have hsettling : Trail (settling 0 (.error (.timeout span))) [(answered, answered)]
      (.error (.timeout span)) :=
    trail_bind_iff.mpr ⟨false, [_], [], trail_step_iff.mpr ⟨answered, rfl, rfl⟩, .done _, rfl⟩
  have htrail : Trail (processSync 0 span) steps (.error (.timeout span)) := by
    rw [processSync_eq]
    exact trail_bind_iff.mpr ⟨_, _, _, hwait, hsettling, rfl⟩
  have hleads : Leads (Spares 0) pending steps answered :=
    ⟨.refl _, .refl _, pending.promises.lasts_complete 0 _, .refl _⟩
  refine ⟨hsize, htrail, hleads, hover, rfl, ?_⟩
  exact fun heq => (glance_iff_not_overtaken hsize htrail hleads).2.2.mp heq hover

end Op

end Switchboard
