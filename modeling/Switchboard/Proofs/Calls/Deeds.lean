import Switchboard.Board.Basic
import Switchboard.Proofs.Promises
import Switchboard.Proofs.Work.Trails

/-!
# What may be done with a handle on a promise

Whoever has a handle on a promise may complete it, wait for it, ask what came of it, copy the handle
or give it up. Each of these deeds is a routine with steps of its own, so others may come between
them. Only a completion does anything to the outcome, and only if it is the first; and what a deed
is told depends on nothing but what its last step finds.
-/

namespace Switchboard.Promise

open Op Routine

/-- What somebody does with a handle on a promise. -/
inductive Deed where
  /-- Completes it. -/
  | complete (outcome : Outcome Response)
  /-- Waits for its outcome, perhaps no longer than a span. -/
  | await (within : Option Duration)
  /-- Asks for its value. -/
  | value
  /-- Asks for its failure. -/
  | cause
  /-- Asks whether it is complete. -/
  | isDone
  /-- Asks whether it is complete with a value. -/
  | isSuccess
  /-- Copies the handle. -/
  | hold
  /-- Gives the handle up. -/
  | release

/-- What comes back from a deed. -/
inductive Reply where
  /-- Whether a completion was the first. -/
  | completed (first : Bool)
  /-- What a wait ends with. -/
  | outcome (outcome : Outcome Response)
  /-- The value, if there is one. -/
  | value (value : Option Response)
  /-- The failure, if there is one. -/
  | cause (failure : Option Failure)
  /-- Whether something is so. -/
  | flag (holds : Bool)
  /-- That it is done. -/
  | nothing

namespace Deed

/-- The routine of a deed. -/
def op (p : PromiseId) : Deed → Op Reply
  | .complete outcome => do return .completed (← Op.complete p outcome)
  | .await none => do return .outcome (← awaitPromise p)
  | .await (some span) => do return .outcome (← awaitPromiseWithin p span)
  | .value => look fun b => .value (b.promises.get p).value?
  | .cause => look fun b => .cause (b.promises.get p).cause?
  | .isDone => look fun b => .flag (b.promises.get p).isDone
  | .isSuccess => look fun b => .flag (b.promises.get p).isSuccess
  | .hold => do
    holdPromise p
    return .nothing
  | .release => do
    releasePromise p
    return .nothing

/-- The outcome that a deed would give a promise. -/
def outcome? : Deed → Option (Outcome Response)
  | .complete outcome => some outcome
  | _ => none

/-- What a deed is told of a promise that has come to an outcome, or to none yet. -/
def told : Deed → Option (Outcome Response) → Option Reply
  | .complete _, found => some (.completed found.isNone)
  | .value, some (.ok v) => some (.value (some v))
  | .value, _ => some (.value none)
  | .cause, some (.error f) => some (.cause (some f))
  | .cause, _ => some (.cause none)
  | .isDone, found => some (.flag found.isSome)
  | .isSuccess, some (.ok _) => some (.flag true)
  | .isSuccess, _ => some (.flag false)
  | .hold, _ | .release, _ => some .nothing
  | .await _, some o => some (.outcome o)
  | .await (some span), none => some (.outcome (.error (.timeout span)))
  -- whoever waits without a limit goes on waiting
  | .await none, none => none

/-- Only a completion has an outcome. -/
theorem outcome?_eq_some_iff {d : Deed} {o : Outcome Response} :
    d.outcome? = some o ↔ d = .complete o := by
  cases d <;> simp [outcome?]

/-- Only who completes a promise is told whether it was first, and that just if it was. -/
theorem told_eq_completed_iff {d : Deed} {found : Option (Outcome Response)} {first : Bool} :
    d.told found = some (.completed first) ↔ d.outcome?.isSome ∧ found.isNone = first := by
  unfold told
  split <;> simp [outcome?]

/-- Whoever waits is told the outcome that there is, or else, if there is a limit, that the time
has run out. -/
theorem told_await {within : Option Duration} {found : Option (Outcome Response)} {r : Reply}
    (h : (Deed.await within).told found = some r) :
    (∃ o, found = some o ∧ r = .outcome o) ∨
      found = none ∧ ∃ span, within = some span ∧ r = .outcome (.error (.timeout span)) := by
  cases found with
  | some o => exact .inl ⟨o, rfl, (Option.some.inj h).symm⟩
  | none =>
    cases within with
    | none => cases h
    | some span => exact .inr ⟨rfl, span, rfl, (Option.some.inj h).symm⟩

end Deed

variable {p : PromiseId}

/-- What has come of a promise on a board. -/
def outcomeAt (p : PromiseId) (b : Board) : Option (Outcome Response) :=
  (b.promises.get p).outcome

/-- What others do that leave a promise and what came of it as they are. -/
structure Apart (p : PromiseId) (b b' : Board) : Prop where
  present : p < b.promises.size → p < b'.promises.size
  outcome : outcomeAt p b' = outcomeAt p b

/-- Whoever does nothing stays apart from every promise. -/
theorem Apart.refl (b : Board) : Apart p b b := ⟨id, rfl⟩

/-- Whoever stays apart twice stays apart. -/
theorem Apart.trans {b b' b'' : Board} (h : Apart p b b') (h' : Apart p b' b'') : Apart p b b'' :=
  ⟨h'.present ∘ h.present, h'.outcome.trans h.outcome⟩

/-- What a step of a deed does to a promise: it gives it an outcome if the deed has one and the
promise has none. -/
structure Marks (p : PromiseId) (d : Deed) (b b' : Board) : Prop where
  present : p < b.promises.size → p < b'.promises.size
  outcome : p < b.promises.size → outcomeAt p b' = (outcomeAt p b).or d.outcome?

private theorem Marks.refl {d : Deed} (hd : d.outcome? = none) (b : Board) : Marks p d b b :=
  ⟨id, fun _ => by rw [hd, Option.or_none]⟩

/-- Every step of a deed completes the promise with the outcome of the deed, if it has one. -/
theorem keeps_deed (d : Deed) : Keeps (Marks p d) (d.op p) := by
  cases d with
  | complete o =>
    refine Keeps.bind (keeps_step fun b => ⟨?_, ?_⟩) fun _ => keeps_pure _
    · exact fun hp => Nat.lt_of_lt_of_eq hp (Promises.size_complete _ _ _).symm
    · intro hp
      change ((b.promises.complete p o).2.get p).outcome = (b.promises.get p).outcome.or (some o)
      rw [Promises.outcome_complete, if_pos ⟨rfl, hp⟩]
      cases (b.promises.get p).outcome <;> rfl
  | await within =>
    have hrefl : ∀ b, Marks p (.await within) b b := Marks.refl rfl
    cases within with
    | none =>
      exact ((keeps_await hrefl _).bind fun _ => keeps_look hrefl _).bind fun _ => keeps_pure _
    | some span =>
      exact ((keeps_awaitWithin hrefl _ _).bind fun _ => keeps_look hrefl _).bind
        fun _ => keeps_pure _
  | value => exact keeps_look (Marks.refl rfl) _
  | cause => exact keeps_look (Marks.refl rfl) _
  | isDone => exact keeps_look (Marks.refl rfl) _
  | isSuccess => exact keeps_look (Marks.refl rfl) _
  | hold =>
    refine Keeps.bind (keeps_modify fun b => ⟨?_, ?_⟩) fun _ => keeps_pure _
    · exact fun hp => Nat.lt_of_lt_of_eq hp (Promises.size_hold _ _).symm
    · exact fun _ => (Promises.outcome_hold _ _ _).trans (Option.or_none ..).symm
  | release =>
    refine Keeps.bind (keeps_modify fun b => ⟨?_, ?_⟩) fun _ => keeps_pure _
    · exact fun hp => Nat.lt_of_lt_of_eq hp (Promises.size_release _ _).symm
    · exact fun _ => (Promises.outcome_release _ _ _).trans (Option.or_none ..).symm

/-- A wait leaves the whole board as it is. -/
theorem keeps_await_eq (within : Option Duration) : Keeps Eq ((Deed.await within).op p) := by
  have hrefl : ∀ b : Board, b = b := fun _ => rfl
  cases within with
  | none =>
    exact ((keeps_await hrefl _).bind fun _ => keeps_look hrefl _).bind fun _ => keeps_pure _
  | some span =>
    exact ((keeps_awaitWithin hrefl _ _).bind fun _ => keeps_look hrefl _).bind
      fun _ => keeps_pure _

section Trails

variable {trail : List (Board × Board)} {r : Reply}

/-- A completion is one step. -/
theorem trail_complete_iff {o : Outcome Response} :
    Trail ((Deed.complete o).op p) trail r ↔
      ∃ b : Board, trail = [(b, { b with promises := (b.promises.complete p o).2 })] ∧
        r = .completed (outcomeAt p b).isNone := by
  have hnone : ∀ b : Board, (b.promises.complete p o).1 = (outcomeAt p b).isNone := by
    intro b
    simp [Promises.complete, Promise.isDone, outcomeAt]
  simp only [Deed.op, Op.complete, trail_bind_iff, trail_step_iff, trail_pure_iff, hnone]
  constructor
  · rintro ⟨_, _, _, ⟨b, rfl, rfl⟩, ⟨rfl, rfl⟩, rfl⟩
    exact ⟨b, rfl, rfl⟩
  · rintro ⟨b, rfl, rfl⟩
    exact ⟨_, _, _, ⟨b, rfl, rfl⟩, ⟨rfl, rfl⟩, rfl⟩

/-- A wait without a limit is over once the promise is complete, and looks at it then. -/
theorem trail_await_none_iff :
    Trail ((Deed.await none).op p) trail r ↔
      ∃ waited looked, (outcomeAt p waited).isSome ∧ trail = [(waited, waited), (looked, looked)] ∧
        r = .outcome ((outcomeAt p looked).getD (.error .connectionClosed)) := by
  simp only [Deed.op, awaitPromise, trail_bind_iff, trail_await_iff, trail_look_iff, trail_pure_iff]
  constructor
  · rintro ⟨_, _, _, ⟨_, _, _, ⟨waited, hdone, rfl⟩, ⟨looked, rfl, rfl⟩, rfl⟩, ⟨rfl, rfl⟩, rfl⟩
    exact ⟨waited, looked, hdone, rfl, rfl⟩
  · rintro ⟨waited, looked, hdone, rfl, rfl⟩
    exact ⟨_, _, _, ⟨(), _, _, ⟨waited, hdone, rfl⟩, ⟨looked, rfl, rfl⟩, rfl⟩, ⟨rfl, rfl⟩, rfl⟩

/-- A wait with a limit may be over at any time, and looks at the promise then. -/
theorem trail_await_some_iff {span : Duration} :
    Trail ((Deed.await (some span)).op p) trail r ↔
      ∃ waited looked, trail = [(waited, waited), (looked, looked)] ∧
        r = .outcome ((outcomeAt p looked).getD (.error (.timeout span))) := by
  simp only [Deed.op, awaitPromiseWithin, trail_bind_iff, trail_awaitWithin_iff, trail_look_iff,
    trail_pure_iff]
  constructor
  · rintro ⟨_, _, _, ⟨_, _, _, ⟨waited, rfl⟩, ⟨looked, rfl, rfl⟩, rfl⟩, ⟨rfl, rfl⟩, rfl⟩
    exact ⟨waited, looked, rfl, rfl⟩
  · rintro ⟨waited, looked, rfl, rfl⟩
    exact ⟨_, _, _, ⟨(), _, _, ⟨waited, rfl⟩, ⟨looked, rfl, rfl⟩, rfl⟩, ⟨rfl, rfl⟩, rfl⟩

/-- A deed ends with a step that tells what came of the promise, provided that nothing that an
earlier step of the deed found was lost since. -/
theorem told_of_trail {d : Deed} (h : Trail (d.op p) trail r) :
    ∃ earlier found left, trail = earlier ++ [(found, left)] ∧
      ((∀ step ∈ earlier, (outcomeAt p step.1).isSome → (outcomeAt p found).isSome) →
        d.told (outcomeAt p found) = some r) := by
  cases d with
  | complete o =>
    obtain ⟨found, rfl, rfl⟩ := trail_complete_iff.mp h
    exact ⟨[], found, _, rfl, fun _ => rfl⟩
  | await within =>
    cases within with
    | none =>
      obtain ⟨waited, looked, hdone, rfl, rfl⟩ := trail_await_none_iff.mp h
      refine ⟨[(waited, waited)], looked, looked, rfl, fun hkept => ?_⟩
      obtain ⟨o, ho⟩ := Option.isSome_iff_exists.mp (hkept _ List.mem_cons_self hdone)
      rw [ho]
      rfl
    | some span =>
      obtain ⟨waited, looked, rfl, rfl⟩ := trail_await_some_iff.mp h
      refine ⟨[(waited, waited)], looked, looked, rfl, fun _ => ?_⟩
      cases outcomeAt p looked <;> rfl
  | value =>
    obtain ⟨found, rfl, rfl⟩ := trail_look_iff.mp h
    refine ⟨[], found, _, rfl, fun _ => ?_⟩
    unfold Promise.value? outcomeAt
    split <;> simp_all [Deed.told]
  | cause =>
    obtain ⟨found, rfl, rfl⟩ := trail_look_iff.mp h
    refine ⟨[], found, _, rfl, fun _ => ?_⟩
    unfold Promise.cause? outcomeAt
    split <;> simp_all [Deed.told]
  | isDone =>
    obtain ⟨found, rfl, rfl⟩ := trail_look_iff.mp h
    exact ⟨[], found, _, rfl, fun _ => rfl⟩
  | isSuccess =>
    obtain ⟨found, rfl, rfl⟩ := trail_look_iff.mp h
    refine ⟨[], found, _, rfl, fun _ => ?_⟩
    unfold Promise.isSuccess outcomeAt
    split <;> simp_all [Deed.told]
  | hold =>
    simp only [Deed.op, holdPromise, trail_bind_iff, trail_modify_iff, trail_pure_iff] at h
    obtain ⟨_, _, _, ⟨found, rfl⟩, ⟨rfl, rfl⟩, rfl⟩ := h
    exact ⟨[], found, _, rfl, fun _ => rfl⟩
  | release =>
    simp only [Deed.op, releasePromise, trail_bind_iff, trail_modify_iff, trail_pure_iff] at h
    obtain ⟨_, _, _, ⟨found, rfl⟩, ⟨rfl, rfl⟩, rfl⟩ := h
    exact ⟨[], found, _, rfl, fun _ => rfl⟩

/-- No deed ends without a step. -/
theorem trail_ne_nil {d : Deed} (h : Trail (d.op p) trail r) : trail ≠ [] := by
  obtain ⟨earlier, found, left, rfl, -⟩ := told_of_trail h
  exact List.append_ne_nil_of_right_ne_nil _ (List.cons_ne_nil _ _)

end Trails

end Switchboard.Promise
