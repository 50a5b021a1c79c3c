import Switchboard.Board.Duties
import Switchboard.Proofs.Calls.Attempts

/-!
# Calls that take turns

A call through a reference picks a provider by the counter of turns, calls it, and picks again as
long as the provider fails in a way that another might not and the policy permits it. Where the
providers stay the same and each of them ends every call in the same way, the providers are called
one after the other in a circle, and a call that may go round the whole circle finds the one that
answers.
-/

namespace Switchboard

namespace RoundRobin

/-- The counter of turns after a number of picks among as many candidates each time. -/
def after (counter : UInt64) (count picks : Nat) : UInt64 :=
  if count ≤ 1 then counter else counter + UInt64.ofNat picks

private theorem after_zero (counter : UInt64) (count : Nat) : after counter count 0 = counter := by
  simp [after]

/-- Until the counter comes round, each pick is the next of the circle. -/
theorem next_after {counter : UInt64} {count picks : Nat} (hcount : 0 < count)
    (hfits : counter.toNat + picks < UInt64.size) :
    next (after counter count picks) count =
      ((counter.toNat + picks) % count, after counter count (picks + 1)) := by
  unfold next after
  split
  · next hone =>
    obtain rfl : count = 1 := by omega
    simp [Nat.mod_one]
  · have hpicks : (UInt64.ofNat picks).toNat = picks :=
      UInt64.toNat_ofNat_of_lt' (Nat.lt_of_le_of_lt (Nat.le_add_left ..) hfits)
    have hsum : (counter + UInt64.ofNat picks).toNat = counter.toNat + picks := by
      rw [UInt64.toNat_add, hpicks, Nat.mod_eq_of_lt hfits]
    rw [hsum, UInt64.add_assoc, UInt64.ofNat_add]
    rfl

end RoundRobin

namespace Board

/-- The counter of turns of a reference stands at another number. -/
def turnTo (b : Board) (reference : Nat) (counter : UInt64) : Board :=
  { b with
    references := b.references.setIfInBounds reference
      { b.reference reference with next := counter } }

private theorem nextCandidate_eq (b : Board) (reference : Nat) (candidates : List InvokerRef) :
    b.nextCandidate reference candidates =
      (candidates[(RoundRobin.next (b.reference reference).next candidates.length).1]?,
        b.turnTo reference (RoundRobin.next (b.reference reference).next candidates.length).2) :=
  rfl

end Board

namespace Op

open Routine (look step sleep)
open Machine (Ends)

variable {turns : Nat} {limit : Option Nat}

/-- Telling the time takes none. -/
theorem elapsedSince_ends (started : Nat) (s : Site) :
    ∃ d, Ends Duty.body turns limit (elapsedSince started) s d s := ⟨_, .runs rfl⟩

/-- Calls a provider and waits for its response. -/
def ask (reference : Nat) (call : Call) (i : InvokerRef) : Op (Outcome Bytes) := do
  let promise ← invoke i call
  let span ← look fun b => (b.reference reference).timeoutFor call (b.invoker i)
  processSync promise span

/-- An outcome, and whether another provider might do better. -/
def judged (outcome : Outcome Bytes) : Outcome Bytes × Bool :=
  (outcome, match outcome with
    | .ok _ => false
    | .error f => f.isRetryable)

/-- A call picks a provider and asks it. -/
theorem callOnce_eq (reference : Nat) (call : Call) :
    callOnce reference call = pick reference call >>= fun picked =>
      match picked with
      | .error f => pure (.error f, false)
      | .ok i => judged <$> ask reference call i := by
  unfold callOnce
  refine congrArg (pick reference call >>= ·) (funext fun picked => ?_)
  cases picked with
  | error f => rfl
  | ok i =>
    simp only [ask, map_eq_pure_bind, bind_assoc]
    refine congrArg (invoke i call >>= ·) (funext fun promise => ?_)
    refine congrArg (_ >>= ·) (funext fun span => ?_)
    refine congrArg (processSync promise span >>= ·) (funext fun outcome => ?_)
    cases outcome <;> rfl

/-- Providers that stay the same and available and that end every call in the same way, whatever
else they do to the site. -/
structure Steady (turns : Nat) (limit : Option Nat) (reference : Nat) (call : Call) (retry : Retry)
    (providers : List InvokerRef) (outcome : InvokerRef → Outcome Bytes) where
  /-- The sites at which the counter of turns stands at a number and certain providers were asked so
  far. -/
  Stands : UInt64 → List InvokerRef → Site → Prop
  retry_eq : ∀ {c asked s}, Stands c asked s → (s.state.reference reference).retry = retry
  next_eq : ∀ {c asked s}, Stands c asked s → (s.state.reference reference).next = c
  find_ends : ∀ {c asked s}, Stands c asked s →
    ∃ s', Ends Duty.body turns limit (find (s.state.reference reference).resolver call) s
      (.ok providers) s' ∧ Stands c asked s'
  isAvailable : ∀ {c asked s}, Stands c asked s → ∀ i ∈ providers, s.state.isAvailable i = true
  turnTo : ∀ {c asked s} (c' : UInt64), Stands c asked s →
    Stands c' asked { s with state := s.state.turnTo reference c' }
  ask_ends : ∀ {c asked s}, Stands c asked s → ∀ i ∈ providers,
    ∃ s', Ends Duty.body turns limit (ask reference call i) s (outcome i) s' ∧
      Stands c (asked ++ [i]) s'
  sleep_ends : ∀ {c asked s}, Stands c asked s →
    ∃ s', Ends Duty.body turns limit (sleep retry.interval.toMillisUp : Op Unit) s () s' ∧
      Stands c asked s'

/-- The provider whose turn it is a number of turns after a counter. -/
def turn (providers : List InvokerRef) (counter : UInt64) (j : Nat) : InvokerRef :=
  providers.getD ((counter.toNat + j) % providers.length) 0

variable {reference : Nat} {call : Call} {retry : Retry}
  {providers : List InvokerRef} {outcome : InvokerRef → Outcome Bytes}

private theorem getElem?_turn (hproviders : providers ≠ []) (counter : UInt64) (j : Nat) :
    providers[(counter.toNat + j) % providers.length]? = some (turn providers counter j) := by
  rw [turn, List.getD_eq_getElem?_getD,
    List.getElem?_eq_getElem (Nat.mod_lt _ (List.length_pos_iff.mpr hproviders)), Option.getD_some]

private theorem turn_mem (hproviders : providers ≠ []) (counter : UInt64) (j : Nat) :
    turn providers counter j ∈ providers :=
  List.mem_of_getElem? (getElem?_turn hproviders counter j)

namespace Steady

/-- The pick takes the provider whose turn it is, and the counter moves on. -/
theorem pick_ends (steady : Steady turns limit reference call retry providers outcome)
    (hproviders : providers ≠ []) {c : UInt64} {asked : List InvokerRef} {s : Site}
    (hs : steady.Stands c asked s) {i : InvokerRef}
    (hi : providers[(RoundRobin.next c providers.length).1]? = some i) :
    ∃ s', Ends Duty.body turns limit (pick reference call) s (.ok i) s' ∧
      steady.Stands (RoundRobin.next c providers.length).2 asked s' := by
  obtain ⟨s₁, hfind, hs₁⟩ := steady.find_ends hs
  have havailable : providers.filter s₁.state.isAvailable = providers :=
    List.filter_eq_self.mpr (steady.isAvailable hs₁)
  have hpicked : (if (providers.filter s₁.state.isAvailable).isEmpty then (none, s₁.state)
      else s₁.state.nextCandidate reference (providers.filter s₁.state.isAvailable)) =
        (some i, s₁.state.turnTo reference (RoundRobin.next c providers.length).2) := by
    rw [havailable, if_neg (by simpa using hproviders), Board.nextCandidate_eq, steady.next_eq hs₁,
      hi]
  refine ⟨_, .look_bind (hfind.bind (.look_bind (.step_bind ?_))), steady.turnTo _ hs₁⟩
  rw [hpicked]
  exact .pure _ _

/-- A call of one provider ends as the provider ends it. -/
theorem callOnce_ends (steady : Steady turns limit reference call retry providers outcome)
    (hproviders : providers ≠ []) {c : UInt64} {asked : List InvokerRef} {s : Site}
    (hs : steady.Stands c asked s) {i : InvokerRef}
    (hi : providers[(RoundRobin.next c providers.length).1]? = some i) :
    ∃ s', Ends Duty.body turns limit (callOnce reference call) s (judged (outcome i)) s' ∧
      steady.Stands (RoundRobin.next c providers.length).2 (asked ++ [i]) s' := by
  obtain ⟨s₁, hpick, hs₁⟩ := steady.pick_ends hproviders hs hi
  obtain ⟨s₂, hask, hs₂⟩ := steady.ask_ends hs₁ i (List.mem_of_getElem? hi)
  refine ⟨s₂, ?_, hs₂⟩
  rw [callOnce_eq]
  refine hpick.bind ?_
  simp only [map_eq_pure_bind]
  exact hask.bind (.pure _ _)

end Steady

/-- Whether a failure might not befall another provider. -/
def MightDoBetter (outcome : Outcome Bytes) : Prop := ∃ f, outcome = .error f ∧ f.isRetryable = true

private theorem isCurable_judged_iff {o : Outcome Bytes} :
    Retry.IsCurable (judged o) ↔ MightDoBetter o := by
  cases o <;> simp [Retry.IsCurable, judged, MightDoBetter]

/-- In as many turns as there are providers everybody has a turn. -/
theorem exists_turn_eq {i : InvokerRef} (hi : i ∈ providers) (counter : UInt64) :
    ∃ j < providers.length, turn providers counter j = i := by
  obtain ⟨position, hlt, rfl⟩ := List.mem_iff_getElem.mp hi
  have hdiv := Nat.div_add_mod counter.toNat providers.length
  have hmod := Nat.mod_lt counter.toNat (Nat.zero_lt_of_lt hlt)
  have hturn : ∀ j rounds, counter.toNat + j = providers.length * rounds + position →
      turn providers counter j = providers[position] := by
    intro j rounds hj
    rw [turn, hj, Nat.mul_add_mod, Nat.mod_eq_of_lt hlt, List.getD_eq_getElem?_getD,
      List.getElem?_eq_getElem hlt, Option.getD_some]
  by_cases hle : counter.toNat % providers.length ≤ position
  · exact ⟨position - counter.toNat % providers.length, by omega,
      hturn _ (counter.toNat / providers.length) (by omega)⟩
  · refine ⟨position + providers.length - counter.toNat % providers.length, by omega,
      hturn _ (counter.toNat / providers.length + 1) ?_⟩
    rw [Nat.mul_succ]
    omega

/-- Calls through a reference go round the providers. The provider asked in each attempt is the next
of the circle; the last attempt is the first that answers or fails for good, or the last that is
permitted, and its outcome is that of the call; the counter of turns moves on by the attempts,
unless there is only one provider. So a call that may go round the whole circle gets an answer if
some provider has one and no other fails for good. -/
theorem call_ends {count : UInt32} {interval : Duration}
    (steady : Steady turns limit reference call (.times count interval) providers outcome)
    (hproviders : providers ≠ []) {counter : UInt64}
    (hfits : counter.toNat + count.toNat + 1 < UInt64.size) {s : Site}
    (hs : steady.Stands counter [] s) :
    ∃ j ≤ count.toNat, ∃ s',
      (∃ n, ∀ rounds, n ≤ rounds →
        Machine.perform Duty.body turns limit rounds (Op.call reference call) s =
          (some (some (outcome (turn providers counter j))), s'.wake)) ∧
      steady.Stands (RoundRobin.after counter providers.length (j + 1))
        ((List.range (j + 1)).map (turn providers counter)) s' ∧
      (s'.state.reference reference).next = RoundRobin.after counter providers.length (j + 1) ∧
      (∀ i < j, MightDoBetter (outcome (turn providers counter i))) ∧
      (j = count.toNat ∨ ¬ MightDoBetter (outcome (turn providers counter j))) ∧
      (providers.length ≤ count.toNat + 1 → (∃ i ∈ providers, ∃ value, outcome i = .ok value) →
        (∀ i ∈ providers, (∃ value, outcome i = .ok value) ∨ MightDoBetter (outcome i)) →
          ∃ value, outcome (turn providers counter j) = .ok value) := by
  have hcount : 0 < providers.length := List.length_pos_iff.mpr hproviders
  have hattempt : ∀ j ≤ count.toNat, ∀ s,
      steady.Stands (RoundRobin.after counter providers.length j)
        ((List.range j).map (turn providers counter)) s →
      ∃ s', Ends Duty.body turns limit (callOnce reference call) s
        (judged (outcome (turn providers counter j))) s' ∧
          steady.Stands (RoundRobin.after counter providers.length (j + 1))
            ((List.range (j + 1)).map (turn providers counter)) s' := by
    intro j hj s hs
    have hround : counter.toNat + j < UInt64.size := by omega
    have hnext := RoundRobin.next_after hcount hround
    have hi := getElem?_turn hproviders counter j
    obtain ⟨s', hends, hs'⟩ := steady.callOnce_ends hproviders hs (by rw [hnext]; exact hi)
    rw [hnext] at hs'
    refine ⟨s', hends, ?_⟩
    rw [List.range_succ, List.map_append, List.map_singleton]
    exact hs'
  have hstart : steady.Stands (RoundRobin.after counter providers.length 0)
      ((List.range 0).map (turn providers counter)) s := by
    rwa [RoundRobin.after_zero]
  obtain ⟨j, hj, hearlier, hlast, s', hends, hs'⟩ := Retry.attempts_ends
    (fun m => elapsedSince_ends s.now m) (fun span => (sleep span.toMillisUp : Op Unit)) hattempt
    (fun j _ s hs => steady.sleep_ends hs) hstart
  simp only [isCurable_judged_iff] at hearlier hlast
  refine ⟨j, hj, s', ?_, hs', steady.next_eq hs', hearlier, hlast, fun hround hanswers hothers =>
    ?_⟩
  · refine Ends.perform_eq (.now_bind (.look_bind ?_))
    rw [steady.retry_eq hs]
    exact hends
  · refine (hothers _ (turn_mem hproviders counter j)).resolve_right fun hbetter => ?_
    -- Then every attempt was made, so that also the provider that answers had its turn.
    have hall : j = count.toNat := hlast.resolve_right fun hdone => hdone hbetter
    obtain ⟨i, hi, value, hvalue⟩ := hanswers
    obtain ⟨j', hlt, rfl⟩ := exists_turn_eq hi counter
    have hfailed : MightDoBetter (outcome (turn providers counter j')) := by
      rcases Nat.lt_or_eq_of_le (show j' ≤ j by omega) with hlt | rfl
      · exact hearlier j' hlt
      · exact hbetter
    obtain ⟨f, hf, -⟩ := hfailed
    rw [hvalue] at hf
    cases hf

end Op

end Switchboard
