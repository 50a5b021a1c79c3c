import Switchboard.Proofs.Work.Solitude
import Switchboard.Retry

/-!
# Attempts

What is attempted under a policy that permits a number of retries ends with the first attempt that
succeeds or fails for good, or else with the last that is permitted. The pauses between the attempts
lie just between them. Nothing is needed for this but that one piece of work after another does what
each of them does, be it in the foreground of a machine or alone.

A policy with a budget of time permits another attempt just if the time taken and the pause stay
below the budget, as long as the two make up a duration.
-/

namespace Switchboard.Retry

open Machine (Ends)

/-! ### A budget of time -/

/-- What the time taken and the pause come to is compared with the budget, unless it is too long for
a duration; then nothing is decided. -/
theorem permits?_untilElapsed_eq (budget interval elapsed : Duration) (attempts : UInt32) :
    (untilElapsed budget interval).permits? attempts elapsed =
      if elapsed.toNanos + interval.toNanos < Duration.limit then
        some (decide (elapsed.toNanos + interval.toNanos < budget.toNanos))
      else none := by
  change (elapsed.add? interval).map (·.lt budget) = _
  split
  · next h =>
    obtain ⟨sum, hsum⟩ := Option.isSome_iff_exists.mp (Duration.isSome_add?_iff.mpr h)
    rw [hsum, Option.map_some, Option.some_inj, ← Duration.add?_eq_some_iff.mp hsum,
      Bool.eq_iff_iff, Duration.lt_iff, decide_eq_true_iff]
  · next h =>
    rw [Option.map_eq_none_iff, ← Option.not_isSome_iff_eq_none, Duration.isSome_add?_iff]
    exact h

/-- Whether the time taken and the pause stay below the budget is told just if the two make up a
duration. If they do not, they exceed the budget and every other duration, and nothing is told. -/
theorem permits?_untilElapsed_eq_some_iff (budget interval elapsed : Duration) (attempts : UInt32) :
    let spent := elapsed.toNanos + interval.toNanos
    let decision := (untilElapsed budget interval).permits? attempts elapsed
    (decision = some (decide (spent < budget.toNanos)) ↔ spent < Duration.limit) ∧
      (Duration.limit ≤ spent → decision = none ∧ ¬ spent < budget.toNanos) := by
  intro spent decision
  have hdecision : decision = _ := permits?_untilElapsed_eq budget interval elapsed attempts
  have hbudget := budget.toNanos_lt
  constructor
  · rw [hdecision]
    split
    · next h => exact iff_of_true rfl h
    · next h => exact iff_of_false (by simp) h
  · intro h
    exact ⟨hdecision.trans (if_neg (Nat.not_lt.mpr h)), by omega⟩

example :
    let elapsed : Duration := ⟨18446744073709551615, 994999999, by decide⟩
    (untilElapsed .max (.ofMillis 5)).permits? 0 elapsed = some false ∧
      (untilElapsed .max (.ofMillis 10)).permits? 0 elapsed = none := by decide

/-! ### One attempt after another -/

/-- What work of a monad comes to from a state, where one piece of work after another comes to what
they come to. -/
structure BigStep (M : Type → Type) [Monad M] (S : Type) where
  /-- Work comes to a value and leaves a state behind. -/
  Runs : ∀ {α : Type}, M α → S → α → S → Prop
  pure : ∀ {α : Type} (a : α) (s : S), Runs (pure a) s a s
  bind : ∀ {α β : Type} {r : M α} {k : α → M β} {s s' s'' : S} {a : α} {b : β},
    Runs r s a s' → Runs (k a) s' b s'' → Runs (r >>= k) s b s''

/-- Whether an attempt failed in a way that a retry may cure. -/
def IsCurable {α : Type} (attempt : Outcome α × Bool) : Prop :=
  (∃ f, attempt.1 = .error f) ∧ attempt.2 = true

section BigStep

variable {M : Type → Type} [Monad M] {S α : Type} (step : BigStep M S)
  {count : UInt32} {interval : Duration} {elapsed : M Duration} {pause : Duration → M Unit}
  {attempt : M (Outcome α × Bool)} {result : Nat → Outcome α × Bool} {Before After : Nat → S → Prop}

/-- An attempt is the last if no retry may cure it, or if the policy permits no other. -/
theorem attemptsFrom_runs_last (helapsed : ∀ s, ∃ d, step.Runs elapsed s d s) {left : Nat}
    {retries : UInt32} {r : Outcome α × Bool} {s s' : S} (hruns : step.Runs attempt s r s')
    (hlast : ¬ IsCurable r ∨ ¬ retries < count) :
    step.Runs ((times count interval).attemptsFrom elapsed pause attempt left retries) s
      (some r.1) s' := by
  obtain ⟨d, hclock⟩ := helapsed s'
  obtain ⟨outcome, curable⟩ := r
  rw [attemptsFrom.eq_def]
  refine step.bind hruns ?_
  cases outcome with
  | ok a => exact step.pure _ s'
  | error f =>
    cases curable with
    | false => exact step.pure _ s'
    | true =>
      have hcount : ¬ retries < count := hlast.resolve_left fun h => h ⟨⟨f, rfl⟩, rfl⟩
      refine step.bind hclock ?_
      simp only [backoff, permits?, hcount, decide_false]
      exact step.bind (step.pure _ s') (step.pure _ s')

/-- After an attempt that a retry may cure there is another one, if the policy permits it. -/
theorem attemptsFrom_runs_next (helapsed : ∀ s, ∃ d, step.Runs elapsed s d s) {left : Nat}
    {retries : UInt32} {r : Outcome α × Bool} {o : Option (Outcome α)} {s s₁ s₂ s' : S}
    (hruns : step.Runs attempt s r s₁) (hcurable : IsCurable r) (hlt : retries < count)
    (hpaused : step.Runs (pause interval) s₁ () s₂)
    (hrest : step.Runs ((times count interval).attemptsFrom elapsed pause attempt left
      (retries + 1)) s₂ o s') :
    step.Runs ((times count interval).attemptsFrom elapsed pause attempt (left + 1) retries) s
      o s' := by
  obtain ⟨d, hclock⟩ := helapsed s₁
  obtain ⟨outcome, curable⟩ := r
  obtain ⟨⟨f, rfl⟩, rfl⟩ := hcurable
  rw [attemptsFrom]
  refine step.bind hruns (step.bind hclock ?_)
  simp only [backoff, permits?, hlt, decide_true, Retry.interval]
  exact step.bind (step.bind hpaused (step.pure _ s₂)) hrest

/-- The attempts from one on: `Before` and `After` tell how all stands before and after each of
them. -/
theorem attemptsFrom_runs (helapsed : ∀ s, ∃ d, step.Runs elapsed s d s)
    (hattempt : ∀ j ≤ count.toNat, ∀ s, Before j s →
      ∃ s', step.Runs attempt s (result j) s' ∧ After j s')
    (hpause : ∀ j < count.toNat, IsCurable (result j) → ∀ s, After j s →
      ∃ s', step.Runs (pause interval) s () s' ∧ Before (j + 1) s')
    {left : Nat} {retries : UInt32} (hle : retries.toNat ≤ count.toNat)
    (hleft : count.toNat ≤ retries.toNat + left) {s : S} (hs : Before retries.toNat s) :
    ∃ j, retries.toNat ≤ j ∧ j ≤ count.toNat ∧
      (∀ i, retries.toNat ≤ i → i < j → IsCurable (result i)) ∧
      (j = count.toNat ∨ ¬ IsCurable (result j)) ∧
      ∃ s', step.Runs ((times count interval).attemptsFrom elapsed pause attempt left retries) s
        (some (result j).1) s' ∧ After j s' := by
  induction left generalizing retries s with
  | zero =>
    obtain ⟨s', hruns, hafter⟩ := hattempt retries.toNat hle s hs
    have hcount : ¬ retries < count := by rw [UInt32.lt_iff_toNat_lt]; omega
    exact ⟨retries.toNat, Nat.le_refl _, hle, fun i hi hlt => by omega, .inl (by omega), s',
      attemptsFrom_runs_last step helapsed hruns (.inr hcount), hafter⟩
  | succ left ih =>
    obtain ⟨s₁, hruns, hafter⟩ := hattempt retries.toNat hle s hs
    by_cases hgo : IsCurable (result retries.toNat) ∧ retries < count
    · obtain ⟨hcurable, hlt⟩ := hgo
      have hlt' := UInt32.lt_iff_toNat_lt.mp hlt
      have hnext : (retries + 1).toNat = retries.toNat + 1 := by
        have hbound := count.toNat_lt
        rw [UInt32.toNat_add, UInt32.toNat_one, Nat.mod_eq_of_lt (by omega)]
      obtain ⟨s₂, hpaused, hbefore⟩ := hpause retries.toNat hlt' hcurable s₁ hafter
      obtain ⟨j, hge, hcount, hearlier, hlast, s', hrest, hafter⟩ :=
        ih (by omega) (by omega) (hnext ▸ hbefore)
      refine ⟨j, by omega, hcount, fun i hi hij => ?_, hlast, s',
        attemptsFrom_runs_next step helapsed hruns hcurable hlt hpaused hrest, hafter⟩
      rcases Nat.eq_or_lt_of_le hi with rfl | hi
      · exact hcurable
      · exact hearlier i (by omega) hij
    · have hlast := Classical.not_and_iff_not_or_not.mp hgo
      refine ⟨retries.toNat, Nat.le_refl _, hle, fun i hi hij => by omega, ?_, s₁,
        attemptsFrom_runs_last step helapsed hruns hlast, hafter⟩
      refine hlast.symm.imp_left fun hcount => ?_
      rw [UInt32.lt_iff_toNat_lt] at hcount
      omega

/-- Attempts under a policy that permits a number of retries end with the first that no retry may
cure, or with the last that is permitted. -/
theorem attempts_runs (helapsed : ∀ s, ∃ d, step.Runs elapsed s d s) (pause : Duration → M Unit)
    (hattempt : ∀ j ≤ count.toNat, ∀ s, Before j s →
      ∃ s', step.Runs attempt s (result j) s' ∧ After j s')
    (hpause : ∀ j < count.toNat, IsCurable (result j) → ∀ s, After j s →
      ∃ s', step.Runs (pause interval) s () s' ∧ Before (j + 1) s')
    {s : S} (hs : Before 0 s) :
    ∃ j ≤ count.toNat, (∀ i < j, IsCurable (result i)) ∧
      (j = count.toNat ∨ ¬ IsCurable (result j)) ∧
      ∃ s', step.Runs ((times count interval).attempts elapsed pause attempt) s
        (some (result j).1) s' ∧ After j s' := by
  have hbound : count.toNat ≤ (0 : UInt32).toNat + (UInt32.size - 1) := by
    have := count.toNat_lt
    simp only [UInt32.toNat_zero, UInt32.size]
    omega
  obtain ⟨j, -, hcount, hearlier, hlast, hruns⟩ :=
    attemptsFrom_runs step helapsed hattempt hpause (by simp) hbound hs
  exact ⟨j, hcount, fun i hi => hearlier i (Nat.zero_le i) hi, hlast, hruns⟩

end BigStep

variable {σ δ γ α : Type} {count : UInt32} {interval : Duration}
  {elapsed : Routine σ δ γ Duration} {attempt : Routine σ δ γ (Outcome α × Bool)}
  {result : Nat → Outcome α × Bool}

/-- Attempts in the foreground of a machine. -/
theorem attempts_ends [DecidableEq γ] {body : δ → Routine σ δ γ (Option δ)} {turns : Nat}
    {limit : Option Nat} {Before After : Nat → Machine σ δ γ → Prop}
    (helapsed : ∀ m, ∃ d, Ends body turns limit elapsed m d m)
    (pause : Duration → Routine σ δ γ Unit)
    (hattempt : ∀ j ≤ count.toNat, ∀ m, Before j m →
      ∃ m', Ends body turns limit attempt m (result j) m' ∧ After j m')
    (hpause : ∀ j < count.toNat, ∀ m, After j m →
      ∃ m', Ends body turns limit (pause interval) m () m' ∧ Before (j + 1) m')
    {m : Machine σ δ γ} (hm : Before 0 m) :
    ∃ j ≤ count.toNat, (∀ i < j, IsCurable (result i)) ∧
      (j = count.toNat ∨ ¬ IsCurable (result j)) ∧
      ∃ m', Ends body turns limit ((times count interval).attempts elapsed pause attempt) m
        (some (result j).1) m' ∧ After j m' :=
  attempts_runs ⟨Ends body turns limit, .pure, .bind⟩ helapsed pause hattempt
    (fun j hj _ => hpause j hj) hm

/-- Attempts of somebody who is alone. -/
theorem attempts_alone {Before After : Nat → Solitude σ → Prop}
    (helapsed : ∀ s, ∃ d, elapsed.alone s = some (d, s)) (pause : Duration → Routine σ δ γ Unit)
    (hattempt : ∀ j ≤ count.toNat, ∀ s, Before j s →
      ∃ s', attempt.alone s = some (result j, s') ∧ After j s')
    (hpause : ∀ j < count.toNat, IsCurable (result j) → ∀ s, After j s →
      ∃ s', (pause interval).alone s = some ((), s') ∧ Before (j + 1) s')
    {s : Solitude σ} (hs : Before 0 s) :
    ∃ j ≤ count.toNat, (∀ i < j, IsCurable (result i)) ∧
      (j = count.toNat ∨ ¬ IsCurable (result j)) ∧
      ∃ s', ((times count interval).attempts elapsed pause attempt).alone s =
        some (some (result j).1, s') ∧ After j s' :=
  attempts_runs ⟨fun r s a s' => r.alone s = some (a, s'), Routine.alone_pure,
    fun h hk => by rw [Routine.alone_bind, h]; exact hk⟩ helapsed pause hattempt hpause hs

end Switchboard.Retry
