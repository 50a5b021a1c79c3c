import Switchboard.Duration
import Switchboard.Failure

/-!
# Retrying

A policy decides from the attempts made and the time they took whether there is another one, and
fixes the pause before it. A policy with a budget adds the pause to the time taken, and that sum
may overflow: then there is no decision at all.

The policies are `NoRetry`, `RetryNTimes` and `RetryUntilElapsed` of `SPEC_FULL.md`, section 4.3:
`permits?` is their `should_retry` but for the pause, and `backoff` is the function of that name.
-/

namespace Switchboard

/-- When a failed operation is attempted again. -/
inductive Retry where
  /-- A fixed number of times. -/
  | times (count : UInt32) (interval : Duration)
  /-- Until a budget of time is used up. -/
  | untilElapsed (budget interval : Duration)
  /-- Never. -/
  | never
deriving DecidableEq, Repr

namespace Retry

/-- The pause between two attempts. -/
def interval : Retry → Duration
  | times _ interval => interval
  | untilElapsed _ interval => interval
  | never => Duration.zero

/-- Whether another attempt follows `attempts` attempts that took `elapsed`; nothing if the time
with the pause added is no duration. -/
def permits? (policy : Retry) (attempts : UInt32) (elapsed : Duration) : Option Bool :=
  match policy with
  | times count _ => some (attempts < count)
  | untilElapsed budget interval => (elapsed.add? interval).map (·.lt budget)
  | never => some false

/-- What is reported when the time taken and the pause overflow. -/
def overflowMessage : String := "overflow when adding durations"

variable {m : Type → Type} [Monad m] {α : Type}

/-- Waits before another attempt if there is one, and says whether there is, unless nothing is
decided. -/
def backoff (policy : Retry) (pause : Duration → m Unit) (attempts : UInt32) (elapsed : Duration) :
    m (Option Bool) :=
  match policy.permits? attempts elapsed with
  | some true => do
    pause policy.interval
    pure (some true)
  | decision => pure decision

/-- Attempts something until it succeeds, fails in a way that no retry may cure, or the policy
permits no further attempt. An attempt says beside its outcome whether a retry may cure it. There is
no outcome where the policy decides nothing, nor where the 32 bits of the count of retries overflow;
`left` is how far the count is from that. -/
def attemptsFrom (policy : Retry) (elapsed : m Duration) (pause : Duration → m Unit)
    (attempt : m (Outcome α × Bool)) (left : Nat) (retries : UInt32) : m (Option (Outcome α)) := do
  let (outcome, curable) ← attempt
  match outcome, curable with
  | .error f, true =>
    match ← policy.backoff pause retries (← elapsed) with
    | none => pure none
    | some false => pure (some (.error f))
    | some true =>
      match left with
      | 0 => pure none
      | left + 1 => policy.attemptsFrom elapsed pause attempt left (retries + 1)
  | outcome, _ => pure (some outcome)

/-- Attempts something as often as the policy permits; `elapsed` tells the time that the attempts
took so far. -/
def attempts (policy : Retry) (elapsed : m Duration) (pause : Duration → m Unit)
    (attempt : m (Outcome α × Bool)) : m (Option (Outcome α)) :=
  policy.attemptsFrom elapsed pause attempt (UInt32.size - 1) 0

end Retry

end Switchboard
