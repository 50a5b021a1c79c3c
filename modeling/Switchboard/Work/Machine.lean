import Switchboard.Work.Routine

/-!
# Machines

A machine runs routines one turn at a time over one state and a clock of its own. Work that can go
on stands in a queue, first in, first out; a turn runs the first of it until it has to wait or
ends. Work that waits goes back to the queue, behind all others, once its wait is over; of several
such the one that began to wait first goes first. The clock moves only when the queue is empty, and
then straight to the next time that anybody waits for.

Whoever uses the machine works in the foreground: it goes first after the clock has moved, and
otherwise when the queue is empty.

The machine stands for the runtime of `SPEC_FULL.md`, sections 5 and 10, with its clock stopped.
-/

namespace Switchboard

/-- Work that was begun. A piece of work that ends with a duty goes on with it at once. -/
structure Task (σ δ γ : Type) where
  /-- Its name. -/
  id : TaskId
  /-- What is left of it. -/
  rest : Routine σ δ γ (Option δ)

/-- A state, a clock and the work that is under way. -/
structure Machine (σ δ γ : Type) where
  /-- The state that all work shares. -/
  state : σ
  /-- The time. -/
  now : Nat := 0
  /-- What can go on, in order. -/
  ready : List (Task σ δ γ) := []
  /-- What waits, in the order in which it began to. -/
  waiting : List (Task σ δ γ) := []
  /-- The places taken at gates, in the order in which they were taken. -/
  places : List (γ × TaskId) := []
  /-- How many tasks have been begun. -/
  begun : Nat := 0

namespace Machine

variable {σ δ γ α : Type} [DecidableEq γ] (body : δ → Routine σ δ γ (Option δ))

/-- The name of the foreground; tasks count from one. -/
def foreground : TaskId := 0

/-- Who may pass a gate. -/
def firstAt (m : Machine σ δ γ) (gate : γ) : Option TaskId :=
  (m.places.find? fun place => place.1 == gate).map Prod.snd

/-- Takes a place at a gate, unless it is taken already. -/
def takePlace (m : Machine σ δ γ) (gate : γ) (task : TaskId) : Machine σ δ γ :=
  if (gate, task) ∈ m.places then m else { m with places := m.places ++ [(gate, task)] }

/-- Gives up a place at a gate. -/
def leavePlace (m : Machine σ δ γ) (gate : γ) (task : TaskId) : Machine σ δ γ :=
  { m with places := m.places.filter (· ≠ (gate, task)) }

/-- Gives up every place of a task. -/
def leaveAll (m : Machine σ δ γ) (task : TaskId) : Machine σ δ γ :=
  { m with places := m.places.filter (·.2 ≠ task) }

/-- Begins a duty, behind all that can go on. -/
def begin (m : Machine σ δ γ) (duty : δ) : Machine σ δ γ :=
  { m with
    begun := m.begun + 1
    ready := m.ready ++ [⟨m.begun + 1, body duty⟩] }

/-- Calls a task off. -/
def cancel (m : Machine σ δ γ) (task : TaskId) : Machine σ δ γ :=
  leaveAll { m with
    ready := m.ready.filter (·.id ≠ task)
    waiting := m.waiting.filter (·.id ≠ task) } task

/-- Whether a task is still under way. -/
def isUnderWay (m : Machine σ δ γ) (task : TaskId) : Bool :=
  m.ready.any (·.id = task) || m.waiting.any (·.id = task)

/-- Whether a routine of a task can go on. -/
def canGo (m : Machine σ δ γ) (task : TaskId) : Routine σ δ γ α → Bool
  | .pause time ready _ => ready m.state || time.any (· ≤ m.now)
  | .enter gate _ => m.firstAt gate == some task
  | _ => true

/-- Runs a routine of a task until it ends or has to wait. -/
def run (task : TaskId) : Routine σ δ γ α → Machine σ δ γ →
    Except (Routine σ δ γ α) α × Machine σ δ γ
  | .done a, m => (.ok a, m)
  | .act update next, m => run task (next m.state) { m with state := update m.state }
  | .start duty next, m => run task (next (m.begun + 1)) (m.begin body duty)
  | .cancel other next, m => run task next (m.cancel other)
  | .clock next, m => run task (next m.now) m
  | .pause time ready next, m =>
    if ready m.state || time.any (· ≤ m.now) then run task next m
    else (.error (.pause time ready next), m)
  | .enter gate next, m =>
    let m := m.takePlace gate task
    if m.firstAt gate = some task then run task next m else (.error (.enter gate next), m)
  | .leave gate next, m => run task next (m.leavePlace gate task)

/-- One routine after another runs until the first has to wait, or else on into the second. -/
theorem run_bind {β : Type} (task : TaskId) (r : Routine σ δ γ α) (k : α → Routine σ δ γ β)
    (m : Machine σ δ γ) :
    run body task (r >>= k) m =
      match run body task r m with
      | (.ok a, m) => run body task (k a) m
      | (.error left, m) => (.error (left >>= k), m) := by
  change run body task (r.bind k) m = _
  induction r generalizing m with
  | done a => rfl
  | act update next ih => exact ih _ _
  | start duty next ih => exact ih _ _
  | cancel other next ih => exact ih _
  | clock next ih => exact ih _ _
  | pause time ready next ih =>
    simp only [Routine.bind, run]
    split
    · exact ih _
    · rfl
  | enter gate next ih =>
    simp only [Routine.bind, run]
    split
    · exact ih _
    · rfl
  | leave gate next ih => exact ih _

section Run

variable {β : Type} (task : TaskId) (m : Machine σ δ γ)

/-- A value is come to at once. -/
theorem run_pure (a : α) : run body task (pure a) m = (.ok a, m) := rfl

/-- A change is made to the state there is. -/
theorem run_modify (f : σ → σ) :
    run body task (Routine.modify f) m = (.ok (), { m with state := f m.state }) := rfl

/-- A change is made before what follows it. -/
theorem run_modify_bind (f : σ → σ) (k : Unit → Routine σ δ γ β) :
    run body task (Routine.modify f >>= k) m = run body task (k ()) { m with state := f m.state } :=
  rfl

/-- What follows a look is given what it saw. -/
theorem run_look_bind (f : σ → α) (k : α → Routine σ δ γ β) :
    run body task (Routine.look f >>= k) m = run body task (k (f m.state)) m := rfl

/-- What follows a step is given its value and runs on the state that it left. -/
theorem run_step_bind (f : σ → α × σ) (k : α → Routine σ δ γ β) :
    run body task (Routine.step f >>= k) m =
      run body task (k (f m.state).1) { m with state := (f m.state).2 } := rfl

end Run

/-- Puts work whose wait is over back into the queue. -/
def wake (m : Machine σ δ γ) : Machine σ δ γ :=
  { m with
    ready := m.ready ++ m.waiting.filter fun t => m.canGo t.id t.rest
    waiting := m.waiting.filter fun t => !m.canGo t.id t.rest }

/-- One turn of the first in the queue; nothing if the queue is empty. -/
def turn? (m : Machine σ δ γ) : Option (Machine σ δ γ) :=
  match m.ready with
  | [] => none
  | t :: rest =>
    match run body t.id t.rest { m with ready := rest } with
    | (.ok none, m) => some m.wake
    | (.ok (some duty), m) => some (wake { m with ready := ⟨t.id, body duty⟩ :: m.ready })
    | (.error left, m) => some (wake { m with waiting := m.waiting ++ [⟨t.id, left⟩] })

/-- Takes turns until the queue is empty, but no more than `turns`. -/
def settle : (turns : Nat) → Machine σ δ γ → Machine σ δ γ
  | 0, m => m
  | turns + 1, m =>
    match m.turn? body with
    | some m => settle turns m
    | none => m

/-- The time a routine waits for. -/
def timeOf : Routine σ δ γ α → Option Nat
  | .pause time _ _ => time
  | _ => none

/-- The earlier of two times, of which either may be missing. -/
def earlier : Option Nat → Option Nat → Option Nat
  | some a, some b => some (min a b)
  | some a, none => some a
  | none, b => b

/-- The next time that any task waits for. -/
def nextTime (m : Machine σ δ γ) : Option Nat :=
  m.waiting.foldl (fun time t => earlier time (timeOf t.rest)) none

/-- Moves the clock. -/
def moveTo (m : Machine σ δ γ) (time : Nat) : Machine σ δ γ :=
  wake { m with now := max m.now time }

/-- Works in the foreground until the routine ends. It is given up, with no result, once `limit`
has come, or when nothing is left to wait for; `rounds` bounds how often the clock moves, and
`turns` the turns in between. -/
def perform (turns : Nat) (limit : Option Nat) : (rounds : Nat) → Routine σ δ γ α →
    Machine σ δ γ → Option α × Machine σ δ γ
  | 0, _, m => (none, m.leaveAll foreground)
  | rounds + 1, r, m =>
    match run body foreground r m with
    | (.ok a, m) => (some a, m.wake)
    | (.error r, m) =>
      if limit.any (· ≤ m.now) then (none, (m.leaveAll foreground).wake)
      else
        let m := settle body turns m.wake
        if m.canGo foreground r then perform turns limit rounds r m
        else
          match earlier (earlier m.nextTime (timeOf r)) limit with
          | none => (none, m.leaveAll foreground)
          | some time => perform turns limit rounds r (m.moveTo time)

end Machine

end Switchboard
