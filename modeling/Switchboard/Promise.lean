import Switchboard.Response

/-!
# Promises

A promise is a cell for one outcome. The first completion fills it and every later one is refused,
so all who look after that see the same outcome. A promise counts the handles by which it is held:
nobody waits for one that only a table holds.

Promises are those of `SPEC_FULL.md`, section 4.2: `complete` is both `set_success` and
`set_failure`, `value?` is `get_now`, and `cause?` is `cause`. `glance` is `process_async` of
section 4.6.
-/

namespace Switchboard

/-- A cell for one outcome. -/
structure Promise (α : Type) where
  /-- The outcome, once there is one. -/
  outcome : Option (Outcome α) := none
  /-- How many handles there are. -/
  handles : Nat := 1
deriving Repr

namespace Promise

variable {α : Type}

/-- A promise that was not completed. -/
instance : Inhabited (Promise α) := ⟨{}⟩

/-- A promise that nobody has completed. -/
def pending : Promise α := {}

/-- A promise that is complete from the start. -/
def completed (outcome : Outcome α) : Promise α := { outcome := some outcome }

/-- Completes a promise that is pending, and says whether it did. -/
def complete (p : Promise α) (outcome : Outcome α) : Bool × Promise α :=
  match p.outcome with
  | none => (true, { p with outcome := some outcome })
  | some _ => (false, p)

/-- Whether there is an outcome. -/
def isDone (p : Promise α) : Bool := p.outcome.isSome

/-- Whether there is a value. -/
def isSuccess (p : Promise α) : Bool :=
  match p.outcome with
  | some (.ok _) => true
  | _ => false

/-- The value, if there is one. -/
def value? (p : Promise α) : Option α :=
  match p.outcome with
  | some (.ok a) => some a
  | _ => none

/-- The failure, if there is one. -/
def cause? (p : Promise α) : Option Failure :=
  match p.outcome with
  | some (.error f) => some f
  | _ => none

/-- Whether it is held by more than one handle. -/
def isShared (p : Promise α) : Bool := 1 < p.handles

/-- Another handle. -/
def hold (p : Promise α) : Promise α := { p with handles := p.handles + 1 }

/-- One handle less. -/
def release (p : Promise α) : Promise α := { p with handles := p.handles - 1 }

/-- The state of a promise, written out. -/
def shape (p : Promise α) : String :=
  let state := match p.outcome with
    | none => "pending"
    | some (.ok _) => "succeeded"
    | some (.error _) => "failed"
  "Promise \x7b state: " ++ Text.quoted state ++ " \x7d"

/-- Completion fills a pending promise and leaves any other as it is. -/
theorem outcome_complete (p : Promise α) (o : Outcome α) :
    (p.complete o).2.outcome = some (p.outcome.getD o) := by
  cases h : p.outcome <;> simp [complete, h]

end Promise

/-- The outcome of a call whose promise was looked at: the bytes of the response, or why there are
none. -/
def responseOutcome (outcome : Outcome Response) : Outcome Bytes := outcome.bind Response.toOutcome

/-- The outcome of a call as far as there is one yet. -/
def Promise.glance (p : Promise Response) : Outcome (Option Bytes) :=
  match p.outcome with
  | none => .ok none
  | some outcome => (responseOutcome outcome).map some

/-- Names a promise in a store. -/
abbrev PromiseId := Nat

/-- A store of promises of responses, each under the number of those before it. -/
structure Promises where
  /-- The promises in the order in which they were made. -/
  cells : Array (Promise Response) := #[]

namespace Promises

/-- The promise of a name. -/
def get (s : Promises) (i : PromiseId) : Promise Response := s.cells.getD i .pending

/-- Changes one promise. -/
def update (s : Promises) (i : PromiseId) (f : Promise Response → Promise Response) : Promises :=
  ⟨s.cells.modify i f⟩

/-- Puts a promise into the store. -/
def add (s : Promises) (p : Promise Response) : PromiseId × Promises :=
  (s.cells.size, ⟨s.cells.push p⟩)

/-- Completes one promise, and says whether it was pending. -/
def complete (s : Promises) (i : PromiseId) (outcome : Outcome Response) : Bool × Promises :=
  (!(s.get i).isDone, s.update i fun p => (p.complete outcome).2)

/-- Another handle on a promise. -/
def hold (s : Promises) (i : PromiseId) : Promises := s.update i Promise.hold

/-- One handle less on a promise. -/
def release (s : Promises) (i : PromiseId) : Promises := s.update i Promise.release

end Promises

end Switchboard
