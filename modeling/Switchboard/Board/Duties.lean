import Switchboard.Board.Calls

/-!
# Duties

What every duty does, and how the foreground works on the board while the duties take their turns.

They make up the concurrency model of `SPEC_FULL.md`, section 5.
-/

namespace Switchboard

open Routine in
/-- The work of a duty, and the duty it goes on with if it is to be done again. -/
def Duty.body : Duty → Op (Option Duty)
  | .deliver link side => do
    pure (if ← Op.carry link side then some (.deliver link side) else none)
  | .serve c handler request => do
    Op.serve c handler request
    pure none
  | .sendRequest c id frame => do
    Op.sendRequest c id frame
    pure none
  | .connect c i => do
    let outcome ← Op.connect c
    Op.report i outcome
    pure none
  | .flush cache => do
    let delay ← look fun b => (b.cache cache).flushDelay.toMillisUp
    sleep delay
    modify fun b => (b.changeCache cache fun c => ((), { c with flushPending := false })).2
    let _ ← begin (.writeCache cache none)
    pure none
  | .writeCache cache place => do
    let outcome ← Op.writeNow cache
    match place with
    | some i => Op.report i outcome
    | none => pure ()
    pure none
  | .followLog r => do
    pure (if ← Op.followLog r then some (.followLog r) else none)
  | .refresh r next => do
    pure ((← Op.refreshInTurn r next).map fun next => .refresh r (some next))
  | .lookUp r query i => do
    let outcome ← Op.lookUp r query
    modify fun b => { b with findings := b.findings.setIfInBounds i (some outcome) }
    pure none
  | .writeLater c frames after => do
    sleep after
    frames.forM fun frame => do
      let _ ← Op.write c frame
      pure ()
    pure none
  | .settleLater ack after => do
    sleep after
    Op.settle ack (.ok ())
    pure none
  | .completeLater p outcome after => do
    sleep after
    let _ ← Op.complete p outcome
    modify fun b => { b with promises := b.promises.release p }
    pure none
  | .switchMode mode after => do
    sleep after
    modify fun b => { b with mode }
    pure none
  | .note name after => do
    sleep after
    let time ← now
    modify fun b => b.onJournal fun j => { j with ran := j.ran.push (name, time) }
    pure none
  | .noteEvery name period works runs next => do
    if period = 0 then pure none
    else
      let next ← Op.tick (next.getD ((← now) + period)) period
      let time ← now
      modify fun b => b.onJournal fun j => { j with ran := j.ran.push (name, time) }
      match works with
      | [] => pure ()
      | _ => sleep (works.getD (runs % works.length) 0)
      pure (some (.noteEvery name period works (runs + 1) (some next)))
  | .watch name p within => do
    let outcome ← match within with
      | some span => Op.awaitPromiseWithin p span
      | none => Op.awaitPromise p
    let time ← now
    modify fun b =>
      { b.onJournal (fun j => { j with woken := j.woken.push (name, time, outcome) }) with
        promises := b.promises.release p }
    pure none

/-- The board with the work that goes on. -/
abbrev Site := Machine Board Duty Gate

namespace Site

/-- More turns than any settling takes. -/
def turns : Nat := 1000000

/-- How long the foreground waits for something before it gives up. -/
def patience : Nat := 60000

/-- Lets all work go on that needs no time. -/
def settle (s : Site) : Site := Machine.settle Duty.body turns s.wake

/-- Works in the foreground; nothing if that is given up. -/
def perform {α : Type} (op : Op α) (s : Site) : Option α × Site :=
  Machine.perform Duty.body turns (some (s.now + patience)) turns op s

/-- Lets time pass. -/
def advance (span : Nat) (s : Site) : Site :=
  (Machine.perform Duty.body turns none turns (Routine.sleep span : Op Unit) s).2

end Site

end Switchboard
