import Std.Data.ExtTreeMap
import Switchboard.Frame
import Switchboard.Promise

/-!
# Exchanges

An exchange gives every request a number and keeps, under that number, the promise that the
response completes. A request is tied to the connection it was written on: losing that connection
fails it, while requests that were not written yet stay, for they go out on whatever connection
comes next. Entries that are complete or that no caller holds any more are swept out once the table
has grown to its limit.

The table is the `Exchange` of `SPEC_FULL.md`, section 4.6: `take` is its `open`, `finish` is
`complete` and `fail`, and `sentOn`, `failConnection` and `failAll` are `sent_on`, `fail_connection`
and `fail_all`. `sweep` is what `open` does first with the entries that are complete or abandoned.
-/

namespace Switchboard

/-- Names a connection, by the number that a counter of 64 bits gave it. -/
abbrev ConnectionId := Nat

/-- A request that waits for its response. -/
structure Exchange.Entry where
  /-- The promise that the response completes. -/
  promise : PromiseId
  /-- The connection that the request was written on. -/
  connection : Option ConnectionId := none
deriving DecidableEq, Repr

/-- The requests of one client that wait for responses. -/
structure Exchange where
  /-- The number of the next request. -/
  nextId : UInt64 := 1
  /-- The requests by their numbers. -/
  entries : Std.ExtTreeMap UInt64 Exchange.Entry := ∅

namespace Exchange

/-- An exchange without requests. -/
instance : Inhabited Exchange := ⟨{}⟩

/-- The size at which the table is swept before it takes another request. -/
def sweepAt : Nat := 256

/-- The number of requests in the table. -/
def pending (x : Exchange) : Nat := x.entries.size

/-- Whether somebody still waits for the promise of an entry. -/
def isLive (store : Promises) (entry : Entry) : Bool :=
  !(store.get entry.promise).isDone && (store.get entry.promise).isShared

/-- Gives up the table's handles on the promises of entries. -/
def releaseEntries (store : Promises) (entries : List (UInt64 × Entry)) : Promises :=
  entries.foldl (fun store entry => store.release entry.2.promise) store

/-- Takes out the entries that nobody waits for, if the table has grown to its limit. -/
def sweep (x : Exchange) (store : Promises) : Exchange × Promises :=
  if x.pending < sweepAt then (x, store)
  else
    ({ x with entries := x.entries.filter fun _ entry => isLive store entry },
      releaseEntries store (x.entries.toList.filter fun entry => !isLive store entry.2))

/-- Takes a request up: its number and the promise of its response, which the caller and the table
hold. -/
def take (x : Exchange) (store : Promises) : (UInt64 × PromiseId) × Exchange × Promises :=
  let (x', store) := x.sweep store
  let store := match x'.entries[x.nextId]? with
    | some old => store.release old.promise
    | none => store
  let (promise, store) := store.add Promise.pending.hold
  ((x.nextId, promise),
    { nextId := x.nextId + 1, entries := x'.entries.insert x.nextId { promise } }, store)

/-- Notes the connection that a request is being written on; false if it is not pending. -/
def sentOn (x : Exchange) (id : UInt64) (connection : ConnectionId) : Bool × Exchange :=
  match x.entries[id]? with
  | some entry =>
    (true, { x with entries := x.entries.insert id { entry with connection := some connection } })
  | none => (false, x)

/-- Takes a request out and completes its promise; false if it is not in the table or its promise
was complete. -/
def finish (x : Exchange) (store : Promises) (id : UInt64) (outcome : Outcome Response) :
    Bool × Exchange × Promises :=
  match x.entries[id]? with
  | some entry =>
    let (first, store) := store.complete entry.promise outcome
    (first, { x with entries := x.entries.erase id }, store.release entry.promise)
  | none => (false, x, store)

/-- Fails the promises of entries that were taken out, and counts those that were pending. -/
def failEntries (store : Promises) (failure : Failure) : List (UInt64 × Entry) → Nat × Promises
  | [] => (0, store)
  | entry :: rest =>
    let (first, store) := store.complete entry.2.promise (.error failure)
    let (count, store) := failEntries (store.release entry.2.promise) failure rest
    (if first then count + 1 else count, store)

/-- Fails the requests whose entries satisfy a condition. -/
def failWhere (x : Exchange) (store : Promises) (failure : Failure) (lost : Entry → Bool) :
    Nat × Exchange × Promises :=
  let (count, store) :=
    failEntries store failure (x.entries.toList.filter fun entry => lost entry.2)
  (count, { x with entries := x.entries.filter fun _ entry => !lost entry }, store)

/-- Fails the requests that were written on a connection. -/
def failConnection (x : Exchange) (store : Promises) (connection : ConnectionId)
    (failure : Failure) : Nat × Exchange × Promises :=
  x.failWhere store failure fun entry => entry.connection == some connection

/-- Fails every request. -/
def failAll (x : Exchange) (store : Promises) (failure : Failure) : Nat × Exchange × Promises :=
  x.failWhere store failure fun _ => true

/-- A connection was lost. -/
def closed (x : Exchange) (store : Promises) (connection : ConnectionId) : Exchange × Promises :=
  (x.failConnection store connection .connectionClosed).2

/-- A frame arrived: a response completes its request, all else is dropped. -/
def received (x : Exchange) (store : Promises) (frame : Bytes) : Exchange × Promises :=
  match Frame.decode? frame with
  | some envelope =>
    if envelope.kind = .response then (x.finish store envelope.id (.ok envelope.toResponse)).2
    else (x, store)
  | none => (x, store)

end Exchange

end Switchboard
