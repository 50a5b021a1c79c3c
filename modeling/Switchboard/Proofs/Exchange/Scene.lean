import Switchboard.Exchange
import Switchboard.Proofs.Promises

/-!
# Exchanges among their callers

A scene is an exchange with the callers that hold its promises. It remembers what the exchange
itself forgets: who holds which promise, which number every promise was opened under, and the
connections noted for the numbers. An act is one operation of the exchange or one move of a
caller, and a run is a list of acts in any order.
-/

namespace Switchboard.Exchange

/-- One operation of an exchange, or one move of a caller. -/
inductive Act where
  /-- A request is taken up. -/
  | take
  /-- A request is being written on a connection. -/
  | sentOn (id : UInt64) (connection : ConnectionId)
  /-- A request is completed with a response. -/
  | complete (id : UInt64) (response : Response)
  /-- A request is failed. -/
  | fail (id : UInt64) (failure : Failure)
  /-- The requests of a connection are failed. -/
  | failConnection (connection : ConnectionId) (failure : Failure)
  /-- Every request is failed. -/
  | failAll (failure : Failure)
  /-- A frame arrives. -/
  | received (frame : Bytes)
  /-- A connection is lost. -/
  | closed (connection : ConnectionId)
  /-- A caller completes a promise that it holds. -/
  | settle (promise : PromiseId) (outcome : Outcome Response)
  /-- A caller copies its handle on a promise. -/
  | share (promise : PromiseId)
  /-- A caller gives up a handle on a promise. -/
  | drop (promise : PromiseId)

/-- Whether an act takes a request up. -/
def Act.isTake : Act → Bool
  | .take => true
  | _ => false

/-- An exchange with its callers, and what happened so far. -/
structure Scene where
  /-- The exchange. -/
  exchange : Exchange := {}
  /-- The promises. -/
  store : Promises := {}
  /-- The handles of the callers, each by the promise that it holds. -/
  held : List PromiseId := []
  /-- The numbers with the promises opened under them, latest first. -/
  opened : List (UInt64 × PromiseId) := []
  /-- The connections noted for numbers, latest first. -/
  sent : List (UInt64 × ConnectionId) := []

namespace Scene

/-- What an operation leaves behind that changes neither callers nor history. -/
def update (s : Scene) (result : Exchange × Promises) : Scene :=
  { s with exchange := result.1, store := result.2 }

/-- The scene after one act. A caller without a handle on a promise cannot move it. -/
def after (s : Scene) : Act → Scene
  | .take =>
    let (opened, exchange, store) := s.exchange.take s.store
    { s with exchange, store, held := opened.2 :: s.held, opened := opened :: s.opened }
  | .sentOn id connection =>
    let (noted, exchange) := s.exchange.sentOn id connection
    { s with exchange, sent := if noted then (id, connection) :: s.sent else s.sent }
  | .complete id response => s.update (s.exchange.finish s.store id (.ok response)).2
  | .fail id failure => s.update (s.exchange.finish s.store id (.error failure)).2
  | .failConnection connection failure =>
    s.update (s.exchange.failConnection s.store connection failure).2
  | .failAll failure => s.update (s.exchange.failAll s.store failure).2
  | .received frame => s.update (s.exchange.received s.store frame)
  | .closed connection => s.update (s.exchange.closed s.store connection)
  | .settle p outcome =>
    if p ∈ s.held then { s with store := (s.store.complete p outcome).2 } else s
  | .share p => if p ∈ s.held then { s with store := s.store.hold p, held := p :: s.held } else s
  | .drop p =>
    if p ∈ s.held then { s with store := s.store.release p, held := s.held.erase p } else s

/-- The scene after a run of acts. -/
def run (s : Scene) (acts : List Act) : Scene := acts.foldl after s

/-- The scene of a new exchange after a run of acts. -/
def ofActs (acts : List Act) : Scene := run {} acts

/-- Whether a promise has no outcome yet. -/
def IsPending (s : Scene) (p : PromiseId) : Prop := (s.store.get p).outcome = none

/-- Whether an operation of the exchange ends the request of a number: it names the number, it is a
response that carries it, it loses the connection last noted for it, or it ends all there are. -/
def Ends (s : Scene) (id : UInt64) : Act → Prop
  | .complete id' _ | .fail id' _ => id' = id
  | .received frame =>
    ∃ envelope, Frame.decode? frame = some envelope ∧ envelope.kind = .response ∧ envelope.id = id
  | .failConnection connection _ | .closed connection => s.sent.lookup id = some connection
  | .failAll _ => True
  | _ => False

end Scene

end Switchboard.Exchange

namespace Switchboard.Promises

/-- How many promises were pending before and have failed since. -/
def failedSince (before after : Promises) : Nat :=
  (List.range before.size).countP fun p =>
    !(before.get p).isDone && (after.get p).cause?.isSome

end Switchboard.Promises
