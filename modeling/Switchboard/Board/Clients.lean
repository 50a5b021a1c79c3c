import Switchboard.Board.Links

/-!
# Clients on the board

Connecting, letting go of connections, sending requests and closing for good.

These are `connect`, `disconnect`, `reconnect`, `request`, `get_channel` and `close` of `Client` in
`SPEC_FULL.md`, section 4.5. The body of `connect` behind its gate is `connectInTurn`; `channelOf`
is `get_channel`, and `closeClient` is `close`.
-/

namespace Switchboard

namespace Board

/-- Whether a client has an open connection. -/
def isConnected (b : Board) (c : ClientRef) : Bool := (b.client c).connection.any b.isOpen

/-- Adds a client. -/
def addClient (b : Board) (client : Client) : ClientRef × Board :=
  (b.clients.size, { b with clients := b.clients.push client })

/-- Lets go of a connection of a client: it is closed, its channel forgotten, and the requests that
were written on it fail. -/
def release (b : Board) (c : ClientRef) (connection : ConnectionRef) : Board :=
  let b := b.close connection
  let id := b.idOf connection
  let table := (b.client c).channels
  let channels := ((b.channelTable table).remove id).2
  let b := { b with channelTables := b.channelTables.setIfInBounds table channels }
  (b.changeExchange c fun x store => ((), x.closed store id)).2

/-- Takes a new connection for a client, and returns the one it had. -/
def replaceConnection (b : Board) (c : ClientRef) (connection : Option ConnectionRef) :
    Option ConnectionRef × Board :=
  ((b.client c).connection, b.onClient c fun client => { client with connection })

/-- The number of requests of clients that wait for their responses. -/
def pending (b : Board) (clients : List ClientRef) : Nat :=
  clients.foldl (fun total c => total + (b.client c).exchange.pending) 0

/-- The channel of a client's connection, while that is open. -/
def channelOf (b : Board) (c : ClientRef) : Option Channel × Board :=
  let client := b.client c
  match client.connection with
  | none => (none, b)
  | some connection =>
    if b.isOpen connection then
      let (channel, table) := (b.channelTable client.channels).getOrAdd (b.idOf connection)
        connection true client.settings.ackTimeout
      (some channel,
        { b with channelTables := b.channelTables.setIfInBounds client.channels table })
    else (none, b)

/-- Notes the connection that a request is being written on. -/
def noteSent (b : Board) (c : ClientRef) (id : UInt64) (connection : ConnectionRef) :
    Bool × Board :=
  b.changeExchange c fun x store =>
    let (pending, x) := x.sentOn id (b.idOf connection)
    (pending, x, store)

/-- Fails a request. -/
def failRequest (b : Board) (c : ClientRef) (id : UInt64) (failure : Failure) : Bool × Board :=
  b.changeExchange c fun x store => x.finish store id (.error failure)

end Board

namespace Op

open Routine

/-- Lets go of a client's connection, if it has one. -/
def disconnect (c : ClientRef) : Op Unit := do
  match ← step fun b => b.replaceConnection c none with
  | none => pure ()
  | some connection => modify fun b => b.release c connection

/-- Connects a client unless it is connected. -/
def connectInTurn (c : ClientRef) : Op (Outcome Unit) := do
  let client ← look (·.client c)
  if client.isClosed then pure (.error (Client.closedFailure client.address))
  else if ← look (·.isConnected c) then pure (.ok ())
  else
    let span := client.settings.connectTimeout
    match ← dialBy (some ((← now) + span.toMillisUp)) client.address (.exchange c) with
    | none => pure (.error (Client.connectTimeout client.address span))
    | some (.error f) => pure (.error (Client.connectFailure client.address f))
    | some (.ok connection) =>
      if !(← look (·.isOpen connection)) then
        pure (.error (Client.deadFailure client.address))
      else if ← look fun b => (b.client c).isClosed then
        close connection
        pure (.error (Client.closedFailure client.address))
      else
        match ← step fun b => b.replaceConnection c (some connection) with
        | some previous => modify fun b => b.release c previous
        | none => pure ()
        pure (.ok ())

/-- Connects a client unless it is connected; one attempt at a time. -/
def connect (c : ClientRef) : Op (Outcome Unit) := through (.connecting c) (connectInTurn c)

/-- Connects a client in the background, and returns the place of the outcome. -/
def connectLater (c : ClientRef) : Op Nat := do
  let place ← newReport
  let _ ← begin (.connect c place)
  pure place

/-- Connects a client several times at once. -/
def connectAll (c : ClientRef) (count : Nat) : Op (List (Outcome Unit)) := do
  let places ← (List.range count).mapM fun _ => connectLater c
  places.mapM awaitReport

/-- The time since a moment. -/
def elapsedSince (started : Nat) : Op Duration := do
  pure (.ofMillis (.ofNat ((← now) - started)))

/-- Lets go of a client's connection and connects again, as often as the policy permits; there is no
outcome if the policy cannot decide. -/
def reconnect (c : ClientRef) (policy : Retry) : Op (Option (Outcome Unit)) := do
  let started ← now
  policy.attempts (elapsedSince started) (fun span => sleep span.toMillisUp) do
    disconnect c
    let outcome ← connect c
    pure (outcome, !(← look fun b => (b.client c).isClosed))

/-- Connects a client and writes a request, unless that was given up on meanwhile. -/
def deliverRequest (c : ClientRef) (id : UInt64) (frame : Bytes) : Op (Outcome Unit) := do
  match ← connect c with
  | .error f => pure (.error f)
  | .ok () =>
    match ← step fun b => b.channelOf c with
    | none => pure (.error .connectionClosed)
    | some channel =>
      if ← step fun b => b.noteSent c id channel.connection then send channel frame true
      else pure (.ok ())

/-- Delivers a request; one that cannot be delivered fails. -/
def sendRequest (c : ClientRef) (id : UInt64) (frame : Bytes) : Op Unit := do
  match ← deliverRequest c id frame with
  | .ok () => pure ()
  | .error f =>
    let _ ← step fun b => b.failRequest c id f
    pure ()

/-- Sends a request in the background; its promise is there at once. -/
def request (c : ClientRef) (call : Call) : Op PromiseId := do
  let (id, promise) ← step fun b => b.changeExchange c Exchange.take
  let refused : Op PromiseId := do
    let _ ← step fun b => b.failRequest c id .connectionClosed
    pure promise
  if ← look fun b => (b.client c).isClosed then refused
  else
    let frame := Frame.encode (Envelope.request id call.command call.payload)
    match ← spawn (.sendRequest c id frame) with
    | none => refused
    | some _ => pure promise

/-- Waits before another attempt if the policy permits one, and says whether it does, unless the
policy cannot decide. -/
def backoff (policy : Retry) (attempts : UInt32) (elapsed : Duration) : Op (Option Bool) :=
  policy.backoff (fun span => sleep span.toMillisUp) attempts elapsed

/-- Sends a frame over the connection that a client has, if it has one. -/
def sendNow (c : ClientRef) (frame : Bytes) (waits : Bool) : Op (Option (Outcome Unit)) := do
  match ← step fun b => b.channelOf c with
  | some channel => some <$> send channel frame waits
  | none => pure none

/-- Closes the channel that a client has, if it has one. -/
def closeChannelOf (c : ClientRef) : Op Unit := do
  match ← step fun b => b.channelOf c with
  | some channel => closeChannel (← look fun b => (b.client c).channels) channel
  | none => pure ()

/-- Closes a client for good; every request that still waits fails. -/
def closeClient (c : ClientRef) : Op Unit := do
  let wasClosed ← step fun b =>
    ((b.client c).isClosed, b.onClient c fun client => { client with isClosed := true })
  if wasClosed then pure ()
  else
    disconnect c
    let _ ← step fun b => b.changeExchange c fun x store => x.failAll store .connectionClosed
    pure ()

end Op

end Switchboard
