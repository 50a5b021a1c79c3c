import Switchboard.Board.Basic

/-!
# Connections on the board

Writing to connections, carrying frames across links, closing, and opening new links.

Carrying frames is the pump of a loopback link, and `openLink` and `dialBy` are `connect` of a
`Transport` in `SPEC_FULL.md`, section 4.5; `send` and `closeChannel` are `send` and `close` of a
`Channel`. `serve` is what a `CommandTable` of section 4.6 does with one request.
-/

namespace Switchboard

namespace Board

/-- Whether a connection is open. -/
def isOpen (b : Board) (c : ConnectionRef) : Bool :=
  match (b.connection c).medium with
  | .loopback link _ => (b.link link).isOpen
  | .standIn wire => wire.isOpen

/-- The id of a connection. -/
def idOf (b : Board) (c : ConnectionRef) : ConnectionId := (b.connection c).id

/-- Changes the stand-in that a connection runs over. -/
def onWire (b : Board) (c : ConnectionRef) (f : Wire → Wire) : Board :=
  { b with connections := b.connections.modify c fun connection =>
      match connection.medium with
      | .standIn wire => { connection with medium := .standIn (f wire) }
      | .loopback .. => connection }

/-- The acknowledgement of a write to a stand-in. -/
def wireAck (rule : WriteRule) : Ack :=
  match rule with
  | .succeed => .settled (.ok ())
  | .fail failure => .settled (.error failure)
  | .hang | .late _ => .waiting false
  | .forget => .lost

/-- Writes a frame to a connection: the acknowledgement, and after what time it is settled if that
is left to the clock. -/
def write (b : Board) (c : ConnectionRef) (frame : Bytes) : (AckRef × Option Nat) × Board :=
  match (b.connection c).medium with
  | .loopback i side =>
    let ack := b.acks.size
    let (taken, link) := (b.link i).write side frame ack
    let b := { b with links := b.links.setIfInBounds i link }
    let (ack, b) := b.addAck (if taken then .waiting false else .settled (.error .connectionClosed))
    ((ack, none), b)
  | .standIn wire =>
    let (ack, b) := b.addAck (wireAck wire.rule)
    let b := b.onWire c fun wire => { wire with written := wire.written ++ [frame] }
    match wire.rule with
    | .late after => ((ack, some after), b)
    | .hang => ((ack, none), b.onWire c fun wire => { wire with hung := wire.hung ++ [ack] })
    | _ => ((ack, none), b)

/-- Tells whoever sits at an end that its connection is closed. -/
def noteClosed (b : Board) (told : ConnectionRef × Handler) : Board :=
  match told.2 with
  | .exchange client =>
    (b.changeExchange client fun x store => ((), x.closed store (b.idOf told.1))).2
  | .commands => b
  | .farEnd =>
    { b with farEnd := { b.farEnd with recorder := b.farEnd.recorder.noteClose } }
  | .observer => { b with observer := b.observer.noteClose }

/-- Closes a connection. -/
def close (b : Board) (c : ConnectionRef) : Board :=
  match (b.connection c).medium with
  | .loopback i _ =>
    let (told, link) := (b.link i).close
    told.foldl noteClosed { b with links := b.links.setIfInBounds i link }
  | .standIn _ => b.onWire c fun wire => { wire with isOpen := wire.isOpen && wire.isStubborn }

/-- Adds a connection. -/
def addConnection (b : Board) (connection : Connection) : ConnectionRef × Board :=
  (b.connections.size, { b with connections := b.connections.push connection })

/-- The number of the connection at a place. Connections are counted with 64 bits, so the numbers
come round. -/
def numberAt (c : ConnectionRef) : ConnectionId := (UInt64.ofNat c).toNat

/-- The address that a server sees at the other end. -/
def callerAddress : Address := { protocol := some "loop", host := some "client" }

/-- Joins two new connections by a link: one to `target` with `handler` at its end, the other at
the server. -/
def openLink (b : Board) (target : Address) (handler : Handler) : (Nat × ConnectionRef) × Board :=
  let i := b.links.size
  let client := b.connections.size
  let server := client + 1
  let b := (b.addConnection ⟨numberAt client, target, .loopback i .client⟩).2
  let b := (b.addConnection ⟨numberAt server, callerAddress, .loopback i .server⟩).2
  ((i, client), { b with
    links := b.links.push { client := (client, handler), server := (server, b.server) } })

/-- The server's ends that are open. -/
def openConnections (b : Board) : Nat := (b.accepted.filter b.isOpen).length

/-- Closes every connection from the server's end. -/
def dropConnections (b : Board) : Board :=
  b.accepted.foldl close { b with accepted := [] }

/-- Releases the writes that hang on a stand-in, and counts those that somebody waited for. -/
def releaseHung (b : Board) (c : ConnectionRef) : Nat × Board :=
  match (b.connection c).medium with
  | .loopback .. => (0, b)
  | .standIn wire =>
    ((wire.hung.filter fun ack => (b.ack ack).isAwaited).length,
      wire.hung.foldl (fun b ack => b.onAck ack (Ack.settle (.ok ())))
        (b.onWire c fun wire => { wire with hung := [] }))

end Board

namespace Op

open Routine

/-- Writes a frame to a connection. -/
def write (c : ConnectionRef) (frame : Bytes) : Op AckRef := do
  let (ack, after) ← step fun b => b.write c frame
  match after with
  | some span =>
    let _ ← begin (.settleLater ack span)
    pure ack
  | none => pure ack

/-- Waits until it is known what became of a write; one that is lost counts as closed. -/
def awaitAck (ack : AckRef) : Op (Outcome Unit) := do
  await fun b => (b.ack ack).isOver
  look fun b => match b.ack ack with
    | .settled outcome => outcome
    | _ => .error .connectionClosed

/-- Settles an acknowledgement. -/
def settle (ack : AckRef) (outcome : Outcome Unit) : Op Unit :=
  modify fun b => b.onAck ack (Ack.settle outcome)

/-- Closes a connection. -/
def close (c : ConnectionRef) : Op Unit := modify fun b => b.close c

/-- Writes frames and closes the connection before any of them can cross. -/
def writeAndClose (c : ConnectionRef) (frames : List Bytes) : Op (List (Outcome Unit)) := do
  let acks ← frames.mapM (write c)
  close c
  acks.mapM awaitAck

/-- The far end takes a frame and answers it by its rule. -/
def receiveAtFarEnd (c : ConnectionRef) (frame : Bytes) : Op Unit := do
  modify fun b => { b with farEnd := { b.farEnd with recorder := b.farEnd.recorder.note c frame } }
  let rule ← look (·.farEnd.rule)
  match Frame.decode? frame, rule with
  | none, _ => pure ()
  | some _, .closer => close c
  | some request, .late after =>
    let _ ← begin (.writeLater c (rule.replies request) after)
    pure ()
  | some request, _ => (rule.replies request).forM fun reply => do
    let _ ← write c reply
    pure ()

/-- The table of commands takes a frame; every request of it is served on its own. -/
def receiveAtCommands (c : ConnectionRef) (frame : Bytes) : Op Unit := do
  match CommandTable.request? frame with
  | none => pure ()
  | some request =>
    let handler ← look fun b => b.commands.handler? request.command
    let _ ← begin (.serve c handler request)
    pure ()

/-- Hands a frame to whoever sits at the end of a connection. -/
def receive (handler : Handler) (c : ConnectionRef) (frame : Bytes) : Op Unit :=
  match handler with
  | .exchange client => step fun b =>
    b.changeExchange client fun x store => ((), x.received store frame)
  | .commands => receiveAtCommands c frame
  | .farEnd => receiveAtFarEnd c frame
  | .observer => modify fun b => { b with observer := b.observer.note c frame }

/-- Carries the next frame across a link, or refuses what did not cross once the link is closed;
says whether there may be more. -/
def carry (i : Nat) (side : Side) : Op Bool := do
  await fun b => (b.link i).hasWork side
  let crossing ← step fun b =>
    let (crossing, link) := (b.link i).cross side
    (crossing, { b with links := b.links.setIfInBounds i link })
  match crossing with
  | .nothing => pure true
  | .refuse acks => do
    acks.forM fun ack => settle ack (.error .connectionClosed)
    pure false
  | .handOver frame ack => do
    let (c, handler) ← look fun b => (b.link i).endAt side.opposite
    receive handler c frame
    settle ack (.ok ())
    pure true

/-- Runs the handler of a request: the response, unless the handler crashes. -/
def dispatch (handler : Option CommandHandler) (request : Envelope) : Op (Option Envelope) := do
  match handler with
  | some h => sleep h.delay
  | none => pure ()
  pure (CommandTable.respond handler request)

/-- Serves a request and writes the response. -/
def serve (c : ConnectionRef) (handler : Option CommandHandler) (request : Envelope) :
    Op Unit := do
  match ← dispatch handler request with
  | none => pure ()
  | some response =>
    let ack ← write c (Frame.encode response)
    let _ ← awaitAck ack
    pure ()

/-- Joins a new connection to `target` with the server, carrying frames both ways. -/
def openLink (target : Address) (handler : Handler) (mode : ConnectMode) : Op ConnectionRef := do
  let (link, client) ← step fun b => b.openLink target handler
  let _ ← begin (.deliver link .client)
  let _ ← begin (.deliver link .server)
  if mode = .dead then close client
  else modify fun b => { b with accepted := b.accepted ++ [(b.link link).server.1] }
  pure client

/-- Connects to `target`, unless that does not end before `deadline`. -/
def dialBy (deadline : Option Nat) (target : Address) (handler : Handler) :
    Op (Option (Outcome ConnectionRef)) := do
  let ready := (← now) + (← look (·.connectDelay))
  sleepUntil (match deadline with
    | some time => min time ready
    | none => ready)
  if (← now) < ready then pure none
  else
    match ← look (·.mode) with
    | .refuse => pure (some (.error (refusal target)))
    | .hang => do
      Routine.pause deadline (fun _ => false) (pure ())
      pure none
    | mode => do
      let c ← openLink target handler mode
      pure (some (.ok c))

/-- Connects to `target`, however long that takes. -/
def dial (target : Address) (handler : Handler) : Op (Outcome ConnectionRef) := do
  match ← dialBy none target handler with
  | some outcome => pure outcome
  | none => pure (.error (refusal target))

/-- Sends a frame over a channel. Without waiting it is only queued; otherwise it must be written
within the time of the channel. -/
def send (channel : Channel) (frame : Bytes) (waits : Bool) : Op (Outcome Unit) := do
  let c := channel.connection
  let remote ← look fun b => (b.connection c).remote
  if !(← look fun b => b.isOpen c) then
    pure (.error (Channel.sendFailure remote .connectionClosed))
  else
    let ack ← write c frame
    if !waits then pure (.ok ())
    else
      modify fun b => b.onAck ack (Ack.await true)
      awaitWithin channel.ackTimeout.toMillisUp fun b => (b.ack ack).isOver
      let outcome ← look fun b => b.ack ack
      modify fun b => b.onAck ack (Ack.await false)
      pure (match outcome with
        | .settled (.ok ()) => .ok ()
        | .settled (.error f) => .error (Channel.sendFailure remote f)
        | .lost => .error (Channel.sendFailure remote .connectionClosed)
        | .waiting _ => .error (Channel.sendTimeout remote channel.ackTimeout))

/-- Closes a channel, and forgets it unless its connection stays open. -/
def closeChannel (table : Nat) (channel : Channel) : Op Unit := do
  close channel.connection
  modify fun b =>
    let t := b.channelTable table
    let left := t.removeIfClosed (b.idOf channel.connection) (b.isOpen channel.connection)
    if t.isAlive then { b with channelTables := b.channelTables.setIfInBounds table left } else b

end Op

end Switchboard
