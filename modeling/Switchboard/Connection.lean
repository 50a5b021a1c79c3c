import Switchboard.Channel

/-!
# Connections

A connection takes frames and acknowledges each of them once it was handed over, or tells why it
never will be. A loopback link joins two connections in one place: what is written at one end is
handed to whoever sits at the other, in order, until the link is closed from either end. Then both
sides are told, and frames that did not cross are refused.

Links and connections are those of `LoopbackTransport` in `SPEC_FULL.md`, section 4.5, with the
modes of `ConnectMode`; a wire stands for a `Connection` that follows a script.
-/

namespace Switchboard

/-- What became of the writing of a frame. -/
inductive Ack where
  /-- Not known yet; whether anybody waits to know. -/
  | waiting (awaited : Bool)
  /-- Known. -/
  | settled (outcome : Outcome Unit)
  /-- Never to be known. -/
  | lost
deriving Repr

namespace Ack

/-- An acknowledgement that is never to be known. -/
instance : Inhabited Ack := ⟨.lost⟩

/-- Whether there is nothing left to wait for. -/
def isOver : Ack → Bool
  | waiting _ => false
  | _ => true

/-- Settles what is not known yet. -/
def settle (outcome : Outcome Unit) : Ack → Ack
  | waiting _ => settled outcome
  | ack => ack

/-- Notes whether anybody waits. -/
def await (awaited : Bool) : Ack → Ack
  | waiting _ => waiting awaited
  | ack => ack

/-- Whether anybody waits. -/
def isAwaited : Ack → Bool
  | waiting awaited => awaited
  | _ => false

end Ack

/-- Points at an acknowledgement. -/
abbrev AckRef := Nat

/-- Points at a client. -/
abbrev ClientRef := Nat

/-- The two ends of a link. -/
inductive Side where
  /-- The end that connected. -/
  | client
  /-- The end that was connected to. -/
  | server
deriving DecidableEq, Repr

/-- The other end. -/
def Side.opposite : Side → Side
  | client => server
  | server => client

/-- Who takes the frames that arrive at an end, and is told of its closing. -/
inductive Handler where
  /-- The exchange of a client. -/
  | exchange (client : ClientRef)
  /-- The table of commands. -/
  | commands
  /-- A stand-in for a server. -/
  | farEnd
  /-- A stand-in that only takes notes. -/
  | observer
deriving DecidableEq, Repr

/-- A loopback link. -/
structure Link where
  /-- Whether it is open. -/
  isOpen : Bool := true
  /-- The connection at the client's end and who sits there. -/
  client : ConnectionRef × Handler
  /-- The connection at the server's end and who sits there. -/
  server : ConnectionRef × Handler
  /-- Frames on their way to the server, with their acknowledgements. -/
  toServer : List (Bytes × AckRef) := []
  /-- Frames on their way to the client. -/
  toClient : List (Bytes × AckRef) := []
deriving Repr

namespace Link

/-- A link between observers on which nothing was written. -/
instance : Inhabited Link := ⟨{ client := (0, .observer), server := (0, .observer) }⟩

/-- An end of the link. -/
def endAt (l : Link) : Side → ConnectionRef × Handler
  | .client => l.client
  | .server => l.server

/-- The frames on their way from an end. -/
def lane (l : Link) : Side → List (Bytes × AckRef)
  | .client => l.toServer
  | .server => l.toClient

/-- Changes the frames on their way from an end. -/
def setLane (l : Link) (side : Side) (frames : List (Bytes × AckRef)) : Link :=
  match side with
  | .client => { l with toServer := frames }
  | .server => { l with toClient := frames }

/-- Takes a frame at an end; a closed link refuses it. -/
def write (l : Link) (side : Side) (frame : Bytes) (ack : AckRef) : Bool × Link :=
  if l.isOpen then (true, l.setLane side (l.lane side ++ [(frame, ack)])) else (false, l)

/-- Whether the lane from an end has something to do. -/
def hasWork (l : Link) (side : Side) : Bool := !l.isOpen || !(l.lane side).isEmpty

/-- What the lane from an end does next. -/
inductive Crossing where
  /-- Hands a frame over. -/
  | handOver (frame : Bytes) (ack : AckRef)
  /-- Refuses what did not cross, and ends. -/
  | refuse (acks : List AckRef)
  /-- Nothing, for now. -/
  | nothing
deriving Repr

/-- Takes the next frame off the lane from an end. -/
def cross (l : Link) (side : Side) : Crossing × Link :=
  if l.isOpen then
    match l.lane side with
    | [] => (.nothing, l)
    | (frame, ack) :: rest => (.handOver frame ack, l.setLane side rest)
  else (.refuse ((l.lane side).map Prod.snd), l.setLane side [])

/-- Closes the link; who is to be told, and of which connection, the first time it is closed. -/
def close (l : Link) : List (ConnectionRef × Handler) × Link :=
  if l.isOpen then ([l.client, l.server], { l with isOpen := false }) else ([], l)

end Link

/-- How the writes on a stand-in for a connection end. -/
inductive WriteRule where
  /-- The frame is written. -/
  | succeed
  /-- Writing fails. -/
  | fail (failure : Failure)
  /-- Nothing comes of it until it is released. -/
  | hang
  /-- The acknowledgement is lost at once. -/
  | forget
  /-- The frame is written after a while. -/
  | late (after : Nat)
deriving Repr

/-- The rule of a name; `failure` and `after` are what the rules of failing and late writes take. -/
def WriteRule.ofName (name : String) (failure : Failure) (after : Nat) : WriteRule :=
  match name with
  | "fail" => .fail failure
  | "hang" => .hang
  | "forget" => .forget
  | "late" => .late after
  | _ => .succeed

/-- A stand-in for the way that a connection runs over. -/
structure Wire where
  /-- Whether it is open. -/
  isOpen : Bool := true
  /-- Whether it stays open when it is closed. -/
  isStubborn : Bool := false
  /-- How writes end. -/
  rule : WriteRule := .succeed
  /-- What was written. -/
  written : List Bytes := []
  /-- The writes that hang. -/
  hung : List AckRef := []
deriving Repr

/-- What a connection runs over. -/
inductive Medium where
  /-- An end of a link. -/
  | loopback (link : Nat) (side : Side)
  /-- A stand-in. -/
  | standIn (wire : Wire)
deriving Repr

/-- A connection. -/
structure Connection where
  /-- Its id. -/
  id : ConnectionId := 0
  /-- The address at the other end. -/
  remote : Address := {}
  /-- What it runs over. -/
  medium : Medium := .standIn {}
deriving Repr

/-- A connection over a stand-in on which nothing was written. -/
instance : Inhabited Connection := ⟨{}⟩

/-- What was written on a stand-in. -/
def Connection.written (c : Connection) : List Bytes :=
  match c.medium with
  | .standIn wire => wire.written
  | .loopback .. => []

/-- How the next connects behave. -/
inductive ConnectMode where
  /-- They succeed. -/
  | accept
  /-- They are refused. -/
  | refuse
  /-- They never end. -/
  | hang
  /-- They end with a connection that is closed already. -/
  | dead
deriving DecidableEq, Repr

/-- The mode of a name. -/
def ConnectMode.ofName (name : String) : ConnectMode :=
  match name with
  | "refuse" => .refuse
  | "hang" => .hang
  | "dead" => .dead
  | _ => .accept

/-- The refusal of a connect. -/
def refusal (target : Address) : Failure :=
  .io (.described (target.hostPort ++ " refused the connection"))

end Switchboard
