import Switchboard.Address.Writer
import Switchboard.Exchange

/-!
# Channels

A channel is a connection seen as a pipe for frames whose writing may be waited for. A table keeps
one channel per open connection; a connection that is closed gets a channel that is not kept, and
whatever was kept for it is dropped.

These are the channels and the channel registry of `SPEC_FULL.md`, section 4.5: `getOrAdd` is
`get_or_add_channel`, and `removeIfClosed` is `remove_if_disconnected`.
-/

namespace Switchboard

/-- Points at a connection, which is more than its id: two connections may bear the same id. -/
abbrev ConnectionRef := Nat

/-- A connection seen as a pipe. -/
structure Channel where
  /-- Tells channels apart. -/
  serial : Nat
  /-- The connection. -/
  connection : ConnectionRef
  /-- The longest wait for a frame to be written. -/
  ackTimeout : Duration
deriving DecidableEq, Repr

/-- Channels under the ids of their connections. -/
structure ChannelTable where
  /-- The channels that are kept. -/
  channels : Std.ExtTreeMap ConnectionId Channel := ∅
  /-- How many channels were made. -/
  made : Nat := 0
  /-- Whether the table still exists. -/
  isAlive : Bool := true

namespace ChannelTable

/-- A table without channels. -/
instance : Inhabited ChannelTable := ⟨{}⟩

/-- The number of channels that are kept. -/
def size (t : ChannelTable) : Nat := t.channels.size

/-- A channel of its own. -/
def fresh (t : ChannelTable) (connection : ConnectionRef) (ackTimeout : Duration) :
    Channel × ChannelTable :=
  (⟨t.made, connection, ackTimeout⟩, { t with made := t.made + 1 })

/-- The channel of a connection, which is kept from its first use on while the connection is
open. -/
def getOrAdd (t : ChannelTable) (id : ConnectionId) (connection : ConnectionRef) (isOpen : Bool)
    (ackTimeout : Duration) : Channel × ChannelTable :=
  if isOpen then
    match t.channels[id]? with
    | some channel => (channel, t)
    | none =>
      let (channel, t) := t.fresh connection ackTimeout
      (channel, { t with channels := t.channels.insert id channel })
  else { t with channels := t.channels.erase id }.fresh connection ackTimeout

/-- Takes out what is kept for an id. -/
def remove (t : ChannelTable) (id : ConnectionId) : Option Channel × ChannelTable :=
  (t.channels[id]?, { t with channels := t.channels.erase id })

/-- Takes out what is kept for an id whose connection is closed. -/
def removeIfClosed (t : ChannelTable) (id : ConnectionId) (isOpen : Bool) : ChannelTable :=
  if isOpen then t else (t.remove id).2

end ChannelTable

namespace Channel

/-- The first channel of all, which waits for no frame to be written. -/
instance : Inhabited Channel := ⟨⟨0, 0, .zero⟩⟩

/-- A channel, written out. -/
def shape (id : ConnectionId) (remote : Address) (isOpen : Bool) : String :=
  "Channel \x7b id: " ++ toString id ++ ", remote: " ++ Text.quoted remote.text ++
    ", open: " ++ (if isOpen then "true" else "false") ++ " \x7d"

/-- A frame was not written. -/
def sendFailure (remote : Address) (cause : Failure) : Failure :=
  .remotingFrom ("failed to send to " ++ remote.text) cause

/-- A frame was not written in time. -/
def sendTimeout (remote : Address) (after : Duration) : Failure :=
  .remotingFrom ("failed to send to " ++ remote.text ++ " within " ++ toString after.toMillis ++
    "ms") (.timeout after)

end Channel

end Switchboard
