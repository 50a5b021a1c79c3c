import Switchboard.Failure
import Switchboard.Registry.Tree

/-!
# Coordinators

A coordinator keeps a tree, the sessions that may change it, and the log of all that happened.
Whoever follows the log may fall behind: only the newest events are kept for reading.

The coordinator is the `Coordinator` of `SPEC_FULL.md`, section 4.4: `openSession`, `put`, `delete`,
`disconnect`, `reconnect` and `expire` (`expire_session`), each with the events that it publishes,
and `read` for a receiver of them.
-/

namespace Switchboard

/-- A tree, its sessions and its log. -/
structure Coordinator where
  /-- The nodes. -/
  tree : Tree := ∅
  /-- The states of the sessions. -/
  sessions : Std.ExtTreeMap SessionId SessionState := ∅
  /-- The number of the next session; it comes round. -/
  nextSession : UInt64 := 1
  /-- All that happened, in order. -/
  log : Array TreeEvent := #[]

namespace Coordinator

/-- A coordinator without nodes and sessions. -/
instance : Inhabited Coordinator := ⟨{}⟩

/-- How many events are kept for those who read the log. -/
def kept : Nat := 1024

/-- Tells events. -/
def publish (c : Coordinator) (events : List TreeEvent) : Coordinator :=
  { c with log := c.log ++ events.toArray }

/-- The session that is opened next. -/
def upcoming (c : Coordinator) : SessionId := c.nextSession.toNat

/-- Opens a session. -/
def openSession (c : Coordinator) : SessionId × Coordinator :=
  (c.upcoming, { c with
    nextSession := c.nextSession + 1
    sessions := c.sessions.insert c.upcoming .connected })

/-- The state of a session. -/
def sessionState? (c : Coordinator) (id : SessionId) : Option SessionState := c.sessions[id]?

/-- Only a connected session may change the tree or ask about it. -/
def checkSession (c : Coordinator) (id : SessionId) : Outcome Unit :=
  match c.sessionState? id with
  | some .connected => .ok ()
  | some state => .error (.registry ("session " ++ toString id ++ " is " ++ state.text))
  | none => .error (.registry ("unknown session " ++ toString id))

/-- Creates a node, or replaces the data of one that exists. An ephemeral node belongs to the
session. -/
def put (c : Coordinator) (session : SessionId) (path : String) (data : Option String)
    (ephemeral : Bool) : Outcome Unit × Coordinator :=
  match c.checkSession session with
  | .error f => (.error f, c)
  | .ok () =>
    let (tree, events) := c.tree.put path data (if ephemeral then some session else none)
    (.ok (), publish { c with tree } events)

/-- Removes the nodes that satisfy a condition, and says whether there were any. -/
def removeWhere (c : Coordinator) (doomed : String → TreeNode → Bool) : Bool × Coordinator :=
  let (tree, events) := c.tree.removeWhere doomed
  (!events.isEmpty, publish { c with tree } events)

/-- Deletes a node and all below it, and says whether there was anything. -/
def delete (c : Coordinator) (session : SessionId) (path : String) :
    Outcome Bool × Coordinator :=
  match c.checkSession session with
  | .error f => (.error f, c)
  | .ok () =>
    let (removed, c) := c.removeWhere fun key _ => Tree.isWithin path key
    (.ok removed, c)

/-- A session changes its state, unless it has expired or was never opened. -/
def transition (c : Coordinator) (id : SessionId) (state : SessionState) : Coordinator :=
  match c.sessionState? id with
  | none | some .expired => c
  | some _ => publish { c with sessions := c.sessions.insert id state } [.session id state]

/-- The session loses its connection; its nodes stay. -/
def disconnect (c : Coordinator) (id : SessionId) : Coordinator := c.transition id .disconnected

/-- The session has its connection again. -/
def reconnect (c : Coordinator) (id : SessionId) : Coordinator := c.transition id .connected

/-- The session ends, and its nodes go away. -/
def expire (c : Coordinator) (id : SessionId) : Coordinator :=
  (c.removeWhere fun _ node => node.owner == some id).2.transition id .expired

/-- What a reader of the log sees next. -/
inductive Reading where
  /-- Nothing new. -/
  | nothing
  /-- An event, and the position behind it. -/
  | event (event : TreeEvent) (position : Nat)
  /-- Events were lost; the position of the oldest that is kept. -/
  | lagged (position : Nat)
deriving DecidableEq, Repr

/-- Reads the log at a position. -/
def read (c : Coordinator) (position : Nat) : Reading :=
  if position + kept < c.log.size then .lagged (c.log.size - kept)
  else
    match c.log[position]? with
    | some event => .event event (position + 1)
    | none => .nothing

end Coordinator

end Switchboard
