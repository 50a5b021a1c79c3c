import Switchboard.Registry.Cache
import Switchboard.Registry.Coordinator

/-!
# Membership

A member of a coordinator registers addresses as ephemeral nodes of its session and follows the
log for the keys that it watches. When its session expires it opens another one, registers
everything again and reads every watched key anew; it reads them anew as well when it fell so far
behind that events were lost.

The member is the part of `MemoryRegistry` of `SPEC_FULL.md`, section 4.4, that talks to the
coordinator: `follow` is its `on_event`, `renew` and `restore` make up its `renew_session`, `resync`
and `readChildren` its `resync` and `read_children`, and `discover` its `Discovery`.
-/

namespace Switchboard

/-- What listeners are told. -/
inductive Notice where
  /-- The data of a key changed; none if it is gone. -/
  | data (source : String) (address : Option Address)
  /-- The addresses below a key changed. -/
  | children (source : String) (addresses : List Address)
  /-- The session changed its state. -/
  | state (state : SessionState)
  /-- There is a new session. -/
  | newSession
  /-- Something could not be registered again. -/
  | establishmentError (failure : Failure)
deriving Repr

/-- The key that a notice is about; none for the session. -/
def Notice.source : Notice → String
  | .data source _ | .children source _ => source
  | _ => ""

/-- A member's part in a coordinator. -/
structure Membership where
  /-- Its session. -/
  session : SessionId
  /-- What it has registered. -/
  registered : List Address := []
  /-- The keys that it watches. -/
  watched : Std.ExtTreeSet String := ∅
  /-- How far it has read the log. -/
  position : Nat := 0

namespace Membership

/-- Adds an address, unless an equal one is there. -/
def addAddress (addresses : List Address) (a : Address) : List Address :=
  if addresses.any (· == a) then addresses else addresses ++ [a]

/-- Removes the addresses that equal one. -/
def removeAddress (addresses : List Address) (a : Address) : List Address :=
  addresses.filter fun b => !(b == a)

/-- A member that joins a coordinator: it opens a session and reads the log from here on. -/
def join (c : Coordinator) : Membership × Coordinator :=
  let position := c.log.size
  let (session, c) := c.openSession
  ({ session, position }, c)

/-- Puts the node of an address. -/
def publish (m : Membership) (c : Coordinator) (a : Address) : Outcome Unit × Coordinator :=
  match a.nodePath with
  | .error f => (.error f, c)
  | .ok path => c.put m.session path (some a.text) true

/-- Deletes the node of an address. -/
def withdraw (m : Membership) (c : Coordinator) (a : Address) : Outcome Bool × Coordinator :=
  match a.nodePath with
  | .error f => (.error f, c)
  | .ok path => c.delete m.session path

/-- Registers an address: its node, the set of what is registered, and the cache. -/
def register (m : Membership) (c : Coordinator) (cache : Cache) (a : Address) :
    Outcome Unit × Membership × Coordinator × Cache :=
  match m.publish c a with
  | (.error f, c) => (.error f, m, c, cache)
  | (.ok (), c) =>
    (.ok (), { m with registered := addAddress m.registered a }, c,
      (cache.insert a.serviceKey a).2)

/-- Takes an address back. -/
def unregister (m : Membership) (c : Coordinator) (cache : Cache) (a : Address) :
    Outcome Unit × Membership × Coordinator × Cache :=
  match m.withdraw c a with
  | (.error f, c) => (.error f, m, c, cache)
  | (.ok _, c) =>
    (.ok (), { m with registered := removeAddress m.registered a }, c,
      (cache.remove a.serviceKey a).2)

/-- Takes everything back, as far as it can be, and watches nothing any more. -/
def withdrawAll (m : Membership) (c : Coordinator) : Membership × Coordinator :=
  ({ m with registered := [], watched := ∅ },
    m.registered.foldl (fun c a => (m.withdraw c a).2) c)

/-- The addresses right below a key; nodes that hold none are skipped. -/
def readChildren (c : Coordinator) (key : String) : List Address :=
  (c.tree.children key).filterMap fun child =>
    child.2.bind fun text => (Address.parse text).toOption

/-- Asks the coordinator for the addresses below a key. -/
def discover (m : Membership) (c : Coordinator) (key : String) : Outcome (List Address) :=
  (c.checkSession m.session).map fun () => readChildren c key

/-- Follows the data of a path; a text that is no address is passed over. -/
def followData (cache : Cache) (path : String) : Option String → Cache × List Notice
  | none => (cache.followData path none, [.data path none])
  | some text =>
    match Address.parse text with
    | .ok a => (cache.followData path (some a), [.data path (some a)])
    | .error _ => (cache, [])

/-- Follows the addresses below a key. -/
def followChildren (c : Coordinator) (cache : Cache) (key : String) : Cache × List Notice :=
  let children := readChildren c key
  (cache.followChildren key children, [.children key children])

/-- Reads a key anew: a node with data is an address, all else is a service. -/
def resync (c : Coordinator) (cache : Cache) (key : String) : Cache × List Notice :=
  match c.tree.data? key with
  | some text => followData cache key (some text)
  | none => followChildren c cache key

/-- Reads several keys anew. -/
def resyncAll (c : Coordinator) (cache : Cache) : List String → Cache × List Notice
  | [] => (cache, [])
  | key :: rest =>
    let (cache, notices) := resync c cache key
    let (cache, more) := resyncAll c cache rest
    (cache, notices ++ more)

/-- Follows an event of the tree. -/
def follow (m : Membership) (c : Coordinator) (cache : Cache) : TreeEvent → Cache × List Notice
  | .dataChanged path data =>
    if m.watched.contains path then followData cache path data else (cache, [])
  | .childrenChanged path =>
    if m.watched.contains path then followChildren c cache path else (cache, [])
  | .session id state => (cache, if id = m.session then [.state state] else [])

/-- Whether an event ends the member's session. -/
def isExpiry (m : Membership) (event : TreeEvent) : Bool := event == .session m.session .expired

/-- Opens another session. -/
def renew (m : Membership) (c : Coordinator) : Membership × Coordinator :=
  let (session, c) := c.openSession
  ({ m with session }, c)

/-- Registers addresses once more, and tells of those that cannot be. -/
def republish (m : Membership) (c : Coordinator) : List Address → Coordinator × List Notice
  | [] => (c, [])
  | a :: rest =>
    let (outcome, c) := m.publish c a
    let (c, more) := m.republish c rest
    (c, match outcome with
      | .ok () => more
      | .error f => .establishmentError f :: more)

/-- Brings a new session up to date: everything is registered and read anew. -/
def restore (m : Membership) (c : Coordinator) (cache : Cache) :
    Coordinator × Cache × List Notice :=
  let (c, notices) := m.republish c m.registered
  let (cache, more) := resyncAll c cache m.watched.toList
  (c, cache, notices ++ more)

end Membership

end Switchboard
