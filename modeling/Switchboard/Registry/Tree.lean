import Std.Data.ExtTreeMap
import Switchboard.Address.Key

/-!
# The coordination tree

Nodes stand at paths and hold data or none. A node may belong to a session and goes away with it.
Every change tells what changed: the data of a path, or the names of the nodes right below one.

The tree is that of `Coordinator` in `SPEC_FULL.md`, section 4.4: `removeWhere` is its
`remove_matching`.
-/

namespace Switchboard

/-- Names a session, by the number that a counter of 64 bits gave it. -/
abbrev SessionId := Nat

/-- A node of the tree. -/
structure TreeNode where
  /-- The data, if the node has any. -/
  data : Option String := none
  /-- The session that the node goes away with. -/
  owner : Option SessionId := none
deriving DecidableEq, Repr

/-- How a session stands. -/
inductive SessionState where
  /-- It may change the tree. -/
  | connected
  /-- It lost its connection, and its nodes stay. -/
  | disconnected
  /-- It ended, and its nodes are gone. -/
  | expired
deriving DecidableEq, Repr

/-- The name of a state. -/
def SessionState.text : SessionState → String
  | connected => "Connected"
  | disconnected => "Disconnected"
  | expired => "Expired"

/-- Something that happened in the tree or to a session. -/
inductive TreeEvent where
  /-- The data of a path changed; none if the node is gone. -/
  | dataChanged (path : String) (data : Option String)
  /-- A node right below a path came or went. -/
  | childrenChanged (path : String)
  /-- A session changed its state. -/
  | session (id : SessionId) (state : SessionState)
deriving DecidableEq, Repr

/-- The nodes under their paths, in ascending order. -/
abbrev Tree := Std.ExtTreeMap String TreeNode

namespace Tree

/-- The steps of a path that are not empty. -/
def segments (path : String) : List String :=
  ((Text.pieces '/' path.toList).filter (!·.isEmpty)).map String.ofList

/-- The paths that lie on the way of a path, longest last. -/
def waypoints (above : String) : List String → List String
  | [] => []
  | segment :: rest =>
    let here := above ++ "/" ++ segment
    here :: waypoints here rest

/-- The path above a way point. -/
def above (path : String) : String :=
  match Key.split? path with
  | some (parent, _) => parent
  | none => "/"

/-- Creates what is missing on the way to a path, as nodes without data that belong to nobody. -/
def ensureWay (path : String) : List String → Tree → Tree × List TreeEvent
  | [], t => (t, [])
  | here :: rest, t =>
    if here ≠ path ∧ !t.contains here then
      let (t, events) := ensureWay path rest (t.insert here {})
      (t, .childrenChanged (above here) :: events)
    else ensureWay path rest t

/-- Puts a node itself, without the way to it. -/
def putNode (t : Tree) (path : String) (data : Option String) (owner : Option SessionId) :
    Tree × List TreeEvent :=
  match t[path]? with
  | some node =>
    (t.insert path { data, owner }, if node.data = data then [] else [.dataChanged path data])
  | none =>
    (t.insert path { data, owner },
      .dataChanged path data :: match Key.split? path with
        | some (parent, _) => [.childrenChanged parent]
        | none => [])

/-- Creates a node, or replaces the data and the owner of one that exists. -/
def put (t : Tree) (path : String) (data : Option String) (owner : Option SessionId) :
    Tree × List TreeEvent :=
  let (t, way) := ensureWay path (waypoints "" (segments path)) t
  let (t, events) := t.putNode path data owner
  (t, way ++ events)

/-- What the removal of a node tells. -/
def removalEvents (path : String) : List TreeEvent :=
  .dataChanged path none :: match Key.split? path with
    | some (parent, _) => [.childrenChanged parent]
    | none => []

/-- Removes the nodes that satisfy a condition. -/
def removeWhere (t : Tree) (doomed : String → TreeNode → Bool) : Tree × List TreeEvent :=
  (t.filter fun path node => !doomed path node,
    (t.toList.filter fun entry => doomed entry.1 entry.2).flatMap fun entry =>
      removalEvents entry.1)

/-- Whether a text begins with another. -/
def startsWith (text lead : String) : Bool := lead.toList.isPrefixOf text.toList

/-- A node is at a path or below it. -/
def isWithin (path : String) (key : String) : Bool :=
  key == path || startsWith key (path ++ "/")

/-- The data of a node. -/
def data? (t : Tree) (path : String) : Option String := t[path]?.bind (·.data)

/-- What every path right below a path begins with. -/
def childLead (path : String) : String :=
  String.ofList (Text.trimEndBy (· == '/') path.toList) ++ "/"

/-- The nodes right below a path, by name: a scan that begins at the first path with the right
lead and stops at the first without it. -/
def children (t : Tree) (path : String) : List (String × Option String) :=
  let lead := childLead path
  let scan := (t.toList.dropWhile fun entry => entry.1 < lead).takeWhile fun entry =>
    startsWith entry.1 lead
  scan.filterMap fun entry =>
    let name := entry.1.toList.drop lead.length
    if name.contains '/' then none else some (String.ofList name, entry.2.data)

end Tree

end Switchboard
