import Switchboard.Address.Writer
import Switchboard.Text.Cut

/-!
# Keys

The registry files addresses under keys: `/group/services/command` for a service, and one step
further down `/group/services/command/node` for one of its providers.

A service key is the lookup key of `SPEC_FULL.md`, section 6, and with the name of a node behind it
the subscription key of section 4.4.
-/

namespace Switchboard

namespace Key

/-- The key of `child` below `parent`; an empty child is the parent itself. -/
def join (parent child : String) : String :=
  if child.isEmpty then parent
  else if parent.toList.getLast? = some '/' then parent ++ child
  else parent ++ "/" ++ child

/-- The key above a key, and the last step. -/
def split? (key : String) : Option (String × String) :=
  (Text.cutAtLast '/' key.toList).map fun (parent, child) =>
    (if parent.isEmpty then "/" else String.ofList parent, String.ofList child)

example : split? "/g/s/n1" = some ("/g/s", "n1") ∧ split? "/n1" = some ("/", "n1") := by
  decide +kernel

example : join "/g/s" "n1" = "/g/s/n1" ∧ join "/" "n1" = "/n1" := by decide +kernel

end Key

namespace Address

/-- The key of the service an address belongs to: its path, percent-decoded, without slashes at
the ends, below the root. -/
def serviceKey (a : Address) : String :=
  let path := Text.Percent.decodeLossy (a.path.getD "").toList
  String.ofList ('/' :: Text.trimBy (· == '/') path)

/-- The service key, and below it the node if the address names one. -/
def subscriptionKey (a : Address) : String :=
  match a.parameter? nodeName with
  | some node => Key.join a.serviceKey node
  | none => a.serviceKey

/-- The node that an address to be registered names; it must not be blank. -/
def registrationNode (a : Address) : Outcome String :=
  match a.parameter? nodeName with
  | some node =>
    if (Text.trim node.toList).isEmpty then .error (missing a) else .ok node
  | none => .error (missing a)
where
  /-- The refusal of an address without a node. -/
  missing (a : Address) : Failure :=
    .invalidArgument (a.text ++ " has no " ++ nodeName ++ " parameter")

/-- The key under which an address is registered. -/
def nodePath (a : Address) : Outcome String :=
  a.registrationNode.map (Key.join a.serviceKey)

/-- Those of `addresses` that belong to the node that `query` names, or all of them if it names
none. -/
def ofNode (query : Address) (addresses : List Address) : List Address :=
  match query.parameter? nodeName with
  | some node => addresses.filter fun a => a.parameter? nodeName == some node
  | none => addresses

end Address

end Switchboard
