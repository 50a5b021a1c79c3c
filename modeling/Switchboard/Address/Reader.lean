import Switchboard.Address.Basic
import Switchboard.Text.Cut

/-!
# Reading addresses

The parts are cut off one after the other: the parameters behind the first `?`, the protocol before
the first `://` (or, failing that, before the first `:/`), the path behind the first `/`, the
credentials before the first `@`, and the port behind the first `:`. What is left is the host.

The order is that of `SPEC_FULL.md`, section 4.1, but section 4.1 has the port behind the last `:`.
-/

namespace Switchboard.Address

/-- A parameter; without `=` its text is both key and value. -/
def readParameter (part : List Char) : String × String :=
  match Text.cutAt '=' part with
  | some (key, value) => (String.ofList key, String.ofList value)
  | none => (String.ofList part, String.ofList part)

/-- The parameters between the `&` of a query; blank ones are skipped. -/
def readParameters (query : List Char) : Parameters :=
  let parts := ((Text.pieces '&' query).map Text.trim).filter fun part => !part.isEmpty
  Parameters.ofList (parts.map readParameter)

/-- Cuts off the parameters. -/
def cutParameters (s : List Char) : List Char × Parameters :=
  match Text.cutAt '?' s with
  | some (rest, query) => (rest, readParameters query)
  | none => (s, .empty)

/-- Cuts off the protocol; nothing if a marker stands at the very start. -/
def cutProtocol? (s : List Char) : Option (Option String × List Char) :=
  match Text.cut [':', '/', '/'] s with
  | some ([], _) => none
  | some (protocol, rest) => some (some (String.ofList protocol), rest)
  | none =>
    match Text.cut [':', '/'] s with
    | some ([], _) => none
    | some (protocol, rest) => some (some (String.ofList protocol), '/' :: rest)
    | none => some (none, s)

/-- Cuts off the path. -/
def cutPath (s : List Char) : List Char × Option String :=
  match Text.cutAt '/' s with
  | some (rest, path) => (rest, some (String.ofList path))
  | none => (s, none)

/-- Cuts off the credentials. -/
def cutCredentials (s : List Char) : Option String × Option String × List Char :=
  match Text.cutAt '@' s with
  | some (credentials, rest) =>
    match Text.cutAt ':' credentials with
    | some (name, secret) => (some (String.ofList name), some (String.ofList secret), rest)
    | none => (some (String.ofList credentials), none, rest)
  | none => (none, none, s)

/-- Cuts off the port; nothing if what stands there is no port. -/
def cutPort? (s : List Char) : Option (List Char × UInt16) :=
  match Text.cutAt ':' s with
  | some (host, []) => some (host, 0)
  | some (host, digits) => (Text.nat? 65536 digits).map fun n => (host, UInt16.ofNat n)
  | none => some (s, 0)

/-- Why a text is no address. -/
inductive Malformation where
  /-- There is nothing but blanks. -/
  | empty
  /-- The protocol's marker stands at the start. -/
  | missingProtocol
  /-- What stands in the place of the port is none. -/
  | invalidPort
deriving DecidableEq, Repr

/-- The text of a malformation. -/
def Malformation.message : Malformation → String
  | empty => "address is empty"
  | missingProtocol => "missing protocol"
  | invalidPort => "invalid port"

/-- Reads an address that has no blanks around it. -/
def read (s : List Char) : Except Malformation Address :=
  if s.isEmpty then .error .empty
  else
    let (s, parameters) := cutParameters s
    match cutProtocol? s with
    | none => .error .missingProtocol
    | some (protocol, s) =>
      let (s, path) := cutPath s
      let (username, password, s) := cutCredentials s
      match cutPort? s with
      | none => .error .invalidPort
      | some (host, port) =>
        .ok {
          protocol, username, password, port, path, parameters
          host := if host.isEmpty then none else some (String.ofList host) }

/-- Reads an address; blanks around it do not count. -/
def parse (text : String) : Outcome Address :=
  (read (Text.trim text.toList)).mapError fun fault => .malformedAddress text fault.message

end Switchboard.Address
