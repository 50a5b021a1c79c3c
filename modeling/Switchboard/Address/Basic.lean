import Switchboard.Address.Parameters
import Switchboard.Failure
import Switchboard.Text.Blank
import Switchboard.Text.Decimal
import Switchboard.Text.Percent

/-!
# Addresses

An address names an endpoint: a protocol, credentials, a host with a port, a path and parameters,
each of which may be missing. Two addresses are equal when all of these agree; the order of the
parameters does not count, and neither do attachments, which ride along and are never written out.

These are the endpoint addresses of `SPEC_FULL.md`, sections 3 and 4.1. Equality and hash are those
of section 3: `hashWords` lists what a hasher is fed.
-/

namespace Switchboard

/-- Something that rides along with an address. -/
inductive Attachment where
  /-- A text. -/
  | text (value : String)
  /-- A number. -/
  | number (value : Int)
deriving DecidableEq, Repr

/-- An endpoint. -/
structure Address where
  /-- The protocol, also called scheme. -/
  protocol : Option String := none
  /-- The name of the credentials. -/
  username : Option String := none
  /-- The secret of the credentials. -/
  password : Option String := none
  /-- The host. -/
  host : Option String := none
  /-- The port; zero stands for none. -/
  port : UInt16 := 0
  /-- The path without the slash before it. -/
  path : Option String := none
  /-- The parameters. -/
  parameters : Parameters := .empty
  /-- What rides along. -/
  attachments : List (String × Attachment) := []
deriving Repr

namespace Address

/-- The parameter that identifies a provider; registration needs it. -/
def nodeName : String := "nodeName"

/-- The parameter that bounds the wait for a response, in milliseconds. -/
def requestTimeout : String := "timeout"

/-- The parameter that sets how many connections are kept to a provider. -/
def connections : String := "connections"

/-- The parameter that names another host to dial than the advertised one. -/
def rpcHost : String := "rpcHost"

/-- The parameter that names the server in a certificate. -/
def serverName : String := "serverName"

/-- An address without parts. -/
instance : Inhabited Address := ⟨{}⟩

/-- Equality of everything but the order of parameters and the attachments. -/
def same (a b : Address) : Bool :=
  a.port == b.port && a.protocol == b.protocol && a.username == b.username &&
    a.password == b.password && a.host == b.host && a.path == b.path &&
    a.parameters.same b.parameters

/-- Addresses are compared part by part, their parameters in any order. -/
instance : BEq Address := ⟨same⟩

/-- One value of the sequence that stands for an address in a hash. -/
inductive HashWord where
  /-- A missing part. -/
  | missing
  /-- A part that is there. -/
  | present
  /-- A number. -/
  | number (value : Nat)
  /-- A text. -/
  | text (value : String)
deriving DecidableEq, Repr

/-- A part of an address as hash words. -/
def hashPart : Option String → List HashWord
  | none => [.missing]
  | some value => [.present, .text value]

/-- The sequence of values that a hash of the address is made of. The parameters come in ascending
order, behind their number. -/
def hashWords (a : Address) : List HashWord :=
  hashPart a.protocol ++ hashPart a.username ++ hashPart a.password ++ hashPart a.host ++
    [.number a.port.toNat] ++ hashPart a.path ++
    .number a.parameters.entries.length ::
      a.parameters.sorted.flatMap fun entry => [.text entry.1, .text entry.2]

/-- A copy at another host. -/
def withHost (a : Address) (host : String) : Address := { a with host := some host }

/-- A copy with another path. -/
def withPath (a : Address) (path : String) : Address := { a with path := some path }

/-- A copy with a parameter set. -/
def withParameter (a : Address) (key value : String) : Address :=
  { a with parameters := a.parameters.insert key value }

/-- A copy with a parameter taken out. -/
def withoutParameter (a : Address) (key : String) : Address :=
  { a with parameters := a.parameters.erase key }

/-- The value of a parameter. -/
def parameter? (a : Address) (key : String) : Option String := a.parameters.get? key

/-- The value of a parameter, or a default. -/
def parameterOr (a : Address) (key default : String) : String := (a.parameter? key).getD default

/-- A parameter without blanks around it. -/
def trimmedParameter? (a : Address) (key : String) : Option (List Char) :=
  (a.parameter? key).map fun value => Text.trim value.toList

/-- A parameter that holds a 32-bit number, or a default. -/
def intParameter (a : Address) (key : String) (default : Int) : Int :=
  ((a.trimmedParameter? key).bind (Text.int? (UInt32.size / 2))).getD default

/-- A parameter that holds a 64-bit number, or a default. -/
def longParameter (a : Address) (key : String) (default : Int) : Int :=
  ((a.trimmedParameter? key).bind (Text.int? (UInt64.size / 2))).getD default

/-- A parameter that says true or false in ASCII letters of either case, or a default. -/
def boolParameter (a : Address) (key : String) (default : Bool) : Bool :=
  match (a.trimmedParameter? key).map (·.map Char.toLower) with
  | some ['t', 'r', 'u', 'e'] => true
  | some ['f', 'a', 'l', 's', 'e'] => false
  | _ => default

/-- A parameter that holds a number of milliseconds, or a default. -/
def durationParameter (a : Address) (key : String) (default : Duration) : Duration :=
  match (a.trimmedParameter? key).bind (Text.nat? UInt64.size) with
  | some ms => Duration.ofMillis (UInt64.ofNat ms)
  | none => default

/-- Attaches something under a key, in place of what was there. -/
def attach (a : Address) (key : String) (value : Attachment) : Address :=
  { a with attachments := (key, value) :: a.attachments.filter fun entry => entry.1 ≠ key }

/-- What is attached under a key. -/
def attachment? (a : Address) (key : String) : Option Attachment := a.attachments.lookup key

/-- Takes away what is attached under a key. -/
def detach (a : Address) (key : String) : Address :=
  { a with attachments := a.attachments.filter fun entry => entry.1 ≠ key }

/-- Host and port with a colon between them. -/
def hostPort (a : Address) : String := a.host.getD "" ++ ":" ++ toString a.port.toNat

/-- Protocol, host and port. -/
def protocolHostPort (a : Address) : String := a.protocol.getD "" ++ "://" ++ a.hostPort

/-- The percent-encoded form of a text. -/
def encode (text : String) : String := String.ofList (Text.Percent.encode text.toList)

/-- The text that a percent-encoded form stands for. -/
def decode (text : String) : Outcome String :=
  match Text.Percent.decode? text.toList with
  | some s => .ok (String.ofList s)
  | none => .error (.malformedAddress text "invalid percent encoding")

end Address

end Switchboard
