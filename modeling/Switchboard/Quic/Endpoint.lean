import Switchboard.Address.Basic
import Switchboard.Quic.Identity
import Switchboard.Text.Cut
import Switchboard.Text.Hexadecimal

/-!
# Endpoints

What is checked before a connection over QUIC is attempted: the numeric address of the target and
the name that its certificate must carry.

The checks are those of `QuicTransport` and `QuicServer` in `SPEC_FULL.md`, section 4.5.
-/

namespace Switchboard

/-- The number of an internet host. -/
inductive Ip where
  /-- Four bytes. -/
  | v4 (a b c d : Nat)
  /-- Eight groups of sixteen bits. -/
  | v6 (groups : List Nat)
deriving DecidableEq, Repr

namespace Ip

/-- A decimal byte without leading zeros. -/
def readByte? (s : List Char) : Option Nat :=
  if s.length ≤ 3 ∧ (s.length = 1 ∨ s.head? ≠ some '0') then
    (Text.digits? s).filter (· < 256)
  else none

/-- Reads four bytes with dots between them. -/
def readV4? (s : List Char) : Option Ip :=
  match (Text.pieces '.' s).map readByte? with
  | [some a, some b, some c, some d] => some (.v4 a b c d)
  | _ => none

/-- Reads a group of one to four hexadecimal digits. -/
def readGroup? (s : List Char) : Option Nat :=
  if s.isEmpty ∨ 4 < s.length then none else Text.hexDigitsFrom 0 s

/-- Reads groups with colons between them; the last piece may be four decimal bytes if
`tailV4` says so. -/
def readGroups? (tailV4 : Bool) : List (List Char) → Option (List Nat)
  | [] => some []
  | [last] =>
    match readGroup? last, readV4? last with
    | some group, _ => some [group]
    | none, some (.v4 a b c d) => if tailV4 then some [a * 256 + b, c * 256 + d] else none
    | _, _ => none
  | piece :: rest => do
    let group ← readGroup? piece
    let groups ← readGroups? tailV4 rest
    return group :: groups

/-- The groups of a text that may be empty. -/
def readSide? (tailV4 : Bool) (s : List Char) : Option (List Nat) :=
  if s.isEmpty then some [] else readGroups? tailV4 (Text.pieces ':' s)

/-- Reads eight groups; one run of zeros may be left out between two colons. -/
def readV6? (s : List Char) : Option Ip :=
  match Text.cut [':', ':'] s with
  | none => (readSide? true s).bind fun groups =>
      if groups.length = 8 then some (.v6 groups) else none
  | some (before, after) => do
    let head ← readSide? false before
    let tail ← readSide? true after
    if head.length + tail.length < 8 then
      return .v6 (head ++ List.replicate (8 - head.length - tail.length) 0 ++ tail)
    else none

/-- Reads a number of either kind. -/
def read? (s : List Char) : Option Ip :=
  match readV4? s with
  | some ip => some ip
  | none => readV6? s

/-- The length of the run of zeros at the start. -/
def zeroRun (groups : List Nat) : Nat := (groups.takeWhile (· == 0)).length

/-- The first longest run of zeros, as its place and length. -/
def longestRun (groups : List Nat) : Nat × Nat :=
  (List.range groups.length).foldl (fun best place =>
    let length := zeroRun (groups.drop place)
    if best.2 < length then (place, length) else best) (0, 0)

/-- Groups in hexadecimal with colons between them. -/
def groupsText (groups : List Nat) : String :=
  ":".intercalate (groups.map fun group => String.ofList (Text.lowerHex group))

/-- Four bytes with dots between them. -/
def bytesText (a b c d : Nat) : String :=
  ".".intercalate ([a, b, c, d].map toString)

/-- The text of a number. The longest run of at least two zeros is left out, and the last two
groups of a number that stands for four bytes are written as these. -/
def text : Ip → String
  | .v4 a b c d => bytesText a b c d
  | .v6 [0, 0, 0, 0, 0, 0xffff, g, h] =>
    "::ffff:" ++ bytesText (g / 256) (g % 256) (h / 256) (h % 256)
  | .v6 groups =>
    let (place, length) := longestRun groups
    if length < 2 then groupsText groups
    else groupsText (groups.take place) ++ "::" ++ groupsText (groups.drop (place + length))

/-- Whether all bytes are zero. -/
def isUnspecified : Ip → Bool
  | .v4 a b c d => [a, b, c, d].all (· == 0)
  | .v6 groups => groups.all (· == 0)

/-- The form of a number on an endpoint for eight groups. -/
def toV6 : Ip → Ip
  | .v4 a b c d => .v6 [0, 0, 0, 0, 0, 0xffff, a * 256 + b, c * 256 + d]
  | ip => ip

end Ip

/-- A host's number and a port. -/
structure Socket where
  /-- The host. -/
  ip : Ip
  /-- The port. -/
  port : UInt16
deriving DecidableEq, Repr

namespace Socket

/-- The text of a socket; eight groups stand in brackets. -/
def text (s : Socket) : String :=
  match s.ip with
  | .v4 .. => s.ip.text ++ ":" ++ toString s.port.toNat
  | .v6 _ => "[" ++ s.ip.text ++ "]:" ++ toString s.port.toNat

/-- Reads a host's number and a port behind the last colon. -/
def read? (s : List Char) : Option Socket := do
  let (host, port) ← Text.cutAtLast ':' s
  let port ← Text.nat? 65536 port
  let ip ← match between host with
    | some inner => Ip.readV6? inner
    | none => Ip.readV4? host
  return ⟨ip, UInt16.ofNat port⟩
where
  /-- What stands between brackets. -/
  between (s : List Char) : Option (List Char) :=
    (Text.afterLead ['['] s).bind (Text.beforeTail [']'])

end Socket

/-- A character of a label of a DNS name. -/
def isLabelChar (c : Char) : Bool := c.isAlphanum || c == '-' || c == '_'

/-- A label of a DNS name: one to 63 letters, digits, dashes and underscores, with no dash at either
end. -/
def isLabel (label : List Char) : Bool :=
  1 ≤ label.length && label.length ≤ 63 && label.all isLabelChar &&
    label.head? != some '-' && label.getLast? != some '-'

/-- A DNS name: at most 253 characters, labels between dots, the last of them not all digits. A dot
may stand at the end. -/
def isDnsName (name : List Char) : Bool :=
  let labels := Text.pieces '.' name
  let labels := if labels.getLast? = some [] then labels.dropLast else labels
  name.length ≤ 253 && labels.all isLabel &&
    (labels.getLast?.elim false fun last => !last.all Char.isDigit)

/-- Settings of an endpoint. -/
structure QuicSettings where
  /-- The local socket of a dialing endpoint. -/
  bind : Socket := ⟨.v4 0 0 0 0, 0⟩
  /-- The pause between signs of life. -/
  keepAlive : Duration := .ofMillis 5000
  /-- How long a silent connection is kept. -/
  idle : Duration := .ofMillis 30000
  /-- The size above which frames are refused. -/
  maxFrame : Nat := 16777216
deriving DecidableEq, Repr

/-- What binding a server comes to: nothing, or a refusal of the identity's key. -/
def bindServer (identity : Identity) : Outcome Unit :=
  if identity.key.isUsable then .ok ()
  else .error (.tls "unexpected error: invalid private key")

/-- What building a dialing endpoint comes to: every root must be a certificate. -/
def buildTransport (roots : List Certificate) : Outcome Unit :=
  if roots.all Certificate.isReadable then .ok ()
  else .error (.tls "untrusted root: InvalidCertificate(BadEncoding)")

/-- A failure to begin a connection. -/
def cannotStart (reason : String) : Failure := .remoting ("cannot start connecting: " ++ reason)

/-- The host of an address as a number. Only a missing host has a name, that of the local host. -/
def resolveHost? (a : Address) : Option Ip :=
  match a.host with
  | none => some (.v4 127 0 0 1)
  | some "localhost" => some (.v4 127 0 0 1)
  | some host => Ip.read? host.toList

/-- The checks before dialing, in order: the target must be reachable from the local socket, it
must be a real address with a port, and the server name must be a host's number or a DNS name. -/
def checkDial (settings : QuicSettings) (a : Address) : Outcome Unit :=
  match resolveHost? a with
  | none => .error (.io .system)
  | some ip =>
    let serverName := ((a.parameter? Address.serverName).orElse fun _ => a.host).getD "localhost"
    let invalidTarget (ip : Ip) : Outcome Unit :=
      .error (cannotStart ("invalid remote address: " ++ (Socket.mk ip a.port).text))
    let checkRest (ip : Ip) : Outcome Unit :=
      if a.port = 0 ∨ ip.isUnspecified then invalidTarget ip
      else if isDnsName serverName.toList ∨ (Ip.read? serverName.toList).isSome then .ok ()
      else .error (cannotStart ("invalid DNS name: " ++ serverName))
    match settings.bind.ip, ip with
    | .v4 .., .v6 _ => invalidTarget ip
    | .v4 .., .v4 .. => checkRest ip
    | .v6 _, _ => checkRest ip.toV6

end Switchboard
