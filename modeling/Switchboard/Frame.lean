import Switchboard.Response
import Switchboard.Text.Utf8

/-!
# Frames

An envelope is one message between a caller and a provider; a frame is its bytes. A frame ends in a
root of 48 bytes with fixed places for all fields. Texts of at most seven bytes stand in the root;
longer ones and payloads stand before it, and the root holds their length and distance. All numbers
are little endian.

The envelope is that of `SPEC_FULL.md`, section 6.
-/

namespace Switchboard

/-- Whether a frame asks or answers. -/
inductive FrameKind where
  /-- Asks. -/
  | request
  /-- Answers. -/
  | response
deriving DecidableEq, Repr

/-- One message. A request carries the command and the encoded arguments; a response repeats the
request's number and carries the encoded result or the text of a failure. -/
structure Envelope where
  /-- The number of the request. -/
  id : UInt64
  /-- Whether the message asks or answers. -/
  kind : FrameKind
  /-- The command. -/
  command : String
  /-- Arguments or result. -/
  payload : Option Bytes
  /-- The text of a failure. -/
  error : Option String
deriving DecidableEq, Repr

namespace Envelope

/-- The request with a number for a command with encoded arguments. -/
def request (id : UInt64) (command : String) (payload : Bytes) : Envelope :=
  { id, kind := .request, command, payload := some payload, error := none }

/-- The text of a failure as a response carries it: a provider's own failure without the words
around it. -/
def failureText : Failure → String
  | .remote message => message
  | failure => failure.message

/-- The response to a request. -/
def responseTo (request : Envelope) (outcome : Outcome Bytes) : Envelope :=
  { id := request.id
    kind := .response
    command := request.command
    payload := outcome.toOption
    error := match outcome with
      | .ok _ => none
      | .error failure => some (failureText failure) }

/-- What a response says. -/
def toResponse (e : Envelope) : Response := ⟨e.payload, e.error⟩

end Envelope

namespace Frame

/-- The size of the root. -/
def rootSize : Nat := 48

/-- The last `width` bytes of a number, least first. -/
def littleEndian : Nat → Nat → Bytes
  | 0, _ => []
  | width + 1, n => UInt8.ofNat n :: littleEndian width (n / 256)

/-- The number of bytes with the least first. -/
def ofLittleEndian : Bytes → Nat
  | [] => 0
  | b :: r => b.toNat + 256 * ofLittleEndian r

/-- A distance in four bytes: from `position` to `target`, which stands before or at it. -/
def distance (position target : Nat) : Bytes := littleEndian 4 (UInt32.size + target - position)

/-- The eight bytes of a text at `position`, whose bytes stand at `target` if they are long. -/
def textField (position target : Nat) (bytes : Bytes) : Bytes :=
  if bytes.length ≤ 7 then
    bytes ++ List.replicate (7 - bytes.length) 0 ++ [UInt8.ofNat bytes.length]
  else littleEndian 4 bytes.length ++ distance position target

/-- The bytes of a text that stand before the root. -/
def outside (bytes : Bytes) : Bytes := if bytes.length ≤ 7 then [] else bytes

/-- The padding behind `length` bytes. -/
def padding (length : Nat) : Bytes := List.replicate ((8 - length % 8) % 8) 0

/-- The twelve bytes of a payload field at `position`. -/
def payloadField (position target : Nat) : Option Bytes → Bytes
  | none => List.replicate 12 0
  | some bytes =>
    [1, 0, 0, 0] ++ distance (position + 4) target ++ littleEndian 4 bytes.length

/-- The twelve bytes of an error field at `position`. -/
def errorField (position target : Nat) : Option Bytes → Bytes
  | none => List.replicate 12 0
  | some bytes => [1, 0, 0, 0] ++ textField (position + 4) target bytes

/-- The byte of a kind. -/
def kindByte : FrameKind → UInt8
  | .request => 0
  | .response => 1

/-- The frame of an envelope. -/
def encode (e : Envelope) : Bytes :=
  let command := Text.Utf8.encode e.command.toList
  let error := e.error.map fun text => Text.Utf8.encode text.toList
  let payloadAt := (outside command).length
  let errorAt := payloadAt + (e.payload.getD []).length
  let data := outside command ++ e.payload.getD [] ++ (error.map outside).getD []
  let rootAt := data.length + (padding data.length).length
  data ++ padding data.length ++ littleEndian 8 e.id.toNat ++ textField (rootAt + 8) 0 command ++
    payloadField (rootAt + 16) payloadAt e.payload ++ errorField (rootAt + 28) errorAt error ++
    kindByte e.kind :: List.replicate 7 0

/-- A number of four bytes with a sign. -/
def signed (bytes : Bytes) : Int :=
  let n := ofLittleEndian bytes
  if n < UInt32.size / 2 then n else (n : Int) - UInt32.size

/-- Takes `length` bytes at `position + offset` out of the data of a frame. They must stand at
`free` or behind it and end before the root; what is free afterwards begins behind them. -/
def block (data : Bytes) (free position : Nat) (offset : Int) (length : Nat) :
    Option (Bytes × Nat) :=
  let start := (position : Int) + offset
  if (free : Int) ≤ start ∧ start + length ≤ data.length then
    some ((data.drop start.toNat).take length, start.toNat + length)
  else none

/-- Reads the text field of eight bytes at `position`. -/
def readText (data field : Bytes) (free position : Nat) : Option (String × Nat) := do
  let size := ofLittleEndian (field.drop 7)
  let (bytes, free) ←
    if size < 128 then if size ≤ 7 then some (field.take size, free) else none
    else block data free position (signed (field.drop 4)) (ofLittleEndian (field.take 4))
  let text ← Text.Utf8.decode? bytes
  return (String.ofList text, free)

/-- Reads a field behind its tag. -/
def readTagged {α : Type} (field : Bytes) (free : Nat) (read : Bytes → Option (α × Nat)) :
    Option (Option α × Nat) :=
  match ofLittleEndian (field.take 1) with
  | 0 => some (none, free)
  | 1 => (read (field.drop 4)).map fun (value, free) => (some value, free)
  | _ => none

/-- Reads a kind. -/
def readKind (field : Bytes) : Option FrameKind :=
  match ofLittleEndian (field.take 1) with
  | 0 => some .request
  | 1 => some .response
  | _ => none

/-- Reads a root behind its data. -/
def readRoot (data root : Bytes) : Option Envelope := do
  let rootAt := data.length
  let (command, free) ← readText data ((root.drop 8).take 8) 0 (rootAt + 8)
  let (payload, free) ← readTagged ((root.drop 16).take 12) free fun field =>
    block data free (rootAt + 20) (signed (field.take 4)) (ofLittleEndian (field.drop 4))
  let (error, _) ← readTagged ((root.drop 28).take 12) free fun field =>
    readText data field free (rootAt + 32)
  let kind ← readKind (root.drop 40)
  return { id := UInt64.ofNat (ofLittleEndian (root.take 8)), kind, command, payload, error }

/-- The envelope of a frame. -/
def decode? (frame : Bytes) : Option Envelope :=
  if frame.length < rootSize ∨ frame.length % 8 ≠ 0 then none
  else
    readRoot (frame.take (frame.length - rootSize)) (frame.drop (frame.length - rootSize))

/-- A number takes up the width that it is given. -/
theorem length_littleEndian (width n : Nat) : (littleEndian width n).length = width := by
  induction width generalizing n with
  | zero => rfl
  | succ k ih => simp [littleEndian, ih]

end Frame

end Switchboard
