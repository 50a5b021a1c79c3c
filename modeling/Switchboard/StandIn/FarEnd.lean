import Switchboard.Connection

/-!
# Far ends

Stand-ins for whoever sits at the other end of a connection. They note every frame and answer
requests by a fixed rule.
-/

namespace Switchboard

/-- What was noted at an end. -/
structure Recorder where
  /-- The frames that arrived, with the connections they arrived on. -/
  frames : Array (ConnectionRef × Bytes) := #[]
  /-- How often a connection was closed. -/
  closes : Nat := 0

/-- A recorder that noted nothing. -/
instance : Inhabited Recorder := ⟨{}⟩

namespace Recorder

/-- Notes a frame. -/
def note (r : Recorder) (connection : ConnectionRef) (frame : Bytes) : Recorder :=
  { r with frames := r.frames.push (connection, frame) }

/-- Notes a closing. -/
def noteClose (r : Recorder) : Recorder := { r with closes := r.closes + 1 }

/-- The connections in the order in which their first frame arrived. -/
def connections (r : Recorder) : List ConnectionRef :=
  r.frames.toList.foldl (fun seen frame =>
    if frame.1 ∈ seen then seen else seen ++ [frame.1]) []

end Recorder

/-- How a far end answers a request. -/
inductive FarEndRule where
  /-- With the payload. -/
  | echo
  /-- Not at all. -/
  | silent
  /-- With bytes that are no frame. -/
  | garbage
  /-- With the payload, but as a request. -/
  | asRequest
  /-- With the payload, under another number. -/
  | wrongId
  /-- With the payload, twice. -/
  | twice
  /-- With nothing in the response. -/
  | null
  /-- With a failure. -/
  | error
  /-- With the payload and a failure. -/
  | both
  /-- By closing the connection. -/
  | closer
  /-- With the payload, after a while. -/
  | late (after : Nat)
deriving DecidableEq, Repr

/-- The rule of a name; `after` is how long the late one takes. -/
def FarEndRule.ofName (name : String) (after : Nat) : FarEndRule :=
  match name with
  | "silent" => .silent
  | "garbage" => .garbage
  | "as_request" => .asRequest
  | "wrong_id" => .wrongId
  | "twice" => .twice
  | "null" => .null
  | "error" => .error
  | "both" => .both
  | "closer" => .closer
  | "late" => .late after
  | _ => .echo

/-- A far end. -/
structure FarEnd where
  /-- How it answers. -/
  rule : FarEndRule := .echo
  /-- What it noted. -/
  recorder : Recorder := {}

/-- A far end that noted nothing. -/
instance : Inhabited FarEnd := ⟨{}⟩

/-- The frames that a rule answers a request with. -/
def FarEndRule.replies (rule : FarEndRule) (request : Envelope) : List Bytes :=
  let reply := Envelope.responseTo request (.ok (request.payload.getD []))
  match rule with
  | .echo | .late _ => [Frame.encode reply]
  | .silent | .closer => []
  | .garbage => [[0xff, 0xff, 0xff]]
  | .asRequest => [Frame.encode { reply with kind := .request }]
  | .wrongId => [Frame.encode { reply with id := reply.id + 1000 }]
  | .twice => [Frame.encode reply, Frame.encode reply]
  | .null => [Frame.encode { reply with payload := none }]
  | .error =>
    [Frame.encode { reply with payload := none, error := some ("no: " ++ request.command) }]
  | .both => [Frame.encode { reply with error := some "both" }]

end Switchboard
