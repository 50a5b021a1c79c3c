import Switchboard.Board.Links
import Switchboard.Proofs.Frame

/-!
# What a table of commands answers

A readable request has one answer, unless its handler crashes; then it has none. Serving a request
writes the answer and nothing else. The answer says what is relayed of the outcome that the table
comes to for this command and this payload.
-/

namespace Switchboard

/-- What a caller learns of an outcome: every failure becomes one of the provider. -/
def relayed : Outcome Bytes → Outcome Bytes
  | .ok value => .ok value
  | .error (.remote message) => .error (.remote message)
  | .error failure => .error (.remote failure.message)

/-- A response says what is relayed of the outcome that it carries. -/
theorem toOutcome_responseTo (request : Envelope) (outcome : Outcome Bytes) :
    (Envelope.responseTo request outcome).toResponse.toOutcome = relayed outcome := by
  cases outcome with
  | ok value => rfl
  | error failure => cases failure <;> rfl

/-- A request is read back from its frame. -/
theorem CommandTable.request?_encode {id : UInt64} {command : String} {payload : Bytes}
    (h : Frame.Fits (.request id command payload)) :
    CommandTable.request? (Frame.encode (.request id command payload)) =
      some (.request id command payload) := by
  simp only [CommandTable.request?, Frame.decode?_encode h]
  rfl

namespace CommandTable

variable (t : CommandTable)

/-- What comes of a command with a payload; nothing if its handler crashes. -/
def outcome? (command : String) (payload : Bytes) : Option (Outcome Bytes) :=
  match t.handler? command with
  | some handler => handler.serve payload
  | none => some (.error (.rpc ("no handler for " ++ command)))

/-- What the table writes back for a frame. -/
def answers (frame : Bytes) : List Bytes :=
  match request? frame with
  | some request => ((respond (t.handler? request.command) request).map Frame.encode).toList
  | none => []

/-- The response to a request carries what came of it. -/
theorem respond_eq (request : Envelope) :
    respond (t.handler? request.command) request =
      (t.outcome? request.command (request.payload.getD [])).map (Envelope.responseTo request) := by
  unfold respond outcome? unserved
  cases t.handler? request.command <;> rfl

/-- A request has one answer, or none if its handler crashes. -/
theorem length_answers {frame : Bytes} {request : Envelope} (h : request? frame = some request) :
    (t.answers frame).length =
      if (t.outcome? request.command (request.payload.getD [])).isSome then 1 else 0 := by
  simp only [answers, h, respond_eq]
  cases t.outcome? request.command (request.payload.getD []) <;> rfl

end CommandTable

/-- Writes a frame and waits until it is known what became of it. -/
def Op.writeOut (c : ConnectionRef) (frame : Bytes) : Op Unit := do
  let ack ← Op.write c frame
  let _ ← Op.awaitAck ack
  pure ()

/-- Serving a request takes the time of its handler and writes just the answers. -/
theorem Op.serve_eq (t : CommandTable) {frame : Bytes} {request : Envelope}
    (h : CommandTable.request? frame = some request) (c : ConnectionRef) :
    Op.serve c (t.handler? request.command) request = (do
      match t.handler? request.command with
      | some handler => Routine.sleep handler.delay
      | none => pure ()
      (t.answers frame).forM (Op.writeOut c)) := by
  have hanswers : t.answers frame =
      ((CommandTable.respond (t.handler? request.command) request).map Frame.encode).toList := by
    simp only [CommandTable.answers, h]
  rw [hanswers]
  unfold Op.serve Op.dispatch
  cases hhandler : t.handler? request.command with
  | none =>
    simp only [pure_bind]
    cases CommandTable.respond none request with
    | none => rfl
    | some response => simp [Op.writeOut]
  | some handler =>
    simp only [bind_assoc, pure_bind]
    cases CommandTable.respond (some handler) request with
    | none => rfl
    | some response => simp [Op.writeOut]

end Switchboard
