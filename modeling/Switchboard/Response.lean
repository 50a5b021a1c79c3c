import Switchboard.Failure

/-!
# Responses

What comes back for a call: the encoded result, or the text of the provider's failure.

The response is the `RpcResponse` of `SPEC_FULL.md`, section 4.6; one without result and failure is
the null response of section 6.
-/

namespace Switchboard

/-- Bytes as they stand in frames and payloads. -/
abbrev Bytes := List UInt8

/-- What came back for a call. -/
structure Response where
  /-- The encoded result. -/
  value : Option Bytes := none
  /-- The text of the provider's failure. -/
  error : Option String := none
deriving DecidableEq, Repr

namespace Response

/-- A response with a result. -/
def ofValue (value : Bytes) : Response := { value := some value }

/-- A response with a failure. -/
def ofFailure (message : String) : Response := { error := some message }

/-- The outcome that a response stands for; a failure counts before a result. -/
def toOutcome (r : Response) : Outcome Bytes :=
  match r.error, r.value with
  | some message, _ => .error (.remote message)
  | none, some value => .ok value
  | none, none => .error (.rpc "empty response, the service may have failed")

end Response

end Switchboard
