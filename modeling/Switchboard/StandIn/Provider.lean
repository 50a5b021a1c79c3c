import Switchboard.Client
import Switchboard.CommandTable

/-!
# Stand-ins for providers

Handlers of commands, and invokers whose host tells how their calls end.
-/

namespace Switchboard.StandIn

/-- A handler that answers with what it was sent. -/
def echo : CommandHandler := { serve := fun payload => some (.ok payload) }

/-- A handler that answers with what it was sent, backwards. -/
def reverse : CommandHandler := { serve := fun payload => some (.ok payload.reverse) }

/-- A handler that adds bytes up, unless the sum is no byte. -/
def sum : CommandHandler :=
  { serve := fun payload =>
      let total := payload.foldl (fun total byte => total + byte.toNat) 0
      some (if total < 256 then .ok [UInt8.ofNat total] else .error (.remote "overflow")) }

/-- A handler that works for a while and answers with what it was sent. -/
def slow (delay : Nat) : CommandHandler := { echo with delay }

/-- A handler that fails. -/
def fail (failure : Failure) : CommandHandler := { serve := fun _ => some (.error failure) }

/-- A handler that crashes. -/
def crash : CommandHandler := { serve := fun _ => none }

/-- The handler of a name; `delay` and `failure` are what the slow and the failing one take. -/
def handler (name : String) (delay : Nat) (failure : Failure) : CommandHandler :=
  match name with
  | "reverse" => reverse
  | "sum" => sum
  | "slow" => slow delay
  | "fail" => fail failure
  | "panic" => crash
  | _ => echo

/-- How a call of a stand-in ends. -/
inductive CallEnd where
  /-- At once. -/
  | atOnce (outcome : Outcome Response)
  /-- After a while. -/
  | after (delay : Nat) (outcome : Outcome Response)
  /-- Never. -/
  | never

/-- How a call of the stand-in at a host ends. -/
def callEnd (host : String) (payload : Bytes) : CallEnd :=
  match host with
  | "broken" => .atOnce (.error .connectionClosed)
  | "failing" => .atOnce (.ok (.ofFailure "bad input"))
  | "empty" => .atOnce (.ok {})
  | "silent" | "plainsilent" => .never
  | "io" => .atOnce (.error (.io (.described "pipe")))
  | "remoting" => .atOnce (.error (.remotingFrom "lost" .connectionClosed))
  | "codec" => .atOnce (.error (.codec "garbled"))
  | "slow" => .after 100 (.ok (.ofValue payload))
  | "echo" => .atOnce (.ok (.ofValue payload))
  | _ => .atOnce (.ok (.ofValue (Text.Utf8.encode host.toList)))

/-- Whether the stand-in at a host can be reached at all. -/
def isUp (host : String) : Bool := host != "down"

/-- Whether there is an invoker for a host. -/
def canRefer (host : String) : Bool := host != "unreferrable"

/-- The refusal of an invoker. -/
def referFailure : Failure := .invalidArgument "cannot refer"

/-- The wait for a response that the stand-in at an address prefers. -/
def requestTimeout (a : Address) : Option Duration :=
  if (a.host.getD "").toList.take 5 = "plain".toList then none
  else (a.trimmedParameter? Address.requestTimeout).bind fun text =>
    (Text.nat? UInt64.size text).map fun ms => Duration.ofMillis (UInt64.ofNat ms)

end Switchboard.StandIn
