import Switchboard.Retry
import Switchboard.RoundRobin
import Switchboard.StandIn.Provider

/-!
# Invokers

An invoker carries calls to one provider. The usual one keeps as many clients as the provider asks
for and lets the calls take turns over them.

The usual invoker is the `RemoteInvoker` of `SPEC_FULL.md`, section 4.6, and a reference is its
`ServiceReference`.
-/

namespace Switchboard

/-- An invoker over clients that take turns. -/
structure RemoteInvoker where
  /-- The address of the provider. -/
  address : Address
  /-- What the provider asks for. -/
  settings : ClientSettings
  /-- The clients. -/
  clients : List ClientRef
  /-- The counter of turns. -/
  next : UInt64 := 0
  /-- Whether it was destroyed. -/
  isDestroyed : Bool := false

/-- What carries calls to one provider. -/
inductive Invoker where
  /-- Over clients. -/
  | remote (invoker : RemoteInvoker)
  /-- A stand-in at an address. -/
  | standIn (address : Address) (isDestroyed : Bool)

namespace Invoker

/-- A stand-in that was destroyed. -/
instance : Inhabited Invoker := ⟨.standIn {} true⟩

/-- The address of the provider. -/
def address : Invoker → Address
  | remote r => r.address
  | standIn a _ => a

/-- Whether it was destroyed. -/
def isDestroyed : Invoker → Bool
  | remote r => r.isDestroyed
  | standIn _ destroyed => destroyed

/-- The same invoker, destroyed. -/
def destroyed : Invoker → Invoker
  | remote r => remote { r with isDestroyed := true }
  | standIn a _ => standIn a true

/-- The clients that it keeps. -/
def clients : Invoker → List ClientRef
  | remote r => r.clients
  | standIn .. => []

/-- The provider's preferred wait for a response. -/
def requestTimeout : Invoker → Option Duration
  | remote r => some r.settings.requestTimeout
  | standIn a _ => StandIn.requestTimeout a

end Invoker

/-- Points at an invoker. -/
abbrev InvokerRef := Nat

/-- What callers hold to reach a service: a resolver, the policy for failed calls, the wait for a
response that holds when neither call nor provider sets one, and the counter of turns. -/
structure Reference where
  /-- The resolver. -/
  resolver : Nat := 0
  /-- When a failed call is tried again. -/
  retry : Retry := .never
  /-- The wait for a response. -/
  timeout : Duration := ({} : ClientSettings).requestTimeout
  /-- The counter of turns. -/
  next : UInt64 := 0

/-- A reference whose failed calls are not tried again. -/
instance : Inhabited Reference := ⟨{}⟩

/-- How long a call waits for its response: as the call says, or else as the provider prefers. -/
def Reference.timeoutFor (r : Reference) (call : Call) (invoker : Invoker) : Duration :=
  (call.timeout <|> invoker.requestTimeout).getD r.timeout

end Switchboard
