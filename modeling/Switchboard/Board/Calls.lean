import Switchboard.Board.Clients
import Switchboard.Board.Registries

/-!
# Calls on the board

Building invokers and calling through them, resolving commands to invokers, calling through
references, and announcing commands.

These are the calls of `SPEC_FULL.md`, section 4.6: `invoke` of invokers, `refer` of protocols,
`find` and `close` of `InvokerResolver` (`closeResolver`), `call` and `call_async` of
`ServiceReference`, which take an invoker by `pick`, and `export` and `unexport` of `Exporter`.
-/

namespace Switchboard

namespace Board

/-- Adds an invoker. -/
def addInvoker (b : Board) (invoker : Invoker) : InvokerRef × Board :=
  (b.invokers.size, { b with invokers := b.invokers.push invoker })

/-- Adds an invoker over clients that dial a provider. -/
def addRemoteInvoker (b : Board) (a : Address) (channels : Nat) : InvokerRef × Board :=
  let settings := ClientSettings.ofAddress a
  let client : Client := { address := a.connectAddress, settings, channels }
  let first := b.clients.size
  let b := { b with clients := b.clients ++ Array.replicate settings.connections client }
  let clients := List.range' first settings.connections
  b.addInvoker (.remote { address := a, settings, clients })

/-- Adds a resolver, which holds its registry. -/
def addResolution (b : Board) (resolution : Resolution) : Nat × Board :=
  let b := b.onRegistry resolution.registry fun r => r.updateHolders (· + 1)
  (b.resolutions.size, { b with resolutions := b.resolutions.push resolution })

/-- Adds an exporter, which holds its registry. -/
def addExporter (b : Board) (registry : Nat) (exporter : Exporter) : Nat × Board :=
  let b := b.onRegistry registry fun r => r.updateHolders (· + 1)
  (b.exports.size, { b with exports := b.exports.push { registry, exporter } })

/-- Adds a reference. -/
def addReference (b : Board) (reference : Reference) : Nat × Board :=
  (b.references.size, { b with references := b.references.push reference })

/-- Whether an invoker can take calls. -/
def isAvailable (b : Board) (i : InvokerRef) : Bool :=
  match b.invoker i with
  | .remote r => !r.isDestroyed && r.clients.any fun c => !(b.client c).isClosed
  | .standIn a destroyed => !destroyed && StandIn.isUp (a.host.getD "")

/-- The client whose turn it is. -/
def nextClient (b : Board) (i : InvokerRef) (r : RemoteInvoker) : Option ClientRef × Board :=
  let (pick, next) := RoundRobin.next r.next r.clients.length
  (r.clients[pick]?, { b with invokers := b.invokers.setIfInBounds i (.remote { r with next }) })

/-- The candidate whose turn it is for a reference. -/
def nextCandidate (b : Board) (reference : Nat) (candidates : List InvokerRef) :
    Option InvokerRef × Board :=
  let r := b.reference reference
  let (pick, next) := RoundRobin.next r.next candidates.length
  (candidates[pick]?,
    { b with references := b.references.setIfInBounds reference { r with next } })

end Board

namespace Op

open Routine

/-- Calls a stand-in. -/
def callStandIn (a : Address) (call : Call) : Op PromiseId := do
  let host := a.host.getD ""
  modify fun b => b.onJournal fun j => { j with invoked := j.invoked.push host }
  match StandIn.callEnd host call.payload with
  | .atOnce outcome => newPromise (.completed outcome)
  | .never => newPromise .pending
  | .after delay outcome =>
    let promise ← newPromise Promise.pending.hold
    let _ ← begin (.completeLater promise outcome delay)
    pure promise

/-- Calls through an invoker; the promise of the response is there at once. -/
def invoke (i : InvokerRef) (call : Call) : Op PromiseId := do
  match ← look (·.invoker i) with
  | .standIn a _ => callStandIn a call
  | .remote r =>
    if r.isDestroyed then newPromise (.completed (.error .connectionClosed))
    else
      match ← step fun b => b.nextClient i r with
      | some client => request client call
      | none => newPromise (.completed (.error (.noProvider r.address.text)))

/-- Destroys an invoker; calls made afterwards fail. -/
def destroy (i : InvokerRef) : Op Unit := do
  let invoker ← step fun b =>
    (b.invoker i, { b with invokers := b.invokers.modify i Invoker.destroyed })
  if invoker.isDestroyed then pure ()
  else
    match invoker with
    | .remote r => r.clients.forM closeClient
    | .standIn a _ =>
      modify fun b => b.onJournal fun j => { j with destroyed := j.destroyed.push a }

/-- Builds the invoker of an address by its scheme. -/
def refer (resolution : Resolution) (a : Address) : Op (Outcome InvokerRef) := do
  let scheme := a.protocol.getD ""
  if resolution.loopback = some scheme then
    let i ← step fun b => b.addRemoteInvoker a resolution.channels
    pure (.ok i)
  else if scheme ∈ resolution.standIns then
    modify fun b => b.onJournal fun j => { j with referred := j.referred.push a }
    if StandIn.canRefer (a.host.getD "") then
      let i ← step fun b => b.addInvoker (.standIn a false)
      pure (.ok i)
    else pure (.error StandIn.referFailure)
  else
    pure (.error (.invalidArgument ("no protocol registered for scheme " ++ Text.quoted scheme)))

/-- Changes the invokers of a resolver. -/
def keepResolver (i : Nat) (resolver : Resolver InvokerRef) : Op Unit :=
  modify fun b => { b with
    resolutions := b.resolutions.modify i fun resolution => { resolution with resolver } }

/-- The invokers of every provider of a call's command, in the order in which they were found. -/
def find (i : Nat) (call : Call) : Op (Outcome (List InvokerRef)) := do
  let registry ← look fun b => (b.resolution i).registry
  let command : Command := ⟨call.command⟩
  let outcome ← lookUp registry (command.lookupAddress call.group)
  let resolution ← look (·.resolution i)
  let (answer, resolver) ←
    resolution.resolver.answer (refer resolution) (command.servicePath call.group) outcome
  keepResolver i resolver
  match answer with
  | .error f => pure (.error f)
  | .ok (found, evicted) =>
    evicted.forM destroy
    pure (.ok found)

/-- Destroys every invoker of a resolver. -/
def closeResolver (i : Nat) : Op Unit := do
  let resolution ← look (·.resolution i)
  let (invokers, resolver) := resolution.resolver.clear
  keepResolver i resolver
  invokers.forM destroy

/-- The provider whose turn it is. -/
def pick (reference : Nat) (call : Call) : Op (Outcome InvokerRef) := do
  let resolution ← look fun b => (b.reference reference).resolver
  match ← find resolution call with
  | .error f => pure (.error f)
  | .ok found =>
    let available ← look fun b => found.filter b.isAvailable
    match ← step fun b =>
      if available.isEmpty then (none, b) else b.nextCandidate reference available with
    | some i => pure (.ok i)
    | none => pure (.error (.noProvider call.command))

/-- Calls one provider and waits for its response; says as well whether another might do better. -/
def callOnce (reference : Nat) (call : Call) : Op (Outcome Bytes × Bool) := do
  match ← pick reference call with
  | .error f => pure (.error f, false)
  | .ok i =>
    let promise ← invoke i call
    let span ← look fun b => (b.reference reference).timeoutFor call (b.invoker i)
    match ← processSync promise span with
    | .ok value => pure (.ok value, false)
    | .error f => pure (.error f, f.isRetryable)

/-- Calls providers in turn until one answers, as often as the policy permits; there is no outcome
if the policy cannot decide. -/
def call (reference : Nat) (call : Call) : Op (Option (Outcome Bytes)) := do
  let started ← now
  let policy ← look fun b => (b.reference reference).retry
  policy.attempts (elapsedSince started) (fun span => sleep span.toMillisUp)
    (callOnce reference call)

/-- Calls one provider without waiting. -/
def callAsync (reference : Nat) (call : Call) : Op (Outcome PromiseId) := do
  match ← pick reference call with
  | .error f => pure (.error f)
  | .ok i =>
    let promise ← invoke i call
    pure (.ok promise)

/-- Announces commands. -/
def exportCommands (i : Nat) (group : String) (commands : List Command) :
    Op (Outcome (List Address)) := do
  let e ← look (·.exporter i)
  let (outcome, exporter) ← Exporter.exportAll (register e.registry) group e.exporter commands
  modify fun b => { b with exports := b.exports.setIfInBounds i { e with exporter } }
  pure outcome

/-- Takes back all that was announced. -/
def unexport (i : Nat) : Op (Outcome Unit) := do
  let e ← look (·.exporter i)
  let (outcome, exporter) ← Exporter.unexport (unregister e.registry) e.exporter
  modify fun b => { b with exports := b.exports.setIfInBounds i { e with exporter } }
  pure outcome

end Op

end Switchboard
