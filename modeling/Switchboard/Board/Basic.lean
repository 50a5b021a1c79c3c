import Switchboard.Exporter
import Switchboard.Invoker
import Switchboard.Registry.Basic
import Switchboard.Resolver
import Switchboard.StandIn.FarEnd
import Switchboard.Work.Machine

/-!
# The board

The board is everything that one process of the system holds: promises, connections, clients,
commands, caches, registries, resolvers and references, and the notes of the stand-ins. Work on it
is done by routines; `Duty` lists all the work that goes on in the background.

The duties are the background work of `SPEC_FULL.md`, section 5, which `Scheduler` starts (`spawn`)
and calls off (`shutDown` is its `shutdown`). Promises are awaited here: `awaitPromise` and
`awaitPromiseWithin` are `get` and `get_timeout` of section 4.2, and `processSync` is `process_sync`
of section 4.6.
-/

namespace Switchboard

/-- What a stand-in for a listener does when it is told something. -/
inductive ListenerRule where
  /-- It takes a note. -/
  | record
  /-- It hears nothing. -/
  | deaf
  /-- It takes a note, and when it hears of a new session it cuts that session off. -/
  | sever
deriving DecidableEq, Repr

/-- A stand-in for a listener. -/
structure Listener where
  /-- What it does. -/
  rule : ListenerRule := .record
  /-- The registry that it was last given to. -/
  registry : Nat := 0

/-- A note of something heard. -/
structure Hearing where
  /-- Who heard it. -/
  listener : ListenerId
  /-- What it was. -/
  notice : Notice
  /-- When. -/
  time : Nat

/-- The notes of the stand-ins. -/
structure Journal where
  /-- Tasks that were noted, with the time. -/
  ran : Array (String × Nat) := #[]
  /-- Waiters that finished, with the time and the outcome. -/
  woken : Array (String × Nat × Outcome Response) := #[]
  /-- What listeners heard. -/
  heard : Array Hearing := #[]
  /-- The keys that stand-ins for backends were asked for. -/
  asked : Array String := #[]
  /-- The addresses for which a stand-in for an invoker was asked. -/
  referred : Array Address := #[]
  /-- The hosts of the stand-ins that were called. -/
  invoked : Array String := #[]
  /-- The addresses of the stand-ins that were destroyed. -/
  destroyed : Array Address := #[]

/-- A resolver with what it needs to look up and to build invokers. -/
structure Resolution where
  /-- The registry. -/
  registry : Nat := 0
  /-- The schemes whose invokers are stand-ins. -/
  standIns : List String := []
  /-- The scheme whose invokers keep clients. -/
  loopback : Option String := none
  /-- The channels of those clients. -/
  channels : Nat := 0
  /-- The invokers. -/
  resolver : Resolver InvokerRef := {}

/-- A resolution without invokers. -/
instance : Inhabited Resolution := ⟨{}⟩

/-- An exporter with the registry it announces in. -/
structure Export where
  /-- The registry. -/
  registry : Nat := 0
  /-- What was announced. -/
  exporter : Exporter := { provider := {} }

/-- An export that announced nothing. -/
instance : Inhabited Export := ⟨{}⟩

/-- Everything that one process holds. -/
structure Board where
  /-- The promises of responses. -/
  promises : Promises := {}
  /-- The acknowledgements of writes. -/
  acks : Array Ack := #[]
  /-- The connections. -/
  connections : Array Connection := #[]
  /-- The loopback links. -/
  links : Array Link := #[]
  /-- How connects behave. -/
  mode : ConnectMode := .accept
  /-- How long every connect takes first. -/
  connectDelay : Nat := 0
  /-- The server's ends of links that were accepted. -/
  accepted : List ConnectionRef := []
  /-- Who sits at the server's ends. -/
  server : Handler := .farEnd
  /-- The tables of channels. -/
  channelTables : Array ChannelTable := #[]
  /-- The clients. -/
  clients : Array Client := #[]
  /-- The commands that are served. -/
  commands : CommandTable := {}
  /-- The stand-in at the server's ends. -/
  farEnd : FarEnd := {}
  /-- The stand-in at the clients' ends. -/
  observer : Recorder := {}
  /-- Whether the scheduler was shut down. -/
  isShutDown : Bool := false
  /-- The tasks that end with the scheduler. -/
  tracked : List TaskId := []
  /-- The disk. -/
  disk : Disk := ∅
  /-- The caches. -/
  caches : Array Cache := #[]
  /-- The coordinator. -/
  coordinator : Coordinator := {}
  /-- The registries. -/
  registries : Array Registry := #[]
  /-- The stand-ins for listeners. -/
  listeners : Std.ExtTreeMap ListenerId Listener := ∅
  /-- The invokers. -/
  invokers : Array Invoker := #[]
  /-- The resolvers. -/
  resolutions : Array Resolution := #[]
  /-- The references. -/
  references : Array Reference := #[]
  /-- The exporters. -/
  exports : Array Export := #[]
  /-- The outcomes of tasks that others wait for. -/
  reports : Array (Option (Outcome Unit)) := #[]
  /-- The outcomes of look-ups that others wait for. -/
  findings : Array (Option (Outcome (List Address))) := #[]
  /-- The notes of the stand-ins. -/
  journal : Journal := {}

/-- Work that goes on in the background. -/
inductive Duty where
  /-- Hands over the frames written at an end of a link. -/
  | deliver (link : Nat) (side : Side)
  /-- Serves a request that came in on a connection. -/
  | serve (connection : ConnectionRef) (handler : Option CommandHandler) (request : Envelope)
  /-- Connects a client and writes a request. -/
  | sendRequest (client : ClientRef) (id : UInt64) (frame : Bytes)
  /-- Connects a client, for somebody who waits for the report. -/
  | connect (client : ClientRef) (report : Nat)
  /-- Writes a cache after its delay. -/
  | flush (cache : Nat)
  /-- Writes a cache, perhaps for somebody who waits for the report. -/
  | writeCache (cache : Nat) (report : Option Nat)
  /-- Follows the log of the coordinator for a registry. -/
  | followLog (registry : Nat)
  /-- Reads the looked up keys of a registry again, next at a certain time. -/
  | refresh (registry : Nat) (next : Option Nat)
  /-- Looks an address up, for somebody who waits for the finding. -/
  | lookUp (registry : Nat) (query : Address) (finding : Nat)
  /-- Writes frames after a while. -/
  | writeLater (connection : ConnectionRef) (frames : List Bytes) (after : Nat)
  /-- Settles an acknowledgement after a while. -/
  | settleLater (ack : AckRef) (after : Nat)
  /-- Completes a promise after a while. -/
  | completeLater (promise : PromiseId) (outcome : Outcome Response) (after : Nat)
  /-- Changes how connects behave, after a while. -/
  | switchMode (mode : ConnectMode) (after : Nat)
  /-- Notes a name after a while. -/
  | note (name : String) (after : Nat)
  /-- Notes a name in every period, next at a certain time, and works for a while each time. -/
  | noteEvery (name : String) (period : Nat) (works : List Nat) (runs : Nat) (next : Option Nat)
  /-- Waits for a promise, perhaps no longer than a span, and notes the outcome. -/
  | watch (name : String) (promise : PromiseId) (within : Option Duration)

/-- What only one piece of work may do at a time. -/
inductive Gate where
  /-- Connecting a client. -/
  | connecting (client : ClientRef)
  /-- Looking a missing key of a registry up. -/
  | lookUp (registry gate : Nat)
deriving DecidableEq, Repr

/-- Work on the board. -/
abbrev Op (α : Type) := Routine Board Duty Gate α

namespace Board

/-- A board with nothing on it. -/
instance : Inhabited Board := ⟨{}⟩

/-- A connection. -/
def connection (b : Board) (c : ConnectionRef) : Connection := b.connections.getD c {}

/-- A link. -/
def link (b : Board) (i : Nat) : Link := b.links.getD i default

/-- An acknowledgement. -/
def ack (b : Board) (a : AckRef) : Ack := b.acks.getD a .lost

/-- A client. -/
def client (b : Board) (c : ClientRef) : Client := b.clients.getD c {}

/-- A table of channels. -/
def channelTable (b : Board) (i : Nat) : ChannelTable := b.channelTables.getD i {}

/-- A cache. -/
def cache (b : Board) (i : Nat) : Cache := b.caches.getD i {}

/-- A registry. -/
def registry (b : Board) (i : Nat) : Registry := b.registries.getD i {}

/-- An invoker. -/
def invoker (b : Board) (i : InvokerRef) : Invoker := b.invokers.getD i default

/-- A resolver. -/
def resolution (b : Board) (i : Nat) : Resolution := b.resolutions.getD i {}

/-- A reference. -/
def reference (b : Board) (i : Nat) : Reference := b.references.getD i {}

/-- An exporter. -/
def exporter (b : Board) (i : Nat) : Export := b.exports.getD i {}

/-- Changes a client. -/
def onClient (b : Board) (c : ClientRef) (f : Client → Client) : Board :=
  { b with clients := b.clients.modify c f }

/-- Changes the exchange of a client together with the promises. -/
def changeExchange {α : Type} (b : Board) (c : ClientRef)
    (f : Exchange → Promises → α × Exchange × Promises) : α × Board :=
  let (a, exchange, promises) := f (b.client c).exchange b.promises
  (a, { b.onClient c (fun client => { client with exchange }) with promises })

/-- Changes a registry. -/
def onRegistry (b : Board) (i : Nat) (f : Registry → Registry) : Board :=
  { b with registries := b.registries.modify i f }

/-- Changes an acknowledgement. -/
def onAck (b : Board) (a : AckRef) (f : Ack → Ack) : Board := { b with acks := b.acks.modify a f }

/-- Changes the notes. -/
def onJournal (b : Board) (f : Journal → Journal) : Board := { b with journal := f b.journal }

/-- A new acknowledgement. -/
def addAck (b : Board) (ack : Ack) : AckRef × Board :=
  (b.acks.size, { b with acks := b.acks.push ack })

end Board

namespace Journal

/-- The tasks that were noted, by name and time. -/
def ranByName (j : Journal) : List (String × Nat) :=
  j.ran.toList.mergeSort fun a b => a.1 < b.1 || (a.1 == b.1 && a.2 ≤ b.2)

/-- The waiters that finished, by name. -/
def wokenByName (j : Journal) : List (String × Nat × Outcome Response) :=
  j.woken.toList.mergeSort fun a b => a.1 ≤ b.1

/-- What listeners heard, by listener and key. -/
def heardByListener (j : Journal) : List Hearing :=
  j.heard.toList.mergeSort fun a b =>
    a.listener < b.listener || (a.listener == b.listener && a.notice.source ≤ b.notice.source)

end Journal

namespace Op

open Routine

/-- Begins a duty that ends with the scheduler; nothing once that was shut down. -/
def spawn (duty : Duty) : Op (Option TaskId) := do
  if ← look (·.isShutDown) then pure none
  else
    let task ← begin duty
    modify fun b => { b with tracked := task :: b.tracked }
    pure (some task)

/-- Calls off every task of the scheduler, which refuses new ones from now on. -/
def shutDown : Op Unit := do
  let tasks ← step fun b => (b.tracked, { b with isShutDown := true, tracked := [] })
  tasks.forM fun task => Routine.cancel task (pure ())

/-- Waits for the next time of a period; the one after it is counted from then if it was missed by
more than five milliseconds. -/
def tick (next period : Nat) : Op Nat := do
  sleepUntil next
  let time ← now
  pure (if time > next + 5 then time + period else next + period)

/-- A place for an outcome that somebody waits for. -/
def newReport : Op Nat :=
  step fun b => (b.reports.size, { b with reports := b.reports.push none })

/-- Puts an outcome in its place. -/
def report (i : Nat) (outcome : Outcome Unit) : Op Unit :=
  modify fun b => { b with reports := b.reports.setIfInBounds i (some outcome) }

/-- Waits for an outcome. -/
def awaitReport (i : Nat) : Op (Outcome Unit) := do
  await fun b => (b.reports.getD i none).isSome
  look fun b => (b.reports.getD i none).getD (.ok ())

/-- Completes a promise, and says whether it was pending. -/
def complete (p : PromiseId) (outcome : Outcome Response) : Op Bool :=
  step fun b =>
    let (first, promises) := b.promises.complete p outcome
    (first, { b with promises })

/-- Puts a promise on the board. -/
def newPromise (p : Promise Response) : Op PromiseId :=
  step fun b =>
    let (id, promises) := b.promises.add p
    (id, { b with promises })

/-- Another handle on a promise. -/
def holdPromise (p : PromiseId) : Op Unit :=
  modify fun b => { b with promises := b.promises.hold p }

/-- One handle less on a promise. -/
def releasePromise (p : PromiseId) : Op Unit :=
  modify fun b => { b with promises := b.promises.release p }

/-- Completes a promise after a while, from the background, which holds it meanwhile. -/
def completeAfter (p : PromiseId) (outcome : Outcome Response) (span : Nat) : Op Unit := do
  holdPromise p
  let _ ← begin (.completeLater p outcome span)

/-- Has the background wait for a promise, which it holds meanwhile, and note the outcome. -/
def watchPromise (name : String) (p : PromiseId) (within : Option Duration) : Op Unit := do
  holdPromise p
  let _ ← begin (.watch name p within)

/-- The outcome of a promise, once there is one. -/
def awaitPromise (p : PromiseId) : Op (Outcome Response) := do
  await fun b => (b.promises.get p).isDone
  look fun b => ((b.promises.get p).outcome).getD (.error .connectionClosed)

/-- The outcome of a promise, if there is one within a span; the promise stays as it is. -/
def awaitPromiseWithin (p : PromiseId) (span : Duration) : Op (Outcome Response) := do
  awaitWithin span.toMillisUp fun b => (b.promises.get p).isDone
  look fun b => ((b.promises.get p).outcome).getD (.error (.timeout span))

/-- Waits for the response of a call, for at most `span` unless that is zero. A failure, also that
the wait ran out, completes the promise for everybody else. -/
def processSync (p : PromiseId) (span : Duration) : Op (Outcome Bytes) := do
  let outcome ← if 0 < span.toNanos then awaitPromiseWithin p span else awaitPromise p
  match responseOutcome outcome with
  | .ok value => pure (.ok value)
  | .error f =>
    let _ ← complete p (.error f)
    pure (.error f)

end Op

end Switchboard
