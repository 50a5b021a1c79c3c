import Switchboard.Board.Basic

/-!
# Registries on the board

Saving caches, telling listeners, looking keys up, and following the log of the coordinator.

`lookUp`, `discoverOnce`, `refresh` and `fire` are `lookup`, `discover_once`, `refresh` and the
`fire_` operations of `RegistrySupport` in `SPEC_FULL.md`, section 4.4; `register`, `unregister` and
`followLog` are `register`, `unregister` and `pump_events` of `MemoryRegistry`; `saveLater` and
`writeNow` are `schedule_flush` and `write` of the local cache.
-/

namespace Switchboard

namespace Board

/-- Changes a cache. -/
def changeCache {α : Type} (b : Board) (i : Nat) (f : Cache → α × Cache) : α × Board :=
  let (a, cache) := f (b.cache i)
  (a, { b with caches := b.caches.setIfInBounds i cache })

/-- Writes a cache. -/
def writeCache (b : Board) (i : Nat) (stamp : String) : Outcome Unit × Board :=
  let (outcome, cache, disk) := (b.cache i).write stamp b.disk
  (outcome, { b with caches := b.caches.setIfInBounds i cache, disk })

/-- Opens a cache on a file. -/
def openCache (b : Board) (folder file : String) (flushDelay : Duration) (syncSave : Bool) :
    Nat × Board :=
  (b.caches.size,
    { b with caches := b.caches.push (Cache.load b.disk folder file flushDelay syncSave) })

/-- Adds a registry with its cache. -/
def addRegistry (b : Board) (a : Address) (settings : RegistrySettings) (backend : Backend) :
    Nat × Board :=
  let (cache, b) := b.openCache (settings.cacheDir.getD "") (cacheFileName a) settings.flushDelay
    settings.syncSave
  let registry : Registry :=
    { address := a, refreshInterval := settings.refreshInterval, cache, backend }
  (b.registries.size, { b with registries := b.registries.push registry })

/-- Adds a registry that is a member of the coordinator. -/
def joinRegistry (b : Board) (a : Address) (settings : RegistrySettings) : Nat × Board :=
  let (member, coordinator) := Membership.join b.coordinator
  { b with coordinator }.addRegistry a settings (.member member 1)

/-- Changes the membership of a registry together with the coordinator and the cache. -/
def changeMembership {α : Type} (b : Board) (r : Nat)
    (f : Membership → Coordinator → Cache → α × Membership × Coordinator × Cache) : α × Board :=
  let registry := b.registry r
  let (a, m, coordinator, cache) :=
    f registry.membership b.coordinator (b.cache registry.cache)
  (a, { b.onRegistry r (fun registry => registry.updateMembership fun _ => m) with
    coordinator
    caches := b.caches.setIfInBounds registry.cache cache })

/-- Whether the log has something that a registry has not read. -/
def hasNews (b : Board) (r : Nat) : Bool :=
  b.coordinator.read (b.registry r).membership.position != .nothing

/-- A stand-in for a listener hears a notice. -/
def hear (b : Board) (time : Nat) (notice : Notice) (l : ListenerId) : Board :=
  let listener := b.listeners.getD l {}
  if listener.rule = .deaf then b
  else
    let b := b.onJournal fun j => { j with heard := j.heard.push ⟨l, notice, time⟩ }
    match listener.rule, notice with
    | .sever, .newSession =>
      let session := (b.registry listener.registry).membership.session
      { b with coordinator := b.coordinator.disconnect session }
    | _, _ => b

end Board

namespace Op

open Routine

/-- The time as it is written into files. -/
def stamp : Op String := do
  let time ← now
  pure (toString time)

/-- Writes a cache at once. -/
def writeNow (i : Nat) : Op (Outcome Unit) := do
  let stamp ← stamp
  step fun b => b.writeCache i stamp

/-- Writes a cache in a task of its own, and waits for the outcome. -/
def flush (i : Nat) : Op (Outcome Unit) := do
  let report ← newReport
  let _ ← begin (.writeCache i (some report))
  awaitReport report

/-- Waits until all changes of a cache are written, if it writes every change at once. -/
def saved (i : Nat) : Op (Outcome Unit) := do
  if ← look fun b => (b.cache i).syncSave then flush i else pure (.ok ())

/-- Sees to it that the changes of a cache are written: at once, or after its delay together with
those that come meanwhile. -/
def saveLater (i : Nat) : Op Unit := do
  if ← look fun b => (b.cache i).syncSave then
    let _ ← begin (.writeCache i none)
    pure ()
  else
    let wasPending ← step fun b =>
      b.changeCache i fun c => (c.flushPending, { c with flushPending := true })
    if wasPending then pure ()
    else
      match ← spawn (.flush i) with
      | some _ => pure ()
      | none => modify fun b => (b.changeCache i fun c => ((), { c with flushPending := false })).2

/-- Does something that may change a cache, and sees to it that changes are written. -/
def savingChanges {α : Type} (i : Nat) (f : Board → α × Board) : Op α := do
  let before ← look fun b => (b.cache i).version
  let a ← step f
  if (← look fun b => (b.cache i).version) = before then pure a
  else
    saveLater i
    pure a

/-- Changes a cache. -/
def changeCache {α : Type} (i : Nat) (f : Cache → α × Cache) : Op α :=
  savingChanges i fun b => b.changeCache i f

/-- Tells the listeners of a registry. -/
def notify (r : Nat) (notice : Notice) : Op Unit := do
  let time ← now
  let audience ← look fun b => (b.registry r).audience notice
  audience.forM fun l => modify fun b => b.hear time notice l

/-- Changes a registry's membership, sees to it that the cache is written, and tells listeners. -/
def absorb (r : Nat)
    (f : Membership → Coordinator → Cache → List Notice × Membership × Coordinator × Cache) :
    Op Unit := do
  let cache ← look fun b => (b.registry r).cache
  let notices ← savingChanges cache fun b => b.changeMembership r f
  notices.forM (notify r)

/-- Changes the cache of a registry because of what its backend tells, then tells listeners. -/
def fire (r : Nat) (f : Cache → Cache) (notice : Notice) : Op Unit := do
  let cache ← look fun b => (b.registry r).cache
  changeCache cache fun c => ((), f c)
  notify r notice

/-- Asks the backend of a registry for the addresses below a key. -/
def discover (r : Nat) (key : String) : Op (Outcome (List Address)) := do
  match ← look fun b => (b.registry r).backend with
  | .member m _ => look fun b => m.discover b.coordinator key
  | .standIn answers =>
    modify fun b => b.onJournal fun j => { j with asked := j.asked.push key }
    match answers[key]? with
    | none => pure (.error (.registry ("nothing at " ++ key)))
    | some (delay, outcome) =>
      sleep delay
      pure outcome

/-- Asks the backend for a key that the cache lacks, unless somebody else brought it there
meanwhile. -/
def discoverInTurn (r : Nat) (key : String) : Op (Outcome (List Address)) := do
  let cache ← look fun b => (b.registry r).cache
  match ← look fun b => (b.cache cache).addresses key with
  | some cached => pure (.ok cached)
  | none =>
    match ← discover r key with
    | .error f => pure (.error f)
    | .ok found =>
      let _ ← changeCache cache fun c => c.replace key found
      pure (.ok found)

/-- Asks the backend for a key that the cache lacks; one at a time per key. -/
def discoverOnce (r : Nat) (key : String) : Op (Outcome (List Address)) := do
  let gate ← step fun b =>
    let (gate, registry) := (b.registry r).gateOf key
    (gate, b.onRegistry r fun _ => registry)
  let found ← through (.lookUp r gate) (discoverInTurn r key)
  modify fun b => b.onRegistry r fun registry => registry.forgetGate key gate
  pure found

/-- Has the looked up keys of a registry read again from time to time. -/
def ensureRefresher (r : Nat) : Op Unit := do
  if (← look fun b => (b.registry r).refresher).isSome then pure ()
  else
    let task ← spawn (.refresh r none)
    modify fun b => b.onRegistry r fun registry =>
      { registry with refresher := task, isRefreshing := task.isSome }

/-- Looks an address up: in the cache, or else at the backend. -/
def lookUp (r : Nat) (query : Address) : Op (Outcome (List Address)) := do
  let key := query.serviceKey
  let cached ← look fun b => (b.cache (b.registry r).cache).addresses key
  let found ← match cached with
    | some cached => pure (.ok cached)
    | none => discoverOnce r key
  match found with
  | .error f => pure (.error f)
  | .ok found =>
    modify fun b => b.onRegistry r fun registry =>
      { registry with lookedUp := registry.lookedUp.insert key }
    ensureRefresher r
    pure (.ok (Address.ofNode query found))

/-- Looks several addresses up at once. -/
def lookUpAll (r : Nat) (queries : List Address) : Op (List (Outcome (List Address))) := do
  let places ← queries.mapM fun query => do
    let place ← step fun b => (b.findings.size, { b with findings := b.findings.push none })
    let _ ← begin (.lookUp r query place)
    pure place
  places.mapM fun place => do
    await fun b => (b.findings.getD place none).isSome
    look fun b => (b.findings.getD place none).getD (.ok [])

/-- Reads keys of a registry again; one that fails keeps what was known. -/
def refreshKeys (r : Nat) : List String → Op Unit
  | [] => pure ()
  | key :: rest => do
    match ← discover r key with
    | .error _ => pure ()
    | .ok found =>
      let cache ← look fun b => (b.registry r).cache
      let _ ← changeCache cache fun c => c.replace key found
    refreshKeys r rest

/-- Reads every looked up key of a registry again. -/
def refresh (r : Nat) : Op Unit := do
  let keys ← look fun b => (b.registry r).lookedUp.toList
  refreshKeys r keys

/-- Waits for the next time to read keys again, and reads them; the time after that, unless the
period is no period. -/
def refreshInTurn (r : Nat) (next : Option Nat) : Op (Option Nat) := do
  let period ← look fun b => (b.registry r).refreshInterval.toMillisUp
  if period = 0 then
    modify fun b => b.onRegistry r fun registry => { registry with isRefreshing := false }
    pure none
  else
    let next ← tick (next.getD ((← now) + period)) period
    refresh r
    pure (some next)

/-- Stops reading keys again, and writes the cache. -/
def closeSupport (r : Nat) : Op Unit := do
  let task ← step fun b => ((b.registry r).refresher,
    b.onRegistry r fun registry => { registry with refresher := none, isRefreshing := false })
  match task with
  | some task => Routine.cancel task (pure ())
  | none => pure ()
  let cache ← look fun b => (b.registry r).cache
  let _ ← flush cache
  pure ()

/-- Registers an address. -/
def register (r : Nat) (a : Address) : Op (Outcome Unit) := do
  let cache ← look fun b => (b.registry r).cache
  match ← savingChanges cache fun b =>
    b.changeMembership r fun m c cache => m.register c cache a with
  | .error f => pure (.error f)
  | .ok () =>
    let _ ← saved cache
    pure (.ok ())

/-- Takes an address back. -/
def unregister (r : Nat) (a : Address) : Op (Outcome Unit) := do
  let cache ← look fun b => (b.registry r).cache
  match ← savingChanges cache fun b =>
    b.changeMembership r fun m c cache => m.unregister c cache a with
  | .error f => pure (.error f)
  | .ok () =>
    let _ ← saved cache
    pure (.ok ())

/-- Closes a registry: everything is taken back, nothing watched, and the cache written. -/
def closeRegistry (r : Nat) : Op Unit := do
  modify fun b => (b.changeMembership r fun m c cache =>
    let (m, c) := m.withdrawAll c
    ((), m, c, cache)).2
  closeSupport r

/-- Opens a registry that is a member of the coordinator, and follows the log for it. -/
def openRegistry (a : Address) (settings : RegistrySettings) : Op Nat := do
  let r ← step fun b => b.joinRegistry a settings
  let _ ← spawn (.followLog r)
  pure r

/-- Handles the next event of the log, once there is one; says whether there may be more. -/
def followLog (r : Nat) : Op Bool := do
  await fun b => b.hasNews r
  if !(← look fun b => (b.registry r).isHeld) then pure false
  else
    let reading ← look fun b => b.coordinator.read (b.registry r).membership.position
    match reading with
    | .nothing => pure true
    | .lagged position => do
      absorb r fun m c cache =>
        let (cache, notices) := Membership.resyncAll c cache m.watched.toList
        (notices, { m with position }, c, cache)
      pure true
    | .event event position => do
      let expired ← look fun b => (b.registry r).membership.isExpiry event
      absorb r fun m c cache =>
        let (cache, notices) := m.follow c cache event
        (notices, { m with position }, c, cache)
      if expired then
        absorb r fun m c cache =>
          let (m, c) := m.renew c
          ([.newSession], m, c, cache)
        absorb r fun m c cache =>
          let (c, cache, notices) := m.restore c cache
          (notices, m, c, cache)
      pure true

end Op

end Switchboard
