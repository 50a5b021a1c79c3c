import Switchboard.Proofs.Board.Lasting
import Switchboard.Proofs.Calls.Rotation
import Switchboard.Proofs.Promises
import Switchboard.Proofs.Resolver.Invokers

/-!
# Providers that are known

Where the addresses of a call's providers are cached and each of them has its invoker, a look-up
finds the same providers time after time, without asking anybody and without building or destroying
anything. Where nobody else is at work either, and the providers are stand-ins that end their calls
at once, calls through a reference meet steady providers.
-/

namespace Switchboard

namespace Resolver

variable {ι : Type} {m : Type → Type} [Monad m] [LawfulMonad m] {r : Resolver ι}

/-- Addresses that all have their invokers are served with them, and nothing is built. -/
theorem obtainAll_of_served (refer : Address → m (Outcome ι)) {addresses : List Address}
    {served : List ι} (h : addresses.map r.invoker? = served.map some) :
    obtainAll refer r addresses = pure (addresses.zip served, r) := by
  induction addresses generalizing served with
  | nil => simp [obtainAll]
  | cons a rest ih =>
    cases served with
    | nil => cases h
    | cons i more =>
      obtain ⟨hi, hrest⟩ := List.cons.inj h
      simp only [obtainAll, obtain?, hi, pure_bind, ih hrest, List.zip_cons_cons]

/-- Nothing is let go where every address is held. -/
theorem evict_of_held (h : ∀ entry ∈ r.invokers, r.isHeld entry.1 = true) : r.evict = ([], r) := by
  have hdoomed : (r.invokers.filter fun entry => !r.isHeld entry.1) = [] :=
    List.filter_eq_nil_iff.mpr fun entry hm => by simp [h entry hm]
  have hkept : (r.invokers.filter fun entry => r.isHeld entry.1) = r.invokers :=
    List.filter_eq_self.mpr h
  rw [evict, hdoomed, hkept]
  rfl

/-- A look-up that finds all addresses served answers with their invokers, and only takes a note of
the addresses. -/
theorem answer_of_served (refer : Address → m (Outcome ι)) (key : String)
    {addresses : List Address} {served : List ι} (h : addresses.map r.invoker? = served.map some)
    (hheld : ∀ entry ∈ r.invokers, ∃ a ∈ addresses, (a == entry.1) = true) :
    r.answer refer key (.ok addresses) =
      pure (.ok (served, []), { r with byKey := r.byKey.insert key addresses }) := by
  have hlength : addresses.length = served.length := by
    simpa using congrArg List.length h
  have hfst : (addresses.zip served).map Prod.fst = addresses :=
    List.map_fst_zip (Nat.le_of_eq hlength)
  have hsnd : (addresses.zip served).map Prod.snd = served :=
    List.map_snd_zip (Nat.le_of_eq hlength.symm)
  have hevict : evict { r with byKey := r.byKey.insert key addresses } =
      ([], { r with byKey := r.byKey.insert key addresses }) := by
    refine evict_of_held fun entry hm => isHeld_iff.mpr ⟨key, addresses, ?_, hheld entry hm⟩
    exact Std.ExtTreeMap.getElem?_insert_self
  simp only [answer, resolve, obtainAll_of_served refer h, pure_bind, hfst, hsnd, hevict]

end Resolver

namespace Op

open Routine (look step sleep)
open Machine (Ends IsQuiet)

variable {turns : Nat} {limit : Option Nat} {s : Site}

/-- A board after a cached key was looked up. -/
def noteKey (b : Board) (r : Nat) (key : String) : Board :=
  b.onRegistry r fun registry => { registry with lookedUp := registry.lookedUp.insert key }

/-- Taking a note of a key leaves the cache and the refresher of a registry alone. -/
theorem registry_noteKey (b : Board) (r : Nat) (key : String) :
    ((noteKey b r key).registry r).cache = (b.registry r).cache ∧
      ((noteKey b r key).registry r).refresher = (b.registry r).refresher := by
  rw [noteKey, Board.registry_onRegistry_self]
  split <;> exact ⟨rfl, rfl⟩

/-- A key that is cached is looked up at once, and if keys are read again from time to time, only a
note of it is taken. -/
theorem lookUp_ends {r : Nat} {query : Address} {found : List Address}
    (hcached : (s.state.cache (s.state.registry r).cache).addresses query.serviceKey = some found)
    (hrefresher : (s.state.registry r).refresher.isSome = true) :
    Ends Duty.body turns limit (lookUp r query) s (.ok (query.ofNode found))
      { s with state := noteKey s.state r query.serviceKey } := by
  have hrefreshing : Ends Duty.body turns limit (ensureRefresher r)
      { s with state := noteKey s.state r query.serviceKey } ()
      { s with state := noteKey s.state r query.serviceKey } := by
    refine .look_bind ?_
    rw [(registry_noteKey ..).2, if_pos hrefresher]
    exact .pure _ _
  refine .look_bind ?_
  rw [hcached]
  exact .modify_bind (hrefreshing.bind (.pure _ _))

/-- The address with which the providers of a call are looked up. -/
def query (call : Call) : Address := (Command.mk call.command).lookupAddress call.group

/-- What is known of a call's providers: their addresses are cached, every address has its invoker,
and there are no invokers of others. -/
structure AreKnown (b : Board) (resolver : Nat) (call : Call) (addresses : List Address)
    (providers : List InvokerRef) : Prop where
  cached : (b.cache (b.registry (b.resolution resolver).registry).cache).addresses
    (query call).serviceKey = some addresses
  refresher : (b.registry (b.resolution resolver).registry).refresher.isSome = true
  served : addresses.map (b.resolution resolver).resolver.invoker? = providers.map some
  held : ∀ entry ∈ (b.resolution resolver).resolver.invokers, ∃ a ∈ addresses,
    (a == entry.1) = true

/-- A board after known providers were found. -/
def noteFound (b : Board) (resolver : Nat) (call : Call) (addresses : List Address) : Board :=
  let known := (b.resolution resolver).resolver
  let key := (Command.mk call.command).servicePath call.group
  let b := noteKey b (b.resolution resolver).registry (query call).serviceKey
  { b with
    resolutions := b.resolutions.modify resolver fun resolution =>
      { resolution with resolver := { known with byKey := known.byKey.insert key addresses } } }

/-- Known providers are found. -/
theorem find_ends {resolver : Nat} {call : Call} {addresses : List Address}
    {providers : List InvokerRef} (h : AreKnown s.state resolver call addresses providers) :
    Ends Duty.body turns limit (find resolver call) s (.ok providers)
      { s with state := noteFound s.state resolver call addresses } := by
  refine .look_bind ((lookUp_ends h.cached h.refresher).bind (.look_bind ?_))
  have hanswer := Resolver.answer_of_served (refer (s.state.resolution resolver))
    ((Command.mk call.command).servicePath call.group) h.served h.held
  change Ends _ _ _ (Resolver.answer (refer (s.state.resolution resolver))
    (s.state.resolution resolver).resolver _ (.ok addresses) >>= _) _ _ _
  rw [hanswer, pure_bind]
  refine .modify_bind ?_
  exact .pure _ _

private theorem AreKnown.noteFound {b : Board} {resolver : Nat} {call : Call}
    {addresses : List Address}
    {providers : List InvokerRef} (h : AreKnown b resolver call addresses providers) :
    AreKnown (noteFound b resolver call addresses) resolver call addresses providers := by
  have hresolution : ((Op.noteFound b resolver call addresses).resolution resolver).registry =
      (b.resolution resolver).registry ∧
        ((Op.noteFound b resolver call addresses).resolution resolver).resolver.invokers =
          (b.resolution resolver).resolver.invokers := by
    simp only [Op.noteFound, noteKey, Board.onRegistry, Board.resolution,
      Array.getD_eq_getD_getElem?, Array.getElem?_modify, if_true]
    cases b.resolutions[resolver]? <;> exact ⟨rfl, rfl⟩
  have hregistry := registry_noteKey b (b.resolution resolver).registry (query call).serviceKey
  constructor
  · rw [hresolution.1]
    exact hregistry.1 ▸ h.cached
  · rw [hresolution.1]
    exact hregistry.2 ▸ h.refresher
  · have hinvoker :
        ((Op.noteFound b resolver call addresses).resolution resolver).resolver.invoker? =
          (b.resolution resolver).resolver.invoker? := by
      funext a
      rw [Resolver.invoker?, hresolution.2, Resolver.invoker?]
    rw [hinvoker]
    exact h.served
  · rw [hresolution.2]
    exact h.held

/-! ### Stand-ins that end their calls at once -/

/-- A call whose promise is complete ends with its outcome, and at most promises change. -/
theorem processSync_ends {p : PromiseId} {o : Outcome Response}
    (h : (s.state.promises.get p).outcome = some o) (span : Duration) :
    ∃ promises, Ends Duty.body turns limit (processSync p span) s (responseOutcome o)
      { s with state := { s.state with promises } } := by
  have hdone : (s.state.promises.get p).isDone = true := by rw [Promise.isDone, h]; rfl
  have hlook : ∀ d : Outcome Response, Ends Duty.body turns limit
      (look fun b : Board => (b.promises.get p).outcome.getD d) s o s := by
    intro d
    have hends : Ends Duty.body turns limit
        (look fun b : Board => (b.promises.get p).outcome.getD d) s
        ((s.state.promises.get p).outcome.getD d) s := .look _ s
    rwa [h] at hends
  have hwait : ∀ {k : Outcome Response → Op (Outcome Bytes)} {a : Outcome Bytes} {s' : Site},
      Ends Duty.body turns limit (k o) s a s' → Ends Duty.body turns limit
        (if 0 < span.toNanos then awaitPromiseWithin p span >>= k else awaitPromise p >>= k)
        s a s' := by
    intro k a s' hk
    split
    · exact ((Ends.awaitWithin hdone _).bind (hlook _)).bind hk
    · exact ((Ends.await hdone).bind (hlook _)).bind hk
  cases hresponse : responseOutcome o with
  | ok value =>
    refine ⟨s.state.promises, hwait ?_⟩
    simp only [hresponse]
    exact .pure _ s
  | error f =>
    refine ⟨(s.state.promises.complete p (.error f)).2, hwait ?_⟩
    simp only [hresponse]
    exact .step_bind (.pure _ _)

/-- A board after the stand-in at a host was called; what became of promises is another matter. -/
def noteCall (b : Board) (host : String) (promises : Promises) : Board :=
  { b.onJournal (fun j => { j with invoked := j.invoked.push host }) with promises }

/-- A stand-in that ends the call at once has its host noted, and at most promises change
besides. -/
theorem ask_ends (reference : Nat) {call : Call} {i : InvokerRef} {a : Address} {destroyed : Bool}
    {o : Outcome Response} (hi : s.state.invoker i = .standIn a destroyed)
    (hend : StandIn.callEnd (a.host.getD "") call.payload = .atOnce o) :
    ∃ promises, Ends Duty.body turns limit (ask reference call i) s (responseOutcome o)
      { s with state := noteCall s.state (a.host.getD "") promises } := by
  let called : Site := { s with
    state := noteCall s.state (a.host.getD "") (s.state.promises.add (.completed o)).2 }
  have hinvoke : Ends Duty.body turns limit (invoke i call) s s.state.promises.size called := by
    refine .look_bind ?_
    rw [hi]
    refine .modify_bind ?_
    rw [hend]
    exact .runs rfl
  have hcompleted : (called.state.promises.get s.state.promises.size).outcome = some o := by
    change ((s.state.promises.add (.completed o)).2.get _).outcome = _
    rw [Promises.get_add, if_pos rfl]
    rfl
  obtain ⟨promises, hsync⟩ := processSync_ends hcompleted
    ((called.state.reference reference).timeoutFor call (called.state.invoker i))
  exact ⟨promises, hinvoke.bind (.look_bind hsync)⟩

/-- Stand-ins that are called through a reference. -/
structure Lineup where
  /-- The reference. -/
  reference : Nat
  /-- What it holds besides its counter of turns. -/
  held : Reference
  /-- The call. -/
  call : Call
  /-- The addresses of the stand-ins. -/
  addresses : List Address
  /-- The stand-ins. -/
  providers : List InvokerRef
  /-- Their hosts. -/
  host : InvokerRef → String
  /-- How they end the call. -/
  response : InvokerRef → Outcome Response
  /-- The hosts that were noted before. -/
  noted : List String := []

namespace Lineup

/-- The stand-ins are known and available and end the call at once, on a site where nobody else is
at work; the counter of turns stands at a number, and certain of them were asked so far. -/
structure Stands (l : Lineup) (c : UInt64) (asked : List InvokerRef) (s : Site) : Prop where
  quiet : s.IsQuiet
  lt_size : l.reference < s.state.references.size
  reference_eq : s.state.reference l.reference = { l.held with next := c }
  known : AreKnown s.state l.held.resolver l.call l.addresses l.providers
  standIn : ∀ i ∈ l.providers, ∃ a, s.state.invoker i = .standIn a false ∧
    a.host.getD "" = l.host i ∧ StandIn.isUp (l.host i) = true ∧
      StandIn.callEnd (l.host i) l.call.payload = .atOnce (l.response i)
  invoked : s.state.journal.invoked.toList = l.noted ++ asked.map l.host

namespace Stands

variable {l : Lineup} {c : UInt64} {asked : List InvokerRef}

private theorem isAvailable (h : l.Stands c asked s) {i : InvokerRef} (hi : i ∈ l.providers) :
    s.state.isAvailable i = true := by
  obtain ⟨a, hstandIn, hhost, hup, -⟩ := h.standIn i hi
  rw [Board.isAvailable, hstandIn]
  simp only [hhost, hup, Bool.not_false, Bool.and_self]

/-- Finding the stand-ins leaves the lineup as it is. -/
theorem noteFound (h : l.Stands c asked s) : l.Stands c asked
    { s with state := Op.noteFound s.state l.held.resolver l.call l.addresses } where
  quiet := h.quiet
  lt_size := h.lt_size
  reference_eq := h.reference_eq
  known := h.known.noteFound
  standIn := h.standIn
  invoked := h.invoked

private theorem turnTo (h : l.Stands c asked s) (c' : UInt64) :
    l.Stands c' asked { s with state := s.state.turnTo l.reference c' } where
  quiet := h.quiet
  lt_size := by
    rw [Board.turnTo, Array.size_setIfInBounds]
    exact h.lt_size
  reference_eq := by
    have hself : (s.state.turnTo l.reference c').reference l.reference =
        { s.state.reference l.reference with next := c' } := by
      simp [Board.reference, Board.turnTo, Array.getD_eq_getD_getElem?, h.lt_size]
    exact hself.trans (by rw [h.reference_eq])
  known := ⟨h.known.cached, h.known.refresher, h.known.served, h.known.held⟩
  standIn := h.standIn
  invoked := h.invoked

/-- A stand-in that is called is noted, and the lineup stays as it is. -/
theorem noteCall (h : l.Stands c asked s) (i : InvokerRef) (promises : Promises) :
    l.Stands c (asked ++ [i]) { s with state := Op.noteCall s.state (l.host i) promises } where
  quiet := h.quiet
  lt_size := h.lt_size
  reference_eq := h.reference_eq
  known := ⟨h.known.cached, h.known.refresher, h.known.served, h.known.held⟩
  standIn := h.standIn
  invoked := by
    change (s.state.journal.invoked.push (l.host i)).toList = _
    rw [Array.toList_push, h.invoked, List.map_append, List.append_assoc, List.map_singleton]

private theorem sleep (h : l.Stands c asked s) (span : Nat) :
    l.Stands c asked { s with now := s.now + span } where
  quiet := h.quiet
  lt_size := h.lt_size
  reference_eq := h.reference_eq
  known := h.known
  standIn := h.standIn
  invoked := h.invoked

end Stands

/-- Stand-ins that end their calls at once are steady providers. -/
def steady (l : Lineup) (turns : Nat) :
    Steady turns none l.reference l.call l.held.retry l.providers fun i =>
      responseOutcome (l.response i) where
  Stands := l.Stands
  retry_eq h := by rw [h.reference_eq]
  next_eq h := by rw [h.reference_eq]
  find_ends h := by
    rw [h.reference_eq]
    exact ⟨_, Op.find_ends h.known, h.noteFound⟩
  isAvailable h i hi := h.isAvailable hi
  turnTo c' h := h.turnTo c'
  ask_ends h i hi := by
    obtain ⟨a, hstandIn, hhost, -, hend⟩ := h.standIn i hi
    rw [← hhost] at hend
    obtain ⟨promises, hends⟩ := Op.ask_ends l.reference hstandIn hend
    rw [hhost] at hends
    exact ⟨_, hends, h.noteCall i promises⟩
  sleep_ends h := ⟨_, h.quiet.sleep_ends _, h.sleep _⟩

/-! ### A call that finds the one provider that answers -/

/-- The address of the stand-in at a host. -/
def standInAt (host : String) : Address :=
  { protocol := some "test", host := some host, port := 1 }

/-- A call without arguments. -/
def ping : Call := { group := "g", command := "a::B.ping()" }

/-- The hosts of three providers, of which only the second answers. -/
def hosts : List String := ["broken", "healthy", "io"]

/-- How they end a call. -/
def endings : List (Outcome Response) :=
  [.error .connectionClosed, .ok (.ofValue (Text.Utf8.encode "healthy".toList)),
    .error (.io (.described "pipe"))]

/-- What is cached of them. -/
def cache : Cache :=
  let texts := Std.ExtTreeSet.ofList (hosts.map fun host => (standInAt host).text)
  { entries := (∅ : CacheEntries).insert (query ping).serviceKey texts }

/-- The three providers behind a reference on which it is the third one's turn. -/
def three : Lineup where
  reference := 0
  held := { retry := .times 2 (.ofMillis 10), next := 2 }
  call := ping
  addresses := (cache.addresses (query ping).serviceKey).getD []
  providers := [0, 1, 2]
  host i := hosts.getD i ""
  response i := endings.getD i (.ok {})

/-- A site where they are known. -/
def site : Site where
  state := {
    references := #[three.held]
    resolutions := #[{ resolver := { invokers := (hosts.map standInAt).zip three.providers } }]
    registries := #[{ refresher := some 1 }]
    caches := #[cache]
    invokers := (hosts.map fun host => Invoker.standIn (standInAt host) false).toArray }

private theorem three_stands : three.Stands 2 [] site where
  quiet := ⟨rfl, rfl⟩
  lt_size := by decide
  reference_eq := rfl
  known := by
    constructor
    · have hsome : (cache.addresses (query ping).serviceKey).isSome = true := by decide +kernel
      obtain ⟨addresses, haddresses⟩ := Option.isSome_iff_exists.mp hsome
      rw [three, haddresses]
      exact haddresses
    · rfl
    · decide +kernel
    · decide +kernel
  standIn := by
    intro i hi
    simp only [three, List.mem_cons, List.not_mem_nil, or_false] at hi
    rcases hi with rfl | rfl | rfl
    · exact ⟨standInAt "broken", rfl, rfl, by decide, rfl⟩
    · exact ⟨standInAt "healthy", rfl, rfl, by decide, rfl⟩
    · exact ⟨standInAt "io", rfl, rfl, by decide, rfl⟩
  invoked := rfl

end Lineup

open Lineup (ping three site)

/-- The call asks the third provider, the first, and then the second, which answers. -/
theorem call_ends_of_three : ∃ s' : Site, (∃ n, ∀ rounds, n ≤ rounds →
    Machine.perform Duty.body Site.turns none rounds (Op.call 0 ping) site =
      (some (some (.ok (Text.Utf8.encode "healthy".toList))), s'.wake)) ∧
      s'.state.journal.invoked.toList = ["io", "broken", "healthy"] ∧
      (s'.state.reference 0).next = 5 := by
  have hfits : (2 : UInt64).toNat + (2 : UInt32).toNat + 1 < UInt64.size := by decide
  obtain ⟨j, hj, s', hperform, hstands, hnext, -, hlast, -⟩ :=
    call_ends (three.steady Site.turns) (by decide) hfits Lineup.three_stands
  have hbetter : ∀ j < 2, MightDoBetter
      (responseOutcome (three.response (turn three.providers 2 j))) := by
    intro j hj
    obtain rfl | rfl : j = 0 ∨ j = 1 := by omega
    · exact ⟨_, rfl, rfl⟩
    · exact ⟨_, rfl, rfl⟩
  obtain rfl : j = 2 := by
    rcases hlast with rfl | hlast
    · rfl
    · have htwo : ¬ j < 2 := fun hlt => hlast (hbetter j hlt)
      have hle : j ≤ 2 := hj
      omega
  exact ⟨s', hperform, hstands.invoked, hnext⟩

end Op

end Switchboard
