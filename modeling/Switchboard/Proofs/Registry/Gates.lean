import Mathlib.Logic.Function.Basic
import Switchboard.Proofs.Registry.CacheChanges
import Switchboard.Registry.Basic

/-!
# Look-ups at their gates

A look-up that misses the cache takes the gate of its key, waits until nobody else is past that
gate, looks into the cache once more, and asks the backend if the key is still missing. A call that
leaves the gate takes it out of the registry, even while others wait at it. A scene is a registry
and its cache among the look-ups of many threads; an act is one atomic step of one thread, and a
run is a list of acts, the steps of all threads in any order.
-/

namespace Switchboard

namespace Registry

/-- Who takes the gate of a key finds it there, or puts it there; the gates of other keys stay. -/
theorem gates_gateOf (r : Registry) (key other : String) :
    (r.gateOf key).2.gates[other]? =
      if key = other then some (r.gateOf key).1 else r.gates[other]? := by
  unfold gateOf
  split
  · next gate h =>
    split
    · next heq => rw [← heq, h]
    · rfl
  · rw [Std.ExtTreeMap.getElem?_insert]
    simp only [Std.LawfulEqCmp.compare_eq_iff_eq]

/-- The gates that are left when one was forgotten stood before, and that one is not among them. -/
theorem gates_of_forgetGate {r : Registry} {key other : String} {gate gate' : Nat}
    (h : (r.forgetGate key gate).gates[other]? = some gate') :
    r.gates[other]? = some gate' ∧ (key, gate) ≠ (other, gate') := by
  unfold forgetGate at h
  split at h
  · rw [Std.ExtTreeMap.getElem?_erase] at h
    split at h
    · cases h
    · next hne => exact ⟨h, by rintro ⟨⟩; exact hne Std.ReflCmp.compare_self⟩
  · next hother => exact ⟨h, by rintro ⟨⟩; exact hother h⟩

end Registry

end Switchboard

namespace Switchboard.Lookups

/-- Names the thread of a look-up. -/
abbrev CallId := Nat

/-- How far a look-up has come. -/
inductive Stage where
  /-- The thread looks nothing up. -/
  | idle
  /-- The cache lacks the key. -/
  | missed (key : String)
  /-- It has taken the gate of the key and waits there. -/
  | waiting (key : String) (gate : Nat)
  /-- It is past the gate. -/
  | admitted (key : String) (gate : Nat)
  /-- It asks the backend. -/
  | asking (key : String) (gate : Nat)
  /-- The backend has told it the addresses. -/
  | told (key : String) (gate : Nat) (found : List Address)
  /-- It knows what to return and has the gate behind it to open. -/
  | answered (key : String) (gate : Nat)
  /-- It has opened the gate to others and has yet to take it out of the registry. -/
  | left (key : String) (gate : Nat)

/-- The gate that a look-up keeps closed to others. -/
def Stage.closed? : Stage → Option Nat
  | admitted _ gate | asking _ gate | told _ gate _ | answered _ gate => some gate
  | _ => none

/-- The gate that a look-up has taken and the key that it is of. -/
def Stage.taken? : Stage → Option (String × Nat)
  | idle | missed _ => none
  | waiting key gate | admitted key gate | asking key gate | told key gate _ | answered key gate
  | left key gate => some (key, gate)

/-- One step of one thread. -/
inductive Act where
  /-- A look-up begins, and ends at once if the cache has the key. -/
  | lookUp (call : CallId) (key : String)
  /-- It takes the gate of the key. -/
  | take (call : CallId)
  /-- It passes the gate. Whoever waits may be next. -/
  | enter (call : CallId)
  /-- It looks into the cache again, and begins to ask the backend if the key is still missing. -/
  | check (call : CallId)
  /-- The backend answers. -/
  | answer (call : CallId) (outcome : Outcome (List Address))
  /-- It puts what it was told into the cache. -/
  | keep (call : CallId)
  /-- It opens the gate to the others. -/
  | leave (call : CallId)
  /-- It takes the gate out of the registry, unless the key has another one by now. -/
  | forget (call : CallId)
  /-- Others change the cache. -/
  | change (change : Cache.Change)

/-- The steps of one look-up in their order. -/
def Act.whole (call : CallId) (key : String) (outcome : Outcome (List Address)) : List Act :=
  [.lookUp call key, .take call, .enter call, .check call, .answer call outcome, .keep call,
    .leave call, .forget call]

/-- A registry and its cache among look-ups. -/
structure Scene where
  /-- The registry. -/
  registry : Registry := {}
  /-- Its cache. -/
  cache : Cache := {}
  /-- Who is past a gate. -/
  holder : Nat → Option CallId := fun _ => none
  /-- How far every thread has come. -/
  stage : CallId → Stage := fun _ => .idle
  /-- What was asked in vain, each key with the gate that the look-up was past, latest first. -/
  failures : List (String × Nat) := []
  /-- The keys that others took out of the cache. -/
  lapsed : List String := []

namespace Scene

/-- A thread comes to another stage. -/
def move (s : Scene) (c : CallId) (stage : Stage) : Scene :=
  { s with stage := Function.update s.stage c stage }

/-- Whether the cache has a key. -/
def isCached (s : Scene) (key : String) : Bool := (s.cache.addresses key).isSome

/-- The scene after one act. A thread that has not come to its act yet leaves all as it is. -/
def after (s : Scene) : Act → Scene
  | .lookUp c key =>
    match s.stage c with
    | .idle => if s.isCached key then s else s.move c (.missed key)
    | _ => s
  | .take c =>
    match s.stage c with
    | .missed key =>
      let (gate, registry) := s.registry.gateOf key
      { s.move c (.waiting key gate) with registry }
    | _ => s
  | .enter c =>
    match s.stage c with
    | .waiting key gate =>
      if s.holder gate = none then
        { s.move c (.admitted key gate) with holder := Function.update s.holder gate (some c) }
      else s
    | _ => s
  | .check c =>
    match s.stage c with
    | .admitted key gate =>
      s.move c (if s.isCached key then .answered key gate else .asking key gate)
    | _ => s
  | .answer c outcome =>
    match s.stage c, outcome with
    | .asking key gate, .ok found => s.move c (.told key gate found)
    | .asking key gate, .error _ =>
      { s.move c (.answered key gate) with failures := (key, gate) :: s.failures }
    | _, _ => s
  | .keep c =>
    match s.stage c with
    | .told key gate found =>
      { s.move c (.answered key gate) with cache := (s.cache.replace key found).2 }
    | _ => s
  | .leave c =>
    match s.stage c with
    | .answered key gate =>
      { s.move c (.left key gate) with holder := Function.update s.holder gate none }
    | _ => s
  | .forget c =>
    match s.stage c with
    | .left key gate => { s.move c .idle with registry := s.registry.forgetGate key gate }
    | _ => s
  | .change change =>
    let cache := (change.apply s.cache).2
    { s with
      cache
      lapsed := (s.cache.keys.filter fun key => (cache.addresses key).isNone) ++ s.lapsed }

/-- The scene after a run of acts. -/
def run (s : Scene) (acts : List Act) : Scene := acts.foldl after s

/-- The scene of a new registry with an empty cache after a run of acts. -/
def ofActs (acts : List Act) : Scene := run {} acts

/-- Whether a look-up of a key asks the backend. -/
def IsAsking (s : Scene) (key : String) (c : CallId) : Prop :=
  ∃ gate, s.stage c = .asking key gate

/-- How often the backend was asked for a key in vain. -/
def failed (s : Scene) (key : String) : Nat := s.failures.countP (·.1 == key)

/-! ### Look-ups that nobody interrupts

Done without a pause, the steps of a look-up bring what the backend says into the cache, and take
the gate of the key out of the registry. -/

section Alone

variable {s : Scene} {c : CallId} {key : String} (hidle : s.stage c = .idle)
  (hcached : s.isCached key = false) (hopen : s.holder (s.registry.gateOf key).1 = none)

include hidle hcached hopen

/-- What the backend tells a look-up replaces what the cache has. -/
theorem run_whole_ok (found : List Address) :
    s.run (Act.whole c key (.ok found)) =
      { s with
        registry := (s.registry.gateOf key).2.forgetGate key (s.registry.gateOf key).1
        cache := (s.cache.replace key found).2 } := by
  have hmiss : ¬ (s.cache.addresses key).isSome = true := by simpa [isCached] using hcached
  simp [run, Act.whole, after, move, isCached, hidle, hmiss, hopen]

/-- A backend that fails leaves the cache as it is. -/
theorem run_whole_error (f : Failure) :
    s.run (Act.whole c key (.error f)) =
      { s with
        registry := (s.registry.gateOf key).2.forgetGate key (s.registry.gateOf key).1
        failures := (key, (s.registry.gateOf key).1) :: s.failures } := by
  have hmiss : ¬ (s.cache.addresses key).isSome = true := by simpa [isCached] using hcached
  simp [run, Act.whole, after, move, isCached, hidle, hmiss, hopen]

end Alone

/-! ### Gates that stand -/

/-- Every gate in the registry is that of a look-up of its key which is under way. -/
def Attended (s : Scene) : Prop :=
  ∀ (key : String) (gate : Nat), s.registry.gates[key]? = some gate →
    ∃ c, (s.stage c).taken? = some (key, gate)

private theorem attended_empty : Attended {} := by
  intro key gate h
  cases (Std.ExtTreeMap.getElem?_empty (a := key)).symm.trans h

variable {s s' : Scene} {c : CallId}

/-- One look-up goes on, and every gate that stands is its own, or stood before and is not given up
by it. -/
theorem Attended.move (h : s.Attended) {stage : Stage}
    (hstage : s'.stage = Function.update s.stage c stage)
    (hgates : ∀ (key : String) (gate : Nat), s'.registry.gates[key]? = some gate →
      stage.taken? = some (key, gate) ∨
        s.registry.gates[key]? = some gate ∧ (s.stage c).taken? ≠ some (key, gate)) :
    s'.Attended := by
  intro key gate hgate
  rcases hgates key gate hgate with hown | ⟨hstood, hother⟩
  · exact ⟨c, by rw [hstage, Function.update_self, hown]⟩
  · obtain ⟨d, hd⟩ := h key gate hstood
    have hne : d ≠ c := by
      rintro rfl
      exact hother hd
    exact ⟨d, by rw [hstage, Function.update_of_ne hne, hd]⟩

/-- A look-up goes on with the gate that it has taken, if it has taken any. -/
theorem Attended.goOn (h : s.Attended) {stage : Stage}
    (hstage : s'.stage = Function.update s.stage c stage)
    (hregistry : s'.registry = s.registry) (htaken : stage.taken? = (s.stage c).taken?) :
    s'.Attended := by
  refine h.move hstage fun key gate hgate => ?_
  rw [hregistry] at hgate
  rw [htaken]
  exact or_iff_not_imp_left.mpr fun hne => ⟨hgate, hne⟩

/-- No act leaves a gate in the registry that nobody will take out. -/
theorem Attended.after (h : s.Attended) (act : Act) : (s.after act).Attended := by
  cases act with
  | lookUp c key =>
    simp only [Scene.after]
    split
    · next hc =>
      split
      · exact h
      · exact h.goOn rfl rfl (by rw [hc]; rfl)
    · exact h
  | take c =>
    simp only [Scene.after]
    split
    · next key hc =>
      refine h.move rfl fun other gate hgate => ?_
      rw [Registry.gates_gateOf] at hgate
      split at hgate
      · next heq =>
        rw [← heq, ← Option.some.inj hgate]
        exact .inl rfl
      · exact .inr ⟨hgate, by rw [hc]; nofun⟩
    · exact h
  | enter c =>
    simp only [Scene.after]
    split
    · next hc =>
      split
      · exact h.goOn rfl rfl (by rw [hc]; rfl)
      · exact h
    · exact h
  | check c =>
    simp only [Scene.after]
    split
    · next hc => exact h.goOn rfl rfl (by rw [hc]; split <;> rfl)
    · exact h
  | answer c outcome =>
    simp only [Scene.after]
    split
    · next hc => exact h.goOn rfl rfl (by rw [hc]; rfl)
    · next hc => exact h.goOn rfl rfl (by rw [hc]; rfl)
    · exact h
  | keep c =>
    simp only [Scene.after]
    split
    · next hc => exact h.goOn rfl rfl (by rw [hc]; rfl)
    · exact h
  | leave c =>
    simp only [Scene.after]
    split
    · next hc => exact h.goOn rfl rfl (by rw [hc]; rfl)
    · exact h
  | forget c =>
    simp only [Scene.after]
    split
    · next key gate hc =>
      refine h.move rfl fun other gate' hgate => .inr ?_
      obtain ⟨hstood, hne⟩ := Registry.gates_of_forgetGate hgate
      exact ⟨hstood, by rw [hc]; exact fun heq => hne (Option.some.inj heq)⟩
    · exact h
  | change change => exact h

private theorem Attended.run (h : s.Attended) (acts : List Act) : (s.run acts).Attended := by
  induction acts generalizing s with
  | nil => exact h
  | cons act rest ih => exact ih (h.after act)

/-- A key that nobody is looking up has no gate. -/
theorem gate_eq_none (acts : List Act) {key : String}
    (hnobody : ∀ c gate, ((ofActs acts).stage c).taken? ≠ some (key, gate)) :
    (ofActs acts).registry.gates[key]? = none := by
  refine Option.eq_none_iff_forall_ne_some.mpr fun gate hgate => ?_
  obtain ⟨c, hc⟩ := attended_empty.run acts key gate hgate
  exact hnobody c gate hc

end Scene

end Switchboard.Lookups
