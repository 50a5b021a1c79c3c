import Switchboard.Registry.Membership
import Switchboard.Registry.Subscriptions

/-!
# Registries

A registry is a cache, its listeners, the keys that were looked up and are read again from time to
time, and a backend that knows better. Listeners of a key make a member of a coordinator watch the
key for as long as there are any.

The registry is the `RegistrySupport` of `SPEC_FULL.md`, section 4.4, with the backend that it is
composed with. Gates let one look-up at a time through for a key, as `discover_once` does.
-/

namespace Switchboard

/-- What a registry asks about keys. -/
inductive Backend where
  /-- A coordinator, through a member of it; how many hold the member from outside. -/
  | member (membership : Membership) (holders : Nat)
  /-- A stand-in that answers each key in its own way, after a while. -/
  | standIn (answers : Std.ExtTreeMap String (Nat × Outcome (List Address)))

/-- A registry. -/
structure Registry where
  /-- Its address. -/
  address : Address := {}
  /-- The period at which looked up keys are read again. -/
  refreshInterval : Duration := .ofMillis 30000
  /-- Its cache. -/
  cache : Nat := 0
  /-- The listeners of keys. -/
  subscriptions : Subscriptions := ∅
  /-- The listeners of the session. -/
  stateListeners : List ListenerId := []
  /-- The keys that were looked up. -/
  lookedUp : Std.ExtTreeSet String := ∅
  /-- The gates at which look-ups of a missing key wait for each other. -/
  gates : Std.ExtTreeMap String Nat := ∅
  /-- How many gates were made. -/
  gatesMade : Nat := 0
  /-- The task that reads looked up keys again. -/
  refresher : Option Nat := none
  /-- Whether that task is still under way. -/
  isRefreshing : Bool := false
  /-- The backend. -/
  backend : Backend := .standIn ∅

namespace Registry

/-- A registry of nothing. -/
instance : Inhabited Registry := ⟨{}⟩

/-- The membership behind a registry. -/
def membership? (r : Registry) : Option Membership :=
  match r.backend with
  | .member m _ => some m
  | .standIn _ => none

/-- The membership behind a registry, or one that belongs to no session. -/
def membership (r : Registry) : Membership := r.membership?.getD { session := 0 }

/-- Changes the membership behind a registry. -/
def updateMembership (r : Registry) (f : Membership → Membership) : Registry :=
  match r.backend with
  | .member m holders => { r with backend := .member (f m) holders }
  | .standIn _ => r

/-- Counts those who hold the member. -/
def updateHolders (r : Registry) (f : Nat → Nat) : Registry :=
  match r.backend with
  | .member m holders => { r with backend := .member m (f holders) }
  | .standIn _ => r

/-- Whether anybody still holds the member: from outside, or to read keys again. -/
def isHeld (r : Registry) : Bool :=
  match r.backend with
  | .member _ holders => 0 < holders || r.isRefreshing
  | .standIn _ => true

/-- Adds a listener to a key, and says whether it is the key's first; then the key is watched. -/
def subscribe (r : Registry) (key : String) (l : ListenerId) : Bool × Registry :=
  let (first, subscriptions) := r.subscriptions.subscribe key l
  let r := { r with subscriptions }
  (first, if first then r.updateMembership fun m => { m with watched := m.watched.insert key }
    else r)

/-- Removes a listener from a key, and says whether it was the key's last; then the key is watched
no more. -/
def unsubscribe (r : Registry) (key : String) (l : ListenerId) : Bool × Registry :=
  let (last, subscriptions) := r.subscriptions.unsubscribe key l
  let r := { r with subscriptions }
  (last, if last then r.updateMembership fun m => { m with watched := m.watched.erase key }
    else r)

/-- Adds a listener to the session. -/
def listen (r : Registry) (l : ListenerId) : Registry :=
  { r with stateListeners := addListener r.stateListeners l }

/-- Removes a listener from the session. -/
def unlisten (r : Registry) (l : ListenerId) : Registry :=
  { r with stateListeners := r.stateListeners.filter (· ≠ l) }

/-- Sets what a stand-in for a backend answers about a key, and how long it takes. -/
def answer (r : Registry) (key : String) (delay : Nat) (outcome : Outcome (List Address)) :
    Registry :=
  match r.backend with
  | .member .. => r
  | .standIn answers => { r with backend := .standIn (answers.insert key (delay, outcome)) }

/-- Whom a notice is for. -/
def audience (r : Registry) : Notice → List ListenerId
  | .data source _ | .children source _ => r.subscriptions.of source
  | _ => r.stateListeners

/-- The gate of a key: the one that is there, or a new one. -/
def gateOf (r : Registry) (key : String) : Nat × Registry :=
  match r.gates[key]? with
  | some gate => (gate, r)
  | none =>
    (r.gatesMade,
      { r with gates := r.gates.insert key r.gatesMade, gatesMade := r.gatesMade + 1 })

/-- Forgets the gate of a key, unless it is another one by now. -/
def forgetGate (r : Registry) (key : String) (gate : Nat) : Registry :=
  if r.gates[key]? = some gate then { r with gates := r.gates.erase key } else r

end Registry

end Switchboard
