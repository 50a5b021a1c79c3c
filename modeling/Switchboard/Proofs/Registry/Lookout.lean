import Switchboard.Proofs.Registry.CacheTexts
import Switchboard.Proofs.Registry.Children
import Switchboard.Proofs.Registry.Membership

/-!
# Lookouts

A member that registers nothing watches the key of a service while others use its coordinator. A
lookout remembers what the member saw when it read the key last, the nodes whose data was replaced
since, and whether data put at a watched path went into the cache under the key.
-/

namespace Switchboard

/-! ### What others do -/

namespace Membership

variable (m : Membership)

/-- The move that registering an address is for the coordinator, if it is one. -/
def registration (a : Address) : List Coordinator.Move :=
  match a.nodePath with
  | .ok path => [.put m.session path (some a.text) true]
  | .error _ => []

/-- The move that taking an address back is for the coordinator, if it is one. -/
def withdrawal (a : Address) : List Coordinator.Move :=
  match a.nodePath with
  | .ok path => [.delete m.session path]
  | .error _ => []

/-- A registration does to the coordinator what its moves do. -/
theorem coordinator_register (c : Coordinator) (cache : Cache) (a : Address) :
    (m.register c cache a).2.2.1 = (m.registration a).foldl Coordinator.after c := by
  unfold register registration publish
  cases hpath : a.nodePath with
  | error f => rfl
  | ok path =>
    simp only [List.foldl_cons, List.foldl_nil, Coordinator.after]
    cases hput : c.put m.session path (some a.text) true with
    | mk outcome c' => cases outcome <;> rfl

/-- A withdrawal does to the coordinator what its moves do. -/
theorem coordinator_unregister (c : Coordinator) (cache : Cache) (a : Address) :
    (m.unregister c cache a).2.2.1 = (m.withdrawal a).foldl Coordinator.after c := by
  unfold unregister withdrawal withdraw
  cases hpath : a.nodePath with
  | error f => rfl
  | ok path =>
    simp only [List.foldl_cons, List.foldl_nil, Coordinator.after]
    cases hdelete : c.delete m.session path with
    | mk outcome c' => cases outcome <;> rfl

end Membership

/-! ### A lookout -/

/-- What is remembered about a watched key. -/
structure Notes where
  /-- The coordinator when the key was read last. -/
  seen : Coordinator
  /-- The paths of the nodes whose data was replaced since. -/
  replaced : List String := []
  /-- Whether data put at a watched path was filed under the key since, or taken from it. -/
  strayed : Bool := false

/-- What is remembered about a key once listeners are told something. -/
def Notes.hear (key : String) (c : Coordinator) (n : Notes) : Notice → Notes
  | .children source _ => if source = key then { seen := c } else n
  | .data source address =>
    if Cache.concerns key source address then { n with strayed := true } else n
  | _ => n

/-- A member that watches a key, and what is remembered about the key. -/
structure Lookout where
  /-- The member. -/
  member : Membership
  /-- The coordinator. -/
  coordinator : Coordinator
  /-- The cache of the member. -/
  cache : Cache
  /-- What is remembered about the key. -/
  notes : Notes

namespace Lookout

/-- A member that joins a coordinator and watches some keys at once. -/
def join (c : Coordinator) (cache : Cache) (watched : Std.ExtTreeSet String) : Lookout :=
  let (member, coordinator) := Membership.join c
  { member := { member with watched }, coordinator, cache, notes := { seen := coordinator } }

/-- Somebody uses the coordinator. -/
def after (l : Lookout) (move : Coordinator.Move) : Lookout :=
  { l with
    coordinator := l.coordinator.after move
    notes := { l.notes with
      replaced := l.coordinator.replacedBy move ++ l.notes.replaced } }

/-- Another member registers an address. -/
def register (l : Lookout) (other : Membership) (cache : Cache) (a : Address) : Lookout :=
  { (other.registration a).foldl after l with
    coordinator := (other.register l.coordinator cache a).2.2.1 }

/-- Another member takes an address back. -/
def unregister (l : Lookout) (other : Membership) (cache : Cache) (a : Address) : Lookout :=
  { (other.withdrawal a).foldl after l with
    coordinator := (other.unregister l.coordinator cache a).2.2.1 }

/-- The member takes over a cache, and listeners are told what was read. -/
def hear (key : String) (l : Lookout) (outcome : Cache × List Notice) : Lookout :=
  { l with
    cache := outcome.1
    notes := outcome.2.foldl (Notes.hear key l.coordinator) l.notes }

/-- The member reads what comes next in the log, as long as nothing is lost to it. -/
def follow (key : String) (l : Lookout) : Lookout :=
  match l.coordinator.read l.member.position with
  | .event event position =>
    { l.hear key (l.member.follow l.coordinator l.cache event) with
      member := { l.member with position } }
  | .nothing | .lagged _ => l

/-- The member opens another session. -/
def renew (l : Lookout) : Lookout :=
  let (member, coordinator) := l.member.renew l.coordinator
  { l with member, coordinator }

/-- One step of a lookout for a key. -/
inductive Step (key : String) : Lookout → Lookout → Prop where
  /-- Somebody uses the coordinator. -/
  | move (l : Lookout) (move : Coordinator.Move) : Step key l (l.after move)
  /-- Another member registers an address. -/
  | register (l : Lookout) (other : Membership) (cache : Cache) (a : Address) :
      Step key l (l.register other cache a)
  /-- Another member takes an address back. -/
  | unregister (l : Lookout) (other : Membership) (cache : Cache) (a : Address) :
      Step key l (l.unregister other cache a)
  /-- The member watches other keys besides. -/
  | watch (l : Lookout) (watched : Std.ExtTreeSet String) (hkey : key ∈ watched) :
      Step key l { l with member := { l.member with watched } }
  /-- The member reads on. -/
  | follow (l : Lookout) : Step key l (l.follow key)
  /-- The member opens another session. -/
  | renew (l : Lookout) : Step key l l.renew
  /-- The member reads every watched key anew, in any order. -/
  | restore (l : Lookout) (order : List String) (hperm : order.Perm l.member.watched.toList) :
      Step key l (l.hear key (Membership.resyncAll l.coordinator l.cache order))

/-- Whether a cache holds under a key just the texts of the addresses right below the key. -/
def Reflects (cache : Cache) (c : Coordinator) (key : String) : Prop :=
  ∀ text, text ∈ cache.textsAt key ↔ ∃ a, a ∈ Membership.readChildren c key ∧ a.text = text

/-- What a lookout for a key can come to. -/
inductive Reachable (key : String) : Lookout → Prop where
  /-- The member joins and watches the key before anything right below the key changes. -/
  | start (c : Coordinator) (cache : Cache) (watched : Std.ExtTreeSet String)
      (hkey : key ∈ watched) (hreflects : Reflects cache c key) :
      Reachable key (join c cache watched)
  /-- One step more. -/
  | step {l l' : Lookout} (h : Reachable key l) (hs : Step key l l') : Reachable key l'

/-- Whether the member has handled everything that was told. -/
def IsQuiet (l : Lookout) : Prop := l.coordinator.read l.member.position = .nothing

/-- The addresses in the cache under a key; a key that is not there has none. -/
def cached (l : Lookout) (key : String) : List Address := (l.cache.addresses key).getD []

/-- The addresses right below a key. -/
def readable (l : Lookout) (key : String) : List Address :=
  Membership.readChildren l.coordinator key

/-- Whether two lists hold equal addresses. -/
def SameAddresses (l l' : List Address) : Prop :=
  (∀ a, a ∈ l → ∃ b, b ∈ l' ∧ (a == b) = true) ∧ ∀ b, b ∈ l' → ∃ a, a ∈ l ∧ (a == b) = true

/-- Whether the same nodes stand right below a key in two coordinators, with the same data where it
was not replaced. -/
def SameChildren (key : String) (replaced : List String) (c c' : Coordinator) : Prop :=
  ∀ name : String,
    ((∃ data, (name, data) ∈ c.tree.children key) ↔ ∃ data, (name, data) ∈ c'.tree.children key) ∧
      (Tree.childLead key ++ name ∉ replaced →
        ∀ data, (name, data) ∈ c.tree.children key ↔ (name, data) ∈ c'.tree.children key)

end Lookout

end Switchboard
