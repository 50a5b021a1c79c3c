import Switchboard.Proofs.Address.Equality
import Switchboard.Proofs.Registry.Sessions
import Switchboard.Registry.Membership

/-!
# Tenures

A member that is alone on its coordinator may register several addresses at one path. The claimant
of the path is the address that was registered last, unless it was taken back since; the holder is
the address that was put last, unless the node went since. A tenure remembers what its member did,
which tells both.
-/

namespace Switchboard

/-- Whether an address is registered at a path or above it, so that the node of the path goes when
the address is taken back. -/
def Address.isAtOrAbove (a : Address) (path : String) : Bool :=
  a.nodePath.toOption.any fun above => Tree.isWithin above path

/-- What a member did about the nodes of its addresses. -/
inductive Deed where
  /-- It registered an address. -/
  | registered (a : Address)
  /-- It took an address back. -/
  | unregistered (a : Address)
  /-- It opened another session, to which no node belongs yet. -/
  | renewed
  /-- It brought an address back in another session. -/
  | republished (a : Address)
  /-- It could not bring an address back. -/
  | missed (a : Address)

namespace Deed

/-- The address that was registered last at a path, if it was not taken back since. The latest deed
comes first. -/
def claimant? (path : String) : List Deed → Option Address
  | [] => none
  | .registered a :: earlier => if a.isAt path then some a else claimant? path earlier
  | .unregistered a :: earlier => (claimant? path earlier).filter fun b => !(b == a)
  | _ :: earlier => claimant? path earlier

/-- The address that was put last at a path, if its node did not go since. -/
def holder? (path : String) : List Deed → Option Address
  | [] => none
  | .registered a :: earlier | .republished a :: earlier =>
    if a.isAt path then some a else holder? path earlier
  | .unregistered a :: earlier => if a.isAtOrAbove path then none else holder? path earlier
  | .renewed :: _ => none
  | .missed _ :: earlier => holder? path earlier

/-- Whether a deed gives a path another claimant. -/
def claims (path : String) : Deed → Bool
  | .registered a => a.isAt path
  | _ => false

/-- What was done since a path got its claimant. -/
def sinceClaim (path : String) (deeds : List Deed) : List Deed :=
  deeds.takeWhile fun deed => !deed.claims path

/-- Whether a deed may keep the text of an address from a path. -/
def disturbs (path : String) (a : Address) : Deed → Bool
  | .unregistered b => b.isAtOrAbove path
  | .republished b => b.isAt path && b.text != a.text
  | .missed b => b.isAt path
  | .registered _ | .renewed => false

/-- Whether nothing that was done since a path got its claimant may keep a text from it. -/
def Undisturbed (path : String) (a : Address) (deeds : List Deed) : Prop :=
  ∀ deed, deed ∈ sinceClaim path deeds → deed.disturbs path a = false

variable {path : String} {a : Address} {deeds : List Deed}

/-- A claimant is registered at its path. -/
theorem isAt_of_claimant? (h : claimant? path deeds = some a) : a.isAt path = true := by
  induction deeds with
  | nil => cases h
  | cons deed earlier ih =>
    cases deed with
    | registered b =>
      simp only [claimant?] at h
      split at h
      · next hat =>
        cases h
        exact hat
      · exact ih h
    | unregistered b => exact ih (Option.filter_eq_some_iff.mp h).1
    | renewed => exact ih h
    | republished b => exact ih h
    | missed b => exact ih h

/-- A deed that gives a path no other claimant adds to what was done since. -/
theorem undisturbed_cons {deed : Deed} (h : deed.claims path = false) :
    Undisturbed path a (deed :: deeds) ↔
      deed.disturbs path a = false ∧ Undisturbed path a deeds := by
  simp [Undisturbed, sinceClaim, h]

end Deed

/-- What a member does next about the log and its session. -/
inductive Stage where
  /-- It reads on. -/
  | following
  /-- It read that its session ended, and opens another one. -/
  | expired
  /-- It opened another session, and gathers what it has registered. -/
  | renewed
  /-- It brings back what it has gathered, one by one. -/
  | republishing (left : List Address)

/-- A member that is alone on its coordinator, and what it did. -/
structure Tenure where
  /-- The member. -/
  member : Membership
  /-- The coordinator. -/
  coordinator : Coordinator
  /-- The cache of the member. -/
  cache : Cache
  /-- What the member does next. -/
  stage : Stage := .following
  /-- What the member did, latest first. -/
  deeds : List Deed := []

namespace Tenure

/-- A member that has just joined. -/
def join (c : Coordinator) (cache : Cache) : Tenure :=
  let (member, coordinator) := Membership.join c
  { member, coordinator, cache }

/-- The member registers an address. -/
def register (t : Tenure) (a : Address) : Tenure :=
  match t.member.register t.coordinator t.cache a with
  | (.ok (), member, coordinator, cache) =>
    { t with member, coordinator, cache, deeds := .registered a :: t.deeds }
  | (.error _, member, coordinator, cache) => { t with member, coordinator, cache }

/-- The member takes an address back. -/
def unregister (t : Tenure) (a : Address) : Tenure :=
  match t.member.unregister t.coordinator t.cache a with
  | (.ok (), member, coordinator, cache) =>
    { t with member, coordinator, cache, deeds := .unregistered a :: t.deeds }
  | (.error _, member, coordinator, cache) => { t with member, coordinator, cache }

/-- The member reads what comes next in the log. -/
def follow (t : Tenure) : Tenure :=
  match t.coordinator.read t.member.position with
  | .nothing => t
  | .lagged position =>
    { t with
      cache := (Membership.resyncAll t.coordinator t.cache t.member.watched.toList).1
      member := { t.member with position } }
  | .event event position =>
    { t with
      cache := (t.member.follow t.coordinator t.cache event).1
      member := { t.member with position }
      stage := if t.member.isExpiry event then .expired else .following }

/-- The member opens another session. -/
def renew (t : Tenure) : Tenure :=
  let (member, coordinator) := t.member.renew t.coordinator
  { t with member, coordinator, stage := .renewed, deeds := .renewed :: t.deeds }

/-- The member brings an address back, and has others left. -/
def republish (t : Tenure) (a : Address) (left : List Address) : Tenure :=
  match t.member.publish t.coordinator a with
  | (.ok (), coordinator) =>
    { t with
      coordinator
      stage := .republishing left
      deeds := .republished a :: t.deeds }
  | (.error _, coordinator) =>
    { t with
      coordinator
      stage := .republishing left
      deeds := .missed a :: t.deeds }

/-- The member has brought back what it could, and reads every watched key anew. -/
def resume (t : Tenure) : Tenure :=
  { t with
    cache := (Membership.resyncAll t.coordinator t.cache t.member.watched.toList).1
    stage := .following }

/-- One step of a tenure. The member may register addresses and take them back, and sessions may
change their states, between any two steps of a renewal, and what is to be brought back comes in
any order. -/
inductive Step : Tenure → Tenure → Prop where
  /-- The member registers an address. -/
  | register (t : Tenure) (a : Address) : Step t (t.register a)
  /-- The member takes an address back. -/
  | unregister (t : Tenure) (a : Address) : Step t (t.unregister a)
  /-- The member watches other keys, or its cache changes. -/
  | look (t : Tenure) (watched : Std.ExtTreeSet String) (cache : Cache) :
      Step t { t with member := { t.member with watched }, cache }
  /-- A session loses its connection. -/
  | disconnect (t : Tenure) (id : SessionId) :
      Step t { t with coordinator := t.coordinator.disconnect id }
  /-- A session has its connection again. -/
  | reconnect (t : Tenure) (id : SessionId) :
      Step t { t with coordinator := t.coordinator.reconnect id }
  /-- A session ends. -/
  | expire (t : Tenure) (id : SessionId) :
      Step t { t with coordinator := t.coordinator.expire id }
  /-- The member reads on. -/
  | follow (t : Tenure) (hstage : t.stage = .following) : Step t t.follow
  /-- The member opens another session. -/
  | renew (t : Tenure) (hstage : t.stage = .expired) : Step t t.renew
  /-- The member gathers what it has registered, in any order. -/
  | gather (t : Tenure) (hstage : t.stage = .renewed) (order : List Address)
      (hperm : order.Perm t.member.registered) : Step t { t with stage := .republishing order }
  /-- The member brings the next address back. -/
  | republish (t : Tenure) (a : Address) (left : List Address)
      (hstage : t.stage = .republishing (a :: left)) : Step t (t.republish a left)
  /-- The member has brought everything back that it could. -/
  | resume (t : Tenure) (hstage : t.stage = .republishing []) : Step t t.resume

/-- What a tenure can come to. -/
inductive Reachable : Tenure → Prop where
  /-- The member joins a coordinator that others used before. -/
  | start (moves : List Coordinator.Move) (cache : Cache) :
      Reachable (join (moves.foldl Coordinator.after {}) cache)
  /-- One step more. -/
  | step {t t' : Tenure} (h : Reachable t) (hs : Step t t') : Reachable t'

/-- Whether the session of the member is connected. -/
def isConnected (t : Tenure) : Bool :=
  t.coordinator.sessionState? t.member.session == some .connected

/-- Whether the node at a path shows the text of an address and belongs to the session. -/
def Holds (t : Tenure) (path : String) (a : Address) : Prop :=
  t.coordinator.tree[path]? = some { data := some a.text, owner := some t.member.session }

/-- The address that was registered last at a path, if it was not taken back since. -/
def claimant? (t : Tenure) (path : String) : Option Address := Deed.claimant? path t.deeds

/-- The address that was put last at a path, if its node did not go since. -/
def holder? (t : Tenure) (path : String) : Option Address := Deed.holder? path t.deeds

end Tenure

end Switchboard
