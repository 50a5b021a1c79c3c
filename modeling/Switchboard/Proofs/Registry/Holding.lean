import Switchboard.Proofs.Registry.Membership
import Switchboard.Proofs.Registry.Tenure

/-!
# Who holds a path

The node of a path shows the address that holds it, and belongs to the session that put it. The
claimant of the path need not be the holder: they part when another address at the path, or above
it, is taken back, and when a new session brings the addresses back in another order than they
came, or not all of them.
-/

namespace Switchboard

/-! ### What a session shows at a path -/

namespace Coordinator

/-- A session shows an address at a path while it lasts, or owns no node there. -/
def Shows (c : Coordinator) (session : SessionId) (path : String) : Option Address → Prop
  | some a => c.sessions[session]? ≠ some .expired →
      c.tree[path]? = some { data := some a.text, owner := some session }
  | none => ¬ c.Owns session path

variable {c : Coordinator} {session : SessionId} {path : String} {holder : Option Address}

/-- A put at another path leaves what a session shows. -/
theorem Shows.put_of_ne (h : c.Shows session path holder) {other : String} (hne : path ≠ other)
    (data : Option String) : (c.put session other data true).2.Shows session path holder := by
  cases holder with
  | none => exact fun ho => h ((owns_put_of_ne hne session data true session).mp ho)
  | some a =>
    intro halive
    rw [sessions_put] at halive
    have hnode := h halive
    rcases c.put_cases session other data true with ⟨-, hput⟩ | ⟨-, f, hput⟩
    · rw [hput]
      change (c.tree.put other data _).1[path]? = _
      rcases c.tree.getElem?_put_of_ne hne data (if true then some session else none) with
        hsame | ⟨hnone, -⟩
      · exact hsame.trans hnode
      · rw [hnone] at hnode
        cases hnode
    · rw [hput]
      exact hnode

/-- A session that puts the text of an address shows it. -/
theorem shows_put_self (hs : c.sessions[session]? = some .connected) (a : Address) :
    (c.put session path (some a.text) true).2.Shows session path (some a) := by
  intro _
  rcases c.put_cases session path (some a.text) true with ⟨-, hput⟩ | ⟨hne, -⟩
  · rw [hput]
    exact Tree.getElem?_put_self _ _ _ _
  · exact absurd hs hne

/-- A session that puts the text of an address at the path of the address shows it there, and
elsewhere what it showed. -/
theorem shows_put {holders : String → Option Address}
    (h : ∀ key, c.Shows session key (holders key))
    (hs : c.sessions[session]? = some .connected) {a : Address} (hpath : a.nodePath = .ok path)
    (key : String) : (c.put session path (some a.text) true).2.Shows session key
      (if a.isAt key then some a else holders key) := by
  by_cases hkey : key = path
  · subst hkey
    rw [if_pos (Address.isAt_iff.mpr hpath)]
    exact shows_put_self hs a
  · have hat : ¬ a.isAt key = true := by
      rw [Address.isAt_iff, hpath]
      exact fun heq => hkey (Except.ok.inj heq).symm
    rw [if_neg hat]
    exact (h key).put_of_ne hkey _

/-- A node that goes is shown no more. -/
theorem Shows.removeWhere (h : c.Shows session path holder)
    {doomed : String → TreeNode → Bool} (gone : Bool)
    (hdoomed : ∀ node : TreeNode, node.owner = some session → doomed path node = gone) :
    (c.removeWhere doomed).2.Shows session path (if gone then none else holder) := by
  cases gone with
  | true =>
    intro ho
    obtain ⟨node, -, hid, hd⟩ := (owns_removeWhere doomed session path).mp ho
    rw [hdoomed node hid] at hd
    cases hd
  | false =>
    cases holder with
    | none =>
      intro ho
      obtain ⟨node, hnode, hid, -⟩ := (owns_removeWhere doomed session path).mp ho
      exact h ⟨node, hnode, hid⟩
    | some a =>
      intro halive
      change (c.tree.removeWhere doomed).1[path]? = _
      rw [Tree.getElem?_removeWhere, h halive]
      simp [Option.filter_some, hdoomed]

/-- A deletion takes away what is shown at its path and below it. -/
theorem Shows.delete (h : c.Shows session path holder)
    (hs : c.sessions[session]? = some .connected) (above : String) :
    (c.delete session above).2.Shows session path
      (if Tree.isWithin above path then none else holder) := by
  rcases c.delete_cases session above with ⟨-, removed, hd⟩ | ⟨hne, -⟩
  · rw [hd]
    exact h.removeWhere _ fun _ _ => rfl
  · exact absurd hs hne

/-- A session shows what it shows while sessions change their states. -/
theorem Shows.transition (h : c.Shows session path holder) (id : SessionId)
    (state : SessionState) : (c.transition id state).Shows session path holder := by
  rcases c.transition_cases id state with ⟨before, hbefore, hne, ht⟩ | ⟨-, ht⟩
  · rw [ht]
    cases holder with
    | none => exact h
    | some a =>
      intro halive
      apply h
      intro he
      by_cases hid : id = session
      · rw [hid, he] at hbefore
        exact hne (Option.some.inj hbefore).symm
      · apply halive
        change (c.sessions.insert id state)[session]? = _
        rw [sessions_insert, if_neg hid, he]
  · rw [ht]
    exact h

/-- A session that lasts shows what it shows when another one ends. -/
theorem Shows.expire (h : c.Shows session path holder) (id : SessionId)
    (hknown : c.sessions[session]?.isSome) : (c.expire id).Shows session path holder := by
  by_cases hid : id = session
  · subst hid
    cases holder with
    | none => exact fun ho => h ((owns_expire id id path).mp ho).1
    | some a => exact fun halive => absurd (sessions_expire id hknown) halive
  · have hrest : ∀ node : TreeNode, node.owner = some session →
        (node.owner == some id) = false := by
      intro node hnode
      rw [hnode, beq_eq_false_iff_ne]
      exact fun heq => hid (Option.some.inj heq).symm
    exact (h.removeWhere false hrest).transition id .expired

end Coordinator

namespace Tenure

variable {t : Tenure}

/-- Whether the member still has to bring back an address. -/
def Owes (t : Tenure) (a : Address) : Prop :=
  match t.stage with
  | .following | .expired => False
  | .renewed => True
  | .republishing left => ∃ b, b ∈ left ∧ (b == a) = true

/-- What holds of a tenure all along. -/
structure Sound (t : Tenure) : Prop where
  orderly : t.coordinator.Orderly
  known : t.coordinator.sessions[t.member.session]?.isSome
  shows : ∀ path, t.coordinator.Shows t.member.session path (t.holder? path)
  /-- A claimant is among what is registered, and comes back in another session. -/
  registered : ∀ path a, t.claimant? path = some a →
    ∃ b, b ∈ t.member.registered ∧ (b == a) = true
  /-- The text of a claimant is shown unless it was disturbed or is about to be brought back. -/
  upheld : ∀ path a, t.claimant? path = some a → Deed.Undisturbed path a t.deeds →
    (t.holder? path).map Address.text = some a.text ∨ t.Owes a

/-! ### Steps of the member -/

/-- An address is registered by a put of its text at its path, or not at all. -/
theorem register_cases (t : Tenure) (a : Address) :
    (∃ path, a.nodePath = .ok path ∧ t.coordinator.sessions[t.member.session]? = some .connected ∧
      t.register a = { t with
        member := { t.member with registered := Membership.addAddress t.member.registered a }
        coordinator := (t.coordinator.put t.member.session path (some a.text) true).2
        cache := (t.cache.insert a.serviceKey a).2
        deeds := .registered a :: t.deeds }) ∨
    t.register a = t := by
  unfold register
  rcases t.member.register_cases t.coordinator t.cache a with ⟨path, hpath, hs, hr⟩ | ⟨f, hr⟩
  · exact .inl ⟨path, hpath, hs, by rw [hr]⟩
  · refine .inr ?_
    rw [hr]

/-- An address is taken back by a deletion at its path, or not at all. -/
theorem unregister_cases (t : Tenure) (a : Address) :
    (∃ path, a.nodePath = .ok path ∧ t.coordinator.sessions[t.member.session]? = some .connected ∧
      t.unregister a = { t with
        member := { t.member with registered := Membership.removeAddress t.member.registered a }
        coordinator := (t.coordinator.delete t.member.session path).2
        cache := (t.cache.remove a.serviceKey a).2
        deeds := .unregistered a :: t.deeds }) ∨
    t.unregister a = t := by
  unfold unregister
  rcases t.member.unregister_cases t.coordinator t.cache a with ⟨path, hpath, hs, hu⟩ | ⟨f, hu⟩
  · exact .inl ⟨path, hpath, hs, by rw [hu]⟩
  · refine .inr ?_
    rw [hu]

@[simp]
private theorem stage_register (t : Tenure) (a : Address) : (t.register a).stage = t.stage := by
  rcases t.register_cases a with ⟨path, -, -, ht⟩ | ht <;> rw [ht]

@[simp]
private theorem stage_unregister (t : Tenure) (a : Address) : (t.unregister a).stage = t.stage := by
  rcases t.unregister_cases a with ⟨path, -, -, ht⟩ | ht <;> rw [ht]

/-- An address is brought back by a put of its text at its path, or not at all. -/
theorem republish_cases (t : Tenure) (a : Address) (left : List Address) :
    (∃ path, a.nodePath = .ok path ∧ t.coordinator.sessions[t.member.session]? = some .connected ∧
      t.republish a left = { t with
        coordinator := (t.coordinator.put t.member.session path (some a.text) true).2
        stage := .republishing left
        deeds := .republished a :: t.deeds }) ∨
    t.republish a left =
      { t with stage := .republishing left, deeds := .missed a :: t.deeds } := by
  unfold republish
  rcases t.member.publish_cases t.coordinator a with ⟨path, hpath, hs, hp⟩ | ⟨f, hp⟩
  · exact .inl ⟨path, hpath, hs, by rw [hp]⟩
  · refine .inr ?_
    rw [hp]

namespace Sound

/-- A registered address claims and holds its path. -/
theorem register (h : Sound t) (a : Address) : Sound (t.register a) := by
  rcases t.register_cases a with ⟨path, hpath, hs, ht⟩ | ht
  · rw [ht]
    constructor
    · exact h.orderly.put _ _ _ _
    · simpa only [Coordinator.sessions_put] using h.known
    · exact Coordinator.shows_put h.shows hs hpath
    · intro key b hb
      simp only [claimant?, Deed.claimant?] at hb
      split at hb
      · cases hb
        exact Membership.exists_mem_addAddress _ a
      · obtain ⟨b', hmem, heq⟩ := h.registered key b hb
        exact ⟨b', Membership.mem_addAddress_of_mem hmem a, heq⟩
    · intro key b hb hun
      simp only [claimant?, Deed.claimant?] at hb
      simp only [holder?, Deed.holder?]
      split at hb
      · next hat =>
        cases hb
        rw [if_pos hat]
        exact .inl rfl
      · next hat =>
        rw [if_neg hat]
        have hclaims : (Deed.registered a).claims key = false := by simpa [Deed.claims] using hat
        exact h.upheld key b hb ((Deed.undisturbed_cons hclaims).mp hun).2
  · rw [ht]
    exact h

/-- An address that is taken back claims its path no more, and empties the paths at its own and
below it. -/
theorem unregister (h : Sound t) (a : Address) : Sound (t.unregister a) := by
  rcases t.unregister_cases a with ⟨path, hpath, hs, ht⟩ | ht
  · rw [ht]
    constructor
    · exact h.orderly.delete _ _
    · simpa only [Coordinator.sessions_delete] using h.known
    · intro key
      have hgone : a.isAtOrAbove key = Tree.isWithin path key := by
        simp [Address.isAtOrAbove, hpath, Except.toOption]
      simp only [holder?, Deed.holder?, hgone]
      exact (h.shows key).delete hs path
    · intro key b hb
      obtain ⟨hb, hkept⟩ := Option.filter_eq_some_iff.mp hb
      obtain ⟨b', hmem, heq⟩ := h.registered key b hb
      refine ⟨b', List.mem_filter.mpr ⟨hmem, ?_⟩, heq⟩
      cases hgone : b' == a with
      | false => rfl
      | true =>
        rw [Address.beq_trans (Address.beq_symm heq) hgone] at hkept
        cases hkept
    · intro key b hb hun
      obtain ⟨hb, -⟩ := Option.filter_eq_some_iff.mp hb
      obtain ⟨hspared, hun⟩ := (Deed.undisturbed_cons rfl).mp hun
      simp only [Deed.disturbs] at hspared
      simp only [holder?, Deed.holder?, hspared]
      exact h.upheld key b hb hun
  · rw [ht]
    exact h

/-- What happens to sessions leaves claims and nodes, as long as the member's session lasts. -/
theorem sessions (h : Sound t) {c : Coordinator} (ho : c.Orderly)
    (hknown : c.sessions[t.member.session]?.isSome)
    (hshows : ∀ path holder, t.coordinator.Shows t.member.session path holder →
      c.Shows t.member.session path holder) : Sound { t with coordinator := c } :=
  ⟨ho, hknown, fun path => hshows path _ (h.shows path), h.registered, h.upheld⟩

/-- A session that changes its state leaves claims and nodes. -/
theorem transition (h : Sound t) (id : SessionId) {state : SessionState}
    (hstate : state ≠ .expired) :
    Sound { t with coordinator := t.coordinator.transition id state } :=
  h.sessions (h.orderly.transition fun he => absurd he hstate)
    (t.coordinator.isSome_transition id state h.known) fun _ _ hs => hs.transition id state

/-- A session that ends takes its nodes away, and leaves the claims. -/
theorem expire (h : Sound t) (id : SessionId) :
    Sound { t with coordinator := t.coordinator.expire id } :=
  h.sessions (h.orderly.expire id) (t.coordinator.isSome_after (.expire id) h.known)
    fun _ _ hs => hs.expire id h.known

/-- What a member reads or gathers leaves claims and nodes, as long as it still owes what it
owed. -/
theorem congr (h : Sound t) {t' : Tenure} (hcoordinator : t'.coordinator = t.coordinator)
    (hsession : t'.member.session = t.member.session)
    (hregistered : t'.member.registered = t.member.registered) (hdeeds : t'.deeds = t.deeds)
    (howes : ∀ path a, t.claimant? path = some a → t.Owes a → t'.Owes a) : Sound t' where
  orderly := hcoordinator ▸ h.orderly
  known := by
    rw [hcoordinator, hsession]
    exact h.known
  shows := by
    intro path
    rw [hcoordinator, hsession, holder?, hdeeds]
    exact h.shows path
  registered := by
    intro path a ha
    rw [claimant?, hdeeds] at ha
    rw [hregistered]
    exact h.registered path a ha
  upheld := by
    intro path a ha hun
    rw [claimant?, hdeeds] at ha
    rw [hdeeds] at hun
    rw [holder?, hdeeds]
    exact (h.upheld path a ha hun).imp_right (howes path a ha)

/-- Reading on changes neither claims nor nodes. -/
theorem follow (h : Sound t) (hstage : t.stage = .following) : Sound t.follow := by
  have hnone : ∀ a, ¬ t.Owes a := fun a ho => by
    rw [Owes, hstage] at ho
    exact ho
  have howes : ∀ path a, t.claimant? path = some a → t.Owes a → t.follow.Owes a :=
    fun _ a _ ho => absurd ho (hnone a)
  unfold Tenure.follow at howes ⊢
  rcases t.coordinator.read_cases t.member.position with
    ⟨-, hread⟩ | ⟨-, event, -, hread⟩ | ⟨-, hread⟩
  · -- nothing below may compute with the number of kept events
    generalize t.coordinator.log.size - Coordinator.kept = position at hread
    rw [hread] at howes ⊢
    exact h.congr rfl rfl rfl rfl howes
  · rw [hread] at howes ⊢
    exact h.congr rfl rfl rfl rfl howes
  · rw [hread]
    exact h

/-- A new session holds nothing yet, and owes everything. -/
theorem renew (h : Sound t) (hfits : t.renew.coordinator.sessions.size + 1 < 2 ^ 64) :
    Sound t.renew where
  orderly := h.orderly.openSession hfits
  known := Option.isSome_of_eq_some t.coordinator.sessions_openSession_self
  shows := fun path => h.orderly.not_owns_upcoming path
  registered := h.registered
  upheld := fun _ _ _ _ => .inr trivial

/-- What is gathered is all that is owed. -/
theorem gather (h : Sound t) {order : List Address} (hperm : order.Perm t.member.registered) :
    Sound { t with stage := .republishing order } := by
  refine h.congr rfl rfl rfl rfl fun path a ha _ => ?_
  obtain ⟨b, hb, heq⟩ := h.registered path a ha
  exact ⟨b, hperm.mem_iff.mpr hb, heq⟩

/-- What is owed at a path is the next address, if that is registered there, or among the
others. -/
theorem owes_rest {a b : Address} {left : List Address} {path : String}
    (hstage : t.stage = .republishing (b :: left)) (hclaim : t.claimant? path = some a)
    (hat : b.isAt path = false) (howes : t.Owes a) : ∃ b', b' ∈ left ∧ (b' == a) = true := by
  rw [Owes, hstage] at howes
  obtain ⟨b', hmem, heq⟩ := howes
  rcases List.mem_cons.mp hmem with rfl | hmem
  · rw [Address.isAt_congr heq, Deed.isAt_of_claimant? hclaim] at hat
    cases hat
  · exact ⟨b', hmem, heq⟩

/-- An address that is brought back holds its path, whoever claims it. -/
theorem republish (h : Sound t) {b : Address} {left : List Address}
    (hstage : t.stage = .republishing (b :: left)) : Sound (t.republish b left) := by
  rcases t.republish_cases b left with ⟨path, hpath, hs, ht⟩ | ht
  · rw [ht]
    constructor
    · exact h.orderly.put _ _ _ _
    · simpa only [Coordinator.sessions_put] using h.known
    · exact Coordinator.shows_put h.shows hs hpath
    · exact h.registered
    · intro key a ha hun
      obtain ⟨hsame, hun⟩ := (Deed.undisturbed_cons rfl).mp hun
      simp only [holder?, Deed.holder?]
      cases hat : b.isAt key with
      | true =>
        have htext : b.text = a.text := by simpa [Deed.disturbs, hat] using hsame
        exact .inl (congrArg some htext)
      | false => exact (h.upheld key a ha hun).imp_right (owes_rest hstage ha hat)
  · rw [ht]
    refine ⟨h.orderly, h.known, h.shows, h.registered, fun key a ha hun => ?_⟩
    obtain ⟨hat, hun⟩ := (Deed.undisturbed_cons rfl).mp hun
    exact (h.upheld key a ha hun).imp_right (owes_rest hstage ha hat)

/-- Once nothing is left to bring back, nothing is owed. -/
theorem resume (h : Sound t) (hstage : t.stage = .republishing []) : Sound t.resume := by
  refine h.congr rfl rfl rfl rfl fun path a _ howes => ?_
  rw [Owes, hstage] at howes
  obtain ⟨b, hb, -⟩ := howes
  cases hb

/-- Every step keeps a tenure sound, unless the numbers of the sessions come round. -/
theorem step {t' : Tenure} (h : Sound t) (hs : Step t t')
    (hfits : t'.coordinator.sessions.size + 1 < 2 ^ 64) : Sound t' := by
  cases hs with
  | register a => exact h.register a
  | unregister a => exact h.unregister a
  | look watched cache => exact h.congr rfl rfl rfl rfl fun _ _ _ howes => howes
  | disconnect id => exact h.transition id (by simp)
  | reconnect id => exact h.transition id (by simp)
  | expire id => exact h.expire id
  | follow hstage => exact h.follow hstage
  | renew hstage => exact h.renew hfits
  | gather hstage order hperm => exact h.gather hperm
  | republish a left hstage => exact h.republish hstage
  | resume hstage => exact h.resume hstage

end Sound

/-- A member that joins has claimed nothing. -/
theorem sound_join {c : Coordinator} (h : c.Orderly) (cache : Cache)
    (hfits : (join c cache).coordinator.sessions.size + 1 < 2 ^ 64) : Sound (join c cache) where
  orderly := h.openSession hfits
  known := Option.isSome_of_eq_some c.sessions_openSession_self
  shows := fun path => h.not_owns_upcoming path
  registered := by
    intro path a ha
    cases ha
  upheld := by
    intro path a ha
    cases ha

/-- No step forgets a session. -/
theorem Step.size_le {t' : Tenure} (hs : Step t t') :
    t.coordinator.sessions.size ≤ t'.coordinator.sessions.size := by
  cases hs with
  | register a =>
    rcases t.register_cases a with ⟨path, -, -, ht⟩ | ht <;>
      simp [ht, Coordinator.sessions_put]
  | unregister a =>
    rcases t.unregister_cases a with ⟨path, -, -, ht⟩ | ht <;>
      simp [ht, Coordinator.sessions_delete]
  | look watched cache => exact Nat.le_refl _
  | disconnect id => exact t.coordinator.size_le_after (.disconnect id)
  | reconnect id => exact t.coordinator.size_le_after (.reconnect id)
  | expire id => exact t.coordinator.size_le_after (.expire id)
  | follow hstage =>
    unfold Tenure.follow
    split <;> exact Nat.le_refl _
  | renew hstage => exact t.coordinator.size_le_after .openSession
  | gather hstage order hperm => exact Nat.le_refl _
  | republish a left hstage =>
    rcases t.republish_cases a left with ⟨path, -, -, ht⟩ | ht <;>
      simp [ht, Coordinator.sessions_put]
  | resume hstage => exact Nat.le_refl _

/-- Every run of a tenure is sound, unless the numbers of the sessions come round. -/
theorem Reachable.sound (h : Reachable t) (hfits : t.coordinator.sessions.size + 1 < 2 ^ 64) :
    Sound t := by
  induction h with
  | start moves cache =>
    have hsize := Coordinator.size_le_after (moves.foldl Coordinator.after {}) .openSession
    have hfits' := Nat.lt_of_le_of_lt (Nat.succ_le_succ hsize) hfits
    exact sound_join (Coordinator.orderly_empty.run hfits') cache hfits
  | step _ hs ih =>
    exact (ih (Nat.lt_of_le_of_lt (Nat.succ_le_succ hs.size_le) hfits)).step hs hfits

/-! ### A renewal in one go -/

/-- What is left may be brought back without anything between. -/
theorem Reachable.republishAll {left : List Address} (h : Reachable t)
    (hstage : t.stage = .republishing left) :
    ∃ t', Reachable t' ∧ t'.member = t.member ∧ t'.cache = t.cache ∧
      t'.stage = .republishing [] ∧
        t'.coordinator = (t.member.republish t.coordinator left).1 := by
  induction left generalizing t with
  | nil => exact ⟨t, h, rfl, rfl, hstage, rfl⟩
  | cons a rest ih =>
    have hone : (t.republish a rest).member = t.member ∧ (t.republish a rest).cache = t.cache ∧
        (t.republish a rest).stage = .republishing rest ∧
          (t.republish a rest).coordinator = (t.member.publish t.coordinator a).2 := by
      unfold Tenure.republish
      split <;> next heq => exact ⟨rfl, rfl, rfl, (congrArg Prod.snd heq).symm⟩
    obtain ⟨hmember, hcache, hrest, hcoordinator⟩ := hone
    obtain ⟨t', ht', hmember', hcache', hstage', hcoordinator'⟩ :=
      ih (h.step (.republish t a rest hstage)) hrest
    refine ⟨t', ht', hmember'.trans hmember, hcache'.trans hcache, hstage', ?_⟩
    rw [hcoordinator', hmember, hcoordinator, Membership.republish_cons]

/-- Among the runs of a tenure is the one in which a member that renewed its session brings
everything back at once, in the order in which it was registered. -/
theorem Reachable.restore (h : Reachable t) (hstage : t.stage = .renewed) :
    ∃ t', Reachable t' ∧ t'.member = t.member ∧ t'.stage = .following ∧
      t'.coordinator = (t.member.restore t.coordinator t.cache).1 ∧
        t'.cache = (t.member.restore t.coordinator t.cache).2.1 := by
  obtain ⟨t', ht', hmember, hcache, hdone, hcoordinator⟩ :=
    Reachable.republishAll (h.step (.gather t hstage _ (.refl t.member.registered))) rfl
  refine ⟨t'.resume, ht'.step (.resume t' hdone), hmember, rfl, hcoordinator, ?_⟩
  simp only [resume, Membership.restore, hmember, hcache, hcoordinator]

/-! ### Claimants and holders -/

/-- The node of a path shows the text of an address and belongs to the session of a member, which is
connected, just if the holder of the path has that text. -/
theorem Sound.holds_iff (h : Sound t) (hconnected : t.isConnected = true) (path : String)
    (a : Address) : t.Holds path a ↔ (t.holder? path).map Address.text = some a.text := by
  have halive : t.coordinator.sessions[t.member.session]? ≠ some .expired := by
    have hs : t.coordinator.sessions[t.member.session]? = some .connected :=
      beq_iff_eq.mp hconnected
    rw [hs]
    simp
  have hshows := h.shows path
  cases hholder : t.holder? path with
  | none =>
    rw [hholder] at hshows
    simp only [Option.map_none, reduceCtorEq, iff_false]
    exact fun hnode => hshows ⟨_, hnode, rfl⟩
  | some b =>
    rw [hholder] at hshows
    rw [Holds, hshows halive]
    simp

/-- When the session of a member is connected, the member is not about to bring anything back and
fewer than `2 ^ 64 - 1` sessions were opened, so that their numbers did not come round, the node of
a path shows the text of its claimant and belongs to the session just if the holder of the path has
that text. It has, unless since the claimant was registered another address at the path or above it
was taken back, another text was brought back at the path, or the claimant itself could not be
brought back. -/
theorem Reachable.claimant_holds_iff (h : Reachable t)
    (hfits : t.coordinator.sessions.size + 1 < 2 ^ 64) (hconnected : t.isConnected = true)
    (hstage : t.stage = .following) {path : String} {a : Address}
    (hclaim : t.claimant? path = some a) :
    (t.Holds path a ↔ (t.holder? path).map Address.text = some a.text) ∧
      (Deed.Undisturbed path a t.deeds → t.Holds path a) := by
  have hsound := h.sound hfits
  have hiff := hsound.holds_iff hconnected path a
  refine ⟨hiff, fun hun => hiff.mpr ?_⟩
  rcases hsound.upheld path a hclaim hun with hholds | howes
  · exact hholds
  · rw [Owes, hstage] at howes
    exact howes.elim

/-- A provider that moved to another host holds its path until the address of the old host is taken
back. -/
theorem claimant_holds_until_unregister :
    let old := ({ host := some "a", port := 1, path := some "g/s" } : Address).withParameter
      Address.nodeName "n"
    let new := old.withHost "b"
    let moved := ((join {} {}).register old).register new
    (∃ a, moved.claimant? "/g/s/n" = some a ∧ a.text = new.text ∧ moved.Holds "/g/s/n" a) ∧
      ∃ a, (moved.unregister old).claimant? "/g/s/n" = some a ∧ a.text = new.text ∧
        ¬ (moved.unregister old).Holds "/g/s/n" a := by
  intro old new moved
  have hmoved : Reachable moved :=
    ((Reachable.start [] {}).step (.register _ old)).step (.register _ new)
  have hstage : (join {} {}).stage = .following := rfl
  constructor
  · have hclaim : (moved.claimant? "/g/s/n").map Address.text = some new.text := by decide +kernel
    obtain ⟨a, hclaim, htext⟩ := Option.map_eq_some_iff.mp hclaim
    have hconnected : moved.isConnected = true := by decide +kernel
    have hsince : (Deed.sinceClaim "/g/s/n" moved.deeds).isEmpty = true := by decide +kernel
    refine ⟨a, hclaim, htext,
      (hmoved.claimant_holds_iff (by decide +kernel) hconnected (by simp [moved, hstage])
        hclaim).2 ?_⟩
    intro deed hdeed
    rw [List.isEmpty_iff.mp hsince] at hdeed
    cases hdeed
  · have hclaim : ((moved.unregister old).claimant? "/g/s/n").map Address.text =
      some new.text := by decide +kernel
    obtain ⟨a, hclaim, htext⟩ := Option.map_eq_some_iff.mp hclaim
    have hconnected : (moved.unregister old).isConnected = true := by decide +kernel
    have hholder : ((moved.unregister old).holder? "/g/s/n").map Address.text = none := by
      decide +kernel
    refine ⟨a, hclaim, htext, fun hholds => ?_⟩
    have hreach : Reachable (moved.unregister old) := hmoved.step (.unregister _ old)
    have heq :=
      (hreach.claimant_holds_iff (by decide +kernel) hconnected (by simp [moved, hstage])
        hclaim).1.mp hholds
    rw [hholder] at heq
    cases heq

end Tenure

end Switchboard
