import Switchboard.Proofs.Registry.CacheTexts
import Switchboard.Proofs.Registry.Discovery

/-!
# Taking back an address that equals the one registered

What is registered is found again by equality, and the node by its path, so that any address that
equals the registered one takes both back. The cache keeps texts instead: the text of the registered
address stays there if the address that takes it back has another text.

By `SPEC_FULL.md`, section 4.4, a withdrawal is the inverse of a registration and removes the entry
of the cache.
-/

namespace Switchboard

/-- No address under a key of the cache equals the given one. -/
def Cache.LacksEqual (cache : Cache) (key : String) (a : Address) : Prop :=
  ∀ x ∈ (cache.addresses key).getD [], (x == a) = false

namespace Address

private theorem serviceKey_congr {a b : Address} (h : (a == b) = true) :
    a.serviceKey = b.serviceKey := by
  obtain ⟨-, -, -, -, -, hpath, -⟩ := beq_iff.mp h
  simp only [serviceKey, hpath]

private theorem nodePath_congr {a b : Address} (h : (a == b) = true) {path : String}
    (hpath : a.nodePath = .ok path) : b.nodePath = .ok path := by
  rw [← isAt_iff, ← isAt_congr h]
  exact isAt_iff.mpr hpath

end Address

namespace Cache

variable {cache : Cache} {key : String} {a b : Address}

private theorem lacksEqual_iff : cache.LacksEqual key a ↔
    ∀ text ∈ cache.textsAt key, ∀ x, Address.parse text = .ok x → (x == a) = false := by
  simp only [LacksEqual, mem_addresses_iff]
  constructor
  · exact fun h text htext x hparse => h x ⟨text, htext, hparse⟩
  · rintro h x ⟨text, htext, hparse⟩
    exact h text htext x hparse

/-- Where no address equals `a`, none does after `a` is added and the text of `b` is removed, just
if both have the same text, or the text of `a` is not read as an address that equals it. -/
theorem lacksEqual_remove_insert_iff (h : cache.LacksEqual key a) :
    ((cache.insert key a).2.remove key b).2.LacksEqual key a ↔
      a.text = b.text ∨ ∀ x, Address.parse a.text = .ok x → (x == a) = false := by
  have htexts : ∀ text, text ∈ ((cache.insert key a).2.remove key b).2.textsAt key ↔
      (text = a.text ∨ text ∈ cache.textsAt key) ∧ text ≠ b.text := by
    intro text
    rw [remove, mem_textsAt_removeWhere_self, mem_textsAt_insert_self, beq_eq_false_iff_ne]
  simp only [lacksEqual_iff, htexts] at h ⊢
  constructor
  · intro hleft
    by_cases hsame : a.text = b.text
    · exact .inl hsame
    · exact .inr (hleft a.text ⟨.inl rfl, hsame⟩)
  · rintro hgone text ⟨rfl | hold, hne⟩
    · exact hgone.resolve_left hne
    · exact h text hold

end Cache

namespace Coordinator

/-- A deletion leaves no node at its path. -/
theorem tree_delete_self {c : Coordinator} {session : SessionId}
    (hs : c.sessionState? session = some .connected) (path : String) :
    (c.delete session path).2.tree[path]? = none := by
  rcases c.delete_cases session path with ⟨-, removed, hdelete⟩ | ⟨hne, -⟩
  · rw [hdelete]
    change (c.tree.removeWhere _).1[path]? = none
    rw [Tree.getElem?_removeWhere]
    have hwithin : Tree.isWithin path path = true := by simp [Tree.isWithin]
    simp [hwithin]
  · exact absurd hs hne

end Coordinator

namespace Membership

/-- Nothing that equals an address is left when one that equals it is removed. -/
theorem beq_of_mem_removeAddress {addresses : List Address} {a b r : Address}
    (hsame : (a == b) = true) (h : r ∈ removeAddress addresses b) : (r == a) = false := by
  have hrb : (r == b) = false := by simpa using (List.mem_filter.mp h).2
  cases hra : r == a with
  | false => rfl
  | true =>
    rw [Address.beq_trans hra hsame] at hrb
    cases hrb

variable {m : Membership} {c : Coordinator} {a b : Address}

/-- An address that names its node is registered by a connected session, and taken back by any
address that equals it: nothing is left at its path, and nothing that equals it among what is
registered. If nothing in the cache was equal to it, something there is now just if it has another
text than the address that took it back, and its text is read as an equal address. -/
theorem unregister_register_iff {cache : Cache} (hsame : (a == b) = true) {node : String}
    (hnode : a.registrationNode = .ok node) (hs : c.sessionState? m.session = some .connected)
    (hcached : cache.LacksEqual a.serviceKey a) :
    ∃ path m₁ c₁ cache₁ m₂ c₂ cache₂, a.nodePath = .ok path ∧
      m.register c cache a = (.ok (), m₁, c₁, cache₁) ∧
      m₁.unregister c₁ cache₁ b = (.ok (), m₂, c₂, cache₂) ∧
      c₂.tree[path]? = none ∧
      (∀ r ∈ m₂.registered, (r == a) = false) ∧
      (cache₂.LacksEqual a.serviceKey a ↔
        a.text = b.text ∨ ∀ x, Address.parse a.text = .ok x → (x == a) = false) := by
  obtain ⟨path, hpath⟩ : ∃ path, a.nodePath = .ok path :=
    ⟨_, Address.nodePath_of_registrationNode hnode⟩
  have hregister := m.register_of_nodePath cache hpath hs
  have hs₁ : (c.put m.session path (some a.text) true).2.sessionState? m.session =
      some .connected := by
    rw [Coordinator.sessionState?, Coordinator.sessions_put]
    exact hs
  have hunregister := unregister_of_nodePath
    { m with registered := addAddress m.registered a } (cache.insert a.serviceKey a).2
    (Address.nodePath_congr hsame hpath) hs₁
  have hgone := Coordinator.tree_delete_self hs₁ path
  refine ⟨path, _, _, _, _, _, _, hpath, hregister, hunregister, hgone,
    fun r hr => beq_of_mem_removeAddress hsame hr, ?_⟩
  rw [← Address.serviceKey_congr hsame]
  exact Cache.lacksEqual_remove_insert_iff hcached

/-- Two orders of the same parameters: the address taken back in the other order stays in the
cache, and one taken back as it was registered does not. -/
theorem unregister_register_of_order :
    let c := ({} : Coordinator).openSession.2
    let m : Membership := { session := 1 }
    let base : Address := { protocol := some "q", host := some "h", port := 1, path := some "s" }
    let a := (base.withParameter Address.nodeName "n").withParameter "x" "1"
    let b := (base.withParameter "x" "1").withParameter Address.nodeName "n"
    (a == b) = true ∧ a.registrationNode = .ok "n" ∧
      c.sessionState? m.session = some .connected ∧
      (∃ m₁ c₁ cache₁ m₂ c₂ cache₂, m.register c {} a = (.ok (), m₁, c₁, cache₁) ∧
        m₁.unregister c₁ cache₁ b = (.ok (), m₂, c₂, cache₂) ∧ c₂.tree["/s/n"]? = none ∧
        ¬ cache₂.LacksEqual "/s" a) ∧
      ∃ m₁ c₁ cache₁ m₂ c₂ cache₂, m.register c {} a = (.ok (), m₁, c₁, cache₁) ∧
        m₁.unregister c₁ cache₁ a = (.ok (), m₂, c₂, cache₂) ∧ c₂.tree["/s/n"]? = none ∧
        cache₂.LacksEqual "/s" a := by
  intro c m base a b
  have hsame : (a == b) = true := by decide +kernel
  have hnode : a.registrationNode = .ok "n" := rfl
  have hs : c.sessionState? m.session = some .connected := by decide +kernel
  have hcached : ({} : Cache).LacksEqual a.serviceKey a :=
    Cache.lacksEqual_iff.mpr fun _ h => absurd h Std.ExtTreeSet.not_mem_empty
  have hkey : a.serviceKey = "/s" := by decide +kernel
  have hpath : a.nodePath = .ok "/s/n" := by
    have hplace : Tree.childLead a.serviceKey ++ "n" = "/s/n" := by decide +kernel
    rw [Address.nodePath_of_registrationNode hnode, hplace]
  refine ⟨hsame, hnode, hs, ?_, ?_⟩
  · obtain ⟨path, m₁, c₁, cache₁, m₂, c₂, cache₂, hp, hr, hu, hgone, -, hiff⟩ :=
      unregister_register_iff hsame hnode hs hcached
    obtain rfl : "/s/n" = path := Except.ok.inj (hpath.symm.trans hp)
    rw [hkey] at hiff
    refine ⟨m₁, c₁, cache₁, m₂, c₂, cache₂, hr, hu, hgone, fun hlacks => ?_⟩
    rcases hiff.mp hlacks with htext | hread
    · exact absurd htext (by decide +kernel)
    · have hparse : Address.parse a.text = .ok a := by
        have htext : a.text = "q://h:1/s?nodeName=n&x=1" := by decide +kernel
        rw [htext]
        rfl
      exact absurd (hread a hparse) (by simp [Address.beq_self])
  · obtain ⟨path, m₁, c₁, cache₁, m₂, c₂, cache₂, hp, hr, hu, hgone, -, hiff⟩ :=
      unregister_register_iff (Address.beq_self a) hnode hs hcached
    obtain rfl : "/s/n" = path := Except.ok.inj (hpath.symm.trans hp)
    rw [hkey] at hiff
    exact ⟨m₁, c₁, cache₁, m₂, c₂, cache₂, hr, hu, hgone, hiff.mpr (.inl rfl)⟩

end Membership

end Switchboard
