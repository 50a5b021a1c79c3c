import Switchboard.Proofs.Registry.Resynced

/-!
# What a cache makes of a change at a node

A registry that hears of the data at the path of a node has the address of the node take the place
of all that its cache held of the node, or has all that gone if there is no address. The key is
found in two ways, from the path of the address and from the path of the node, and both find the
same; an address is known by the node that its text names, and its text names it. Nothing else in
any cache changes.
-/

namespace Switchboard

namespace CacheEntries

/-- What is known of a node under a key is the one text that is given, or nothing if none is; all
else is as it was before, and the key is there only with some text. -/
structure Settles (before after : CacheEntries) (key node : String) (text? : Option String) :
    Prop where
  /-- What is known of the node. -/
  named : ∀ text, text ∈ after.getD key ∅ ∧ Cache.nodeOf text = some node ↔ text? = some text
  /-- What is known of other nodes, and texts that name no node. -/
  unnamed : ∀ text, Cache.nodeOf text ≠ some node →
    (text ∈ after.getD key ∅ ↔ text ∈ before.getD key ∅)
  /-- What is known under other keys, and which of these are there. -/
  others : ∀ other, other ≠ key → after[other]? = before[other]?
  /-- The key is gone if nothing is left under it. -/
  present : after[key]? ≠ some ∅

variable {e : CacheEntries} {key other : String}

private theorem getElem?_add_of_ne (h : other ≠ key) (text : String) :
    (e.add key text).2[other]? = e[other]? := by
  rw [add, Std.ExtTreeMap.getElem?_insert, if_neg]
  exact mt Std.LawfulEqCmp.compare_eq_iff_eq.mp (Ne.symm h)

private theorem getElem?_removeWhere_of_ne (h : other ≠ key) (doomed : String → Bool) :
    (e.removeWhere key doomed).2[other]? = e[other]? := by
  have hcompare : compare key other ≠ .eq := mt Std.LawfulEqCmp.compare_eq_iff_eq.mp (Ne.symm h)
  unfold removeWhere
  split
  · rfl
  · dsimp only
    split
    · rw [Std.ExtTreeMap.getElem?_erase, if_neg hcompare]
    · rw [Std.ExtTreeMap.getElem?_insert, if_neg hcompare]

private theorem getElem?_add_self_ne (e : CacheEntries) (key text : String) :
    (e.add key text).2[key]? ≠ some ∅ := by
  rw [add, Std.ExtTreeMap.getElem?_insert_self, Ne, Option.some.injEq]
  intro hempty
  have hmem : text ∈ (e.getD key ∅).insert text := Std.ExtTreeSet.mem_insert_self
  rw [hempty] at hmem
  exact Std.ExtTreeSet.not_mem_empty hmem

private theorem getElem?_removeWhere_self_ne (e : CacheEntries) (key : String)
    (doomed : String → Bool) :
    (e.removeWhere key doomed).2[key]? ≠ some ∅ := by
  unfold removeWhere
  split
  · next hnone => simp [hnone]
  · dsimp only
    split
    · simp
    · next hleft =>
      rw [Std.ExtTreeMap.getElem?_insert_self, Ne, Option.some.injEq]
      exact fun hempty => hleft (by simp [hempty])

end CacheEntries

namespace Cache

variable {cache cache' : Cache} {node t : String} {a : Address}

/-- An address of a node takes the place of all that is known of the node. -/
theorem settles_followData_some (source : String) (hparse : Address.parse t = .ok a)
    (hnode : a.parameter? Address.nodeName = some node) :
    cache.entries.Settles (cache.followData source (some a)).entries a.serviceKey node
      (some a.text) := by
  have hmem : ∀ text, text ∈ (cache.followData source (some a)).entries.getD a.serviceKey ∅ ↔
      text = a.text ∨ text ∈ cache.textsAt a.serviceKey ∧ nodeOf text ≠ some node := fun text =>
    (mem_textsAt_followData source hnode).trans (iff_of_eq (if_pos rfl))
  have hnamed : nodeOf a.text = some node := Address.nodeOf_text hparse hnode
  refine ⟨fun text => ?_, fun text htext => ?_, fun other hother => ?_, ?_⟩
  · rw [hmem, Option.some.injEq]
    constructor
    · rintro ⟨rfl | ⟨-, hne⟩, htext⟩
      · rfl
      · exact absurd htext hne
    · rintro rfl
      exact ⟨.inl rfl, hnamed⟩
  · rw [hmem]
    constructor
    · rintro (rfl | ⟨hheld, -⟩)
      · exact absurd hnamed htext
      · exact hheld
    · exact fun hheld => .inr ⟨hheld, htext⟩
  · simp only [followData, hnode, insert, removeWhere, changed]
    rw [CacheEntries.getElem?_add_of_ne hother, CacheEntries.getElem?_removeWhere_of_ne hother]
  · exact CacheEntries.getElem?_add_self_ne _ _ _

/-- Without an address, nothing is known of the node any more. -/
theorem settles_followData_none {source key : String}
    (hsource : Key.split? source = some (key, node)) :
    cache.entries.Settles (cache.followData source none).entries key node none := by
  have hmem : ∀ text, text ∈ (cache.followData source none).entries.getD key ∅ ↔
      text ∈ cache.textsAt key ∧ nodeOf text ≠ some node := by
    intro text
    simp only [followData, hsource]
    refine (mem_textsAt_removeWhere_self _).trans ?_
    rw [beq_eq_false_iff_ne]
  refine ⟨fun text => ?_, fun text htext => ?_, fun other hother => ?_, ?_⟩
  · rw [hmem]
    simp
  · rw [hmem]
    exact and_iff_left htext
  · simp only [followData, hsource, removeWhere, changed]
    exact CacheEntries.getElem?_removeWhere_of_ne hother _
  · simp only [followData, hsource]
    exact CacheEntries.getElem?_removeWhere_self_ne _ _ _

/-- What a change at a path makes of a cache goes by what the cache knows. -/
theorem entries_followData_congr (h : cache.entries = cache'.entries) (source : String)
    (address : Option Address) :
    (cache.followData source address).entries = (cache'.followData source address).entries := by
  unfold followData
  split
  · dsimp only
    split <;> simp only [insert, removeWhere, changed, h]
  · split
    · simp only [removeWhere, changed, h]
    · exact h

end Cache

namespace Address

/-- The path of a node of an address leads back to the key of the address and the node. -/
theorem split?_join_serviceKey (a : Address) {node : String} (hne : node ≠ "")
    (hslash : '/' ∉ node.toList) :
    Key.split? (Key.join a.serviceKey node) = some (a.serviceKey, node) := by
  rw [join_serviceKey a hne, split?_serviceKey a hslash]

end Address

namespace Op

open Routine Board

variable {r : Nat} {b b' : Board} {steps : List (Board × Board)} {t node : String} {a : Address}
  {address : Option Address}

/-- A registry hears of the data at a path. -/
def fireData (r : Nat) (source : String) (address : Option Address) : Op Unit :=
  fire r (fun cache => cache.followData source address) (.data source address)

private theorem passes_fireData (r : Nat) (source : String) (address : Option Address) :
    Passes (fireData r source address) :=
  (passes_look _).bind fun _ => (passes_savingChanges _ _).bind fun _ => passes_notify _

/-- A registry that hears of the data at a path has its cache follow, and no other cache changes. -/
theorem entries_of_fireData {source : String} (hcache : (b.registry r).cache < b.caches.size)
    (h : Trail (fireData r source address) steps ()) (hleads : Leads (Undisturbed r) b steps b')
    (i : Nat) : (b'.cache i).entries =
      if (b.registry r).cache = i then
        ((b.cache (b.registry r).cache).followData source address).entries
      else (b.cache i).entries := by
  simp only [fireData, fire, trail_bind_iff, trail_look_iff] at h
  obtain ⟨_, _, _, ⟨looked, rfl, rfl⟩, ⟨_, changing, telling, hchange, htell, rfl⟩, rfl⟩ := h
  obtain ⟨hlooked, hleads⟩ : _ ∧ Leads _ looked (changing ++ telling) b' := hleads
  have hindex : (looked.registry r).cache = (b.registry r).cache := hlooked.cache_eq
  rw [hindex] at hchange
  obtain ⟨mid, hchanging, htelling⟩ := (leads_append .refl .trans).mp hleads
  obtain ⟨found, hfound, -, hmid⟩ :=
    leads_savingChanges overlooks_undisturbed .trans hchange hchanging
  have hknows : mid.KnowsAlike b' :=
    (htelling.mono fun h => h.entries).throughout .trans (keeps_notify _ _ _ htell)
  rw [hknows]
  exact (hlooked.trans hfound).entries_changeCache hmid hcache
    (fun _ _ hsame => Cache.entries_followData_congr hsame source address) i

/-- Whatever a cache holds, and whatever address was read that names a node: a registry that hears
of it at the path of the node knows just its text of the node, and one that hears that there is
no address knows nothing of the node. All else that any cache knows is as it was. -/
theorem settles_of_fireData (hparse : Address.parse t = .ok a)
    (hnode : a.parameter? Address.nodeName = some node) (hne : node ≠ "")
    (hslash : '/' ∉ node.toList) (hcache : (b.registry r).cache < b.caches.size)
    (haddress : address = some a ∨ address = none) :
    let told := fireData r (Key.join a.serviceKey node) address
    (∃ steps b', Trail told steps () ∧ Leads Eq b steps b') ∧
      ∀ steps b', Trail told steps () → Leads (Undisturbed r) b steps b' →
        (b.cache (b.registry r).cache).entries.Settles (b'.cache (b.registry r).cache).entries
            a.serviceKey node (address.map Address.text) ∧
          ∀ i ≠ (b.registry r).cache, (b'.cache i).entries = (b.cache i).entries := by
  intro told
  refine ⟨?_, fun steps b' htrail hleads => ⟨?_, fun i hi => ?_⟩⟩
  · obtain ⟨steps, _, b', htrail, hleads⟩ :=
      passes_fireData r (Key.join a.serviceKey node) address b
    exact ⟨steps, b', htrail, hleads⟩
  · rw [entries_of_fireData hcache htrail hleads, if_pos rfl]
    rcases haddress with rfl | rfl
    · exact Cache.settles_followData_some _ hparse hnode
    · exact Cache.settles_followData_none (a.split?_join_serviceKey hne hslash)
  · rw [entries_of_fireData hcache htrail hleads, if_neg hi.symm]

/-- A board whose one registry knows two nodes of a service, and a text that is no address. -/
def twoNodes : Board where
  caches := #[{ entries := (Membership.outdated.entries.add "/s" "h:no/s").2 }]
  registries := #[{}]

/-- A node that has moved takes its own place, and one that is gone leaves its place; the other node
and what is no address stay. -/
theorem settles_twoNodes :
    (∃ steps b', Trail (fireData 0 "/s/n" (some (Membership.provider 2 "n"))) steps () ∧
      Leads Eq twoNodes steps b' ∧ (twoNodes.cache 0).entries.Settles (b'.cache 0).entries "/s" "n"
        (some (Membership.provider 2 "n").text)) ∧
    ∃ steps b', Trail (fireData 0 "/s/n" none) steps () ∧ Leads Eq twoNodes steps b' ∧
      (twoNodes.cache 0).entries.Settles (b'.cache 0).entries "/s" "n" none := by
  have hparse : Address.parse (Membership.provider 2 "n").text = .ok (Membership.provider 2 "n") :=
    rfl
  have hkey : (Membership.provider 2 "n").serviceKey = "/s" := by decide +kernel
  have hcache : (twoNodes.registry 0).cache < twoNodes.caches.size := by decide
  constructor
  · obtain ⟨⟨steps, b', htrail, hleads⟩, hsettles⟩ := settles_of_fireData hparse rfl
      (by decide) (by decide) hcache (.inl rfl)
    rw [hkey] at htrail hsettles
    exact ⟨steps, b', htrail, hleads, (hsettles steps b' htrail (hleads.mono .of_eq)).1⟩
  · obtain ⟨⟨steps, b', htrail, hleads⟩, hsettles⟩ := settles_of_fireData hparse rfl
      (by decide) (by decide) hcache (.inr rfl)
    rw [hkey] at htrail hsettles
    exact ⟨steps, b', htrail, hleads, (hsettles steps b' htrail (hleads.mono .of_eq)).1⟩

end Op

end Switchboard
