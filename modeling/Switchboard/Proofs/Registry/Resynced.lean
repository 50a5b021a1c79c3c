import Switchboard.Proofs.Address.RoundTrip
import Switchboard.Proofs.Board.Lasting
import Switchboard.Proofs.Registry.Discovery
import Switchboard.Proofs.Registry.Lookout

/-!
# Caches after watched keys were read anew

A member that lost events reads every watched key anew. A key whose node has data is read as the
node of an address, every other key as a service. So a node that is gone is read as a service
without children, and what the cache holds of its address stays; only the key of its service, read
as a service, brings that in order.
-/

namespace Switchboard

namespace Address

/-- A text that an address with parameters was written as is read as an address with the same. -/
theorem exists_parse_text {t : String} {a : Address} (h : parse t = .ok a)
    (hparameters : a.parameters.entries ≠ []) :
    ∃ b, parse a.text = .ok b ∧ b.parameters = a.parameters := by
  have hread := parse_eq_ok_iff.mp h
  have hplain := plain_of_read hread
  have hend : Text.EndsPlain a.text.toList := by
    apply Classical.byContradiction
    exact fun hend => hparameters (hplain.last_of_not_endsPlain hend).1
  have hne : a.text ≠ "" := by
    rw [Ne, ← String.toList_eq_nil_iff, toList_text, toList_parametersText "?" hparameters]
    simp
  refine ⟨a.withoutLostPort, ?_, rfl⟩
  rw [parse_eq_ok_iff,
    Text.trim_of_plain (startsPlain_text (Text.startsPlain_trim _) hread) hend]
  exact hplain.read_text hne

/-- The text of an address names its node. -/
theorem nodeOf_text {t : String} {a : Address} {node : String} (h : parse t = .ok a)
    (hnode : a.parameter? nodeName = some node) : Cache.nodeOf a.text = some node := by
  have hparameters : a.parameters.entries ≠ [] := fun hnil => by
    simp [parameter?, Parameters.eq_empty hnil, Parameters.get?, Parameters.empty] at hnode
  obtain ⟨b, hb, hsame⟩ := exists_parse_text h hparameters
  rw [Cache.nodeOf, hb, ← hnode, parameter?, ← hsame]
  rfl

/-- Two paths right below keys of services are the same just if the keys and the names are. -/
theorem childLead_serviceKey_inj {a b : Address} {name name' : String} (h : '/' ∉ name.toList)
    (h' : '/' ∉ name'.toList)
    (heq : Tree.childLead a.serviceKey ++ name = Tree.childLead b.serviceKey ++ name') :
    a.serviceKey = b.serviceKey ∧ name = name' := by
  have hsplit := congrArg Key.split? heq
  rw [split?_serviceKey _ h, split?_serviceKey _ h'] at hsplit
  exact Prod.mk.inj (Option.some.inj hsplit)

end Address

namespace Cache

variable {cache : Cache} {key node text : String}

/-- The address of a node takes the place of those that the cache holds of the node. -/
theorem mem_textsAt_followData (source : String) {a : Address}
    (hnode : a.parameter? Address.nodeName = some node) :
    text ∈ (cache.followData source (some a)).textsAt key ↔
      if a.serviceKey = key then text = a.text ∨ text ∈ cache.textsAt key ∧ nodeOf text ≠ some node
      else text ∈ cache.textsAt key := by
  split
  · next hkey =>
    subst hkey
    simp only [followData, hnode, mem_textsAt_insert_self, mem_textsAt_removeWhere_self,
      beq_eq_false_iff_ne]
  · next hkey =>
    rw [textsAt_followData (by simpa [concerns] using hkey)]

end Cache

namespace Coordinator

/-- The address at a path, if there is one. -/
def addressAt? (c : Coordinator) (path : String) : Option Address :=
  (c.tree.data? path).bind fun text => (Address.parse text).toOption

/-- Whether an address at a path belongs there: it names a node, and the path is the one right below
the key of its service to that node. -/
def IsFiled (c : Coordinator) (path : String) : Prop :=
  ∀ a, c.addressAt? path = some a → ∃ node, a.parameter? Address.nodeName = some node ∧
    node ≠ "" ∧ '/' ∉ node.toList ∧ Key.join a.serviceKey node = path

variable {c : Coordinator} {query a : Address} {path node : String}

private theorem addressAt?_eq_some_iff : c.addressAt? path = some a ↔
    ∃ text, c.tree.data? path = some text ∧ Address.parse text = .ok a := by
  have hparse : ∀ text, (Address.parse text).toOption = some a ↔ Address.parse text = .ok a := by
    intro text
    cases Address.parse text <;> simp [Except.toOption]
  simp only [addressAt?, Option.bind_eq_some_iff, hparse]

/-- The address at a path that belongs there, if it belongs right below the key of a service, is of
that service and names that node. -/
theorem IsFiled.of_join (h : c.IsFiled (Key.join query.serviceKey node)) (hne : node ≠ "")
    (hslash : '/' ∉ node.toList) (ha : c.addressAt? (Key.join query.serviceKey node) = some a) :
    a.serviceKey = query.serviceKey ∧ a.parameter? Address.nodeName = some node := by
  obtain ⟨node', hnode', hne', hslash', hpath⟩ := h a ha
  rw [Address.join_serviceKey _ hne, Address.join_serviceKey _ hne'] at hpath
  obtain ⟨hkey, rfl⟩ := Address.childLead_serviceKey_inj hslash' hslash hpath
  exact ⟨hkey, hnode'⟩

/-- The text of the address at a path that belongs there names the node of the path. -/
theorem IsFiled.nodeOf_text (h : c.IsFiled (Key.join query.serviceKey node)) (hne : node ≠ "")
    (hslash : '/' ∉ node.toList) (ha : c.addressAt? (Key.join query.serviceKey node) = some a) :
    Cache.nodeOf a.text = some node := by
  obtain ⟨text, -, hparse⟩ := addressAt?_eq_some_iff.mp ha
  exact Address.nodeOf_text hparse (h.of_join hne hslash ha).2

/-- Whether what a cache holds of a node under a key is the text of the address there, or nothing if
there is none. -/
def Fits (c : Coordinator) (cache : Cache) (key node : String) : Prop :=
  ∀ text, (text ∈ cache.textsAt key ∧ Cache.nodeOf text = some node) ↔
    ∃ a, c.addressAt? (Key.join key node) = some a ∧ a.text = text

/-- Whether reading a path anew brings in order what a cache holds of a node under a key: the path
is the key itself, read as a service, or it is that of the node, and there is an address. -/
def Renews (c : Coordinator) (key node path : String) : Prop :=
  path = key ∧ c.tree.data? key = none ∨
    path = Key.join key node ∧ (c.addressAt? path).isSome = true

end Coordinator

namespace Membership

variable {c : Coordinator} {query : Address}

/-- Where all addresses right below a key belong there, they are those at the nodes of the key. -/
theorem mem_readChildren_iff_addressAt?
    (hfiled : ∀ name : String, '/' ∉ name.toList →
      c.IsFiled (Tree.childLead query.serviceKey ++ name)) {a : Address} :
    a ∈ readChildren c query.serviceKey ↔ ∃ node : String, node ≠ "" ∧ '/' ∉ node.toList ∧
      c.addressAt? (Key.join query.serviceKey node) = some a := by
  have hdata : ∀ path text, c.tree.content? path = some (some text) ↔
      c.tree.data? path = some text := by
    intro path text
    rw [Tree.content?, Tree.data?]
    cases c.tree[path]? <;> simp
  simp only [mem_readChildren_iff, hdata]
  constructor
  · rintro ⟨name, text, hslash, htext, hparse⟩
    have ha := Coordinator.addressAt?_eq_some_iff.mpr ⟨text, htext, hparse⟩
    have hne : name ≠ "" := by
      obtain ⟨node, -, hne, hslash', hpath⟩ := hfiled name hslash a ha
      rw [Address.join_serviceKey _ hne] at hpath
      obtain ⟨-, rfl⟩ := Address.childLead_serviceKey_inj hslash' hslash hpath
      exact hne
    exact ⟨name, hne, hslash, by rwa [Address.join_serviceKey _ hne]⟩
  · rintro ⟨node, hne, hslash, ha⟩
    rw [Address.join_serviceKey _ hne] at ha
    obtain ⟨text, htext, hparse⟩ := Coordinator.addressAt?_eq_some_iff.mp ha
    exact ⟨node, text, hslash, htext, hparse⟩

/-- A key is read anew as a service if its node has no data, as a node if it has an address, and not
at all if it has anything else. -/
theorem resync_cases (c : Coordinator) (cache : Cache) (path : String) :
    (c.tree.data? path = none ∧
      (resync c cache path).1 = cache.followChildren path (readChildren c path)) ∨
    (∃ a, c.addressAt? path = some a ∧
      (resync c cache path).1 = cache.followData path (some a)) ∨
    (c.tree.data? path ≠ none ∧ c.addressAt? path = none ∧ (resync c cache path).1 = cache) := by
  unfold resync Coordinator.addressAt?
  cases hdata : c.tree.data? path with
  | none => exact .inl ⟨rfl, rfl⟩
  | some text =>
    cases hparse : Address.parse text with
    | ok a =>
      refine .inr (.inl ⟨a, ?_, ?_⟩)
      · simp [hparse, Except.toOption]
      · simp [followData, hparse]
    | error f =>
      refine .inr (.inr ⟨Option.some_ne_none text, ?_, ?_⟩)
      · simp [hparse, Except.toOption]
      · simp [followData, hparse]

/-- A key that was read as a service is reflected. -/
theorem reflects_followChildren (c : Coordinator) (cache : Cache) (key : String) :
    Lookout.Reflects (cache.followChildren key (readChildren c key)) c key := by
  intro text
  rw [Cache.textsAt_followChildren, if_pos rfl, Std.ExtTreeSet.mem_ofList,
    List.contains_iff_mem, List.mem_map]

section Resync

variable {path node text : String} {cache : Cache} (hfiled : c.IsFiled path)
  (hchildren : ∀ name : String, '/' ∉ name.toList →
    c.IsFiled (Tree.childLead query.serviceKey ++ name))
  (hne : node ≠ "") (hslash : '/' ∉ node.toList)

include hchildren hne hslash

private theorem isFiled_join : c.IsFiled (Key.join query.serviceKey node) := by
  rw [Address.join_serviceKey _ hne]
  exact hchildren node hslash

/-- What the addresses right below a key have of a node is the address there. -/
theorem named_readChildren :
    ((∃ a ∈ readChildren c query.serviceKey, a.text = text) ∧ Cache.nodeOf text = some node) ↔
      ∃ a, c.addressAt? (Key.join query.serviceKey node) = some a ∧ a.text = text := by
  simp only [mem_readChildren_iff_addressAt? hchildren]
  constructor
  · rintro ⟨⟨a, ⟨node', hne', hslash', ha⟩, rfl⟩, hnode⟩
    rw [(isFiled_join hchildren hne' hslash').nodeOf_text hne' hslash' ha] at hnode
    obtain rfl := Option.some.inj hnode
    exact ⟨a, ha, rfl⟩
  · rintro ⟨a, ha, rfl⟩
    exact ⟨⟨a, ⟨node, hne, hslash, ha⟩, rfl⟩,
      (isFiled_join hchildren hne hslash).nodeOf_text hne hslash ha⟩

/-- A path that renews a node leaves the address of the node in the cache, and no other of it. -/
theorem named_resync_of_renews (h : c.Renews query.serviceKey node path) :
    (text ∈ (resync c cache path).1.textsAt query.serviceKey ∧ Cache.nodeOf text = some node) ↔
      ∃ a, c.addressAt? (Key.join query.serviceKey node) = some a ∧ a.text = text := by
  rcases h with ⟨rfl, hnone⟩ | ⟨rfl, hsome⟩
  · rcases resync_cases c cache query.serviceKey with ⟨-, hfollow⟩ | ⟨a, ha, -⟩ | ⟨hdata, -⟩
    · rw [hfollow, reflects_followChildren, named_readChildren hchildren hne hslash]
    · obtain ⟨_, htext, -⟩ := Coordinator.addressAt?_eq_some_iff.mp ha
      cases hnone.symm.trans htext
    · exact absurd hnone hdata
  · obtain ⟨a, ha⟩ := Option.isSome_iff_exists.mp hsome
    rcases resync_cases c cache (Key.join query.serviceKey node) with
      ⟨hnone, -⟩ | ⟨a', ha', hfollow⟩ | ⟨-, hnone, -⟩
    · obtain ⟨_, htext, -⟩ := Coordinator.addressAt?_eq_some_iff.mp ha
      cases hnone.symm.trans htext
    · obtain rfl := Option.some.inj (ha.symm.trans ha')
      have hfiled := isFiled_join hchildren hne hslash
      obtain ⟨hkey, hnode⟩ := hfiled.of_join hne hslash ha
      rw [hfollow, Cache.mem_textsAt_followData _ hnode, if_pos hkey, ha]
      constructor
      · rintro ⟨rfl | ⟨-, hother⟩, hnamed⟩
        · exact ⟨a, rfl, rfl⟩
        · exact absurd hnamed hother
      · rintro ⟨_, ⟨⟩, rfl⟩
        exact ⟨.inl rfl, hfiled.nodeOf_text hne hslash ha⟩
    · cases hnone.symm.trans ha

include hfiled

/-- A path that does not renew a node leaves what the cache holds of it. -/
theorem named_resync_of_not_renews (h : ¬c.Renews query.serviceKey node path) :
    (text ∈ (resync c cache path).1.textsAt query.serviceKey ∧ Cache.nodeOf text = some node) ↔
      (text ∈ cache.textsAt query.serviceKey ∧ Cache.nodeOf text = some node) := by
  rcases resync_cases c cache path with ⟨hnone, hfollow⟩ | ⟨a, ha, hfollow⟩ | ⟨-, -, hsame⟩
  · have hkey : path ≠ query.serviceKey := fun heq => h (.inl ⟨heq, heq ▸ hnone⟩)
    rw [hfollow, Cache.textsAt_followChildren, if_neg hkey]
  · obtain ⟨node', hnode', hne', hslash', rfl⟩ := hfiled a ha
    rw [hfollow, Cache.mem_textsAt_followData _ hnode']
    split
    · next hkey =>
      rw [hkey] at ha h
      have hother : node' ≠ node := by
        rintro rfl
        exact h (.inr ⟨rfl, Option.isSome_of_eq_some ha⟩)
      have htext := (isFiled_join hchildren hne' hslash').nodeOf_text hne' hslash' ha
      constructor
      · rintro ⟨rfl | ⟨hmem, -⟩, hnamed⟩
        · exact absurd (Option.some.inj (htext.symm.trans hnamed)) hother
        · exact ⟨hmem, hnamed⟩
      · rintro ⟨hmem, hnamed⟩
        refine ⟨.inr ⟨hmem, ?_⟩, hnamed⟩
        rw [hnamed]
        exact fun heq => hother (Option.some.inj heq).symm
    · rfl
  · rw [hsame]

/-- Reading a path anew leaves a node in order that was, and brings it in order if it renews it. -/
theorem fits_resync_iff : c.Fits (resync c cache path).1 query.serviceKey node ↔
    c.Renews query.serviceKey node path ∨ c.Fits cache query.serviceKey node := by
  by_cases h : c.Renews query.serviceKey node path
  · exact iff_of_true (fun _ => named_resync_of_renews hchildren hne hslash h) (.inl h)
  · rw [or_iff_right h]
    simp only [Coordinator.Fits, named_resync_of_not_renews hfiled hchildren hne hslash h]

end Resync

/-- A node is in order after several paths were read anew if it was before, or if any of them renews
it. -/
theorem fits_resyncAll_iff {order : List String} {node : String} {cache : Cache}
    (hfiled : ∀ path ∈ order, c.IsFiled path)
    (hchildren : ∀ name : String, '/' ∉ name.toList →
      c.IsFiled (Tree.childLead query.serviceKey ++ name))
    (hne : node ≠ "") (hslash : '/' ∉ node.toList) :
    c.Fits (resyncAll c cache order).1 query.serviceKey node ↔
      (∃ path ∈ order, c.Renews query.serviceKey node path) ∨
        c.Fits cache query.serviceKey node := by
  induction order generalizing cache with
  | nil => simp [resyncAll]
  | cons path rest ih =>
    rw [List.forall_mem_cons] at hfiled
    change c.Fits (resyncAll c (resync c cache path).1 rest).1 _ _ ↔ _
    rw [ih hfiled.2, fits_resync_iff hfiled.1 hchildren hne hslash]
    simp only [List.mem_cons, exists_eq_or_imp]
    exact or_left_comm.trans or_assoc.symm

section Reflects

variable {path : String} {cache : Cache} {order : List String}
  (hchildren : ∀ name : String, '/' ∉ name.toList →
    c.IsFiled (Tree.childLead query.serviceKey ++ name))

include hchildren

/-- Reading a path anew leaves a key reflected that is. -/
theorem reflects_resync (hfiled : c.IsFiled path)
    (h : Lookout.Reflects cache c query.serviceKey) :
    Lookout.Reflects (resync c cache path).1 c query.serviceKey := by
  rcases resync_cases c cache path with ⟨-, hfollow⟩ | ⟨a, ha, hfollow⟩ | ⟨-, -, hsame⟩
  · rw [hfollow]
    by_cases hkey : path = query.serviceKey
    · rw [hkey]
      exact reflects_followChildren c cache _
    · intro text
      rw [Cache.textsAt_followChildren, if_neg hkey, h text]
  · obtain ⟨node, hnode, hne, hslash, rfl⟩ := hfiled a ha
    intro text
    rw [hfollow, Cache.mem_textsAt_followData _ hnode]
    split
    · next hkey =>
      rw [hkey] at ha
      rw [h text]
      constructor
      · rintro (rfl | ⟨hchild, -⟩)
        · exact ⟨a, (mem_readChildren_iff_addressAt? hchildren).mpr ⟨node, hne, hslash, ha⟩, rfl⟩
        · exact hchild
      · intro hchild
        by_cases hnamed : Cache.nodeOf text = some node
        · obtain ⟨a', ha', rfl⟩ :=
            (named_readChildren hchildren hne hslash).mp ⟨hchild, hnamed⟩
          rw [Option.some.inj (ha.symm.trans ha')]
          exact .inl rfl
        · exact .inr ⟨hchild, hnamed⟩
    · exact h text
  · rwa [hsame]

private theorem reflects_resyncAll_of_reflects (hfiled : ∀ path ∈ order, c.IsFiled path)
    (h : Lookout.Reflects cache c query.serviceKey) :
    Lookout.Reflects (resyncAll c cache order).1 c query.serviceKey := by
  induction order generalizing cache with
  | nil => exact h
  | cons path rest ih =>
    rw [List.forall_mem_cons] at hfiled
    exact ih hfiled.2 (reflects_resync hchildren hfiled.1 h)

/-- A key whose node has no data is reflected once it is among the keys that were read anew. -/
theorem reflects_resyncAll (hfiled : ∀ path ∈ order, c.IsFiled path)
    (hnone : c.tree.data? query.serviceKey = none) (hmem : query.serviceKey ∈ order) :
    Lookout.Reflects (resyncAll c cache order).1 c query.serviceKey := by
  induction order generalizing cache with
  | nil => cases hmem
  | cons path rest ih =>
    rw [List.forall_mem_cons] at hfiled
    change Lookout.Reflects (resyncAll c (resync c cache path).1 rest).1 c _
    rcases List.mem_cons.mp hmem with rfl | hmem
    · refine reflects_resyncAll_of_reflects hchildren hfiled.2 ?_
      rcases resync_cases c cache query.serviceKey with ⟨-, hfollow⟩ | ⟨a, ha, -⟩ | ⟨hdata, -⟩
      · rw [hfollow]
        exact reflects_followChildren c cache _
      · obtain ⟨_, htext, -⟩ := Coordinator.addressAt?_eq_some_iff.mp ha
        cases hnone.symm.trans htext
      · exact absurd hnone hdata
    · exact ih hfiled.2 hmem

end Reflects

/-- After a member has read every watched key anew, in any order, a cache holds under the key of a
service just the addresses right below it, if the key is watched and its node has no data. Under
any key of a service, what it holds of a node is what stands there just if that is so, or if the
node is watched and has an address, or if it was so before: of a watched node that is gone the cache
keeps what it held. -/
theorem fits_resynced_iff (query : Address) {m : Membership} {order : List String} (cache : Cache)
    (hperm : order.Perm m.watched.toList)
    (hfiled : ∀ path, path ∈ m.watched ∨
      (∃ name, Key.split? path = some (query.serviceKey, name)) → c.IsFiled path) :
    (query.serviceKey ∈ m.watched → c.tree.data? query.serviceKey = none →
      Lookout.Reflects (resyncAll c cache order).1 c query.serviceKey) ∧
    ∀ node : String, node ≠ "" → '/' ∉ node.toList →
      (c.Fits (resyncAll c cache order).1 query.serviceKey node ↔
        query.serviceKey ∈ m.watched ∧ c.tree.data? query.serviceKey = none ∨
        Key.join query.serviceKey node ∈ m.watched ∧
          (c.addressAt? (Key.join query.serviceKey node)).isSome = true ∨
        c.Fits cache query.serviceKey node) := by
  have hmem : ∀ path, path ∈ order ↔ path ∈ m.watched := fun path => by
    rw [hperm.mem_iff, Std.ExtTreeSet.mem_toList]
  have hwatched : ∀ path ∈ order, c.IsFiled path := fun path hpath =>
    hfiled path (.inl ((hmem path).mp hpath))
  have hchildren : ∀ name : String, '/' ∉ name.toList →
      c.IsFiled (Tree.childLead query.serviceKey ++ name) := fun name hname =>
    hfiled _ (.inr ⟨name, query.split?_serviceKey hname⟩)
  refine ⟨fun hkey hnone => ?_, fun node hne hslash => ?_⟩
  · exact reflects_resyncAll hchildren hwatched hnone ((hmem _).mpr hkey)
  · rw [fits_resyncAll_iff hwatched hchildren hne hslash]
    simp only [hmem, Coordinator.Renews]
    constructor
    · rintro (⟨_, hpath, ⟨rfl, hnone⟩ | ⟨rfl, hsome⟩⟩ | hfits)
      · exact .inl ⟨hpath, hnone⟩
      · exact .inr (.inl ⟨hpath, hsome⟩)
      · exact .inr (.inr hfits)
    · rintro (⟨hpath, hnone⟩ | ⟨hpath, hsome⟩ | hfits)
      · exact .inl ⟨_, hpath, .inl ⟨rfl, hnone⟩⟩
      · exact .inl ⟨_, hpath, .inr ⟨rfl, hsome⟩⟩
      · exact .inr hfits

/-- The address of a provider. -/
def provider (port : UInt16) (node : String) : Address where
  protocol := some "quic"
  host := some "h"
  port := port
  path := some "s"
  parameters := .ofList [(Address.nodeName, node)]

/-- A coordinator with one node, which has the address of a provider. -/
def oneNode : Coordinator where
  tree := ((∅ : Tree).put "/s/k" (some (provider 2 "k").text) none).1

/-- A cache that knows two providers, of which one has moved since and the other one is gone. -/
def outdated : Cache :=
  ((({} : Cache).insert "/s" (provider 1 "k")).2.insert "/s" (provider 1 "n")).2

private theorem data?_oneNode {path text : String} : oneNode.tree.data? path = some text ↔
    path = "/s/k" ∧ some (provider 2 "k").text = some text := by
  rw [← Tree.content?_put_empty none]
  change _ ↔ (oneNode.tree[path]?).map _ = _
  rw [Tree.data?]
  cases oneNode.tree[path]? <;> simp

private theorem addressAt?_oneNode {path : String} {a : Address} :
    oneNode.addressAt? path = some a ↔ path = "/s/k" ∧ a = provider 2 "k" := by
  have hparse : Address.parse (provider 2 "k").text = .ok (provider 2 "k") := rfl
  rw [Coordinator.addressAt?_eq_some_iff]
  constructor
  · rintro ⟨text, htext, ha⟩
    obtain ⟨hpath, ⟨⟩⟩ := data?_oneNode.mp htext
    exact ⟨hpath, (Except.ok.inj (hparse.symm.trans ha)).symm⟩
  · rintro ⟨hpath, rfl⟩
    exact ⟨_, data?_oneNode.mpr ⟨hpath, rfl⟩, hparse⟩

/-- Of two providers that a member watches one by one, the one that has moved is right once all was
read anew, and the one that is gone is still there. Where the member watches the service as well,
all is right. -/
theorem fits_resynced_of_gone :
    let one : Membership := { session := 1, watched := .ofList ["/s/k", "/s/n"] }
    let all : Membership := { session := 1, watched := .ofList ["/s", "/s/k", "/s/n"] }
    oneNode.Fits (resyncAll oneNode outdated one.watched.toList).1 "/s" "k" ∧
      ¬oneNode.Fits (resyncAll oneNode outdated one.watched.toList).1 "/s" "n" ∧
      Lookout.Reflects (resyncAll oneNode outdated all.watched.toList).1 oneNode "/s" := by
  intro one all
  have hkey : (provider 2 "k").serviceKey = "/s" := by decide +kernel
  have hfiled : ∀ path, oneNode.IsFiled path := by
    intro path a ha
    obtain ⟨rfl, rfl⟩ := addressAt?_oneNode.mp ha
    refine ⟨"k", rfl, by decide, by decide, ?_⟩
    rw [hkey]
    rfl
  have hnone : oneNode.tree.data? "/s" = none :=
    Option.eq_none_iff_forall_ne_some.mpr fun text htext =>
      absurd (data?_oneNode.mp htext).1 (by decide)
  have hgone : oneNode.addressAt? (Key.join "/s" "n") = none :=
    Option.eq_none_iff_forall_ne_some.mpr fun a ha =>
      absurd (addressAt?_oneNode.mp ha).1 (by decide)
  obtain ⟨-, hone⟩ := fits_resynced_iff (provider 2 "k") outdated
    (.refl one.watched.toList) fun path _ => hfiled path
  obtain ⟨hall, -⟩ := fits_resynced_iff (provider 2 "k") outdated
    (.refl all.watched.toList) fun path _ => hfiled path
  rw [hkey] at hone hall
  refine ⟨?_, ?_, hall (by decide) hnone⟩
  · refine (hone "k" (by decide) (by decide)).mpr (.inr (.inl ⟨by decide, ?_⟩))
    exact Option.isSome_of_eq_some (addressAt?_oneNode.mpr ⟨rfl, rfl⟩)
  · rw [hone "n" (by decide) (by decide), hgone]
    rintro (⟨hwatched, -⟩ | ⟨-, ⟨⟩⟩ | hfits)
    · exact absurd hwatched (by decide)
    · have hstale : (provider 1 "n").text ∈ outdated.textsAt "/s" :=
        (Cache.mem_textsAt_insert_self _).mpr (.inl rfl)
      obtain ⟨a, ha, -⟩ := (hfits (provider 1 "n").text).mp ⟨hstale, rfl⟩
      cases hgone.symm.trans ha

end Membership

namespace Op

open Routine Board

/-- A registry whose place in the log was lost reads every watched key anew into its cache. -/
theorem entries_of_lagged {r : Nat} {b b' : Board} {steps : List (Board × Board)} {more : Bool}
    {position : Nat} (hheld : (b.registry r).isHeld = true)
    (hlag : b.coordinator.read (b.registry r).membership.position = .lagged position)
    (hcache : (b.registry r).cache < b.caches.size)
    (h : Trail (followLog r) steps more) (hleads : Leads Eq b steps b') :
    (b'.cache (b.registry r).cache).entries =
      (Membership.resyncAll b.coordinator (b.cache (b.registry r).cache)
        (b.registry r).membership.watched.toList).1.entries := by
  simp only [followLog, trail_bind_iff, trail_await_iff, trail_look_iff] at h
  obtain ⟨_, _, _, ⟨waited, -, rfl⟩, ⟨_, _, _, ⟨held, rfl, rfl⟩, hrest, rfl⟩, rfl⟩ := h
  obtain ⟨rfl, rfl, hleads⟩ := hleads
  rw [hheld] at hrest
  obtain ⟨_, _, _, hlook, hrest, rfl⟩ := trail_bind_iff.mp hrest
  obtain ⟨read, rfl, rfl⟩ := trail_look_iff.mp hlook
  obtain ⟨rfl, hleads⟩ := hleads
  rw [hlag] at hrest
  obtain ⟨_, _, _, habsorb, hpure, rfl⟩ := trail_bind_iff.mp hrest
  obtain ⟨rfl, -⟩ := trail_pure_iff.mp hpure
  rw [List.append_nil] at hleads
  exact entries_of_absorb hcache habsorb hleads

end Op

end Switchboard
