import Switchboard.Proofs.Registry.Lookout

/-!
# How fresh a watched key is

What a member caches under the key of a service is what stood right below the key when it read the
key last. The key is told whenever a node right below it comes or goes, but not when one of them is
given other data. So once everything that was told has been handled, the cache is up to date but
for the nodes whose data was replaced since the key was read, unless data that was put at a watched
path went into the cache under the key.
-/

namespace Switchboard

namespace Lookout

variable {key : String}

/-! ### Reading a key -/

/-- A cache holds what was seen below a key, unless something strayed to the key since. -/
def Recalls (key : String) (cache : Cache) (n : Notes) : Prop :=
  n.strayed = false → Reflects cache n.seen key

/-- Following the data at a path leaves what is recalled of a key, if it does not concern the
key. -/
theorem recalls_followData {cache : Cache} {n : Notes} (h : Recalls key cache n) (c : Coordinator)
    (path : String) (data : Option String) :
    Recalls key (Membership.followData cache path data).1
      ((Membership.followData cache path data).2.foldl (Notes.hear key c) n) := by
  have htold : ∀ address : Option Address, Recalls key (cache.followData path address)
      (n.hear key c (.data path address)) := by
    intro address
    cases hconcerns : Cache.concerns key path address with
    | true =>
      intro hstrayed
      simp [Notes.hear, hconcerns] at hstrayed
    | false =>
      simp only [Notes.hear, hconcerns, Bool.false_eq_true, if_false]
      intro hstrayed text
      rw [Cache.textsAt_followData hconcerns]
      exact h hstrayed text
  cases data with
  | none => exact htold none
  | some text =>
    simp only [Membership.followData]
    cases Address.parse text with
    | ok a => exact htold (some a)
    | error f => exact h

/-- Following the addresses below a key makes a cache recall them. -/
theorem recalls_followChildren {cache : Cache} {n : Notes} (h : Recalls key cache n)
    (c : Coordinator) (source : String) :
    Recalls key (Membership.followChildren c cache source).1
      ((Membership.followChildren c cache source).2.foldl (Notes.hear key c) n) := by
  simp only [Membership.followChildren, List.foldl_cons, List.foldl_nil, Notes.hear]
  intro hstrayed text
  rw [Cache.textsAt_followChildren]
  by_cases hsource : source = key
  · subst hsource
    simp only [if_pos]
    rw [Std.ExtTreeSet.mem_ofList]
    simp
  · rw [if_neg hsource] at hstrayed ⊢
    rw [if_neg hsource]
    exact h hstrayed text

/-- Reading keys anew leaves what is recalled of a key, or makes it what stands there. -/
theorem recalls_resyncAll (c : Coordinator) (keys : List String) {cache : Cache} {n : Notes}
    (h : Recalls key cache n) :
    Recalls key (Membership.resyncAll c cache keys).1
      ((Membership.resyncAll c cache keys).2.foldl (Notes.hear key c) n) := by
  induction keys generalizing cache n with
  | nil => exact h
  | cons first rest ih =>
    have hfirst : Recalls key (Membership.resync c cache first).1
        ((Membership.resync c cache first).2.foldl (Notes.hear key c) n) := by
      unfold Membership.resync
      split
      · exact recalls_followData h c first _
      · exact recalls_followChildren h c first
    simp only [Membership.resyncAll, List.foldl_append]
    exact ih hfirst

/-- Following an event leaves what is recalled of a key, or makes it what stands there. -/
theorem recalls_follow {cache : Cache} {n : Notes} (h : Recalls key cache n) (m : Membership)
    (c : Coordinator) (event : TreeEvent) :
    Recalls key (m.follow c cache event).1
      ((m.follow c cache event).2.foldl (Notes.hear key c) n) := by
  cases event with
  | dataChanged path data =>
    simp only [Membership.follow]
    split
    · exact recalls_followData h c path data
    · exact h
  | childrenChanged path =>
    simp only [Membership.follow]
    split
    · exact recalls_followChildren h c path
    · exact h
  | session id state =>
    simp only [Membership.follow]
    split <;> exact h

/-- What is heard leaves what was seen of a node, or makes it what stands there. -/
theorem keeps_hear {c : Coordinator} {n : Notes} {child : String}
    (h : n.seen.Keeps c n.replaced child) (notices : List Notice) :
    (notices.foldl (Notes.hear key c) n).seen.Keeps c
      (notices.foldl (Notes.hear key c) n).replaced child := by
  induction notices generalizing n with
  | nil => exact h
  | cons notice rest ih =>
    refine ih ?_
    cases notice with
    | data source address =>
      simp only [Notes.hear]
      split <;> exact h
    | children source addresses =>
      simp only [Notes.hear]
      split
      · exact .refl c child
      · exact h
    | state _ => exact h
    | newSession => exact h
    | establishmentError _ => exact h

/-! ### What holds all along -/

/-- What holds of a lookout for a key all along. -/
structure Sound (key : String) (l : Lookout) : Prop where
  watched : key ∈ l.member.watched
  position_le : l.member.position ≤ l.coordinator.log.size
  recalls : Recalls key l.cache l.notes
  /-- A node right below the key is as it was seen, but for its data if that was replaced, or the
  key is about to be told. -/
  keeps : ∀ child name, Key.split? child = some (key, name) →
    l.coordinator.IsUnread l.member.position (.childrenChanged key) ∨
      l.notes.seen.Keeps l.coordinator l.notes.replaced child

namespace Sound

variable {l : Lookout}

/-- Whatever somebody does below a key, the key is told of it, or it is a replacement of data. -/
theorem after (h : Sound key l) (move : Coordinator.Move) : Sound key (l.after move) where
  watched := h.watched
  position_le := Nat.le_trans h.position_le (l.coordinator.tells_after move).size_le
  recalls := h.recalls
  keeps := by
    intro child name hsplit
    rcases h.keeps child name hsplit with hunread | hkept
    · exact .inl (hunread.tells (l.coordinator.tells_after move))
    · exact (l.coordinator.told_after hsplit move).imp (fun htold => htold.isUnread h.position_le)
        hkept.trans

private theorem run (h : Sound key l) (moves : List Coordinator.Move) :
    Sound key (moves.foldl Lookout.after l) := by
  induction moves generalizing l with
  | nil => exact h
  | cons move rest ih => exact ih (h.after move)

private theorem coordinator_run (l : Lookout) (moves : List Coordinator.Move) :
    (moves.foldl Lookout.after l).coordinator = moves.foldl Coordinator.after l.coordinator := by
  induction moves generalizing l with
  | nil => rfl
  | cons move rest ih => exact ih (l.after move)

/-- What is done by other means than moves, but as moves would, keeps a lookout sound. -/
theorem run_eq (h : Sound key l) {moves : List Coordinator.Move} {c : Coordinator}
    (hc : c = moves.foldl Coordinator.after l.coordinator) :
    Sound key { moves.foldl Lookout.after l with coordinator := c } := by
  rw [hc, ← coordinator_run]
  exact h.run moves

/-- Reading on makes what was told of a key what was seen. -/
theorem follow (h : Sound key l) : Sound key (l.follow key) := by
  unfold Lookout.follow
  rcases l.coordinator.read_cases l.member.position with
    ⟨-, hread⟩ | ⟨-, event, hevent, hread⟩ | ⟨-, hread⟩
  · rw [hread]
    exact h
  · rw [hread]
    refine ⟨h.watched, ?_, recalls_follow h.recalls l.member l.coordinator event, ?_⟩
    · obtain ⟨hlt, -⟩ := Array.getElem?_eq_some_iff.mp hevent
      exact hlt
    · intro child name hsplit
      by_cases hkey : event = .childrenChanged key
      · have hwatched : l.member.watched.contains key = true := h.watched
        refine .inr ?_
        simp only [hkey, Membership.follow, hwatched, if_true, hear, Membership.followChildren,
          List.foldl_cons, List.foldl_nil, Notes.hear]
        exact .refl _ child
      · refine (h.keeps child name hsplit).imp ?_ fun hkept => keeps_hear hkept _
        rintro ⟨i, hi, hget⟩
        refine ⟨i, Nat.lt_of_le_of_ne hi ?_, hget⟩
        rintro rfl
        exact hkey (Option.some.inj (hevent.symm.trans hget))
  · rw [hread]
    exact h

/-- Every step keeps a lookout sound. -/
theorem step {l' : Lookout} (h : Sound key l) (hs : Step key l l') : Sound key l' := by
  cases hs with
  | move move => exact h.after move
  | register other cache a => exact h.run_eq (other.coordinator_register _ cache a)
  | unregister other cache a => exact h.run_eq (other.coordinator_unregister _ cache a)
  | watch watched hkey => exact ⟨hkey, h.position_le, h.recalls, h.keeps⟩
  | follow => exact h.follow
  | renew => exact ⟨h.watched, h.position_le, h.recalls, h.keeps⟩
  | restore order hperm =>
    refine ⟨h.watched, h.position_le, recalls_resyncAll l.coordinator order h.recalls, ?_⟩
    intro child name hsplit
    exact (h.keeps child name hsplit).imp_right fun hkept => keeps_hear hkept _

end Sound

/-- Every run of a lookout is sound. -/
theorem Reachable.sound {l : Lookout} (h : Reachable key l) : Sound key l := by
  induction h with
  | start c cache watched hkey hreflects =>
    exact ⟨hkey, Nat.le_refl _, fun _ => hreflects, fun child _ _ => .inr (.refl _ child)⟩
  | step _ hs ih => exact ih.step hs

/-- A member may read on any number of times. -/
theorem Reachable.follows {l : Lookout} (h : Reachable key l) (n : Nat) :
    Reachable key (Nat.repeat (follow key) n l) := by
  induction n with
  | zero => exact h
  | succ n ih => exact ih.step (.follow _)

/-! ### Freshness -/

/-- Nodes that are kept are the children that were seen. -/
theorem sameChildren_of_keeps {c c' : Coordinator} {replaced : List String}
    (h : ∀ name, '/' ∉ name.toList → c.Keeps c' replaced (Tree.childLead key ++ name)) :
    SameChildren key replaced c c' := by
  intro name
  simp only [Tree.mem_children_iff]
  by_cases hslash : '/' ∈ name.toList
  · simp [hslash]
  · obtain ⟨hsome, hsame⟩ := h name hslash
    simp only [hslash, not_false_eq_true, true_and]
    refine ⟨?_, fun hm data => by rw [hsame hm]⟩
    rw [← Option.isSome_iff_exists, ← Option.isSome_iff_exists, hsome]

/-- The same children with the same data are read as the same addresses. -/
theorem mem_readChildren_congr {c c' : Coordinator}
    (h : ∀ name data, (name, data) ∈ c.tree.children key ↔ (name, data) ∈ c'.tree.children key)
    (a : Address) : a ∈ Membership.readChildren c key ↔ a ∈ Membership.readChildren c' key := by
  simp only [Membership.readChildren, List.mem_filterMap, Prod.exists, h]

/-- An empty cache holds all that an empty tree has. -/
theorem reflects_empty (key : String) : Reflects {} {} key := by
  have hnone : (∅ : Tree).children key = [] := by
    refine List.eq_nil_iff_forall_not_mem.mpr ?_
    rintro ⟨name, data⟩ hm
    simp [Tree.mem_children_iff, Tree.content?] at hm
  intro text
  simp [Cache.textsAt, Membership.readChildren, hnone]

/-- A cache that holds the texts of the addresses below a key holds equal addresses, if each of
them is what its text is read as. -/
theorem Reflects.sameAddresses {l : Lookout} (h : Reflects l.cache l.coordinator key)
    (hread : ∀ b, b ∈ l.readable key → ∃ a, Address.parse b.text = .ok a ∧ (a == b) = true) :
    SameAddresses (l.cached key) (l.readable key) := by
  constructor
  · intro a ha
    obtain ⟨text, htext, hparse⟩ := Cache.mem_addresses_iff.mp ha
    obtain ⟨b, hb, rfl⟩ := (h text).mp htext
    obtain ⟨a', hparse', heq⟩ := hread b hb
    rw [hparse] at hparse'
    cases hparse'
    exact ⟨b, hb, heq⟩
  · intro b hb
    obtain ⟨a, hparse, heq⟩ := hread b hb
    exact ⟨a, Cache.mem_addresses_iff.mpr ⟨b.text, (h b.text).mpr ⟨b, hb, rfl⟩, hparse⟩, heq⟩

/-- Once everything that was told has been handled, and nothing strayed to the key of a service, the
cache holds under the key just the texts of the addresses that stood right below the key when it was
read last. The same nodes stand there still, with the same data but where it was replaced. If it was
replaced nowhere, the cache is up to date. -/
theorem Reachable.cache_reflects_seen {query : Address} {l : Lookout}
    (h : Reachable query.serviceKey l) (hquiet : l.IsQuiet) (hstrayed : l.notes.strayed = false) :
    Reflects l.cache l.notes.seen query.serviceKey ∧
      SameChildren query.serviceKey l.notes.replaced l.notes.seen l.coordinator ∧
      ((∀ name data, (name, data) ∈ l.coordinator.tree.children query.serviceKey →
          Tree.childLead query.serviceKey ++ name ∉ l.notes.replaced) →
        Reflects l.cache l.coordinator query.serviceKey ∧
          ((∀ b, b ∈ l.readable query.serviceKey →
              ∃ a, Address.parse b.text = .ok a ∧ (a == b) = true) →
            SameAddresses (l.cached query.serviceKey) (l.readable query.serviceKey))) := by
  have hsound := h.sound
  have hseen := hsound.recalls hstrayed
  have hnothing : ∀ event, ¬ l.coordinator.IsUnread l.member.position event := by
    rintro event ⟨i, hi, hget⟩
    obtain ⟨hlt, -⟩ := Array.getElem?_eq_some_iff.mp hget
    have hsize := Coordinator.read_eq_nothing_iff.mp hquiet
    omega
  have hsame : SameChildren query.serviceKey l.notes.replaced l.notes.seen l.coordinator := by
    refine sameChildren_of_keeps fun name hslash => ?_
    have hsplit := query.split?_serviceKey hslash
    exact (hsound.keeps _ name hsplit).resolve_left (hnothing _)
  refine ⟨hseen, hsame, fun hunreplaced => ?_⟩
  have hchildren : ∀ name data, (name, data) ∈ l.notes.seen.tree.children query.serviceKey ↔
      (name, data) ∈ l.coordinator.tree.children query.serviceKey := by
    intro name data
    obtain ⟨hnames, hdata⟩ := hsame name
    constructor
    · intro hm
      obtain ⟨data', hm'⟩ := hnames.mp ⟨data, hm⟩
      exact (hdata (hunreplaced name data' hm') data).mp hm
    · intro hm
      exact (hdata (hunreplaced name data hm) data).mpr hm
  have hfresh : Reflects l.cache l.coordinator query.serviceKey := by
    intro text
    simp only [hseen text, mem_readChildren_congr hchildren]
  exact ⟨hfresh, hfresh.sameAddresses⟩

/-- Whoever watches a service hears of an address that is registered, but not of another one that
replaces it at its path. -/
theorem reflects_until_replaced :
    let query : Address := { path := some "g/s" }
    let old := ({ host := some "a", port := 1, path := some "g/s" } : Address).withParameter
      Address.nodeName "n"
    let new := old.withHost "b"
    let joined := (join {} {} {query.serviceKey}).after .openSession
    let fresh := Nat.repeat (follow query.serviceKey) 4 (joined.register { session := 2 } {} old)
    let stale := (fresh.register { session := 2 } {} new).follow query.serviceKey
    (fresh.IsQuiet ∧ Reflects fresh.cache fresh.coordinator query.serviceKey) ∧
      stale.IsQuiet ∧ Reflects stale.cache stale.notes.seen query.serviceKey ∧
        ¬ Reflects stale.cache stale.coordinator query.serviceKey := by
  intro query old new joined fresh stale
  have hjoined : Reachable query.serviceKey joined :=
    (Reachable.start {} {} {query.serviceKey} (by simp) (reflects_empty _)).step
      (.move _ .openSession)
  have hfresh : Reachable query.serviceKey fresh :=
    (hjoined.step (.register _ { session := 2 } {} old)).follows 4
  have hstale : Reachable query.serviceKey stale :=
    (hfresh.step (.register _ { session := 2 } {} new)).step (.follow _)
  have hquietFresh : fresh.IsQuiet := by
    unfold IsQuiet
    decide +kernel
  have hquietStale : stale.IsQuiet := by
    unfold IsQuiet
    decide +kernel
  have hreplaced : fresh.notes.replaced = [] := by decide +kernel
  obtain ⟨-, -, hunreplaced⟩ := hfresh.cache_reflects_seen hquietFresh (by decide +kernel)
  obtain ⟨hseen, -, -⟩ := hstale.cache_reflects_seen hquietStale (by decide +kernel)
  refine ⟨⟨hquietFresh, (hunreplaced ?_).1⟩, hquietStale, hseen, fun hreflects => ?_⟩
  · intro name data _
    simp [hreplaced]
  · have hthere : new.text ∈
        (Membership.readChildren stale.coordinator query.serviceKey).map Address.text := by
      decide +kernel
    have hcached : (stale.cache.textsAt query.serviceKey).contains new.text = false := by
      decide +kernel
    have hmem : new.text ∈ stale.cache.textsAt query.serviceKey :=
      (hreflects new.text).mpr (List.mem_map.mp hthere)
    rw [← Std.ExtTreeSet.contains_iff_mem, hcached] at hmem
    cases hmem

end Lookout

end Switchboard
