import Switchboard.Proofs.Exchange.Table

/-!
# The invariant of an exchange among its callers

A scene is sound when every promise was opened under the number of its own place, the table holds
at most the entry of that number for it, handles are counted right, and no promise that a caller
still waits for is missing from the table. Every act keeps a scene sound, so every run does.
-/

namespace Switchboard.Exchange

/-- Whether the table holds the entry of a promise. -/
def isFiled (x : Exchange) (p : PromiseId) : Bool := x.entries[number p]?.isSome

namespace Scene

/-- The table and the handles account for every promise that was opened. -/
structure Sound (s : Scene) : Prop where
  /-- Numbers have not come round. -/
  size_lt : s.store.size < 2 ^ 64
  length_opened : s.opened.length = s.store.size
  mem_opened : ∀ id p, (id, p) ∈ s.opened ↔ p < s.store.size ∧ id = number p
  nextId_eq : s.exchange.nextId = number s.store.size
  numbered : s.exchange.Numbered s.store.size
  /-- An entry knows the connection that was noted last for its number. -/
  connection_eq : ∀ id e, s.exchange.entries[id]? = some e → e.connection = s.sent.lookup id
  sent_lt : ∀ id c, (id, c) ∈ s.sent → ∃ p, p < s.store.size ∧ id = number p
  held_lt : ∀ p, p ∈ s.held → p < s.store.size
  /-- The callers and the table hold all handles. -/
  handles_eq : ∀ p, p < s.store.size →
    (s.store.get p).handles = s.held.count p + (s.exchange.isFiled p).toNat
  /-- Whoever waits for a promise finds it in the table. -/
  filed_of_pending : ∀ p, p ∈ s.held → s.IsPending p → s.exchange.isFiled p = true

/-- A new exchange is sound. -/
theorem sound_empty : Sound {} := by
  constructor <;> simp [Numbered, Promises.size, number]

namespace Sound

variable {s : Scene}

/-- The entry under the number of a promise is the entry of that promise. -/
theorem promise_eq (h : Sound s) {p : PromiseId} (hp : p < s.store.size) {e : Entry}
    (he : s.exchange.entries[number p]? = some e) : e.promise = p := by
  obtain ⟨hlt, hid⟩ := h.numbered _ e he
  have hs := h.size_lt
  exact ((number_inj (Nat.lt_trans hp hs) (Nat.lt_trans hlt hs)).mp hid).symm

/-- A pending promise is in the table as long as any handle on it is left. -/
theorem isFiled_of_handles (h : Sound s) {p : PromiseId} (hp : p < s.store.size)
    (hpend : s.IsPending p) (hleft : 0 < (s.store.get p).handles) :
    s.exchange.isFiled p = true := by
  cases hf : s.exchange.isFiled p with
  | true => rfl
  | false =>
    rw [h.handles_eq p hp, hf, Bool.toNat_false, Nat.add_zero, List.count_pos_iff] at hleft
    rw [h.filed_of_pending p hleft hpend] at hf
    cases hf

/-- Taking entries out keeps a scene sound as long as the table gives up just the handles that go
with them and keeps every promise that stays pending. -/
theorem remove (h : Sound s) {entries : Std.ExtTreeMap UInt64 Entry} {store : Promises}
    (hsize : store.size = s.store.size)
    (hentries : ∀ (id : UInt64) (e : Entry),
      entries[id]? = some e → s.exchange.entries[id]? = some e)
    (hhandles : ∀ p, p < s.store.size →
      (store.get p).handles + (s.exchange.isFiled p).toNat =
        (s.store.get p).handles + entries[number p]?.isSome.toNat)
    (hlive : ∀ p, p ∈ s.held → (store.get p).outcome = none →
      s.IsPending p ∧ (s.exchange.isFiled p = true → entries[number p]?.isSome = true)) :
    Sound (s.update ({ s.exchange with entries }, store)) where
  size_lt := by
    change store.size < _
    rw [hsize]
    exact h.size_lt
  length_opened := by
    change _ = store.size
    rw [hsize]
    exact h.length_opened
  mem_opened := by
    intro id p
    change _ ↔ p < store.size ∧ _
    rw [hsize]
    exact h.mem_opened id p
  nextId_eq := by
    change s.exchange.nextId = number store.size
    rw [hsize]
    exact h.nextId_eq
  numbered := by
    intro id e he
    change e.promise < store.size ∧ _
    rw [hsize]
    exact h.numbered id e (hentries id e he)
  connection_eq := fun id e he => h.connection_eq id e (hentries id e he)
  sent_lt := by
    intro id c hc
    change ∃ p, p < store.size ∧ _
    rw [hsize]
    exact h.sent_lt id c hc
  held_lt := by
    intro p hp
    change p < store.size
    rw [hsize]
    exact h.held_lt p hp
  handles_eq := by
    intro p hp
    change p < store.size at hp
    rw [hsize] at hp
    have hh := hhandles p hp
    rw [h.handles_eq p hp] at hh
    change (store.get p).handles = s.held.count p + entries[number p]?.isSome.toNat
    omega
  filed_of_pending := by
    intro p hp hpend
    obtain ⟨hbefore, hkeep⟩ := hlive p hp hpend
    exact hkeep (h.filed_of_pending p hp hbefore)

/-- The handles of a promise, once the entries that satisfy a condition have given theirs up. -/
theorem handles_filter (h : Sound s) (lost : Entry → Bool) {p : PromiseId}
    (hp : p < s.store.size) {store : Promises}
    (hstore : (store.get p).handles = (s.store.get p).handles -
      (promisesOf (s.exchange.entries.toList.filter fun entry => lost entry.2)).count p) :
    (store.get p).handles + (s.exchange.isFiled p).toNat =
      (s.store.get p).handles + (s.exchange.entries[number p]?.any fun e => !lost e).toNat := by
  have hcount := (nodup_promisesOf h.numbered fun entry => lost entry.2).count (a := p)
  have hmem := mem_promisesOf_filter h.numbered (Nat.le_of_lt h.size_lt) hp lost
  have hhandles := h.handles_eq p hp
  rw [hstore, hcount]
  simp only [hmem]
  cases he : s.exchange.entries[number p]? with
  | none => simp [isFiled, he]
  | some e =>
    simp only [isFiled, he, Option.isSome_some, Bool.toNat_true, Option.any_some] at hhandles ⊢
    by_cases hl : lost e = true
    · simp only [hl, if_true, Bool.not_true, Bool.toNat_false, Nat.add_zero]
      omega
    · simp [hl]

/-- Sweeping the table keeps a scene sound: a promise that a caller waits for is shared. -/
theorem sweep (h : Sound s) : Sound (s.update (s.exchange.sweep s.store)) := by
  by_cases hlt : s.exchange.pending < sweepAt
  · simpa [Exchange.sweep, hlt, update] using h
  · simp only [Exchange.sweep, hlt, if_false]
    apply h.remove (size_releaseEntries _ _)
    · intro id e he
      rw [Std.ExtTreeMap.getElem?_filter', Option.filter_eq_some_iff] at he
      exact he.1
    · intro p hp
      have hh := h.handles_filter (fun e => !isLive s.store e) hp
        (handles_releaseEntries s.store _ hp)
      rw [hh]
      simp only [Std.ExtTreeMap.getElem?_filter', Option.isSome_filter, Bool.not_not]
    · intro p hp hpend
      rw [outcome_releaseEntries] at hpend
      refine ⟨hpend, ?_⟩
      intro hf
      obtain ⟨e, he⟩ := Option.isSome_iff_exists.mp hf
      have hep := h.promise_eq (h.held_lt p hp) he
      have hhandles := h.handles_eq p (h.held_lt p hp)
      have hcount : 0 < s.held.count p := List.count_pos_iff.mpr hp
      rw [hf, Bool.toNat_true] at hhandles
      have hlive : isLive s.store e = true := by
        simp only [isLive, hep, Promise.isDone, hpend, Promise.isShared, hhandles]
        simp
        omega
      simp [he, hlive]

/-- Completing a request keeps a scene sound. -/
theorem finish (h : Sound s) (id : UInt64) (o : Outcome Response) :
    Sound (s.update (s.exchange.finish s.store id o).2) := by
  cases he : s.exchange.entries[id]? with
  | none => simpa [Exchange.finish, he, update] using h
  | some e =>
    simp only [Exchange.finish, he]
    obtain ⟨hlt, rfl⟩ := h.numbered id e he
    have hs := h.size_lt
    have hfiled : ∀ q, q < s.store.size →
        (s.exchange.entries.erase (number e.promise))[number q]?.isSome =
          (s.exchange.isFiled q && decide (e.promise ≠ q)) := by
      intro q hq
      simp only [isFiled, Std.ExtTreeMap.getElem?_erase, Std.LawfulEqCmp.compare_eq_iff_eq,
        number_inj (Nat.lt_trans hlt hs) (Nat.lt_trans hq hs)]
      by_cases heq : e.promise = q <;> simp [heq]
    apply h.remove (by simp)
    · intro id' e' he'
      rw [Std.ExtTreeMap.getElem?_erase] at he'
      split at he'
      · cases he'
      · exact he'
    · intro q hq
      rw [hfiled q hq, Promises.handles_release, Promises.handles_complete,
        Promises.size_complete]
      have hhandles := h.handles_eq q hq
      by_cases heq : e.promise = q
      · subst heq
        have hf : s.exchange.isFiled e.promise = true := by simp [isFiled, he]
        rw [hf] at hhandles ⊢
        simp [hq] at hhandles ⊢
        omega
      · simp [heq]
    · intro q hq hpend
      have hqs := h.held_lt q hq
      rw [Promises.outcome_release, Promises.outcome_complete] at hpend
      by_cases heq : e.promise = q
      · simp [heq, hqs] at hpend
      · rw [if_neg (fun hc => heq hc.1)] at hpend
        refine ⟨hpend, ?_⟩
        intro hf
        rw [hfiled q hqs, hf]
        simp [heq]

/-- Failing requests in bulk keeps a scene sound. -/
theorem failWhere (h : Sound s) (f : Failure) (lost : Entry → Bool) :
    Sound (s.update (s.exchange.failWhere s.store f lost).2) := by
  simp only [Exchange.failWhere]
  have hfiled : ∀ q : PromiseId,
      (s.exchange.entries.filter fun _ entry => !lost entry)[number q]?.isSome =
        s.exchange.entries[number q]?.any fun e => !lost e := by
    intro q
    simp only [Std.ExtTreeMap.getElem?_filter', Option.isSome_filter]
  apply h.remove (size_failEntries _ _ _)
  · intro id e he
    rw [Std.ExtTreeMap.getElem?_filter', Option.filter_eq_some_iff] at he
    exact he.1
  · intro p hp
    rw [hfiled p]
    exact h.handles_filter lost hp (handles_failEntries s.store f _ hp)
  · intro p hp hpend
    have hps := h.held_lt p hp
    rw [outcome_failEntries s.store f _ hps] at hpend
    split at hpend
    · cases hpend
    · next hm =>
      rw [mem_promisesOf_filter h.numbered (Nat.le_of_lt h.size_lt) hps] at hm
      refine ⟨hpend, ?_⟩
      intro hf
      obtain ⟨e, he⟩ := Option.isSome_iff_exists.mp hf
      rw [hfiled p, he]
      rw [he] at hm
      simpa using hm

/-- The number of the next request is not in the table. -/
theorem fresh (h : Sound s) : s.exchange.entries[s.exchange.nextId]? = none := by
  cases he : s.exchange.entries[s.exchange.nextId]? with
  | none => rfl
  | some e =>
    obtain ⟨hlt, hid⟩ := h.numbered _ e he
    rw [h.nextId_eq, number_inj h.size_lt (Nat.lt_trans hlt h.size_lt)] at hid
    rw [← hid] at hlt
    exact absurd hlt (Nat.lt_irrefl _)

/-- No connection was noted yet for the number of the next request. -/
theorem lookup_sent_nextId (h : Sound s) : s.sent.lookup s.exchange.nextId = none := by
  rw [List.lookup_eq_none_iff]
  intro entry hm
  obtain ⟨p, hp, hid⟩ := h.sent_lt entry.1 entry.2 hm
  rw [h.nextId_eq, hid, bne_iff_ne]
  intro heq
  rw [number_inj h.size_lt (Nat.lt_trans hp h.size_lt)] at heq
  rw [← heq] at hp
  exact absurd hp (Nat.lt_irrefl _)

private theorem isSome_file (h : Sound s) (e : Entry) {p : PromiseId} (hp : p ≤ s.store.size) :
    (s.exchange.entries.insert s.exchange.nextId e)[number p]?.isSome =
      (decide (p = s.store.size) || s.exchange.isFiled p) := by
  rw [entries_insert, h.nextId_eq]
  simp only [number_inj h.size_lt (Nat.lt_of_le_of_lt hp h.size_lt)]
  by_cases heq : s.store.size = p
  · simp [heq]
  · simp [heq, Ne.symm heq, isFiled]

private theorem count_held_size (h : Sound s) : s.held.count s.store.size = 0 := by
  apply List.count_eq_zero.mpr
  intro hm
  exact absurd (h.held_lt _ hm) (Nat.lt_irrefl _)

/-- Filing a new promise under the next number keeps a scene sound. -/
theorem file (h : Sound s) (hlt : s.store.size + 1 < 2 ^ 64) :
    Sound { s with
      exchange :=
        { nextId := s.exchange.nextId + 1
          entries := s.exchange.entries.insert s.exchange.nextId { promise := s.store.size } }
      store := (s.store.add Promise.pending.hold).2
      held := s.store.size :: s.held
      opened := (s.exchange.nextId, s.store.size) :: s.opened } where
  size_lt := by
    rw [Promises.size_add]
    exact hlt
  length_opened := by
    rw [Promises.size_add, List.length_cons, h.length_opened]
  mem_opened := by
    intro id p
    rw [Promises.size_add, List.mem_cons, h.mem_opened, Prod.mk.injEq, h.nextId_eq]
    constructor
    · rintro (⟨rfl, rfl⟩ | ⟨hp, rfl⟩)
      · exact ⟨Nat.lt_succ_self _, rfl⟩
      · exact ⟨Nat.lt_succ_of_lt hp, rfl⟩
    · rintro ⟨hp, rfl⟩
      rcases Nat.lt_succ_iff_lt_or_eq.mp hp with hp | rfl
      · exact .inr ⟨hp, rfl⟩
      · exact .inl ⟨rfl, rfl⟩
  nextId_eq := by
    rw [Promises.size_add]
    change s.exchange.nextId + 1 = _
    rw [h.nextId_eq]
    simp [number]
  numbered := by
    rw [Promises.size_add]
    exact (h.numbered.mono (Nat.le_succ _)).insert (Nat.lt_succ_self _) h.nextId_eq
  connection_eq := by
    intro id e he
    rw [entries_insert] at he
    split at he
    · next heq =>
      cases he
      rw [← heq]
      exact h.lookup_sent_nextId.symm
    · exact h.connection_eq id e he
  sent_lt := by
    intro id c hc
    obtain ⟨p, hp, hid⟩ := h.sent_lt id c hc
    rw [Promises.size_add]
    exact ⟨p, Nat.lt_succ_of_lt hp, hid⟩
  held_lt := by
    intro p hp
    rw [Promises.size_add]
    rcases List.mem_cons.mp hp with rfl | hp
    · exact Nat.lt_succ_self _
    · exact Nat.lt_succ_of_lt (h.held_lt p hp)
  handles_eq := by
    intro p hp
    rw [Promises.size_add] at hp
    have hle : p ≤ s.store.size := Nat.le_of_lt_succ hp
    change ((s.store.add Promise.pending.hold).2.get p).handles =
      (s.store.size :: s.held).count p + _[number p]?.isSome.toNat
    rw [h.isSome_file _ hle, Promises.get_add, List.count_cons]
    by_cases heq : p = s.store.size
    · subst heq
      simp [h.count_held_size, Promise.hold, Promise.pending]
    · simp [heq, Ne.symm heq, h.handles_eq p (Nat.lt_of_le_of_ne hle heq)]
  filed_of_pending := by
    intro p hp hpend
    change _[number p]?.isSome = true
    rcases List.mem_cons.mp hp with rfl | hp
    · rw [h.isSome_file _ (Nat.le_refl _)]
      simp
    · have hlt' := h.held_lt p hp
      have hpend' : s.IsPending p := by
        unfold IsPending at hpend ⊢
        rw [Promises.get_add, if_neg (Nat.ne_of_lt hlt')] at hpend
        exact hpend
      rw [h.isSome_file _ (Nat.le_of_lt hlt')]
      simp [h.filed_of_pending p hp hpend']

/-- Taking a request up keeps a scene sound. -/
theorem take (h : Sound s) (hlt : s.store.size + 1 < 2 ^ 64) : Sound (s.after .take) := by
  have hsweep := h.sweep
  have hsize := size_sweep s.exchange s.store
  have hnext := nextId_sweep s.exchange s.store
  have hfile := hsweep.file (by
    change (s.exchange.sweep s.store).2.size + 1 < _
    rw [hsize]
    exact hlt)
  have hfresh := hsweep.fresh
  change (s.exchange.sweep s.store).1.entries[(s.exchange.sweep s.store).1.nextId]? = none at hfresh
  rw [hnext] at hfresh
  simp only [update, hnext] at hfile
  simpa only [after, Exchange.take, hfresh, Promises.add, Promises.size] using hfile

/-- An entry that is there may be replaced by another one for the same promise, with the connection
noted for it. -/
theorem note (h : Sound s) {id : UInt64} {e : Entry} (he : s.exchange.entries[id]? = some e)
    (c : ConnectionId) :
    Sound { s with
      exchange :=
        { s.exchange with
          entries := s.exchange.entries.insert id { e with connection := some c } }
      sent := (id, c) :: s.sent } where
  size_lt := h.size_lt
  length_opened := h.length_opened
  mem_opened := h.mem_opened
  nextId_eq := h.nextId_eq
  numbered := by
    obtain ⟨hlt, hid⟩ := h.numbered id e he
    exact h.numbered.insert hlt hid
  connection_eq := by
    intro id' e' he'
    rw [entries_insert] at he'
    rw [List.lookup_cons]
    split at he'
    · next heq =>
      cases he'
      simp [heq]
    · next hne =>
      rw [beq_eq_false_iff_ne.mpr (Ne.symm hne)]
      exact h.connection_eq id' e' he'
  sent_lt := by
    intro id' c' hc'
    rcases List.mem_cons.mp hc' with heq | hc'
    · cases heq
      exact ⟨e.promise, h.numbered id e he⟩
    · exact h.sent_lt id' c' hc'
  held_lt := h.held_lt
  handles_eq := by
    intro p hp
    rw [h.handles_eq p hp]
    congr 2
    rw [isFiled, isFiled, entries_insert]
    by_cases heq : id = number p
    · rw [← heq, he]
      simp
    · simp [heq]
  filed_of_pending := by
    intro p hp hpend
    have hf := h.filed_of_pending p hp hpend
    rw [isFiled, entries_insert]
    split
    · rfl
    · exact hf

/-- Noting a connection keeps a scene sound. -/
theorem sentOn (h : Sound s) (id : UInt64) (c : ConnectionId) : Sound (s.after (.sentOn id c)) := by
  cases he : s.exchange.entries[id]? with
  | none => simpa [after, Exchange.sentOn, he] using h
  | some e =>
    simp only [after, Exchange.sentOn, he, if_true]
    exact h.note he c

/-- A caller that completes a promise it holds keeps a scene sound. -/
theorem settle (h : Sound s) (p : PromiseId) (o : Outcome Response) :
    Sound { s with store := (s.store.complete p o).2 } := by
  have hentries : ∀ (id : UInt64) (e : Entry),
      s.exchange.entries[id]? = some e → s.exchange.entries[id]? = some e := fun _ _ he => he
  apply h.remove (Promises.size_complete _ _ _) hentries
  · intro q hq
    rw [Promises.handles_complete]
    rfl
  · intro q hq hpend
    rw [Promises.outcome_complete] at hpend
    split at hpend
    · cases hpend
    · exact ⟨hpend, id⟩

/-- Callers may copy and give up handles as long as all are counted. -/
theorem rehold (h : Sound s) {store : Promises} {held : List PromiseId}
    (hsize : store.size = s.store.size)
    (houtcome : ∀ q, (store.get q).outcome = (s.store.get q).outcome)
    (hheld : ∀ q, q ∈ held → q ∈ s.held)
    (hhandles : ∀ q, q < s.store.size →
      (store.get q).handles + s.held.count q = (s.store.get q).handles + held.count q) :
    Sound { s with store, held } where
  size_lt := by
    rw [hsize]
    exact h.size_lt
  length_opened := by
    rw [hsize]
    exact h.length_opened
  mem_opened := by
    rw [hsize]
    exact h.mem_opened
  nextId_eq := by
    rw [hsize]
    exact h.nextId_eq
  numbered := by
    rw [hsize]
    exact h.numbered
  connection_eq := h.connection_eq
  sent_lt := by
    rw [hsize]
    exact h.sent_lt
  held_lt := by
    intro q hq
    rw [hsize]
    exact h.held_lt q (hheld q hq)
  handles_eq := by
    intro q hq
    rw [hsize] at hq
    have hh := hhandles q hq
    rw [h.handles_eq q hq] at hh
    change (store.get q).handles = held.count q + (s.exchange.isFiled q).toNat
    omega
  filed_of_pending := by
    intro q hq hpend
    unfold IsPending at hpend
    rw [houtcome] at hpend
    exact h.filed_of_pending q (hheld q hq) hpend

/-- Copying a handle keeps a scene sound. -/
theorem share (h : Sound s) {p : PromiseId} (hp : p ∈ s.held) :
    Sound { s with store := s.store.hold p, held := p :: s.held } := by
  apply h.rehold (Promises.size_hold _ _) (fun q => Promises.outcome_hold _ _ _)
  · intro q hq
    rcases List.mem_cons.mp hq with rfl | hq
    · exact hp
    · exact hq
  · exact fun q hq => s.store.handles_hold_add_count p s.held hq

/-- Giving up a handle keeps a scene sound. -/
theorem drop (h : Sound s) {p : PromiseId} (hp : p ∈ s.held) :
    Sound { s with store := s.store.release p, held := s.held.erase p } := by
  apply h.rehold (Promises.size_release _ _) (fun q => Promises.outcome_release _ _ _)
  · intro q hq
    exact List.mem_of_mem_erase hq
  · intro q hq
    apply s.store.handles_release_add_count hp hq
    rw [h.handles_eq q hq]
    exact Nat.le_add_right _ _

/-- Every act keeps a scene sound until the numbers come round. -/
theorem after (h : Sound s) (a : Act) (hlt : (s.after a).opened.length < 2 ^ 64) :
    Sound (s.after a) := by
  cases a with
  | take =>
    apply h.take
    rw [← h.length_opened]
    exact hlt
  | sentOn id c => exact h.sentOn id c
  | complete id response => exact h.finish id _
  | fail id f => exact h.finish id _
  | failConnection c f => exact h.failWhere f _
  | failAll f => exact h.failWhere f _
  | received frame =>
    simp only [Scene.after, Exchange.received]
    split
    · split
      · exact h.finish _ _
      · exact h
    · exact h
  | closed c => exact h.failWhere _ _
  | settle p o =>
    simp only [Scene.after]
    split
    · exact h.settle p o
    · exact h
  | share p =>
    simp only [Scene.after]
    split
    · next hp => exact h.share hp
    · exact h
  | drop p =>
    simp only [Scene.after]
    split
    · next hp => exact h.drop hp
    · exact h

end Sound

/-- An act opens a promise just if it takes a request up. -/
theorem length_opened_after (s : Scene) (a : Act) :
    (s.after a).opened.length = s.opened.length + if a.isTake then 1 else 0 := by
  cases a with
  | take => rfl
  | settle p o | share p | drop p =>
    simp only [after]
    split <;> rfl
  | _ => rfl

/-- A run opens as many promises as it takes requests up. -/
theorem length_opened_run (s : Scene) (acts : List Act) :
    (s.run acts).opened.length = s.opened.length + acts.countP Act.isTake := by
  induction acts generalizing s with
  | nil => rfl
  | cons a rest ih =>
    change ((s.after a).run rest).opened.length = _
    rw [ih, length_opened_after, List.countP_cons, Nat.add_assoc, Nat.add_comm (rest.countP _)]

/-- Every run keeps a scene sound until the numbers come round. -/
theorem Sound.run {s : Scene} (h : Sound s) (acts : List Act)
    (hlt : (s.run acts).opened.length < 2 ^ 64) : Sound (s.run acts) := by
  induction acts generalizing s with
  | nil => exact h
  | cons a rest ih =>
    change Sound ((s.after a).run rest)
    have hle : (s.after a).opened.length ≤ ((s.after a).run rest).opened.length := by
      rw [length_opened_run]
      exact Nat.le_add_right _ _
    exact ih (h.after a (Nat.lt_of_le_of_lt hle hlt)) hlt

/-- The scene of a new exchange stays sound through every run of fewer than `2 ^ 64` requests. -/
theorem sound_ofActs {acts : List Act} (hlt : acts.countP Act.isTake < 2 ^ 64) :
    Sound (ofActs acts) := by
  apply sound_empty.run
  rw [length_opened_run]
  simpa using hlt

end Scene

end Switchboard.Exchange
