import Switchboard.Proofs.Exchange.Handles

/-!
# How far the table of an exchange grows

Entries that are complete or that no caller holds any more stay in the table until it is swept,
and it is swept only when a request is taken up. A sweep tells from the handles whether somebody
still waits: the table has one on every promise in it, so a promise with another is held by a
caller. What a sweep leaves is therefore awaited, and between two requests nothing is added.
-/

namespace Switchboard.Exchange

namespace Scene

/-! ### What a sweep leaves -/

/-- Whether a promise is pending and some caller still holds it. -/
def IsAwaited (s : Scene) (p : PromiseId) : Prop := s.IsPending p ∧ p ∈ s.held

/-- Whether a request is awaited can be read off its handles. -/
instance (s : Scene) : DecidablePred s.IsAwaited :=
  fun p => inferInstanceAs (Decidable ((s.store.get p).outcome = none ∧ p ∈ s.held))

/-- How many entries of the table are for promises that are awaited. -/
def awaited (s : Scene) : Nat :=
  s.exchange.entries.toList.countP fun entry => s.IsAwaited entry.2.promise

/-- If every entry is for a promise that is awaited, so many entries are. -/
theorem awaited_eq_pending {s : Scene}
    (h : ∀ (id : UInt64) (e : Entry), s.exchange.entries[id]? = some e → s.IsAwaited e.promise) :
    s.awaited = s.exchange.pending := by
  rw [Exchange.pending, ← Std.ExtTreeMap.length_toList, awaited, List.countP_eq_length]
  intro entry hm
  rw [decide_eq_true_iff]
  exact h entry.1 entry.2 (Std.ExtTreeMap.mem_toList_iff_getElem?_eq_some.mp hm)

/-- Taking a request up leaves what is awaited as it is. -/
theorem Counted.isAwaited_take {s : Scene} (h : Counted s) {p : PromiseId}
    (hp : s.IsAwaited p) : (s.after .take).IsAwaited p := by
  obtain ⟨hpending, hheld⟩ := hp
  have hne : p ≠ s.store.size := by
    rintro rfl
    exact (h.unmade _ (Nat.le_refl _)).2 hheld
  simp only [Scene.after, take_eq_vacate]
  refine ⟨?_, List.mem_cons_of_mem _ hheld⟩
  change ((Promises.add _ _).2.get p).outcome = none
  rw [Promises.get_add, size_vacate, size_sweep, if_neg hne, outcome_vacate, outcome_sweep]
  exact hpending

/-- The promise of a request that was just taken up is awaited. -/
theorem isAwaited_take_self (s : Scene) : (s.after .take).IsAwaited s.store.size := by
  simp only [Scene.after, take_eq_vacate]
  refine ⟨?_, List.mem_cons_self⟩
  change ((Promises.add _ _).2.get s.store.size).outcome = none
  rw [Promises.get_add, size_vacate, size_sweep, if_pos rfl]
  rfl

/-- Somebody waits for the promise of an entry just if it is awaited. -/
theorem Counted.isLive_iff {s : Scene} (h : Counted s) {id : UInt64} {e : Entry}
    (he : s.exchange.entries[id]? = some e) : isLive s.store e = true ↔ s.IsAwaited e.promise := by
  have hfiled : Entries.filings s.exchange.entries e.promise = 1 :=
    Nat.le_antisymm (h.filings_le_one _) (Entries.filings_pos he)
  have hlt : e.promise < s.store.size := by
    apply Nat.lt_of_not_le
    intro hle
    rw [(h.unmade _ hle).1] at hfiled
    cases hfiled
  have hheld : 1 < (s.store.get e.promise).handles ↔ e.promise ∈ s.held := by
    rw [h.handles_eq _ hlt, hfiled, ← List.count_pos_iff]
    omega
  simp [isLive, Promise.isDone, Promise.isShared, IsAwaited, IsPending, hheld]

/-- What the table holds once a request is taken up: the new entry, and of the old ones those that
had another number, all of them or, from a full table, those that are awaited. -/
theorem Counted.getElem?_take {s : Scene} (h : Counted s) (id : UInt64) (e : Entry) :
    (s.after .take).exchange.entries[id]? = some e ↔
      id = s.exchange.nextId ∧ e = { promise := s.store.size } ∨
      id ≠ s.exchange.nextId ∧ s.exchange.entries[id]? = some e ∧
        (s.exchange.pending < sweepAt ∨ s.IsAwaited e.promise) := by
  have hswept : (s.exchange.sweep s.store).1.entries[id]? = some e ↔
      s.exchange.entries[id]? = some e ∧
        (s.exchange.pending < sweepAt ∨ s.IsAwaited e.promise) := by
    unfold Exchange.sweep
    split
    · next hlt => simp [hlt]
    · next hlt =>
      rw [Std.ExtTreeMap.getElem?_filter', Option.filter_eq_some_iff]
      simp only [hlt, false_or]
      exact and_congr_right fun he => h.isLive_iff he
  simp only [Scene.after, take_eq_vacate]
  rw [entries_insert]
  by_cases hid : s.exchange.nextId = id
  · simp [hid, eq_comm]
  · simp [hid, Ne.symm hid, hswept]

/-- Right after a request was taken up, the table holds no more than its limit, or else no more than
is awaited. -/
theorem Counted.pending_take_le {s : Scene} (h : Counted s) :
    (s.after .take).exchange.pending ≤ max sweepAt (s.after .take).awaited := by
  by_cases hlt : s.exchange.pending < sweepAt
  · apply Nat.le_trans _ (Nat.le_max_left _ _)
    have hsweep : s.exchange.sweep s.store = (s.exchange, s.store) := if_pos hlt
    simp only [Scene.after, take_eq_vacate, hsweep]
    exact Nat.le_trans Std.ExtTreeMap.size_insert_le hlt
  · apply Nat.le_trans _ (Nat.le_max_right _ _)
    apply Nat.le_of_eq
    rw [awaited_eq_pending]
    intro id e he
    rcases (h.getElem?_take id e).mp he with ⟨-, rfl⟩ | ⟨-, -, hawaited⟩
    · exact s.isAwaited_take_self
    · exact h.isAwaited_take (hawaited.resolve_left hlt)

/-- Only taking a request up adds to the table. -/
theorem pending_after_le (s : Scene) {a : Act} (ha : a.isTake = false) :
    (s.after a).exchange.pending ≤ s.exchange.pending := by
  have hfinish : ∀ id o,
      (s.exchange.finish s.store id o).2.1.entries.size ≤ s.exchange.entries.size := by
    intro id o
    unfold finish
    split
    · exact Std.ExtTreeMap.size_erase_le
    · exact Nat.le_refl _
  have hfail : ∀ f lost,
      (s.exchange.failWhere s.store f lost).2.1.entries.size ≤ s.exchange.entries.size :=
    fun _ _ => Std.ExtTreeMap.size_filter_le_size
  cases a with
  | take => cases ha
  | sentOn id c =>
    cases he : s.exchange.entries[id]? with
    | none => simp [Scene.after, Exchange.sentOn, he]
    | some e =>
      have hmem : s.exchange.entries.contains id = true := by
        rw [Std.ExtTreeMap.contains_eq_isSome_getElem?, he]
        rfl
      simp only [Scene.after, Exchange.sentOn, he, Exchange.pending]
      apply Nat.le_of_eq
      rw [Std.ExtTreeMap.size_insert, if_pos hmem]
  | complete id response => exact hfinish id _
  | fail id f => exact hfinish id _
  | failConnection c f => exact hfail f _
  | failAll f => exact hfail f _
  | received frame =>
    simp only [Scene.after, Exchange.received]
    split
    · split
      · exact hfinish _ _
      · exact Nat.le_refl _
    · exact Nat.le_refl _
  | closed c => exact hfail .connectionClosed _
  | settle p o | share p | drop p =>
    simp only [Scene.after]
    split <;> exact Nat.le_refl _

/-- A run that takes no request up adds nothing to the table. -/
theorem pending_run_le (s : Scene) {acts : List Act} (hacts : ∀ a ∈ acts, a.isTake = false) :
    (s.run acts).exchange.pending ≤ s.exchange.pending := by
  induction acts generalizing s with
  | nil => exact Nat.le_refl _
  | cons a rest ih =>
    have hrest := ih (s.after a) fun b hb => hacts b (List.mem_cons_of_mem a hb)
    exact Nat.le_trans hrest (s.pending_after_le (hacts a List.mem_cons_self))

end Scene

/-- After every run: right after another request is taken up, the table holds at most 256 entries or
as many as are for promises that are pending and held by a caller; no other act adds to it, so the
bound lasts until the next request; and no such entry goes to make room, unless its number comes
round. -/
theorem pending_le_max_awaited (acts : List Act) :
    let s := Scene.ofActs acts
    (s.after .take).exchange.pending ≤ max 256 (s.after .take).awaited ∧
    (∀ a, a.isTake = false → (s.after a).exchange.pending ≤ s.exchange.pending) ∧
    (∀ rest, (∀ a ∈ rest, a.isTake = false) →
      ((s.after .take).run rest).exchange.pending ≤ max 256 (s.after .take).awaited) ∧
    ∀ id e, s.exchange.entries[id]? = some e → s.IsAwaited e.promise → id ≠ s.exchange.nextId →
      (s.after .take).exchange.entries[id]? = some e := by
  intro s
  have h : s.Counted := Scene.counted_empty.run acts
  have htake : (s.after .take).exchange.pending ≤ max 256 (s.after .take).awaited :=
    h.pending_take_le
  refine ⟨htake, fun a ha => s.pending_after_le ha, ?_, ?_⟩
  · intro rest hrest
    exact Nat.le_trans ((s.after .take).pending_run_le hrest) htake
  · intro id e he hawaited hid
    exact (h.getElem?_take id e).mpr (.inr ⟨hid, he, .inr hawaited⟩)

end Switchboard.Exchange
