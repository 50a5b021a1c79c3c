import Switchboard.Proofs.Exchange.Sound

/-!
# How requests end

A promise that a caller waits for stays in the table, under the number it was opened with, until it
is completed; an exchange completes it only for a reason that concerns this request; and bulk
failures are counted as they happen.
-/

namespace Switchboard.Exchange

namespace Scene

namespace Sound

variable {s : Scene}

/-- Completing a number completes the promise filed under it and no other. -/
theorem outcome_finish (h : Sound s) (id : UInt64) (o : Outcome Response) {p : PromiseId}
    (hp : p < s.store.size) :
    ((s.exchange.finish s.store id o).2.2.get p).outcome =
      if s.exchange.isFiled p = true ∧ id = number p then some ((s.store.get p).outcome.getD o)
      else (s.store.get p).outcome := by
  cases he : s.exchange.entries[id]? with
  | none =>
    simp only [Exchange.finish, he]
    by_cases hid : id = number p
    · simp [isFiled, ← hid, he]
    · simp [hid]
  | some e =>
    simp only [Exchange.finish, he, Promises.outcome_release, Promises.outcome_complete]
    obtain ⟨hlt, rfl⟩ := h.numbered id e he
    simp only [number_inj (Nat.lt_trans hlt h.size_lt) (Nat.lt_trans hp h.size_lt)]
    by_cases heq : e.promise = p
    · subst heq
      simp [isFiled, he, hp]
    · simp [heq]

/-- A response completes the promise filed under its number and no other. -/
theorem outcome_received (h : Sound s) {frame : Bytes} {envelope : Envelope}
    (hd : Frame.decode? frame = some envelope) (hk : envelope.kind = .response) {p : PromiseId}
    (hp : p < s.store.size) :
    ((s.after (.received frame)).store.get p).outcome =
      if s.exchange.isFiled p = true ∧ envelope.id = number p then
        some ((s.store.get p).outcome.getD (.ok envelope.toResponse))
      else (s.store.get p).outcome := by
  have hafter : s.after (.received frame) =
      s.update (s.exchange.finish s.store envelope.id (.ok envelope.toResponse)).2 := by
    simp only [Scene.after, Exchange.received, hd, hk, if_true]
  rw [hafter]
  exact h.outcome_finish envelope.id _ hp

/-- Failing entries in bulk completes just the promises of those entries. -/
theorem outcome_failWhere (h : Sound s) (f : Failure) (lost : Entry → Bool) {p : PromiseId}
    (hp : p < s.store.size) :
    ((s.exchange.failWhere s.store f lost).2.2.get p).outcome =
      if (s.exchange.entries[number p]?.any lost) = true then
        some ((s.store.get p).outcome.getD (.error f))
      else (s.store.get p).outcome := by
  simp only [Exchange.failWhere]
  rw [outcome_failEntries s.store f _ hp]
  simp only [mem_promisesOf_filter h.numbered (Nat.le_of_lt h.size_lt) hp]

/-- Taking a request up leaves the outcomes of those before it as they are. -/
theorem outcome_take (h : Sound s) {p : PromiseId} (hp : p < s.store.size) :
    ((s.after .take).store.get p).outcome = (s.store.get p).outcome := by
  have hfresh := h.sweep.fresh
  have hsize := size_sweep s.exchange s.store
  have hnext := nextId_sweep s.exchange s.store
  change (s.exchange.sweep s.store).1.entries[(s.exchange.sweep s.store).1.nextId]? = none at hfresh
  rw [hnext] at hfresh
  simp only [Scene.after, Exchange.take, hfresh]
  rw [Promises.get_add, if_neg (by rw [hsize]; exact Nat.ne_of_lt hp)]
  exact outcome_sweep s.exchange s.store p

/-- An entry is of a connection just if that was noted last for its number. -/
theorem any_connection (h : Sound s) (p : PromiseId) (c : ConnectionId) :
    (s.exchange.entries[number p]?.any fun e => e.connection == some c) = true ↔
      s.exchange.isFiled p = true ∧ s.sent.lookup (number p) = some c := by
  cases he : s.exchange.entries[number p]? with
  | none => simp [isFiled, he]
  | some e => simp [isFiled, he, h.connection_eq _ e he]

/-- A pending promise is completed by an act just if the table holds it and the act ends its
request, or if a caller completes it. -/
theorem not_isPending_after_iff (h : Sound s) (a : Act) {p : PromiseId} (hp : p < s.store.size)
    (hpend : s.IsPending p) :
    ¬ (s.after a).IsPending p ↔
      s.exchange.isFiled p = true ∧ s.Ends (number p) a ∨ p ∈ s.held ∧ ∃ o, a = .settle p o := by
  unfold IsPending at hpend ⊢
  cases a with
  | take => simp [h.outcome_take hp, hpend, Ends]
  | sentOn id c => simp [Scene.after, hpend, Ends]
  | complete id response | fail id f =>
    change ¬ ((s.exchange.finish s.store id _).2.2.get p).outcome = none ↔ _
    rw [h.outcome_finish id _ hp]
    simp [hpend, Ends]
  | failConnection c f =>
    simp only [Scene.after, update, Exchange.failConnection]
    rw [h.outcome_failWhere f _ hp]
    simp only [h.any_connection p c, hpend, Ends]
    simp
  | failAll f =>
    simp only [Scene.after, update, Exchange.failAll]
    rw [h.outcome_failWhere f _ hp]
    simp only [hpend, Ends, isFiled]
    cases s.exchange.entries[number p]? <;> simp
  | closed c =>
    simp only [Scene.after, update, Exchange.closed, Exchange.failConnection]
    rw [h.outcome_failWhere _ _ hp]
    simp only [h.any_connection p c, hpend, Ends]
    simp
  | received frame =>
    cases hd : Frame.decode? frame with
    | none => simp [Scene.after, update, Exchange.received, Ends, hd, hpend]
    | some envelope =>
      by_cases hk : envelope.kind = .response
      · rw [h.outcome_received hd hk hp]
        simp [Ends, hd, hpend, hk]
      · simp [Scene.after, update, Exchange.received, Ends, hd, hk, hpend]
  | settle q o =>
    simp only [Scene.after, Ends]
    by_cases hq : q ∈ s.held
    · simp only [hq, if_true]
      rw [Promises.outcome_complete]
      by_cases heq : q = p
      · subst heq
        simp [hp, hq]
      · simp [heq, hpend]
    · simp only [hq, if_false, hpend]
      by_cases heq : q = p
      · subst heq
        simp [hq]
      · simp [heq]
  | share q =>
    simp only [Scene.after, Ends]
    split <;> simp [hpend]
  | drop q =>
    simp only [Scene.after, Ends]
    split <;> simp [hpend]

/-- Bulk failures count the promises that fail in them. -/
theorem failWhere_fst (h : Sound s) (f : Failure) (lost : Entry → Bool) :
    (s.exchange.failWhere s.store f lost).1 =
      s.store.failedSince (s.exchange.failWhere s.store f lost).2.2 := by
  apply failEntries_fst_eq_failedSince _ _ _ (nodup_promisesOf h.numbered _)
  intro p hm
  obtain ⟨id, e, he, rfl⟩ := mem_promisesOf.mp hm
  rw [List.mem_filter, Std.ExtTreeMap.mem_toList_iff_getElem?_eq_some] at he
  exact (h.numbered id e he.1).1

end Sound

end Scene

/-- After every run of fewer than `2 ^ 64` requests: a pending promise that a caller holds has one
entry in the table, under its own number; a pending promise is completed only by its caller or by
an act that ends its request, and each of these does complete one that a caller holds; and bulk
failures return how many promises failed in them. -/
theorem requests_accounted_for (acts : List Act) (hlt : acts.countP Act.isTake < 2 ^ 64) :
    let s := Scene.ofActs acts
    (∀ id p, (id, p) ∈ s.opened → s.IsPending p → p ∈ s.held →
      ∃ e, s.exchange.entries[id]? = some e ∧ e.promise = p ∧
        ∀ (id' : UInt64) (e' : Entry),
          s.exchange.entries[id']? = some e' → e'.promise = p → id' = id) ∧
    (∀ a id p, (id, p) ∈ s.opened → s.IsPending p → ¬ (s.after a).IsPending p →
      s.Ends id a ∨ ∃ o, a = .settle p o) ∧
    (∀ a id p, (id, p) ∈ s.opened → s.IsPending p → p ∈ s.held →
      s.Ends id a ∨ (∃ o, a = .settle p o) → ¬ (s.after a).IsPending p) ∧
    (∀ c f, (s.exchange.failConnection s.store c f).1 =
      s.store.failedSince (s.after (.failConnection c f)).store) ∧
    ∀ f, (s.exchange.failAll s.store f).1 = s.store.failedSince (s.after (.failAll f)).store := by
  intro s
  have h : s.Sound := Scene.sound_ofActs hlt
  refine ⟨?_, ?_, ?_, ?_, ?_⟩
  · intro id p hm hpend hheld
    obtain ⟨hp, rfl⟩ := (h.mem_opened id p).mp hm
    obtain ⟨e, he⟩ := Option.isSome_iff_exists.mp (h.filed_of_pending p hheld hpend)
    refine ⟨e, he, h.promise_eq hp he, ?_⟩
    intro id' e' he' hep
    rw [(h.numbered id' e' he').2, hep]
  · intro a id p hm hpend hdone
    obtain ⟨hp, rfl⟩ := (h.mem_opened id p).mp hm
    rcases (h.not_isPending_after_iff a hp hpend).mp hdone with ⟨_, hends⟩ | ⟨_, ho⟩
    · exact .inl hends
    · exact .inr ho
  · intro a id p hm hpend hheld hends
    obtain ⟨hp, rfl⟩ := (h.mem_opened id p).mp hm
    apply (h.not_isPending_after_iff a hp hpend).mpr
    rcases hends with hends | ho
    · exact .inl ⟨h.filed_of_pending p hheld hpend, hends⟩
    · exact .inr ⟨hheld, ho⟩
  · intro c f
    exact h.failWhere_fst f _
  · intro f
    exact h.failWhere_fst f _

/-- Of two requests on two connections, a lost connection ends the one that was written on it. -/
theorem lost_connection_of_two :
    let acts := [.take, .take, .sentOn 1 7, .sentOn 2 8]
    let s := Scene.ofActs acts
    acts.countP Act.isTake < 2 ^ 64 ∧ s.IsPending 0 ∧ s.IsPending 1 ∧
      ¬ (s.after (.closed 7)).IsPending 0 ∧ (s.after (.closed 7)).IsPending 1 := by
  intro acts s
  have hlt : acts.countP Act.isTake < 2 ^ 64 := by decide
  obtain ⟨-, honly, hends, -, -⟩ := requests_accounted_for acts hlt
  refine ⟨hlt, rfl, rfl, ?_, ?_⟩
  · have hsent : s.sent.lookup 1 = some 7 := by decide
    exact hends (.closed 7) 1 0 (by decide) rfl (by decide) (.inl hsent)
  · apply Classical.byContradiction
    intro hdone
    rcases honly (.closed 7) 2 1 (by decide) rfl hdone with hsent | ⟨o, ho⟩
    · change s.sent.lookup 2 = some 7 at hsent
      revert hsent
      decide
    · cases ho

end Switchboard.Exchange
