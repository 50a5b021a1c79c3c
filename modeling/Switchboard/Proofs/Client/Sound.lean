import Switchboard.Proofs.Client.Scene

/-!
# The invariant of a client among its threads

A scene is sound when the table, the entries taken out of it and the callers account for all
handles, a promise that somebody waits for is in the table or among the entries taken out, and what
stands in the table is allowed there by the call that filed it: only a request with a task is
written on a connection, and once the table was emptied for good nothing comes into it but what its
own call goes on to fail. Here entries leave the table: they are given up, completed, or taken out
and failed.
-/

namespace Switchboard.Client

open Exchange (number number_inj promisesOf Entry)

/-- Whether a call at a stage may have an entry in the table, written on a connection or not, in a
table that was emptied for good or not. -/
structure Stage.Allows (stage : Stage) (isDrained : Bool) (connection : Option ConnectionId) :
    Prop where
  ne_numbered : stage ≠ .numbered
  sending_of_connection : connection ≠ none → stage = .sending
  isTurnedBack : isDrained = true → stage.isTurnedBack = true

namespace Scene

/-- The table, the entries taken out of it and the callers account for the first `n` requests,
which are all that were made. -/
structure Sound (n : Nat) (s : Scene) : Prop where
  /-- Numbers have not come round. -/
  lt : n < 2 ^ 64
  size_eq : s.store.size = n
  nextId_eq : s.exchange.nextId = number n
  drawn_eq : ∀ p, p < n → s.drawn p = number p
  absent_iff : ∀ p, s.stage p = .absent ↔ n ≤ p
  numbered : s.exchange.Numbered n
  allowed : ∀ (id : UInt64) (e : Entry), s.exchange.entries[id]? = some e →
    (s.stage e.promise).Allows s.closing.isDrained e.connection
  sending_of_lost : ∀ p, p ∈ promisesOf s.lost → s.stage p = .sending
  left_lt : ∀ p, p ∈ promisesOf s.left → p < n
  left_nil : s.closing.isSettling = false → s.left = []
  held_lt : ∀ p, p ∈ s.held → p < n
  /-- A call holds its promise until it returns. -/
  held_of_running : ∀ p, p < n → (s.stage p).isReturned = false → p ∈ s.held
  /-- The callers, the table and the entries taken out hold all handles. -/
  handles_eq : ∀ p, p < n → (s.store.get p).handles = s.held.count p + s.copies p
  /-- Whoever waits for a promise that was filed finds it in the table or taken out of it. -/
  copies_pos : ∀ p, p ∈ s.held → s.stage p ≠ .numbered → s.IsPending p → 0 < s.copies p
  /-- A request that its call has failed is done, unless the closing call is about to fail it. -/
  left_of_failed : ∀ p, s.stage p = .failed → s.IsPending p → p ∈ promisesOf s.left

/-- A new client is sound. -/
theorem sound_empty : Sound 0 {} := by
  constructor <;> simp [Exchange.Numbered, Promises.size, number, promisesOf]

/-- One call comes to another stage, and the others stay where they are. -/
theorem stage_move (s : Scene) (p q : PromiseId) (stage : Stage) :
    (s.move p stage).stage q = if q = p then stage else s.stage q :=
  Function.update_apply s.stage p stage q

/-- A new request has drawn its number, and all other calls stay where they are. -/
theorem stage_draw (s : Scene) (p : PromiseId) :
    (s.after .draw).stage p = if p = s.store.size then .numbered else s.stage p :=
  Function.update_apply s.stage s.store.size .numbered p

namespace Sound

variable {n : Nat} {s : Scene}

/-- A promise that was there before is in the store. -/
theorem lt_size (h : Sound n s) {p : PromiseId} (hp : p < n) : p < s.store.size := by
  rw [h.size_eq]
  exact hp

/-- The entry under the number of a promise is the entry of that promise. -/
theorem promise_eq (h : Sound n s) {p : PromiseId} (hp : p < n) {e : Entry}
    (he : s.exchange.entries[number p]? = some e) : e.promise = p := by
  obtain ⟨hlt, hid⟩ := h.numbered _ e he
  exact ((number_inj (Nat.lt_trans hp h.lt) (Nat.lt_trans hlt h.lt)).mp hid).symm

/-- A promise whose call has come anywhere was made. -/
theorem lt_of_stage (h : Sound n s) {p : PromiseId} (hp : s.stage p ≠ .absent) : p < n := by
  apply Nat.lt_of_not_le
  intro hle
  exact hp ((h.absent_iff p).mpr hle)

/-- What was taken out of the table belongs to a request that was made. -/
theorem taken_lt (h : Sound n s) {p : PromiseId} (hp : p ∈ promisesOf s.taken) : p < n := by
  rw [taken, Exchange.promisesOf_append, List.mem_append] at hp
  rcases hp with hp | hp
  · exact h.lt_of_stage (by rw [h.sending_of_lost p hp]; decide)
  · exact h.left_lt p hp

/-- A call that has only drawn its number has nothing in the table. -/
theorem isFiled_of_numbered (h : Sound n s) {p : PromiseId} (hp : s.stage p = .numbered) :
    s.exchange.isFiled p = false := by
  have hlt := h.lt_of_stage (p := p) (by rw [hp]; decide)
  rw [Exchange.isFiled]
  cases he : s.exchange.entries[number p]? with
  | none => rfl
  | some e =>
    have hne := (h.allowed _ e he).ne_numbered
    rw [h.promise_eq hlt he] at hne
    exact absurd hp hne

/-- Nothing stands in the table for the next request. -/
theorem copies_next (h : Sound n s) : s.copies n = 0 := by
  have htaken : (promisesOf s.taken).count n = 0 := by
    apply List.count_eq_zero.mpr
    intro hm
    exact absurd (h.taken_lt hm) (Nat.lt_irrefl _)
  rw [copies, htaken, Exchange.isFiled]
  cases he : s.exchange.entries[number n]? with
  | none => rfl
  | some e =>
    obtain ⟨hlt, hid⟩ := h.numbered _ e he
    rw [number_inj h.lt (Nat.lt_trans hlt h.lt)] at hid
    exact absurd hlt (by rw [← hid]; exact Nat.lt_irrefl _)

/-! ### Entries leave the table -/

/-- Entries may leave the table, and promises be completed, as long as handles go just with the
entries that are given up, and whoever waits for a promise still finds it. -/
theorem shift (h : Sound n s) {entries : Std.ExtTreeMap UInt64 Entry} {store : Promises}
    {lost left : List (UInt64 × Entry)} {closing : Closing}
    (hsize : store.size = s.store.size)
    (hentries : ∀ (id : UInt64) (e : Entry),
      entries[id]? = some e → s.exchange.entries[id]? = some e)
    (hlost : ∀ p, p ∈ promisesOf lost → s.stage p = .sending)
    (hleft : ∀ p, p ∈ promisesOf left → p < n)
    (hcopies : ∀ p, p < n →
      (store.get p).handles + s.copies p = (s.store.get p).handles +
        (entries[number p]?.isSome.toNat + (promisesOf (lost ++ left)).count p))
    (hlive : ∀ p, p < n → (store.get p).outcome = none → s.IsPending p ∧
      (p ∈ s.held → 0 < s.copies p →
        0 < entries[number p]?.isSome.toNat + (promisesOf (lost ++ left)).count p) ∧
      (p ∈ promisesOf s.left → p ∈ promisesOf left))
    (hnil : closing.isSettling = false → left = [])
    (hdrained : closing.isDrained = true → s.closing.isDrained = true ∨
      ∀ id : UInt64, entries[id]? = none) :
    Sound n { s with exchange := { s.exchange with entries }, store, lost, left, closing } :=
  { h with
    size_eq := hsize.trans h.size_eq
    numbered := fun id e he => h.numbered id e (hentries id e he)
    allowed := by
      intro id e he
      have hallowed := h.allowed id e (hentries id e he)
      refine ⟨hallowed.ne_numbered, hallowed.sending_of_connection, ?_⟩
      intro hc
      rcases hdrained hc with hc | hnone
      · exact hallowed.isTurnedBack hc
      · change entries[id]? = some e at he
        rw [hnone id] at he
        cases he
    sending_of_lost := hlost
    left_lt := hleft
    left_nil := hnil
    handles_eq := by
      intro p hp
      have hc := hcopies p hp
      rw [h.handles_eq p hp] at hc
      change (store.get p).handles = s.held.count p +
        (entries[number p]?.isSome.toNat + (promisesOf (lost ++ left)).count p)
      omega
    copies_pos := by
      intro p hp hstage hpend
      obtain ⟨hbefore, hkeep, -⟩ := hlive p (h.held_lt p hp) hpend
      exact hkeep hp (h.copies_pos p hp hstage hbefore)
    left_of_failed := by
      intro p hstage hpend
      have hp : p < n := h.lt_of_stage (by rw [hstage]; decide)
      obtain ⟨hbefore, -, hkeep⟩ := hlive p hp hpend
      exact hkeep (h.left_of_failed p hstage hbefore) }

/-- Completing a request keeps a scene sound. -/
theorem finish (h : Sound n s) (id : UInt64) (o : Outcome Response) :
    Sound n (s.update (s.exchange.finish s.store id o).2) := by
  cases he : s.exchange.entries[id]? with
  | none => simpa [Exchange.finish, he, update] using h
  | some e =>
    simp only [Exchange.finish, he]
    have hfiled := fun {q : PromiseId} (hq : q < n) =>
      Exchange.isFiled_erase h.numbered (Nat.le_of_lt h.lt) he hq
    apply h.shift (by simp) ?_ h.sending_of_lost h.left_lt ?_ ?_ h.left_nil .inl
    · intro id' e' he'
      rw [Std.ExtTreeMap.getElem?_erase] at he'
      split at he'
      · cases he'
      · exact he'
    · intro q hq
      have hq' := hfiled hq
      have hhandles := h.handles_eq q hq
      rw [Promises.handles_release_complete _ _ _ (h.lt_size hq)]
      unfold copies taken at hhandles ⊢
      omega
    · intro q hq hpend
      rw [Promises.outcome_release_complete _ _ _ (h.lt_size hq)] at hpend
      split at hpend
      · cases hpend
      · next hne =>
        have hq' := hfiled hq
        rw [if_neg hne] at hq'
        refine ⟨hpend, ?_, fun hm => hm⟩
        intro _ hpos
        unfold copies taken at hpos
        omega

/-- A response keeps a scene sound. -/
theorem received (h : Sound n s) (frame : Bytes) :
    Sound n (s.update (s.exchange.received s.store frame)) := by
  simp only [Exchange.received]
  split
  · split
    · exact h.finish _ _
    · exact h
  · exact h

/-- A caller that completes a promise keeps a scene sound. -/
theorem complete (h : Sound n s) (p : PromiseId) (o : Outcome Response) :
    Sound n { s with store := (s.store.complete p o).2 } := by
  apply h.shift (Promises.size_complete _ _ _) (fun _ _ he => he) h.sending_of_lost h.left_lt
    ?_ ?_ h.left_nil .inl
  · intro q hq
    rw [Promises.handles_complete]
    rfl
  · intro q hq hpend
    rw [Promises.outcome_complete] at hpend
    split at hpend
    · cases hpend
    · exact ⟨hpend, fun _ hpos => hpos, id⟩

/-- Sweeping the table keeps a scene sound: a promise that a caller waits for is shared. -/
theorem sweep (h : Sound n s) : Sound n (s.update (s.exchange.sweep s.store)) := by
  by_cases hlt : s.exchange.pending < Exchange.sweepAt
  · simpa [Exchange.sweep, hlt, update] using h
  · simp only [Exchange.sweep, hlt, if_false]
    apply h.shift (Exchange.size_releaseEntries _ _) ?_ h.sending_of_lost h.left_lt ?_ ?_
      h.left_nil .inl
    · intro id e he
      rw [Std.ExtTreeMap.getElem?_filter', Option.filter_eq_some_iff] at he
      exact he.1
    · intro p hp
      have hout := Exchange.isFiled_takeOut h.numbered (Nat.le_of_lt h.lt) hp
        fun e => !Exchange.isLive s.store e
      have hhandles := h.handles_eq p hp
      simp only [Exchange.takeOut, Exchange.isFiled, Bool.not_not] at hout
      rw [Exchange.handles_releaseEntries _ _ (h.lt_size hp)]
      simp only [copies, Exchange.isFiled, taken] at hhandles ⊢
      omega
    · intro p hp hpend
      rw [Exchange.outcome_releaseEntries] at hpend
      refine ⟨hpend, ?_, id⟩
      intro hheld hpos
      have hcount : 0 < s.held.count p := List.count_pos_iff.mpr hheld
      have hhandles := h.handles_eq p hp
      cases he : s.exchange.entries[number p]? with
      | none => simpa [copies, taken, Exchange.isFiled, he] using hpos
      | some e =>
        have hlive : Exchange.isLive s.store e = true := by
          simp only [Exchange.isLive, h.promise_eq hp he, Promise.isDone, hpend, Promise.isShared,
            hhandles]
          simp
          omega
        have hfiled : (s.exchange.entries.filter fun _ e =>
            Exchange.isLive s.store e)[number p]?.isSome = true := by
          simp [he, hlive]
        rw [hfiled, Bool.toNat_true]
        omega

/-! ### Entries are taken out and failed -/

/-- Entries may be taken out of the table as long as they are kept until they are failed. -/
theorem takeOut (h : Sound n s) (gone : Entry → Bool) {lost left : List (UInt64 × Entry)}
    {closing : Closing} (hlost : ∀ p, p ∈ promisesOf lost → s.stage p = .sending)
    (hleft : ∀ p, p ∈ promisesOf left → p < n)
    (hcount : ∀ p, (promisesOf (lost ++ left)).count p =
      (promisesOf (s.exchange.takeOut gone).1).count p + (promisesOf s.taken).count p)
    (hfailed : ∀ p, p ∈ promisesOf s.left → p ∈ promisesOf left)
    (hnil : closing.isSettling = false → left = [])
    (hdrained : closing.isDrained = true → s.closing.isDrained = true ∨ ∀ e, gone e = true) :
    Sound n { s with exchange := (s.exchange.takeOut gone).2, lost, left, closing } := by
  have hcopies : ∀ p, p < n → s.copies p =
      ((s.exchange.takeOut gone).2.isFiled p).toNat + (promisesOf (lost ++ left)).count p := by
    intro p hp
    rw [hcount p, copies, ← Exchange.isFiled_takeOut h.numbered (Nat.le_of_lt h.lt) hp gone]
    omega
  apply h.shift rfl ?_ hlost hleft ?_ ?_ hnil ?_
  · intro id e he
    rw [Std.ExtTreeMap.getElem?_filter', Option.filter_eq_some_iff] at he
    exact he.1
  · intro p hp
    rw [hcopies p hp]
    rfl
  · intro p hp hpend
    refine ⟨hpend, ?_, hfailed p⟩
    intro _ hpos
    rw [hcopies p hp] at hpos
    exact hpos
  · intro hc
    rcases hdrained hc with hc | hall
    · exact .inl hc
    · refine .inr fun id => ?_
      rw [Std.ExtTreeMap.getElem?_filter']
      cases s.exchange.entries[id]? with
      | none => rfl
      | some e => simp [hall e]

/-- A connection that is lost keeps a scene sound. -/
theorem lose (h : Sound n s) (c : ConnectionId) :
    Sound n { s with
      exchange := (s.exchange.takeOut fun e => e.connection == some c).2
      lost := (s.exchange.takeOut fun e => e.connection == some c).1 ++ s.lost } := by
  apply h.takeOut (fun e => e.connection == some c) ?_ h.left_lt ?_ (fun _ hm => hm) h.left_nil .inl
  · intro p hp
    rw [Exchange.promisesOf_append, List.mem_append, Exchange.mem_promisesOf_takeOut] at hp
    rcases hp with ⟨id, e, he, hc, rfl⟩ | hp
    · apply (h.allowed id e he).sending_of_connection
      rw [eq_of_beq hc]
      simp
    · exact h.sending_of_lost p hp
  · intro p
    simp only [taken, Exchange.promisesOf_append, List.count_append, Nat.add_assoc]

/-- The closing call may take entries out once it has failed those that it took out before. -/
theorem takeOutOwn (h : Sound n s) (hnil : s.left = []) (gone : Entry → Bool) {closing : Closing}
    (hsettling : closing.isSettling = true)
    (hdrained : closing.isDrained = true → ∀ e, gone e = true) :
    Sound n { s with
      exchange := (s.exchange.takeOut gone).2
      closing
      left := (s.exchange.takeOut gone).1 } := by
  apply h.takeOut gone h.sending_of_lost
  · intro p hp
    obtain ⟨id, e, he, -, rfl⟩ := Exchange.mem_promisesOf_takeOut.mp hp
    exact (h.numbered id e he).1
  · intro p
    simp only [taken, hnil, List.append_nil, Exchange.promisesOf_append, List.count_append,
      Nat.add_comm]
  · intro p hp
    rw [hnil] at hp
    cases hp
  · intro hc
    rw [hsettling] at hc
    cases hc
  · intro hc
    exact .inr (hdrained hc)

/-- Failing an entry that was taken out keeps a scene sound. -/
theorem failEntry (h : Sound n s) (entry : UInt64 × Entry) {lost left : List (UInt64 × Entry)}
    (hcount : ∀ p, (promisesOf s.taken).count p =
      (promisesOf (lost ++ left)).count p + if entry.2.promise = p then 1 else 0)
    (hlost : ∀ p, p ∈ promisesOf lost → p ∈ promisesOf s.lost)
    (hleft : ∀ p, p ∈ promisesOf left → p ∈ promisesOf s.left)
    (hfailed : ∀ p, p ∈ promisesOf s.left → p = entry.2.promise ∨ p ∈ promisesOf left)
    (hnil : s.left = [] → left = []) :
    Sound n { s with store := Exchange.failEntry .connectionClosed s.store entry, lost, left } := by
  apply h.shift (Exchange.size_failEntry _ _ _) (fun _ _ he => he)
    (fun p hp => h.sending_of_lost p (hlost p hp)) (fun p hp => h.left_lt p (hleft p hp)) ?_ ?_
    (fun hc => hnil (h.left_nil hc)) .inl
  · intro p hp
    have hc := hcount p
    have hhandles := h.handles_eq p hp
    rw [Exchange.failEntry, Promises.handles_release_complete _ _ _ (h.lt_size hp)]
    change _ = _ + ((s.exchange.isFiled p).toNat + _)
    unfold copies at hhandles ⊢
    omega
  · intro p hp hpend
    rw [Exchange.failEntry, Promises.outcome_release_complete _ _ _ (h.lt_size hp)] at hpend
    split at hpend
    · cases hpend
    · next hne =>
      have hc := hcount p
      rw [if_neg hne, Nat.add_zero] at hc
      refine ⟨hpend, ?_, fun hm => (hfailed p hm).resolve_left (Ne.symm hne)⟩
      intro _ hpos
      rw [copies, hc] at hpos
      exact hpos

/-- Failing an entry of a lost connection keeps a scene sound. -/
theorem settle (h : Sound n s) {entry : UInt64 × Entry} (hm : entry ∈ s.lost) :
    Sound n { s with
      store := Exchange.failEntry .connectionClosed s.store entry
      lost := s.lost.erase entry } := by
  apply h.failEntry entry ?_ ?_ (fun _ hp => hp) (fun _ hp => .inr hp) id
  · intro p
    have hperm : (promisesOf s.lost).Perm (entry.2.promise :: promisesOf (s.lost.erase entry)) :=
      (List.perm_cons_erase hm).map fun e : UInt64 × Entry => e.2.promise
    simp only [taken, Exchange.promisesOf_append, List.count_append, hperm.count_eq,
      List.count_cons, beq_iff_eq]
    omega
  · intro p hp
    exact (List.erase_sublist.map _).subset hp

/-- Failing an entry that the closing call took out keeps a scene sound. -/
theorem settleOwn (h : Sound n s) {entry : UInt64 × Entry} {left : List (UInt64 × Entry)}
    (hleft : s.left = entry :: left) :
    Sound n { s with store := Exchange.failEntry .connectionClosed s.store entry, left } := by
  have hcons : promisesOf s.left = entry.2.promise :: promisesOf left := by rw [hleft]; rfl
  apply h.failEntry entry ?_ (fun _ hp => hp)
  · intro p hp
    rw [hcons]
    exact List.mem_cons_of_mem _ hp
  · intro p hp
    rw [hcons] at hp
    exact List.mem_cons.mp hp
  · intro hnil
    rw [hleft] at hnil
    cases hnil
  · intro p
    simp only [taken, Exchange.promisesOf_append, List.count_append, hcons, List.count_cons,
      beq_iff_eq]
    omega

/-- The closing may go on as long as it leaves nothing unsettled. -/
theorem comeTo (h : Sound n s) {closing : Closing} (hnil : closing.isSettling = false → s.left = [])
    (hdrained : closing.isDrained = true → s.closing.isDrained = true) :
    Sound n { s with closing } :=
  h.shift rfl (fun _ _ he => he) h.sending_of_lost h.left_lt (fun _ _ => rfl)
    (fun _ _ hp => ⟨hp, fun _ hpos => hpos, id⟩) hnil fun hc => .inl (hdrained hc)

end Sound

end Scene

end Switchboard.Client
