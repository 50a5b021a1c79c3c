import Switchboard.Proofs.Exchange.Parts

/-!
# The handles on the promises of an exchange

The table of an exchange has one handle on every promise in it, and the callers have all others.
The handles are counted right after any run, also once the numbers have come round: whoever takes
an entry out, sweeps the table or overwrites an entry gives up the handle that goes with it.
-/

namespace Switchboard.Exchange

/-- The requests of a table by their numbers. -/
abbrev Entries := Std.ExtTreeMap UInt64 Entry

namespace Entries

/-! ### The entries of a promise -/

/-- How many entries a table has for a promise. -/
def filings (entries : Entries) (p : PromiseId) : Nat := (promisesOf entries.toList).count p

private theorem toList_perm_erase {entries : Entries} {id : UInt64} {e : Entry}
    (he : entries[id]? = some e) : entries.toList.Perm ((id, e) :: (entries.erase id).toList) := by
  have hnodup : ∀ m : Entries, m.toList.Nodup := by
    intro m
    apply m.distinct_keys_toList.imp
    rintro a _ hne rfl
    exact hne Std.ReflCmp.compare_self
  have hnew : (id, e) ∉ (entries.erase id).toList := by simp
  apply (List.perm_ext_iff_of_nodup (hnodup _) (List.nodup_cons.mpr ⟨hnew, hnodup _⟩)).mpr
  rintro ⟨id', e'⟩
  simp only [List.mem_cons, Std.ExtTreeMap.mem_toList_iff_getElem?_eq_some, Prod.mk.injEq,
    Std.ExtTreeMap.getElem?_erase, Std.LawfulEqCmp.compare_eq_iff_eq]
  by_cases hid : id = id'
  · subst hid
    simp [he, eq_comm]
  · simp [hid, Ne.symm hid]

/-- An entry that is erased was one for its promise. -/
theorem filings_erase {entries : Entries} {id : UInt64} {e : Entry} (he : entries[id]? = some e)
    (p : PromiseId) :
    entries.filings p = filings (entries.erase id) p + if e.promise = p then 1 else 0 := by
  have hperm := (toList_perm_erase he).map (·.2.promise)
  rw [filings, promisesOf, hperm.count_eq, List.map_cons, List.count_cons]
  simp [filings, promisesOf]

/-- An entry that is put in is one for its promise, in place of the one that had its number. -/
theorem filings_insert (entries : Entries) (id : UInt64) (e : Entry) (p : PromiseId) :
    filings (entries.insert id e) p =
      filings (entries.erase id) p + if e.promise = p then 1 else 0 := by
  have he : (entries.insert id e)[id]? = some e := Std.ExtTreeMap.getElem?_insert_self
  have herase : (entries.insert id e).erase id = entries.erase id := by
    apply Std.ExtTreeMap.ext_getElem?
    intro id'
    simp only [Std.ExtTreeMap.getElem?_erase, Std.ExtTreeMap.getElem?_insert]
    split <;> rfl
  rw [filings_erase he p, herase]

/-- Every entry satisfies a condition or does not. -/
theorem filings_filter (entries : Entries) (lost : Entry → Bool) (p : PromiseId) :
    entries.filings p = filings (entries.filter fun _ e => !lost e) p +
      (promisesOf (entries.toList.filter fun entry => lost entry.2)).count p := by
  have hperm := (List.filter_append_perm (fun entry => lost entry.2) entries.toList).map
    (·.2.promise)
  rw [filings, promisesOf, ← hperm.count_eq, List.map_append, List.count_append, Nat.add_comm]
  simp [filings, promisesOf]

/-- Whoever stands in a table has an entry there. -/
theorem filings_pos {entries : Entries} {id : UInt64} {e : Entry} (he : entries[id]? = some e) :
    0 < entries.filings e.promise := by
  rw [filings_erase he, if_pos rfl]
  exact Nat.succ_pos _

end Entries

/-! ### Taking a request up, step by step -/

/-- Vacates a number: the entry that has it gives its handle up. -/
def vacate (x : Exchange) (store : Promises) (id : UInt64) : Exchange × Promises :=
  ({ x with entries := x.entries.erase id },
    match x.entries[id]? with
    | some old => store.release old.promise
    | none => store)

/-- Giving up an entry adds no promise. -/
@[simp]
theorem size_vacate (x : Exchange) (store : Promises) (id : UInt64) :
    (x.vacate store id).2.size = store.size := by
  unfold vacate
  split
  · exact Promises.size_release _ _
  · rfl

/-- Vacating a number leaves every outcome as it is. -/
@[simp]
theorem outcome_vacate (x : Exchange) (store : Promises) (id : UInt64) (p : PromiseId) :
    ((x.vacate store id).2.get p).outcome = (store.get p).outcome := by
  unfold vacate
  split
  · exact Promises.outcome_release _ _ _
  · rfl

/-- A request is taken up by a sweep, after which the next number is vacated and given to a new
promise. -/
theorem take_eq_vacate (x : Exchange) (store : Promises) :
    x.take store =
      let swept := x.sweep store
      let vacated := swept.1.vacate swept.2 x.nextId
      ((x.nextId, store.size),
        { nextId := x.nextId + 1
          entries := swept.1.entries.insert x.nextId { promise := store.size } },
        (vacated.2.add Promise.pending.hold).2) := by
  have hsize := (size_vacate (x.sweep store).1 (x.sweep store).2 x.nextId).trans
    (size_sweep x store)
  rw [← hsize]
  rfl

namespace Scene

/-! ### Handles that are counted right -/

/-- The table has at most one entry for a promise, and it and the callers hold all handles. -/
structure Counted (s : Scene) : Prop where
  /-- A promise that was not made yet is nobody's. -/
  unmade : ∀ p, s.store.size ≤ p → Entries.filings s.exchange.entries p = 0 ∧ p ∉ s.held
  filings_le_one : ∀ p, Entries.filings s.exchange.entries p ≤ 1
  handles_eq : ∀ p, p < s.store.size →
    (s.store.get p).handles = s.held.count p + Entries.filings s.exchange.entries p

/-- Before the first request all handles are counted. -/
theorem counted_empty : Counted {} := by
  have hfilings : ∀ p, Entries.filings ∅ p = 0 := by
    intro p
    rw [Entries.filings, Std.ExtTreeMap.toList_eq_nil_iff.mpr rfl]
    rfl
  constructor <;> simp [Promises.size, hfilings]

namespace Counted

variable {s : Scene}

/-- Whoever takes entries out gives up the handles that go with them. -/
theorem remove (h : Counted s) {entries : Entries} {store : Promises}
    (hsize : store.size = s.store.size)
    (hfilings : ∀ p, entries.filings p ≤ Entries.filings s.exchange.entries p)
    (hhandles : ∀ p, p < s.store.size →
      (store.get p).handles + Entries.filings s.exchange.entries p =
        (s.store.get p).handles + entries.filings p) :
    Counted (s.update ({ s.exchange with entries }, store)) where
  unmade := by
    intro p hp
    change store.size ≤ p at hp
    rw [hsize] at hp
    obtain ⟨hnone, hheld⟩ := h.unmade p hp
    exact ⟨Nat.eq_zero_of_le_zero (hnone ▸ hfilings p), hheld⟩
  filings_le_one := fun p => Nat.le_trans (hfilings p) (h.filings_le_one p)
  handles_eq := by
    intro p hp
    change p < store.size at hp
    rw [hsize] at hp
    have hbefore := h.handles_eq p hp
    have hafter := hhandles p hp
    change (store.get p).handles = s.held.count p + entries.filings p
    omega

/-- Entries that satisfy a condition may go with one handle each. -/
theorem filter (h : Counted s) (lost : Entry → Bool) {store : Promises}
    (hsize : store.size = s.store.size)
    (hhandles : ∀ p, p < s.store.size → (store.get p).handles = (s.store.get p).handles -
      (promisesOf (s.exchange.entries.toList.filter fun entry => lost entry.2)).count p) :
    Counted (s.update
      ({ s.exchange with entries := s.exchange.entries.filter fun _ e => !lost e }, store)) := by
  apply h.remove hsize
  · intro p
    have hall := Entries.filings_filter s.exchange.entries lost p
    omega
  · intro p hp
    have hall := Entries.filings_filter s.exchange.entries lost p
    have hbefore := h.handles_eq p hp
    have hafter := hhandles p hp
    omega

/-- An entry may go with its handle. -/
theorem erase (h : Counted s) {id : UInt64} {e : Entry} (he : s.exchange.entries[id]? = some e)
    {store : Promises} (hsize : store.size = s.store.size)
    (hhandles : ∀ p, p < s.store.size → (store.get p).handles =
      (s.store.get p).handles - if e.promise = p then 1 else 0) :
    Counted (s.update ({ s.exchange with entries := s.exchange.entries.erase id }, store)) := by
  apply h.remove hsize
  · intro p
    have hall := Entries.filings_erase he p
    omega
  · intro p hp
    have hall := Entries.filings_erase he p
    have hbefore := h.handles_eq p hp
    have hafter := hhandles p hp
    omega

private theorem sweep (h : Counted s) : Counted (s.update (s.exchange.sweep s.store)) := by
  unfold Exchange.sweep
  split
  · exact h
  · have hfilter := h.filter (fun e => !isLive s.store e) (size_releaseEntries _ _)
      fun p hp => handles_releaseEntries s.store _ hp
    simpa only [Bool.not_not] using hfilter

private theorem finish (h : Counted s) (id : UInt64) (o : Outcome Response) :
    Counted (s.update (s.exchange.finish s.store id o).2) := by
  unfold Exchange.finish
  split
  · next e he =>
    apply h.erase he (by simp)
    intro p hp
    exact s.store.handles_release_complete e.promise o hp
  · exact h

private theorem failWhere (h : Counted s) (f : Failure) (lost : Entry → Bool) :
    Counted (s.update (s.exchange.failWhere s.store f lost).2) :=
  h.filter lost (size_failEntries _ _ _) fun _ hp => handles_failEntries s.store f _ hp

/-- An entry that is noted anew stays one for its promise. -/
theorem sentOn (h : Counted s) (id : UInt64) (c : ConnectionId) :
    Counted (s.after (.sentOn id c)) := by
  cases he : s.exchange.entries[id]? with
  | none => simpa [Scene.after, Exchange.sentOn, he] using h
  | some e =>
    have hfilings : ∀ p, Entries.filings
        (s.exchange.entries.insert id { e with connection := some c }) p =
          Entries.filings s.exchange.entries p := by
      intro p
      rw [Entries.filings_insert, Entries.filings_erase he]
    simp only [Scene.after, Exchange.sentOn, he, if_true]
    constructor
    · simpa only [hfilings] using h.unmade
    · simpa only [hfilings] using h.filings_le_one
    · simpa only [hfilings] using h.handles_eq

/-- A number may be vacated. -/
theorem vacate (h : Counted s) (id : UInt64) :
    Counted (s.update (s.exchange.vacate s.store id)) := by
  unfold Exchange.vacate
  cases he : s.exchange.entries[id]? with
  | some old =>
    apply h.erase he (Promises.size_release _ _)
    intro p hp
    rw [Promises.handles_release]
    by_cases heq : old.promise = p <;> simp [heq, hp]
  | none =>
    have hsame : s.exchange.entries.erase id = s.exchange.entries := by
      apply Std.ExtTreeMap.ext_getElem?
      intro id'
      rw [Std.ExtTreeMap.getElem?_erase]
      split
      · next heq => rw [← Std.LawfulEqCmp.compare_eq_iff_eq.mp heq, he]
      · rfl
    rw [hsame]
    exact h

/-- A new promise may be put into the table and given to a caller. -/
theorem enter (h : Counted s) {p : PromiseId} (hp : s.store.size = p) {exchange : Exchange}
    (hfilings : ∀ q, Entries.filings exchange.entries q =
      Entries.filings s.exchange.entries q + if p = q then 1 else 0)
    (opened : List (UInt64 × PromiseId)) :
    Counted { s with
      exchange, opened
      store := (s.store.add Promise.pending.hold).2
      held := p :: s.held } where
  unmade := by
    intro q hq
    rw [Promises.size_add, hp] at hq
    have hne : p ≠ q := Nat.ne_of_lt hq
    obtain ⟨hnone, hheld⟩ := h.unmade q (hp ▸ Nat.le_of_succ_le hq)
    rw [hfilings q, hnone, if_neg hne]
    exact ⟨rfl, List.not_mem_cons_of_ne_of_not_mem (Ne.symm hne) hheld⟩
  filings_le_one := by
    intro q
    rw [hfilings q]
    split
    · next heq => simp [(h.unmade q (Nat.le_of_eq (hp.trans heq))).1]
    · exact h.filings_le_one q
  handles_eq := by
    intro q hq
    rw [Promises.size_add, hp] at hq
    rw [hfilings q, Promises.get_add, List.count_cons, hp]
    by_cases heq : q = p
    · subst heq
      obtain ⟨hnone, hheld⟩ := h.unmade q (Nat.le_of_eq hp)
      simp [hnone, List.count_eq_zero.mpr hheld, Promise.hold, Promise.pending]
    · have hlt : q < s.store.size := hp ▸ Nat.lt_of_le_of_ne (Nat.le_of_lt_succ hq) heq
      simp [heq, Ne.symm heq, h.handles_eq q hlt]

private theorem take (h : Counted s) : Counted (s.after .take) := by
  have hsize := (size_vacate (s.exchange.sweep s.store).1 (s.exchange.sweep s.store).2
    s.exchange.nextId).trans (size_sweep s.exchange s.store)
  simp only [Scene.after, take_eq_vacate]
  exact (h.sweep.vacate s.exchange.nextId).enter hsize (fun p => Entries.filings_insert ..) _

/-- Callers may copy and give up handles as long as all are counted. -/
theorem rehold (h : Counted s) {store : Promises} {held : List PromiseId}
    (hsize : store.size = s.store.size) (hheld : ∀ p, p ∈ held → p ∈ s.held)
    (hhandles : ∀ p, p < s.store.size →
      (store.get p).handles + s.held.count p = (s.store.get p).handles + held.count p) :
    Counted { s with store, held } where
  unmade := by
    intro p hp
    rw [hsize] at hp
    obtain ⟨hnone, hnot⟩ := h.unmade p hp
    exact ⟨hnone, fun hm => hnot (hheld p hm)⟩
  filings_le_one := h.filings_le_one
  handles_eq := by
    intro p hp
    rw [hsize] at hp
    have hbefore := h.handles_eq p hp
    have hafter := hhandles p hp
    change (store.get p).handles = held.count p + Entries.filings s.exchange.entries p
    omega

private theorem share (h : Counted s) {p : PromiseId} (hp : p ∈ s.held) :
    Counted { s with store := s.store.hold p, held := p :: s.held } := by
  apply h.rehold (Promises.size_hold _ _)
  · intro q hq
    rcases List.mem_cons.mp hq with rfl | hq
    · exact hp
    · exact hq
  · exact fun q hq => s.store.handles_hold_add_count p s.held hq

private theorem drop (h : Counted s) {p : PromiseId} (hp : p ∈ s.held) :
    Counted { s with store := s.store.release p, held := s.held.erase p } := by
  apply h.rehold (Promises.size_release _ _)
  · exact fun q => List.mem_of_mem_erase
  · intro q hq
    apply s.store.handles_release_add_count hp hq
    rw [h.handles_eq q hq]
    exact Nat.le_add_right _ _

/-- Every act keeps the handles counted. -/
theorem after (h : Counted s) (a : Act) : Counted (s.after a) := by
  cases a with
  | take => exact h.take
  | sentOn id c => exact h.sentOn id c
  | complete id response => exact h.finish id _
  | fail id f => exact h.finish id _
  | failConnection c f => exact h.failWhere f _
  | failAll f => exact h.failWhere f _
  | received frame =>
    simp only [Scene.after, Exchange.received]
    split
    · split
      · exact h.finish _ _
      · exact h
    · exact h
  | closed c => exact h.failWhere _ _
  | settle p o =>
    simp only [Scene.after]
    split
    · exact h.rehold (Promises.size_complete _ _ _) (fun _ => id)
        fun q _ => by rw [Promises.handles_complete]
    · exact h
  | share p =>
    simp only [Scene.after]
    split
    · next hp => exact h.share hp
    · exact h
  | drop p =>
    simp only [Scene.after]
    split
    · next hp => exact h.drop hp
    · exact h

/-- All handles are counted after every run. -/
theorem run (h : Counted s) (acts : List Act) : Counted (s.run acts) := by
  induction acts generalizing s with
  | nil => exact h
  | cons a rest ih => exact ih (h.after a)

end Counted

end Scene

end Switchboard.Exchange
