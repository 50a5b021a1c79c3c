import Switchboard.Proofs.Exchange.Sound

/-!
# The parts of an exchange's operations

Many threads share one exchange, and some of its operations are no single move: between their parts
other threads act. Taking a request up draws its number first and files its promise afterwards;
failing requests in bulk takes their entries out first and completes the promises afterwards, one
after the other. Done without a pause, the parts are the operations.
-/

namespace Switchboard

namespace Promises

/-- Stores that agree on every name are the same. -/
theorem ext_get {s t : Promises} (hsize : s.size = t.size)
    (hget : ∀ p, p < s.size → s.get p = t.get p) : s = t := by
  cases s with
  | mk cells =>
    cases t with
    | mk cells' =>
      congr 1
      apply Array.ext hsize
      intro p hp hp'
      have heq := hget p hp
      simpa only [get, Array.getD_eq_getD_getElem?, Array.getElem?_eq_getElem hp,
        Array.getElem?_eq_getElem hp', Option.getD_some] using heq

/-- A promise may be given up before or after another one is made. -/
theorem release_add (s : Promises) (q : Promise Response) {p : PromiseId} (hp : p < s.size) :
    (s.add q).2.release p = ((s.release p).add q).2 := by
  apply ext_get (by simp)
  intro i hi
  rw [size_release, size_add] at hi
  simp only [release, get_update, get_add, size_add, size_update]
  by_cases hsize : i = s.size
  · simp [hsize, Nat.ne_of_lt hp]
  · have hlt : i < s.size := Nat.lt_of_le_of_ne (Nat.le_of_lt_succ hi) hsize
    simp [hsize, hi, hlt]

/-- A promise may be made with the handle that it is given next. -/
theorem hold_add (s : Promises) (q : Promise Response) :
    (s.add q).2.hold s.size = (s.add q.hold).2 := by
  apply ext_get (by simp)
  intro i hi
  rw [size_hold, size_add] at hi
  simp only [hold, get_update, get_add, size_add]
  by_cases hsize : i = s.size
  · simp [hsize]
  · simp [hsize, Ne.symm hsize]

/-- Whoever completes a promise and gives it up leaves it with one handle less. -/
theorem handles_release_complete (s : Promises) (p : PromiseId) (o : Outcome Response)
    {q : PromiseId} (hq : q < s.size) :
    (((s.complete p o).2.release p).get q).handles =
      (s.get q).handles - if p = q then 1 else 0 := by
  rw [handles_release, handles_complete, size_complete]
  by_cases heq : p = q <;> simp [heq, hq]

/-- Whoever completes a promise and gives it up leaves it done, and no other one. -/
theorem outcome_release_complete (s : Promises) (p : PromiseId) (o : Outcome Response)
    {q : PromiseId} (hq : q < s.size) :
    (((s.complete p o).2.release p).get q).outcome =
      if p = q then some ((s.get q).outcome.getD o) else (s.get q).outcome := by
  rw [outcome_release, outcome_complete]
  simp only [hq, and_true]

end Promises

namespace Exchange

/-- Draws the number of a request. -/
def draw (x : Exchange) : UInt64 × Exchange := (x.nextId, { x with nextId := x.nextId + 1 })

/-- Drawing a number leaves the entries alone. -/
@[simp]
theorem entries_draw (x : Exchange) : x.draw.2.entries = x.entries := rfl

/-- Files a promise under a number, in a table that is swept first if it has grown to its limit. -/
def file (x : Exchange) (store : Promises) (id : UInt64) (p : PromiseId) : Exchange × Promises :=
  let (x, store) := x.sweep store
  let store := match x.entries[id]? with
    | some old => store.release old.promise
    | none => store
  ({ x with entries := x.entries.insert id { promise := p } }, store.hold p)

/-- Takes out the entries that satisfy a condition. -/
def takeOut (x : Exchange) (lost : Entry → Bool) : List (UInt64 × Entry) × Exchange :=
  (x.entries.toList.filter fun entry => lost entry.2,
    { x with entries := x.entries.filter fun _ entry => !lost entry })

/-- Fails the promise of an entry that was taken out, and gives the entry up. -/
def failEntry (failure : Failure) (store : Promises) (entry : UInt64 × Entry) : Promises :=
  (store.complete entry.2.promise (.error failure)).2.release entry.2.promise

private theorem isLive_add (store : Promises) (q : Promise Response) {e : Entry}
    (he : e.promise < store.size) : isLive (store.add q).2 e = isLive store e := by
  simp only [isLive, Promises.get_add, Nat.ne_of_lt he, if_false]

private theorem releaseEntries_add (store : Promises) (q : Promise Response)
    (entries : List (UInt64 × Entry)) (hlt : ∀ e ∈ entries, e.2.promise < store.size) :
    releaseEntries (store.add q).2 entries = ((releaseEntries store entries).add q).2 := by
  induction entries generalizing store with
  | nil => rfl
  | cons e rest ih =>
    change releaseEntries ((store.add q).2.release e.2.promise) rest =
      ((releaseEntries (store.release e.2.promise) rest).add q).2
    rw [Promises.release_add store q (hlt e (by simp))]
    apply ih
    intro e' he'
    rw [Promises.size_release]
    exact hlt e' (by simp [he'])

/-- A table may be swept before or after the next promise is made. -/
theorem sweep_draw_add {x : Exchange} {store : Promises} (hx : x.Numbered store.size)
    (q : Promise Response) :
    x.draw.2.sweep (store.add q).2 = ((x.sweep store).1.draw.2, ((x.sweep store).2.add q).2) := by
  by_cases hlt : x.pending < sweepAt
  · have hlt' : x.draw.2.pending < sweepAt := hlt
    simp only [sweep, hlt, hlt', if_true]
  · have hlt' : ¬ x.draw.2.pending < sweepAt := hlt
    have hmem : ∀ e ∈ x.entries.toList, e.2.promise < store.size := by
      intro e he
      exact (hx e.1 e.2 (Std.ExtTreeMap.mem_toList_iff_getElem?_eq_some.mp he)).1
    have hentries : (x.entries.filter fun _ e => isLive (store.add q).2 e) =
        x.entries.filter fun _ e => isLive store e := by
      apply Std.ExtTreeMap.ext_getElem?
      intro id
      rw [Std.ExtTreeMap.getElem?_filter', Std.ExtTreeMap.getElem?_filter']
      cases he : x.entries[id]? with
      | none => rfl
      | some e => simp only [Option.filter_some, isLive_add store q (hx id e he).1]
    have hlist : (x.entries.toList.filter fun e => !isLive (store.add q).2 e.2) =
        x.entries.toList.filter fun e => !isLive store e.2 := by
      apply List.filter_congr
      intro e he
      rw [isLive_add store q (hmem e he)]
    simp only [sweep, hlt, hlt', if_false, entries_draw, hentries, hlist]
    rw [releaseEntries_add store q _ fun e he => hmem e (List.mem_filter.mp he).1]
    rfl

/-- What is left in a swept table was in it before. -/
theorem entries_of_sweep {x : Exchange} {store : Promises} {id : UInt64} {e : Entry}
    (he : (x.sweep store).1.entries[id]? = some e) : x.entries[id]? = some e := by
  unfold sweep at he
  split at he
  · exact he
  · rw [Std.ExtTreeMap.getElem?_filter', Option.filter_eq_some_iff] at he
    exact he.1

/-- Taking a request up is drawing its number, making its promise and filing that. -/
theorem take_eq_file {x : Exchange} {store : Promises} (hx : x.Numbered store.size) :
    x.take store =
      ((x.draw.1, store.size), x.draw.2.file (store.add .pending).2 x.draw.1 store.size) := by
  have hsize : (x.sweep store).2.size = store.size := size_sweep x store
  have hnext := nextId_sweep x store
  simp only [take, file, sweep_draw_add hx]
  simp only [draw]
  cases he : (x.sweep store).1.entries[x.nextId]? with
  | none =>
    rw [← hsize, Promises.hold_add, hnext]
    rfl
  | some old =>
    have hold : old.promise < (x.sweep store).2.size := by
      rw [hsize]
      exact (hx _ old (entries_of_sweep he)).1
    dsimp only
    rw [Promises.release_add _ _ hold, ← hsize, hnext, ← Promises.size_release _ old.promise,
      Promises.hold_add]
    rfl

/-- Failing requests in bulk is taking their entries out and failing these one after the other. -/
theorem failWhere_eq_takeOut (x : Exchange) (store : Promises) (f : Failure)
    (lost : Entry → Bool) :
    (x.failWhere store f lost).2 =
      ((x.takeOut lost).2, (x.takeOut lost).1.foldl (failEntry f) store) := by
  have hfail : ∀ (entries : List (UInt64 × Entry)) (store : Promises),
      (failEntries store f entries).2 = entries.foldl (failEntry f) store := by
    intro entries
    induction entries with
    | nil => intro _; rfl
    | cons e rest ih => intro store; exact ih _
  simp only [failWhere, takeOut, hfail]

/-- The promises of entries in two parts. -/
@[simp]
theorem promisesOf_append (entries entries' : List (UInt64 × Entry)) :
    promisesOf (entries ++ entries') = promisesOf entries ++ promisesOf entries' :=
  List.map_append

/-- What is taken out are the entries that satisfy the condition. -/
theorem mem_promisesOf_takeOut {x : Exchange} {lost : Entry → Bool} {p : PromiseId} :
    p ∈ promisesOf (x.takeOut lost).1 ↔
      ∃ (id : UInt64) (e : Entry), x.entries[id]? = some e ∧ lost e = true ∧ e.promise = p := by
  simp only [takeOut, mem_promisesOf, List.mem_filter,
    Std.ExtTreeMap.mem_toList_iff_getElem?_eq_some, and_assoc]

/-- Every entry of the table is either left in it or among those that are taken out. -/
theorem isFiled_takeOut {x : Exchange} {n : Nat} (hx : x.Numbered n) (hn : n ≤ 2 ^ 64)
    {p : PromiseId} (hp : p < n) (lost : Entry → Bool) :
    ((x.takeOut lost).2.isFiled p).toNat + (promisesOf (x.takeOut lost).1).count p =
      (x.isFiled p).toNat := by
  have hcount := (nodup_promisesOf hx fun entry => lost entry.2).count (a := p)
  simp only [takeOut, isFiled, Std.ExtTreeMap.getElem?_filter', Option.isSome_filter, hcount,
    mem_promisesOf_filter hx hn hp]
  cases x.entries[number p]? with
  | none => simp
  | some e => cases hl : lost e <;> simp [hl]

/-- An entry that is erased is the one under the number of its promise. -/
theorem isFiled_erase {x : Exchange} {n : Nat} (hx : x.Numbered n) (hn : n ≤ 2 ^ 64) {id : UInt64}
    {e : Entry} (he : x.entries[id]? = some e) {p : PromiseId} (hp : p < n) :
    (x.entries.erase id)[number p]?.isSome.toNat + (if e.promise = p then 1 else 0) =
      (x.isFiled p).toNat := by
  obtain ⟨hlt, rfl⟩ := hx id e he
  rw [isFiled, Std.ExtTreeMap.getElem?_erase]
  simp only [Std.LawfulEqCmp.compare_eq_iff_eq,
    number_inj (Nat.lt_of_lt_of_le hlt hn) (Nat.lt_of_lt_of_le hp hn)]
  by_cases heq : e.promise = p
  · simp [← heq, he]
  · simp [heq]

/-! ### What the parts leave alone -/

/-- Failing an entry adds no promise. -/
theorem size_failEntry (f : Failure) (store : Promises) (entry : UInt64 × Entry) :
    (failEntry f store entry).size = store.size := by
  simp [failEntry]

/-- A request that was completed is not in the table any more. -/
theorem entries_finish_self (x : Exchange) (store : Promises) (id : UInt64) (o : Outcome Response) :
    (x.finish store id o).2.1.entries[id]? = none := by
  cases he : x.entries[id]? <;> simp [finish, he]

end Exchange

end Switchboard
