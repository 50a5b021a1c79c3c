import Mathlib.Algebra.Group.Nat.Defs
import Std.Data.ExtTreeMap.Lemmas
import Switchboard.Proofs.Exchange.Scene

/-!
# What leaves the table of an exchange

A table files every promise under a number of its own, so no promise stands in it twice. Entries
leave it one by one or in bulk; the laws below say what that does to the outcome and to the handles
of every promise, and how many promises failed.
-/

namespace Switchboard.Exchange

/-- The number that the request of a promise is opened under. -/
def number (p : Nat) : UInt64 := UInt64.ofNat (p + 1)

/-- Fewer than `2 ^ 64` requests have different numbers. -/
theorem number_inj {p q : Nat} (hp : p < 2 ^ 64) (hq : q < 2 ^ 64) :
    number p = number q ↔ p = q := by
  constructor
  · intro h
    have ht := congrArg UInt64.toNat h
    simp only [number, UInt64.toNat_ofNat'] at ht
    omega
  · intro h
    rw [h]

/-- Every entry belongs to one of the first `n` promises and stands under the number of it. -/
def Numbered (x : Exchange) (n : Nat) : Prop :=
  ∀ id e, x.entries[id]? = some e → e.promise < n ∧ id = number e.promise

/-- An insertion is found at its number and nowhere else. -/
theorem entries_insert (x : Exchange) (id : UInt64) (e : Entry) (id' : UInt64) :
    (x.entries.insert id e)[id']? = if id = id' then some e else x.entries[id']? := by
  rw [Std.ExtTreeMap.getElem?_insert]
  simp only [Std.LawfulEqCmp.compare_eq_iff_eq]

/-- What is numbered below a bound is numbered below a greater one. -/
theorem Numbered.mono {x : Exchange} {m n : Nat} (hx : x.Numbered m) (hle : m ≤ n) :
    x.Numbered n := by
  intro id e he
  obtain ⟨hlt, hid⟩ := hx id e he
  exact ⟨Nat.lt_of_lt_of_le hlt hle, hid⟩

/-- An entry may be filed under the number of its promise. -/
theorem Numbered.insert {x : Exchange} {n : Nat} (hx : x.Numbered n) {id : UInt64} {e : Entry}
    (hlt : e.promise < n) (hid : id = number e.promise) :
    Numbered { x with entries := x.entries.insert id e } n := by
  intro id' e' he
  change (x.entries.insert id e)[id']? = some e' at he
  rw [entries_insert] at he
  split at he
  · next heq =>
    cases he
    exact ⟨hlt, heq ▸ hid⟩
  · exact hx id' e' he

/-- The promises of entries. -/
def promisesOf (entries : List (UInt64 × Entry)) : List PromiseId := entries.map (·.2.promise)

/-- The promises of entries are those that some entry has. -/
theorem mem_promisesOf {entries : List (UInt64 × Entry)} {p : PromiseId} :
    p ∈ promisesOf entries ↔ ∃ id e, (id, e) ∈ entries ∧ e.promise = p := by
  simp [promisesOf]

/-- No promise stands in the table twice. -/
theorem nodup_promisesOf {x : Exchange} {n : Nat} (hx : x.Numbered n)
    (keep : UInt64 × Entry → Bool) : (promisesOf (x.entries.toList.filter keep)).Nodup := by
  have hall : (promisesOf x.entries.toList).Nodup := by
    unfold promisesOf
    change (x.entries.toList.map (·.2.promise)).Pairwise (· ≠ ·)
    rw [List.pairwise_map]
    apply List.Pairwise.imp_of_mem _ x.entries.distinct_keys_toList
    intro a b ha hb hab he
    have hia := (hx a.1 a.2 (Std.ExtTreeMap.mem_toList_iff_getElem?_eq_some.mp ha)).2
    have hib := (hx b.1 b.2 (Std.ExtTreeMap.mem_toList_iff_getElem?_eq_some.mp hb)).2
    rw [he, ← hib] at hia
    exact hab (by rw [hia]; exact Std.ReflCmp.compare_self)
  exact hall.sublist (List.filter_sublist.map _)

/-- A promise among those of the entries that satisfy a condition is the one of its own number. -/
theorem mem_promisesOf_filter {x : Exchange} {n : Nat} (hx : x.Numbered n) (hn : n ≤ 2 ^ 64)
    {p : PromiseId} (hp : p < n) (keep : Entry → Bool) :
    p ∈ promisesOf (x.entries.toList.filter fun entry => keep entry.2) ↔
      (x.entries[number p]?.any keep) = true := by
  rw [mem_promisesOf, Option.any_eq_true]
  constructor
  · rintro ⟨id, e, hm, rfl⟩
    rw [List.mem_filter, Std.ExtTreeMap.mem_toList_iff_getElem?_eq_some] at hm
    have hid := (hx id e hm.1).2
    exact ⟨e, by rw [← hid]; exact hm.1, hm.2⟩
  · rintro ⟨e, he, hk⟩
    refine ⟨number p, e, ?_, ?_⟩
    · rw [List.mem_filter, Std.ExtTreeMap.mem_toList_iff_getElem?_eq_some]
      exact ⟨he, hk⟩
    · obtain ⟨hlt, hid⟩ := hx _ e he
      exact ((number_inj (Nat.lt_of_lt_of_le hp hn) (Nat.lt_of_lt_of_le hlt hn)).mp hid).symm

/-! ### Entries that are given up -/

/-- Letting go of entries adds no promise. -/
@[simp]
theorem size_releaseEntries (store : Promises) (entries : List (UInt64 × Entry)) :
    (releaseEntries store entries).size = store.size := by
  induction entries generalizing store with
  | nil => rfl
  | cons e rest ih =>
    change (releaseEntries (store.release e.2.promise) rest).size = _
    rw [ih, Promises.size_release]

/-- Giving entries up leaves every outcome as it is. -/
@[simp]
theorem outcome_releaseEntries (store : Promises) (entries : List (UInt64 × Entry))
    (p : PromiseId) :
    ((releaseEntries store entries).get p).outcome = (store.get p).outcome := by
  induction entries generalizing store with
  | nil => rfl
  | cons e rest ih =>
    change ((releaseEntries (store.release e.2.promise) rest).get p).outcome = _
    rw [ih, Promises.outcome_release]

/-- A promise loses a handle for every entry of it that is given up. -/
theorem handles_releaseEntries (store : Promises) (entries : List (UInt64 × Entry))
    {p : PromiseId} (hp : p < store.size) :
    ((releaseEntries store entries).get p).handles =
      (store.get p).handles - (promisesOf entries).count p := by
  induction entries generalizing store with
  | nil => rfl
  | cons e rest ih =>
    change ((releaseEntries (store.release e.2.promise) rest).get p).handles = _
    rw [ih (store.release e.2.promise) (by rw [Promises.size_release]; exact hp),
      Promises.handles_release]
    change _ = _ - (e.2.promise :: promisesOf rest).count p
    rw [List.count_cons]
    by_cases he : e.2.promise = p
    · subst he
      simp [hp]
      omega
    · simp [he]

/-- Sweeping the table keeps the number of promises. -/
theorem size_sweep (x : Exchange) (store : Promises) : (x.sweep store).2.size = store.size := by
  unfold sweep
  split
  · rfl
  · exact size_releaseEntries _ _

/-- Sweeping the table leaves every outcome as it is. -/
theorem outcome_sweep (x : Exchange) (store : Promises) (p : PromiseId) :
    ((x.sweep store).2.get p).outcome = (store.get p).outcome := by
  unfold sweep
  split
  · rfl
  · exact outcome_releaseEntries _ _ _

/-- A sweep draws no number. -/
theorem nextId_sweep (x : Exchange) (store : Promises) : (x.sweep store).1.nextId = x.nextId := by
  unfold sweep
  split <;> rfl

/-- A request gets the next number and the next promise. -/
theorem take_fst (x : Exchange) (store : Promises) :
    (x.take store).1 = (x.nextId, store.size) := by
  have hadd : ∀ store' : Promises, (store'.add Promise.pending.hold).1 = store'.size :=
    fun _ => rfl
  simp only [take, hadd]
  split <;> simp [size_sweep]

/-! ### Entries that are failed -/

/-- Failing entries adds no promise. -/
@[simp]
theorem size_failEntries (store : Promises) (f : Failure) (entries : List (UInt64 × Entry)) :
    (failEntries store f entries).2.size = store.size := by
  induction entries generalizing store with
  | nil => rfl
  | cons e rest ih =>
    simp only [failEntries]
    rw [ih, Promises.size_release, Promises.size_complete]

/-- Failing entries fails their pending promises and leaves every other outcome as it is. -/
theorem outcome_failEntries (store : Promises) (f : Failure) (entries : List (UInt64 × Entry))
    {p : PromiseId} (hp : p < store.size) :
    ((failEntries store f entries).2.get p).outcome =
      if p ∈ promisesOf entries then some ((store.get p).outcome.getD (.error f))
      else (store.get p).outcome := by
  induction entries generalizing store with
  | nil => simp [failEntries, promisesOf]
  | cons e rest ih =>
    simp only [failEntries]
    rw [ih _ (by rw [Promises.size_release, Promises.size_complete]; exact hp),
      Promises.outcome_release, Promises.outcome_complete]
    change _ = if p ∈ e.2.promise :: promisesOf rest then _ else _
    by_cases he : e.2.promise = p
    · simp [he, hp]
    · simp [he, Ne.symm he]

/-- A promise loses a handle for every entry of it that is failed. -/
theorem handles_failEntries (store : Promises) (f : Failure) (entries : List (UInt64 × Entry))
    {p : PromiseId} (hp : p < store.size) :
    ((failEntries store f entries).2.get p).handles =
      (store.get p).handles - (promisesOf entries).count p := by
  induction entries generalizing store with
  | nil => rfl
  | cons e rest ih =>
    simp only [failEntries]
    rw [ih _ (by rw [Promises.size_release, Promises.size_complete]; exact hp),
      Promises.handles_release, Promises.size_complete, Promises.handles_complete]
    change _ = _ - (e.2.promise :: promisesOf rest).count p
    rw [List.count_cons]
    by_cases he : e.2.promise = p
    · subst he
      simp [hp]
      omega
    · simp [he]

/-- Failing entries counts those whose promise is pending. -/
theorem failEntries_fst (store : Promises) (f : Failure) (entries : List (UInt64 × Entry))
    (hd : (promisesOf entries).Nodup) (hs : ∀ p ∈ promisesOf entries, p < store.size) :
    (failEntries store f entries).1 =
      (promisesOf entries).countP fun p => !(store.get p).isDone := by
  induction entries generalizing store with
  | nil => rfl
  | cons e rest ih =>
    change (e.2.promise :: promisesOf rest).Nodup at hd
    change ∀ p ∈ e.2.promise :: promisesOf rest, p < store.size at hs
    change _ = (e.2.promise :: promisesOf rest).countP _
    obtain ⟨hne, hd⟩ := List.nodup_cons.mp hd
    simp only [failEntries, Promises.complete_fst]
    rw [ih _ hd (by intro p hp; simpa using hs p (by simp [hp])), List.countP_cons]
    -- the promises of the other entries are not the one that was completed just now
    have hrest : (promisesOf rest).countP (fun p =>
        !((((store.complete e.2.promise (.error f)).2.release e.2.promise).get p).isDone)) =
          (promisesOf rest).countP fun p => !(store.get p).isDone := by
      apply List.countP_congr
      intro p hp
      have hep : e.2.promise ≠ p := fun he => hne (he ▸ hp)
      simp [Promise.isDone, Promises.outcome_complete, hep]
    rw [hrest]
    by_cases hb : (store.get e.2.promise).isDone <;> simp [hb]

/-- The entries that are failed are as many as the promises that have failed since. -/
theorem failEntries_fst_eq_failedSince (store : Promises) (f : Failure)
    (entries : List (UInt64 × Entry)) (hd : (promisesOf entries).Nodup)
    (hs : ∀ p ∈ promisesOf entries, p < store.size) :
    (failEntries store f entries).1 = store.failedSince (failEntries store f entries).2 := by
  rw [failEntries_fst store f entries hd hs, Promises.failedSince]
  have hperm : (promisesOf entries).Perm
      ((List.range store.size).filter fun p => decide (p ∈ promisesOf entries)) := by
    apply (List.perm_ext_iff_of_nodup hd (List.nodup_range.filter _)).mpr
    intro p
    rw [List.mem_filter, List.mem_range, decide_eq_true_iff]
    exact ⟨fun h => ⟨hs p h, h⟩, fun h => h.2⟩
  rw [hperm.countP_eq, List.countP_filter]
  apply List.countP_congr
  intro p hp
  have hp : p < store.size := List.mem_range.mp hp
  rw [Promise.cause?, outcome_failEntries store f entries hp]
  cases ho : (store.get p).outcome with
  | some o => simp [Promise.isDone, ho]
  | none => by_cases hm : p ∈ promisesOf entries <;> simp [Promise.isDone, ho, hm]

end Switchboard.Exchange
