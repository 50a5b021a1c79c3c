import Switchboard.Proofs.Address.Equality
import Switchboard.Resolver

/-!
# The invokers of a resolver

A resolver is asked for addresses in any of their forms, so what it knows of an address it knows of
every equal one. `Serves` says which invokers a list of addresses is served with: those that are
there, and those that can be built. `obtainAll` serves every list, and keeps each invoker that it
hands out.
-/

namespace Switchboard.Resolver

variable {ι : Type}

/-! ### What is known of an address -/

/-- Equal addresses have the same invoker. -/
theorem invoker?_congr (r : Resolver ι) {a b : Address} (h : (a == b) = true) :
    r.invoker? a = r.invoker? b := by
  have hsame : (fun entry : Address × ι => entry.1 == a) = fun entry => entry.1 == b := by
    funext entry
    rw [Bool.eq_iff_iff]
    exact ⟨fun ha => Address.beq_trans ha h, fun hb => Address.beq_trans hb (Address.beq_symm h)⟩
  rw [invoker?, invoker?, hsame]

/-- An address has no invoker just if no entry is for an equal one. -/
theorem invoker?_eq_none_iff {r : Resolver ι} {a : Address} :
    r.invoker? a = none ↔ ∀ entry, entry ∈ r.invokers → (entry.1 == a) = false := by
  simp [invoker?, List.find?_eq_none]

/-- The invoker of an address is that of an entry for an equal one. -/
theorem exists_mem_of_invoker? {r : Resolver ι} {a : Address} {i : ι}
    (h : r.invoker? a = some i) : ∃ b, (b, i) ∈ r.invokers ∧ (b == a) = true := by
  obtain ⟨⟨b, j⟩, hfind, rfl⟩ := Option.map_eq_some_iff.mp h
  have hsame := List.find?_some hfind
  exact ⟨b, List.mem_of_find?_eq_some hfind, by simpa using hsame⟩

/-- The address of an entry has an invoker. -/
theorem isSome_invoker?_of_mem {r : Resolver ι} {entry : Address × ι} (h : entry ∈ r.invokers) :
    (r.invoker? entry.1).isSome = true := by
  rw [Option.isSome_iff_ne_none]
  intro hnone
  have hself := invoker?_eq_none_iff.mp hnone entry h
  rw [Address.beq_self] at hself
  cases hself

/-- An address is held just if the addresses of some key have an equal one. -/
theorem isHeld_iff {r : Resolver ι} {a : Address} :
    r.isHeld a = true ↔ ∃ (key : String) (addresses : List Address),
      r.byKey[key]? = some addresses ∧ ∃ b, b ∈ addresses ∧ (b == a) = true := by
  simp only [isHeld, List.any_eq_true, Prod.exists,
    Std.ExtTreeMap.mem_toList_iff_getElem?_eq_some]

private theorem isHeld_congr (r : Resolver ι) {a b : Address} (h : (a == b) = true) :
    r.isHeld a = r.isHeld b := by
  rw [Bool.eq_iff_iff, isHeld_iff, isHeld_iff]
  constructor
  · rintro ⟨key, addresses, hkey, c, hc, hca⟩
    exact ⟨key, addresses, hkey, c, hc, Address.beq_trans hca h⟩
  · rintro ⟨key, addresses, hkey, c, hc, hcb⟩
    exact ⟨key, addresses, hkey, c, hc, Address.beq_trans hcb (Address.beq_symm h)⟩

/-! ### Adding and letting go -/

/-- A resolver with one more invoker. -/
def add (r : Resolver ι) (a : Address) (i : ι) : Resolver ι :=
  { r with invokers := r.invokers ++ [(a, i)] }

/-- A new invoker is the one of an address that had none. -/
theorem invoker?_add {r : Resolver ι} {a : Address} (h : r.invoker? a = none) (i : ι)
    (b : Address) : (r.add a i).invoker? b = if a == b then some i else r.invoker? b := by
  cases hab : a == b with
  | true =>
    rw [invoker?_congr r hab] at h
    have hnone : r.invokers.find? (fun entry => entry.1 == b) = none := by
      simpa [invoker?] using h
    simp [invoker?, add, List.find?_append, hnone, hab]
  | false => simp [invoker?, add, List.find?_append, hab]

/-- Letting go of what no key holds leaves the invokers of the addresses that some key holds. -/
theorem invoker?_evict (r : Resolver ι) (a : Address) :
    r.evict.2.invoker? a = if r.isHeld a then r.invoker? a else none := by
  have hfilter : ∀ entries : List (Address × ι),
      (entries.filter fun entry => r.isHeld entry.1).find? (fun entry => entry.1 == a) =
        if r.isHeld a then entries.find? (fun entry => entry.1 == a) else none := by
    intro entries
    induction entries with
    | nil => simp
    | cons entry rest ih =>
      cases hsame : entry.1 == a with
      | true =>
        have hheld := r.isHeld_congr hsame
        cases ha : r.isHeld a with
        | true => simp [hheld, ha, hsame]
        | false => simpa [List.filter_cons, hheld, ha] using ih
      | false =>
        cases he : r.isHeld entry.1 <;> simpa [List.filter_cons, he, hsame] using ih
  simp only [invoker?, evict, hfilter]
  split <;> rfl

/-- Evicted are those invokers whose address nobody holds. -/
theorem evict_fst (r : Resolver ι) :
    r.evict.1 = (r.invokers.filter fun entry => !r.isHeld entry.1).map Prod.snd := rfl

/-- What is let go and what stays is all that there was. -/
theorem perm_evict (r : Resolver ι) :
    (r.evict.1 ++ r.evict.2.invokers.map Prod.snd).Perm (r.invokers.map Prod.snd) := by
  rw [evict_fst, evict, ← List.map_append]
  exact (List.perm_append_comm.trans (List.filter_append_perm _ r.invokers)).map Prod.snd

/-- Each address has one entry at most, whatever form it was found in. -/
def Distinct (r : Resolver ι) : Prop :=
  r.invokers.Pairwise fun entry entry' => (entry.1 == entry'.1) = false

private theorem Distinct.add {r : Resolver ι} (h : r.Distinct) {a : Address}
    (ha : r.invoker? a = none)
    (i : ι) : (r.add a i).Distinct := by
  refine List.pairwise_append.mpr ⟨h, List.pairwise_singleton _ _, fun entry he new hnew => ?_⟩
  rw [List.mem_singleton.mp hnew]
  exact invoker?_eq_none_iff.mp ha entry he

/-- After an eviction no two invokers have equal addresses. -/
theorem Distinct.evict {r : Resolver ι} (h : r.Distinct) : r.evict.2.Distinct :=
  List.Pairwise.filter _ h

/-! ### Serving addresses -/

/-- Answers in turn, whatever is asked for; the state counts how often somebody asked. -/
def ask (answers : Nat → Outcome ι) (_ : Address) : StateM Nat (Outcome ι) :=
  fun n => (answers n, n + 1)

/-- What was built by the first answers. -/
def built (answers : Nat → Outcome ι) (n : Nat) : List ι :=
  (List.range n).filterMap fun k => (answers k).toOption

private theorem built_succ (answers : Nat → Outcome ι) (n : Nat) :
    built answers (n + 1) = built answers n ++ (answers n).toOption.toList := by
  simp only [built, List.range_succ, List.filterMap_append, List.filterMap_cons, List.filterMap_nil]
  cases (answers n).toOption <;> rfl

/-- How a list of addresses is served in its order, while the answers are asked for from a certain
one on: an address that has an invoker is served with it, one that has none is served with a new
one, and one for which none can be built is passed over. -/
inductive Serves (answers : Nat → Outcome ι) :
    (Address → Option ι) → Nat → List Address → List (Address × ι) → Nat → Prop where
  /-- There is nobody to serve. -/
  | done {has n} : Serves answers has n [] [] n
  /-- The address has an invoker. -/
  | had {has n a i rest served n'} (h : has a = some i)
      (hrest : Serves answers has n rest served n') :
      Serves answers has n (a :: rest) ((a, i) :: served) n'
  /-- An invoker is built, which equal addresses have from now on. -/
  | made {has n a i rest served n'} (h : has a = none) (hi : answers n = .ok i)
      (hrest : Serves answers (fun b => if a == b then some i else has b) (n + 1) rest served n') :
      Serves answers has n (a :: rest) ((a, i) :: served) n'
  /-- No invoker can be built. -/
  | refused {has n a f rest served n'} (h : has a = none) (hf : answers n = .error f)
      (hrest : Serves answers has (n + 1) rest served n') :
      Serves answers has n (a :: rest) served n'

/-- An address that has an invoker is served with it and never passed over, if equal addresses
have the same invoker. -/
theorem Serves.eq_of_has {answers : Nat → Outcome ι} {has : Address → Option ι} {n n' : Nat}
    {addresses : List Address} {served : List (Address × ι)}
    (h : Serves answers has n addresses served n')
    (hcongr : ∀ a b : Address, (a == b) = true → has a = has b) {a : Address} {i : ι}
    (ha : has a = some i) :
    (a ∈ addresses → (a, i) ∈ served) ∧ ∀ j, (a, j) ∈ served → j = i := by
  induction h with
  | done => simp
  | @had has n b j rest served n' hb hrest ih =>
    obtain ⟨hmem, heq⟩ := ih hcongr ha
    have hj : a = b → j = i := by
      rintro rfl
      exact Option.some_inj.mp (hb.symm.trans ha)
    refine ⟨fun hm => ?_, fun k hk => ?_⟩
    · rcases List.mem_cons.mp hm with rfl | hm
      · rw [hj rfl]
        exact List.mem_cons_self
      · exact List.mem_cons_of_mem _ (hmem hm)
    · rcases List.mem_cons.mp hk with hk | hk
      · cases hk
        exact hj rfl
      · exact heq k hk
  | @made has n b j rest served n' hb hj hrest ih =>
    have hother : ∀ c, (b == c) = true → has c = none := fun c hc => (hcongr b c hc).symm.trans hb
    have hne : (b == a) = false := by
      rw [Bool.eq_false_iff]
      intro hsame
      rw [hother a hsame] at ha
      cases ha
    have hcongr' : ∀ c d : Address, (c == d) = true →
        (if b == c then some j else has c) = if b == d then some j else has d := by
      intro c d hcd
      have hbc : (b == c) = (b == d) := by
        rw [Bool.eq_iff_iff]
        exact ⟨fun h => Address.beq_trans h hcd,
          fun h => Address.beq_trans h (Address.beq_symm hcd)⟩
      rw [hbc, hcongr c d hcd]
    obtain ⟨hmem, heq⟩ := ih hcongr' (by simp [hne, ha])
    have hab : a ≠ b := by
      rintro rfl
      rw [Address.beq_self] at hne
      cases hne
    refine ⟨fun hm => ?_, fun k hk => ?_⟩
    · exact List.mem_cons_of_mem _ (hmem ((List.mem_cons.mp hm).resolve_left hab))
    · rcases List.mem_cons.mp hk with hk | hk
      · cases hk
        exact absurd rfl hab
      · exact heq k hk
  | @refused has n b f rest served n' hb hf hrest ih =>
    obtain ⟨hmem, heq⟩ := ih hcongr ha
    have hab : a ≠ b := by
      rintro rfl
      rw [hb] at ha
      cases ha
    exact ⟨fun hm => hmem ((List.mem_cons.mp hm).resolve_left hab), heq⟩

/-- What a resolver looks like behind a list of addresses that it served. -/
structure Obtains (answers : Nat → Outcome ι) (r : Resolver ι) (n : Nat) (addresses : List Address)
    (served : List (Address × ι)) (r' : Resolver ι) (n' : Nat) : Prop where
  serves : Serves answers r.invoker? n addresses served n'
  byKey_eq : r'.byKey = r.byKey
  distinct : r.Distinct → r'.Distinct
  grown : ∃ new, r'.invokers = r.invokers ++ new ∧
    built answers n' = built answers n ++ new.map Prod.snd ∧ new ⊆ served
  has : ∀ entry, entry ∈ served → r'.invoker? entry.1 = some entry.2

/-- Invokers that come in addition take none away. -/
theorem invoker?_of_append {r r' : Resolver ι} {new : List (Address × ι)}
    (hnew : r'.invokers = r.invokers ++ new) {a : Address} {i : ι} (h : r.invoker? a = some i) :
    r'.invoker? a = some i := by
  obtain ⟨entry, hentry, hi⟩ := Option.map_eq_some_iff.mp h
  rw [invoker?, hnew, List.find?_append, hentry]
  exact congrArg some hi

private theorem run_obtainAll_cons (answers : Nat → Outcome ι) (r : Resolver ι) (a : Address)
    (rest : List Address) (n : Nat) :
    (obtainAll (ask answers) r (a :: rest)).run n =
      (let ((invoker, r), n) := (r.obtain? (ask answers) a).run n
      let ((served, r), n) := (obtainAll (ask answers) r rest).run n
      ((match invoker with
        | some i => ((a, i) :: served, r)
        | none => (served, r)), n)) := rfl

private theorem run_ask_bind {β : Type} (answers : Nat → Outcome ι) (a : Address)
    (next : Outcome ι → StateM Nat β) (n : Nat) :
    (ask answers a >>= next).run n = (next (answers n)).run (n + 1) := rfl

private theorem run_obtain?_of_some {answers : Nat → Outcome ι} {r : Resolver ι} {a : Address}
    {i : ι} (h : r.invoker? a = some i) (n : Nat) :
    (r.obtain? (ask answers) a).run n = ((some i, r), n) := by
  simp only [obtain?, h]
  rfl

private theorem run_obtain?_of_ok {answers : Nat → Outcome ι} {r : Resolver ι} {a : Address}
    (h : r.invoker? a = none) {n : Nat} {i : ι} (hi : answers n = .ok i) :
    (r.obtain? (ask answers) a).run n = ((some i, r.add a i), n + 1) := by
  simp only [obtain?, h]
  rw [run_ask_bind, hi]
  rfl

private theorem run_obtain?_of_error {answers : Nat → Outcome ι} {r : Resolver ι} {a : Address}
    (h : r.invoker? a = none) {n : Nat} {f : Failure} (hf : answers n = .error f) :
    (r.obtain? (ask answers) a).run n = ((none, r), n + 1) := by
  simp only [obtain?, h]
  rw [run_ask_bind, hf]
  rfl

/-- Every list of addresses is served. -/
theorem exists_obtains (answers : Nat → Outcome ι) (addresses : List Address) (r : Resolver ι)
    (n : Nat) : ∃ served r' n', (obtainAll (ask answers) r addresses).run n = ((served, r'), n') ∧
      Obtains answers r n addresses served r' n' := by
  induction addresses generalizing r n with
  | nil => exact ⟨[], r, n, rfl, .done, rfl, id, ⟨[], by simp⟩, by simp⟩
  | cons a rest ih =>
    cases ha : r.invoker? a with
    | some i =>
      obtain ⟨served, r', n', hrun, h⟩ := ih r n
      obtain ⟨new, hnew, hbuilt, hsub⟩ := h.grown
      refine ⟨(a, i) :: served, r', n', ?_, .had ha h.serves, h.byKey_eq, h.distinct,
        ⟨new, hnew, hbuilt, List.Subset.trans hsub (List.subset_cons_self _ _)⟩, ?_⟩
      · simp only [run_obtainAll_cons, run_obtain?_of_some ha, hrun]
      · intro entry hm
        rcases List.mem_cons.mp hm with rfl | hm
        · exact invoker?_of_append hnew ha
        · exact h.has entry hm
    | none =>
      cases hn : answers n with
      | ok i =>
        obtain ⟨served, r', n', hrun, h⟩ := ih (r.add a i) (n + 1)
        obtain ⟨new, hnew, hbuilt, hsub⟩ := h.grown
        have hview : (r.add a i).invoker? = fun b => if a == b then some i else r.invoker? b :=
          funext (invoker?_add ha i)
        refine ⟨(a, i) :: served, r', n', ?_, .made ha hn (hview ▸ h.serves), h.byKey_eq,
          fun hd => h.distinct (hd.add ha i), ⟨(a, i) :: new, ?_, ?_, ?_⟩, ?_⟩
        · simp only [run_obtainAll_cons, run_obtain?_of_ok ha hn, hrun]
        · simp [hnew, add]
        · simp [hbuilt, built_succ, hn, Except.toOption]
        · exact List.cons_subset_cons _ hsub
        · intro entry hm
          rcases List.mem_cons.mp hm with rfl | hm
          · exact invoker?_of_append hnew (by simp [hview, Address.beq_self])
          · exact h.has entry hm
      | error f =>
        obtain ⟨served, r', n', hrun, h⟩ := ih r (n + 1)
        obtain ⟨new, hnew, hbuilt, hsub⟩ := h.grown
        refine ⟨served, r', n', ?_, .refused ha hn h.serves, h.byKey_eq, h.distinct,
          ⟨new, hnew, ?_, hsub⟩, h.has⟩
        · simp only [run_obtainAll_cons, run_obtain?_of_error ha hn, hrun]
        · simp [hbuilt, built_succ, hn, Except.toOption]

end Switchboard.Resolver
