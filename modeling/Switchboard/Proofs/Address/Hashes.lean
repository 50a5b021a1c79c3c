import Mathlib.Data.List.Nodup
import Mathlib.Data.String.Basic
import Switchboard.Proofs.Address.Equality

/-!
# What a hash of an address is made of

Equality takes parameters as a map, and a hash takes them in ascending order. The two agree: equal
addresses and no others are hashed from the same words, whatever parameters were set, replaced and
taken out in whatever order, and whatever rides along.
-/

namespace Switchboard

namespace Parameters

private theorem get?_eq_some_iff {p : Parameters} {key value : String} :
    p.get? key = some value ↔ (key, value) ∈ p.entries :=
  ⟨mem_of_get?, get?_of_mem⟩

/-- A key that is given a value has it, and every other key keeps its own. -/
theorem get?_insert (p : Parameters) (key value other : String) :
    (p.insert key value).get? other = if key = other then some value else p.get? other := by
  refine Option.ext fun found => ?_
  rw [get?_eq_some_iff]
  unfold insert
  split
  · next hkey =>
    simp only [List.mem_map, overwrite]
    by_cases h : key = other
    · subst h
      obtain ⟨old, hold, hfst⟩ := List.mem_map.mp hkey
      rw [if_pos rfl, Option.some_inj]
      constructor
      · rintro ⟨e, -, he⟩
        split at he
        · exact (Prod.mk.inj he).2
        · next hne => exact absurd (congrArg Prod.fst he) hne
      · rintro rfl
        exact ⟨old, hold, if_pos hfst⟩
    · rw [if_neg h, get?_eq_some_iff]
      constructor
      · rintro ⟨e, hmem, he⟩
        split at he
        · exact absurd (Prod.mk.inj he).1 h
        · exact he ▸ hmem
      · exact fun hmem => ⟨_, hmem, if_neg (Ne.symm h)⟩
  · next hkey =>
    by_cases h : key = other
    · subst h
      have hnew : (key, found) ∉ p.entries := fun hm => hkey (List.mem_map.mpr ⟨_, hm, rfl⟩)
      simp [hnew, eq_comm]
    · simp [h, Ne.symm h, get?_eq_some_iff]

/-- A key that is taken out has no value, and every other key keeps its own. -/
theorem get?_erase (p : Parameters) (key other : String) :
    (p.erase key).get? other = if key = other then none else p.get? other := by
  refine Option.ext fun found => ?_
  rw [get?_eq_some_iff]
  by_cases h : key = other
  · simp [erase, h]
  · simp [erase, h, Ne.symm h, get?_eq_some_iff]

/-! ### The ascending order -/

private theorem pairLe_iff {a b : String × String} :
    pairLe a b = true ↔ a.1 < b.1 ∨ a.1 = b.1 ∧ a.2 ≤ b.2 := by
  simp [pairLe]

private theorem pairLe_trans (a b c : String × String) (h : pairLe a b = true)
    (h' : pairLe b c = true) : pairLe a c = true := by
  rw [pairLe_iff] at h h' ⊢
  rcases h with h | ⟨h, hle⟩ <;> rcases h' with h' | ⟨h', hle'⟩
  · exact .inl (h.trans h')
  · exact .inl (h' ▸ h)
  · exact .inl (h ▸ h')
  · exact .inr ⟨h.trans h', hle.trans hle'⟩

private theorem pairLe_total (a b : String × String) : (pairLe a b || pairLe b a) = true := by
  rw [Bool.or_eq_true, pairLe_iff, pairLe_iff]
  rcases lt_trichotomy a.1 b.1 with h | h | h
  · exact .inl (.inl h)
  · exact (le_total a.2 b.2).imp (fun hle => .inr ⟨h, hle⟩) fun hle => .inr ⟨h.symm, hle⟩
  · exact .inr (.inl h)

private theorem eq_of_pairLe {a b : String × String} (h : pairLe a b = true)
    (h' : pairLe b a = true) : a = b := by
  rw [pairLe_iff] at h h'
  rcases h with h | ⟨h, hle⟩ <;> rcases h' with h' | ⟨h', hle'⟩
  · exact absurd h' h.asymm
  · exact absurd h'.symm h.ne
  · exact absurd h.symm h'.ne
  · exact Prod.ext h (hle.antisymm hle')

private theorem mem_sorted {p : Parameters} {entry : String × String} :
    entry ∈ p.sorted ↔ entry ∈ p.entries := List.mem_mergeSort

/-- Parameters come to the same pairs in ascending order just if they give every key the same
value. -/
theorem sorted_eq_iff {p q : Parameters} :
    p.sorted = q.sorted ↔ ∀ key, p.get? key = q.get? key := by
  constructor
  · intro h key
    refine Option.ext fun value => ?_
    rw [get?_eq_some_iff, get?_eq_some_iff, ← mem_sorted, h, mem_sorted]
  · intro h
    have hmem : ∀ entry, entry ∈ p.entries ↔ entry ∈ q.entries := fun entry => by
      rw [← get?_eq_some_iff, h, get?_eq_some_iff]
    have hperm : p.entries.Perm q.entries :=
      (List.perm_ext_iff_of_nodup (List.Nodup.of_map _ p.nodup_keys)
        (List.Nodup.of_map _ q.nodup_keys)).mpr fun entry => hmem entry
    exact List.Perm.eq_of_pairwise (fun _ _ _ _ => eq_of_pairLe)
      (List.pairwise_mergeSort pairLe_trans pairLe_total _)
      (List.pairwise_mergeSort pairLe_trans pairLe_total _)
      ((List.mergeSort_perm _ _).trans (hperm.trans (List.mergeSort_perm _ _).symm))

end Parameters

namespace Address

/-! ### Words -/

private theorem hashPart_append_inj {part part' : Option String} {rest rest' : List HashWord} :
    hashPart part ++ rest = hashPart part' ++ rest' ↔ part = part' ∧ rest = rest' := by
  cases part <;> cases part' <;> simp [hashPart]

private theorem eq_of_flatMap_words {pairs pairs' : List (String × String)}
    (h : (pairs.flatMap fun entry => [HashWord.text entry.1, .text entry.2]) =
      pairs'.flatMap fun entry => [.text entry.1, .text entry.2]) : pairs = pairs' := by
  induction pairs generalizing pairs' with
  | nil =>
    cases pairs' with
    | nil => rfl
    | cons e rest => cases h
  | cons e rest ih =>
    cases pairs' with
    | nil => cases h
    | cons e' rest' =>
      simp only [List.flatMap_cons, List.cons_append, List.nil_append, List.cons.injEq,
        HashWord.text.injEq] at h
      rw [Prod.ext h.1 h.2.1, ih h.2.2]

/-- Addresses are hashed from the same words just if they are equal. -/
theorem hashWords_eq_iff {a b : Address} : a.hashWords = b.hashWords ↔ (a == b) = true := by
  have hlength : ∀ p : Parameters, p.entries.length = p.sorted.length := fun p =>
    (List.length_mergeSort _).symm
  rw [beq_iff, Parameters.same_iff, ← Parameters.sorted_eq_iff]
  simp only [hashWords, List.append_assoc, hashPart_append_inj, List.cons_append, List.nil_append,
    List.cons.injEq, HashWord.number.injEq, UInt16.toNat_inj, hlength]
  constructor
  · rintro ⟨hprotocol, husername, hpassword, hhost, hport, hpath, -, hpairs⟩
    exact ⟨hport, hprotocol, husername, hpassword, hhost, hpath, eq_of_flatMap_words hpairs⟩
  · rintro ⟨hport, hprotocol, husername, hpassword, hhost, hpath, hsorted⟩
    rw [hsorted]
    exact ⟨hprotocol, husername, hpassword, hhost, hport, hpath, rfl, rfl⟩

/-! ### Histories of edits -/

/-- An edit of what an address carries behind its path or beside it. -/
inductive Edit where
  /-- A parameter is set, in place of the value that it had. -/
  | set (key value : String)
  /-- A parameter is taken out. -/
  | remove (key : String)
  /-- Something is attached. -/
  | attach (key : String) (value : Attachment)
  /-- Something is detached. -/
  | detach (key : String)

/-- The address after an edit. -/
def edit (a : Address) : Edit → Address
  | .set key value => a.withParameter key value
  | .remove key => a.withoutParameter key
  | .attach key value => a.attach key value
  | .detach key => a.detach key

/-- The address after a history of edits, first edit first. -/
def edited (a : Address) (edits : List Edit) : Address := edits.foldl edit a

/-- What one edit makes of the value of a key. -/
def Edit.on (key : String) (value : Option String) : Edit → Option String
  | set key' value' => if key' = key then some value' else value
  | remove key' => if key' = key then none else value
  | attach .. | detach _ => value

/-- What a history of edits makes of the value of a key. -/
def Edit.left (key : String) (value : Option String) (edits : List Edit) : Option String :=
  edits.foldl (Edit.on key) value

private theorem parameter?_edit (a : Address) (e : Edit) (key : String) :
    (a.edit e).parameter? key = e.on key (a.parameter? key) := by
  cases e with
  | set key' value => exact a.parameters.get?_insert key' value key
  | remove key' => exact a.parameters.get?_erase key' key
  | attach | detach => rfl

/-- A history of edits does to each key what its edits of that key do. -/
theorem parameter?_edited (a : Address) (edits : List Edit) (key : String) :
    (a.edited edits).parameter? key = Edit.left key (a.parameter? key) edits := by
  induction edits generalizing a with
  | nil => rfl
  | cons e rest ih =>
    calc ((a.edit e).edited rest).parameter? key
        = Edit.left key ((a.edit e).parameter? key) rest := ih (a.edit e)
      _ = Edit.left key (e.on key (a.parameter? key)) rest := by rw [parameter?_edit]

/-- Edits leave the parts of an address before its parameters as they are. -/
theorem parts_edited (a : Address) (edits : List Edit) :
    ∃ parameters attachments, a.edited edits = { a with parameters, attachments } := by
  induction edits generalizing a with
  | nil => exact ⟨_, _, rfl⟩
  | cons e rest ih =>
    obtain ⟨parameters, attachments, h⟩ := ih (a.edit e)
    refine ⟨parameters, attachments, h.trans ?_⟩
    cases e <;> rfl

/-- Two addresses with any histories of edits behind them are equal just if they are hashed from the
same words. They are just if they had the same parts, and every key was left with the same value:
neither the order in which keys were edited nor what rides along makes a difference. -/
theorem hashWords_edited_eq_iff (a b : Address) (edits edits' : List Edit) :
    ((a.edited edits == b.edited edits') = true ↔
        (a.edited edits).hashWords = (b.edited edits').hashWords) ∧
      ((a.edited edits).hashWords = (b.edited edits').hashWords ↔
        a.port = b.port ∧ a.protocol = b.protocol ∧ a.username = b.username ∧
          a.password = b.password ∧ a.host = b.host ∧ a.path = b.path ∧
          ∀ key, Edit.left key (a.parameter? key) edits =
            Edit.left key (b.parameter? key) edits') := by
  refine ⟨hashWords_eq_iff.symm, ?_⟩
  simp only [hashWords_eq_iff, beq_iff, Parameters.same_iff, ← parameter?_edited]
  obtain ⟨parameters, attachments, h⟩ := a.parts_edited edits
  obtain ⟨parameters', attachments', h'⟩ := b.parts_edited edits'
  rw [h, h']
  rfl

end Address

end Switchboard
