import Switchboard.Proofs.Registry.CacheFile

/-!
# Changes of a cache

A change says whether it changed anything, and what it says is right but for one case: a key
without any address may come or go unreported. Whether it does depends on the entries alone.
-/

namespace Switchboard

namespace Cache

/-- A change of the entries of a cache. -/
inductive Change where
  /-- An address is added under a key. -/
  | insert (key : String) (a : Address)
  /-- An address is removed under a key. -/
  | remove (key : String) (a : Address)
  /-- The texts under a key that satisfy a condition are removed. -/
  | removeWhere (key : String) (doomed : String → Bool)
  /-- All under a key is replaced. -/
  | replace (key : String) (addresses : List Address)

namespace Change

/-- Makes a change, and says what it reports. -/
def apply (c : Cache) : Change → Bool × Cache
  | .insert key a => c.insert key a
  | .remove key a => c.remove key a
  | .removeWhere key doomed => c.removeWhere key doomed
  | .replace key addresses => c.replace key addresses

/-- What a change makes of entries. -/
def outcome (e : CacheEntries) : Change → Bool × CacheEntries
  | .insert key a => e.add key a.text
  | .remove key a => e.removeWhere key fun text => text == a.text
  | .removeWhere key doomed => e.removeWhere key doomed
  | .replace key addresses => e.replace key (addresses.map Address.text)

/-- A cache takes over what a change makes of its entries. -/
theorem apply_eq (c : Cache) (change : Change) :
    change.apply c = c.changed (change.outcome c.entries) := by
  cases change <;> rfl

/-- The texts of the addresses that a change brings are words. -/
def Legible : Change → Prop
  | .insert _ a => Text.IsWord a.text.toList
  | .replace _ addresses => ∀ a, a ∈ addresses → Text.IsWord a.text.toList
  | _ => True

/-- The key without any address that a change makes come or go, which it does not report. -/
def unreportedKey? (e : CacheEntries) : Change → Option String
  | .insert _ _ => none
  | .remove key _ | .removeWhere key _ => if e[key]? = some ∅ then some key else none
  | .replace key addresses => if addresses = [] ∧ e[key]? = none then some key else none

end Change

end Cache

namespace CacheEntries

/-- Lets a key come without any text if it is not there, and go if it is. -/
def toggle (e : CacheEntries) (key : String) : CacheEntries :=
  if key ∈ e then e.erase key else e.insert key ∅

/-- A key without any text comes or goes. -/
theorem getElem?_toggle {e : CacheEntries} {key : String}
    (h : e[key]? = none ∨ e[key]? = some ∅) :
    e[key]? = none ∧ (e.toggle key)[key]? = some ∅ ∨
      e[key]? = some ∅ ∧ (e.toggle key)[key]? = none := by
  unfold toggle
  rcases h with h | h
  · have hmem : key ∉ e := by
      rw [Std.ExtTreeMap.mem_iff_isSome_getElem?, h]
      simp
    rw [if_neg hmem, Std.ExtTreeMap.getElem?_insert_self]
    exact .inl ⟨h, rfl⟩
  · have hmem : key ∈ e := Std.ExtTreeMap.mem_iff_isSome_getElem?.mpr (by rw [h]; rfl)
    rw [if_pos hmem, Std.ExtTreeMap.getElem?_erase_self]
    exact .inr ⟨h, rfl⟩

/-- The other keys stay. -/
theorem getElem?_toggle_of_ne (e : CacheEntries) {key key' : String} (h : key ≠ key') :
    (e.toggle key)[key']? = e[key']? := by
  unfold toggle
  split
  · rw [Std.ExtTreeMap.getElem?_erase, if_neg]
    rwa [Std.LawfulEqCmp.compare_eq_iff_eq]
  · rw [Std.ExtTreeMap.getElem?_insert, if_neg]
    rwa [Std.LawfulEqCmp.compare_eq_iff_eq]

/-- Whether an outcome reports a change just if it is one, unless it lets a key come or go. -/
def Faithful (e : CacheEntries) (outcome : Bool × CacheEntries) : Option String → Prop
  | none => outcome.1 = true ↔ outcome.2 ≠ e
  | some key => outcome = (false, e.toggle key)

private theorem insert_eq_self_iff {e : CacheEntries} {key : String}
    {texts : Std.ExtTreeSet String} : e.insert key texts = e ↔ e[key]? = some texts := by
  constructor
  · intro h
    rw [← h, Std.ExtTreeMap.getElem?_insert_self]
  · intro h
    apply Std.ExtTreeMap.ext_getElem?
    intro key'
    rw [Std.ExtTreeMap.getElem?_insert]
    split
    · next hkey => rw [← Std.LawfulEqCmp.compare_eq_iff_eq.mp hkey, h]
    · rfl

private theorem erase_ne_self {e : CacheEntries} {key : String} {texts : Std.ExtTreeSet String}
    (h : e[key]? = some texts) : e.erase key ≠ e := by
  intro heq
  rw [← heq, Std.ExtTreeMap.getElem?_erase_self] at h
  cases h

private theorem getD_of_getElem? {e : CacheEntries} {key : String} {texts : Std.ExtTreeSet String}
    (h : e[key]? = some texts) : e.getD key ∅ = texts := by
  rw [Std.ExtTreeMap.getD_eq_getD_getElem?, h]
  rfl

private theorem getD_of_getElem?_eq_none {e : CacheEntries} {key : String} (h : e[key]? = none) :
    e.getD key ∅ = ∅ := by
  rw [Std.ExtTreeMap.getD_eq_getD_getElem?, h]
  rfl

/-- Adding a text is reported just if the text was not there. -/
theorem faithful_add (e : CacheEntries) (key text : String) :
    Faithful e (e.add key text) none := by
  unfold Faithful
  simp only [add, Bool.not_eq_true', Ne, insert_eq_self_iff]
  constructor
  · intro hnew heq
    rw [getD_of_getElem? heq, Std.ExtTreeSet.contains_insert_self] at hnew
    cases hnew
  · intro hne
    cases hmem : (e.getD key ∅).contains text with
    | false => rfl
    | true =>
      cases hget : e[key]? with
      | none =>
        rw [getD_of_getElem?_eq_none hget] at hmem
        simp at hmem
      | some texts =>
        rw [getD_of_getElem? hget] at hmem hne
        refine absurd ?_ hne
        rw [hget]
        congr 1
        apply Std.ExtTreeSet.ext_mem
        intro t
        rw [Std.ExtTreeSet.mem_insert, Std.LawfulEqCmp.compare_eq_iff_eq]
        constructor
        · exact .inr
        · rintro (rfl | ht)
          · exact hmem
          · exact ht

/-- Removing texts is reported just if there were any; a key without any text goes unreported. -/
theorem faithful_removeWhere (e : CacheEntries) (key : String) (doomed : String → Bool) :
    Faithful e (e.removeWhere key doomed) (if e[key]? = some ∅ then some key else none) := by
  unfold removeWhere
  cases hget : e[key]? with
  | none => simp [Faithful]
  | some texts =>
    by_cases hempty : texts = ∅
    · subst hempty
      have hmem : key ∈ e := Std.ExtTreeMap.mem_iff_isSome_getElem?.mpr (by rw [hget]; rfl)
      have hfilter : (∅ : Std.ExtTreeSet String).filter (fun text => !doomed text) = ∅ := by
        apply Std.ExtTreeSet.filter_eq_empty_iff.mpr
        simp
      simp [Faithful, toggle, hmem, hfilter]
    · simp only [Option.some.injEq, hempty, if_false, Faithful, decide_eq_true_iff]
      have hsize : (texts.filter fun text => !doomed text).size = texts.size ↔
          (texts.filter fun text => !doomed text) = texts := by
        rw [Std.ExtTreeSet.size_filter_eq_size_iff, Std.ExtTreeSet.filter_eq_self_iff]
      rw [ne_eq, hsize]
      split
      · next hleft =>
        have hleft := Std.ExtTreeSet.isEmpty_iff.mp hleft
        rw [hleft]
        exact ⟨fun _ => erase_ne_self hget, fun _ heq => hempty heq.symm⟩
      · rw [ne_eq, insert_eq_self_iff, hget, Option.some.injEq]
        exact ⟨fun h heq => h heq.symm, fun h heq => h heq.symm⟩

/-- Replacing all under a key is reported just if that makes a difference; a key that comes without
any text is not reported. -/
theorem faithful_replace (e : CacheEntries) (key : String) (texts : List String) :
    Faithful e (e.replace key texts)
      (if texts = [] ∧ e[key]? = none then some key else none) := by
  unfold replace
  cases hget : e[key]? with
  | none =>
    have hmem : key ∉ e := by
      rw [Std.ExtTreeMap.mem_iff_isSome_getElem?, hget]
      simp
    simp only [and_true, getD_of_getElem?_eq_none hget]
    split
    · next hnil =>
      subst hnil
      simp [Faithful, toggle, hmem]
    · next hne =>
      have hfresh : ∅ ≠ Std.ExtTreeSet.ofList texts := by
        intro heq
        exact hne (Std.ExtTreeSet.ofList_eq_empty_iff.mp heq.symm)
      simp [Faithful, insert_eq_self_iff, hget, hfresh]
  | some old =>
    simp [Faithful, insert_eq_self_iff, hget, getD_of_getElem? hget]

/-- Removing texts keeps entries legible. -/
theorem Legible.removeWhere {e : CacheEntries} (he : e.Legible) (key : String)
    (doomed : String → Bool) : (e.removeWhere key doomed).2.Legible := by
  unfold CacheEntries.removeWhere
  cases hget : e[key]? with
  | none => exact he
  | some texts =>
    simp only
    split
    · intro key' texts' hget'
      rw [Std.ExtTreeMap.getElem?_erase] at hget'
      split at hget'
      · cases hget'
      · exact he key' texts' hget'
    · apply he.insert
      intro t ht
      exact he key texts hget t (Std.ExtTreeSet.mem_of_mem_filter ht)

end CacheEntries

namespace Cache.Change

/-- A change reports what it is, unless it lets a key come or go. -/
theorem faithful_outcome (e : CacheEntries) (change : Change) :
    e.Faithful (change.outcome e) (change.unreportedKey? e) := by
  cases change with
  | insert key a => exact e.faithful_add key a.text
  | remove key a => exact e.faithful_removeWhere key _
  | removeWhere key doomed => exact e.faithful_removeWhere key doomed
  | replace key addresses =>
    have h := e.faithful_replace key (addresses.map Address.text)
    simp only [List.map_eq_nil_iff] at h
    exact h

/-- A key that comes or goes unreported has no text before it goes. -/
theorem getElem?_of_unreportedKey? {e : CacheEntries} {change : Change} {key : String}
    (h : change.unreportedKey? e = some key) : e[key]? = none ∨ e[key]? = some ∅ := by
  cases change with
  | insert key' a => cases h
  | remove key' a | removeWhere key' doomed =>
    simp only [unreportedKey?] at h
    split at h
    · next hget =>
      cases h
      exact .inr hget
    · cases h
  | replace key' addresses =>
    simp only [unreportedKey?] at h
    split at h
    · next hget =>
      cases h
      exact .inl hget.2
    · cases h

/-- A change that brings words keeps entries legible. -/
theorem legible_outcome {e : CacheEntries} (he : e.Legible) {change : Change}
    (h : change.Legible) : (change.outcome e).2.Legible := by
  cases change with
  | insert key a =>
    apply he.insert
    intro t ht
    rw [Std.ExtTreeSet.mem_insert, Std.LawfulEqCmp.compare_eq_iff_eq] at ht
    rcases ht with rfl | ht
    · exact h
    · cases hget : e[key]? with
      | none =>
        rw [Std.ExtTreeMap.getD_eq_getD_getElem?, hget] at ht
        simp at ht
      | some texts =>
        rw [Std.ExtTreeMap.getD_eq_getD_getElem?, hget] at ht
        exact he key texts hget t ht
  | remove key a => exact he.removeWhere key _
  | removeWhere key doomed => exact he.removeWhere key doomed
  | replace key addresses =>
    apply he.insert
    intro t ht
    simp only [Std.ExtTreeSet.mem_ofList, List.contains_iff_mem, List.mem_map] at ht
    obtain ⟨a, ha, rfl⟩ := ht
    exact h a ha

end Cache.Change

namespace Cache.Change

/-- Whether a change reports that it is one just if it is. -/
def Reports (e : CacheEntries) (change : Change) : Prop :=
  (change.outcome e).1 = true ↔ (change.outcome e).2 ≠ e

/-- A change that reports what it is lets no key come or go unreported, and the other way round. -/
theorem unreportedKey?_eq_none_iff {e : CacheEntries} {change : Change} :
    change.unreportedKey? e = none ↔ change.Reports e := by
  have hfaithful := change.faithful_outcome e
  cases hkey : change.unreportedKey? e with
  | none =>
    rw [hkey] at hfaithful
    exact iff_of_true rfl hfaithful
  | some key =>
    rw [hkey] at hfaithful
    have houtcome : change.outcome e = (false, e.toggle key) := hfaithful
    have hturn := CacheEntries.getElem?_toggle (getElem?_of_unreportedKey? hkey)
    have hne : e.toggle key ≠ e := by
      intro heq
      rw [heq] at hturn
      rcases hturn with ⟨hnone, hsome⟩ | ⟨hsome, hnone⟩ <;> cases hnone.symm.trans hsome
    simp [Reports, houtcome, hne]

end Cache.Change

namespace CacheEntries

/-- What stands under a key now and what stood there before it came or went `n` times. -/
def Apart (n : Nat) (before now : Option (Std.ExtTreeSet String)) : Prop :=
  if n % 2 = 0 then before = now
  else now = none ∧ before = some ∅ ∨ now = some ∅ ∧ before = none

section Apart

variable {n : Nat} {before now now' : Option (Std.ExtTreeSet String)}

private theorem Apart.turn (h : Apart n before now)
    (hturn : now = none ∧ now' = some ∅ ∨ now = some ∅ ∧ now' = none) :
    Apart (n + 1) before now' := by
  unfold Apart at h ⊢
  by_cases hn : n % 2 = 0
  · rw [if_pos hn] at h
    rw [if_neg (by omega), h]
    rcases hturn with ⟨hnow, hnow'⟩ | ⟨hnow, hnow'⟩
    · exact .inr ⟨hnow', hnow⟩
    · exact .inl ⟨hnow', hnow⟩
  · rw [if_neg hn] at h
    rw [if_pos (by omega)]
    rcases hturn with ⟨hnow, hnow'⟩ | ⟨hnow, hnow'⟩ <;> rcases h with ⟨h, hbefore⟩ | ⟨h, hbefore⟩
    · rw [hnow', hbefore]
    · rw [hnow] at h
      cases h
    · rw [hnow] at h
      cases h
    · rw [hnow', hbefore]

private theorem Apart.eq_iff (h : Apart n before now) : before = now ↔ n % 2 = 0 := by
  unfold Apart at h
  by_cases hn : n % 2 = 0
  · rw [if_pos hn] at h
    exact iff_of_true h hn
  · rw [if_neg hn] at h
    refine ⟨fun heq => ?_, fun heven => absurd heven hn⟩
    rcases h with ⟨hnow, hbefore⟩ | ⟨hnow, hbefore⟩
    · rw [hnow, hbefore] at heq
      cases heq
    · rw [hnow, hbefore] at heq
      cases heq

private theorem Apart.getD_eq (h : Apart n before now) : before.getD ∅ = now.getD ∅ := by
  unfold Apart at h
  split at h
  · rw [h]
  · rcases h with ⟨hnow, hbefore⟩ | ⟨hnow, hbefore⟩
    · rw [hnow, hbefore]
      rfl
    · rw [hnow, hbefore]
      rfl

end Apart

/-- Whether entries became others by keys that came or went without any text, each as often as it is
in a list. -/
def Turned (turned : List String) (before now : CacheEntries) : Prop :=
  ∀ key : String, Apart (turned.count key) before[key]? now[key]?

variable {turned : List String} {before now : CacheEntries}

/-- Entries are themselves before any key came or went. -/
theorem Turned.refl (e : CacheEntries) : Turned [] e e := fun _ => rfl

/-- Entries are the same again just if every key came or went an even number of times. -/
theorem Turned.eq_iff (h : Turned turned before now) :
    before = now ↔ ∀ key, turned.count key % 2 = 0 := by
  constructor
  · intro heq key
    exact (h key).eq_iff.mp (by rw [heq])
  · intro heven
    exact Std.ExtTreeMap.ext_getElem? fun key => (h key).eq_iff.mpr (heven key)

/-- Keys that come and go without any text bring and take none. -/
theorem Turned.getD_eq (h : Turned turned before now) (key : String) :
    before.getD key ∅ = now.getD key ∅ := by
  rw [Std.ExtTreeMap.getD_eq_getD_getElem?, Std.ExtTreeMap.getD_eq_getD_getElem?]
  exact (h key).getD_eq

/-- A change that is not reported lets at most one key come or go. -/
theorem Turned.outcome (h : Turned turned before now) {change : Cache.Change}
    (hsilent : (change.outcome now).1 = false) :
    Turned ((change.unreportedKey? now).toList ++ turned) before (change.outcome now).2 := by
  have hfaithful := change.faithful_outcome now
  cases hkey : change.unreportedKey? now with
  | none =>
    rw [hkey] at hfaithful
    have hsame : (change.outcome now).2 = now := by
      apply Classical.byContradiction
      intro hne
      cases hsilent.symm.trans (hfaithful.mpr hne)
    rw [hsame]
    exact h
  | some key' =>
    rw [hkey] at hfaithful
    rw [show (change.outcome now).2 = now.toggle key' from congrArg Prod.snd hfaithful]
    have hturn := getElem?_toggle (Cache.Change.getElem?_of_unreportedKey? hkey)
    intro key
    rw [Option.toList_some, List.singleton_append, List.count_cons]
    by_cases heq : key' = key
    · subst heq
      rw [beq_self_eq_true, if_pos rfl]
      exact (h key').turn hturn
    · rw [if_neg (by simpa using heq), getElem?_toggle_of_ne _ heq]
      exact h key

end CacheEntries

end Switchboard
