import Switchboard.Registry.Membership

/-!
# What a cache holds under a key

A change of a cache touches one key. Following the children of a key makes the cache hold their
texts there; following the data at a path touches the key that the address belongs to, or the key
above the path if the data is gone.
-/

namespace Switchboard

namespace Cache

/-- The texts under a key; a key that is not there has none. -/
def textsAt (c : Cache) (key : String) : Std.ExtTreeSet String := c.entries.getD key ∅

variable {c : Cache} {key other : String}

private theorem getD_insert_of_ne {e : CacheEntries} (h : other ≠ key)
    (texts : Std.ExtTreeSet String) : (e.insert key texts).getD other ∅ = e.getD other ∅ := by
  rw [Std.ExtTreeMap.getD_insert, if_neg]
  rw [Std.LawfulEqCmp.compare_eq_iff_eq]
  exact Ne.symm h

private theorem textsAt_insert_of_ne (h : other ≠ key) (a : Address) :
    (c.insert key a).2.textsAt other = c.textsAt other :=
  getD_insert_of_ne h _

private theorem textsAt_removeWhere_of_ne (h : other ≠ key) (doomed : String → Bool) :
    (c.removeWhere key doomed).2.textsAt other = c.textsAt other := by
  simp only [textsAt, removeWhere, changed, CacheEntries.removeWhere]
  split
  · rfl
  · simp only
    split
    · rw [Std.ExtTreeMap.getD_erase, if_neg]
      rw [Std.LawfulEqCmp.compare_eq_iff_eq]
      exact Ne.symm h
    · exact getD_insert_of_ne h _

/-- An insertion adds the text of an address to the texts of its key. -/
theorem mem_textsAt_insert_self {text : String} (a : Address) :
    text ∈ (c.insert key a).2.textsAt key ↔ text = a.text ∨ text ∈ c.textsAt key := by
  have hinsert : (c.insert key a).2.textsAt key = (c.textsAt key).insert a.text :=
    Std.ExtTreeMap.getD_insert_self
  rw [hinsert, Std.ExtTreeSet.mem_insert, Std.LawfulEqCmp.compare_eq_iff_eq, eq_comm]

/-- A removal leaves the texts that were not meant. -/
theorem mem_textsAt_removeWhere_self {text : String} (doomed : String → Bool) :
    text ∈ (c.removeWhere key doomed).2.textsAt key ↔
      text ∈ c.textsAt key ∧ doomed text = false := by
  have hleft : (c.removeWhere key doomed).2.textsAt key =
      (c.textsAt key).filter fun text => !doomed text := by
    have htexts : c.textsAt key = (c.entries[key]?).getD ∅ := Std.ExtTreeMap.getD_eq_getD_getElem?
    rw [htexts]
    simp only [textsAt, removeWhere, changed, CacheEntries.removeWhere]
    cases hget : c.entries[key]? with
    | none =>
      rw [Std.ExtTreeMap.getD_eq_getD_getElem?, hget]
      rfl
    | some texts =>
      simp only [Option.getD_some]
      split
      · next hempty =>
        rw [Std.ExtTreeMap.getD_erase_self]
        exact (Std.ExtTreeSet.isEmpty_iff.mp hempty).symm
      · exact Std.ExtTreeMap.getD_insert_self
  rw [hleft, Std.ExtTreeSet.mem_filter]
  simp

/-- Children that are told replace the texts of their key and of no other. -/
theorem textsAt_followChildren (source : String) (children : List Address) :
    (c.followChildren source children).textsAt key =
      if source = key then .ofList (children.map Address.text) else c.textsAt key := by
  by_cases h : source = key
  · subst h
    rw [if_pos rfl]
    exact Std.ExtTreeMap.getD_insert_self
  · rw [if_neg h]
    exact getD_insert_of_ne (Ne.symm h) _

/-- Whether what is told of the data at a path is about a key: the key that the address belongs to,
or the one above the path if the data is gone. -/
def concerns (key source : String) : Option Address → Bool
  | some a => a.serviceKey == key
  | none => (Key.split? source).any fun parts => parts.1 == key

/-- Data that does not concern a key leaves the texts under it. -/
theorem textsAt_followData {source : String} {address : Option Address}
    (h : concerns key source address = false) :
    (c.followData source address).textsAt key = c.textsAt key := by
  cases address with
  | some a =>
    have hne : key ≠ a.serviceKey := Ne.symm (beq_eq_false_iff_ne.mp h)
    simp only [followData]
    rw [textsAt_insert_of_ne hne]
    split
    · exact textsAt_removeWhere_of_ne hne _
    · rfl
  | none =>
    simp only [followData]
    split
    · next parent node hsplit =>
      have hne : parent ≠ key := by simpa [concerns, hsplit] using h
      exact textsAt_removeWhere_of_ne (Ne.symm hne) _
    · rfl

/-- The addresses of a cache are those that its texts are read as. -/
theorem mem_addresses_iff {a : Address} :
    a ∈ (c.addresses key).getD [] ↔ ∃ text, text ∈ c.textsAt key ∧ Address.parse text = .ok a := by
  have hparse : ∀ text, (Address.parse text).toOption = some a ↔ Address.parse text = .ok a := by
    intro text
    cases Address.parse text <;> simp [Except.toOption]
  simp only [addresses, textsAt, Std.ExtTreeMap.getD_eq_getD_getElem?]
  cases c.entries[key]? with
  | none => simp
  | some texts => simp [hparse]

end Cache

end Switchboard
