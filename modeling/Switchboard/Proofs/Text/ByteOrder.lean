import Switchboard.Proofs.Text.Encodings

/-!
# The order of bytes

Texts stand in the order of their characters just as their UTF-8 bytes stand in the order of bytes:
of two characters, the one with the longer form has the greater lead byte, and forms of one length
are compared digit by digit.
-/

namespace Switchboard.Text.Utf8

private theorem cons_byte_lt_iff {m n : Nat} (hm : m < 256) (hn : n < 256) (u v : List UInt8) :
    UInt8.ofNat m :: u < UInt8.ofNat n :: v ↔ m < n ∨ m = n ∧ u < v := by
  have hm' : (UInt8.ofNat m).toNat = m := UInt8.toNat_ofNat_of_lt' hm
  have hn' : (UInt8.ofNat n).toNat = n := UInt8.toNat_ofNat_of_lt' hn
  rw [List.cons_lt_cons_iff, UInt8.lt_iff_toNat_lt, ← UInt8.toNat_inj, hm', hn']

/-- The bytes of a lesser character come before those of a greater one, whatever follows. -/
theorem encodeChar_append_lt {c d : Char} (h : c < d) (u v : List UInt8) :
    encodeChar c ++ u < encodeChar d ++ v := by
  have hc := toNat_char_bounds c
  have hd := toNat_char_bounds d
  replace h : c.toNat < d.toNat := h
  generalize hn : c.toNat = n at hc h
  generalize hm : d.toNat = m at hd h
  simp only [encodeChar, hn, hm]
  repeat' split
  all_goals
    simp (disch := omega) only [List.cons_append, List.nil_append, cons_byte_lt_iff]
    omega

/-- Texts are in the order of their bytes. -/
theorem encode_lt_encode_iff {s t : List Char} : encode s < encode t ↔ s < t := by
  have hmono : ∀ {s t : List Char}, s < t → encode s < encode t := by
    intro s
    induction s with
    | nil =>
      intro t h
      cases t with
      | nil => exact absurd h (List.lt_irrefl [])
      | cons d t =>
        obtain ⟨b, r, hb⟩ := List.exists_cons_of_ne_nil (encodeChar_ne_nil d)
        simp [encode, hb]
    | cons c s ih =>
      intro t h
      cases t with
      | nil => exact absurd h (List.not_lt_nil _)
      | cons d t =>
        rcases List.cons_lt_cons_iff.mp h with hlt | ⟨rfl, hlt⟩
        · exact encodeChar_append_lt hlt _ _
        · exact List.append_left_lt (ih hlt)
  refine ⟨fun h => Decidable.byContradiction fun hnot => ?_, hmono⟩
  rcases List.le_iff_lt_or_eq.mp (List.not_lt.mp hnot) with hgt | rfl
  · exact List.lt_asymm (hmono hgt) h
  · exact List.lt_irrefl _ h

end Switchboard.Text.Utf8
