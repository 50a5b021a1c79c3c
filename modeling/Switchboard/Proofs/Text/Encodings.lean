import Mathlib.Algebra.Group.Nat.Defs
import Switchboard.Text.Decimal
import Switchboard.Text.Hexadecimal
import Switchboard.Text.Utf16
import Switchboard.Text.Utf8

/-!
# Round trips of encodings

A text is read back from its UTF-8 bytes and from its UTF-16 units, whichever reader is used: the
strict and the repairing one agree on what was written. Hexadecimal and decimal digits are read back
too.
-/

namespace Switchboard.Text

/-- A code point lies below or above the surrogates. -/
theorem toNat_char_bounds (c : Char) :
    c.toNat < 0xD800 ∨ 0xDFFF < c.toNat ∧ c.toNat < 0x110000 := by
  have hv := c.valid
  simpa [UInt32.isValidChar, Nat.isValidChar] using hv

namespace Utf8

private theorem toNat_byte {n : Nat} (h : n < 256) : (UInt8.ofNat n).toNat = n :=
  UInt8.toNat_ofNat_of_lt' h

private theorem tailsFrom_tail (bits count : Nat) {m : Nat} (h : m < 64) (r : List UInt8) :
    tailsFrom bits (count + 1) (UInt8.ofNat (0x80 + m) :: r) =
      tailsFrom (bits * 64 + m) count r := by
  have hm : (UInt8.ofNat (0x80 + m)).toNat = 0x80 + m := toNat_byte (by omega)
  have htail : isTail (UInt8.ofNat (0x80 + m)) = true := by
    simp only [isTail, hm, Bool.and_eq_true, decide_eq_true_eq]
    omega
  simp only [tailsFrom, htail, if_true, hm, Nat.add_sub_cancel_left]

private theorem lead?_two {m : Nat} (h : 2 ≤ m) (h' : m < 32) :
    lead? (UInt8.ofNat (0xC0 + m)) = some ⟨1, m, 0x80, 0xBF⟩ := by
  have h1 : ¬ 0xC0 + m < 0xC2 := by omega
  have h2 : 0xC0 + m < 0xE0 := by omega
  simp only [lead?, toNat_byte (show 0xC0 + m < 256 by omega), if_neg h1, if_pos h2,
    Nat.add_sub_cancel_left]

private theorem lead?_three {m : Nat} (h : m < 16) :
    lead? (UInt8.ofNat (0xE0 + m)) =
      some ⟨2, m, if m = 0 then 0xA0 else 0x80, if m = 13 then 0x9F else 0xBF⟩ := by
  have h1 : ¬ 0xE0 + m < 0xC2 := by omega
  have h2 : ¬ 0xE0 + m < 0xE0 := by omega
  have h3 : 0xE0 + m < 0xF0 := by omega
  have h4 : 0xE0 + m = 0xE0 ↔ m = 0 := by omega
  have h5 : 0xE0 + m = 0xED ↔ m = 13 := by omega
  simp only [lead?, toNat_byte (show 0xE0 + m < 256 by omega), if_neg h1, if_neg h2, if_pos h3,
    h4, h5, Nat.add_sub_cancel_left]

private theorem lead?_four {m : Nat} (h : m < 5) :
    lead? (UInt8.ofNat (0xF0 + m)) =
      some ⟨3, m, if m = 0 then 0x90 else 0x80, if m = 4 then 0x8F else 0xBF⟩ := by
  have h1 : ¬ 0xF0 + m < 0xC2 := by omega
  have h2 : ¬ 0xF0 + m < 0xE0 := by omega
  have h3 : ¬ 0xF0 + m < 0xF0 := by omega
  have h4 : 0xF0 + m < 0xF5 := by omega
  have h5 : 0xF0 + m = 0xF0 ↔ m = 0 := by omega
  have h6 : 0xF0 + m = 0xF4 ↔ m = 4 := by omega
  simp only [lead?, toNat_byte (show 0xF0 + m < 256 by omega), if_neg h1, if_neg h2, if_neg h3,
    if_pos h4, h5, h6, Nat.add_sub_cancel_left]

private theorem readChar_lead {b : UInt8} {count bits low high m : Nat}
    (hlead : lead? b = some ⟨count + 1, bits, low, high⟩) (hlow : low ≤ 0x80 + m)
    (hhigh : 0x80 + m ≤ high) (hm : m < 64) (r : List UInt8) :
    readChar (b :: UInt8.ofNat (0x80 + m) :: r) =
      (tailsFrom (bits * 64 + m) count r).map fun (n, rest) => (Char.ofNat n, rest) := by
  have hb : ¬ b.toNat < 0x80 := by
    intro hlt
    have hnone : lead? b = none := by
      simp only [lead?, if_pos (show b.toNat < 0xC2 by omega)]
    rw [hnone] at hlead
    cases hlead
  have hc : (UInt8.ofNat (0x80 + m)).toNat = 0x80 + m := toNat_byte (by omega)
  simp only [readChar, if_neg hb, hlead, hc, hlow, hhigh, and_self, if_true,
    Nat.add_sub_cancel_left, Nat.add_sub_cancel]

/-- A character is read back from its bytes, and what follows them is left. -/
theorem readChar_encodeChar (c : Char) (rest : List UInt8) :
    readChar (encodeChar c ++ rest) = some (c, rest) := by
  have hbounds := toNat_char_bounds c
  have hc := Char.ofNat_toNat c
  generalize hn : c.toNat = n at hbounds hc
  simp only [encodeChar, hn]
  by_cases h1 : n < 0x80
  · simp only [h1, if_true, List.cons_append, List.nil_append, readChar,
      toNat_byte (show n < 256 by omega), hc]
  by_cases h2 : n < 0x800
  · simp only [h1, h2, if_true, if_false, List.cons_append, List.nil_append]
    have hlead := lead?_two (show 2 ≤ n / 64 by omega) (by omega)
    have hread := readChar_lead hlead (m := n % 64) (by omega) (by omega) (by omega) rest
    have heq : n / 64 * 64 + n % 64 = n := by omega
    simp only [hread, tailsFrom, Option.map_some, heq, hc]
  by_cases h3 : n < 0x10000
  · simp only [h1, h2, h3, if_true, if_false, List.cons_append, List.nil_append]
    have hlead := lead?_three (show n / 4096 < 16 by omega)
    rw [readChar_lead hlead (by split <;> omega) (by split <;> omega) (by omega),
      tailsFrom_tail _ _ (Nat.mod_lt n (by decide))]
    have heq : (n / 4096 * 64 + n / 64 % 64) * 64 + n % 64 = n := by omega
    simp only [tailsFrom, Option.map_some, heq, hc]
  · simp only [h1, h2, h3, if_false, List.cons_append, List.nil_append]
    have hlead := lead?_four (show n / 262144 < 5 by omega)
    rw [readChar_lead hlead (by split <;> omega) (by split <;> omega) (by omega),
      tailsFrom_tail _ _ (Nat.mod_lt (n / 64) (by decide)),
      tailsFrom_tail _ _ (Nat.mod_lt n (by decide))]
    have heq : ((n / 262144 * 64 + n / 4096 % 64) * 64 + n / 64 % 64) * 64 + n % 64 = n := by omega
    simp only [tailsFrom, Option.map_some, heq, hc]

/-- No character is encoded in nothing. -/
theorem encodeChar_ne_nil (c : Char) : encodeChar c ≠ [] := by
  simp only [encodeChar]
  split
  · simp
  · split
    · simp
    · split <;> simp

/-- The strict reader goes on behind a character that was written. -/
theorem decode?_encodeChar_append (c : Char) (rest : List UInt8) :
    decode? (encodeChar c ++ rest) = (decode? rest).map (c :: ·) := by
  have hread := readChar_encodeChar c rest
  cases h : encodeChar c ++ rest with
  | nil => exact absurd (List.append_eq_nil_iff.mp h).1 (encodeChar_ne_nil c)
  | cons b r =>
    rw [h] at hread
    rw [decode?]
    split
    · next heq =>
      rw [hread] at heq
      cases heq
      rfl
    · next heq =>
      rw [hread] at heq
      cases heq

/-- A character that can be read is decoded, and then the bytes behind it. -/
theorem decodeLossy_of_readChar {b : UInt8} {r rest : List UInt8} {c : Char}
    (h : readChar (b :: r) = some (c, rest)) : decodeLossy (b :: r) = c :: decodeLossy rest := by
  rw [decodeLossy]
  split
  · next heq =>
    rw [h] at heq
    cases heq
    rfl
  · next heq =>
    rw [h] at heq
    cases heq

/-- The repairing reader goes on behind a character that was written. -/
theorem decodeLossy_encodeChar_append (c : Char) (rest : List UInt8) :
    decodeLossy (encodeChar c ++ rest) = c :: decodeLossy rest := by
  have hread := readChar_encodeChar c rest
  cases h : encodeChar c ++ rest with
  | nil => exact absurd (List.append_eq_nil_iff.mp h).1 (encodeChar_ne_nil c)
  | cons b r =>
    rw [h] at hread
    exact decodeLossy_of_readChar hread

/-- A text is read back from its bytes. -/
theorem decode?_encode (s : List Char) : decode? (encode s) = some s := by
  induction s with
  | nil => simp [encode, decode?]
  | cons c r ih =>
    change decode? (encodeChar c ++ encode r) = _
    rw [decode?_encodeChar_append, ih]
    rfl

/-- Nothing needs repair in the bytes of a text. -/
theorem decodeLossy_encode (s : List Char) : decodeLossy (encode s) = s := by
  induction s with
  | nil => simp [encode, decodeLossy]
  | cons c r ih =>
    change decodeLossy (encodeChar c ++ encode r) = _
    rw [decodeLossy_encodeChar_append, ih]

end Utf8

namespace Utf16

private theorem toNat_unit {n : Nat} (h : n < 0x10000) : (UInt16.ofNat n).toNat = n :=
  UInt16.toNat_ofNat_of_lt' h

private theorem decodeLossy_single {u : UInt16} (hhigh : isHigh u = false) (r : List UInt16) :
    decodeLossy (u :: r) = ofUnit u :: decodeLossy r := by
  cases r with
  | nil => rfl
  | cons v r => simp [decodeLossy, hhigh]

/-- The reader goes on behind a character that was written. -/
theorem decodeLossy_encodeChar_append (c : Char) (rest : List UInt16) :
    decodeLossy (encodeChar c ++ rest) = c :: decodeLossy rest := by
  have hbounds := toNat_char_bounds c
  have hc := Char.ofNat_toNat c
  generalize hn : c.toNat = n at hbounds hc
  simp only [encodeChar, hn]
  by_cases h : n < 0x10000
  · have hu := toNat_unit h
    have hhigh : isHigh (UInt16.ofNat n) = false := by
      simp only [isHigh, hu, Bool.and_eq_false_iff, decide_eq_false_iff_not]
      omega
    have hlow : isLow (UInt16.ofNat n) = false := by
      simp only [isLow, hu, Bool.and_eq_false_iff, decide_eq_false_iff_not]
      omega
    simp only [h, if_true, List.cons_append, List.nil_append]
    rw [decodeLossy_single hhigh]
    simp only [ofUnit, hhigh, hlow, Bool.or_self, Bool.false_eq_true, if_false, hu, hc]
  · have hu := toNat_unit (show 0xD800 + (n - 0x10000) / 1024 < 0x10000 by omega)
    have hv := toNat_unit (show 0xDC00 + (n - 0x10000) % 1024 < 0x10000 by omega)
    simp only [h, if_false, List.cons_append, List.nil_append, decodeLossy]
    have hpair : (isHigh (UInt16.ofNat (0xD800 + (n - 0x10000) / 1024)) &&
        isLow (UInt16.ofNat (0xDC00 + (n - 0x10000) % 1024))) = true := by
      simp only [isHigh, isLow, hu, hv, Bool.and_eq_true, decide_eq_true_eq]
      omega
    have heq : 0x10000 + (n - 0x10000) / 1024 * 1024 + (n - 0x10000) % 1024 = n := by omega
    simp only [hpair, if_true, ofPair, hu, hv, Nat.add_sub_cancel_left, heq, hc]

/-- A text is read back from its units. -/
theorem decodeLossy_encode (s : List Char) : decodeLossy (encode s) = s := by
  induction s with
  | nil => rfl
  | cons c r ih =>
    change decodeLossy (encodeChar c ++ encode r) = _
    rw [decodeLossy_encodeChar_append, ih]

end Utf16

/-- Hexadecimal digits are read behind those already read. -/
theorem hexDigitsFrom_append (value : Nat) (s t : List Char) :
    hexDigitsFrom value (s ++ t) = (hexDigitsFrom value s).bind fun v => hexDigitsFrom v t := by
  induction s generalizing value with
  | nil => rfl
  | cons c r ih =>
    simp only [List.cons_append, hexDigitsFrom]
    cases hexDigit? c with
    | none => rfl
    | some d => exact ih _

/-- A hexadecimal digit is worth less than sixteen. -/
theorem hexDigit?_lt {c : Char} {d : Nat} (h : hexDigit? c = some d) : d < 16 := by
  unfold hexDigit? at h
  simp only [Char.le_def, UInt32.le_iff_toNat_le] at h
  change (if 48 ≤ c.toNat ∧ c.toNat ≤ 57 then some (c.toNat - 48)
    else if 97 ≤ c.toNat ∧ c.toNat ≤ 102 then some (c.toNat - 87)
    else if 65 ≤ c.toNat ∧ c.toNat ≤ 70 then some (c.toNat - 55) else none) = some d at h
  grind

/-- So many hexadecimal digits make up no larger a number. -/
theorem hexDigitsFrom_lt {value n : Nat} {s : List Char} (h : hexDigitsFrom value s = some n) :
    n < (value + 1) * 16 ^ s.length := by
  induction s generalizing value with
  | nil =>
    cases h
    simp
  | cons c r ih =>
    rw [hexDigitsFrom] at h
    obtain ⟨d, hd, hrest⟩ := Option.bind_eq_some_iff.mp h
    have hlt := hexDigit?_lt hd
    calc n < (16 * value + d + 1) * 16 ^ r.length := ih hrest
      _ ≤ ((value + 1) * 16) * 16 ^ r.length := Nat.mul_le_mul_right _ (by omega)
      _ = (value + 1) * 16 ^ (c :: r).length := by
        rw [List.length_cons, Nat.pow_succ', Nat.mul_assoc]

/-- A character that is no hexadecimal digit spoils a number. -/
theorem hexDigitsFrom_eq_none_of_mem {c : Char} {s : List Char} (h : c ∈ s)
    (hc : hexDigit? c = none) (value : Nat) : hexDigitsFrom value s = none := by
  induction s generalizing value with
  | nil => cases h
  | cons d r ih =>
    rcases List.mem_cons.mp h with rfl | h
    · rw [hexDigitsFrom, hc, Option.bind_none]
    · rw [hexDigitsFrom]
      cases hexDigit? d with
      | none => rfl
      | some n => exact ih h _

/-- A number is read back from as many upper-case digits as it has. -/
theorem hexDigitsFrom_upperHex (width value n : Nat) (h : n < 16 ^ width) :
    hexDigitsFrom value (upperHex width n) = some (value * 16 ^ width + n) := by
  induction width generalizing n with
  | zero =>
    simp at h
    simp [upperHex, hexDigitsFrom, h]
  | succ width ih =>
    rw [Nat.pow_succ] at h
    rw [upperHex, hexDigitsFrom_append, ih (n / 16) (by omega), Option.bind_some]
    have hdigit := hexDigit?_upperHexDigit ⟨n % 16, Nat.mod_lt _ (by decide)⟩
    simp only [hexDigitsFrom, hdigit, Option.bind_some, Nat.pow_succ]
    congr 1
    have hassoc : value * (16 ^ width * 16) = 16 * (value * 16 ^ width) := by
      rw [← Nat.mul_assoc, Nat.mul_comm]
    omega

private theorem digit?_of_isDigit {c : Char} (h : c.isDigit = true) :
    digit? c = some (c.toNat - '0'.toNat) := by
  unfold digit?
  rw [if_pos]
  · rfl
  · simpa [Char.isDigit, Char.le_def] using h

/-- Digits are read as the number that they make up behind what was read before. -/
theorem digitsFrom_of_isDigit {s : List Char} (h : ∀ c, c ∈ s → c.isDigit = true) (value : Nat) :
    digitsFrom value s = some (Nat.ofDigitChars 10 s value) := by
  induction s generalizing value with
  | nil => rfl
  | cons c r ih =>
    rw [digitsFrom, digit?_of_isDigit (h c (by simp)), Option.bind_some,
      ih fun d hd => h d (by simp [hd])]
    rfl

/-- A number is written in digits. -/
theorem isDigit_of_mem_toString {n : Nat} {c : Char} (h : c ∈ (toString n).toList) :
    c.isDigit = true := by
  rw [Nat.toString_eq_ofList_toDigits, String.toList_ofList] at h
  exact Nat.isDigit_of_mem_toDigits (by decide) (by decide) h

/-- No number is spelled by nothing. -/
theorem toList_toString_ne_nil (n : Nat) : (toString n).toList ≠ [] := by
  rw [Nat.toString_eq_ofList_toDigits, String.toList_ofList]
  exact Nat.toDigits_ne_nil

/-- A number is read back from its digits. -/
theorem nat?_toString {bound n : Nat} (h : n < bound) :
    nat? bound (toString n).toList = some n := by
  have hdigits : ∀ c, c ∈ (toString n).toList → c.isDigit = true := fun _ =>
    isDigit_of_mem_toString
  have hread := digitsFrom_of_isDigit hdigits 0
  have hvalue : Nat.ofDigitChars 10 (toString n).toList 0 = n := by
    rw [Nat.toString_eq_ofList_toDigits, String.toList_ofList, Nat.ofDigitChars_ten_toDigits]
  rw [hvalue] at hread
  obtain ⟨c, r, hs⟩ := List.exists_cons_of_ne_nil (toList_toString_ne_nil n)
  rw [hs] at hread hdigits ⊢
  have hplus : c ≠ '+' := by
    rintro rfl
    have := hdigits '+' (by simp)
    revert this
    decide
  simp only [nat?]
  split
  · next hcons => exact absurd (List.cons.inj hcons).1 hplus
  · rw [digits?, hread]
    · simp [h]
    · simp

/-- A character that is no digit spoils a number. -/
theorem digitsFrom_eq_none_of_mem {c : Char} {s : List Char} (h : c ∈ s) (hc : digit? c = none)
    (value : Nat) : digitsFrom value s = none := by
  induction s generalizing value with
  | nil => cases h
  | cons d r ih =>
    rcases List.mem_cons.mp h with rfl | h
    · rw [digitsFrom, hc, Option.bind_none]
    · rw [digitsFrom]
      cases digit? d with
      | none => rfl
      | some n => exact ih h _

/-- A character that is neither a digit nor a plus sign spoils a number, wherever it stands. -/
theorem nat?_eq_none_of_mem {c : Char} {s : List Char} (h : c ∈ s) (hc : digit? c = none)
    (hplus : c ≠ '+') (bound : Nat) : nat? bound s = none := by
  have hdigits : ∀ r : List Char, c ∈ r → digits? r = none := by
    intro r hr
    cases r with
    | nil => cases hr
    | cons d r => exact digitsFrom_eq_none_of_mem hr hc 0
  unfold nat?
  dsimp only
  split
  · next r => rw [hdigits r ((List.mem_cons.mp h).resolve_left hplus), Option.filter_none]
  · rw [hdigits s h, Option.filter_none]

end Switchboard.Text
