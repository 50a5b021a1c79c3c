import Switchboard.Proofs.Text.Encodings
import Switchboard.Text.Percent

/-!
# Reading on either side of a mark

A byte of ASCII belongs to no character but its own. What stands before such a byte is therefore
read as if nothing followed, even where it is malformed, and what stands behind it as if nothing
came before. The same holds for percent encodings and a byte that is no part of an escape.
-/

namespace Switchboard.Text

namespace Utf8

/-- A byte of ASCII is outside the range that a lead byte asks for. -/
theorem low_of_lead? {b : UInt8} {lead : Lead} (h : lead? b = some lead) : 0x80 ≤ lead.low := by
  unfold lead? at h
  simp only at h
  split at h
  · cases h
  split at h
  · cases h
    exact Nat.le_refl _
  split at h
  · cases h
    simp only
    split <;> omega
  split at h
  · cases h
    simp only
    split <;> omega
  · cases h

/-- A byte of ASCII is the character that it belongs to. -/
theorem toNat_of_mem_encodeChar {c : Char} {b : UInt8} (h : b ∈ encodeChar c)
    (hb : b.toNat < 0x80) : c.toNat = b.toNat := by
  have hbounds := toNat_char_bounds c
  have hbyte : ∀ n, n < 256 → (UInt8.ofNat n).toNat = n := fun n hn => UInt8.toNat_ofNat_of_lt' hn
  unfold encodeChar at h
  simp only at h
  split at h
  · simp only [List.mem_singleton] at h
    rw [h, hbyte _ (by omega)]
  -- every byte of a longer form is above ASCII
  · exfalso
    split at h
    · simp only [List.mem_cons, List.not_mem_nil, or_false] at h
      rcases h with rfl | rfl <;> rw [hbyte _ (by omega)] at hb <;> omega
    split at h
    · simp only [List.mem_cons, List.not_mem_nil, or_false] at h
      rcases h with rfl | rfl | rfl <;> rw [hbyte _ (by omega)] at hb <;> omega
    · simp only [List.mem_cons, List.not_mem_nil, or_false] at h
      rcases h with rfl | rfl | rfl | rfl <;> rw [hbyte _ (by omega)] at hb <;> omega

private theorem decodeLossy_of_malformed {b : UInt8} {r : List UInt8}
    (h : readChar (b :: r) = none) :
    decodeLossy (b :: r) = replacement :: decodeLossy (dropMalformed (b :: r)) := by
  rw [decodeLossy]
  split
  · next heq =>
    rw [h] at heq
    cases heq
  · rfl

variable {mark : UInt8} (hmark : mark.toNat < 0x80)
include hmark

private theorem isTail_of_ascii : isTail mark = false := by
  simp only [isTail, Bool.and_eq_false_iff, decide_eq_false_iff_not]
  omega

private theorem not_inRange_of_ascii {b : UInt8} {lead : Lead} (h : lead? b = some lead) :
    ¬ (lead.low ≤ mark.toNat ∧ mark.toNat ≤ lead.high) := by
  have hlow := low_of_lead? h
  omega

private theorem tailsFrom_append_mark (bits count : Nat) (bs cs : List UInt8) :
    tailsFrom bits count (bs ++ mark :: cs) =
      (tailsFrom bits count bs).map fun (n, rest) => (n, rest ++ mark :: cs) := by
  induction count generalizing bits bs with
  | zero => rfl
  | succ count ih =>
    cases bs with
    | nil => simp [tailsFrom, isTail_of_ascii hmark]
    | cons b r =>
      simp only [List.cons_append, tailsFrom]
      split
      · exact ih _ r
      · rfl

private theorem dropTails_append_mark (count : Nat) (bs cs : List UInt8) :
    dropTails count (bs ++ mark :: cs) = dropTails count bs ++ mark :: cs := by
  induction count generalizing bs with
  | zero => rfl
  | succ count ih =>
    cases bs with
    | nil => simp [dropTails, isTail_of_ascii hmark]
    | cons b r =>
      simp only [List.cons_append, dropTails]
      split
      · exact ih r
      · rfl

private theorem readChar_append_mark (b : UInt8) (r cs : List UInt8) :
    readChar (b :: r ++ mark :: cs) =
      (readChar (b :: r)).map fun (c, rest) => (c, rest ++ mark :: cs) := by
  by_cases hb : b.toNat < 0x80
  · simp [readChar, hb]
  · cases hlead : lead? b with
    | none => simp [readChar, hb, hlead]
    | some lead =>
      cases r with
      | nil => simp [readChar, hb, hlead, not_inRange_of_ascii hmark hlead]
      | cons c r =>
        simp only [List.cons_append, readChar, hb, hlead, if_false]
        split
        · rw [tailsFrom_append_mark hmark, Option.map_map, Option.map_map]
          rfl
        · rfl

private theorem dropMalformed_append_mark (b : UInt8) (r cs : List UInt8) :
    dropMalformed (b :: r ++ mark :: cs) = dropMalformed (b :: r) ++ mark :: cs := by
  cases hlead : lead? b with
  | none => simp [dropMalformed, hlead]
  | some lead =>
    cases r with
    | nil => simp [dropMalformed, hlead, not_inRange_of_ascii hmark hlead]
    | cons c r =>
      simp only [List.cons_append, dropMalformed, hlead]
      split
      · exact dropTails_append_mark hmark _ r cs
      · rfl

/-- A byte of ASCII stands for itself, and parts what is read before it from what is read behind. -/
theorem decodeLossy_append_mark (bs cs : List UInt8) :
    decodeLossy (bs ++ mark :: cs) =
      decodeLossy bs ++ Char.ofNat mark.toNat :: decodeLossy cs := by
  induction hlen : bs.length using Nat.strongRecOn generalizing bs with
  | ind n ih =>
    cases bs with
    | nil =>
      have hread : readChar (mark :: cs) = some (Char.ofNat mark.toNat, cs) := by
        simp [readChar, hmark]
      rw [List.nil_append, decodeLossy_of_readChar hread, decodeLossy, List.nil_append]
    | cons b r =>
      have happend := readChar_append_mark hmark b r cs
      rw [List.cons_append] at happend ⊢
      cases hread : readChar (b :: r) with
      | some found =>
        obtain ⟨c, rest⟩ := found
        rw [hread, Option.map_some] at happend
        rw [decodeLossy_of_readChar happend, decodeLossy_of_readChar hread, List.cons_append,
          ih _ (hlen ▸ length_lt_of_readChar hread) rest rfl]
      | none =>
        rw [hread, Option.map_none] at happend
        rw [decodeLossy_of_malformed happend, decodeLossy_of_malformed hread, List.cons_append,
          ← List.cons_append, dropMalformed_append_mark hmark,
          ih _ (hlen ▸ length_dropMalformed_lt b r) _ rfl]

end Utf8

namespace Percent

/-- A byte that starts no escape is read as it stands. -/
theorem decodeBytes_cons {b : UInt8} {r : List UInt8}
    (h : ∀ c d rest, r = c :: d :: rest → b.toNat = 0x25 → hexByte? c = none ∨ hexByte? d = none) :
    decodeBytes (b :: r) = b :: decodeBytes r := by
  match r with
  | [] => rfl
  | [_] => rfl
  | c :: d :: rest =>
    rw [decodeBytes]
    split
    · next hb =>
      rcases h c d rest rfl hb with hc | hd
      · rw [hc]
      · rw [hd]
        split
        · next heq => cases heq
        · rfl
    · rfl

/-- A byte that is neither a percent sign nor a digit is no part of an escape, and parts what is
read before it from what is read behind. -/
theorem decodeBytes_append_mark {mark : UInt8} (hmark : mark.toNat ≠ 0x25)
    (hdigit : hexByte? mark = none) (bs cs : List UInt8) :
    decodeBytes (bs ++ mark :: cs) = decodeBytes bs ++ mark :: decodeBytes cs := by
  have hself : decodeBytes (mark :: cs) = mark :: decodeBytes cs :=
    decodeBytes_cons fun _ _ _ _ hb => absurd hb hmark
  have hnext : ∀ b, decodeBytes (b :: mark :: cs) = b :: mark :: decodeBytes cs := by
    intro b
    rw [decodeBytes_cons, hself]
    rintro c d rest ⟨rfl, -⟩ -
    exact .inl hdigit
  induction bs using decodeBytes.induct with
  | case1 => exact hself
  | case2 b => exact hnext b
  | case3 b c =>
    rw [List.cons_append, decodeBytes_cons]
    · exact congrArg (b :: ·) (hnext c)
    · rintro c d rest ⟨rfl, rfl, -⟩ -
      exact .inr hdigit
  | case4 b c d r hb high low hhigh hlow ih =>
    simp [decodeBytes, hb, hhigh, hlow, ih]
  | case5 b c d r hb hno ih =>
    have hdigits : hexByte? c = none ∨ hexByte? d = none := by
      cases hc : hexByte? c with
      | none => exact .inl rfl
      | some high =>
        cases hd : hexByte? d with
        | none => exact .inr rfl
        | some low => exact absurd hd (hno high low hc)
    rw [List.cons_append, decodeBytes_cons, decodeBytes_cons, ih]
    · rfl
    · rintro c d rest ⟨rfl, rfl, -⟩ -
      exact hdigits
    · rintro c d rest ⟨rfl, rfl, -⟩ -
      exact hdigits
  | case6 b c d r hb ih =>
    rw [List.cons_append, decodeBytes_cons fun _ _ _ _ h => absurd h hb, ih,
      decodeBytes_cons fun _ _ _ _ h => absurd h hb]
    rfl

private theorem decodeBytes_of_forall_ne {bs : List UInt8} (h : ∀ b ∈ bs, b.toNat ≠ 0x25) :
    decodeBytes bs = bs := by
  induction bs with
  | nil => rfl
  | cons b r ih =>
    rw [decodeBytes_cons fun _ _ _ _ hb => absurd hb (h b (by simp)),
      ih fun c hc => h c (by simp [hc])]

/-- A slash parts what is read before it from what is read behind, whatever the encoding is. -/
theorem decodeLossy_append_slash (s t : List Char) :
    decodeLossy (s ++ '/' :: t) = decodeLossy s ++ '/' :: decodeLossy t := by
  have hencode : Utf8.encode (s ++ '/' :: t) = Utf8.encode s ++ 0x2F :: Utf8.encode t :=
    List.flatMap_append
  rw [decodeLossy, hencode, decodeBytes_append_mark (by decide) (by decide),
    Utf8.decodeLossy_append_mark (by decide)]
  rfl

/-- A text without percent signs is read as it stands. -/
theorem decodeLossy_of_not_mem {s : List Char} (h : '%' ∉ s) : decodeLossy s = s := by
  rw [decodeLossy, decodeBytes_of_forall_ne, Utf8.decodeLossy_encode]
  intro b hb hpercent
  obtain ⟨c, hc, hbyte⟩ := List.mem_flatMap.mp hb
  have hchar : c.toNat = b.toNat := Utf8.toNat_of_mem_encodeChar hbyte (by omega)
  have hc' : c = '%' := by
    rw [← Char.ofNat_toNat c, hchar, hpercent]
  exact h (hc' ▸ hc)

end Percent

end Switchboard.Text
