import Switchboard.Proofs.Text.Encodings

/-!
# Surrogates without a partner

Reading units as a text and writing the text again gives the units back, but for the surrogates that
have no partner beside them: these come back as the replacement character. Whether a surrogate has
its partner can be told from its two neighbours, because no unit opens a pair and closes another.
-/

namespace Switchboard.Text.Utf16

/-- A surrogate without its partner beside it: a high one with no low one behind it, or a low one
with no high one before it. -/
def isLone (before : Option UInt16) (u : UInt16) (after : Option UInt16) : Bool :=
  isHigh u && !after.any isLow || isLow u && !before.any isHigh

/-- The units behind a unit, with U+FFFD in the place of each surrogate without its partner. -/
def mendedFrom (before : Option UInt16) : List UInt16 → List UInt16
  | [] => []
  | u :: r => (if isLone before u r.head? then 0xFFFD else u) :: mendedFrom (some u) r

/-- Units with U+FFFD in the place of each surrogate without its partner. -/
def mended (us : List UInt16) : List UInt16 := mendedFrom none us

private theorem length_mendedFrom (before : Option UInt16) (us : List UInt16) :
    (mendedFrom before us).length = us.length := by
  induction us generalizing before with
  | nil => rfl
  | cons u r ih => simp [mendedFrom, ih]

/-- Mending takes no unit away and adds none. -/
theorem length_mended (us : List UInt16) : (mended us).length = us.length := length_mendedFrom _ us

/-- No unit opens a pair and closes another. -/
theorem isLow_eq_false_of_isHigh {u : UInt16} (h : isHigh u = true) : isLow u = false := by
  simp only [isHigh, Bool.and_eq_true, decide_eq_true_eq] at h
  simp only [isLow, Bool.and_eq_false_iff, decide_eq_false_iff_not]
  omega

private theorem isHigh_eq_false_of_isLow {u : UInt16} (h : isLow u = true) : isHigh u = false := by
  cases hhigh : isHigh u with
  | false => rfl
  | true => rw [isLow_eq_false_of_isHigh hhigh] at h; cases h

private theorem toNat_ofNat_of_isValidChar {n : Nat} (h : n.isValidChar) :
    (Char.ofNat n).toNat = n := by
  rw [Char.ofNat, dif_pos h]
  rfl

/-- A unit that stands alone is written again as it was, unless it is a surrogate. -/
theorem encodeChar_ofUnit (u : UInt16) :
    encodeChar (ofUnit u) = [if isHigh u || isLow u then 0xFFFD else u] := by
  unfold ofUnit
  split
  · rfl
  · next h =>
    have hlt := u.toNat_lt
    simp only [isHigh, isLow, Bool.or_eq_true, Bool.and_eq_true, decide_eq_true_eq] at h
    have hvalid : u.toNat.isValidChar := by
      unfold Nat.isValidChar
      omega
    rw [encodeChar, toNat_ofNat_of_isValidChar hvalid, if_pos (by omega), UInt16.ofNat_toNat]

/-- A pair of surrogates is written again as it was. -/
theorem encodeChar_ofPair {high low : UInt16} (hhigh : isHigh high = true)
    (hlow : isLow low = true) : encodeChar (ofPair high low) = [high, low] := by
  simp only [isHigh, isLow, Bool.and_eq_true, decide_eq_true_eq] at hhigh hlow
  have hvalid : (0x10000 + (high.toNat - 0xD800) * 1024 + (low.toNat - 0xDC00)).isValidChar := by
    unfold Nat.isValidChar
    omega
  have hfirst : 0xD800 + (0x10000 + (high.toNat - 0xD800) * 1024 + (low.toNat - 0xDC00) - 0x10000) /
      1024 = high.toNat := by
    omega
  have hsecond :
      0xDC00 + (0x10000 + (high.toNat - 0xD800) * 1024 + (low.toNat - 0xDC00) - 0x10000) % 1024 =
        low.toNat := by
    omega
  rw [ofPair, encodeChar, toNat_ofNat_of_isValidChar hvalid, if_neg (by omega), hfirst, hsecond,
    UInt16.ofNat_toNat, UInt16.ofNat_toNat]

/-- A surrogate that makes a pair with neither neighbour has no partner. -/
theorem isLone_of_alone {before after : Option UInt16} {u : UInt16}
    (hbefore : before.any isHigh = true → isLow u = false)
    (hafter : isHigh u = true → after.any isLow = false) :
    isLone before u after = (isHigh u || isLow u) := by
  have hhigh : (isHigh u && !after.any isLow) = isHigh u := by
    cases h : isHigh u with
    | false => rfl
    | true => rw [hafter h]; rfl
  have hlow : (isLow u && !before.any isHigh) = isLow u := by
    cases h : before.any isHigh with
    | false => simp
    | true => simp [hbefore h]
  rw [isLone, hhigh, hlow]

/-- A unit that makes a pair with neither neighbour is written again by itself. -/
theorem encode_ofUnit_cons {before : Option UInt16} {u : UInt16} {r : List UInt16} {s : List Char}
    (hbefore : before.any isHigh = true → isLow u = false)
    (hafter : isHigh u = true → r.head?.any isLow = false)
    (hs : encode s = mendedFrom (some u) r) :
    encode (ofUnit u :: s) = mendedFrom before (u :: r) := by
  rw [mendedFrom, isLone_of_alone hbefore hafter, ← hs, encode, List.flatMap_cons,
    encodeChar_ofUnit, List.singleton_append]
  rfl

/-- Behind a unit that opens no pair with them, units are read and written again as they were, but
for surrogates without their partner. -/
theorem encode_decodeLossy_from (us : List UInt16) (before : Option UInt16)
    (h : before.any isHigh = true → us.head?.any isLow = false) :
    encode (decodeLossy us) = mendedFrom before us := by
  induction us using decodeLossy.induct generalizing before with
  | case1 => rfl
  | case2 u => exact encode_ofUnit_cons h (fun _ => rfl) rfl
  | case3 u v r hpair ih =>
    have hboth := hpair
    rw [Bool.and_eq_true] at hboth
    obtain ⟨hu, hv⟩ := hboth
    have hrest := ih (some v) (by simp [isHigh_eq_false_of_isLow hv])
    have hfirst : isLone before u (some v) = false := by
      simp [isLone, hv, isLow_eq_false_of_isHigh hu]
    have hsecond : isLone (some u) v r.head? = false := by
      simp [isLone, hu, isHigh_eq_false_of_isLow hv]
    rw [decodeLossy, if_pos hpair, encode, List.flatMap_cons, encodeChar_ofPair hu hv, mendedFrom,
      List.head?_cons, hfirst, mendedFrom, hsecond, ← hrest]
    rfl
  | case4 u v r hpair ih =>
    have halone : isHigh u = true → isLow v = false := fun hu => by simpa [hu] using hpair
    rw [decodeLossy, if_neg hpair]
    exact encode_ofUnit_cons h halone (ih (some u) halone)

/-- Units are read and written again as they were, but for surrogates without their partner. -/
theorem encode_decodeLossy (us : List UInt16) : encode (decodeLossy us) = mended us :=
  encode_decodeLossy_from us none (by simp)

end Switchboard.Text.Utf16
