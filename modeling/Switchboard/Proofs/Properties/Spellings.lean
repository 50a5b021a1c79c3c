import Switchboard.Proofs.Properties.Backslashes
import Switchboard.Proofs.Text.Surrogates

/-!
# What a written part spells

The rules by which a key or a value is read, apart from the function that does it: a character
spells itself, a backslash and a letter spell a character, and a backslash, the letter `u` and four
hexadecimal digits spell a unit. Where the digits are missing the letter is read as itself, and a
backslash at the very end as nothing. The reader keeps to these rules but for one thing: it takes a
plus sign for the first of the four digits.
-/

namespace Switchboard.Properties

open Text (hexDigit? hexDigitsFrom)
open Text.Utf16 (encode encodeChar mended)

/-! ### The rules -/

/-- Four hexadecimal digits, and the unit that they make up. -/
def IsUnit (w : List Char) (u : UInt16) : Prop :=
  w.length = 4 ∧ hexDigitsFrom 0 w = some u.toNat

/-- A plus sign and three hexadecimal digits, and the unit that these make up. -/
def IsSigned (w : List Char) (u : UInt16) : Prop :=
  ∃ digits, w = '+' :: digits ∧ digits.length = 3 ∧ hexDigitsFrom 0 digits = some u.toNat

/-- What the reader takes for a unit. -/
def IsRead (w : List Char) (u : UInt16) : Prop := IsUnit w u ∨ IsSigned w u

/-- The units that a written part spells, if certain texts stand for units behind a backslash and
the letter `u`. -/
inductive Spells (Unit : List Char → UInt16 → Prop) : List Char → List UInt16 → Prop where
  /-- Nothing. -/
  | nil : Spells Unit [] []
  /-- A character that is no backslash. -/
  | plain {c : Char} {r : List Char} {us : List UInt16} (hc : c ≠ '\\') (more : Spells Unit r us) :
      Spells Unit (c :: r) (encodeChar c ++ us)
  /-- A backslash at the end. -/
  | last : Spells Unit ['\\'] []
  /-- A backslash and a character other than `u`. -/
  | letter {c : Char} {r : List Char} {us : List UInt16} (hc : c ≠ 'u') (more : Spells Unit r us) :
      Spells Unit ('\\' :: c :: r) (encodeChar (unescapeChar c) ++ us)
  /-- A backslash, `u` and a unit. -/
  | unit {w r : List Char} {u : UInt16} {us : List UInt16} (hw : Unit w u)
      (more : Spells Unit r us) : Spells Unit ('\\' :: 'u' :: (w ++ r)) (u :: us)
  /-- A backslash and `u` where no unit follows. -/
  | malformed {r : List Char} {us : List UInt16} (hr : ∀ w u, w <+: r → ¬ Unit w u)
      (more : Spells Unit r us) : Spells Unit ('\\' :: 'u' :: r) (encodeChar 'u' ++ us)

/-- A unit whose first digit is a plus sign stands somewhere behind a backslash that is not escaped
itself. -/
def HoldsSigned (s : List Char) : Prop :=
  ∃ before w u after, s = before ++ '\\' :: 'u' :: (w ++ after) ∧ continues before = false ∧
    IsSigned w u

/-! ### Units in four characters -/

private theorem IsUnit.hexDigit {w : List Char} {u : UInt16} (h : IsUnit w u) {c : Char}
    (hc : c ∈ w) :
    hexDigit? c ≠ none := by
  intro hnone
  rw [IsUnit, Text.hexDigitsFrom_eq_none_of_mem hc hnone] at h
  cases h.2

private theorem IsSigned.hexDigit {w : List Char} {u : UInt16} (h : IsSigned w u) {c : Char}
    (hc : c ∈ w) :
    c = '+' ∨ hexDigit? c ≠ none := by
  obtain ⟨digits, rfl, -, hread⟩ := h
  rcases List.mem_cons.mp hc with rfl | hc
  · exact .inl rfl
  · refine .inr fun hnone => ?_
    rw [Text.hexDigitsFrom_eq_none_of_mem hc hnone] at hread
    cases hread

private theorem IsSigned.length_eq {w : List Char} {u : UInt16} (h : IsSigned w u) :
    w.length = 4 := by
  obtain ⟨digits, rfl, hlength, -⟩ := h
  rw [List.length_cons, hlength]

/-- No text is a unit with and without a sign. -/
theorem IsSigned.not_isUnit {w : List Char} {u v : UInt16} (h : IsSigned w u) : ¬ IsUnit w v := by
  intro hunit
  obtain ⟨digits, rfl, -⟩ := h
  exact hunit.hexDigit List.mem_cons_self (by decide)

/-- Texts that stand for units are told apart from what follows by their length. -/
theorem eq_of_isPrefix_append {w v r : List Char} (h : v <+: w ++ r)
    (hlength : v.length = w.length) : v = w := by
  have hw := List.prefix_append w r
  exact (List.prefix_of_prefix_length_le h hw (Nat.le_of_eq hlength)).eq_of_length hlength

/-- Up to four digits make up a unit. -/
theorem map_ofNat_hexDigitsFrom_iff {digits : List Char} (h : digits.length ≤ 4) {u : UInt16} :
    (hexDigitsFrom 0 digits).map UInt16.ofNat = some u ↔
      hexDigitsFrom 0 digits = some u.toNat := by
  rw [Option.map_eq_some_iff]
  constructor
  · rintro ⟨n, hread, rfl⟩
    have hlt := Text.hexDigitsFrom_lt hread
    have hpow : 16 ^ digits.length ≤ 16 ^ 4 := Nat.pow_le_pow_right (by decide) h
    rw [hread, UInt16.toNat_ofNat_of_lt' (by simp only [UInt16.size]; omega)]
  · intro hread
    exact ⟨_, hread, UInt16.ofNat_toNat⟩

private theorem unit?_eq_some_iff {w : List Char} {u : UInt16} : unit? w = some u ↔ IsRead w u := by
  unfold unit?
  split
  · next b c d =>
    rw [map_ofNat_hexDigitsFrom_iff (by simp)]
    constructor
    · exact fun hread => .inr ⟨[b, c, d], rfl, rfl, hread⟩
    · rintro (hunit | ⟨digits, heq, -, hread⟩)
      · exact absurd (hunit.hexDigit List.mem_cons_self) (by decide)
      · cases heq
        exact hread
  · next a b c d hplus =>
    rw [map_ofNat_hexDigitsFrom_iff (by simp)]
    constructor
    · exact fun hread => .inl ⟨rfl, hread⟩
    · rintro (hunit | ⟨digits, heq, -, hread⟩)
      · exact hunit.2
      · cases heq
        exact (hplus rfl).elim
  · next hplus hfour =>
    refine iff_of_false (by simp) fun h => ?_
    have hlength : w.length = 4 := by
      rcases h with hunit | hsigned
      · exact hunit.1
      · exact hsigned.length_eq
    match w, hlength with
    | [a, b, c, d], _ => exact hfour a b c d rfl

/-! ### The rules spell one list of units -/

variable {Unit : List Char → UInt16 → Prop}

/-- What a backslash and `u` spell depends on whether a unit follows. -/
theorem Spells.escaped_u {r : List Char} {us : List UInt16}
    (h : Spells Unit ('\\' :: 'u' :: r) us) :
    (∃ w t u vs, r = w ++ t ∧ us = u :: vs ∧ Unit w u ∧ Spells Unit t vs) ∨
      (∀ w u, w <+: r → ¬ Unit w u) ∧
        ∃ vs, us = encodeChar 'u' ++ vs ∧ Spells Unit r vs := by
  generalize hs : '\\' :: 'u' :: r = s at h
  cases h with
  | nil => cases hs
  | plain hslash _ => cases hs; exact absurd rfl hslash
  | last => cases hs
  | letter hc _ => cases hs; exact absurd rfl hc
  | unit hw more => cases hs; exact .inl ⟨_, _, _, _, rfl, rfl, hw, more⟩
  | malformed hr more => cases hs; exact .inr ⟨hr, _, rfl, more⟩

/-- Texts that stand for units have four characters, and stand for one unit each. -/
structure IsCode (Unit : List Char → UInt16 → Prop) : Prop where
  length_eq : ∀ {w u}, Unit w u → w.length = 4
  unique : ∀ {w u v}, Unit w u → Unit w v → u = v

/-- A written part spells at most one list of units. -/
theorem Spells.unique (hUnit : IsCode Unit) {s : List Char} {us vs : List UInt16}
    (hus : Spells Unit s us) (hvs : Spells Unit s vs) : us = vs := by
  induction hus generalizing vs with
  | nil => cases hvs; rfl
  | plain hc _ ih =>
    cases hvs with
    | plain _ more => rw [ih more]
    | _ => exact absurd rfl hc
  | last =>
    cases hvs with
    | plain hc _ => exact absurd rfl hc
    | last => rfl
  | letter hc _ ih =>
    cases hvs with
    | plain hslash _ => exact absurd rfl hslash
    | letter _ more => rw [ih more]
    | unit _ _ => exact absurd rfl hc
    | malformed _ _ => exact absurd rfl hc
  | @unit w r u us hw _ ih =>
    rcases hvs.escaped_u with ⟨v, t, x, xs, hr, rfl, hv, more⟩ | ⟨hnone, -⟩
    · have hlength : w.length = v.length := (hUnit.length_eq hw).trans (hUnit.length_eq hv).symm
      obtain ⟨rfl, rfl⟩ := List.append_inj hr hlength
      rw [hUnit.unique hw hv, ih more]
    · exact absurd hw (hnone _ _ (List.prefix_append w r))
  | @malformed r us hr _ ih =>
    rcases hvs.escaped_u with ⟨v, t, x, xs, rfl, -, hv, -⟩ | ⟨-, xs, rfl, more⟩
    · exact absurd hv (hr _ _ (List.prefix_append v t))
    · rw [ih more]

private theorem isCode_isUnit : IsCode IsUnit where
  length_eq h := h.1
  unique hu hv := UInt16.toNat_inj.mp (Option.some.inj (hu.2.symm.trans hv.2))

private theorem isCode_isRead : IsCode IsRead where
  length_eq h := h.elim (·.1) (·.length_eq)
  unique hu hv := Option.some.inj ((unit?_eq_some_iff.mpr hu).symm.trans (unit?_eq_some_iff.mpr hv))

/-- The reader keeps to the rules, with a plus sign among the digits. -/
theorem spells_units (s : List Char) : Spells IsRead s (units s) := by
  induction s using units.induct with
  | case1 => exact .nil
  | case2 => exact .last
  | case3 a b c d r u hunit ih =>
    rw [units, hunit]
    exact .unit (w := [a, b, c, d]) (unit?_eq_some_iff.mp hunit) ih
  | case4 a b c d r hunit ih =>
    rw [units, hunit]
    refine .malformed (fun w u hw hread => ?_) ih
    have hfour : w = [a, b, c, d] := eq_of_isPrefix_append (w := [a, b, c, d]) hw
      (isCode_isRead.length_eq hread)
    rw [← hfour, unit?_eq_some_iff.mpr hread] at hunit
    cases hunit
  | case5 c r hne ih =>
    rw [units]
    · by_cases hc : c = 'u'
      · subst hc
        refine .malformed (fun w u hw hread => ?_) ih
        obtain ⟨after, rfl⟩ := hw
        match w, isCode_isRead.length_eq hread with
        | [a, b, c, d], _ => exact hne a b c d after rfl rfl
      · exact .letter hc ih
    · exact hne
  | case6 c r hend hunit hescape ih =>
    rw [units]
    · refine .plain (fun hc => ?_) ih
      cases r with
      | nil => exact hend hc rfl
      | cons d r => exact hescape d r hc rfl
    · exact hend
    · exact hunit
    · exact hescape

/-! ### Signs among the digits -/

private theorem not_holdsSigned_nil : ¬ HoldsSigned [] := by
  rintro ⟨before, w, u, after, hs, -⟩
  simp at hs

private theorem not_holdsSigned_last : ¬ HoldsSigned ['\\'] := by
  rintro ⟨before, w, u, after, hs, -⟩
  have hlength := congrArg List.length hs
  simp only [List.length_append, List.length_cons, List.length_nil] at hlength
  omega

private theorem holdsSigned_cons_of_ne {c : Char} {r : List Char} (hc : c ≠ '\\') :
    HoldsSigned (c :: r) ↔ HoldsSigned r := by
  constructor
  · rintro ⟨before, w, u, after, hs, hbefore, hw⟩
    cases before with
    | nil => cases hs; exact absurd rfl hc
    | cons b before =>
      cases hs
      rw [continues_cons_of_ne hc] at hbefore
      exact ⟨before, w, u, after, rfl, hbefore, hw⟩
  · rintro ⟨before, w, u, after, rfl, hbefore, hw⟩
    exact ⟨c :: before, w, u, after, rfl, by rw [continues_cons_of_ne hc, hbefore], hw⟩

private theorem holdsSigned_append {w r : List Char} (hw : ∀ c ∈ w, c ≠ '\\') :
    HoldsSigned (w ++ r) ↔ HoldsSigned r := by
  induction w with
  | nil => rfl
  | cons c w ih =>
    rw [List.forall_mem_cons] at hw
    rw [List.cons_append, holdsSigned_cons_of_ne hw.1, ih hw.2]

/-- A sign stands behind the backslash at hand, or further on. -/
theorem holdsSigned_escape {c : Char} {r : List Char} :
    HoldsSigned ('\\' :: c :: r) ↔
      (c = 'u' ∧ ∃ w u, w <+: r ∧ IsSigned w u) ∨ HoldsSigned r := by
  constructor
  · rintro ⟨before, w, u, after, hs, hbefore, hw⟩
    match before with
    | [] => cases hs; exact .inl ⟨rfl, w, u, List.prefix_append w after, hw⟩
    | [b] => cases hs; exact absurd hbefore (by decide)
    | b :: d :: before =>
      cases hs
      rw [continues_escape] at hbefore
      exact .inr ⟨before, w, u, after, rfl, hbefore, hw⟩
  · rintro (⟨rfl, w, u, ⟨after, rfl⟩, hw⟩ | ⟨before, w, u, after, rfl, hbefore, hw⟩)
    · exact ⟨[], w, u, after, rfl, rfl, hw⟩
    · exact ⟨'\\' :: c :: before, w, u, after, rfl, by rw [continues_escape, hbefore], hw⟩

/-- Where no signed unit follows the backslash at hand, a sign can only stand further on. -/
theorem holdsSigned_escape_of_not {c : Char} {r : List Char}
    (h : c = 'u' → ∀ w u, w <+: r → ¬ IsSigned w u) :
    HoldsSigned ('\\' :: c :: r) ↔ HoldsSigned r := by
  rw [holdsSigned_escape]
  refine or_iff_right ?_
  rintro ⟨hc, w, u, hw, hsigned⟩
  exact h hc w u hw hsigned

private theorem IsRead.ne_backslash {w : List Char} {u : UInt16} (h : IsRead w u) :
    ∀ c ∈ w, c ≠ '\\' := by
  rintro c hc rfl
  rcases h with hunit | hsigned
  · exact hunit.hexDigit hc (by decide)
  · rcases hsigned.hexDigit hc with heq | hdigit
    · cases heq
    · exact hdigit (by decide)

/-! ### The reader beside the rules -/

/-- Characters that are no backslashes spell themselves. -/
theorem Spells.append_plain {w r : List Char} {us : List UInt16} (hw : ∀ c ∈ w, c ≠ '\\')
    (more : Spells Unit r us) : Spells Unit (w ++ r) (encode w ++ us) := by
  induction w with
  | nil => exact more
  | cons c w ih =>
    rw [List.forall_mem_cons] at hw
    rw [encode, List.flatMap_cons, List.append_assoc, List.cons_append]
    exact .plain hw.1 (ih hw.2)

/-- Of two lists of units that a part is taken for, the first has fewer units if a sign stands among
the digits of the part, and is the second if none does. -/
def FewerIfSigned (s : List Char) (us vs : List UInt16) : Prop :=
  (us = vs ∧ ¬ HoldsSigned s) ∨ (us.length < vs.length ∧ HoldsSigned s)

private theorem FewerIfSigned.length_le {s : List Char} {us vs : List UInt16}
    (h : FewerIfSigned s us vs) : us.length ≤ vs.length := by
  rcases h with ⟨rfl, -⟩ | ⟨hlt, -⟩
  · exact Nat.le_refl _
  · exact Nat.le_of_lt hlt

/-- The same units before both lists make no difference. -/
theorem FewerIfSigned.append {s r : List Char} {us vs : List UInt16} (h : FewerIfSigned r us vs)
    (hs : HoldsSigned s ↔ HoldsSigned r) (front : List UInt16) :
    FewerIfSigned s (front ++ us) (front ++ vs) := by
  rcases h with ⟨rfl, hr⟩ | ⟨hlt, hr⟩
  · exact .inl ⟨rfl, fun h => hr (hs.mp h)⟩
  · refine .inr ⟨?_, hs.mpr hr⟩
    rw [List.length_append, List.length_append]
    omega

/-- A signed unit is read as one unit, where the rules spell the letter and the four characters. -/
theorem FewerIfSigned.signed {w r : List Char} {u : UInt16} {us vs : List UInt16}
    (h : FewerIfSigned r us vs) (hw : IsSigned w u) :
    FewerIfSigned ('\\' :: 'u' :: (w ++ r)) (u :: us)
      (encodeChar 'u' ++ (encode w ++ vs)) := by
  refine .inr ⟨?_, holdsSigned_escape.mpr (.inl ⟨rfl, w, u, List.prefix_append w r, hw⟩)⟩
  have hle := h.length_le
  have hletter : (encodeChar 'u').length = 1 := by decide
  have hfirst : 0 < (encode w).length := by
    obtain ⟨digits, rfl, -⟩ := hw
    simp [encode, encodeChar]
  simp only [List.length_append, List.length_cons, hletter]
  omega

/-- What is read by rules that allow a sign is spelled by the rules that allow none as well, in more
units if a sign stands there. -/
theorem Spells.exists_unsigned {s : List Char} {us : List UInt16} (h : Spells IsRead s us) :
    ∃ vs, Spells IsUnit s vs ∧ FewerIfSigned s us vs := by
  -- Both readings take the same steps, but for a signed unit, which costs the reader four units;
  -- the steps on either side of it keep the difference.
  induction h with
  | nil => exact ⟨[], .nil, .inl ⟨rfl, not_holdsSigned_nil⟩⟩
  | last => exact ⟨[], .last, .inl ⟨rfl, not_holdsSigned_last⟩⟩
  | @plain c r us hc _ ih =>
    obtain ⟨vs, hvs, hfewer⟩ := ih
    exact ⟨_, .plain hc hvs, hfewer.append (holdsSigned_cons_of_ne hc) _⟩
  | @letter c r us hc _ ih =>
    obtain ⟨vs, hvs, hfewer⟩ := ih
    have hholds := holdsSigned_escape_of_not (r := r) fun heq => absurd heq hc
    exact ⟨_, .letter hc hvs, hfewer.append hholds _⟩
  | @unit w r u us hw _ ih =>
    obtain ⟨vs, hvs, hfewer⟩ := ih
    have hfour {v : List Char} (hv : v <+: w ++ r) (hlength : v.length = 4) : v = w :=
      eq_of_isPrefix_append hv (hlength.trans (isCode_isRead.length_eq hw).symm)
    have hplain := hw.ne_backslash
    rcases hw with hunit | hsigned
    · have hholds : HoldsSigned ('\\' :: 'u' :: (w ++ r)) ↔ HoldsSigned r := by
        refine (holdsSigned_escape_of_not fun _ v x hv hsigned => ?_).trans
          (holdsSigned_append hplain)
        rw [hfour hv hsigned.length_eq] at hsigned
        exact hsigned.not_isUnit hunit
      exact ⟨_, .unit hunit hvs, hfewer.append hholds [u]⟩
    -- The rules take the signed text for four characters that spell themselves.
    · refine ⟨_, .malformed (fun v x hv hunit => ?_) (hvs.append_plain hplain),
        hfewer.signed hsigned⟩
      rw [hfour hv hunit.1] at hunit
      exact hsigned.not_isUnit hunit
  | @malformed r us hr _ ih =>
    obtain ⟨vs, hvs, hfewer⟩ := ih
    have hholds := holdsSigned_escape_of_not (c := 'u') fun _ w u hw hsigned =>
      hr w u hw (.inr hsigned)
    exact ⟨_, .malformed (fun w u hw hunit => hr w u hw (.inl hunit)) hvs,
      hfewer.append hholds _⟩

/-- A written part is read as the rules spell it if no plus sign stands for the first digit of a
unit. By the rules, and by the rules with a sign, it spells one list of units each; the reader
returns the text of the latter, with U+FFFD for each surrogate without its partner, and that is the
text of the former exactly if no sign stands there. -/
theorem unescape_spells (s : List Char) :
    ∃ us vs, (∀ ws, Spells IsRead s ws ↔ ws = us) ∧ (∀ ws, Spells IsUnit s ws ↔ ws = vs) ∧
      encode (unescape s) = mended us ∧
      (encode (unescape s) = mended vs ↔ ¬ HoldsSigned s) := by
  have hus := spells_units s
  obtain ⟨vs, hvs, hfewer⟩ := hus.exists_unsigned
  have hread : encode (unescape s) = mended (units s) :=
    Text.Utf16.encode_decodeLossy (units s)
  refine ⟨units s, vs, fun ws => ⟨fun h => h.unique isCode_isRead hus, fun h => h ▸ hus⟩,
    fun ws => ⟨fun h => h.unique isCode_isUnit hvs, fun h => h ▸ hvs⟩, hread, ?_⟩
  rw [hread]
  rcases hfewer with ⟨rfl, hnone⟩ | ⟨hlt, hsome⟩
  · exact iff_of_true rfl hnone
  · refine iff_of_false (fun heq => ?_) (fun hnone => hnone hsome)
    have hlength := congrArg List.length heq
    rw [Text.Utf16.length_mended, Text.Utf16.length_mended] at hlength
    omega

/-- A plus sign before three digits is read as a digit. -/
example : unescape ['\\', 'u', '+', '0', 'e', '9'] = ['é'] := by decide

end Switchboard.Properties
