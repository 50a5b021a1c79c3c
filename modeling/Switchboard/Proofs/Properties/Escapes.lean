import Switchboard.Proofs.Text.Encodings
import Switchboard.Properties.Reader
import Switchboard.Properties.Writer

/-!
# Escapes of properties

The written form of a character outside comments is an escaped pair, the character itself, or the
escapes of its units. Each of these is read back as the character, ends no key and no line, and
leaves no backslash over that would make the line go on.
-/

namespace Switchboard.Properties

/-- The written forms of a character in a key or a value. -/
inductive Written (part : Part) (first : Bool) (c : Char) : List Char → Prop where
  /-- A backslash before a letter that stands for the character. -/
  | pair (d : Char) (hd : d ≠ 'u') (hc : unescapeChar d = c) (hn : d ≠ '\n') (hr : d ≠ '\r') :
      Written part first c ['\\', d]
  /-- The character itself. -/
  | plain (hc : c ≠ '\\') (hn : c ≠ '\n') (hr : c ≠ '\r') (hs : isSeparator c = false ∨ c = ' ')
      (hb : c = ' ' → first = false ∧ part = .value) (hi : c ≠ '#' ∧ c ≠ '!') :
      Written part first c [c]
  /-- The escapes of its units. -/
  | units : Written part first c ((Text.Utf16.encodeChar c).flatMap escapeUnit)

private theorem written_blank {part : Part} (h : part ≠ .comment) (first : Bool) :
    Written part first ' ' (escapeChar part first ' ') := by
  simp only [escapeChar, h, false_and, if_false, ne_eq, not_false_eq_true, and_true, true_and]
  by_cases hf : first = true ∨ part = .key
  · rw [if_pos hf]
    exact .pair ' ' (by decide) rfl (by decide) (by decide)
  · rw [if_neg hf]
    rw [not_or, Bool.not_eq_true] at hf
    obtain ⟨hfirst, hkey⟩ := hf
    have hvalue : part = .value := by
      cases part with
      | key => exact absurd rfl hkey
      | value => rfl
      | comment => exact absurd rfl h
    exact .plain (by decide) (by decide) (by decide) (.inr rfl) (fun _ => ⟨hfirst, hvalue⟩)
      (by decide)

/-- Outside comments a character takes one of the written forms. -/
theorem written_escapeChar {part : Part} (h : part ≠ .comment) (first : Bool) (c : Char) :
    Written part first c (escapeChar part first c) := by
  by_cases hblank : c = ' '
  · rw [hblank]
    exact written_blank h first
  · simp only [escapeChar, h, hblank, false_and, if_false, ne_eq, not_false_eq_true, and_true]
    split
    · next hc => exact .pair '\\' (by decide) hc.symm (by decide) (by decide)
    next hslash =>
    split
    · next hc => exact .pair 't' (by decide) hc.symm (by decide) (by decide)
    next htab =>
    split
    · next hc => exact .pair 'n' (by decide) hc.symm (by decide) (by decide)
    next hn =>
    split
    · next hc => exact .pair 'r' (by decide) hc.symm (by decide) (by decide)
    next hr =>
    split
    · next hc => exact .pair 'f' (by decide) hc.symm (by decide) (by decide)
    next hfeed =>
    split
    · next hc =>
      rcases hc with rfl | rfl | rfl | rfl <;>
        exact .pair _ (by decide) rfl (by decide) (by decide)
    next hsign =>
    split
    · simp only [not_or] at hsign
      refine .plain hslash hn hr (.inl ?_) (fun hb => absurd hb hblank) ⟨hsign.2.2.1, hsign.2.2.2⟩
      simp [isSeparator, isSpace, hsign, hblank, htab, hfeed]
    · exact .units

/-! ### Digits -/

private theorem upperHexDigit_inert : ∀ m : Fin 16,
    isSeparator (Text.upperHexDigit m) = false ∧ Text.upperHexDigit m ≠ '\\' ∧
      Text.upperHexDigit m ≠ '+' ∧ Text.upperHexDigit m ≠ '\n' ∧ Text.upperHexDigit m ≠ '\r' := by
  decide

/-- The escape of a unit is a backslash, a letter and four digits that stand for the unit. -/
theorem exists_escapeUnit (u : UInt16) :
    ∃ a b c d : Fin 16, escapeUnit u = ['\\', 'u', Text.upperHexDigit a, Text.upperHexDigit b,
        Text.upperHexDigit c, Text.upperHexDigit d] ∧
      unit? [Text.upperHexDigit a, Text.upperHexDigit b, Text.upperHexDigit c,
        Text.upperHexDigit d] = some u := by
  have hread := Text.hexDigitsFrom_upperHex 4 0 u.toNat u.toNat_lt
  simp only [Text.upperHex, List.nil_append, List.cons_append, Nat.zero_mul, Nat.zero_add] at hread
  have hlt : ∀ n : Nat, n % 16 < 16 := fun n => Nat.mod_lt n (by decide)
  refine ⟨⟨_, hlt _⟩, ⟨_, hlt _⟩, ⟨_, hlt _⟩, ⟨_, hlt _⟩, rfl, ?_⟩
  -- the reader turns down a sign before it looks at the digits
  have hplus := (upperHexDigit_inert ⟨_, hlt (u.toNat / 16 / 16 / 16)⟩).2.2.1
  simp only [unit?, hread]
  simp

/-! ### Reading a part back -/

/-- The escape of a unit is read back as the unit. -/
theorem units_escapeUnit_append (u : UInt16) (rest : List Char) :
    units (escapeUnit u ++ rest) = u :: units rest := by
  obtain ⟨a, b, c, d, he, hu⟩ := exists_escapeUnit u
  simp only [he, List.cons_append, List.nil_append, units, hu]

/-- A character of a key or a value is read back as its units. -/
theorem units_escapeChar_append {part : Part} (h : part ≠ .comment) (first : Bool) (c : Char)
    (rest : List Char) :
    units (escapeChar part first c ++ rest) = Text.Utf16.encodeChar c ++ units rest := by
  have hw := written_escapeChar h first c
  generalize escapeChar part first c = w at hw ⊢
  cases hw with
  | pair d hd hc hn hr =>
    simp only [List.cons_append, List.nil_append]
    rw [units, hc]
    intro a b c d r heq
    exact absurd heq hd
  | plain hc hn hr hs hb hi =>
    simp only [List.cons_append, List.nil_append]
    rw [units]
    · exact fun heq => absurd heq hc
    · exact fun _ _ _ _ _ heq => absurd heq hc
    · exact fun _ _ heq => absurd heq hc
  | units =>
    induction Text.Utf16.encodeChar c with
    | nil => rfl
    | cons u us ih =>
      rw [List.flatMap_cons, List.append_assoc, units_escapeUnit_append, ih]
      rfl

private theorem units_flatMap_escapeChar {part : Part} (h : part ≠ .comment) (s : List Char) :
    units (s.flatMap (escapeChar part false)) = Text.Utf16.encode s := by
  induction s with
  | nil => rfl
  | cons c r ih =>
    rw [List.flatMap_cons, units_escapeChar_append h, ih]
    rfl

/-- A key or a value is read back from its written form. -/
theorem unescape_escape {part : Part} (h : part ≠ .comment) (s : List Char) :
    unescape (escape part s) = s := by
  unfold unescape
  cases s with
  | nil => rfl
  | cons c r =>
    rw [escape, units_escapeChar_append h, units_flatMap_escapeChar h]
    exact Text.Utf16.decodeLossy_encode (c :: r)

/-! ### Where a written part ends -/

/-- A character of a key does not end it. -/
theorem cutKey_escapeChar_append (first : Bool) (c : Char) (rest : List Char) :
    cutKey (escapeChar .key first c ++ rest) =
      (escapeChar .key first c ++ (cutKey rest).1, (cutKey rest).2) := by
  have hw := written_escapeChar (show Part.key ≠ .comment by decide) first c
  generalize escapeChar .key first c = w at hw ⊢
  cases hw with
  | pair d hd hc hn hr => rfl
  | plain hc hn hr hs hb hi =>
    have hsep : isSeparator c = false := by
      rcases hs with hs | hs
      · exact hs
      · cases (hb hs).2
    simp only [List.cons_append, List.nil_append]
    rw [cutKey]
    · simp only [hsep, Bool.false_eq_true, if_false]
    · exact fun heq => absurd heq hc
    · exact fun _ _ heq => absurd heq hc
  | units =>
    induction Text.Utf16.encodeChar c with
    | nil => rfl
    | cons u us ih =>
      obtain ⟨a, b, c, d, he, -⟩ := exists_escapeUnit u
      rw [List.flatMap_cons, List.append_assoc, he]
      have hskip : ∀ (m : Fin 16) (r : List Char),
          cutKey (Text.upperHexDigit m :: r) = (Text.upperHexDigit m :: (cutKey r).1,
            (cutKey r).2) := by
        intro m r
        have hinert := upperHexDigit_inert m
        rw [cutKey]
        · simp only [hinert.1, Bool.false_eq_true, if_false]
        · exact fun heq => absurd heq hinert.2.1
        · exact fun _ _ heq => absurd heq hinert.2.1
      simp only [List.cons_append, List.nil_append, cutKey, hskip, ih]

/-- A key that was written ends at the sign behind it. -/
theorem cutKey_escape (s rest : List Char) :
    cutKey (escape .key s ++ '=' :: rest) = (escape .key s, '=' :: rest) := by
  have hend : ∀ r : List Char, cutKey (r.flatMap (escapeChar .key false) ++ '=' :: rest) =
      (r.flatMap (escapeChar .key false), '=' :: rest) := by
    intro r
    induction r with
    | nil => rfl
    | cons c r ih => rw [List.flatMap_cons, List.append_assoc, cutKey_escapeChar_append, ih]
  cases s with
  | nil => rfl
  | cons c r => rw [escape, List.append_assoc, cutKey_escapeChar_append, hend]

/-- The first character of a written part is none that a reader skips. -/
theorem head_escape {part : Part} (h : part ≠ .comment) {s w : List Char} {d : Char}
    (hs : escape part s = d :: w) : isSpace d = false ∧ d ≠ '#' ∧ d ≠ '!' := by
  cases s with
  | nil => cases hs
  | cons c r =>
    rw [escape] at hs
    have hw := written_escapeChar h true c
    generalize escapeChar part true c = v at hw hs
    cases hw with
    | pair => cases hs; decide
    | plain hc hn hr hsep hb hi =>
      cases hs
      refine ⟨?_, hi⟩
      rcases hsep with hsep | hsep
      · simp only [isSeparator, Bool.or_eq_false_iff] at hsep
        exact hsep.2
      · cases (hb hsep).1
    | units =>
      cases hu : Text.Utf16.encodeChar c with
      | nil =>
        simp only [Text.Utf16.encodeChar] at hu
        split at hu <;> cases hu
      | cons u us =>
        rw [hu] at hs
        cases hs
        decide

private theorem lineEnd_not_mem_units (c : Char) :
    '\n' ∉ (Text.Utf16.encodeChar c).flatMap escapeUnit ∧
      '\r' ∉ (Text.Utf16.encodeChar c).flatMap escapeUnit := by
  have hunit : ∀ u, '\n' ∉ escapeUnit u ∧ '\r' ∉ escapeUnit u := by
    intro u
    obtain ⟨a, b, c, d, he, -⟩ := exists_escapeUnit u
    have hfeed := fun m => Ne.symm (upperHexDigit_inert m).2.2.2.1
    have hreturn := fun m => Ne.symm (upperHexDigit_inert m).2.2.2.2
    simp [he, hfeed, hreturn]
  simp only [List.mem_flatMap, not_exists, not_and]
  exact ⟨fun u _ => (hunit u).1, fun u _ => (hunit u).2⟩

/-- A character of a key or a value stays on its line. -/
theorem lineEnd_not_mem_escapeChar {part : Part} (h : part ≠ .comment) (first : Bool) (c : Char) :
    '\n' ∉ escapeChar part first c ∧ '\r' ∉ escapeChar part first c := by
  have hw := written_escapeChar h first c
  generalize escapeChar part first c = w at hw ⊢
  cases hw with
  | pair d hd hc hn hr => simp [Ne.symm hn, Ne.symm hr]
  | plain hc hn hr hs hb hi => simp [Ne.symm hn, Ne.symm hr]
  | units => exact lineEnd_not_mem_units c

/-- A character of a comment stays on its line. -/
theorem lineFeed_not_mem_escapeChar_comment (first : Bool) (c : Char) :
    '\n' ∉ escapeChar .comment first c := by
  by_cases hend : c = '\n' ∨ c = '\r'
  · simp [escapeChar, hend]
  · obtain ⟨hfeed, hreturn⟩ := not_or.mp hend
    simp only [escapeChar, hfeed, hreturn, or_self, and_false, ne_eq, not_true_eq_false, if_false]
    split
    · decide
    split
    · decide
    split
    · decide
    split
    · simpa using Ne.symm hfeed
    · exact (lineEnd_not_mem_units c).1

/-- A backslash that was written goes with the character behind it, so no line goes on. -/
theorem continues_append_escapeChar {part : Part} (h : part ≠ .comment) (first : Bool) (c : Char)
    {line : List Char} (hline : continues line = false) :
    continues (line ++ escapeChar part first c) = false := by
  have hlast : ∀ (s : List Char) (d : Char), d ≠ '\\' → continues (s ++ [d]) = false := by
    intro s d hd
    simp [continues, hd]
  have hw := written_escapeChar h first c
  generalize escapeChar part first c = w at hw ⊢
  cases hw with
  | pair d hd hc hn hr =>
    by_cases hslash : d = '\\'
    · subst hslash
      unfold continues at hline ⊢
      simp only [List.reverse_append, List.reverse_cons, List.reverse_nil, List.nil_append,
        List.cons_append, List.takeWhile_cons, beq_self_eq_true, if_true, List.length_cons]
      rw [Nat.add_assoc, Nat.add_mod_right]
      exact hline
    · have hd' := hlast (line ++ ['\\']) d hslash
      simpa using hd'
  | plain hc hn hr hs hb hi => exact hlast line c hc
  | units =>
    induction Text.Utf16.encodeChar c generalizing line with
    | nil => simpa using hline
    | cons u us ih =>
      obtain ⟨a, b, c, d, he, -⟩ := exists_escapeUnit u
      rw [List.flatMap_cons, ← List.append_assoc]
      apply ih
      rw [he]
      have := hlast (line ++ ['\\', 'u', Text.upperHexDigit a, Text.upperHexDigit b,
        Text.upperHexDigit c]) _ (upperHexDigit_inert d).2.1
      simpa using this

end Switchboard.Properties
