import Switchboard.Text.Blank
import Switchboard.Text.Cut

/-!
# Laws of cuts

A cut at a mark is undone by putting the mark back, and it is made at the same place again whatever
stands behind the mark. Texts without the mark are not cut, so joining pieces and cutting at the
joints gives the pieces back. Trimming takes off blanks at the ends and nothing else.
-/

namespace Switchboard.Text

/-! ### Single marks -/

/-- What stands before the first mark holds no mark. -/
theorem not_mem_of_cutAt {mark : Char} {s before after : List Char}
    (h : cutAt mark s = some (before, after)) : mark ∉ before := by
  induction s generalizing before with
  | nil => cases h
  | cons c r ih =>
    simp only [cutAt] at h
    split at h
    · cases h
      simp
    · next hc =>
      obtain ⟨⟨b, a⟩, hcut, heq⟩ := Option.map_eq_some_iff.mp h
      cases heq
      simp only [List.mem_cons, not_or]
      exact ⟨Ne.symm hc, ih hcut⟩

/-- A text is cut at the mark behind a part that holds none. -/
theorem cutAt_append {mark : Char} {before : List Char} (h : mark ∉ before) (after : List Char) :
    cutAt mark (before ++ mark :: after) = some (before, after) := by
  induction before with
  | nil => simp [cutAt]
  | cons c r ih =>
    simp only [List.mem_cons, not_or] at h
    simp [cutAt, Ne.symm h.1, ih h.2]

/-- A text is not cut just if it does not hold the mark. -/
theorem cutAt_eq_none_iff {mark : Char} {s : List Char} : cutAt mark s = none ↔ mark ∉ s := by
  induction s with
  | nil => simp [cutAt]
  | cons c r ih =>
    by_cases hc : c = mark
    · simp [cutAt, hc]
    · simp [cutAt, hc, ih, Ne.symm hc]

/-! ### Longer markers -/

/-- Cutting at a marker loses nothing but the marker. -/
theorem eq_of_cut {marker s before after : List Char}
    (h : cut marker s = some (before, after)) : s = before ++ marker ++ after := by
  induction s generalizing before with
  | nil =>
    simp only [cut] at h
    split at h
    · next hempty =>
      cases h
      simpa using hempty
    · cases h
  | cons c r ih =>
    simp only [cut] at h
    split at h
    · next hinit =>
      cases h
      obtain ⟨t, ht⟩ := List.isPrefixOf_iff_prefix.mp hinit
      simp [← ht]
    · obtain ⟨⟨b, a⟩, hcut, heq⟩ := Option.map_eq_some_iff.mp h
      cases heq
      rw [ih hcut]
      simp

/-- A text that is cut at a marker is cut at the same place again, whatever stands behind the marker
and even if the marker goes on there. -/
theorem cut_append_of_cut {lead s before after : List Char} (hlead : lead ≠ [])
    (h : cut lead s = some (before, after)) (tail rest : List Char) :
    cut (lead ++ tail) (before ++ (lead ++ tail) ++ rest) = some (before, rest) := by
  induction before generalizing s with
  | nil =>
    obtain ⟨c, m, rfl⟩ := List.exists_cons_of_ne_nil hlead
    simp [cut]
  | cons b before ih =>
    have hs := eq_of_cut h
    rw [hs] at h
    simp only [List.cons_append, cut] at h ⊢
    split at h
    · cases h
    · next hfirst =>
      rw [if_neg]
      · obtain ⟨⟨_, _⟩, hcut, heq⟩ := Option.map_eq_some_iff.mp h
        cases heq
        rw [ih hcut, Option.map_some]
      · -- the longer marker would begin with the marker, which is not there
        intro hlonger
        apply hfirst
        simp only [List.isPrefixOf_iff_prefix] at hlonger ⊢
        have hbegin : lead <+: b :: (before ++ lead) ++ (tail ++ rest) := by
          have hlead' := (List.prefix_append lead tail).trans hlonger
          simpa using hlead'
        have hshort : lead <+: b :: (before ++ lead) := by
          apply List.prefix_of_prefix_length_le hbegin (List.prefix_append _ _)
          simp only [List.length_cons, List.length_append]
          omega
        simpa using hshort.trans (List.prefix_append _ after)

/-- A text is cut at a marker behind a part that does not hold the first character of it. -/
theorem cut_append_of_not_mem {mark : Char} {before : List Char} (h : mark ∉ before)
    (more after : List Char) :
    cut (mark :: more) (before ++ (mark :: more) ++ after) = some (before, after) := by
  induction before with
  | nil => simp [cut]
  | cons c r ih =>
    simp only [List.mem_cons, not_or] at h
    rw [List.cons_append, List.cons_append, cut, if_neg, ih h.2, Option.map_some]
    simp [h.1]

/-- Where a marker does not occur, it does not occur further on. -/
theorem cut_eq_none_of_append {marker before after : List Char}
    (h : cut marker (before ++ after) = none) : cut marker after = none := by
  induction before with
  | nil => exact h
  | cons c r ih =>
    simp only [List.cons_append, cut] at h
    split at h
    · cases h
    · exact ih (Option.map_eq_none_iff.mp h)

/-- Where a marker does not occur, it does not occur in the beginning. -/
theorem cut_eq_none_of_isPrefix {marker s t : List Char} (h : cut marker s = none)
    (hinit : t <+: s) : cut marker t = none := by
  obtain ⟨rest, rfl⟩ := hinit
  induction t with
  | nil =>
    rw [cut]
    split
    · next hempty =>
      rw [List.isEmpty_iff.mp hempty] at h
      cases rest <;> simp [cut] at h
    · rfl
  | cons c r ih =>
    simp only [List.cons_append, cut] at h ⊢
    split at h
    · cases h
    · next hfirst =>
      rw [if_neg, ih (Option.map_eq_none_iff.mp h), Option.map_none]
      intro hbegin
      apply hfirst
      simp only [List.isPrefixOf_iff_prefix] at hbegin ⊢
      exact hbegin.trans (List.prefix_append (c :: r) rest)

/-- Where a marker does not occur, no marker occurs that begins with it. -/
theorem cut_append_eq_none {lead s : List Char} (hlead : lead ≠ []) (h : cut lead s = none)
    (tail : List Char) : cut (lead ++ tail) s = none := by
  induction s with
  | nil => simp [cut, hlead]
  | cons c r ih =>
    simp only [cut] at h ⊢
    split at h
    · cases h
    · next hfirst =>
      rw [if_neg, ih (Option.map_eq_none_iff.mp h), Option.map_none]
      intro hlonger
      apply hfirst
      simp only [List.isPrefixOf_iff_prefix] at hlonger ⊢
      exact (List.prefix_append lead tail).trans hlonger

/-- A pair of characters does not occur where the second does not, unless the first stands last. -/
theorem cut_pair_append {first second : Char} {before : List Char} (hsecond : second ∉ before)
    (hlast : before.getLast? ≠ some first) {after : List Char}
    (h : cut [first, second] after = none) : cut [first, second] (before ++ after) = none := by
  induction before with
  | nil => exact h
  | cons c r ih =>
    simp only [List.mem_cons, not_or] at hsecond
    have hr : cut [first, second] (r ++ after) = none := by
      apply ih hsecond.2
      intro hr
      apply hlast
      rw [List.getLast?_cons, hr]
      rfl
    rw [List.cons_append, cut, if_neg, hr, Option.map_none]
    intro hinit
    obtain ⟨rest, hrest⟩ := List.isPrefixOf_iff_prefix.mp hinit
    simp only [List.cons_append, List.cons.injEq] at hrest
    obtain ⟨hc, hnext⟩ := hrest
    cases r with
    | nil => exact hlast (by rw [hc]; rfl)
    | cons d r =>
      simp only [List.cons_append, List.cons.injEq] at hnext
      exact hsecond.2 (by rw [hnext.1]; simp)

/-! ### Pieces -/

/-- The pieces of two texts with a mark between them are the pieces of both. -/
theorem pieces_append_mark (mark : Char) (s rest : List Char) :
    pieces mark (s ++ mark :: rest) = pieces mark s ++ pieces mark rest := by
  induction s with
  | nil => simp [pieces]
  | cons c r ih =>
    by_cases hc : c = mark
    · rw [List.cons_append, pieces, if_pos hc, ih, pieces, if_pos hc, List.cons_append]
    · obtain ⟨piece, more, hr⟩ := List.exists_cons_of_ne_nil (pieces_ne_nil mark r)
      rw [hr] at ih
      simp [pieces, hc, ih, hr]

/-- A text without the mark is one piece. -/
theorem pieces_of_not_mem {mark : Char} {s : List Char} (h : mark ∉ s) : pieces mark s = [s] := by
  induction s with
  | nil => rfl
  | cons c r ih =>
    simp only [List.mem_cons, not_or] at h
    rw [pieces, if_neg (Ne.symm h.1), ih h.2]

/-- A text without the mark is one piece with what follows the mark. -/
theorem pieces_append {mark : Char} {s : List Char} (h : mark ∉ s) (rest : List Char) :
    pieces mark (s ++ mark :: rest) = s :: pieces mark rest := by
  rw [pieces_append_mark, pieces_of_not_mem h, List.singleton_append]

/-- Texts without the mark that are joined with it are the pieces of what they make up. -/
theorem pieces_join {mark : Char} {ps : List (List Char)} (hps : ps ≠ [])
    (h : ∀ p, p ∈ ps → mark ∉ p) : pieces mark (join [mark] ps) = ps := by
  induction ps with
  | nil => exact absurd rfl hps
  | cons p rest ih =>
    have hp := h p (by simp)
    cases rest with
    | nil => exact pieces_of_not_mem hp
    | cons q rest =>
      rw [join, List.append_assoc, List.singleton_append, pieces_append hp,
        ih (by simp) fun r hr => h r (by simp [hr])]
      simp

/-- No piece holds the mark. -/
theorem not_mem_of_mem_pieces {mark : Char} {s p : List Char} (h : p ∈ pieces mark s) :
    mark ∉ p := by
  induction s generalizing p with
  | nil =>
    simp only [pieces, List.mem_singleton] at h
    simp [h]
  | cons c r ih =>
    simp only [pieces] at h
    split at h
    · rcases List.mem_cons.mp h with rfl | h
      · simp
      · exact ih h
    · next hc =>
      split at h
      · simp only [List.mem_singleton] at h
        simp [h, Ne.symm hc]
      · next first rest heq =>
        rw [heq] at ih
        rcases List.mem_cons.mp h with rfl | h
        · simp only [List.mem_cons, not_or]
          exact ⟨Ne.symm hc, ih (by simp)⟩
        · exact ih (by simp [h])

/-! ### Trimming -/

/-- No digit is blank. -/
theorem isBlank_of_isDigit {c : Char} (h : c.isDigit = true) : isBlank c = false := by
  have hbounds : 48 ≤ c.toNat ∧ c.toNat ≤ 57 := by
    simpa [Char.isDigit, Char.le_def, UInt32.le_iff_toNat_le] using h
  simp only [isBlank, Bool.or_eq_false_iff, Bool.and_eq_false_iff, decide_eq_false_iff_not,
    beq_eq_false_iff_ne]
  omega

/-- No blank stands at the start. -/
def StartsPlain (s : List Char) : Prop := ∀ c, s.head? = some c → isBlank c = false

/-- No blank stands at the end. -/
def EndsPlain (s : List Char) : Prop := ∀ c, s.getLast? = some c → isBlank c = false

/-- What begins a text that starts plain starts plain itself. -/
theorem startsPlain_of_isPrefix {s t : List Char} (h : StartsPlain s) (hinit : t <+: s) :
    StartsPlain t := by
  intro c hc
  obtain ⟨rest, rfl⟩ := hinit
  apply h c
  rw [List.head?_append, hc]
  rfl

/-- Two texts make one that starts plain if the first of them that is not empty starts plain. -/
theorem startsPlain_append {before after : List Char} (hbefore : StartsPlain before)
    (hafter : before = [] → StartsPlain after) : StartsPlain (before ++ after) := by
  cases before with
  | nil => exact hafter rfl
  | cons d r => exact fun c hc => hbefore c hc

private theorem trimEndBy_of_endsPlain {s : List Char} (h : EndsPlain s) :
    trimEndBy isBlank s = s := by
  unfold trimEndBy
  cases hs : s.reverse with
  | nil => simpa using hs.symm
  | cons c r =>
    have hc : isBlank c = false := h c (by rw [List.getLast?_eq_head?_reverse, hs]; rfl)
    rw [List.dropWhile_cons_of_neg (by simp [hc]), ← hs, List.reverse_reverse]

/-- What is left when the end is trimmed begins the text. -/
theorem trimEndBy_isPrefix (p : Char → Bool) (s : List Char) : trimEndBy p s <+: s := by
  have hreverse := List.reverse_prefix.mpr (List.dropWhile_suffix p (l := s.reverse))
  rwa [List.reverse_reverse] at hreverse

/-- Nothing is trimmed off behind a text without the mark. -/
theorem trimEndBy_append_of_not_mem {mark : Char} {tail : List Char} (hne : tail ≠ [])
    (h : mark ∉ tail) (s : List Char) : trimEndBy (· == mark) (s ++ tail) = s ++ tail := by
  obtain ⟨c, rest, hrest⟩ := List.exists_cons_of_ne_nil (l := tail.reverse) (by simpa using hne)
  have hc : c ≠ mark := by
    rintro rfl
    exact h (List.mem_reverse.mp (hrest ▸ List.mem_cons_self))
  rw [trimEndBy, List.reverse_append, hrest, List.cons_append,
    List.dropWhile_cons_of_neg (by simpa using hc), ← List.cons_append, ← hrest,
    ← List.reverse_append, List.reverse_reverse]

/-- What is trimmed off behind a text is a run of the mark. -/
theorem exists_trimEndBy_append_replicate (mark : Char) (s : List Char) :
    ∃ n, s = trimEndBy (· == mark) s ++ List.replicate n mark := by
  refine ⟨(s.reverse.takeWhile (· == mark)).length, ?_⟩
  have hrun : s.reverse.takeWhile (· == mark) =
      List.replicate (s.reverse.takeWhile (· == mark)).length mark :=
    List.eq_replicate_of_mem fun c hc => by
      simpa using List.all_eq_true.mp List.all_takeWhile c hc
  calc s = (s.reverse.takeWhile (· == mark) ++ s.reverse.dropWhile (· == mark)).reverse := by
        rw [List.takeWhile_append_dropWhile, List.reverse_reverse]
    _ = trimEndBy (· == mark) s ++ (s.reverse.takeWhile (· == mark)).reverse :=
        List.reverse_append
    _ = _ := by rw [hrun, List.reverse_replicate, List.length_replicate]

/-- No mark is left at the end of a text when it is trimmed off. -/
theorem getLast?_trimEndBy_ne (mark : Char) (s : List Char) :
    (trimEndBy (· == mark) s).getLast? ≠ some mark := by
  intro h
  rw [trimEndBy, List.getLast?_reverse] at h
  have hnot := List.head?_dropWhile_not (· == mark) s.reverse
  simp [h] at hnot

/-- What is trimmed at its end ends plain. -/
theorem endsPlain_trimEndBy (s : List Char) : EndsPlain (trimEndBy isBlank s) := by
  intro c hc
  rw [trimEndBy, List.getLast?_reverse] at hc
  have hnot := List.head?_dropWhile_not isBlank s.reverse
  rw [hc] at hnot
  simpa using hnot

/-- Two texts make one that ends plain if the last of them that is not empty ends plain. -/
theorem endsPlain_append {before after : List Char} (hbefore : after = [] → EndsPlain before)
    (hafter : EndsPlain after) : EndsPlain (before ++ after) := by
  intro c hc
  cases hlast : after.getLast? with
  | none =>
    have hnil := List.getLast?_eq_none_iff.mp hlast
    rw [hnil, List.append_nil] at hc
    exact hbefore hnil c hc
  | some d =>
    rw [List.getLast?_append, hlast] at hc
    cases hc
    exact hafter c hlast

/-- Behind a part that ends in no blank, only blanks of what follows are taken off. -/
theorem trimEndBy_append {before : List Char} (h : EndsPlain before) (after : List Char) :
    trimEndBy isBlank (before ++ after) = before ++ trimEndBy isBlank after := by
  have hbefore := trimEndBy_of_endsPlain h
  unfold trimEndBy at hbefore ⊢
  rw [List.reverse_append, List.dropWhile_append]
  split
  · next hall =>
    rw [hbefore, List.isEmpty_iff.mp hall]
    simp
  · simp

/-- A text that starts plain is trimmed at its end only. -/
theorem trim_of_startsPlain {s : List Char} (h : StartsPlain s) :
    trim s = trimEndBy isBlank s := by
  unfold trim trimBy trimStartBy
  cases s with
  | nil => rfl
  | cons c r => rw [List.dropWhile_cons_of_neg (by simp [h c rfl])]

/-- A text that starts and ends plain is trimmed nowhere. -/
theorem trim_of_plain {s : List Char} (hstart : StartsPlain s) (hend : EndsPlain s) :
    trim s = s := by
  rw [trim_of_startsPlain hstart, trimEndBy_of_endsPlain hend]

/-- Trimming adds nothing. -/
theorem mem_of_mem_trim {c : Char} {s : List Char} (h : c ∈ trim s) : c ∈ s := by
  have hmem := (trimEndBy_isPrefix isBlank (trimStartBy isBlank s)).subset h
  exact (List.dropWhile_suffix isBlank).subset hmem

/-- What is trimmed ends plain. -/
theorem endsPlain_trim (s : List Char) : EndsPlain (trim s) := endsPlain_trimEndBy _

/-- What is trimmed starts plain. -/
theorem startsPlain_trim (s : List Char) : StartsPlain (trim s) := by
  apply startsPlain_of_isPrefix _ (trimEndBy_isPrefix isBlank (trimStartBy isBlank s))
  intro c hc
  have hnot := List.head?_dropWhile_not isBlank s
  rw [trimStartBy] at hc
  rw [hc] at hnot
  simpa using hnot

end Switchboard.Text
