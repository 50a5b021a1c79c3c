import Switchboard.Properties.Reader

/-!
# Backslashes at the end of a line

Whether a line goes on depends on the parity of the backslashes that end it. A further backslash
turns it over, and what stands before a whole escape, or before a character that is no backslash,
does not matter.
-/

namespace Switchboard.Properties

/-- A backslash at the end of a line turns over whether it goes on. -/
theorem continues_append_backslash (line : List Char) :
    continues (line ++ ['\\']) = !continues line := by
  simp only [continues, List.reverse_append, List.reverse_cons, List.reverse_nil, List.nil_append,
    List.cons_append, List.takeWhile_cons, beq_self_eq_true, if_true, List.length_cons]
  rw [Bool.eq_iff_iff]
  simp only [beq_iff_eq, Bool.not_eq_true', beq_eq_false_iff_ne]
  omega

/-- What stands before a character that is no backslash does not matter, nor does the character. -/
theorem continues_cons_of_ne {c : Char} (h : c ≠ '\\') (line : List Char) :
    continues (c :: line) = continues line := by
  simp only [continues, List.reverse_cons, List.takeWhile_append]
  split
  · next hall => simp [h, hall]
  · rfl

/-- An escape before a line does not matter. -/
theorem continues_escape (c : Char) (line : List Char) :
    continues ('\\' :: c :: line) = continues line := by
  simp only [continues, List.reverse_cons, List.append_assoc, List.takeWhile_append]
  split
  · next hall =>
    by_cases h : c = '\\'
    · simp [h, hall]
    · simp [h, hall]
  · rfl

end Switchboard.Properties
