import Switchboard.Proofs.Properties.Escapes
import Switchboard.Proofs.Text.Cuts

/-!
# Properties are read back

A file that was written holds one line per entry below its comments. Every such line is one logical
line, it is no comment whatever its key is, and it is split where key and value were joined, so the
entries are read back as they were, in their order.
-/

namespace Switchboard.Properties

/-! ### Lines -/

/-- The first line ends at the first line feed. -/
theorem lines_append {line : List Char} (h : '\n' ∉ line) (rest : List Char) :
    lines (line ++ '\n' :: rest) = dropReturn line :: lines rest := by
  unfold lines
  rw [Text.pieces_append h]
  obtain ⟨p, ps, hp⟩ := List.exists_cons_of_ne_nil (Text.pieces_ne_nil '\n' rest)
  rw [hp, linesOf]
  simp

private theorem dropReturn_of_not_mem {line : List Char} (h : '\r' ∉ line) :
    dropReturn line = line := by
  unfold dropReturn
  rw [if_neg]
  intro hlast
  exact h (List.mem_of_getLast? hlast)

/-- A line that does not go on is a logical line. -/
theorem joinContinued_of_not_continues {line : List Char} (h : continues line = false)
    (rest : List (List Char)) : joinContinued line rest = (line, rest) := by
  cases rest <;> simp [joinContinued, h]

/-! ### The line of an entry -/

/-- The line of an entry, without its end. -/
private def entryText (entry : String × String) : List Char :=
  escape .key entry.1.toList ++ '=' :: escape .value entry.2.toList

private theorem lineEnd_not_mem_escape {part : Part} (h : part ≠ .comment) (s : List Char) :
    '\n' ∉ escape part s ∧ '\r' ∉ escape part s := by
  cases s with
  | nil => simp [escape]
  | cons c r =>
    have hchar := lineEnd_not_mem_escapeChar h
    simp only [escape, List.mem_append, List.mem_flatMap, not_or, not_exists, not_and]
    exact ⟨⟨(hchar true c).1, fun d _ => (hchar false d).1⟩,
      ⟨(hchar true c).2, fun d _ => (hchar false d).2⟩⟩

private theorem lineEnd_not_mem_entryText (entry : String × String) :
    '\n' ∉ entryText entry ∧ '\r' ∉ entryText entry := by
  have hkey := lineEnd_not_mem_escape (show Part.key ≠ .comment by decide) entry.1.toList
  have hvalue := lineEnd_not_mem_escape (show Part.value ≠ .comment by decide) entry.2.toList
  simp [entryText, hkey, hvalue]

private theorem continues_entryText (entry : String × String) :
    continues (entryText entry) = false := by
  have hrest : ∀ (r : List Char) (line : List Char), continues line = false →
      continues (line ++ r.flatMap (escapeChar .value false)) = false := by
    intro r
    induction r with
    | nil => intro line hline; simpa using hline
    | cons c r ih =>
      intro line hline
      rw [List.flatMap_cons, ← List.append_assoc]
      exact ih _ (continues_append_escapeChar (by decide) false c hline)
  have hsign : continues (escape .key entry.1.toList ++ ['=']) = false := by
    simp [continues]
  have hline : entryText entry =
      (escape .key entry.1.toList ++ ['=']) ++ escape .value entry.2.toList := by
    simp [entryText]
  rw [hline]
  cases entry.2.toList with
  | nil => simpa [escape] using hsign
  | cons c r =>
    rw [escape, ← List.append_assoc]
    exact hrest r _ (continues_append_escapeChar (by decide) true c hsign)

private theorem head_entryText (entry : String × String) :
    ∃ d w, entryText entry = d :: w ∧ isSpace d = false ∧ d ≠ '#' ∧ d ≠ '!' := by
  unfold entryText
  cases hk : escape .key entry.1.toList with
  | nil => exact ⟨'=', _, rfl, by decide⟩
  | cons d w => exact ⟨d, _, rfl, head_escape (by decide) hk⟩

/-- The line of an entry is split where key and value were joined. -/
theorem splitEntry_entryText (entry : String × String) :
    splitEntry (escape .key entry.1.toList ++ '=' :: escape .value entry.2.toList) = entry := by
  have hvalue : dropSeparator ('=' :: escape .value entry.2.toList) =
      escape .value entry.2.toList := by
    have hdrop : (escape .value entry.2.toList).dropWhile isSpace =
        escape .value entry.2.toList := by
      cases hv : escape .value entry.2.toList with
      | nil => rfl
      | cons d w => simp [(head_escape (by decide) hv).1]
    simpa [dropSeparator, isSpace] using hdrop
  simp only [splitEntry, cutKey_escape, hvalue]
  rw [unescape_escape (by decide), unescape_escape (by decide)]
  simp

/-- A line that holds no entry is skipped. -/
theorem logicalLines_comment (text : List Char) (rest : List (List Char)) :
    logicalLines (('#' :: text) :: rest) = logicalLines rest := by
  rw [logicalLines, if_pos]
  simp [isIdle, isSpace]

private theorem logicalLines_entryText (entry : String × String) (rest : List (List Char)) :
    logicalLines (entryText entry :: rest) = entryText entry :: logicalLines rest := by
  obtain ⟨d, w, he, hspace, hnumber, hbang⟩ := head_entryText entry
  have hdrop : (entryText entry).dropWhile isSpace = entryText entry := by
    simp [he, hspace]
  have hidle : isIdle (entryText entry) = false := by
    simp [isIdle, he, hnumber, hbang]
  rw [logicalLines, hdrop, hidle, joinContinued_of_not_continues (continues_entryText entry)]
  simp

/-! ### The whole file -/

private theorem parse_entries (entries : List (String × String)) :
    (logicalLines (lines (entries.flatMap entryLine))).map splitEntry = entries := by
  induction entries with
  | nil => simp [lines, Text.pieces, linesOf, logicalLines]
  | cons entry rest ih =>
    have hends := lineEnd_not_mem_entryText entry
    have hline : (entry :: rest).flatMap entryLine =
        entryText entry ++ '\n' :: rest.flatMap entryLine := by
      simp [entryLine, entryText]
    rw [hline, lines_append hends.1, dropReturn_of_not_mem hends.2, logicalLines_entryText,
      List.map_cons, ih]
    congr 1
    exact splitEntry_entryText entry

private theorem logicalLines_dropReturn_comment (text : List Char) (rest : List (List Char)) :
    logicalLines (dropReturn ('#' :: text) :: rest) = logicalLines rest := by
  unfold dropReturn
  split
  · cases text with
    | nil => next hlast => simp at hlast
    | cons c r => exact logicalLines_comment _ rest
  · exact logicalLines_comment text rest

private theorem lineFeed_not_mem_escape_comment (s : List Char) : '\n' ∉ escape .comment s := by
  have hchar := lineFeed_not_mem_escapeChar_comment
  cases s with
  | nil => simp [escape]
  | cons c r => simp [escape, hchar]

/-- Entries are read back from the file that was written, in their order. -/
theorem parse_render (comment : String) {stamp : String} (hstamp : '\n' ∉ stamp.toList)
    (entries : List (String × String)) : parse (render comment stamp entries) = entries := by
  have hbelow : ∀ s : List Char, '\n' ∉ s →
      (logicalLines (lines (('#' :: s) ++ '\n' :: entries.flatMap entryLine))).map splitEntry =
        entries := by
    intro s hs
    rw [lines_append (by simp [hs]), logicalLines_dropReturn_comment, parse_entries]
  unfold parse render headLines
  rw [String.toList_ofList]
  split
  · simpa using hbelow stamp.toList hstamp
  · have hhead := lineFeed_not_mem_escape_comment comment.toList
    simp only [List.append_assoc, List.cons_append, List.nil_append]
    rw [← List.cons_append, lines_append (by simp [hhead]), logicalLines_dropReturn_comment]
    exact hbelow stamp.toList hstamp

end Switchboard.Properties
