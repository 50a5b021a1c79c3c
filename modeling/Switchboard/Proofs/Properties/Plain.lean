import Switchboard.Proofs.Properties.RoundTrip

/-!
# Written properties are plain

Whatever a text holds, its written form is printable ASCII: a character that is not is written by
the digits of its units, and the digits are plain. So a file of properties can be stored in any
encoding that agrees with ASCII, and still gives back what was put into it.
-/

namespace Switchboard.Properties

private theorem isPlain_upperHexDigit : ∀ m : Fin 16, isPlain (Text.upperHexDigit m) = true := by
  decide

/-- The escape of a unit is plain. -/
theorem isPlain_of_mem_escapeUnit {u : UInt16} {d : Char} (h : d ∈ escapeUnit u) :
    isPlain d = true := by
  obtain ⟨m₁, m₂, m₃, m₄, he, -⟩ := exists_escapeUnit u
  simp only [he, List.mem_cons, List.not_mem_nil, or_false] at h
  rcases h with rfl | rfl | hdigit
  · decide
  · decide
  · rcases hdigit with rfl | rfl | rfl | rfl <;> exact isPlain_upperHexDigit _

/-- The written form of a character is plain, in every part. -/
theorem isPlain_of_mem_escapeChar {part : Part} {first : Bool} {c d : Char}
    (h : d ∈ escapeChar part first c) : isPlain d = true := by
  have hpair : ∀ e : Char, isPlain e = true → d ∈ ['\\', e] → isPlain d = true := by
    intro e he hd
    simp only [List.mem_cons, List.not_mem_nil, or_false] at hd
    rcases hd with rfl | rfl
    · decide
    · exact he
  unfold escapeChar at h
  split at h
  · rw [List.mem_singleton.mp h]
    decide
  split at h
  · exact hpair ' ' (by decide) h
  split at h
  · exact hpair '\\' (by decide) h
  split at h
  · exact hpair 't' (by decide) h
  split at h
  · exact hpair 'n' (by decide) h
  split at h
  · exact hpair 'r' (by decide) h
  split at h
  · exact hpair 'f' (by decide) h
  split at h
  · next hsign =>
    refine hpair c ?_ h
    rcases hsign.1 with rfl | rfl | rfl | rfl <;> decide
  split at h
  · next hplain =>
    rw [List.mem_singleton.mp h]
    exact hplain
  · obtain ⟨u, -, hu⟩ := List.mem_flatMap.mp h
    exact isPlain_of_mem_escapeUnit hu

/-- The written form of a part is plain. -/
theorem isPlain_of_mem_escape {part : Part} {s : List Char} {d : Char} (h : d ∈ escape part s) :
    isPlain d = true := by
  cases s with
  | nil => cases h
  | cons c r =>
    rw [escape, List.mem_append, List.mem_flatMap] at h
    rcases h with h | ⟨e, -, h⟩
    · exact isPlain_of_mem_escapeChar h
    · exact isPlain_of_mem_escapeChar h

/-- The line of an entry is plain up to its end. -/
theorem isPlain_of_mem_entryLine {entry : String × String} {d : Char} (h : d ∈ entryLine entry) :
    isPlain d = true ∨ d = '\n' := by
  simp only [entryLine, List.mem_append, List.mem_cons, List.not_mem_nil, or_false] at h
  rcases h with (h | rfl | h) | rfl
  · exact .inl (isPlain_of_mem_escape h)
  · exact .inl (by decide)
  · exact .inl (isPlain_of_mem_escape h)
  · exact .inr rfl

/-- The lines above the entries are plain up to their ends, if the time stamp is plain. -/
theorem isPlain_of_mem_headLines {comment stamp : String}
    (hstamp : ∀ c ∈ stamp.toList, isPlain c = true) {d : Char} (h : d ∈ headLines comment stamp) :
    isPlain d = true ∨ d = '\n' := by
  simp only [headLines, List.mem_append, List.mem_cons, List.not_mem_nil, or_false] at h
  rcases h with (h | rfl | h) | rfl
  · split at h
    · cases h
    · simp only [List.mem_append, List.mem_cons, List.not_mem_nil, or_false] at h
      rcases h with (rfl | h) | rfl
      · exact .inl (by decide)
      · exact .inl (isPlain_of_mem_escape h)
      · exact .inr rfl
  · exact .inl (by decide)
  · exact .inl (hstamp d h)
  · exact .inr rfl

/-- A file of any comment and any entries, written under a plain time stamp, holds nothing but
printable ASCII and line feeds, and the entries are read back from it as they were, in their
order and with all repetitions. -/
theorem isPlain_render_and_parse_render (comment : String) {stamp : String}
    (hstamp : ∀ c ∈ stamp.toList, isPlain c = true) (entries : List (String × String)) :
    (∀ c ∈ (render comment stamp entries).toList, isPlain c = true ∨ c = '\n') ∧
      parse (render comment stamp entries) = entries := by
  constructor
  · intro c hc
    rw [render, String.toList_ofList, List.mem_append, List.mem_flatMap] at hc
    rcases hc with hc | ⟨entry, -, hc⟩
    · exact isPlain_of_mem_headLines hstamp hc
    · exact isPlain_of_mem_entryLine hc
  · have hfeed : '\n' ∉ stamp.toList := fun hmem => absurd (hstamp _ hmem) (by decide)
    exact parse_render comment hfeed entries

/-- Line ends in the comment, a key twice, signs and blanks at the ends of keys, a trailing
backslash and characters far from ASCII. -/
theorem isPlain_render_of_marks :
    let entries := [("", " "), ("# k=:! ", "\\u00e9\\"), ("", "é😀\r\n\t"), ("# k=:! ", "")]
    (∀ c ∈ "Thu Jan 01 00:00:00 +00:00 1970".toList, isPlain c = true) ∧
      (∀ c ∈ (render "ü\r\nk=v\\" "Thu Jan 01 00:00:00 +00:00 1970" entries).toList,
        isPlain c = true ∨ c = '\n') ∧
      parse (render "ü\r\nk=v\\" "Thu Jan 01 00:00:00 +00:00 1970" entries) = entries := by
  intro entries
  have hstamp : ∀ c ∈ "Thu Jan 01 00:00:00 +00:00 1970".toList, isPlain c = true := by
    simp [isPlain]
  exact ⟨hstamp, isPlain_render_and_parse_render "ü\r\nk=v\\" hstamp entries⟩

end Switchboard.Properties
