/-!
# Cutting texts at markers

A cut splits a text at the first or last place where a marker stands and leaves the marker out.
`eq_of_cutAt` says that the parts and the marker make up the text.
-/

namespace Switchboard.Text

/-- What stands before and after the first occurrence of `marker`. -/
def cut (marker : List Char) : List Char → Option (List Char × List Char)
  | [] => if marker.isEmpty then some ([], []) else none
  | c :: r =>
    if marker.isPrefixOf (c :: r) then some ([], (c :: r).drop marker.length)
    else (cut marker r).map fun (before, after) => (c :: before, after)

/-- What stands before and after the first `mark`. -/
def cutAt (mark : Char) : List Char → Option (List Char × List Char)
  | [] => none
  | c :: r =>
    if c = mark then some ([], r)
    else (cutAt mark r).map fun (before, after) => (c :: before, after)

/-- What stands before and after the last `mark`. -/
def cutAtLast (mark : Char) (s : List Char) : Option (List Char × List Char) :=
  (cutAt mark s.reverse).map fun (after, before) => (before.reverse, after.reverse)

/-- The pieces between the occurrences of `mark`; always at least one. -/
def pieces (mark : Char) : List Char → List (List Char)
  | [] => [[]]
  | c :: r =>
    if c = mark then [] :: pieces mark r
    else
      match pieces mark r with
      | [] => [[c]]
      | piece :: rest => (c :: piece) :: rest

/-- Joins texts with a separator between neighbours. -/
def join (separator : List Char) : List (List Char) → List Char
  | [] => []
  | [s] => s
  | s :: rest => s ++ separator ++ join separator rest

/-- Replaces every occurrence of `old`, read from the left without overlap. An empty `old` occurs
nowhere. -/
def replace (old new : List Char) (s : List Char) : List Char :=
  go s
where
  /-- Replaces in what is left of the text. -/
  go : List Char → List Char
    | [] => []
    | c :: r =>
      if !old.isEmpty && old.isPrefixOf (c :: r) then new ++ go (r.drop (old.length - 1))
      else c :: go r
  termination_by s => s.length
  decreasing_by
    · simp only [List.length_drop, List.length_cons]; omega
    · simp

/-- The text of `s` without `lead` at its start, if it starts so. -/
def afterLead (lead s : List Char) : Option (List Char) :=
  if lead.isPrefixOf s then some (s.drop lead.length) else none

/-- The text of `s` without `tail` at its end, if it ends so. -/
def beforeTail (tail s : List Char) : Option (List Char) :=
  if tail.isSuffixOf s then some (s.take (s.length - tail.length)) else none

/-- Cutting at a mark loses nothing but the mark. -/
theorem eq_of_cutAt {mark : Char} {s before after : List Char}
    (h : cutAt mark s = some (before, after)) : s = before ++ mark :: after := by
  induction s generalizing before with
  | nil => simp [cutAt] at h
  | cons c r ih =>
    by_cases hc : c = mark
    · simp only [cutAt, hc, if_true, Option.some.injEq, Prod.mk.injEq] at h
      obtain ⟨rfl, rfl⟩ := h
      simp [hc]
    · simp only [cutAt, hc, if_false, Option.map_eq_some_iff] at h
      obtain ⟨⟨b, a⟩, hcut, heq⟩ := h
      simp only [Prod.mk.injEq] at heq
      obtain ⟨rfl, rfl⟩ := heq
      rw [ih hcut]
      rfl

/-- There is always a first piece. -/
theorem pieces_ne_nil (mark : Char) (s : List Char) : pieces mark s ≠ [] := by
  cases s with
  | nil => simp [pieces]
  | cons c r =>
    simp only [pieces]
    split
    · simp
    · split <;> simp

end Switchboard.Text
