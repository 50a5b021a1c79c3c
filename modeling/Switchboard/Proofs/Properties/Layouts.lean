import Switchboard.Proofs.Properties.Backslashes
import Switchboard.Proofs.Properties.RoundTrip

/-!
# Layouts of a file

The same entries can be laid out in many ways: a line may be broken behind a backslash and go on in
the next one behind any blanks, and blank lines and comments may stand between the lines. All
layouts of the same logical lines are read alike, by splitting each of these lines as if it had
never been broken.
-/

namespace Switchboard.Properties

/-! ### What a layout is -/

/-- What ends a line. -/
inductive LineEnd : List Char → Prop where
  /-- A line feed. -/
  | feed : LineEnd ['\n']
  /-- A carriage return and a line feed. -/
  | returnFeed : LineEnd ['\r', '\n']

/-- What ends a line before the rest of a text; the last line may do without. -/
def Closes (ending rest : List Char) : Prop := LineEnd ending ∨ ending = [] ∧ rest = []

/-- A text holds only blanks that stand inside a line. -/
def AllSpace (s : List Char) : Prop := ∀ c ∈ s, isSpace c = true

/-- Whether a text is all space can be read off it. -/
instance (s : List Char) : Decidable (AllSpace s) :=
  List.decidableBAll (isSpace · = true) s

/-- A text does not begin with such a blank. -/
def StartsDark (s : List Char) : Prop := ∀ c, s.head? = some c → isSpace c = false

/-- The ways to write what is left of a logical line behind a part of it: as it is, or with breaks.
A break is a backslash, a line end and any blanks; it may stand where an even number of backslashes
ends the part before it and no blank begins the part behind it. -/
inductive Broken : List Char → List Char → List Char → Prop where
  /-- Nothing is left. -/
  | done {before : List Char} : Broken before [] []
  /-- A character. -/
  | char {before rest text : List Char} {c : Char} (more : Broken (before ++ [c]) rest text) :
      Broken before (c :: rest) (c :: text)
  /-- A break. -/
  | broken {before rest text ending blanks : List Char} (hbefore : continues before = false)
      (hrest : StartsDark rest) (hending : LineEnd ending) (hblanks : AllSpace blanks)
      (more : Broken before rest text) :
      Broken before rest ('\\' :: (ending ++ (blanks ++ text)))

/-- A line that holds an entry and is whole: it begins with neither a blank nor the mark of a
comment, holds no line end, and does not go on. -/
structure IsLogical (line : List Char) : Prop where
  ne_nil : line ≠ []
  startsDark : StartsDark line
  not_comment : ∀ c, line.head? = some c → c ≠ '#' ∧ c ≠ '!'
  no_feed : '\n' ∉ line
  no_return : '\r' ∉ line
  complete : continues line = false

/-- The texts in which logical lines are laid out, with blank lines and comments among them. -/
inductive Layout : List (List Char) → List Char → Prop where
  /-- Nothing. -/
  | empty : Layout [] []
  /-- A blank line. -/
  | blank {lines : List (List Char)} {s ending rest : List Char} (hs : AllSpace s)
      (hending : Closes ending rest) (more : Layout lines rest) :
      Layout lines (s ++ (ending ++ rest))
  /-- A comment, which ends with its line whatever it holds. -/
  | comment {lines : List (List Char)} {s ending rest : List Char} {mark : Char}
      (hmark : mark = '#' ∨ mark = '!') (hs : '\n' ∉ s) (hending : Closes ending rest)
      (more : Layout lines rest) : Layout lines (mark :: s ++ (ending ++ rest))
  /-- A logical line, broken or not. -/
  | line {lines : List (List Char)} {line s ending rest : List Char} (hline : IsLogical line)
      (hs : Broken [] line s) (hending : Closes ending rest) (more : Layout lines rest) :
      Layout (line :: lines) (s ++ (ending ++ rest))

/-! ### The lines of a text -/

/-- A character that ends no line stands at the start of the first line. -/
theorem lines_cons {c : Char} (hfeed : c ≠ '\n') (hreturn : c ≠ '\r') (s : List Char) :
    lines (c :: s) = (c :: (lines s).headD []) :: (lines s).tail := by
  obtain ⟨p, ps, hp⟩ := List.exists_cons_of_ne_nil (Text.pieces_ne_nil '\n' s)
  simp only [lines, Text.pieces, hfeed, if_false, hp]
  cases ps with
  | nil => cases p <;> simp [linesOf]
  | cons q qs =>
    have hdrop : dropReturn (c :: p) = c :: dropReturn p := by
      cases p with
      | nil => simp [dropReturn, hreturn]
      | cons d r => simp [dropReturn, List.getLast?_cons_cons, apply_ite (c :: ·)]
    simp [linesOf, hdrop]

/-- A text that ends no line stands at the start of the first line. -/
theorem lines_append_of_not_mem {s : List Char} (hfeed : '\n' ∉ s) (hreturn : '\r' ∉ s)
    (rest : List Char) : (lines (s ++ rest)).headD [] = s ++ (lines rest).headD [] ∧
      (lines (s ++ rest)).tail = (lines rest).tail := by
  induction s with
  | nil => exact ⟨rfl, rfl⟩
  | cons c r ih =>
    simp only [List.mem_cons, not_or] at hfeed hreturn
    obtain ⟨hhead, htail⟩ := ih hfeed.2 hreturn.2
    rw [List.cons_append, lines_cons (Ne.symm hfeed.1) (Ne.symm hreturn.1)]
    exact ⟨by rw [List.headD_cons, hhead, List.cons_append], htail⟩

/-- A line end closes an empty line. -/
theorem lines_lineEnd_append {ending : List Char} (h : LineEnd ending) (rest : List Char) :
    lines (ending ++ rest) = [] :: lines rest := by
  cases h with
  | feed =>
    have hfeed : '\n' ∉ ([] : List Char) := by decide
    exact lines_append hfeed rest
  | returnFeed =>
    have hfeed : '\n' ∉ ['\r'] := by decide
    exact lines_append hfeed rest

/-- Behind the first line stand the others, whatever the first line is. -/
theorem tail_lines_append {s : List Char} (hs : '\n' ∉ s) {ending rest : List Char}
    (h : Closes ending rest) : (lines (s ++ (ending ++ rest))).tail = lines rest := by
  rcases h with hend | ⟨rfl, rfl⟩
  · cases hend with
    | feed =>
      rw [List.singleton_append, lines_append hs, List.tail_cons]
    | returnFeed =>
      have hreturn : '\n' ∉ s ++ ['\r'] := by simpa using hs
      have hline : s ++ (['\r', '\n'] ++ rest) = (s ++ ['\r']) ++ '\n' :: rest := by simp
      rw [hline, lines_append hreturn, List.tail_cons]
  · rw [List.append_nil, List.append_nil, lines, Text.pieces_of_not_mem hs]
    cases s <;> rfl

/-- Where a line is closed at once, it is empty. -/
theorem headD_lines_of_closes {ending rest : List Char} (h : Closes ending rest) :
    (lines (ending ++ rest)).headD [] = [] := by
  rcases h with hend | ⟨rfl, rfl⟩
  · rw [lines_lineEnd_append hend, List.headD_cons]
  · rfl

/-! ### Broken lines are joined -/

/-- A line that ends in a break goes on in the next one behind its blanks, if there is a next
one. -/
theorem joinContinued_append_backslash {before : List Char} (h : continues before = false)
    (next : List (List Char)) : joinContinued (before ++ ['\\']) next =
      joinContinued (before ++ (next.headD []).dropWhile isSpace) next.tail := by
  have hgoes : continues (before ++ ['\\']) = true := by
    rw [continues_append_backslash, h, Bool.not_false]
  cases next with
  | nil => simp [joinContinued, hgoes, h]
  | cons line rest => simp [joinContinued, hgoes]

/-- What is written of a logical line begins as the line does, or with a break. -/
theorem Broken.head_cases {before rest s : List Char} (h : Broken before rest s) :
    s = [] ∧ rest = [] ∨ ∃ c r, s = c :: r ∧ (c = '\\' ∨ rest.head? = some c) := by
  cases h with
  | done => exact .inl ⟨rfl, rfl⟩
  | char more => exact .inr ⟨_, _, rfl, .inr rfl⟩
  | broken => exact .inr ⟨_, _, rfl, .inl rfl⟩

/-- The first line of what is written of a logical line is empty, or begins as the line does, or
with a break. -/
theorem Broken.first_cases {before rest s : List Char} (h : Broken before rest s)
    (hfeed : '\n' ∉ rest) (hreturn : '\r' ∉ rest) {ending more : List Char}
    (hending : Closes ending more) :
    (lines (s ++ (ending ++ more))).headD [] = [] ∧ rest = [] ∨
      ∃ c r, lines (s ++ (ending ++ more)) = (c :: r) :: (lines (s ++ (ending ++ more))).tail ∧
        (c = '\\' ∨ rest.head? = some c) := by
  rcases h.head_cases with ⟨rfl, rfl⟩ | ⟨c, r, rfl, hc⟩
  · have hhead := headD_lines_of_closes hending
    exact .inl ⟨hhead, rfl⟩
  · have hplain : c ≠ '\n' ∧ c ≠ '\r' := by
      rcases hc with rfl | hc
      · decide
      · have hmem := List.mem_of_mem_head? hc
        exact ⟨fun heq => hfeed (heq ▸ hmem), fun heq => hreturn (heq ▸ hmem)⟩
    rw [List.cons_append, lines_cons hplain.1 hplain.2]
    exact .inr ⟨c, _, rfl, hc⟩

/-- Blanks at the start of a line are dropped from it, and nothing else. -/
theorem dropWhile_isSpace_append {blanks s : List Char} (hblanks : AllSpace blanks)
    (hs : StartsDark s) : (blanks ++ s).dropWhile isSpace = s := by
  rw [List.dropWhile_append_of_pos hblanks]
  cases s with
  | nil => rfl
  | cons c r => rw [List.dropWhile_cons_of_neg (by simp [hs c rfl])]

private theorem AllSpace.not_mem {s : List Char} (h : AllSpace s) : '\n' ∉ s ∧ '\r' ∉ s :=
  ⟨fun hmem => absurd (h _ hmem) (by decide), fun hmem => absurd (h _ hmem) (by decide)⟩

/-- A line that was broken is joined to the line that it was. -/
theorem joinContinued_of_broken {before rest s : List Char} (h : Broken before rest s)
    (hfeed : '\n' ∉ rest) (hreturn : '\r' ∉ rest) (hcomplete : continues (before ++ rest) = false)
    {ending more : List Char} (hending : Closes ending more) :
    joinContinued (before ++ (lines (s ++ (ending ++ more))).headD [])
      (lines (s ++ (ending ++ more))).tail = (before ++ rest, lines more) := by
  induction h with
  | done =>
    rw [tail_lines_append (List.not_mem_nil) hending, List.nil_append,
      headD_lines_of_closes hending]
    exact joinContinued_of_not_continues hcomplete _
  | @char before rest s c _ ih =>
    simp only [List.mem_cons, not_or] at hfeed hreturn
    have hrest := ih hfeed.2 hreturn.2 (by simpa using hcomplete)
    rw [List.cons_append, lines_cons (Ne.symm hfeed.1) (Ne.symm hreturn.1)]
    simpa using hrest
  | @broken before rest s breakEnd blanks hbefore hrest hbreak hblanks hs ih =>
    have hline : lines ('\\' :: (breakEnd ++ (blanks ++ s)) ++ (ending ++ more)) =
        ['\\'] :: lines (blanks ++ (s ++ (ending ++ more))) := by
      rw [List.cons_append, lines_cons (by decide) (by decide), List.append_assoc,
        lines_lineEnd_append hbreak, List.append_assoc]
      rfl
    have hdark : StartsDark ((lines (s ++ (ending ++ more))).headD []) := by
      rcases hs.first_cases hfeed hreturn hending with ⟨hnil, -⟩ | ⟨c, r, hfirst, hc⟩
      · rw [hnil]
        rintro c ⟨⟩
      · rw [hfirst]
        rintro d ⟨⟩
        rcases hc with rfl | hc
        · decide
        · exact hrest c hc
    obtain ⟨hhead, htail⟩ := lines_append_of_not_mem hblanks.not_mem.1 hblanks.not_mem.2
      (s ++ (ending ++ more))
    rw [hline, List.headD_cons, List.tail_cons, joinContinued_append_backslash hbefore, hhead,
      htail, dropWhile_isSpace_append hblanks hdark]
    exact ih hfeed hreturn hcomplete

/-! ### The logical lines of a layout -/

/-- A blank line holds no entry. -/
theorem logicalLines_blank {s ending rest : List Char} (hs : AllSpace s)
    (hending : Closes ending rest) :
    logicalLines (lines (s ++ (ending ++ rest))) = logicalLines (lines rest) := by
  have hhead := (lines_append_of_not_mem hs.not_mem.1 hs.not_mem.2 (ending ++ rest)).1
  have htail := tail_lines_append hs.not_mem.1 hending
  rw [headD_lines_of_closes hending, List.append_nil] at hhead
  cases hlines : lines (s ++ (ending ++ rest)) with
  | nil =>
    rw [hlines] at htail
    rw [← htail, List.tail_nil]
  | cons line more =>
    rw [hlines, List.headD_cons] at hhead
    rw [hlines, List.tail_cons] at htail
    have hdrop : s.dropWhile isSpace = [] := by
      simpa using dropWhile_isSpace_append (s := []) hs (by rintro c ⟨⟩)
    rw [logicalLines, hhead, hdrop, if_pos (by rfl), htail]

/-- A comment holds no entry, and does not go on. -/
theorem logicalLines_of_comment {mark : Char} (hmark : mark = '#' ∨ mark = '!')
    {s ending rest : List Char} (hs : '\n' ∉ s) (hending : Closes ending rest) :
    logicalLines (lines (mark :: s ++ (ending ++ rest))) = logicalLines (lines rest) := by
  have hplain : mark ≠ '\n' ∧ mark ≠ '\r' ∧ isSpace mark = false := by
    rcases hmark with rfl | rfl <;> decide
  rw [List.cons_append, lines_cons hplain.1 hplain.2.1, tail_lines_append hs hending, logicalLines,
    List.dropWhile_cons_of_neg (by simp [hplain.2.2]), if_pos]
  rcases hmark with rfl | rfl <;> rfl

/-- A logical line is read however it is broken. -/
theorem logicalLines_line {line s ending rest : List Char} (hline : IsLogical line)
    (hs : Broken [] line s) (hending : Closes ending rest) :
    logicalLines (lines (s ++ (ending ++ rest))) = line :: logicalLines (lines rest) := by
  have hjoin := joinContinued_of_broken hs hline.no_feed hline.no_return hline.complete hending
  rcases hs.first_cases hline.no_feed hline.no_return hending with ⟨-, hnil⟩ | ⟨c, r, hfirst, hc⟩
  · exact absurd hnil hline.ne_nil
  · have hc' : isSpace c = false ∧ c ≠ '#' ∧ c ≠ '!' := by
      rcases hc with rfl | hc
      · decide
      · exact ⟨hline.startsDark c hc, hline.not_comment c hc⟩
    have hdrop : (c :: r).dropWhile isSpace = c :: r :=
      List.dropWhile_cons_of_neg (by simp [hc'.1])
    have hidle : isIdle (c :: r) = false := by simp [isIdle, hc'.2.1, hc'.2.2]
    rw [hfirst, List.headD_cons, List.tail_cons, List.nil_append] at hjoin
    rw [hfirst, logicalLines, hdrop, hidle, hjoin]
    rfl

/-- From a layout of logical lines just these lines are read, in their order. -/
theorem logicalLines_of_layout {ls : List (List Char)} {text : List Char} (h : Layout ls text) :
    logicalLines (lines text) = ls := by
  induction h with
  | empty => simp [lines, Text.pieces, linesOf, logicalLines]
  | blank hs hending _ ih => rw [logicalLines_blank hs hending, ih]
  | comment hmark hs hending _ ih => rw [logicalLines_of_comment hmark hs hending, ih]
  | line hline hs hending _ ih => rw [logicalLines_line hline hs hending, ih]

/-- Logical lines are read as their entries, in their order and with nothing between them, however
they are broken and whatever blank lines and comments stand among them. -/
theorem parse_of_layout {ls : List (List Char)} {text : String} (h : Layout ls text.toList) :
    parse text = ls.map splitEntry := by
  rw [parse, logicalLines_of_layout h]

/-- A line that is broken inside an escape and before its separator, below a comment that ends in a
backslash and above a blank line and a comment that ends the file. -/
theorem parse_of_broken_escape :
    let line := "k\\u0041 =v".toList
    let text := "#c\\\nk\\u00\\\r\n\t41 \\\n  =v\r\n \t\n!"
    Layout [line] text.toList ∧ parse text = [line].map splitEntry ∧
      splitEntry line = ("kA", "v") := by
  intro line text
  let written := 'k' :: '\\' :: 'u' :: '0' :: '0' :: '\\' :: (['\r', '\n'] ++ (['\t'] ++
    ('4' :: '1' :: ' ' :: '\\' :: (['\n'] ++ ([' ', ' '] ++ ['=', 'v'])))))
  have htext : text.toList = '#' :: ['c', '\\'] ++ (['\n'] ++ (written ++ (['\r', '\n'] ++
      ([' ', '\t'] ++ (['\n'] ++ ('!' :: [] ++ ([] ++ []))))))) := by
    decide
  have hlogical : IsLogical line :=
    ⟨by decide, by rintro c ⟨⟩; decide, by rintro c ⟨⟩; decide, by decide, by decide, by decide⟩
  have hwritten : Broken [] line written := by
    refine .char (.char (.char (.char (.char (.broken rfl ?_ .returnFeed (by decide)
      (.char (.char (.char (.broken rfl ?_ .feed (by decide) (.char (.char .done)))))))))))
    · rintro c ⟨⟩
      rfl
    · rintro c ⟨⟩
      rfl
  have hlayout : Layout [line] text.toList := by
    rw [htext]
    exact .comment (.inl rfl) (by decide) (.inl .feed)
      (.line hlogical hwritten (.inl .returnFeed)
        (.blank (by decide) (.inl .feed)
          (.comment (.inr rfl) (by decide) (.inr ⟨rfl, rfl⟩) .empty)))
  exact ⟨hlayout, parse_of_layout hlayout, rfl⟩

end Switchboard.Properties
