import Switchboard.Text.Cut
import Switchboard.Text.Hexadecimal
import Switchboard.Text.Utf16

/-!
# Reading properties

Blank lines and comments are skipped, a line that ends in an odd number of backslashes goes on in
the next one, and a logical line is split at its first separator that is not escaped.

The reader is that of `SPEC_FULL.md`, section 4.4.
-/

namespace Switchboard.Properties

/-- A blank inside a line. -/
def isSpace (c : Char) : Bool := c == ' ' || c == '\t' || c == '\x0c'

/-- A character that ends a key. -/
def isSeparator (c : Char) : Bool := c == '=' || c == ':' || isSpace c

/-- A line without the carriage return at its end. -/
def dropReturn (line : List Char) : List Char :=
  if line.getLast? = some '\r' then line.dropLast else line

/-- Reads lines: each ends in a line feed, perhaps behind a carriage return, but for the last. -/
def linesOf : List (List Char) → List (List Char)
  | [] => []
  | [last] => if last.isEmpty then [] else [last]
  | line :: rest => dropReturn line :: linesOf rest

/-- The lines of a text. -/
def lines (s : List Char) : List (List Char) := linesOf (Text.pieces '\n' s)

/-- A line goes on in the next one if an odd number of backslashes ends it. -/
def continues (line : List Char) : Bool := (line.reverse.takeWhile (· == '\\')).length % 2 == 1

/-- Joins the lines that a line goes on in, and returns the lines behind them. -/
def joinContinued (line : List Char) : List (List Char) → List Char × List (List Char)
  | [] => (if continues line then line.dropLast else line, [])
  | next :: rest =>
    if continues line then joinContinued (line.dropLast ++ next.dropWhile isSpace) rest
    else (line, next :: rest)

/-- Splits a logical line behind its key; a character behind a backslash does not end it. -/
def cutKey : List Char → List Char × List Char
  | [] => ([], [])
  | ['\\'] => (['\\'], [])
  | '\\' :: c :: r => let (key, rest) := cutKey r; ('\\' :: c :: key, rest)
  | c :: r =>
    if isSeparator c then ([], c :: r) else let (key, rest) := cutKey r; (c :: key, rest)

/-- Drops the separator before a value: blanks, at most one sign, and blanks. -/
def dropSeparator (s : List Char) : List Char :=
  match s.dropWhile isSpace with
  | '=' :: r => r.dropWhile isSpace
  | ':' :: r => r.dropWhile isSpace
  | r => r

/-- Reads four characters as a unit: hexadecimal digits, of which the first may be a plus sign. -/
def unit? : List Char → Option UInt16
  | ['+', b, c, d] => (Text.hexDigitsFrom 0 [b, c, d]).map UInt16.ofNat
  | [a, b, c, d] => (Text.hexDigitsFrom 0 [a, b, c, d]).map UInt16.ofNat
  | _ => none

/-- The character that a backslash and `c` stand for. -/
def unescapeChar (c : Char) : Char :=
  match c with
  | 't' => '\t'
  | 'n' => '\n'
  | 'r' => '\r'
  | 'f' => '\x0c'
  | _ => c

/-- The units of a written part. An escape of a unit that is not well formed keeps its letter. -/
def units : List Char → List UInt16
  | [] => []
  | ['\\'] => []
  | '\\' :: 'u' :: a :: b :: c :: d :: r =>
    match unit? [a, b, c, d] with
    | some unit => unit :: units r
    | none => Text.Utf16.encodeChar 'u' ++ units (a :: b :: c :: d :: r)
  | '\\' :: c :: r => Text.Utf16.encodeChar (unescapeChar c) ++ units r
  | c :: r => Text.Utf16.encodeChar c ++ units r

/-- The text that a written part stands for. -/
def unescape (s : List Char) : List Char := Text.Utf16.decodeLossy (units s)

/-- The key and value of a logical line. -/
def splitEntry (line : List Char) : String × String :=
  let (key, rest) := cutKey line
  (String.ofList (unescape key), String.ofList (unescape (dropSeparator rest)))

/-- A line that holds no entry, without the blanks before it. -/
def isIdle (line : List Char) : Bool :=
  line.isEmpty || line.head? == some '#' || line.head? == some '!'

private theorem length_joinContinued_le (line : List Char) (rest : List (List Char)) :
    (joinContinued line rest).2.length ≤ rest.length := by
  induction rest generalizing line with
  | nil => simp [joinContinued]
  | cons next rest ih =>
    simp only [joinContinued]
    split
    · have := ih (line.dropLast ++ next.dropWhile isSpace)
      simp only [List.length_cons]
      omega
    · simp

/-- The logical lines that hold an entry. -/
def logicalLines : List (List Char) → List (List Char)
  | [] => []
  | line :: rest =>
    if isIdle (line.dropWhile isSpace) then logicalLines rest
    else
      (joinContinued (line.dropWhile isSpace) rest).1 ::
        logicalLines (joinContinued (line.dropWhile isSpace) rest).2
termination_by rest => rest.length
decreasing_by
  · simp
  · have := length_joinContinued_le (line.dropWhile isSpace) rest
    simp only [List.length_cons]
    omega

/-- The entries of a text in order; a key may stand more than once. -/
def parse (text : String) : List (String × String) :=
  (logicalLines (lines text.toList)).map splitEntry

end Switchboard.Properties
