/-!
# Blank characters

The characters with the Unicode property `White_Space`, and what depends on them: trimming a text
and splitting it into words. Byte order marks and zero-width spaces are not blank.
-/

namespace Switchboard.Text

/-- A character with the Unicode property `White_Space`. -/
def isBlank (c : Char) : Bool :=
  let n := c.toNat
  (9 ≤ n && n ≤ 13) || n == 0x20 || n == 0x85 || n == 0xA0 || n == 0x1680 ||
    (0x2000 ≤ n && n ≤ 0x200A) || n == 0x2028 || n == 0x2029 || n == 0x202F || n == 0x205F ||
    n == 0x3000

/-- The text without the characters of a class at its start. -/
def trimStartBy (p : Char → Bool) (s : List Char) : List Char := s.dropWhile p

/-- The text without the characters of a class at its end. -/
def trimEndBy (p : Char → Bool) (s : List Char) : List Char := (s.reverse.dropWhile p).reverse

/-- The text without the characters of a class at either end. -/
def trimBy (p : Char → Bool) (s : List Char) : List Char := trimEndBy p (trimStartBy p s)

/-- The text without blanks at either end. -/
def trim (s : List Char) : List Char := trimBy isBlank s

/-- Reads the word under construction, kept in reverse, to its end. -/
def wordsFrom (word : List Char) : List Char → List (List Char)
  | [] => if word.isEmpty then [] else [word.reverse]
  | c :: r =>
    if isBlank c then (if word.isEmpty then [] else [word.reverse]) ++ wordsFrom [] r
    else wordsFrom (c :: word) r

/-- The maximal runs of characters that are not blank, in order. -/
def words (s : List Char) : List (List Char) := wordsFrom [] s

end Switchboard.Text
