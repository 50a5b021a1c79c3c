import Switchboard.Text.Hexadecimal
import Switchboard.Text.Utf16

/-!
# Writing properties

A properties file has one `key=value` line per entry below comment lines. Everything outside
printable ASCII is escaped, and so is everything that a reader would take for structure.

The writer is that of `SPEC_FULL.md`, section 4.4.
-/

namespace Switchboard.Properties

/-- The part of a line that a character stands in. -/
inductive Part where
  /-- Before the separator. -/
  | key
  /-- Behind the separator. -/
  | value
  /-- Behind a number sign. -/
  | comment
deriving DecidableEq, Repr

/-- The four-digit escape of one unit. -/
def escapeUnit (u : UInt16) : List Char := ['\\', 'u'] ++ Text.upperHex 4 u.toNat

/-- A character that is printable and ASCII. -/
def isPlain (c : Char) : Bool := 0x20 ≤ c.toNat && c.toNat ≤ 0x7E

/-- The written form of one character. A blank is escaped at the start of a part and everywhere in
a key; a comment keeps its separators and writes line ends as blanks. -/
def escapeChar (part : Part) (first : Bool) (c : Char) : List Char :=
  if part = .comment ∧ (c = '\n' ∨ c = '\r') then [' ']
  else if c = ' ' ∧ (first ∨ part = .key) then ['\\', ' ']
  else if c = '\\' ∧ part ≠ .comment then ['\\', '\\']
  else if c = '\t' then ['\\', 't']
  else if c = '\n' then ['\\', 'n']
  else if c = '\r' then ['\\', 'r']
  else if c = '\x0c' then ['\\', 'f']
  else if (c = '=' ∨ c = ':' ∨ c = '#' ∨ c = '!') ∧ part ≠ .comment then ['\\', c]
  else if isPlain c then [c]
  else (Text.Utf16.encodeChar c).flatMap escapeUnit

/-- The written form of a part. -/
def escape (part : Part) : List Char → List Char
  | [] => []
  | c :: r => escapeChar part true c ++ r.flatMap (escapeChar part false)

/-- The line of one entry. -/
def entryLine (entry : String × String) : List Char :=
  escape .key entry.1.toList ++ '=' :: escape .value entry.2.toList ++ ['\n']

/-- The lines above the entries: the comment, if there is one, and the time stamp. -/
def headLines (comment stamp : String) : List Char :=
  (if comment.isEmpty then [] else '#' :: escape .comment comment.toList ++ ['\n']) ++
    '#' :: stamp.toList ++ ['\n']

/-- The text of a file with a comment, a time stamp and entries. -/
def render (comment stamp : String) (entries : List (String × String)) : String :=
  String.ofList (headLines comment stamp ++ entries.flatMap entryLine)

end Switchboard.Properties
