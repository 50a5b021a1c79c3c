/-!
# UTF-16

Characters as 16-bit units and back. A character above U+FFFF takes a high and a low surrogate;
reading puts a replacement character for every surrogate without its partner.
-/

namespace Switchboard.Text.Utf16

/-- The units of one character. -/
def encodeChar (c : Char) : List UInt16 :=
  let n := c.toNat
  if n < 0x10000 then [UInt16.ofNat n]
  else
    [UInt16.ofNat (0xD800 + (n - 0x10000) / 1024), UInt16.ofNat (0xDC00 + (n - 0x10000) % 1024)]

/-- The units of a text. -/
def encode (s : List Char) : List UInt16 := s.flatMap encodeChar

/-- A unit that opens a pair. -/
def isHigh (u : UInt16) : Bool := 0xD800 ≤ u.toNat && u.toNat < 0xDC00

/-- A unit that closes a pair. -/
def isLow (u : UInt16) : Bool := 0xDC00 ≤ u.toNat && u.toNat < 0xE000

/-- The character of a unit that stands alone. -/
def ofUnit (u : UInt16) : Char :=
  if isHigh u || isLow u then Char.ofNat 0xFFFD else Char.ofNat u.toNat

/-- The character of a high and a low surrogate. -/
def ofPair (high low : UInt16) : Char :=
  Char.ofNat (0x10000 + (high.toNat - 0xD800) * 1024 + (low.toNat - 0xDC00))

/-- The text of a list of units, with U+FFFD for every surrogate without its partner. -/
def decodeLossy : List UInt16 → List Char
  | [] => []
  | [u] => [ofUnit u]
  | u :: v :: r =>
    if isHigh u && isLow v then ofPair u v :: decodeLossy r
    else ofUnit u :: decodeLossy (v :: r)

end Switchboard.Text.Utf16
