import Switchboard.Text.Hexadecimal
import Switchboard.Text.Utf8

/-!
# Percent encoding

A byte that is no unreserved character is written as a percent sign and two hexadecimal digits.
Reading takes a percent sign without two digits behind it as it stands.
-/

namespace Switchboard.Text.Percent

/-- The bytes that stand for themselves: ASCII letters, digits and four marks. -/
def isUnreserved (b : UInt8) : Bool :=
  let n := b.toNat
  (48 ≤ n && n ≤ 57) || (65 ≤ n && n ≤ 90) || (97 ≤ n && n ≤ 122) ||
    n == 45 || n == 46 || n == 95 || n == 126

/-- The written form of one byte. -/
def encodeByte (b : UInt8) : List Char :=
  if isUnreserved b then [Char.ofNat b.toNat]
  else ['%', upperHexDigit (b.toNat / 16), upperHexDigit (b.toNat % 16)]

/-- The written form of the UTF-8 bytes of a text. -/
def encode (s : List Char) : List Char := (Utf8.encode s).flatMap encodeByte

/-- The value of a byte that is a hexadecimal digit. -/
def hexByte? (b : UInt8) : Option Nat := hexDigit? (Char.ofNat b.toNat)

/-- Reads every percent sign with two digits behind it as the byte it stands for. -/
def decodeBytes : List UInt8 → List UInt8
  | [] => []
  | [b] => [b]
  | [b, c] => [b, c]
  | b :: c :: d :: r =>
    if b.toNat = 0x25 then
      match hexByte? c, hexByte? d with
      | some high, some low => UInt8.ofNat (16 * high + low) :: decodeBytes r
      | _, _ => b :: decodeBytes (c :: d :: r)
    else b :: decodeBytes (c :: d :: r)

/-- The text that a written form stands for, if its bytes are UTF-8. -/
def decode? (s : List Char) : Option (List Char) := Utf8.decode? (decodeBytes (Utf8.encode s))

/-- The text that a written form stands for, repaired where its bytes are not UTF-8. -/
def decodeLossy (s : List Char) : List Char :=
  Utf8.decodeLossy (decodeBytes (Utf8.encode s))

end Switchboard.Text.Percent
