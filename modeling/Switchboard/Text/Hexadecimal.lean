/-!
# Hexadecimal digits

The values of hexadecimal digits and the two alphabets they are written in.
-/

namespace Switchboard.Text

/-- The value of a hexadecimal digit of either case. -/
def hexDigit? (c : Char) : Option Nat :=
  if '0' ≤ c ∧ c ≤ '9' then some (c.toNat - 48)
  else if 'a' ≤ c ∧ c ≤ 'f' then some (c.toNat - 87)
  else if 'A' ≤ c ∧ c ≤ 'F' then some (c.toNat - 55)
  else none

/-- The upper-case digit of a value below 16. -/
def upperHexDigit (n : Nat) : Char := Char.ofNat (if n < 10 then 48 + n else 55 + n)

/-- The lower-case digit of a value below 16. -/
def lowerHexDigit (n : Nat) : Char := Char.ofNat (if n < 10 then 48 + n else 87 + n)

/-- Reads hexadecimal digits on behind a value already read. -/
def hexDigitsFrom (value : Nat) : List Char → Option Nat
  | [] => some value
  | c :: r => (hexDigit? c).bind fun d => hexDigitsFrom (16 * value + d) r

/-- The last `width` upper-case digits of a number, padded with zeros. -/
def upperHex : Nat → Nat → List Char
  | 0, _ => []
  | width + 1, n => upperHex width (n / 16) ++ [upperHexDigit (n % 16)]

/-- The lower-case digits of a number without leading zeros. -/
def lowerHex (n : Nat) : List Char := (Nat.toDigits 16 n)

/-- A digit's value is read back from its upper-case letter. -/
theorem hexDigit?_upperHexDigit : ∀ n : Fin 16, hexDigit? (upperHexDigit n) = some n.val := by
  decide

end Switchboard.Text
