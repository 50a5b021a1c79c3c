/-!
# Decimal numbers

Reading and writing whole numbers in ASCII digits. A reader takes an optional sign, at least one
digit and nothing else, and refuses a value outside the range it is asked for.
-/

namespace Switchboard.Text

/-- The value of an ASCII decimal digit. -/
def digit? (c : Char) : Option Nat :=
  if '0' ≤ c ∧ c ≤ '9' then some (c.toNat - 48) else none

/-- Reads digits on behind a value already read. -/
def digitsFrom (value : Nat) : List Char → Option Nat
  | [] => some value
  | c :: r => (digit? c).bind fun d => digitsFrom (10 * value + d) r

/-- Reads a nonempty run of digits. -/
def digits? : List Char → Option Nat
  | [] => none
  | s => digitsFrom 0 s

/-- Reads a number below `bound`, with an optional plus sign. -/
def nat? (bound : Nat) (s : List Char) : Option Nat :=
  let body := match s with
    | '+' :: r => r
    | _ => s
  (digits? body).filter (· < bound)

/-- Reads a number of `-half` to `half - 1`, with an optional sign. -/
def int? (half : Nat) (s : List Char) : Option Int :=
  match s with
  | '-' :: r => ((digits? r).filter (· ≤ half)).map fun n => -(n : Int)
  | _ => (nat? half s).map fun n => (n : Int)

/-- The digits of a number, most significant first. -/
def ofNat (n : Nat) : List Char := (toString n).toList

end Switchboard.Text
