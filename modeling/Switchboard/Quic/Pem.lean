import Switchboard.Response

/-!
# PEM

Sections of base64 between a line that begins with `-----BEGIN` and a line that begins with
`-----END`, both with the section's label. A text is a list of bytes; what stands outside sections
is skipped. A section that does not end, or whose base64 is not canonical, spoils the text.
-/

namespace Switchboard.Pem

/-- The value of a base64 digit. -/
def sextet? (b : UInt8) : Option Nat :=
  let n := b.toNat
  if 65 ≤ n ∧ n ≤ 90 then some (n - 65)
  else if 97 ≤ n ∧ n ≤ 122 then some (n - 71)
  else if 48 ≤ n ∧ n ≤ 57 then some (n + 4)
  else if n = 43 then some 62
  else if n = 47 then some 63
  else none

/-- The bytes of base64 digits in groups of four. Only the last group may be padded, and the bits
that padding leaves over must be zero. -/
def ofBase64? : Bytes → Option Bytes
  | [] => some []
  | [a, b, c, d] => do
    let a ← sextet? a
    let b ← sextet? b
    if c.toNat = 61 then
      if d.toNat = 61 ∧ b % 16 = 0 then return [UInt8.ofNat (a * 4 + b / 16)] else none
    else
      let c ← sextet? c
      if d.toNat = 61 then
        if c % 4 = 0 then
          return [UInt8.ofNat (a * 4 + b / 16), UInt8.ofNat (b % 16 * 16 + c / 4)]
        else none
      else
        let d ← sextet? d
        return [UInt8.ofNat (a * 4 + b / 16), UInt8.ofNat (b % 16 * 16 + c / 4),
          UInt8.ofNat (c % 4 * 64 + d)]
  | a :: b :: c :: d :: r => do
    let a ← sextet? a
    let b ← sextet? b
    let c ← sextet? c
    let d ← sextet? d
    let rest ← ofBase64? r
    return UInt8.ofNat (a * 4 + b / 16) :: UInt8.ofNat (b % 16 * 16 + c / 4) ::
      UInt8.ofNat (c % 4 * 64 + d) :: rest
  | _ => none

/-- The lines of a text. Every line feed and every carriage return ends one. -/
def lines (text : Bytes) : List Bytes :=
  text.foldr (fun b acc =>
    if b.toNat = 10 ∨ b.toNat = 13 then [] :: acc
    else
      match acc with
      | [] => [[b]]
      | line :: rest => (b :: line) :: rest) []

/-- The bytes of a text in ASCII. -/
def ascii (text : String) : Bytes := text.toList.map fun c => UInt8.ofNat c.toNat

/-- A byte that is a blank at the end of a line. -/
def isBlankByte (b : UInt8) : Bool := b.toNat == 32

/-- Counts the dashes at the end of a line, blanks among them left out, and returns what stands
before the first of them. The line comes in reverse. -/
def trailer : Bytes → Nat → Bytes → Nat × Bytes
  | [], count, before => (count, before)
  | b :: r, count, before =>
    if b.toNat = 45 then trailer r (count + 1) r
    else if isBlankByte b then trailer r count before
    else (count, before)

/-- The label of a line that begins a section: nothing if it does not, a failure if it does not end
in five dashes. -/
def sectionLabel? (line : Bytes) : Option (Option Bytes) :=
  if (ascii "-----BEGIN ").isPrefixOf line then
    match trailer line.reverse 0 line.reverse with
    | (5, before) => some (some (before.reverse.drop 11))
    | _ => some none
  else none

/-- The line that ends a section. -/
def endMarker (label : Bytes) : Bytes := ascii "-----END " ++ label ++ ascii "-----"

/-- A line without the blanks at its end. -/
def trimLine (line : Bytes) : Bytes := (line.reverse.dropWhile isBlankByte).reverse

/-- The labels of which sections are kept. -/
def knownLabels : List Bytes :=
  ["CERTIFICATE", "RSA PRIVATE KEY", "PRIVATE KEY", "EC PRIVATE KEY", "X509 CRL"].map ascii

/-- The section that is being read, and the base64 gathered so far. -/
structure Reading where
  /-- The label of the open section. -/
  label : Option Bytes := none
  /-- The base64 gathered. -/
  gathered : Bytes := []

/-- Reads sections line by line: each with its label and its bytes. -/
def sectionsFrom (reading : Reading) : List Bytes → Option (List (Bytes × Bytes))
  | [] => if reading.label.isSome then none else some []
  | line :: rest =>
    match sectionLabel? line with
    | some none => none
    | some (some label) => sectionsFrom { reading with label := some label } rest
    | none =>
      match reading.label with
      | none => sectionsFrom reading rest
      | some label =>
        if (endMarker label).isPrefixOf line then
          (ofBase64? reading.gathered).bind fun bytes =>
            if knownLabels.contains label then
              (sectionsFrom {} rest).map ((label, bytes) :: ·)
            else sectionsFrom {} rest
        else sectionsFrom { reading with gathered := reading.gathered ++ trimLine line } rest

/-- The sections of a text with known labels, in order. -/
def sections? (text : Bytes) : Option (List (Bytes × Bytes)) := sectionsFrom {} (lines text)

/-- The bytes of the sections with one label. -/
def labelled? (label : String) (text : Bytes) : Option (List Bytes) :=
  (sections? text).map fun sections =>
    (sections.filter fun entry => entry.1 == ascii label).map Prod.snd

end Switchboard.Pem
