/-!
# UTF-8

Characters as bytes and back. Reading is strict (`decode?`) or repairing (`decodeLossy`): the
latter puts one replacement character for every maximal run of bytes that starts a character and
does not finish it.
-/

namespace Switchboard.Text.Utf8

/-- The character that stands for text that cannot be read, U+FFFD. -/
def replacement : Char := Char.ofNat 0xFFFD

/-- The bytes of one character. -/
def encodeChar (c : Char) : List UInt8 :=
  let n := c.toNat
  if n < 0x80 then [UInt8.ofNat n]
  else if n < 0x800 then [UInt8.ofNat (0xC0 + n / 64), UInt8.ofNat (0x80 + n % 64)]
  else if n < 0x10000 then
    [UInt8.ofNat (0xE0 + n / 4096), UInt8.ofNat (0x80 + n / 64 % 64), UInt8.ofNat (0x80 + n % 64)]
  else
    [UInt8.ofNat (0xF0 + n / 262144), UInt8.ofNat (0x80 + n / 4096 % 64),
      UInt8.ofNat (0x80 + n / 64 % 64), UInt8.ofNat (0x80 + n % 64)]

/-- The bytes of a text. -/
def encode (s : List Char) : List UInt8 := s.flatMap encodeChar

/-- What a byte that starts a character of several bytes says about them: how many follow, the
bits it contributes, and the least and greatest byte that may come next. -/
structure Lead where
  /-- The number of bytes that follow. -/
  count : Nat
  /-- The high bits of the character. -/
  bits : Nat
  /-- The least next byte. -/
  low : Nat
  /-- The greatest next byte. -/
  high : Nat

/-- Reads a lead byte. Overlong forms, surrogates and values above U+10FFFF are cut off by the
range of the next byte. -/
def lead? (b : UInt8) : Option Lead :=
  let n := b.toNat
  if n < 0xC2 then none
  else if n < 0xE0 then some ⟨1, n - 0xC0, 0x80, 0xBF⟩
  else if n < 0xF0 then
    some ⟨2, n - 0xE0, if n = 0xE0 then 0xA0 else 0x80, if n = 0xED then 0x9F else 0xBF⟩
  else if n < 0xF5 then
    some ⟨3, n - 0xF0, if n = 0xF0 then 0x90 else 0x80, if n = 0xF4 then 0x8F else 0xBF⟩
  else none

/-- A byte that may stand behind the second place of a character. -/
def isTail (b : UInt8) : Bool := 0x80 ≤ b.toNat && b.toNat ≤ 0xBF

/-- Reads `count` tail bytes behind the bits already read. -/
def tailsFrom (bits : Nat) : Nat → List UInt8 → Option (Nat × List UInt8)
  | 0, r => some (bits, r)
  | _ + 1, [] => none
  | count + 1, b :: r =>
    if isTail b then tailsFrom (bits * 64 + (b.toNat - 0x80)) count r else none

/-- Reads one character and returns what follows it. -/
def readChar : List UInt8 → Option (Char × List UInt8)
  | [] => none
  | b :: r =>
    if b.toNat < 0x80 then some (Char.ofNat b.toNat, r)
    else
      match lead? b, r with
      | some lead, c :: r' =>
        if lead.low ≤ c.toNat ∧ c.toNat ≤ lead.high then
          (tailsFrom (lead.bits * 64 + (c.toNat - 0x80)) (lead.count - 1) r').map fun (n, rest) =>
            (Char.ofNat n, rest)
        else none
      | _, _ => none

/-- Drops at most `count` tail bytes. -/
def dropTails : Nat → List UInt8 → List UInt8
  | 0, r => r
  | _ + 1, [] => []
  | count + 1, b :: r => if isTail b then dropTails count r else b :: r

/-- What is left behind the maximal start of a character that is not finished. -/
def dropMalformed : List UInt8 → List UInt8
  | [] => []
  | b :: r =>
    match lead? b, r with
    | some lead, c :: r' =>
      if lead.low ≤ c.toNat ∧ c.toNat ≤ lead.high then dropTails (lead.count - 1) r' else r
    | _, _ => r

private theorem length_tailsFrom_le {bits count n : Nat} {bs rest : List UInt8}
    (h : tailsFrom bits count bs = some (n, rest)) : rest.length ≤ bs.length := by
  induction count generalizing bits bs with
  | zero => simp only [tailsFrom, Option.some.injEq, Prod.mk.injEq] at h; simp [h.2]
  | succ k ih =>
    cases bs with
    | nil => simp [tailsFrom] at h
    | cons b r =>
      simp only [tailsFrom] at h
      split at h
      · have := ih h; simp only [List.length_cons]; omega
      · simp at h

/-- Reading a character uses up at least one byte. -/
theorem length_lt_of_readChar {bs rest : List UInt8} {c : Char}
    (h : readChar bs = some (c, rest)) : rest.length < bs.length := by
  cases bs with
  | nil => simp [readChar] at h
  | cons b r =>
    simp only [readChar] at h
    split at h
    · simp only [Option.some.injEq, Prod.mk.injEq] at h; simp [h.2]
    · split at h
      · split at h
        · simp only [Option.map_eq_some_iff] at h
          obtain ⟨⟨n, t⟩, ht, heq⟩ := h
          simp only [Prod.mk.injEq] at heq
          have := length_tailsFrom_le ht
          simp only [List.length_cons, ← heq.2]
          omega
        · simp at h
      · simp at h

private theorem length_dropTails_le (count : Nat) (bs : List UInt8) :
    (dropTails count bs).length ≤ bs.length := by
  induction count generalizing bs with
  | zero => simp [dropTails]
  | succ k ih =>
    cases bs with
    | nil => simp [dropTails]
    | cons b r =>
      simp only [dropTails]
      split
      · have := ih r; simp only [List.length_cons]; omega
      · simp

/-- Dropping a malformed start uses up at least one byte. -/
theorem length_dropMalformed_lt (b : UInt8) (r : List UInt8) :
    (dropMalformed (b :: r)).length < (b :: r).length := by
  simp only [dropMalformed]
  split
  · split
    · rename_i lead _ r' _ _
      have := length_dropTails_le (lead.count - 1) r'
      simp only [List.length_cons]
      omega
    · simp
  · simp

/-- The text of a list of bytes, if every byte belongs to a character. -/
def decode? (bs : List UInt8) : Option (List Char) :=
  match bs with
  | [] => some []
  | b :: r =>
    match _h : readChar (b :: r) with
    | some (c, rest) => (decode? rest).map (c :: ·)
    | none => none
termination_by bs.length
decreasing_by exact length_lt_of_readChar _h

/-- The text of a list of bytes, with a replacement character where there is none. -/
def decodeLossy (bs : List UInt8) : List Char :=
  match bs with
  | [] => []
  | b :: r =>
    match _h : readChar (b :: r) with
    | some (c, rest) => c :: decodeLossy rest
    | none => replacement :: decodeLossy (dropMalformed (b :: r))
termination_by bs.length
decreasing_by
  · exact length_lt_of_readChar _h
  · exact length_dropMalformed_lt b r

end Switchboard.Text.Utf8
