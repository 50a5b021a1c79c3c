import Switchboard.Quic.Pem

/-!
# Identities

A certificate chain with its private key: made on the spot for a list of names, or read from PEM.

Identities are those of `SPEC_FULL.md`, section 4.5.
-/

namespace Switchboard

/-- A certificate. -/
inductive Certificate where
  /-- Made on the spot for names. -/
  | selfSigned (names : List String)
  /-- Given as bytes. -/
  | der (bytes : Bytes)
deriving DecidableEq, Repr

/-- The key of an identity. -/
inductive PrivateKey where
  /-- Made on the spot. -/
  | generated
  /-- Given as bytes. -/
  | der (bytes : Bytes)
deriving DecidableEq, Repr

/-- A certificate chain and its key. -/
structure Identity where
  /-- The chain. -/
  certificates : List Certificate
  /-- The key. -/
  key : PrivateKey
deriving DecidableEq, Repr

namespace Identity

/-- What is reported for a name that a certificate cannot hold. -/
def nameMessage : String := "IA5 string must be ASCII"

/-- A fresh certificate for names in ASCII; there is none for other names. -/
def selfSigned? (names : List String) : Option Identity :=
  if names.all fun name => name.toList.all fun c => c.toNat < 128 then
    some ⟨[.selfSigned names], .generated⟩
  else none

/-- The identity of a PEM certificate chain and a PEM key. There must be a certificate and exactly
one key. -/
def ofPem (certificates key : Bytes) : Outcome Identity :=
  match Pem.labelled? "CERTIFICATE" certificates with
  | none => .error (.io .system)
  | some [] => .error (.tls "no certificate in PEM input")
  | some chain =>
    match Pem.labelled? "PRIVATE KEY" key with
    | none => .error (.io .system)
    | some [key] => .ok ⟨chain.map .der, .der key⟩
    | some keys =>
      .error (.tls ("expected exactly one private key, found " ++ toString keys.length))

end Identity

/-- The length of the content of a DER element and the bytes behind the length. -/
def derLength? : Bytes → Option (Nat × Bytes)
  | [] => none
  | b :: r =>
    let n := b.toNat
    if n < 128 then some (n, r)
    else if n = 128 ∨ r.length < n - 128 then none
    else some ((r.take (n - 128)).foldl (fun acc b => acc * 256 + b.toNat) 0, r.drop (n - 128))

/-- The elements of a DER sequence as tags with contents, read with a bound on their number. -/
def derElements? : Nat → Bytes → Option (List (UInt8 × Bytes))
  | _, [] => some []
  | 0, _ :: _ => none
  | bound + 1, tag :: r => do
    let (length, r) ← derLength? r
    if r.length < length then none
    else
      let rest ← derElements? bound (r.drop length)
      return (tag, r.take length) :: rest

/-- The elements inside a DER sequence that fills the bytes. -/
def derSequence? (bytes : Bytes) : Option (List (UInt8 × Bytes)) :=
  match derElements? 1 bytes with
  | some [(tag, content)] => if tag.toNat = 0x30 then derElements? content.length content else none
  | _ => none

/-- A certificate has three elements: two sequences and a bit string. -/
def Certificate.isReadable : Certificate → Bool
  | .selfSigned _ => true
  | .der bytes =>
    match derSequence? bytes with
    | some [(a, _), (b, _), (c, _)] => a.toNat == 0x30 && b.toNat == 0x30 && c.toNat == 0x03
    | _ => false

/-- A key has a version, an algorithm and an octet string, and perhaps more. -/
def PrivateKey.isUsable : PrivateKey → Bool
  | .generated => true
  | .der bytes =>
    match derSequence? bytes with
    | some ((a, _) :: (b, _) :: (c, _) :: _) =>
      a.toNat == 0x02 && b.toNat == 0x30 && c.toNat == 0x04
    | _ => false

end Switchboard
