import Switchboard.Frame
import Switchboard.Proofs.Text.Encodings

/-!
# Frames are read back

An envelope is read back from its frame as long as the distances in the frame keep within their
range, as they do in every frame of at most `2 ^ 31` bytes. The data before the root is read from
left to right: what a field takes begins where those before it ended.
-/

namespace Switchboard.Frame

/-- Whether the frame of an envelope is so short that the distances in it keep within their
range. -/
def Fits (e : Envelope) : Prop := (encode e).length ≤ 2 ^ 31

/-! ### Fields -/

/-- A number below `256 ^ width` is read back from its bytes. -/
theorem ofLittleEndian_littleEndian (width n : Nat) :
    ofLittleEndian (littleEndian width n) = n % 256 ^ width := by
  induction width generalizing n with
  | zero => simp [littleEndian, ofLittleEndian, Nat.mod_one]
  | succ k ih =>
    rw [littleEndian, ofLittleEndian, ih, Nat.pow_succ', Nat.mod_mul]
    simp

private theorem littleEndian_four (n : Nat) :
    littleEndian 4 n = [UInt8.ofNat n, UInt8.ofNat (n / 256), UInt8.ofNat (n / 256 / 256),
      UInt8.ofNat (n / 256 / 256 / 256)] := rfl

private theorem length_distance (position target : Nat) : (distance position target).length = 4 :=
  length_littleEndian 4 _

/-- A distance that keeps within its range is read back. -/
theorem signed_distance {position target : Nat} (h : target ≤ position)
    (hrange : position ≤ target + 2 ^ 31) :
    signed (distance position target) = (target : Int) - position := by
  unfold signed distance UInt32.size
  rw [ofLittleEndian_littleEndian]
  simp only
  split <;> omega

private theorem length_textField (position target : Nat) (bytes : Bytes) :
    (textField position target bytes).length = 8 := by
  unfold textField
  split
  · simp
    omega
  · simp [length_littleEndian, length_distance]

private theorem length_payloadField (position target : Nat) (payload : Option Bytes) :
    (payloadField position target payload).length = 12 := by
  cases payload <;> simp [payloadField, length_littleEndian, length_distance]

private theorem length_errorField (position target : Nat) (error : Option Bytes) :
    (errorField position target error).length = 12 := by
  cases error <;> simp [errorField, length_textField]

private theorem block_append {before bytes behind : Bytes} {free position : Nat}
    (h : free ≤ before.length) :
    block (before ++ bytes ++ behind) free position ((before.length : Int) - position)
      bytes.length = some (bytes, before.length + bytes.length) := by
  have hstart : (position : Int) + ((before.length : Int) - position) = before.length := by omega
  unfold block
  simp only [hstart, List.length_append]
  rw [if_pos ⟨by omega, by omega⟩, Int.toNat_natCast, List.append_assoc, List.drop_left,
    List.take_left]

private theorem readText_textField (before behind : Bytes) (text : String) {free position : Nat}
    (hfree : free ≤ before.length)
    (hend : before.length + (outside (Text.Utf8.encode text.toList)).length < position)
    (hrange : 7 < (Text.Utf8.encode text.toList).length → position ≤ before.length + 2 ^ 31) :
    ∃ free', readText (before ++ outside (Text.Utf8.encode text.toList) ++ behind)
        (textField position before.length (Text.Utf8.encode text.toList)) free position =
          some (text, free') ∧
      free' ≤ before.length + (outside (Text.Utf8.encode text.toList)).length := by
  have htext := Text.Utf8.decode?_encode text.toList
  generalize Text.Utf8.encode text.toList = bytes at *
  by_cases hshort : bytes.length ≤ 7
  · refine ⟨free, ?_, by omega⟩
    have hsize : ofLittleEndian [UInt8.ofNat bytes.length] = bytes.length := by
      simp [ofLittleEndian]
      omega
    have hfield : textField position before.length bytes =
        bytes ++ (List.replicate (7 - bytes.length) 0 ++ [UInt8.ofNat bytes.length]) := by
      simp [textField, hshort]
    have hlast : (textField position before.length bytes).drop 7 = [UInt8.ofNat bytes.length] := by
      rw [hfield, ← List.append_assoc]
      apply List.drop_left'
      simp
      omega
    have htake : (textField position before.length bytes).take bytes.length = bytes := by
      rw [hfield]
      exact List.take_left
    unfold readText
    simp only [hlast, hsize, htake, hshort, if_true, if_pos (show bytes.length < 128 by omega)]
    simp [htext]
  · refine ⟨before.length + bytes.length, ?_, by simp [outside, hshort]⟩
    have houtside : outside bytes = bytes := by simp [outside, hshort]
    have hposition := hrange (by omega)
    rw [houtside] at hend
    have hfield : textField position before.length bytes =
        littleEndian 4 bytes.length ++ distance position before.length := by
      simp [textField, hshort]
    have hdistance : (textField position before.length bytes).drop 4 =
        distance position before.length := by
      rw [hfield]
      exact List.drop_left' (length_littleEndian 4 _)
    have hcount : ofLittleEndian ((textField position before.length bytes).take 4) =
        bytes.length := by
      rw [hfield, List.take_left' (length_littleEndian 4 _), ofLittleEndian_littleEndian]
      omega
    have hlast : ¬ ofLittleEndian ((textField position before.length bytes).drop 7) < 128 := by
      have hdrop : (textField position before.length bytes).drop 7 =
          (distance position before.length).drop 3 := by
        rw [← hdistance, List.drop_drop]
      rw [hdrop, distance, littleEndian_four]
      simp [ofLittleEndian, UInt32.size]
      omega
    unfold readText
    simp only [if_neg hlast, hdistance, hcount, houtside,
      signed_distance (show before.length ≤ position by omega) hposition, block_append hfree]
    simp [htext]

/-! ### Tagged fields -/

private theorem readTagged_none {α : Type} (free : Nat) (read : Bytes → Option (α × Nat)) :
    readTagged (List.replicate 12 0) free read = some (none, free) := rfl

private theorem readTagged_some {α : Type} (field : Bytes) (free : Nat)
    (read : Bytes → Option (α × Nat)) :
    readTagged ([1, 0, 0, 0] ++ field) free read =
      (read field).map fun (value, free) => (some value, free) := rfl

private theorem readTagged_payloadField (before behind : Bytes) (payload : Option Bytes)
    {free position : Nat} (hfree : free ≤ before.length)
    (hend : before.length + (payload.getD []).length ≤ position + 4)
    (hrange : payload ≠ none → position + 4 ≤ before.length + 2 ^ 31) :
    ∃ free', readTagged (payloadField position before.length payload) free (fun field =>
        block (before ++ payload.getD [] ++ behind) free (position + 4) (signed (field.take 4))
          (ofLittleEndian (field.drop 4))) = some (payload, free') ∧
      free' ≤ before.length + (payload.getD []).length := by
  cases payload with
  | none => exact ⟨free, readTagged_none free _, by omega⟩
  | some bytes =>
    refine ⟨before.length + bytes.length, ?_, Nat.le_refl _⟩
    have hposition := hrange (by simp)
    change before.length + bytes.length ≤ position + 4 at hend
    rw [payloadField, List.append_assoc, readTagged_some,
      List.take_left' (length_distance _ _), List.drop_left' (length_distance _ _),
      signed_distance (by omega) hposition, ofLittleEndian_littleEndian,
      Nat.mod_eq_of_lt (by omega), Option.getD_some]
    rw [block_append hfree]
    rfl

private theorem readTagged_errorField (before behind : Bytes) (error : Option String)
    {free position : Nat} (hfree : free ≤ before.length)
    (hend : ∀ text ∈ error,
      before.length + (outside (Text.Utf8.encode text.toList)).length < position + 4)
    (hrange : ∀ text ∈ error, 7 < (Text.Utf8.encode text.toList).length →
      position + 4 ≤ before.length + 2 ^ 31) :
    ∃ free', readTagged (errorField position before.length
        (error.map fun text => Text.Utf8.encode text.toList)) free (fun field =>
        readText (before ++ ((error.map fun text => Text.Utf8.encode text.toList).map
          outside).getD [] ++ behind) field free (position + 4)) = some (error, free') := by
  cases error with
  | none => exact ⟨free, readTagged_none free _⟩
  | some text =>
    obtain ⟨free', hread, -⟩ := readText_textField before behind text hfree (hend text rfl)
      (hrange text rfl)
    refine ⟨free', ?_⟩
    simp only [Option.map_some, Option.getD_some, errorField, readTagged_some, hread]

/-! ### The whole frame -/

/-- The bytes of the command. -/
def commandBytes (e : Envelope) : Bytes := Text.Utf8.encode e.command.toList

/-- The bytes of the text of a failure. -/
def errorBytes (e : Envelope) : Option Bytes :=
  e.error.map fun text => Text.Utf8.encode text.toList

/-- What stands before the padding. -/
def dataOf (e : Envelope) : Bytes :=
  outside (commandBytes e) ++ e.payload.getD [] ++ ((errorBytes e).map outside).getD []

/-- Where the payload stands. -/
def payloadAt (e : Envelope) : Nat := (outside (commandBytes e)).length

/-- Where the text of a failure stands if it is long. -/
def errorAt (e : Envelope) : Nat := payloadAt e + (e.payload.getD []).length

/-- Where the root begins. -/
def rootAt (e : Envelope) : Nat := (dataOf e).length + (padding (dataOf e).length).length

/-- Whether every distance in the frame of an envelope keeps within its range: from the field of
the command to its bytes and from that of the error to its bytes, each only if they are too long
to stand in the root, and from the field of the payload to the payload, if there is one. -/
structure InReach (e : Envelope) : Prop where
  command : 7 < (commandBytes e).length → rootAt e + 8 ≤ 2 ^ 31
  payload : e.payload ≠ none → rootAt e + 20 ≤ payloadAt e + 2 ^ 31
  error : ∀ bytes ∈ errorBytes e, 7 < bytes.length → rootAt e + 32 ≤ errorAt e + 2 ^ 31

/-- What stands before the root. -/
private def bodyOf (e : Envelope) : Bytes := dataOf e ++ padding (dataOf e).length

/-- The root of a frame. -/
private def rootOf (e : Envelope) : Bytes :=
  littleEndian 8 e.id.toNat ++
    (textField (rootAt e + 8) 0 (commandBytes e) ++
      (payloadField (rootAt e + 16) (payloadAt e) e.payload ++
        (errorField (rootAt e + 28) (errorAt e) (errorBytes e) ++
          kindByte e.kind :: List.replicate 7 0)))

private theorem encode_eq (e : Envelope) : encode e = bodyOf e ++ rootOf e := by
  have hflat : encode e = dataOf e ++ padding (dataOf e).length ++ littleEndian 8 e.id.toNat ++
      textField (rootAt e + 8) 0 (commandBytes e) ++
      payloadField (rootAt e + 16) (payloadAt e) e.payload ++
      errorField (rootAt e + 28) (errorAt e) (errorBytes e) ++
      kindByte e.kind :: List.replicate 7 0 := rfl
  rw [hflat]
  simp only [bodyOf, rootOf, List.append_assoc]

private theorem length_bodyOf (e : Envelope) : (bodyOf e).length = rootAt e := by
  simp only [bodyOf, rootAt, List.length_append]

private theorem length_rootOf (e : Envelope) : (rootOf e).length = rootSize := by
  simp [rootOf, rootSize, length_littleEndian, length_textField, length_payloadField,
    length_errorField]

private theorem rootAt_mod (e : Envelope) : rootAt e % 8 = 0 := by
  simp [rootAt, padding]
  omega

private theorem slices_rootOf (e : Envelope) :
    (rootOf e).take 8 = littleEndian 8 e.id.toNat ∧
    ((rootOf e).drop 8).take 8 =
      textField (rootAt e + 8) 0 (commandBytes e) ∧
    ((rootOf e).drop 16).take 12 = payloadField (rootAt e + 16) (payloadAt e) e.payload ∧
    ((rootOf e).drop 28).take 12 = errorField (rootAt e + 28) (errorAt e) (errorBytes e) ∧
    (rootOf e).drop 40 = kindByte e.kind :: List.replicate 7 0 := by
  have hid := length_littleEndian 8 e.id.toNat
  have hcommand := length_textField (rootAt e + 8) 0 (commandBytes e)
  have hpayload := length_payloadField (rootAt e + 16) (payloadAt e) e.payload
  have herror := length_errorField (rootAt e + 28) (errorAt e) (errorBytes e)
  unfold rootOf
  refine ⟨List.take_left' hid, ?_, ?_, ?_, ?_⟩
  · rw [List.drop_left' hid]
    exact List.take_left' hcommand
  · rw [show (16 : Nat) = 8 + 8 from rfl, ← List.drop_drop, List.drop_left' hid,
      List.drop_left' hcommand]
    exact List.take_left' hpayload
  · rw [show (28 : Nat) = 8 + (8 + 12) from rfl, ← List.drop_drop, List.drop_left' hid,
      ← List.drop_drop, List.drop_left' hcommand, List.drop_left' hpayload]
    exact List.take_left' herror
  · rw [show (40 : Nat) = 8 + (8 + (12 + 12)) from rfl, ← List.drop_drop, List.drop_left' hid,
      ← List.drop_drop, List.drop_left' hcommand, ← List.drop_drop, List.drop_left' hpayload]
    exact List.drop_left' herror

private theorem readKind_kindByte (kind : FrameKind) :
    readKind (kindByte kind :: List.replicate 7 0) = some kind := by
  cases kind <;> rfl

private theorem errorAt_add_le (e : Envelope) :
    errorAt e + (((errorBytes e).map outside).getD []).length ≤ rootAt e := by
  unfold errorAt payloadAt rootAt dataOf
  simp only [List.length_append]
  omega

private theorem readText_command {e : Envelope} (h : InReach e) :
    ∃ free, readText (bodyOf e) (textField (rootAt e + 8) 0 (commandBytes e)) 0
      (rootAt e + 8) = some (e.command, free) ∧ free ≤ payloadAt e := by
  have hbody : bodyOf e = [] ++ outside (commandBytes e) ++
      (e.payload.getD [] ++ ((errorBytes e).map outside).getD [] ++ padding (dataOf e).length) := by
    simp [bodyOf, dataOf]
  have hend := errorAt_add_le e
  unfold errorAt payloadAt at hend
  rw [hbody]
  obtain ⟨free, hread, hfree⟩ := readText_textField []
    (e.payload.getD [] ++ ((errorBytes e).map outside).getD [] ++ padding (dataOf e).length)
    e.command (Nat.le_refl 0)
    (show 0 + (outside (commandBytes e)).length < rootAt e + 8 by omega)
    (fun hlong => show rootAt e + 8 ≤ 0 + 2 ^ 31 by have := h.command hlong; omega)
  exact ⟨free, hread, by simpa [payloadAt, commandBytes] using hfree⟩

private theorem readTagged_payload {e : Envelope} (h : InReach e) {free : Nat}
    (hfree : free ≤ payloadAt e) :
    ∃ free', readTagged (payloadField (rootAt e + 16) (payloadAt e) e.payload) free (fun field =>
        block (bodyOf e) free (rootAt e + 20) (signed (field.take 4))
          (ofLittleEndian (field.drop 4))) = some (e.payload, free') ∧ free' ≤ errorAt e := by
  have hbody : bodyOf e = outside (commandBytes e) ++ e.payload.getD [] ++
      (((errorBytes e).map outside).getD [] ++ padding (dataOf e).length) := by
    simp [bodyOf, dataOf]
  have hend := errorAt_add_le e
  unfold errorAt at hend
  rw [hbody]
  exact readTagged_payloadField (outside (commandBytes e)) _ e.payload hfree
    (show payloadAt e + (e.payload.getD []).length ≤ rootAt e + 16 + 4 by omega) h.payload

private theorem readTagged_error {e : Envelope} (h : InReach e) {free : Nat}
    (hfree : free ≤ errorAt e) :
    ∃ free', readTagged (errorField (rootAt e + 28) (errorAt e) (errorBytes e)) free (fun field =>
        readText (bodyOf e) field free (rootAt e + 32)) = some (e.error, free') := by
  have herrorAt : (outside (commandBytes e) ++ e.payload.getD []).length = errorAt e :=
    List.length_append
  have hend := errorAt_add_le e
  have hbytes : ∀ text ∈ e.error, errorBytes e = some (Text.Utf8.encode text.toList) := by
    intro text htext
    rw [errorBytes, htext]
    rfl
  rw [← herrorAt] at hfree ⊢
  apply readTagged_errorField _ (padding (dataOf e).length) e.error hfree
  · intro text htext
    simp only [hbytes text htext, Option.map_some, Option.getD_some] at hend
    omega
  · intro text htext hlong
    rw [herrorAt]
    exact h.error _ (hbytes text htext) hlong

private theorem readRoot_rootOf {e : Envelope} (h : InReach e) :
    readRoot (bodyOf e) (rootOf e) = some e := by
  obtain ⟨free₁, hcommand, hfree₁⟩ := readText_command h
  obtain ⟨free₂, hpayload, hfree₂⟩ := readTagged_payload h hfree₁
  obtain ⟨free₃, herror⟩ := readTagged_error h hfree₂
  obtain ⟨hid, hslice₁, hslice₂, hslice₃, hkind⟩ := slices_rootOf e
  have hnumber : UInt64.ofNat (ofLittleEndian (littleEndian 8 e.id.toNat)) = e.id := by
    have hlt : e.id.toNat < 256 ^ 8 := e.id.toNat_lt
    rw [ofLittleEndian_littleEndian, Nat.mod_eq_of_lt hlt, UInt64.ofNat_toNat]
  unfold readRoot
  simp only [length_bodyOf, hid, hslice₁, hslice₂, hslice₃, hkind]
  simp only [hcommand, hpayload, herror, hnumber, readKind_kindByte, Option.bind_eq_bind,
    Option.bind_some]
  rfl

private theorem length_encode (e : Envelope) : (encode e).length = rootAt e + rootSize := by
  rw [encode_eq, List.length_append, length_bodyOf, length_rootOf]

private theorem decode?_encode_eq (e : Envelope) :
    decode? (encode e) = readRoot (bodyOf e) (rootOf e) := by
  have hlength := length_encode e
  have hmod := rootAt_mod e
  have hvalid : ¬ ((encode e).length < rootSize ∨ (encode e).length % 8 ≠ 0) := by
    rw [hlength]
    unfold rootSize
    omega
  unfold decode?
  rw [if_neg hvalid, hlength, Nat.add_sub_cancel, encode_eq, ← length_bodyOf, List.take_left,
    List.drop_left]

/-- In a frame that is short enough all distances keep within their range. -/
theorem Fits.inReach {e : Envelope} (h : Fits e) : InReach e := by
  unfold Fits at h
  rw [length_encode, rootSize] at h
  constructor <;> intros <;> omega

/-- An envelope whose frame is short enough is read back. -/
theorem decode?_encode {e : Envelope} (h : Fits e) : decode? (encode e) = some e := by
  rw [decode?_encode_eq]
  exact readRoot_rootOf h.inReach

/-- Every envelope whose distances keep within their range is read back from its frame. -/
theorem decode?_encode_of_inReach (e : Envelope) (h : InReach e) :
    decode? (encode e) = some e := by
  rw [decode?_encode_eq]
  exact readRoot_rootOf h

/-- A command that does not stand in the root, an empty payload, and a text of a failure that just
fits into the root. -/
theorem decode?_encode_of_long_command :
    let e : Envelope := ⟨18446744073709551615, .response, "rpc@La/B;echo;", some [], some "no seat"⟩
    InReach e ∧ decode? (encode e) = some e := by
  intro e
  have hfits : Fits e := by
    unfold Fits
    decide +kernel
  exact ⟨hfits.inReach, decode?_encode_of_inReach e hfits.inReach⟩

end Switchboard.Frame
