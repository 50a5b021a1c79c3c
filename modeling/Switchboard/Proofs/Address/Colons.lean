import Switchboard.Proofs.Address.RoundTrip

/-!
# Colons in a host

What stands behind the protocol is cut at its first colon, and all that follows has to be a port. So
an endpoint is read back from protocol, host and port just if its host holds no colon: where it
does, as an IPv6 address, the port is looked for in the middle of the host and not found there.

`SPEC_FULL.md`, section 4.1, has the port behind the last `:` instead.
-/

namespace Switchboard.Address

/-- A text that is not empty and holds neither blanks nor certain marks. -/
structure IsWord (marks : List Char) (s : String) : Prop where
  ne_empty : s ≠ ""
  avoids : Avoids marks s.toList
  not_blank : ∀ c ∈ s.toList, Text.isBlank c = false

/-- Whether a text is a word can be read off it. -/
instance (marks : List Char) (s : String) : Decidable (IsWord marks s) :=
  letI : Decidable (Avoids marks s.toList) := List.decidableBAll (· ∉ s.toList) marks
  letI : Decidable (∀ c ∈ s.toList, Text.isBlank c = false) :=
    List.decidableBAll (Text.isBlank · = false) s.toList
  decidable_of_iff (s ≠ "" ∧ Avoids marks s.toList ∧ ∀ c ∈ s.toList, Text.isBlank c = false)
    ⟨fun h => ⟨h.1, h.2.1, h.2.2⟩, fun h => ⟨h.ne_empty, h.avoids, h.not_blank⟩⟩

/-- A port behind a host is cut off, unless the host holds a colon. -/
theorem cutPort?_append (host : List Char) (port : UInt16) :
    cutPort? (host ++ ':' :: (toString port.toNat).toList) =
      if ':' ∈ host then none else some (host, port) := by
  split
  · next hcolon =>
    -- the cut is made at the first colon, and the last one is still in what stands behind it
    cases hcut : Text.cutAt ':' host with
    | none => exact absurd hcolon (Text.cutAt_eq_none_iff.mp hcut)
    | some cut =>
      obtain ⟨before, after⟩ := cut
      have hbefore := Text.not_mem_of_cutAt hcut
      have hread : Text.nat? 65536 (after ++ ':' :: (toString port.toNat).toList) = none :=
        Text.nat?_eq_none_of_mem (c := ':') (by simp) (by decide) (by decide) _
      rw [Text.eq_of_cutAt hcut, List.append_assoc, List.cons_append, cutPort?,
        Text.cutAt_append hbefore]
      split
      · next heq => simp at heq
      · next heq =>
        cases heq
        rw [hread, Option.map_none]
      · next heq => cases heq
  · next hcolon =>
    have hread := Text.nat?_toString port.toNat_lt
    obtain ⟨d, digits, hdigits⟩ :=
      List.exists_cons_of_ne_nil (Text.toList_toString_ne_nil port.toNat)
    rw [hdigits] at hread ⊢
    rw [cutPort?, Text.cutAt_append hcolon]
    simp [hread]

/-- What is read behind a protocol where no path, no parameters and no credentials follow. -/
theorem read_protocol_append {protocol rest : List Char} (hne : protocol ≠ [])
    (hprotocol : Avoids [':', '?'] protocol) (hrest : Avoids ['/', '?', '@'] rest) :
    read (protocol ++ [':', '/', '/'] ++ rest) =
      match cutPort? rest with
      | none => .error .invalidPort
      | some (host, port) => .ok {
          protocol := some (String.ofList protocol), port
          host := if host.isEmpty then none else some (String.ofList host) } := by
  simp only [avoids_cons] at hprotocol hrest
  obtain ⟨hcolon, hmark, -⟩ := hprotocol
  obtain ⟨hslash, hquery, hat, -⟩ := hrest
  have hempty : (protocol ++ [':', '/', '/'] ++ rest).isEmpty = false := by simp
  have hparameters : cutParameters (protocol ++ [':', '/', '/'] ++ rest) =
      (protocol ++ [':', '/', '/'] ++ rest, .empty) := by
    have hnone : Text.cutAt '?' (protocol ++ [':', '/', '/'] ++ rest) = none :=
      Text.cutAt_eq_none_iff.mpr (by simp [hmark, hquery])
    rw [cutParameters, hnone]
  have hcut : cutProtocol? (protocol ++ [':', '/', '/'] ++ rest) =
      some (some (String.ofList protocol), rest) := by
    obtain ⟨c, r, hchars⟩ := List.exists_cons_of_ne_nil hne
    rw [cutProtocol?, Text.cut_append_of_not_mem hcolon]
    simp [hchars]
  have hpath : cutPath rest = (rest, none) := by
    rw [cutPath, Text.cutAt_eq_none_iff.mpr hslash]
  have hcredentials : cutCredentials rest = (none, none, rest) := by
    rw [cutCredentials, Text.cutAt_eq_none_iff.mpr hat]
  cases hport : cutPort? rest <;>
    simp only [read, hempty, Bool.false_eq_true, if_false, hparameters, hcut, hpath, hcredentials,
      hport]

/-- The text of a protocol, a host and a port is read as just these if the host holds no colon, and
is refused for its port if it does. -/
theorem parse_protocol_host_port {protocol host : String}
    (hprotocol : IsWord [':', '/', '?', '@'] protocol) (hhost : IsWord ['/', '?', '@'] host)
    (port : UInt16) :
    let text := protocol ++ "://" ++ host ++ ":" ++ toString port.toNat
    parse text =
      if ':' ∈ host.toList then .error (.malformedAddress text "invalid port")
      else .ok { protocol := some protocol, host := some host, port } := by
  intro text
  have hchars : text.toList = protocol.toList ++ [':', '/', '/'] ++
      (host.toList ++ ':' :: (toString port.toNat).toList) := by
    simp [text]
  have hstart : Text.StartsPlain text.toList := by
    rw [hchars, List.append_assoc]
    refine Text.startsPlain_append (fun c hc => ?_) (fun hnil => ?_)
    · exact hprotocol.not_blank c (List.mem_of_mem_head? hc)
    · exact absurd (String.toList_eq_nil_iff.mp hnil) hprotocol.ne_empty
  have hend : Text.EndsPlain text.toList := by
    have hdigits : Text.EndsPlain (toString port.toNat).toList := fun c hc =>
      Text.isBlank_of_isDigit (Text.isDigit_of_mem_toString (List.mem_of_mem_getLast? hc))
    have hlead : text.toList = protocol.toList ++ [':', '/', '/'] ++ host.toList ++ [':'] ++
        (toString port.toNat).toList := by
      simp [hchars]
    rw [hlead]
    exact Text.endsPlain_append (fun hnil => absurd hnil (Text.toList_toString_ne_nil _)) hdigits
  have hrest : Avoids ['/', '?', '@'] (host.toList ++ ':' :: (toString port.toNat).toList) := by
    intro mark hmark
    have hplain : mark ≠ ':' ∧ mark.isDigit = false := by
      simp only [List.mem_cons, List.not_mem_nil, or_false] at hmark
      rcases hmark with rfl | rfl | rfl <;> decide
    simp only [List.mem_append, List.mem_cons, not_or]
    refine ⟨hhost.avoids mark hmark, hplain.1, fun hdigit => ?_⟩
    rw [Text.isDigit_of_mem_toString hdigit] at hplain
    cases hplain.2
  have hread := read_protocol_append (by simpa using hprotocol.ne_empty)
    (hprotocol.avoids.of_subset (by simp)) hrest
  rw [parse, Text.trim_of_plain hstart hend, hchars, hread, cutPort?_append]
  by_cases hcolon : ':' ∈ host.toList
  · simp only [hcolon, if_true]
    rfl
  · have hhost' : host.toList.isEmpty = false := by simpa using hhost.ne_empty
    simp only [hcolon, if_false, hhost', Bool.false_eq_true, String.ofList_toList]
    rfl

/-- A host without a colon is read with the port behind it, and an IPv6 address is not. -/
theorem parse_of_colons :
    (IsWord [':', '/', '?', '@'] "quic" ∧ IsWord ['/', '?', '@'] "h" ∧
      IsWord ['/', '?', '@'] "::1") ∧
    parse "quic://h:80" = .ok { protocol := some "quic", host := some "h", port := 80 } ∧
    parse "quic://::1:80" = .error (.malformedAddress "quic://::1:80" "invalid port") := by
  have hprotocol : IsWord [':', '/', '?', '@'] "quic" := by decide
  have hplain : IsWord ['/', '?', '@'] "h" := by decide
  have hcolons : IsWord ['/', '?', '@'] "::1" := by decide
  exact ⟨⟨hprotocol, hplain, hcolons⟩, parse_protocol_host_port hprotocol hplain 80,
    parse_protocol_host_port hprotocol hcolons 80⟩

end Switchboard.Address
