import Switchboard.Proofs.Address.Cuts
import Switchboard.Proofs.Address.Equality
import Switchboard.Proofs.Text.Encodings

/-!
# Addresses are read back

The parts of an address that was read keep clear of the marks at which they are cut, so that the
text of the address is cut at the same places again. What gets lost is a port without a host, which
is not written, and blanks at the very end of the text, which are not read.
-/

namespace Switchboard.Address

/-! ### Reading what was written -/

/-- The address that is read from the text of one: a port without a host is not written. -/
def withoutLostPort (a : Address) : Address :=
  { a with port := if a.host = none then 0 else a.port }

/-- A port with the colon before it; nothing stands for zero. -/
def portText (port : UInt16) : List Char :=
  if port = 0 then [] else ':' :: (toString port.toNat).toList

private theorem toList_hostText (host : String) (port : UInt16) :
    (hostText (some host) port).toList = host.toList ++ portText port := by
  by_cases hport : port = 0 <;> simp [hostText, portText, hport]

/-- Only digits stand behind the colon. -/
theorem mem_portText {c : Char} {port : UInt16} (h : c ∈ portText port) :
    c = ':' ∨ c.isDigit = true := by
  unfold portText at h
  split at h
  · cases h
  · rcases List.mem_cons.mp h with h | h
    · exact .inl h
    · exact .inr (Text.isDigit_of_mem_toString h)

/-- A port ends in a digit. -/
theorem isDigit_of_getLast?_portText {c : Char} {port : UInt16}
    (h : (portText port).getLast? = some c) : c.isDigit = true := by
  unfold portText at h
  split at h
  · cases h
  · have hne := Text.toList_toString_ne_nil port.toNat
    rw [List.getLast?_cons, List.getLast?_eq_some_getLast hne] at h
    cases h
    exact Text.isDigit_of_mem_toString (List.getLast_mem hne)

/-- A mark that is neither a colon nor a digit stands in host and port only if it stands in the
host. -/
theorem not_mem_hostText {mark : Char} {host : Option String} (port : UInt16)
    (hhost : ∀ h, host = some h → mark ∉ h.toList) (hcolon : mark ≠ ':')
    (hdigit : mark.isDigit = false) : mark ∉ (hostText host port).toList := by
  cases host with
  | none => simp [hostText]
  | some host =>
    rw [toList_hostText, List.mem_append]
    rintro (hm | hm)
    · exact hhost host rfl hm
    · rcases mem_portText hm with heq | hd
      · exact hcolon heq
      · rw [hdigit] at hd
        cases hd

private theorem mem_credentialsText {c : Char} {u : String} {password : Option String}
    (h : c ∈ (credentialsText (some u) password).toList) :
    c ∈ u.toList ∨ (∃ w, password = some w ∧ c ∈ w.toList) ∨ c = ':' ∨ c = '@' := by
  cases password with
  | none =>
    simp only [credentialsText, String.toList_append, List.mem_append] at h
    rcases h with h | h
    · exact .inl h
    · exact .inr (.inr (.inr (by simpa using h)))
  | some w =>
    simp only [credentialsText, String.toList_append, List.mem_append] at h
    rcases h with ((h | h) | h) | h
    · exact .inl h
    · exact .inr (.inr (.inl (by simpa using h)))
    · exact .inr (.inl ⟨w, rfl, h⟩)
    · exact .inr (.inr (.inr (by simpa using h)))

/-- Credentials end in their mark. -/
theorem getLast?_credentialsText (u : String) (password : Option String) :
    (credentialsText (some u) password).toList.getLast? = some '@' := by
  cases password <;> simp [credentialsText, List.getLast?_cons]

private theorem endsPlain_protocolText (protocol : Option String) :
    Text.EndsPlain (protocolText protocol) := by
  cases protocol with
  | none => intro c hc; cases hc
  | some p =>
    apply Text.endsPlain_append (by simp)
    intro c hc
    cases hc
    decide

private theorem endsPlain_credentialsText (username password : Option String) :
    Text.EndsPlain (credentialsText username password).toList := by
  intro c hc
  cases username with
  | none => simp [credentialsText] at hc
  | some u =>
    rw [getLast?_credentialsText] at hc
    cases hc
    decide

namespace Plain

variable {a : Address}

/-- Host and port are cut apart again. -/
theorem cutPort?_hostText (h : Plain a) : cutPort? (hostText a.host a.port).toList =
    some ((a.host.getD "").toList, a.withoutLostPort.port) := by
  cases hhost : a.host with
  | none => simp [hostText, cutPort?, Text.cutAt, withoutLostPort, hhost]
  | some host =>
    have hmarks := (h.host host hhost).2.1
    simp only [avoids_cons] at hmarks
    have hcolon := hmarks.2.2.1
    rw [toList_hostText, portText]
    split
    · next hport => simp [cutPort?, Text.cutAt_eq_none_iff.mpr hcolon, withoutLostPort, hport]
    · have hread : Text.nat? 65536 (toString a.port.toNat).toList = some a.port.toNat :=
        Text.nat?_toString a.port.toNat_lt
      rw [cutPort?, Text.cutAt_append hcolon]
      cases hdigits : (toString a.port.toNat).toList with
      | nil => exact absurd hdigits (Text.toList_toString_ne_nil _)
      | cons d r =>
        rw [hdigits] at hread
        simp [hread, withoutLostPort, hhost]

/-- Credentials and endpoint are cut apart again. -/
theorem cutCredentials_authorityText (h : Plain a) : cutCredentials (authorityText a) =
    (a.username, a.password, (hostText a.host a.port).toList) := by
  unfold authorityText
  cases hu : a.username with
  | none =>
    have hw : a.password = none := by
      cases hw : a.password with
      | none => rfl
      | some w => exact absurd hu (h.password w hw).1
    have hat : '@' ∉ (hostText a.host a.port).toList :=
      not_mem_hostText _ (fun host hh => (h.host host hh).2.2 hu) (by decide) (by decide)
    simp [credentialsText, cutCredentials, Text.cutAt_eq_none_iff.mpr hat, hw]
  | some u =>
    have hmarks := h.username u hu
    simp only [avoids_cons] at hmarks
    obtain ⟨-, -, hat, hcolon, -⟩ := hmarks
    cases hw : a.password with
    | none =>
      have htext : (credentialsText (some u) none).toList = u.toList ++ ['@'] := by
        simp [credentialsText]
      rw [htext, List.append_assoc, List.singleton_append, cutCredentials, Text.cutAt_append hat]
      simp [Text.cutAt_eq_none_iff.mpr hcolon]
    | some w =>
      have hmarks := (h.password w hw).2
      simp only [avoids_cons] at hmarks
      have htext : (credentialsText (some u) (some w)).toList =
          (u.toList ++ ':' :: w.toList) ++ ['@'] := by
        simp [credentialsText]
      have hat' : '@' ∉ u.toList ++ ':' :: w.toList := by
        simp [hat, hmarks.2.2.1]
      rw [htext, List.append_assoc, List.singleton_append, cutCredentials, Text.cutAt_append hat']
      simp [Text.cutAt_append hcolon]

/-- Neither the marks of paths nor those of parameters stand in an authority. -/
theorem avoids_authorityText (h : Plain a) : Avoids ['/', '?'] (authorityText a) := by
  intro mark hmark
  have hne : mark ≠ ':' ∧ mark ≠ '@' ∧ mark.isDigit = false := by
    rcases List.mem_cons.mp hmark with rfl | hmark
    · decide
    · rw [List.mem_singleton.mp hmark]
      decide
  rw [authorityText, List.mem_append, not_or]
  constructor
  · cases hu : a.username with
    | none => simp [credentialsText]
    | some u =>
      intro hm
      rcases mem_credentialsText hm with hm | ⟨w, hw, hm⟩ | heq | heq
      · exact (h.username u hu).of_subset (by simp) mark hmark hm
      · exact (h.password w hw).2.of_subset (by simp) mark hmark hm
      · exact hne.1 heq
      · exact hne.2.1 heq
  · apply not_mem_hostText _ _ hne.1 hne.2.2
    intro host hh
    exact (h.host host hh).2.1.of_subset (by simp) mark hmark

/-- Authority and path are cut apart again. -/
theorem cutPath_authorityText (h : Plain a) :
    cutPath (authorityText a ++ pathText a.path) = (authorityText a, a.path) := by
  have hslash : '/' ∉ authorityText a := h.avoids_authorityText '/' (by simp)
  unfold cutPath
  cases a.path with
  | none => simp [pathText, Text.cutAt_eq_none_iff.mpr hslash]
  | some p => simp [pathText, Text.cutAt_append hslash]

/-- No colon ends an authority. -/
theorem getLast?_authorityText (h : Plain a) : (authorityText a).getLast? ≠ some ':' := by
  unfold authorityText
  cases hh : a.host with
  | none =>
    cases a.username with
    | none => simp [hostText, credentialsText]
    | some u => simp [hostText, getLast?_credentialsText]
  | some host =>
    obtain ⟨hne, hmarks, -⟩ := h.host host hh
    simp only [avoids_cons] at hmarks
    rw [toList_hostText]
    intro hlast
    cases hport : (portText a.port).getLast? with
    | some c =>
      rw [← List.append_assoc, List.getLast?_append, hport] at hlast
      cases hlast
      have hdigit := isDigit_of_getLast?_portText hport
      revert hdigit
      decide
    | none =>
      rw [List.getLast?_eq_none_iff.mp hport, List.append_nil, List.getLast?_append] at hlast
      cases hlast' : host.toList.getLast? with
      | none => exact hne (by simpa using hlast')
      | some c =>
        rw [hlast'] at hlast
        cases hlast
        exact hmarks.2.2.1 (List.mem_of_getLast? hlast')

/-- The protocol is cut off again. -/
theorem cutProtocol?_protocolText (h : Plain a) :
    cutProtocol? (protocolText a.protocol ++ (authorityText a ++ pathText a.path)) =
      some (a.protocol, authorityText a ++ pathText a.path) := by
  cases hp : a.protocol with
  | some p =>
    obtain ⟨hne, -, hcut⟩ := h.protocol p hp
    rw [protocolText, cutProtocol?, hcut]
    cases hchars : p.toList with
    | nil => exact absurd (String.toList_eq_nil_iff.mp hchars) hne
    | cons c r => simp [← hchars]
  | none =>
    have hpath : Text.cut [':', '/'] (pathText a.path) = none := by
      cases hpath : a.path with
      | none => rfl
      | some p => exact (h.path p hpath).2 hp
    have hpair : Text.cut [':', '/'] (authorityText a ++ pathText a.path) = none :=
      Text.cut_pair_append (h.avoids_authorityText '/' (by simp)) h.getLast?_authorityText hpath
    have hmarker := Text.cut_append_eq_none (by simp) hpair ['/']
    rw [protocolText, List.nil_append, cutProtocol?]
    simp only [List.cons_append, List.nil_append] at hmarker
    simp [hmarker, hpair]

/-- The parameters are cut off again. -/
theorem cutParameters_text (h : Plain a) : cutParameters a.text.toList =
    (protocolText a.protocol ++ (authorityText a ++ pathText a.path), a.parameters) := by
  have hmark : '?' ∉ protocolText a.protocol ++ (authorityText a ++ pathText a.path) := by
    have hprotocol : '?' ∉ protocolText a.protocol := by
      cases hp : a.protocol with
      | none => simp [protocolText]
      | some p => simp [protocolText, (h.protocol p hp).2.1]
    have hpath : '?' ∉ pathText a.path := by
      cases hp : a.path with
      | none => simp [pathText]
      | some p => simp [pathText, (h.path p hp).1]
    simp [hprotocol, hpath, h.avoids_authorityText '?' (by simp)]
  rw [toList_text]
  by_cases hne : a.parameters.entries = []
  · rw [hne, parametersText, String.toList_empty, List.append_nil, cutParameters,
      Text.cutAt_eq_none_iff.mpr hmark, Parameters.eq_empty hne]
  · have hquery : "?".toList = ['?'] := rfl
    rw [toList_parametersText "?" hne, hquery, List.singleton_append, cutParameters,
      Text.cutAt_append hmark]
    simp only [readParameters_join hne h.parameters]

/-- An address is read from its text, but for a port that was not written. -/
theorem read_text (h : Plain a) (hne : a.text ≠ "") :
    read a.text.toList = .ok a.withoutLostPort := by
  have hempty : a.text.toList.isEmpty = false := by simpa using hne
  have hhost : (if (a.host.getD "").toList.isEmpty then none
      else some (String.ofList (a.host.getD "").toList)) = a.host := by
    cases hh : a.host with
    | none => rfl
    | some host => simp [(h.host host hh).1]
  simp only [read, hempty, Bool.false_eq_true, if_false, h.cutParameters_text,
    h.cutProtocol?_protocolText, h.cutPath_authorityText, h.cutCredentials_authorityText,
    h.cutPort?_hostText, hhost]
  rw [withoutLostPort, ← h.attachments]

/-- A blank ends the text of an address only as the end of its path, or of its host if nothing
follows that. -/
theorem last_of_not_endsPlain (h : Plain a) (hend : ¬ Text.EndsPlain a.text.toList) :
    a.parameters.entries = [] ∧
      ((∃ p, a.path = some p ∧ ¬ Text.EndsPlain p.toList) ∨
        a.path = none ∧ ∃ host, a.host = some host ∧ a.port = 0 ∧
          ¬ Text.EndsPlain host.toList) := by
  rw [toList_text] at hend
  have hnone : a.parameters.entries = [] := by
    apply Classical.byContradiction
    intro hne
    apply hend
    apply Text.endsPlain_append
    · rw [toList_parametersText "?" hne]
      simp
    · apply endsPlain_parametersText _ h.parameters
      intro c hc
      cases hc
      decide
  rw [hnone, parametersText, String.toList_empty, List.append_nil] at hend
  refine ⟨hnone, ?_⟩
  cases hpath : a.path with
  | some p =>
    refine .inl ⟨p, rfl, fun hp => hend ?_⟩
    have htext : protocolText a.protocol ++ (authorityText a ++ pathText a.path) =
        (protocolText a.protocol ++ authorityText a ++ ['/']) ++ p.toList := by
      simp [hpath, pathText]
    rw [htext]
    refine Text.endsPlain_append (fun _ => Text.endsPlain_append (by simp) ?_) hp
    intro c hc
    cases hc
    decide
  | none =>
    rw [hpath, pathText, List.append_nil, authorityText, ← List.append_assoc] at hend
    have hlead : Text.EndsPlain
        (protocolText a.protocol ++ (credentialsText a.username a.password).toList) :=
      Text.endsPlain_append (fun _ => endsPlain_protocolText _) (endsPlain_credentialsText _ _)
    refine .inr ⟨rfl, ?_⟩
    cases hhost : a.host with
    | none =>
      refine absurd ?_ hend
      simpa [hhost, hostText] using hlead
    | some host =>
      rw [hhost, toList_hostText] at hend
      by_cases hport : a.port = 0
      · refine ⟨host, rfl, hport, fun hplain => hend ?_⟩
        apply Text.endsPlain_append fun _ => hlead
        simpa [portText, hport] using hplain
      · refine absurd ?_ hend
        apply Text.endsPlain_append fun _ => hlead
        apply Text.endsPlain_append
        · simp [portText, hport]
        · exact fun c hc => Text.isBlank_of_isDigit (isDigit_of_getLast?_portText hc)

/-- A path may be cut short. -/
theorem shortenPath (h : Plain a) {p : String} (hp : a.path = some p) {s : List Char}
    (hinit : s <+: p.toList) : Plain { a with path := some (String.ofList s) } where
  protocol := h.protocol
  username := h.username
  password := h.password
  host := h.host
  path := by
    rintro _ ⟨⟩
    rw [String.toList_ofList]
    refine ⟨fun hm => (h.path p hp).1 (hinit.subset hm), fun hnone => ?_⟩
    exact Text.cut_eq_none_of_isPrefix ((h.path p hp).2 hnone)
      (List.cons_prefix_cons.mpr ⟨rfl, hinit⟩)
  parameters := h.parameters
  attachments := h.attachments

/-- A host may be cut short, until none is left. -/
theorem shortenHost (h : Plain a) {host : String} (hhost : a.host = some host) {s : List Char}
    (hinit : s <+: host.toList) :
    Plain { a with host := if s.isEmpty then none else some (String.ofList s) } where
  protocol := h.protocol
  username := h.username
  password := h.password
  host := by
    intro short hshort
    obtain ⟨-, hmarks, hat⟩ := h.host host hhost
    simp only at hshort
    split at hshort
    · cases hshort
    · next hne =>
      cases hshort
      rw [String.toList_ofList]
      exact ⟨by simpa using hne, hmarks.mono hinit.subset,
        fun hu hm => hat hu (hinit.subset hm)⟩
  path := h.path
  parameters := h.parameters
  attachments := h.attachments

end Plain

/-- A text is read after white space was cut off at either end. -/
theorem parse_eq_ok_iff {t : String} {a : Address} :
    parse t = .ok a ↔ read (Text.trim t.toList) = .ok a := by
  unfold parse
  cases read (Text.trim t.toList) with
  | ok b =>
    constructor
    · rintro ⟨⟩
      rfl
    · rintro ⟨⟩
      rfl
  | error reason =>
    constructor
    · rintro ⟨⟩
    · rintro ⟨⟩

/-- The text of an address that was read begins with no blank. -/
theorem startsPlain_text {s : List Char} (hs : Text.StartsPlain s) {a : Address}
    (h : read s = .ok a) : Text.StartsPlain a.text.toList := by
  obtain ⟨bare, rest, authority, endpoint, host, hparameters, hprotocol, hpath, hcredentials, hport,
    hhost, -⟩ := read_cases h
  have hbare := Text.startsPlain_of_isPrefix hs (cutParameters_cases hparameters).2.1
  obtain ⟨hrest, -⟩ := cutPath_cases hpath
  obtain ⟨hauthority, -⟩ := cutCredentials_cases hcredentials
  obtain ⟨hendpoint, -⟩ := cutPort?_cases hport
  have hmark : ∀ (mark : Char) (r : List Char), Text.isBlank mark = false →
      Text.StartsPlain (mark :: r) := by
    rintro mark r hmark c ⟨⟩
    exact hmark
  rw [toList_text, List.append_assoc]
  rcases cutProtocol?_cases hprotocol with ⟨p, hp, hne, hinit, -⟩ | ⟨hnone, hsame, -⟩
  · rw [hp, protocolText, String.toList_ofList, List.append_assoc]
    exact Text.startsPlain_append (Text.startsPlain_of_isPrefix hbare hinit) (absurd · hne)
  · rw [hnone, protocolText, List.nil_append]
    rw [← hsame, hrest] at hbare
    have hstart := Text.startsPlain_of_isPrefix hbare (List.prefix_append _ _)
    rw [hauthority] at hstart
    have hhostText : (credentialsText a.username a.password).toList = [] →
        Text.StartsPlain (hostText a.host a.port).toList := by
      intro hempty
      rw [hempty, List.nil_append] at hstart
      rw [hhost]
      split
      · rintro c ⟨⟩
      · rw [toList_hostText, String.toList_ofList, portText]
        apply Text.startsPlain_append (Text.startsPlain_of_isPrefix hstart hendpoint)
        intro _
        split
        · rintro c ⟨⟩
        · exact hmark ':' _ (by decide)
    have hauthorityText : Text.StartsPlain (authorityText a) :=
      Text.startsPlain_append (Text.startsPlain_of_isPrefix hstart (List.prefix_append _ _))
        hhostText
    apply Text.startsPlain_append
    · apply Text.startsPlain_append hauthorityText
      intro _
      cases a.path with
      | none => rintro c ⟨⟩
      | some p => exact hmark '/' _ (by decide)
    · intro _
      by_cases hne : a.parameters.entries = []
      · rw [hne]
        rintro c ⟨⟩
      · rw [toList_parametersText "?" hne]
        exact hmark '?' _ (by decide)

/-- The text of an address without the blanks at its end is read as the address of which it is the
text. -/
theorem Plain.eq_of_parse {a b short : Address} (h : Plain short)
    (htext : Text.trim a.text.toList = short.text.toList) (hb : parse a.text = .ok b) :
    b = short.withoutLostPort := by
  rw [parse_eq_ok_iff, htext] at hb
  have hne : short.text ≠ "" := by
    intro hempty
    rw [hempty] at hb
    cases hb
  rw [h.read_text hne] at hb
  exact (Except.ok.inj hb).symm

/-- Blanks at the end of a text are missing from the path that is read there. -/
theorem path_ne_of_parse {a b : Address} (h : Plain a) (hstart : Text.StartsPlain a.text.toList)
    (hnone : a.parameters.entries = []) {p : String} (hp : a.path = some p)
    (hblank : ¬ Text.EndsPlain p.toList) (hb : parse a.text = .ok b) : b.path ≠ a.path := by
  let left := Text.trimEndBy Text.isBlank p.toList
  let short := { a with path := some (String.ofList left) }
  let lead := protocolText a.protocol ++ authorityText a ++ ['/']
  have hlead : Text.EndsPlain lead := by
    apply Text.endsPlain_append (by simp)
    rintro c ⟨⟩
    decide
  have htext : a.text.toList = lead ++ p.toList := by
    simp [toList_text, lead, hp, pathText, hnone, parametersText]
  have hshort : short.text.toList = lead ++ left := by
    simp [toList_text, short, lead, authorityText, pathText, hnone, parametersText]
  have hplain : Plain short := h.shortenPath hp (Text.trimEndBy_isPrefix _ _)
  rw [hplain.eq_of_parse _ hb, hp]
  · intro heq
    apply hblank
    have hleft : String.ofList left = p := Option.some.inj heq
    rw [← hleft, String.toList_ofList]
    exact Text.endsPlain_trimEndBy _
  · rw [Text.trim_of_startsPlain hstart, htext, hshort, Text.trimEndBy_append hlead]

/-- Blanks at the end of a text are missing from the host that is read there. -/
theorem host_ne_of_parse {a b : Address} (h : Plain a) (hstart : Text.StartsPlain a.text.toList)
    (hnone : a.parameters.entries = []) (hpath : a.path = none) {host : String}
    (hhost : a.host = some host) (hport : a.port = 0) (hblank : ¬ Text.EndsPlain host.toList)
    (hb : parse a.text = .ok b) : b.host ≠ a.host := by
  let left := Text.trimEndBy Text.isBlank host.toList
  let short := { a with host := if left.isEmpty then none else some (String.ofList left) }
  let lead := protocolText a.protocol ++ (credentialsText a.username a.password).toList
  have hlead : Text.EndsPlain lead :=
    Text.endsPlain_append (fun _ => endsPlain_protocolText _) (endsPlain_credentialsText _ _)
  have htext : a.text.toList = lead ++ host.toList := by
    simp [toList_text, lead, authorityText, hhost, hport, hpath, hostText, pathText, hnone,
      parametersText]
  have hshort : short.text.toList = lead ++ left := by
    have hleft : (hostText (if left.isEmpty then none else some (String.ofList left)) 0).toList =
        left := by
      cases left <;> simp [hostText]
    simpa [toList_text, short, lead, authorityText, hport, hpath, pathText, hnone,
      parametersText] using hleft
  have hplain : Plain short := h.shortenHost hhost (Text.trimEndBy_isPrefix _ _)
  rw [hplain.eq_of_parse _ hb, hhost]
  · intro heq
    apply hblank
    change (if left.isEmpty then none else some (String.ofList left)) = some host at heq
    split at heq
    · cases heq
    · rw [← Option.some.inj heq, String.toList_ofList]
      exact Text.endsPlain_trimEndBy _
  · rw [Text.trim_of_startsPlain hstart, htext, hshort, Text.trimEndBy_append hlead]

/-- A text that ends in a blank is not read as the address that it was written for. -/
theorem beq_eq_false_of_not_endsPlain {a b : Address} (h : Plain a)
    (hstart : Text.StartsPlain a.text.toList) (hend : ¬ Text.EndsPlain a.text.toList)
    (hb : parse a.text = .ok b) : (b == a) = false := by
  rw [← Bool.not_eq_true, beq_iff]
  rintro ⟨-, -, -, -, hsamehost, hsamepath, -⟩
  rcases h.last_of_not_endsPlain hend with
    ⟨hnone, ⟨p, hp, hblank⟩ | ⟨hpath, host, hhost, hport, hblank⟩⟩
  · exact path_ne_of_parse h hstart hnone hp hblank hb hsamepath
  · exact host_ne_of_parse h hstart hnone hpath hhost hport hblank hb hsamehost

/-- An address is read back from its text if and only if it has a host or no port, its text is not
empty, and no blank ends its text. -/
theorem parse_text_iff {t : String} {a : Address} (h : parse t = .ok a) :
    (∃ b, parse a.text = .ok b ∧ (b == a) = true) ↔
      (a.host.isSome ∨ a.port = 0) ∧ a.text ≠ "" ∧ Text.EndsPlain a.text.toList := by
  have hread := parse_eq_ok_iff.mp h
  have hplain := plain_of_read hread
  have hstart := startsPlain_text (Text.startsPlain_trim _) hread
  constructor
  · rintro ⟨b, hb, hsame⟩
    have hend : Text.EndsPlain a.text.toList := by
      apply Classical.byContradiction
      intro hend
      rw [beq_eq_false_of_not_endsPlain hplain hstart hend hb] at hsame
      cases hsame
    rw [parse_eq_ok_iff, Text.trim_of_plain hstart hend] at hb
    have hne : a.text ≠ "" := by
      intro hempty
      rw [hempty] at hb
      cases hb
    rw [hplain.read_text hne] at hb
    cases hb
    refine ⟨?_, hne, hend⟩
    have hport := (beq_iff.mp hsame).1
    rw [withoutLostPort] at hport
    cases hhost : a.host with
    | some host => exact .inl rfl
    | none => exact .inr (by simpa [hhost] using hport.symm)
  · rintro ⟨hport, hne, hend⟩
    have hkept : a.withoutLostPort = a := by
      rcases hport with hhost | hport
      · have hhost' : a.host ≠ none := Option.isSome_iff_ne_none.mp hhost
        rw [withoutLostPort, if_neg hhost']
      · rw [withoutLostPort, hport, ite_self, ← hport]
    refine ⟨a, ?_, beq_self a⟩
    rw [parse_eq_ok_iff, Text.trim_of_plain hstart hend, hplain.read_text hne, hkept]

/-- An address full of marks is read back, and one whose host ends in a blank is not. -/
theorem parse_text_full_of_marks :
    let a : Address := {
      protocol := some "a:/b", username := some "u", password := some "", host := some "h@i"
      port := 80, path := some "/p", parameters := .ofList [("k", "2"), ("x", "x")] }
    let c : Address := { host := some "h " }
    (parse " a:/b://u:@h@i:+080//p?k=1&x&k=2 " = .ok a ∧
      ∃ b, parse a.text = .ok b ∧ (b == a) = true) ∧
    (parse "h :" = .ok c ∧ ¬ ∃ b, parse c.text = .ok b ∧ (b == c) = true) := by
  intro a c
  have ha : parse " a:/b://u:@h@i:+080//p?k=1&x&k=2 " = .ok a := rfl
  have hc : parse "h :" = .ok c := rfl
  refine ⟨⟨ha, (parse_text_iff ha).mpr ⟨.inl rfl, by decide +kernel, ?_⟩⟩, hc, fun h => ?_⟩
  · have hlast : a.text.toList.getLast? = some 'x' := by decide +kernel
    intro d hd
    rw [hlast] at hd
    cases hd
    decide
  · have hlast : c.text.toList.getLast? = some ' ' := by decide +kernel
    have hblank := ((parse_text_iff hc).mp h).2.2 ' ' hlast
    revert hblank
    decide

end Switchboard.Address
