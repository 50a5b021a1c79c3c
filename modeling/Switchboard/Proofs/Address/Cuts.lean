import Switchboard.Proofs.Address.Parameters

/-!
# What is cut from the text of an address

An address is read by cutting off its parts one after the other. Each part keeps clear of the marks
at which the parts are cut.
-/

namespace Switchboard.Address

/-- None of some marks stands in a text. -/
def Avoids (marks s : List Char) : Prop := ∀ mark, mark ∈ marks → mark ∉ s

/-- One mark is avoided at a time. -/
theorem avoids_cons {mark : Char} {marks s : List Char} :
    Avoids (mark :: marks) s ↔ mark ∉ s ∧ Avoids marks s := by
  simp [Avoids]

private theorem avoids_nil (s : List Char) : Avoids [] s := by simp [Avoids]

/-- What avoids marks avoids fewer of them. -/
theorem Avoids.of_subset {marks few s : List Char} (h : Avoids marks s) (hsub : few ⊆ marks) :
    Avoids few s := fun mark hm => h mark (hsub hm)

/-- What avoids marks does so in every part. -/
theorem Avoids.mono {marks s t : List Char} (h : Avoids marks s) (hsub : t ⊆ s) :
    Avoids marks t := fun mark hm ht => h mark hm (hsub ht)

/-- The path with the slash before it. -/
def pathText : Option String → List Char
  | none => []
  | some path => '/' :: path.toList

/-- The protocol with its marker. -/
def protocolText : Option String → List Char
  | none => []
  | some protocol => protocol.toList ++ [':', '/', '/']

/-- Credentials, host and port. -/
def authorityText (a : Address) : List Char :=
  (credentialsText a.username a.password).toList ++ (hostText a.host a.port).toList

/-- The text of an address, part after part. -/
theorem toList_text (a : Address) : a.text.toList = protocolText a.protocol ++
    (authorityText a ++ pathText a.path) ++ (parametersText "?" a.parameters.entries).toList := by
  have hprotocol : (a.protocol.elim "" (· ++ "://")).toList = protocolText a.protocol := by
    cases a.protocol <;> simp [protocolText]
  have hpath : (a.path.elim "" ("/" ++ ·)).toList = pathText a.path := by
    cases a.path <;> simp [pathText]
  simp only [text, String.toList_append, hprotocol, hpath, authorityText, List.append_assoc]

/-! ### What a reader cuts off -/

/-- What is before the parameters has no question mark, and every parameter is a plain pair. -/
theorem cutParameters_cases {s rest : List Char} {parameters : Parameters}
    (h : cutParameters s = (rest, parameters)) :
    '?' ∉ rest ∧ rest <+: s ∧ ∀ entry, entry ∈ parameters.entries → IsPlainPair entry := by
  unfold cutParameters at h
  split at h
  · next query hcut =>
    cases h
    refine ⟨Text.not_mem_of_cutAt hcut, ?_, fun entry => isPlainPair_of_mem_readParameters⟩
    rw [Text.eq_of_cutAt hcut]
    exact List.prefix_append _ _
  · next hcut =>
    cases h
    exact ⟨Text.cutAt_eq_none_iff.mp hcut, List.prefix_refl _, by simp [Parameters.empty]⟩

/-- A protocol is a text before the first mark of one, or there is no such mark. -/
theorem cutProtocol?_cases {s rest : List Char} {protocol : Option String}
    (h : cutProtocol? s = some (protocol, rest)) :
    (∃ p, protocol = some (String.ofList p) ∧ p ≠ [] ∧ p <+: s ∧ rest ⊆ s ∧
      ∀ after, Text.cut [':', '/', '/'] (p ++ [':', '/', '/'] ++ after) = some (p, after)) ∨
    protocol = none ∧ rest = s ∧ Text.cut [':', '/'] s = none := by
  unfold cutProtocol? at h
  split at h
  · cases h
  · next p r hne hcut =>
    cases h
    refine .inl ⟨p, rfl, hne, ?_, ?_, ?_⟩
    · rw [Text.eq_of_cut hcut, List.append_assoc]
      exact List.prefix_append _ _
    · rw [Text.eq_of_cut hcut]
      exact List.subset_append_right _ _
    · exact Text.cut_append_of_cut (by simp) hcut []
  · split at h
    · cases h
    · next p r hne hcut =>
      cases h
      refine .inl ⟨p, rfl, hne, ?_, ?_, ?_⟩
      · rw [Text.eq_of_cut hcut, List.append_assoc]
        exact List.prefix_append _ _
      · rw [Text.eq_of_cut hcut]
        intro c hc
        rcases List.mem_cons.mp hc with rfl | hc
        · simp
        · simp [hc]
      · exact Text.cut_append_of_cut (by simp) hcut ['/']
    · next hcut =>
      cases h
      exact .inr ⟨rfl, rfl, hcut⟩

/-- A path begins at the first slash. -/
theorem cutPath_cases {s rest : List Char} {path : Option String} (h : cutPath s = (rest, path)) :
    s = rest ++ pathText path ∧ '/' ∉ rest := by
  unfold cutPath at h
  split at h
  · next hcut =>
    cases h
    exact ⟨by simp [pathText, Text.eq_of_cutAt hcut], Text.not_mem_of_cutAt hcut⟩
  · next hcut =>
    cases h
    exact ⟨by simp [pathText], Text.cutAt_eq_none_iff.mp hcut⟩

/-- Credentials end at the first at sign, and what is read as one spells back to what was there. -/
theorem cutCredentials_cases {s rest : List Char} {username password : Option String}
    (h : cutCredentials s = (username, password, rest)) :
    s = (credentialsText username password).toList ++ rest ∧
      (username = none → '@' ∉ rest) ∧
      (∀ u, username = some u → Avoids ['@', ':'] u.toList) ∧
      ∀ w, password = some w → username ≠ none ∧ '@' ∉ w.toList := by
  unfold cutCredentials at h
  split at h
  · next credentials r hcut =>
    have hat := Text.not_mem_of_cutAt hcut
    have hs := Text.eq_of_cutAt hcut
    split at h
    · next name secret hcolon =>
      have hname := Text.not_mem_of_cutAt hcolon
      rw [Text.eq_of_cutAt hcolon] at hat hs
      cases h
      simp only [List.mem_append, List.mem_cons, not_or] at hat
      refine ⟨by simp [credentialsText, hs], by simp, ?_, ?_⟩
      · rintro u ⟨⟩
        simp [Avoids, hat.1, hname]
      · rintro w ⟨⟩
        simpa using hat.2.2
    · next hcolon =>
      have hname := Text.cutAt_eq_none_iff.mp hcolon
      cases h
      refine ⟨by simp [credentialsText, hs], by simp, ?_, by simp⟩
      rintro u ⟨⟩
      simp [Avoids, hat, hname]
  · next hcut =>
    cases h
    exact ⟨by simp [credentialsText], fun _ => Text.cutAt_eq_none_iff.mp hcut, by simp, by simp⟩

/-- A host before a port has no colon. -/
theorem cutPort?_cases {s host : List Char} {port : UInt16} (h : cutPort? s = some (host, port)) :
    host <+: s ∧ ':' ∉ host := by
  unfold cutPort? at h
  split at h
  · next hcut =>
    cases h
    refine ⟨?_, Text.not_mem_of_cutAt hcut⟩
    rw [Text.eq_of_cutAt hcut]
    exact List.prefix_append _ _
  · next hcut =>
    obtain ⟨n, -, heq⟩ := Option.map_eq_some_iff.mp h
    cases heq
    refine ⟨?_, Text.not_mem_of_cutAt hcut⟩
    rw [Text.eq_of_cutAt hcut]
    exact List.prefix_append _ _
  · next hcut =>
    cases h
    exact ⟨List.prefix_refl _, Text.cutAt_eq_none_iff.mp hcut⟩

/-- An address is read by cutting off its parts one after the other. -/
theorem read_cases {s : List Char} {a : Address} (h : read s = .ok a) :
    ∃ bare rest authority endpoint host, cutParameters s = (bare, a.parameters) ∧
      cutProtocol? bare = some (a.protocol, rest) ∧ cutPath rest = (authority, a.path) ∧
      cutCredentials authority = (a.username, a.password, endpoint) ∧
      cutPort? endpoint = some (host, a.port) ∧
      a.host = (if host.isEmpty then none else some (String.ofList host)) ∧
      a.attachments = [] := by
  unfold read at h
  split at h
  · cases h
  · rcases hparameters : cutParameters s with ⟨bare, parameters⟩
    rw [hparameters] at h
    dsimp only at h
    cases hprotocol : cutProtocol? bare with
    | none => rw [hprotocol] at h; cases h
    | some cut =>
      obtain ⟨protocol, rest⟩ := cut
      rw [hprotocol] at h
      dsimp only at h
      rcases hpath : cutPath rest with ⟨authority, path⟩
      rw [hpath] at h
      dsimp only at h
      rcases hcredentials : cutCredentials authority with ⟨username, password, endpoint⟩
      rw [hcredentials] at h
      dsimp only at h
      cases hport : cutPort? endpoint with
      | none => rw [hport] at h; cases h
      | some cut =>
        obtain ⟨host, port⟩ := cut
        rw [hport] at h
        cases h
        exact ⟨bare, rest, authority, endpoint, host, rfl, hprotocol, hpath, hcredentials, hport,
          rfl, rfl⟩

/-! ### Addresses that keep clear of the marks -/

/-- The parts of an address keep clear of the marks at which they are cut. -/
structure Plain (a : Address) : Prop where
  protocol : ∀ p, a.protocol = some p → p ≠ "" ∧ '?' ∉ p.toList ∧
    ∀ after, Text.cut [':', '/', '/'] (p.toList ++ [':', '/', '/'] ++ after) =
      some (p.toList, after)
  username : ∀ u, a.username = some u → Avoids ['/', '?', '@', ':'] u.toList
  password : ∀ w, a.password = some w → a.username ≠ none ∧ Avoids ['/', '?', '@'] w.toList
  host : ∀ h, a.host = some h → h ≠ "" ∧ Avoids ['/', '?', ':'] h.toList ∧
    (a.username = none → '@' ∉ h.toList)
  path : ∀ p, a.path = some p → '?' ∉ p.toList ∧
    (a.protocol = none → Text.cut [':', '/'] ('/' :: p.toList) = none)
  parameters : ∀ entry, entry ∈ a.parameters.entries → IsPlainPair entry
  attachments : a.attachments = []

/-- Every address that was read keeps clear of the marks. -/
theorem plain_of_read {s : List Char} {a : Address} (h : read s = .ok a) : Plain a := by
  obtain ⟨bare, rest, authority, endpoint, host, hparameters, hprotocol, hpath, hcredentials, hport,
    hhost, hattachments⟩ := read_cases h
  obtain ⟨hquery, -, hpairs⟩ := cutParameters_cases hparameters
  obtain ⟨hrest, hslash⟩ := cutPath_cases hpath
  obtain ⟨hauthority, hat, husername, hpassword⟩ := cutCredentials_cases hcredentials
  obtain ⟨hendpoint, hcolon⟩ := cutPort?_cases hport
  have hsub : rest ⊆ bare := by
    rcases cutProtocol?_cases hprotocol with ⟨_, -, -, -, hsub, -⟩ | ⟨-, hsame, -⟩
    · exact hsub
    · exact hsame ▸ List.Subset.refl _
  have hauthority' : Avoids ['/', '?'] authority := by
    have hmark : '?' ∉ authority := fun hm => hquery (hsub (by simp [hrest, hm]))
    simp [Avoids, hslash, hmark]
  constructor
  · intro p hp
    rcases cutProtocol?_cases hprotocol with ⟨q, heq, hne, hinit, -, hcut⟩ | ⟨heq, -, -⟩
    · rw [heq] at hp
      cases hp
      refine ⟨by simpa using hne, ?_, by simpa using hcut⟩
      simpa using fun hm => hquery (hinit.subset hm)
    · rw [heq] at hp
      cases hp
  · intro u hu
    have hsub' : u.toList ⊆ authority := by
      intro c hc
      cases hw : a.password <;> simp [hauthority, credentialsText, hu, hw, hc]
    have hmarks := hauthority'.mono hsub'
    have hcut := husername u hu
    simp only [avoids_cons] at hmarks hcut ⊢
    exact ⟨hmarks.1, hmarks.2.1, hcut⟩
  · intro w hw
    obtain ⟨hne, hcut⟩ := hpassword w hw
    obtain ⟨u, hu⟩ := Option.ne_none_iff_exists'.mp hne
    have hsub' : w.toList ⊆ authority := by
      intro c hc
      simp [hauthority, credentialsText, hu, hw, hc]
    have hmarks := hauthority'.mono hsub'
    simp only [avoids_cons] at hmarks ⊢
    exact ⟨hne, hmarks.1, hmarks.2.1, hcut, avoids_nil _⟩
  · intro h hh
    rw [hhost] at hh
    split at hh
    · cases hh
    · next hne =>
      cases hh
      have hsub' : host ⊆ authority := fun c hc => by
        rw [hauthority]
        exact List.mem_append_right _ (hendpoint.subset hc)
      have hmarks := hauthority'.mono hsub'
      simp only [avoids_cons, String.toList_ofList] at hmarks ⊢
      refine ⟨by simpa using hne, ⟨hmarks.1, hmarks.2.1, hcolon, avoids_nil _⟩, fun hu hm => ?_⟩
      exact hat hu (hendpoint.subset hm)
  · intro p hp
    rw [hp, pathText] at hrest
    refine ⟨fun hm => hquery (hsub (by simp [hrest, hm])), fun hnone => ?_⟩
    rcases cutProtocol?_cases hprotocol with ⟨q, heq, -⟩ | ⟨-, hsame, hcut⟩
    · rw [heq] at hnone
      cases hnone
    · rw [← hsame, hrest] at hcut
      exact Text.cut_eq_none_of_append hcut
  · exact hpairs
  · exact hattachments

end Switchboard.Address
