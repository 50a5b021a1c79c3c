import Mathlib.Data.List.TakeWhile
import Switchboard.Proofs.Command.Descriptors
import Switchboard.Proofs.Text.Marks

/-!
# Which methods share a key

Commands are looked up under a key of the registry that tells everything about their parts but which
of the underscores were slashes. Whatever the group is, and whatever is decoded and trimmed off it,
the same text stands before every command.
-/

namespace Switchboard

/-- A slash becomes an underscore. -/
def underscore (x : Char) : Char := if x = '/' then '_' else x

/-- The text with an underscore for every slash. -/
def underscored (text : String) : String := String.ofList (text.toList.map underscore)

private theorem underscore_eq_iff {mark : Char} (hslash : mark ≠ '/') (hline : mark ≠ '_')
    (x : Char) :
    underscore x = mark ↔ x = mark := by
  unfold underscore
  split
  · next hx =>
    subst hx
    exact ⟨fun h => absurd h.symm hline, fun h => absurd h.symm hslash⟩
  · rfl

private theorem mem_map_underscore_iff {mark : Char} (hslash : mark ≠ '/') (hline : mark ≠ '_')
    {s : List Char} : mark ∈ s.map underscore ↔ mark ∈ s := by
  simp only [List.mem_map, underscore_eq_iff hslash hline, exists_eq_right]

private theorem not_mem_map_underscore (s : List Char) : '/' ∉ s.map underscore := by
  intro h
  obtain ⟨x, -, heq⟩ := List.mem_map.mp h
  unfold underscore at heq
  split at heq
  · revert heq
    decide
  · next hx => exact hx heq

private theorem IsDescriptor.map_underscore {d : List Char} (h : IsDescriptor d) :
    IsDescriptor (d.map underscore) :=
  h.map (underscore_eq_iff (by decide) (by decide)) (underscore_eq_iff (by decide) (by decide))
    (underscore_eq_iff (by decide) (by decide))

private theorem underscored_inj {s t : String} :
    underscored s = underscored t ↔ s.toList.map underscore = t.toList.map underscore :=
  String.ofList_inj

/-- Texts made of names are the same just if their characters are. -/
theorem map_eq_map_iff {f : String → String} {g : String → List Char}
    (h : ∀ name, f name = String.ofList (g name)) {names names' : List String} :
    names.map f = names'.map f ↔ names.map g = names'.map g := by
  have hmap : ∀ l : List String, l.map f = (l.map g).map String.ofList := by
    intro l
    rw [List.map_map]
    exact List.map_congr_left fun name _ => h name
  rw [hmap, hmap, List.map_inj_right fun _ _ => String.ofList_inj.mp]

/-- Underscores are put for slashes part by part. -/
theorem map_underscore_spell (i m : List Char) (ps : List (List Char)) :
    (spell i m ps).map underscore =
      spell (i.map underscore) (m.map underscore) (ps.map (·.map underscore)) := by
  simp only [spell, List.map_append, List.map_cons, List.map_flatten]
  rfl

namespace Command

/-- Whether no name of a method's parts holds a semicolon or a percent sign. -/
def IsPlain (interface method : String) (parameters : List String) : Prop :=
  ∀ name ∈ interface :: method :: parameters, ';' ∉ name.toList ∧ '%' ∉ name.toList

private theorem segment_eq (c : Command) : c.segment = underscored c.text := rfl

/-- The key of a command is its segment behind a text that depends on the group alone. -/
theorem exists_serviceKey_lookupAddress (group : String) :
    ∃ lead, ∀ c : Command, c.text ≠ "" → '%' ∉ c.text.toList →
      (c.lookupAddress group).serviceKey = lead ++ c.segment := by
  let decoded := Text.Percent.decodeLossy (Text.trimBy (· == '/') group.toList)
  let start := decoded ++ '/' :: (services.toList ++ ['/'])
  refine ⟨String.ofList ('/' :: Text.trimStartBy (· == '/') start), fun c hne hplain => ?_⟩
  have hsegment : c.segment.toList = c.text.toList.map underscore := String.toList_ofList
  have hfull : '%' ∉ c.segment.toList := by
    rw [hsegment, mem_map_underscore_iff (by decide) (by decide)]
    exact hplain
  have hpath : (c.servicePath group).toList =
      Text.trimBy (· == '/') group.toList ++
        '/' :: (services.toList ++ '/' :: c.segment.toList) := by
    simp [servicePath]
  have hdecode : Text.Percent.decodeLossy (c.servicePath group).toList =
      start ++ c.segment.toList := by
    rw [hpath, Text.Percent.decodeLossy_append_slash, Text.Percent.decodeLossy_append_slash,
      Text.Percent.decodeLossy_of_not_mem hfull,
      Text.Percent.decodeLossy_of_not_mem (s := services.toList) (by decide)]
    simp [start, decoded]
  -- the slashes at the start come to an end before the command does
  have hstart : Text.trimStartBy (· == '/') (start ++ c.segment.toList) =
      Text.trimStartBy (· == '/') start ++ c.segment.toList := by
    rw [Text.trimStartBy, List.dropWhile_append, if_neg]
    · rfl
    · intro hempty
      have hall := List.dropWhile_eq_nil_iff.mp (List.isEmpty_iff.mp hempty)
      have hs : 's' ∈ start := List.mem_append_right _ (by decide)
      exact absurd (hall 's' hs) (by decide)
  rw [← String.toList_inj, String.toList_append]
  simp only [Address.serviceKey, lookupAddress, Option.getD_some, String.toList_ofList, hdecode,
    Text.trimBy, hstart]
  rw [Text.trimEndBy_append_of_not_mem]
  · rfl
  · rw [hsegment]
    simpa using hne
  · rw [hsegment]
    exact not_mem_map_underscore _

section

variable {interface method interface' method' : String} {parameters parameters' : List String}

/-- The parts of the text of a command whose names are plain. -/
theorem IsPlain.parts (h : IsPlain interface method parameters) :
    IsDescriptor (descriptorOf interface.toList) ∧ ';' ∉ method.toList ∧
      ∀ d ∈ parameters.map fun p => descriptorOf p.toList, IsDescriptor d := by
  refine ⟨isDescriptor_descriptorOf (h interface (by simp)).1, (h method (by simp)).1, ?_⟩
  intro d hd
  obtain ⟨p, hp, rfl⟩ := List.mem_map.mp hd
  exact isDescriptor_descriptorOf (h p (by simp [hp])).1

private theorem ofMethod_text_ne (interface method : String) (parameters : List String) :
    (ofMethod interface method parameters).text ≠ "" := by
  rw [← String.toList_inj.ne, toList_text_ofMethod]
  exact List.cons_ne_nil _ _

/-- The text of a command whose names are plain holds no percent sign. -/
theorem IsPlain.not_mem_text (h : IsPlain interface method parameters) :
    '%' ∉ (ofMethod interface method parameters).text.toList := by
  have hdescriptor : ∀ name ∈ interface :: method :: parameters,
      '%' ∉ descriptorOf name.toList := by
    intro name hname hmem
    rcases mem_of_mem_descriptorOf hmem with hc | hc
    · exact (h name hname).2 hc
    · revert hc
      decide
  rw [toList_text_ofMethod, spell]
  simp only [List.mem_append, List.mem_cons, List.not_mem_nil, or_false, List.mem_flatten,
    List.mem_map, not_or, not_exists, not_and]
  refine ⟨by decide, hdescriptor interface (by simp), (h method (by simp)).2, by decide, ?_⟩
  rintro _ ⟨p, hp, rfl⟩
  exact hdescriptor p (by simp [hp])

/-- The parts stay what they are with underscores for slashes. -/
theorem IsPlain.parts_underscore (h : IsPlain interface method parameters) :
    IsDescriptor ((descriptorOf interface.toList).map underscore) ∧
      ';' ∉ method.toList.map underscore ∧
      ∀ d ∈ (parameters.map fun p => descriptorOf p.toList).map (·.map underscore),
        IsDescriptor d := by
  obtain ⟨hi, hm, hps⟩ := h.parts
  refine ⟨hi.map_underscore, ?_, fun d hd => ?_⟩
  · rwa [mem_map_underscore_iff (by decide) (by decide)]
  · obtain ⟨e, he, rfl⟩ := List.mem_map.mp hd
    exact (hps e he).map_underscore

private theorem ofMethod_inj (h : IsPlain interface method parameters)
    (h' : IsPlain interface' method' parameters') :
    ofMethod interface method parameters = ofMethod interface' method' parameters' ↔
      descriptor interface = descriptor interface' ∧ method = method' ∧
        parameters.map descriptor = parameters'.map descriptor := by
  obtain ⟨hi, hm, hps⟩ := h.parts
  obtain ⟨hi', hm', hps'⟩ := h'.parts
  have hdescriptor : ∀ name, descriptor name = String.ofList (descriptorOf name.toList) :=
    fun _ => rfl
  have htext : ∀ c c' : Command, c = c' ↔ c.text.toList = c'.text.toList := by
    intro c c'
    rw [String.toList_inj]
    exact ⟨congrArg text, fun heq => congrArg mk heq⟩
  rw [htext, toList_text_ofMethod, toList_text_ofMethod, spell_inj hi hi' hm hm' hps hps',
    String.toList_inj, map_eq_map_iff hdescriptor, hdescriptor, hdescriptor, String.ofList_inj]

/-- What is the same of commands once every slash in them is an underscore. -/
theorem segment_ofMethod_inj (h : IsPlain interface method parameters)
    (h' : IsPlain interface' method' parameters') :
    (ofMethod interface method parameters).segment =
        (ofMethod interface' method' parameters').segment ↔
      underscored (descriptor interface) = underscored (descriptor interface') ∧
      underscored method = underscored method' ∧
      (parameters.map descriptor).map underscored =
        (parameters'.map descriptor).map underscored := by
  obtain ⟨hi, hm, hps⟩ := h.parts_underscore
  obtain ⟨hi', hm', hps'⟩ := h'.parts_underscore
  have hdescriptor : ∀ name, (descriptor name).toList = descriptorOf name.toList :=
    fun _ => String.toList_ofList
  have hparameters : ∀ name, (underscored ∘ descriptor) name =
      String.ofList ((descriptorOf name.toList).map underscore) := by
    intro name
    rw [Function.comp, underscored, hdescriptor]
  rw [segment_eq, segment_eq, underscored_inj, toList_text_ofMethod, toList_text_ofMethod,
    map_underscore_spell, map_underscore_spell, spell_inj hi hi' hm hm' hps hps', underscored_inj,
    underscored_inj, hdescriptor, hdescriptor, List.map_map, List.map_map, List.map_map,
    List.map_map, map_eq_map_iff hparameters]
  rfl

/-- Commands share a key in a group just if they share their segment. -/
theorem serviceKey_eq_iff (h : IsPlain interface method parameters)
    (h' : IsPlain interface' method' parameters') (group : String) :
    ((ofMethod interface method parameters).lookupAddress group).serviceKey =
        ((ofMethod interface' method' parameters').lookupAddress group).serviceKey ↔
      (ofMethod interface method parameters).segment =
        (ofMethod interface' method' parameters').segment := by
  obtain ⟨lead, hlead⟩ := exists_serviceKey_lookupAddress group
  rw [hlead _ (ofMethod_text_ne _ _ _) h.not_mem_text,
    hlead _ (ofMethod_text_ne _ _ _) h'.not_mem_text, ← String.toList_inj,
    String.toList_append, String.toList_append, List.append_right_inj, String.toList_inj]

/-- Commands of plain names are equal just if the descriptors of their interfaces and parameters
and the names of their methods are, and in whatever group they are looked up they share a key just
if these are equal once every slash in them is an underscore. -/
theorem ofMethod_eq_and_serviceKey_eq_iff (h : IsPlain interface method parameters)
    (h' : IsPlain interface' method' parameters') (group : String) :
    let c := ofMethod interface method parameters
    let c' := ofMethod interface' method' parameters'
    (c = c' ↔ descriptor interface = descriptor interface' ∧ method = method' ∧
      parameters.map descriptor = parameters'.map descriptor) ∧
    ((c.lookupAddress group).serviceKey = (c'.lookupAddress group).serviceKey ↔
      underscored (descriptor interface) = underscored (descriptor interface') ∧
      underscored method = underscored method' ∧
      (parameters.map descriptor).map underscored =
        (parameters'.map descriptor).map underscored) := by
  intro c c'
  constructor
  · exact ofMethod_inj h h'
  · exact (serviceKey_eq_iff h h' group).trans (segment_ofMethod_inj h h')

end

/-- Two interfaces that underscores make one share a key with the same method, whatever the elements
of its parameter are called, and not with its overload. -/
theorem serviceKey_eq_of_underscore :
    let c := ofMethod "a::b_c" "m" ["Vec<u8>"]
    let c' := ofMethod "a_b.c" "m" ["[i8]"]
    let overload := ofMethod "a::b_c" "m" ["i64"]
    IsPlain "a::b_c" "m" ["Vec<u8>"] ∧ IsPlain "a_b.c" "m" ["[i8]"] ∧
      IsPlain "a::b_c" "m" ["i64"] ∧ c ≠ c' ∧
      (c.lookupAddress "/g%E2/").serviceKey = (c'.lookupAddress "/g%E2/").serviceKey ∧
      c ≠ overload ∧
      (c.lookupAddress "/g%E2/").serviceKey ≠ (overload.lookupAddress "/g%E2/").serviceKey := by
  intro c c' overload
  have h : IsPlain "a::b_c" "m" ["Vec<u8>"] := by unfold IsPlain; decide
  have h' : IsPlain "a_b.c" "m" ["[i8]"] := by unfold IsPlain; decide
  have ho : IsPlain "a::b_c" "m" ["i64"] := by unfold IsPlain; decide
  obtain ⟨hc, hkey⟩ := ofMethod_eq_and_serviceKey_eq_iff h h' "/g%E2/"
  obtain ⟨hco, hkeyo⟩ := ofMethod_eq_and_serviceKey_eq_iff h ho "/g%E2/"
  refine ⟨h, h', ho, fun heq => ?_, hkey.mpr (by decide +kernel), fun heq => ?_, fun heq => ?_⟩
  · exact absurd (hc.mp heq).1 (by decide +kernel)
  · exact absurd (hco.mp heq).2.2 (by decide +kernel)
  · exact absurd (hkeyo.mp heq).2.2 (by decide +kernel)

end Command

end Switchboard
