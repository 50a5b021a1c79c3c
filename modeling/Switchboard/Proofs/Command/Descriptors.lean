import Switchboard.Command
import Switchboard.Proofs.Text.Cuts

/-!
# How commands are read

A descriptor tells where it ends: by its letter, by the end of the descriptor of its elements, or by
a semicolon, which a name does not hold. So the parts of a command, which stand behind each other
with nothing between them but the semicolon of the method, are read back from its text. Putting
underscores for slashes leaves descriptors that tell the same.
-/

namespace Switchboard

namespace Text

/-- Replacing adds nothing but what is put in. -/
theorem mem_of_mem_replace {old new s : List Char} {c : Char} (h : c ∈ replace old new s) :
    c ∈ new ∨ c ∈ s := by
  unfold replace at h
  induction s using replace.go.induct old with
  | case1 => simp [replace.go] at h
  | case2 d r hold ih =>
    rw [replace.go, if_pos hold, List.mem_append] at h
    rcases h with h | h
    · exact .inl h
    · exact (ih h).imp_right fun hr => List.mem_cons_of_mem _ (List.mem_of_mem_drop hr)
  | case3 d r hold ih =>
    rw [replace.go, if_neg hold, List.mem_cons] at h
    rcases h with rfl | h
    · exact .inr List.mem_cons_self
    · exact (ih h).imp_right (List.mem_cons_of_mem _)

end Text

/-! ### Descriptors -/

/-- A text that is built as descriptors are. -/
inductive IsDescriptor : List Char → Prop where
  /-- The letter of a primitive. -/
  | letter {x : Char} (hslice : x ≠ '[') (hname : x ≠ 'L') : IsDescriptor [x]
  /-- A bracket and the descriptor of the elements. -/
  | slice {d : List Char} (h : IsDescriptor d) : IsDescriptor ('[' :: d)
  /-- A path without semicolons, up to a semicolon. -/
  | named {path : List Char} (h : ';' ∉ path) : IsDescriptor ('L' :: (path ++ [';']))

/-- The letters of primitives. -/
def letters : List Char := ['Z', 'B', 'S', 'C', 'I', 'J', 'F', 'D', 'V']

private theorem letter_mem_letters {name : String} {letter : Char}
    (h : primitiveLetter? name = some letter) : letter ∈ letters := by
  unfold primitiveLetter? at h
  split at h <;> cases h <;> decide

private theorem mem_of_mem_elementName {name element : List Char}
    (h : elementName? name = some element)
    {c : Char} (hc : c ∈ element) : c ∈ name := by
  have hbetween : ∀ lead tail, between lead tail name = some element → c ∈ name := by
    intro lead tail h
    simp only [between, Text.afterLead, Text.beforeTail, Option.bind_eq_some_iff] at h
    obtain ⟨rest, hrest, htail⟩ := h
    split at hrest <;> cases hrest
    split at htail <;> cases htail
    exact List.mem_of_mem_drop (List.mem_of_mem_take hc)
  unfold elementName? at h
  split at h
  · next hslice =>
    cases h
    exact hbetween _ _ hslice
  · exact hbetween _ _ h

/-- What holds of letters, is kept by the bracket, and holds of all paths made of slashes and the
characters of a name, holds of the descriptor of the name. -/
theorem descriptorOf_induction {P : List Char → Prop} {name : List Char}
    (hletter : ∀ letter ∈ letters, P [letter]) (hslice : ∀ d, P d → P ('[' :: d))
    (hnamed : ∀ path, (∀ c ∈ path, c = '/' ∨ c ∈ name) → P ('L' :: (path ++ [';']))) :
    P (descriptorOf name) := by
  induction name using descriptorOf.induct with
  | case1 typeName name letter hprimitive =>
    rw [descriptorOf]
    simp only [name] at hprimitive
    simp only [hprimitive]
    exact hletter letter (letter_mem_letters hprimitive)
  | case2 typeName name hprimitive element helement ih =>
    have hsub : ∀ c ∈ element, c ∈ typeName := fun c hc =>
      Text.mem_of_mem_trim (mem_of_mem_elementName helement hc)
    rw [descriptorOf]
    simp only [name] at hprimitive helement
    simp only [hprimitive]
    split
    · next found hfound =>
      rw [helement] at hfound
      cases hfound
      exact hslice _ (ih fun path hpath => hnamed path fun c hc => (hpath c hc).imp_right (hsub c))
    · next hnone =>
      rw [helement] at hnone
      cases hnone
  | case3 typeName name hprimitive helement =>
    rw [descriptorOf]
    simp only [name] at hprimitive helement
    simp only [hprimitive]
    split
    · next found hfound =>
      rw [helement] at hfound
      cases hfound
    · refine hnamed _ fun c hc => ?_
      rcases Text.mem_of_mem_replace hc with hslash | hc
      · exact .inl (List.mem_singleton.mp hslash)
      rcases Text.mem_of_mem_replace hc with hslash | hc
      · exact .inl (List.mem_singleton.mp hslash)
      · exact .inr (Text.mem_of_mem_trim hc)

/-- The descriptor of a name without semicolons is built as descriptors are. -/
theorem isDescriptor_descriptorOf {name : List Char} (h : ';' ∉ name) :
    IsDescriptor (descriptorOf name) := by
  refine descriptorOf_induction (fun letter hletter => ?_) (fun d => .slice) fun path hpath => ?_
  · refine .letter ?_ ?_ <;> rintro rfl <;> revert hletter <;> decide
  · refine .named fun hc => ?_
    rcases hpath _ hc with hslash | hname
    · revert hslash
      decide
    · exact h hname

/-- A descriptor holds what its name holds, slashes, and the marks of descriptors. -/
theorem mem_of_mem_descriptorOf {name : List Char} {c : Char} (h : c ∈ descriptorOf name) :
    c ∈ name ∨ c ∈ ['[', 'L', ';', '/'] ++ letters := by
  revert h
  refine descriptorOf_induction (P := fun d => c ∈ d → _) (fun letter hletter hc => ?_)
    (fun d ih hc => ?_) fun path hpath hc => ?_
  · rw [List.mem_singleton.mp hc]
    exact .inr (List.mem_append_right _ hletter)
  · rcases List.mem_cons.mp hc with rfl | hc
    · exact .inr (by decide)
    · exact ih hc
  · simp only [List.mem_cons, List.mem_append, List.not_mem_nil, or_false] at hc
    rcases hc with rfl | hc | rfl
    · exact .inr (by decide)
    · rcases hpath c hc with rfl | hname
      · exact .inr (by decide)
      · exact .inl hname
    · exact .inr (by decide)

/-- Putting other characters for some, but for none of the marks of descriptors, leaves a
descriptor. -/
theorem IsDescriptor.map {d : List Char} (h : IsDescriptor d) {f : Char → Char}
    (hslice : ∀ x, f x = '[' ↔ x = '[') (hname : ∀ x, f x = 'L' ↔ x = 'L')
    (hend : ∀ x, f x = ';' ↔ x = ';') : IsDescriptor (d.map f) := by
  induction h with
  | letter hs hn => exact .letter (fun h => hs ((hslice _).mp h)) fun h => hn ((hname _).mp h)
  | slice _ ih =>
    rw [List.map_cons, (hslice _).mpr rfl]
    exact .slice ih
  | @named path h =>
    rw [List.map_cons, List.map_append, List.map_singleton, (hname _).mpr rfl, (hend _).mpr rfl]
    refine .named fun hmem => ?_
    obtain ⟨x, hx, heq⟩ := List.mem_map.mp hmem
    exact h ((hend x).mp heq ▸ hx)

/-- A descriptor tells where it ends. -/
theorem IsDescriptor.eq_of_append_eq {d d' r r' : List Char} (h : IsDescriptor d)
    (h' : IsDescriptor d') (heq : d ++ r = d' ++ r') : d = d' ∧ r = r' := by
  induction h generalizing d' with
  | letter hs hn =>
    cases h' with
    | letter _ _ => simpa using heq
    | slice _ => exact absurd (List.cons.inj heq).1 hs
    | named _ => exact absurd (List.cons.inj heq).1 hn
  | slice _ ih =>
    cases h' with
    | letter hs _ => exact absurd (List.cons.inj heq).1.symm hs
    | slice hd =>
      obtain ⟨rfl, rfl⟩ := ih hd (List.cons.inj heq).2
      exact ⟨rfl, rfl⟩
    | named _ => exact absurd (List.cons.inj heq).1 (by decide)
  | @named path h =>
    cases h' with
    | letter _ hn => exact absurd (List.cons.inj heq).1.symm hn
    | slice _ => exact absurd (List.cons.inj heq).1 (by decide)
    | @named path' h' =>
      simp only [List.cons_append, List.append_assoc, List.nil_append, List.cons.injEq,
        true_and] at heq
      have hcut := Text.cutAt_append h r
      rw [heq, Text.cutAt_append h'] at hcut
      cases hcut
      exact ⟨rfl, rfl⟩

private theorem IsDescriptor.ne_nil {d : List Char} (h : IsDescriptor d) : d ≠ [] := by
  cases h <;> exact List.cons_ne_nil _ _

/-- Descriptors that stand behind each other are read back from the text that they make up. -/
theorem eq_of_flatten_eq {ds ds' : List (List Char)} (h : ∀ d ∈ ds, IsDescriptor d)
    (h' : ∀ d ∈ ds', IsDescriptor d) (heq : ds.flatten = ds'.flatten) : ds = ds' := by
  induction ds generalizing ds' with
  | nil =>
    cases ds' with
    | nil => rfl
    | cons d' rest' =>
      have hnil := List.append_eq_nil_iff.mp heq.symm
      exact absurd hnil.1 (h' d' (by simp)).ne_nil
  | cons d rest ih =>
    cases ds' with
    | nil => exact absurd (List.append_eq_nil_iff.mp heq).1 (h d (by simp)).ne_nil
    | cons d' rest' =>
      obtain ⟨rfl, hrest⟩ := (h d (by simp)).eq_of_append_eq (h' d' (by simp)) heq
      rw [ih (fun x hx => h x (by simp [hx])) (fun x hx => h' x (by simp [hx])) hrest]

/-! ### Commands -/

/-- The text of a command of the given parts. -/
def spell (interface method : List Char) (parameters : List (List Char)) : List Char :=
  ['r', 'p', 'c', '@'] ++ (interface ++ (method ++ ';' :: parameters.flatten))

/-- Commands of the same text have the same parts. -/
theorem spell_inj {i i' m m' : List Char} {ps ps' : List (List Char)} (hi : IsDescriptor i)
    (hi' : IsDescriptor i') (hm : ';' ∉ m) (hm' : ';' ∉ m') (hps : ∀ p ∈ ps, IsDescriptor p)
    (hps' : ∀ p ∈ ps', IsDescriptor p) :
    spell i m ps = spell i' m' ps' ↔ i = i' ∧ m = m' ∧ ps = ps' := by
  constructor
  · intro heq
    obtain ⟨rfl, hrest⟩ := hi.eq_of_append_eq hi' (List.append_cancel_left heq)
    have hcut := Text.cutAt_append hm ps.flatten
    rw [hrest, Text.cutAt_append hm'] at hcut
    obtain ⟨rfl, hflat⟩ := Prod.mk.inj (Option.some.inj hcut)
    exact ⟨rfl, rfl, eq_of_flatten_eq hps hps' hflat.symm⟩
  · rintro ⟨rfl, rfl, rfl⟩
    rfl

/-- The text of a command of a method is the spelling of its descriptors. -/
theorem toList_text_ofMethod (interface method : String) (parameters : List String) :
    (Command.ofMethod interface method parameters).text.toList =
      spell (descriptorOf interface.toList) method.toList
        (parameters.map fun p => descriptorOf p.toList) := by
  simp [Command.ofMethod, spell, descriptor, List.flatMap, Function.comp_def]

end Switchboard
