import Switchboard.Address.Key

/-!
# Commands

The wire name of a remote method: `rpc@`, the descriptor of its interface, its name, a semicolon
and the descriptors of its parameters. The registry files a command under a path of its group.

The command string, its registry segment and its lookup path are those of `RpcCommand` in
`SPEC_FULL.md`, section 4.6.
-/

namespace Switchboard

/-- The letter of a primitive type. -/
def primitiveLetter? : String → Option Char
  | "bool" => some 'Z'
  | "i8" | "u8" => some 'B'
  | "i16" | "u16" => some 'S'
  | "char" => some 'C'
  | "i32" | "u32" => some 'I'
  | "i64" | "u64" | "isize" | "usize" => some 'J'
  | "f32" => some 'F'
  | "f64" => some 'D'
  | "()" => some 'V'
  | _ => none

/-- The name between `lead` and `tail`. -/
def between (lead tail name : List Char) : Option (List Char) :=
  (Text.afterLead lead name).bind (Text.beforeTail tail)

/-- The name of the elements of a slice or a vector. -/
def elementName? (name : List Char) : Option (List Char) :=
  match between ['['] [']'] name with
  | some element => some element
  | none => between ['V', 'e', 'c', '<'] ['>'] name

private theorem length_between_lt {lead tail name element : List Char} (hlead : lead ≠ [])
    (h : between lead tail name = some element) : element.length < name.length := by
  simp only [between, Text.afterLead, Text.beforeTail, Option.bind_eq_some_iff] at h
  obtain ⟨rest, hrest, htail⟩ := h
  have hl : 0 < lead.length := List.length_pos_iff.2 hlead
  split at hrest <;> simp only [Option.some.injEq, reduceCtorEq] at hrest
  rename_i hp
  have hle := (List.isPrefixOf_iff_prefix.1 hp).length_le
  split at htail <;> simp only [Option.some.injEq, reduceCtorEq] at htail
  subst hrest htail
  simp only [List.length_take, List.length_drop]
  omega

private theorem length_elementName_lt {name element : List Char}
    (h : elementName? name = some element) :
    element.length < name.length := by
  simp only [elementName?] at h
  split at h
  · cases h
    exact length_between_lt (List.cons_ne_nil '[' []) (by assumption)
  · exact length_between_lt (by simp) h

private theorem length_trimBy_le (p : Char → Bool) (s : List Char) :
    (Text.trimBy p s).length ≤ s.length := by
  have h₁ := (List.dropWhile_sublist p (l := s)).length_le
  have h₂ := (List.dropWhile_sublist p (l := (s.dropWhile p).reverse)).length_le
  simp only [Text.trimBy, Text.trimEndBy, Text.trimStartBy, List.length_reverse] at *
  omega

/-- The descriptor of a type's name: a letter for a primitive, a bracket and the descriptor of the
elements for slices and vectors, and `L`, the path with slashes and a semicolon for all else. -/
def descriptorOf (typeName : List Char) : List Char :=
  let name := Text.trim typeName
  match primitiveLetter? (String.ofList name) with
  | some letter => [letter]
  | none =>
    match _h : elementName? name with
    | some element => '[' :: descriptorOf element
    | none => 'L' :: Text.replace ['.'] ['/'] (Text.replace [':', ':'] ['/'] name) ++ [';']
termination_by typeName.length
decreasing_by
  have h₁ : element.length < (Text.trim typeName).length := length_elementName_lt _h
  have h₂ : (Text.trim typeName).length ≤ typeName.length := length_trimBy_le _ _
  omega

/-- The descriptor of a type. -/
def descriptor (typeName : String) : String := String.ofList (descriptorOf typeName.toList)

/-- The wire name of a remote method. -/
structure Command where
  /-- The name as it stands on the wire. -/
  text : String
deriving DecidableEq, Repr

namespace Command

/-- The directory of services below a group. -/
def services : String := "services"

/-- The command of a method of an interface. -/
def ofMethod (interface method : String) (parameters : List String) : Command :=
  ⟨"rpc@" ++ descriptor interface ++ method ++ ";" ++ String.join (parameters.map descriptor)⟩

/-- The command as one step of a path: every slash becomes an underscore. -/
def segment (c : Command) : String :=
  String.ofList (c.text.toList.map fun x => if x = '/' then '_' else x)

/-- The path of the command below a group. -/
def servicePath (c : Command) (group : String) : String :=
  String.ofList (Text.trimBy (· == '/') group.toList) ++ "/" ++ services ++ "/" ++ c.segment

/-- The address to look providers of the command up with. -/
def lookupAddress (c : Command) (group : String) : Address := { path := some (c.servicePath group) }

/-- Commands in ascending order, every one once. -/
def sorted (commands : List Command) : List Command :=
  ((commands.map (·.text)).mergeSort (· ≤ ·)).eraseReps.map Command.mk

end Command

/-- The address to dial for a provider, which may ask to be dialed at another host. -/
def Address.connectAddress (provider : Address) : Address :=
  match provider.parameter? rpcHost with
  | some host => (provider.withHost host).withoutParameter rpcHost
  | none => provider

end Switchboard
