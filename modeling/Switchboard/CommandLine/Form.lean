import Switchboard.Text.Decimal

/-!
# Forms of commands

A command of the command line takes words in fixed places and settings, which are named and may
stand anywhere. The form of a command says which; it is what the arguments are read by and what the
help is written from. Reading goes from left to right and stops at the first argument that asks for
help or that the form has no place for.

The forms stand for the derived command line of `SPEC_FULL.md`, section 10.
-/

namespace Switchboard

/-- Which texts a value may have. -/
inductive ValueKind where
  /-- Any text. -/
  | text
  /-- A path, which is not empty. -/
  | path
  /-- A number of 64 bits. -/
  | number
deriving DecidableEq, Repr

/-- The number that a text stands for. -/
def ValueKind.number? (text : String) : Option Nat := Text.nat? UInt64.size text.toList

/-- Whether a text is a value. -/
def ValueKind.accepts (kind : ValueKind) (value : String) : Bool :=
  match kind with
  | text => true
  | path => !value.isEmpty
  | number => (number? value).isSome

/-- A place for a word. -/
structure Place where
  /-- Its name. -/
  name : String
  /-- Which texts fit. -/
  kind : ValueKind := .text
  /-- Whether any number of words fits, none included; only the last place may. -/
  repeats : Bool := false

/-- A setting. -/
structure Setting where
  /-- Its name, without the dashes. -/
  name : String
  /-- Which values it takes; none if it is only there or not. -/
  value : Option ValueKind := none
  /-- The value that holds if it is not given. -/
  default : String := ""
  /-- What it is for. -/
  about : String := ""

/-- What a command takes. -/
structure Form where
  /-- The name of the command. -/
  name : String
  /-- What the command does. -/
  about : String
  /-- The places for words. -/
  places : List Place := []
  /-- The settings. -/
  settings : List Setting := []

/-- An argument by its dashes. -/
inductive Argument where
  /-- Two dashes alone: words follow, whatever they look like. -/
  | onlyWords
  /-- Two dashes, a name, and perhaps a value behind an equals sign. -/
  | long (name : String) (value : Option String)
  /-- One dash and letters. -/
  | short (letters : List Char)
  /-- A word. -/
  | word
deriving DecidableEq, Repr

/-- Reads the dashes of an argument. -/
def Argument.ofText (text : String) : Argument :=
  match text.toList with
  | ['-', '-'] => onlyWords
  | '-' :: '-' :: rest =>
    let name := String.ofList (rest.takeWhile (· ≠ '='))
    match rest.dropWhile (· ≠ '=') with
    | _ :: value => long name (some (String.ofList value))
    | [] => long name none
  | '-' :: letter :: rest => short (letter :: rest)
  | _ => word

/-- What a command was given. -/
structure Given where
  /-- The words, in order. -/
  words : List String := []
  /-- The settings with their values. -/
  settings : List (String × String) := []
deriving DecidableEq, Repr

/-- Why reading stopped before the end. -/
inductive Stop where
  /-- Help was asked for. -/
  | help
  /-- The arguments do not fit. -/
  | misuse
deriving DecidableEq, Repr

namespace Given

/-- The value that was given to a setting. -/
def value? (g : Given) (name : String) : Option String := g.settings.lookup name

/-- Whether a setting was given. -/
def has (g : Given) (name : String) : Bool := (g.value? name).isSome

/-- Gives a setting a value, once. -/
def set (g : Given) (name value : String) : Except Stop Given :=
  if g.has name then .error .misuse else .ok { g with settings := g.settings ++ [(name, value)] }

end Given

namespace Form

/-- The place of the word behind `count` others. -/
def placeAt? (f : Form) (count : Nat) : Option Place :=
  match f.places[count]? with
  | some place => some place
  | none => f.places.getLast?.filter (·.repeats)

/-- Puts a word in its place. -/
def putWord (f : Form) (g : Given) (word : String) : Except Stop Given :=
  match f.placeAt? g.words.length with
  | some place =>
    if place.kind.accepts word then .ok { g with words := g.words ++ [word] } else .error .misuse
  | none => .error .misuse

/-- A setting by its name. -/
def setting? (f : Form) (name : String) : Option Setting :=
  f.settings.find? fun setting => setting.name == name

/-- Gives a setting a value of its kind. -/
def put (g : Given) (setting : Setting) (kind : ValueKind) (value : String) : Except Stop Given :=
  if kind.accepts value then g.set setting.name value else .error .misuse

/-- How many words there must be. -/
def needed (f : Form) : Nat := (f.places.filter fun place => !place.repeats).length

/-- Reads arguments; `onlyWords` says whether dashes mean nothing any more. -/
def readFrom (f : Form) (onlyWords : Bool) (g : Given) : List String → Except Stop Given
  | [] => if g.words.length < f.needed then .error .misuse else .ok g
  | argument :: rest =>
    if onlyWords then do
      f.readFrom true (← f.putWord g argument) rest
    else
      match Argument.ofText argument with
      | .onlyWords => f.readFrom true g rest
      | .word => do f.readFrom false (← f.putWord g argument) rest
      | .short letters => .error (if letters.head? = some 'h' then .help else .misuse)
      | .long "help" none => .error .help
      | .long name value =>
        match f.setting? name with
        | none => .error .misuse
        | some setting =>
          match setting.value, value, rest with
          | none, none, rest => do f.readFrom false (← g.set name "") rest
          | none, some _, _ => .error .misuse
          | some kind, some value, rest => do
            f.readFrom false (← put g setting kind value) rest
          | some _, none, [] => .error .misuse
          | some kind, none, value :: rest =>
            if Argument.ofText value = .word then do
              f.readFrom false (← put g setting kind value) rest
            else .error .misuse

/-- Reads the arguments behind the name of a command. -/
def read (f : Form) (arguments : List String) : Except Stop Given := f.readFrom false {} arguments

/-- The value of a setting, given or not. -/
def valueOf (f : Form) (g : Given) (name : String) : String :=
  (g.value? name).getD (((f.setting? name).map (·.default)).getD "")

end Form

end Switchboard
