import Switchboard.CommandLine.Help

/-!
# Requests of the command line

What the program can be asked for, and how the arguments say it.
-/

namespace Switchboard

/-- What the program is asked to do. -/
inductive Request where
  /-- Show the parts of an address. -/
  | parse (address : String)
  /-- Show the entries of a cache file. -/
  | cache (file : String)
  /-- Show the command and the path of a method. -/
  | command (interface method : String) (parameters : List String) (group : String)
  /-- Make calls to a provider in the same process. -/
  | demo (calls connections : Nat) (quic : Bool)
deriving DecidableEq, Repr

/-- What the arguments come to. -/
inductive Intent where
  /-- A request. -/
  | request (request : Request)
  /-- A text to print. -/
  | print (text : String)
  /-- Nothing that the program understands. -/
  | misuse
deriving DecidableEq, Repr

namespace Request

/-- The name of the program. -/
def program : String := "dendrite"

/-- The version of the program. -/
def version : String := "0.1.0"

/-- What the program is. -/
def about : String := "dendrite RPC runtime tools"

/-- The form of the command that shows an address. -/
def parseForm : Form :=
  { name := "parse", about := "Parse an address and print its parts"
    places := [{ name := "address" }] }

/-- The form of the command that shows a cache file. -/
def cacheForm : Form :=
  { name := "cache", about := "Print the entries of a registry cache file"
    places := [{ name := "file", kind := .path }] }

/-- The form of the command that shows a method's command. -/
def commandForm : Form :=
  { name := "command", about := "Print the command string and registry path of a method"
    places := [{ name := "interface" }, { name := "method" },
      { name := "parameters", repeats := true }]
    settings := [{ name := "group", value := some .text, default := "default" }] }

/-- The form of the command that makes calls. -/
def demoForm : Form :=
  { name := "demo", about := "Run a provider and a caller in this process and time the calls"
    settings := [{ name := "calls", value := some .number, default := "1000" },
      { name := "connections", value := some .number, default := "1" },
      { name := "quic", about := "Call over QUIC on localhost instead of in memory" }] }

/-- All forms. -/
def forms : List Form := [parseForm, cacheForm, commandForm, demoForm]

/-- The request of a command that was given what its form asks for. -/
def ofGiven (f : Form) (g : Given) : Option Request :=
  let number (name : String) : Nat := (ValueKind.number? (f.valueOf g name)).getD 0
  match f.name, g.words with
  | "parse", [address] => some (parse address)
  | "cache", [file] => some (cache file)
  | "command", interface :: method :: parameters =>
    some (command interface method parameters (f.valueOf g "group"))
  | "demo", [] => some (demo (number "calls") (number "connections") (g.has "quic"))
  | _, _ => none

end Request

namespace Intent

open Request

/-- A form by its name. -/
def form? (name : String) : Option Form := forms.find? fun f => f.name == name

/-- What the names of commands behind the one for help come to. -/
def ofHelp : List String → Intent
  | [] => print (Help.ofProgram program about forms)
  | [name] =>
    if name = Help.command.1 then print (Help.ofHelp program)
    else
      match form? name with
      | some f => print (Help.ofForm program f)
      | none => misuse
  | _ => misuse

/-- What the arguments of a command come to. -/
def ofForm (f : Form) (arguments : List String) : Intent :=
  match f.read arguments with
  | .error .help => print (Help.ofForm program f)
  | .error .misuse => misuse
  | .ok given =>
    match Request.ofGiven f given with
    | some r => request r
    | none => misuse

/-- What the arguments of the program come to. -/
def ofArguments : List String → Intent
  | [] => misuse
  | argument :: rest =>
    match Argument.ofText argument with
    | .long "help" none | .short ('h' :: _) => print (Help.ofProgram program about forms)
    | .long "version" none | .short ('V' :: _) => print (program ++ " " ++ version ++ "\n")
    | .word =>
      if argument = Help.command.1 then ofHelp rest
      else
        match form? argument with
        | some f => ofForm f rest
        | none => misuse
    | _ => misuse

end Intent

end Switchboard
