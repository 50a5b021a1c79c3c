import Switchboard.CommandLine.Form

/-!
# Help

The help of a command is written from its form: what it does, how it is used, and a line for each
place and setting, in columns.
-/

namespace Switchboard

namespace Help

/-- A text in capitals. -/
def capitals (text : String) : String := String.ofList (text.toList.map Char.toUpper)

/-- Rows of two columns under a heading; the second column begins two blanks behind the longest
entry of the first. -/
def table (heading : String) (rows : List (String × String)) : String :=
  let width := (rows.map fun row => row.1.length).foldl max 0
  let row (entry : String × String) : String :=
    "  " ++ entry.1 ++ String.ofList (List.replicate (width - entry.1.length + 2) ' ') ++ entry.2
  heading ++ ":\n" ++ "\n".intercalate (rows.map row) ++ "\n"

/-- A place as it is shown. -/
def place (p : Place) : String :=
  if p.repeats then "[" ++ capitals p.name ++ "]..." else "<" ++ capitals p.name ++ ">"

/-- A setting as it is shown, behind the room for a letter, with what it is for. -/
def setting (s : Setting) : String × String :=
  let default := if s.default.isEmpty then [] else ["[default: " ++ s.default ++ "]"]
  let about := if s.about.isEmpty then [] else [s.about]
  let value := if s.value.isSome then " <" ++ capitals s.name ++ ">" else ""
  ("    --" ++ s.name ++ value, " ".intercalate (about ++ default))

/-- The setting that asks for help. -/
def asking : String × String := ("-h, --help", "Print help")

/-- The parts of a help, with an empty line between them. -/
def parts (parts : List String) : String := "\n".intercalate parts

/-- The help of a command of a program. -/
def ofForm (program : String) (f : Form) : String :=
  let options := if f.settings.isEmpty then [] else ["[OPTIONS]"]
  let usage := " ".intercalate ([program, f.name] ++ options ++ f.places.map place)
  let places :=
    if f.places.isEmpty then []
    else [table "Arguments" (f.places.map fun p => (place p, ""))]
  parts ([f.about ++ "\n", "Usage: " ++ usage ++ "\n"] ++ places ++
    [table "Options" (f.settings.map setting ++ [asking])])

/-- The command that prints help. -/
def command : String × String :=
  ("help", "Print this message or the help of the given subcommand(s)")

/-- The help of a program with its commands. -/
def ofProgram (program about : String) (forms : List Form) : String :=
  parts [about ++ "\n", "Usage: " ++ program ++ " <COMMAND>\n",
    table "Commands" (forms.map (fun f => (f.name, f.about)) ++ [command]),
    table "Options" [asking, ("-V, --version", "Print version")]]

/-- The help of the command that prints help. -/
def ofHelp (program : String) : String :=
  parts [command.2 ++ "\n", "Usage: " ++ program ++ " " ++ command.1 ++ " [COMMAND]...\n",
    table "Arguments" [("[COMMAND]...", "Print help for the subcommand(s)")]]

end Help

end Switchboard
