import Switchboard.CommandLine.Reply

/-!
# The program

Reads the file that a request names, prints the reply and ends with its code.
-/

open Switchboard

/-- The text of a file, if it can be read. -/
def readText (path : String) : IO (Option String) := do
  try
    let text ← IO.FS.readFile path
    return some text
  catch _ => return none

/-- The program. -/
def main (arguments : List String) : IO UInt32 := do
  let file ← match Intent.ofArguments arguments with
    | .request (.cache path) => readText path
    | _ => pure none
  let reply := answer arguments fun _ => file
  (← IO.getStdout).putStr reply.output
  (← IO.getStderr).putStr reply.complaint
  return reply.code
