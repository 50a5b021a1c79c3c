import Switchboard.CommandLine.Demo
import Switchboard.CommandLine.Request

/-!
# Replies of the command line

What the program prints for a request, and the code that it ends with: zero, one for a request that
failed, and two for arguments that it does not understand.

The commands `parse`, `cache` and `command` of `SPEC_FULL.md`, section 10, are answered here.
-/

namespace Switchboard

/-- What a run of the program leaves behind. -/
structure Reply where
  /-- The code that it ends with. -/
  code : UInt32 := 0
  /-- What it prints. -/
  output : String := ""
  /-- What it complains about. -/
  complaint : String := ""
deriving DecidableEq, Repr

namespace Reply

/-- Lines of text. -/
def lines (texts : List String) : String := String.join (texts.map (· ++ "\n"))

/-- The reply to a request that can fail. -/
def ofOutcome (outcome : Outcome String) : Reply :=
  match outcome with
  | .ok output => { output }
  | .error f => { code := 1, complaint := "Error: " ++ f.shape ++ "\n" }

/-- The parts of an address, one on a line. -/
def addressLines (a : Address) : List String :=
  ["protocol: " ++ a.protocol.getD "-"] ++
    (a.username.map fun username => "username: " ++ username).toList ++
    ["host:     " ++ a.host.getD "-", "port:     " ++ toString a.port.toNat,
      "path:     " ++ a.path.getD "-"] ++
    a.parameters.entries.map (fun entry => "  " ++ entry.1 ++ " = " ++ entry.2) ++
    ["service key: " ++ a.serviceKey, "canonical:   " ++ a.text]

/-- The entries of a cache file by key and value: every key, and below it the texts of its value. -/
def cacheLines (file : String) : List String :=
  let entries := (Properties.parse file).mergeSort fun a b =>
    a.1 < b.1 || (a.1 == b.1 && a.2 ≤ b.2)
  entries.flatMap fun entry =>
    entry.1 :: (Text.words entry.2.toList).map fun text => "    " ++ String.ofList text

/-- A method's command and where it is looked up. -/
def commandLines (c : Command) (group : String) : List String :=
  ["command: " ++ c.text, "lookup:  /" ++ c.servicePath group]

/-- How long a number of calls took. -/
def timesLine (calls : Nat) (times : Demo.Times) : String :=
  let mean := (Duration.ofNanos? (times.total.toNanos / max calls 1)).getD times.total
  toString calls ++ " calls over loopback in " ++ times.total.text ++ ", mean " ++ mean.text ++
    ", slowest " ++ times.slowest.text

/-- The reply to a request; `read` is the text of a file. -/
def ofRequest (read : String → Option String) : Request → Reply
  | .parse address => ofOutcome ((Address.parse address).map fun a => lines (addressLines a))
  | .cache file =>
    ofOutcome (match read file with
      | some text => .ok (lines (cacheLines text))
      | none => .error (.io .system))
  | .command interface method parameters group =>
    { output := lines (commandLines (.ofMethod interface method parameters) group) }
  | .demo calls connections false =>
    ofOutcome ((Demo.outcome calls connections).map fun times => lines [timesLine calls times])
  | .demo _ _ true => ofOutcome (.error (.remoting "cannot start connecting: endpoint stopping"))

/-- The reply to what the arguments come to. -/
def ofIntent (read : String → Option String) : Intent → Reply
  | .request r => ofRequest read r
  | .print output => { output }
  | .misuse =>
    { code := 2, complaint := Help.ofProgram Request.program Request.about Request.forms }

end Reply

/-- The program: its arguments and the texts of files give the reply. -/
def answer (arguments : List String) (read : String → Option String) : Reply :=
  Reply.ofIntent read (Intent.ofArguments arguments)

end Switchboard
