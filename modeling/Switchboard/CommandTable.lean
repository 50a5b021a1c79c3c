import Std.Data.ExtTreeMap
import Switchboard.Command
import Switchboard.Frame

/-!
# Command tables

A provider keeps a table of the commands it serves, each with the handler of its requests. A
request is answered with the outcome of its handler, or with the news that there is none; if the
handler crashes, there is no answer.

The table is the `CommandTable` of `SPEC_FULL.md`, section 4.6: `respond` is its `dispatch` with the
handler that was found, and `request?` is the first half of its `received`.
-/

namespace Switchboard

/-- What serves a command. -/
structure CommandHandler where
  /-- How long it works. -/
  delay : Nat := 0
  /-- The outcome for encoded arguments; nothing if it crashes on them. -/
  serve : Bytes → Option (Outcome Bytes)

/-- Commands with their handlers. -/
structure CommandTable where
  /-- The handlers under the texts of their commands. -/
  handlers : Std.ExtTreeMap String CommandHandler := ∅

namespace CommandTable

/-- A table without commands. -/
instance : Inhabited CommandTable := ⟨{}⟩

/-- The number of commands. -/
def size (t : CommandTable) : Nat := t.handlers.size

/-- The commands in ascending order. -/
def commands (t : CommandTable) : List Command := t.handlers.keys.map Command.mk

/-- The handler of a command. -/
def handler? (t : CommandTable) (command : String) : Option CommandHandler := t.handlers[command]?

/-- Gives a command its handler, unless it has one. -/
def register (t : CommandTable) (c : Command) (handler : CommandHandler) :
    Outcome Unit × CommandTable :=
  if t.handlers.contains c.text then
    (.error (.rpc ("command " ++ c.text ++ " is already registered")), t)
  else (.ok (), { handlers := t.handlers.insert c.text handler })

/-- Takes the handler of a command away, and says whether it had one. -/
def unregister (t : CommandTable) (c : Command) : Bool × CommandTable :=
  (t.handlers.contains c.text, { handlers := t.handlers.erase c.text })

/-- The request of a frame; anything else is dropped. -/
def request? (frame : Bytes) : Option Envelope :=
  match Frame.decode? frame with
  | some envelope => if envelope.kind = .request then some envelope else none
  | none => none

/-- What a request that nobody serves comes to. -/
def unserved (request : Envelope) : Failure := .rpc ("no handler for " ++ request.command)

/-- The response to a request; nothing if its handler crashes. -/
def respond (handler : Option CommandHandler) (request : Envelope) : Option Envelope :=
  match handler with
  | some h => (h.serve (request.payload.getD [])).map (Envelope.responseTo request)
  | none => some (Envelope.responseTo request (.error (unserved request)))

end CommandTable

end Switchboard
