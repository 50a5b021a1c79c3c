import Switchboard.Board.Duties

/-!
# The demonstration

A provider and a caller in one place: a command is served over loopback links, announced in a
registry, found again by a resolver, and called a number of times.

It is the command `demo` of `SPEC_FULL.md`, section 10.
-/

namespace Switchboard

namespace Demo

/-- The command that is called. -/
def command : Command := Command.ofMethod "demo::Echo" "echo" ["Vec<u8>"]

/-- The group that it is announced in. -/
def group : String := "demo"

/-- Where the provider is reached. -/
def scheme : String := "loop"

/-- The node that the provider is announced as. -/
def node : String := "demo"

/-- The address of the provider, which asks for a number of connections. -/
def provider (connections : Nat) : Address :=
  ({ protocol := some scheme, host := some "demo", port := 1 } : Address).withParameter
    Address.connections (toString connections)

/-- The call that is made. -/
def call : Call := { group, command := command.text, payload := List.replicate 64 0 }

/-- How long calls took. -/
structure Times where
  /-- All of them together. -/
  total : Duration
  /-- The slowest. -/
  slowest : Duration
deriving DecidableEq, Repr

/-- The board on which the command is served. -/
def board : Board :=
  { server := .commands, channelTables := #[{}]
    commands := (({} : CommandTable).register command StandIn.echo).2 }

open Routine Op

/-- Makes calls one after another, and returns the time that the slowest took; there is no outcome
if a call has none. -/
def callAll (reference : Nat) : (calls : Nat) → (slowest : Nat) → Op (Option (Outcome Nat))
  | 0, slowest => pure (some (.ok slowest))
  | calls + 1, slowest => do
    let sent ← now
    match ← Op.call reference call with
    | none => pure none
    | some (.error f) => pure (some (.error f))
    | some (.ok _) =>
      let received ← now
      callAll reference calls (max slowest (received - sent))

/-- A span of milliseconds. -/
def span (ms : Nat) : Duration := .ofMillis (UInt64.ofNat ms)

/-- Announces the command, calls it, and takes everything down again. -/
def work (calls connections : Nat) : Op (Option (Outcome Times)) := do
  let registry ← openRegistry { host := some "demo" } { cacheDir := some "demo" }
  let exporter ← step fun b => b.addExporter registry (.ofProvider (provider connections) node)
  match ← exportCommands exporter group [command] with
  | .error f => pure (some (.error f))
  | .ok _ =>
    let resolver ← step fun b => b.addResolution { registry, loopback := some scheme }
    let reference ← step fun b => b.addReference { resolver }
    let started ← now
    match ← callAll reference calls 0 with
    | none => pure none
    | some (.error f) => pure (some (.error f))
    | some (.ok slowest) =>
      let ended ← now
      closeResolver resolver
      match ← unexport exporter with
      | .error f => pure (some (.error f))
      | .ok () =>
        closeRegistry registry
        pure (some (.ok { total := span (ended - started), slowest := span slowest }))

/-- The outcome of the demonstration. Its reference never tries again, so that every call has an
outcome; what is left is that the work does not end in time. -/
def outcome (calls connections : Nat) : Outcome Times :=
  match (Site.perform (work calls connections) { state := board }).1.join with
  | some outcome => outcome
  | none => .error (.timeout (span Site.patience))

end Demo

end Switchboard
