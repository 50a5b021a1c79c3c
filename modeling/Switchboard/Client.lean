import Switchboard.Connection
import Switchboard.Settings

/-!
# Clients

A client owns the connection from here to one address. It connects when it is first needed, one
attempt at a time, lets go of a connection together with the requests that were written on it, and
once it is closed it stays closed.

The client is that of `SPEC_FULL.md`, section 4.5, with the texts of its failures; what it does is
among the routines of the board.
-/

namespace Switchboard

/-- A call: which command, in which group, with which arguments. -/
structure Call where
  /-- The group of the registry. -/
  group : String
  /-- The command. -/
  command : String
  /-- The encoded arguments. -/
  payload : Bytes := []
  /-- The longest wait for the response, if the caller sets one; zero waits as long as it takes. -/
  timeout : Option Duration := none
deriving DecidableEq, Repr

/-- The connection from here to one address. -/
structure Client where
  /-- The address. -/
  address : Address := {}
  /-- The settings. -/
  settings : ClientSettings := {}
  /-- The table of channels that the client uses. -/
  channels : Nat := 0
  /-- The requests that wait for responses. -/
  exchange : Exchange := {}
  /-- The connection, while there is one. -/
  connection : Option ConnectionRef := none
  /-- Whether the client was closed for good. -/
  isClosed : Bool := false

namespace Client

/-- A client without a connection and without requests. -/
instance : Inhabited Client := ⟨{}⟩

/-- The client was closed. -/
def closedFailure (a : Address) : Failure := .remoting ("client to " ++ a.text ++ " is closed")

/-- A connect failed. -/
def connectFailure (a : Address) (cause : Failure) : Failure :=
  .remotingFrom ("connect to [" ++ a.text ++ "] failed") cause

/-- A connect took too long. -/
def connectTimeout (a : Address) (after : Duration) : Failure :=
  .remotingFrom ("connect to [" ++ a.text ++ "] timed out after " ++ toString after.toMillis ++
    "ms") (.timeout after)

/-- A connect gave a connection that was closed already. -/
def deadFailure (a : Address) : Failure :=
  .remoting ("connect to [" ++ a.text ++ "] failed without reason")

end Client

end Switchboard
