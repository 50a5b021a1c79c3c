import Switchboard.Duration
import Switchboard.Text.Quoted

/-!
# Failures

Every way in which an operation can fail, with its text and with the answer to the question
whether trying again elsewhere may help.

The failures are the errors of `SPEC_FULL.md`, section 7.
-/

namespace Switchboard

/-- A failure of input or output: one that was described in words, or one that the system
reported, whose wording is not ours. -/
inductive IoFault where
  /-- Described in words. -/
  | described (text : String)
  /-- Reported by the system. -/
  | system
deriving DecidableEq, Repr

/-- The text of a failure of input or output. -/
def IoFault.message : IoFault → String
  | .described text => text
  | .system => "system error"

/-- Why an operation failed. -/
inductive Failure where
  /-- A text that is no address. -/
  | malformedAddress (input reason : String)
  /-- A value that is rejected before anything is done. -/
  | invalidArgument (text : String)
  /-- The registry's backend or its local cache failed. -/
  | registry (text : String)
  /-- Input or output failed. -/
  | io (fault : IoFault)
  /-- Connecting, writing or acknowledging failed. -/
  | remoting (reason : String)
  /-- Connecting, writing or acknowledging failed because of something else. -/
  | remotingFrom (reason : String) (cause : Failure)
  /-- A wait ran out; what was waited for may still come. -/
  | timeout (after : Duration)
  /-- A null or unusable response, or a command that is registered already. -/
  | rpc (text : String)
  /-- The connection went away before the answer came. -/
  | connectionClosed
  /-- Nobody serves the command. -/
  | noProvider (command : String)
  /-- A frame that cannot be read or written. -/
  | codec (text : String)
  /-- The provider answered with a failure of its own. -/
  | remote (text : String)
  /-- Certificates or keys failed. -/
  | tls (text : String)
deriving DecidableEq, Repr

namespace Failure

/-- A closed connection. -/
instance : Inhabited Failure := ⟨connectionClosed⟩

/-- The text of a failure. -/
def message : Failure → String
  | malformedAddress input reason => "malformed address " ++ Text.quoted input ++ ": " ++ reason
  | invalidArgument text => "invalid argument: " ++ text
  | registry text => "registry failure: " ++ text
  | io fault => "io failure: " ++ fault.message
  | remoting reason => reason
  | remotingFrom reason _ => reason
  | timeout after => "timed out after " ++ after.text
  | rpc text => "rpc failure: " ++ text
  | connectionClosed => "connection closed"
  | noProvider command => "no provider available for " ++ command
  | codec text => "codec failure: " ++ text
  | remote text => "remote failure: " ++ text
  | tls text => "tls failure: " ++ text

/-- The name of the kind of a failure. -/
def kind : Failure → String
  | malformedAddress .. => "Format"
  | invalidArgument _ => "InvalidArgument"
  | registry _ => "Registry"
  | io _ => "Io"
  | remoting _ | remotingFrom .. => "Remoting"
  | timeout _ => "Timeout"
  | rpc _ => "Rpc"
  | connectionClosed => "ConnectionClosed"
  | noProvider _ => "NoProvider"
  | codec _ => "Codec"
  | remote _ => "Remote"
  | tls _ => "Tls"

/-- The failure of a kind with a text, for the kinds that hold nothing else. -/
def ofKind (kind text : String) : Failure :=
  match kind with
  | "InvalidArgument" => invalidArgument text
  | "Registry" => registry text
  | "Io" => io (.described text)
  | "Remoting" => remoting text
  | "Rpc" => rpc text
  | "NoProvider" => noProvider text
  | "Codec" => codec text
  | "Remote" => remote text
  | "Tls" => tls text
  | _ => connectionClosed

/-- Whether another attempt, perhaps at another provider, may cure the failure. -/
def isRetryable : Failure → Bool
  | remoting _ | remotingFrom _ _ | connectionClosed | io _ | timeout _ => true
  | _ => false

/-- What caused the failure, if it says so. -/
def cause? : Failure → Option Failure
  | remotingFrom _ cause => some cause
  | _ => none

/-- The texts of the causes below a failure, nearest first. -/
def sources : Failure → List String
  | remotingFrom _ cause => cause.message :: cause.sources
  | _ => []

/-- The structure of a failure, written out. Failures of input and output show only that they are
such. -/
def shape : Failure → String
  | malformedAddress input reason =>
    "Format \x7b input: " ++ Text.quoted input ++ ", reason: " ++ Text.quoted reason ++ " \x7d"
  | remoting reason => "Remoting \x7b reason: " ++ Text.quoted reason ++ ", cause: None \x7d"
  | remotingFrom reason cause =>
    "Remoting \x7b reason: " ++ Text.quoted reason ++ ", cause: Some(" ++ cause.shape ++ ") \x7d"
  | timeout after => "Timeout(" ++ after.text ++ ")"
  | connectionClosed => "ConnectionClosed"
  | io fault => "Io(" ++ Text.quoted fault.message ++ ")"
  | invalidArgument text => "InvalidArgument(" ++ Text.quoted text ++ ")"
  | registry text => "Registry(" ++ Text.quoted text ++ ")"
  | rpc text => "Rpc(" ++ Text.quoted text ++ ")"
  | noProvider text => "NoProvider(" ++ Text.quoted text ++ ")"
  | codec text => "Codec(" ++ Text.quoted text ++ ")"
  | remote text => "Remote(" ++ Text.quoted text ++ ")"
  | tls text => "Tls(" ++ Text.quoted text ++ ")"

end Failure

/-- The outcome of an operation that can fail. -/
abbrev Outcome (α : Type) := Except Failure α

/-- Outcomes can be compared where values and failures can. -/
instance decidableEqExcept {ε α : Type} [DecidableEq ε] [DecidableEq α] : DecidableEq (Except ε α)
  | .ok a, .ok b => decidable_of_iff (a = b) (by simp)
  | .error a, .error b => decidable_of_iff (a = b) (by simp)
  | .ok _, .error _ => isFalse (by simp)
  | .error _, .ok _ => isFalse (by simp)

end Switchboard
