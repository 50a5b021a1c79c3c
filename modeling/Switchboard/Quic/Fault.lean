import Switchboard.Failure

/-!
# Faults of the secure transport

The ways in which connections, streams and certificates fail below the frame layer, and the
failures they are reported as. A connection that was closed by either side is reported as closed;
everything else keeps its text.

The failures are those of `SPEC_FULL.md`, section 7, and the faults are those that section 10 has
converted to them.
-/

namespace Switchboard

/-- A numbered reason for closing a connection. -/
inductive CloseCode where
  /-- No error. -/
  | noError
  /-- An error inside the peer. -/
  | internalError
  /-- The peer takes no connection. -/
  | connectionRefused
  /-- The peer broke the protocol. -/
  | protocolViolation
  /-- The handshake failed with a number. -/
  | crypto (code : Nat)
deriving DecidableEq, Repr

/-- The reason of a name; `code` is the number of a failed handshake. -/
def CloseCode.ofName (name : String) (code : Nat) : CloseCode :=
  match name with
  | "INTERNAL_ERROR" => internalError
  | "CONNECTION_REFUSED" => connectionRefused
  | "PROTOCOL_VIOLATION" => protocolViolation
  | "CRYPTO" => crypto code
  | _ => noError

/-- The text of a reason. -/
def CloseCode.message : CloseCode → String
  | noError => "the connection is being closed abruptly in the absence of any error"
  | internalError =>
    "the endpoint encountered an internal error and cannot continue with the connection"
  | connectionRefused => "the server refused to accept a new connection"
  | protocolViolation =>
    "detected an error with protocol compliance that was not covered by more specific error codes"
  | crypto code => "the cryptographic handshake failed: error " ++ toString code

/-- Why a connection cannot be attempted. -/
inductive DialFault where
  /-- The endpoint stops. -/
  | endpointStopping
  /-- There are too many connections. -/
  | tooManyConnections
  /-- The name is no DNS name. -/
  | invalidDnsName (name : String)
  /-- The target is no address to dial. -/
  | invalidRemoteAddress (socket : String)
  /-- Nothing is configured. -/
  | noDefaultClientConfig
  /-- The version is not supported. -/
  | unsupportedVersion
deriving DecidableEq, Repr

/-- The fault of a name; `text` is the name or socket that some of them hold. -/
def DialFault.ofName (name text : String) : DialFault :=
  match name with
  | "EndpointStopping" => endpointStopping
  | "TooManyConnections" => tooManyConnections
  | "InvalidDnsName" => invalidDnsName text
  | "InvalidRemoteAddress" => invalidRemoteAddress text
  | "NoDefaultClientConfig" => noDefaultClientConfig
  | _ => unsupportedVersion

/-- The text of a fault before dialing. -/
def DialFault.message : DialFault → String
  | endpointStopping => "endpoint stopping"
  | tooManyConnections => "too many connections"
  | invalidDnsName name => "invalid DNS name: " ++ name
  | invalidRemoteAddress socket => "invalid remote address: " ++ socket
  | noDefaultClientConfig => "no default client config"
  | unsupportedVersion => "unsupported QUIC version"

/-- What a fault before dialing is reported as. -/
def DialFault.toFailure (fault : DialFault) : Failure :=
  .remoting ("cannot start connecting: " ++ fault.message)

/-- Why a connection was lost. -/
inductive ConnectionFault where
  /-- No version is supported by both sides. -/
  | versionMismatch
  /-- The peer broke a rule of the transport. -/
  | transport (code : CloseCode) (reason : String)
  /-- The peer closed the connection. -/
  | closed
  /-- The application at the peer closed the connection. -/
  | applicationClosed
  /-- The peer forgot the connection. -/
  | reset
  /-- Nothing was heard for too long. -/
  | timedOut
  /-- The connection was closed here. -/
  | locallyClosed
deriving DecidableEq, Repr

/-- The fault of a name; `code` and `reason` are what a broken rule is told with. -/
def ConnectionFault.ofName (name : String) (code : CloseCode) (reason : String) :
    ConnectionFault :=
  match name with
  | "VersionMismatch" => versionMismatch
  | "TransportError" => transport code reason
  | "ConnectionClosed" => closed
  | "ApplicationClosed" => applicationClosed
  | "Reset" => reset
  | "TimedOut" => timedOut
  | _ => locallyClosed

/-- What a lost connection is reported as. -/
def ConnectionFault.toFailure : ConnectionFault → Failure
  | versionMismatch =>
    .remoting "connection failed: peer doesn't implement any supported version"
  | transport code reason =>
    .remoting ("connection failed: " ++ code.message ++
      (if reason.isEmpty then "" else ": " ++ reason))
  | timedOut => .remoting "connection failed: timed out"
  | closed | applicationClosed | reset | locallyClosed => .connectionClosed

/-- Why a frame cannot be written. -/
inductive WriteFault where
  /-- The peer wants no more. -/
  | stopped (code : Nat)
  /-- The connection was lost. -/
  | connectionLost (fault : ConnectionFault)
  /-- The stream is not known. -/
  | unknownStream
  /-- Early data were refused. -/
  | zeroRttRejected
deriving DecidableEq, Repr

/-- The fault of a name; `code` and `fault` are what some of them hold. -/
def WriteFault.ofName (name : String) (code : Nat) (fault : ConnectionFault) : WriteFault :=
  match name with
  | "Stopped" => stopped code
  | "ConnectionLost" => connectionLost fault
  | "UnknownStream" => unknownStream
  | _ => zeroRttRejected

/-- What a failed write is reported as. -/
def WriteFault.toFailure : WriteFault → Failure
  | stopped code => .remoting ("write failed: sending stopped by peer: error " ++ toString code)
  | connectionLost fault => fault.toFailure
  | unknownStream => .remoting "write failed: unknown stream"
  | zeroRttRejected => .remoting "write failed: 0-RTT rejected"

/-- Why a frame cannot be read. -/
inductive ReadFault where
  /-- The stream ended inside a frame. -/
  | finishedEarly
  /-- The peer gave the stream up. -/
  | reset (code : Nat)
  /-- The connection was lost. -/
  | connectionLost (fault : ConnectionFault)
  /-- The stream is not known. -/
  | unknownStream
  /-- Reading in order after reading out of order. -/
  | illegalOrderedRead
  /-- Early data were refused. -/
  | zeroRttRejected
deriving DecidableEq, Repr

/-- The fault of a name; `code` and `fault` are what some of them hold. -/
def ReadFault.ofName (name : String) (code : Nat) (fault : ConnectionFault) : ReadFault :=
  match name with
  | "FinishedEarly" => finishedEarly
  | "Reset" => reset code
  | "ConnectionLost" => connectionLost fault
  | "UnknownStream" => unknownStream
  | "IllegalOrderedRead" => illegalOrderedRead
  | _ => zeroRttRejected

/-- What a failed read is reported as. -/
def ReadFault.toFailure : ReadFault → Failure
  | finishedEarly => .connectionClosed
  | reset code => .remoting ("read failed: stream reset by peer: error " ++ toString code)
  | connectionLost fault => fault.toFailure
  | unknownStream => .remoting "read failed: unknown stream"
  | illegalOrderedRead => .remoting "read failed: ordered read after unordered read"
  | zeroRttRejected => .remoting "read failed: 0-RTT rejected"

/-- Why a certificate or a key is refused. -/
inductive CertificateFault where
  /-- Described in words. -/
  | general (text : String)
  /-- The peer sent none. -/
  | noCertificatesPresented
  /-- A message cannot be decrypted. -/
  | decryptError
  /-- The handshake has not ended. -/
  | handshakeNotComplete
  /-- The peer's certificate cannot be read. -/
  | badEncoding
  /-- A certificate cannot be read. -/
  | unreadableCertificate
  /-- A key pair cannot be read. -/
  | unreadableKeyPair
  /-- A host's number has an impossible length. -/
  | ipAddressLength (bytes : Nat)
deriving DecidableEq, Repr

/-- The fault of a name; `text` and `bytes` are what some of them hold. -/
def CertificateFault.ofName (name text : String) (bytes : Nat) : CertificateFault :=
  match name with
  | "General" => general text
  | "NoCertificatesPresented" => noCertificatesPresented
  | "DecryptError" => decryptError
  | "HandshakeNotComplete" => handshakeNotComplete
  | "InvalidCertificate" => badEncoding
  | "CouldNotParseCertificate" => unreadableCertificate
  | "CouldNotParseKeyPair" => unreadableKeyPair
  | _ => ipAddressLength bytes

/-- What a refused certificate is reported as. -/
def CertificateFault.toFailure : CertificateFault → Failure
  | general text => .tls ("unexpected error: " ++ text)
  | noCertificatesPresented => .tls "peer sent no certificates"
  | decryptError => .tls "cannot decrypt peer's message"
  | handshakeNotComplete => .tls "handshake not complete"
  | badEncoding => .tls "invalid peer certificate: BadEncoding"
  | unreadableCertificate => .tls "Could not parse certificate"
  | unreadableKeyPair => .tls "Could not parse key pair"
  | ipAddressLength bytes =>
    .tls ("Invalid IP address octet length of " ++ toString bytes ++ " bytes")

end Switchboard
