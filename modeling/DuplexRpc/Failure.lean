import DuplexRpc.Envelope
import DuplexRpc.Payload
import DuplexRpc.Text.Quoted

/-!
# Failures

What can go wrong on a connection. A protocol error ends the connection on which it
occurs. A call error is what the caller of a procedure on the other end gets to see;
most of them leave the connection as it is.
-/

namespace DuplexRpc

/-- What can go wrong with the stream below a connection. -/
inductive TransportFault
  /-- A frame is longer than the end that reads or writes it allows. -/
  | frameTooBig
  /-- The stream ended within a frame. -/
  | bytesRemaining
  /-- The far end does not read any more. -/
  | brokenPipe
  deriving DecidableEq, Repr

def TransportFault.message : TransportFault → String
  | frameTooBig => "frame size too big"
  | bytesRemaining => "bytes remaining on stream"
  | brokenPipe => "broken pipe"

/-- Why a handshake cannot be understood. -/
inductive HandshakeFault
  | closed
  | notText
  | unexpectedReply (reply : String)
  deriving DecidableEq, Repr

def HandshakeFault.message : HandshakeFault → String
  | closed => "connection closed during handshake"
  | notText => "handshake frame is not UTF-8"
  | unexpectedReply reply => "unexpected reply " ++ Text.quote reply

/-- Why a connection ended, unless it was closed. -/
inductive ProtocolError
  | versionMismatch (expected received : String)
  | handshakeRejected (version : String)
  | invalidHandshake (fault : HandshakeFault)
  | malformedEnvelope
  | invalidData (procedure : String) (error : PayloadError)
  | unknownProcedure (name : String)
  | transport (fault : TransportFault)
  deriving DecidableEq, Repr

def ProtocolError.message : ProtocolError → String
  | versionMismatch expected received =>
    "invalid protocol version: expected " ++ Text.quote expected ++ ", received " ++
      Text.quote received
  | handshakeRejected version =>
    "protocol version " ++ Text.quote version ++ " was rejected by the server"
  | invalidHandshake fault => "invalid handshake: " ++ fault.message
  | malformedEnvelope => "malformed envelope"
  | invalidData procedure error =>
    "invalid data for procedure `" ++ procedure ++ "`: " ++ error.message
  | unknownProcedure name => "unknown procedure `" ++ name ++ "`"
  | transport fault => "transport error: " ++ fault.message

inductive CallError
  | unknownProcedure (name : String)
  | invalidData (error : PayloadError)
  | remote (error : RemoteError)
  | connectionClosed
  deriving DecidableEq, Repr

def CallError.message : CallError → String
  | unknownProcedure name => "unknown procedure `" ++ name ++ "`"
  | invalidData error => "invalid data: " ++ error.message
  | remote error => "remote error: " ++ error.display
  | connectionClosed => "connection closed"

end DuplexRpc
