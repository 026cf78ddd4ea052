import EchonetBridge.Foundations.Outcome
import EchonetBridge.Middleware.Node

/-!
# Connectors/Network — sending events to the network

Announcements go to all multicast sockets; other events are not sent.
-/

namespace Echonet

/-- Errors of the network and of wire representations. -/
inductive ConnectorError where
  | configurationError (msg : String)
  | mismatchedTypes
  | ioError (msg : String)
  | osError (msg : String)
  deriving DecidableEq, Repr

namespace Network

/-- Convert a message to wire format: the source has no format yet, and writes nothing. -/
def toWire (_ : Event) : Outcome ConnectorError (List UInt8) := .ok []

/-- Send an event to all multicast sockets: the data is built, and goes nowhere yet. -/
def sendMulticast (event : Event) : Outcome ConnectorError Unit := do
  let _ ← toWire event
  pure ()

/-- Convert a message and send it. -/
def send (event : Event) : Outcome ConnectorError Unit :=
  match event with
  | .announce _ _ => sendMulticast event
  | _ => pure ()

end Network

end Echonet
