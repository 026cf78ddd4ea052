import EchonetBridge.Api.Types

/-!
# Middleware/Node — the middleware and its events

The middleware acts through the events it sends: `startup` and `shutdown` are the lists of events
that their calls send, one after the other.
-/

namespace Echonet

/-- Events known to the middleware. -/
inductive Event where
  | startup
  | shutdown
  | announce (seoj deoj : EOJ)
  deriving DecidableEq, Repr

/-- Node capabilities. -/
inductive NodeType where
  | general
  | transmitOnly
  deriving DecidableEq, Repr

def NodeType.toU8 : NodeType → UInt8
  | general => 0x01
  | transmitOnly => 0x02

/-- The middleware, by the EOJ of its self node's profile object. -/
structure Middleware where
  profileEoj : EOJ

namespace Middleware

/-- The self node is a general node. -/
def new : Middleware := ⟨EOJ.fromGroupclassInstance classProfileNodeProfile NodeType.general.toU8⟩

/-- Initialise the middleware: it sends its startup, and an announcement. -/
def startup (self : Middleware) : List Event :=
  [.startup, .announce self.profileEoj (EOJ.fromGroupclassInstance classProfileNodeProfile 0x01)]

/-- Shutdown the middleware. -/
def shutdown (_ : Middleware) : List Event := [.shutdown]

end Middleware

end Echonet
