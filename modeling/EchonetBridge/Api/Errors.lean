import Mathlib.Data.Nat.Notation

/-!
# Api/Errors — the errors of the middleware API

`EpcError` carries the code of the property it is about; `MiddlewareError` and `HexStringError`
are the errors of the values inside, with the texts they are shown as when a property wraps them.
-/

namespace Echonet

/-- EPC errors. -/
inductive EpcError where
  /-- The EPC code is not valid for this property. -/
  | invalidCode (epc actualEpc : UInt8)
  /-- The value for the EPC code is not correct (type and/or size). -/
  | invalidValue (epc : UInt8) (msg : String)
  /-- Type conversion failed when downcasting. -/
  | invalidType (epc : UInt8)
  /-- The EPC is not implemented by the node. -/
  | notAvailable (epc : UInt8)
  /-- The EPC is not supported on this object. -/
  | notSupported (epc : UInt8)
  /-- The operation is not allowed by an access rule. -/
  | operationNotAllowed (epc : UInt8)
  /-- The operation is not implemented by the node for this EPC. -/
  | operationNotImplemented (epc : UInt8)
  /-- The value has not been set yet. -/
  | noValue (epc : UInt8)
  /-- The value is too large (overflow). -/
  | valueTooLarge (epc : UInt8) (msg : String)
  /-- Validation of the value failed. -/
  | validationFailed (epc : UInt8)
  /-- Error when converting the value between types. -/
  | typeConverstionError (epc : UInt8) (msg : String)
  /-- Error when obtaining the value. -/
  | valueError (epc : UInt8) (msg : String)
  deriving DecidableEq, Repr

/-- Middleware errors. -/
inductive MiddlewareError where
  /-- A communications error on a channel or socket. -/
  | queueFailure (msg : String)
  /-- An invalid value was provided. -/
  | invalidValue (msg : String)
  deriving DecidableEq, Repr

/-- The text a middleware error is shown as. -/
def MiddlewareError.display : MiddlewareError → String
  | queueFailure msg => s!"Queue message failure: {msg}"
  | invalidValue msg => s!"An invalid value was provided: {msg}"

/-- HexString errors. -/
inductive HexStringError where
  /-- The source contained invalid characters. -/
  | invalidCharacter
  /-- The buffer length is too small. -/
  | bufferTooSmall
  deriving DecidableEq, Repr

/-- The text a hex string error is shown as. -/
def HexStringError.display : HexStringError → String
  | invalidCharacter => "Invalid characters in hex value"
  | bufferTooSmall => "The value is larger than the buffer allows"

end Echonet
