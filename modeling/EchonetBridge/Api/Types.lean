import EchonetBridge.Api.HexStringDecode

/-!
# Api/Types — the canonical values of the properties

The enumerations and records that properties hold, with their conversions to and from the codes of
the specification.
-/

namespace Echonet

/-! ## Access rules -/

/-- Get/Set access rules. -/
inductive EpcAccessRule where
  /-- The operation is not supported. -/
  | notSupported
  /-- The operation is supported. -/
  | supported
  /-- The operation is mandatory, which implies supported. -/
  | mandatory
  deriving DecidableEq, Repr

/-! ## Fault descriptions -/

/-- Details of a fault. -/
inductive NodeObjectFaultDescription where
  | none
  | recoverableByPowerCycle
  | recoverableByReset
  | recoverableByPhysicalAdjustment
  | recoverableByAdditionalResources
  | recoverableByCleaning
  | recoverableBatteryReplacement
  | recoverableUserDefined (code : UInt8)
  | repairSafetyDevice (index : UInt8)
  | repairSwitch (index : UInt8)
  | repairSensor (index : UInt8)
  | repairComponent (index : UInt8)
  | repairControlBoard (index : UInt8)
  | repairUserDefined (code : UInt16)
  | echonetMiddleware (code : UInt16)
  | indeterminate
  deriving DecidableEq, Repr

namespace NodeObjectFaultDescription

/-- The description of a code in the range that is read by its low byte. -/
def ofLowByte (lowByte highByte : UInt8) : Outcome String NodeObjectFaultDescription :=
  if lowByte = 0x01 then .ok recoverableByPowerCycle
  else if lowByte = 0x02 then .ok recoverableByReset
  else if lowByte = 0x03 then .ok recoverableByPhysicalAdjustment
  else if lowByte = 0x04 then .ok recoverableByAdditionalResources
  else if lowByte = 0x05 then .ok recoverableByCleaning
  else if lowByte = 0x06 then .ok recoverableBatteryReplacement
  else if lowByte = 0x09 then .ok (recoverableUserDefined highByte)
  else if lowByte ≥ 0x0a ∧ lowByte ≤ 0x13 then .ok (repairSafetyDevice (lowByte - 0x0a))
  else if lowByte ≥ 0x14 ∧ lowByte ≤ 0x1d then .ok (repairSwitch (lowByte - 0x14))
  else if lowByte ≥ 0x1e ∧ lowByte ≤ 0x3b then .ok (repairSensor (lowByte - 0x1e))
  else if lowByte ≥ 0x3c ∧ lowByte ≤ 0x59 then .ok (repairComponent (lowByte - 0x3c))
  else if lowByte ≥ 0x5a ∧ lowByte ≤ 0x6e then .ok (repairControlBoard (lowByte - 0x5a))
  else .err "Invalid value"

/-- Create from a u16 value. -/
def tryFromU16 (value : UInt16) : Outcome String NodeObjectFaultDescription :=
  let lowByte := (0x00ff &&& value).toUInt8
  let highByte := ((0xff &&& value) >>> 8).toUInt8
  if (highByte = 0x00 ∨ highByte ≥ 0x04) ∧ lowByte < 0x6f then ofLowByte lowByte highByte
  else if value = 0x0000 then .ok none
  else if value ≥ 0x006f ∧ value ≤ 0x03e8 then .ok (repairUserDefined value)
  else if value ≥ 0x03e9 ∧ value ≤ 0x03ec then .ok (echonetMiddleware value)
  else if value = 0x03ff then .ok indeterminate
  else .err "Invalid value"

/-- Convert to a u16. -/
def toU16 : NodeObjectFaultDescription → UInt16
  | none => 0x0000
  | recoverableByPowerCycle => 0x0001
  | recoverableByReset => 0x0002
  | recoverableByPhysicalAdjustment => 0x0003
  | recoverableByAdditionalResources => 0x0004
  | recoverableByCleaning => 0x0005
  | recoverableBatteryReplacement => 0x0006
  | recoverableUserDefined highByte => (highByte.toUInt16 <<< 8) ||| 0x0009
  | repairSafetyDevice index => 0x000a + index.toUInt16
  | repairSwitch index => 0x0014 + index.toUInt16
  | repairSensor index => 0x001e + index.toUInt16
  | repairComponent index => 0x003c + index.toUInt16
  | repairControlBoard index => 0x005a + index.toUInt16
  | repairUserDefined value => value
  | echonetMiddleware value => value
  | indeterminate => 0x03ff

end NodeObjectFaultDescription

/-! ## Locations, networks and versions -/

/-- Where an object is installed; coordinates are of the floating-point type `F`. -/
inductive NodeObjectInstallationLocation (F : Type) where
  | livingRoom (number : UInt8)
  | diningRoom (number : UInt8)
  | kitchen (number : UInt8)
  | bathroom (number : UInt8)
  | lavatory (number : UInt8)
  | washroom (number : UInt8)
  | passageway (number : UInt8)
  | room (number : UInt8)
  | stairway (number : UInt8)
  | frontDoor (number : UInt8)
  | storeroom (number : UInt8)
  | garden (number : UInt8)
  | garage (number : UInt8)
  | veranda (number : UInt8)
  | other (number : UInt8)
  | userDefined (value : UInt32)
  | notSpecified
  | indefinite
  | location (longitude latitude elevation : F)
  | locationInformationCode (code : UInt64)

inductive NetworkType where
  | publicNetwork
  | nonPublic
  deriving DecidableEq, Repr

inductive NetworkStatus where
  | ok
  | notOk
  deriving DecidableEq, Repr

/-- The version information and message types of a profile object. -/
structure NodeProfileObjectEchonetLiteSupportedVersion where
  majorVersion : UInt8
  minorVersion : UInt8
  specifiedMessage : Bool
  arbituraryMessage : Bool
  deriving DecidableEq, Repr

/-- The version information of a device object. -/
structure NodeDeviceObjectEchonetLiteSupportedVersion where
  release : Char
  revision : UInt8
  deriving DecidableEq, Repr

/-- Remote control setting. -/
structure NodeObjectRemoteControl where
  networkType : NetworkType
  networkStatus : NetworkStatus
  deriving DecidableEq, Repr

/-! ## Identifiers and lists -/

/-- Holder for Unique Identifier Data. -/
structure NodeObjectUniqueIdentifier where
  value : UInt16
  deriving DecidableEq, Repr

/-- Holder for the node instance count, a number of three bytes. -/
structure NodeObjectInstanceCount where
  value : UInt32
  deriving DecidableEq, Repr

/-- Holder for the manufacturer's fault code. -/
structure NodeObjectManufacturerFaultCode where
  manufacturerCode : HexString
  faultCode : HexString
  deriving DecidableEq

/-- ECHONET Lite object specification: the address of an object in its node. -/
structure EOJ where
  classGroupCode : UInt8
  classCode : UInt8
  instanceCode : UInt8
  deriving DecidableEq, Repr

namespace EOJ

/-- Raw copy of three bytes. -/
def fromBytes (buf : Vector UInt8 3) : EOJ := ⟨buf[0], buf[1], buf[2]⟩

/-- The three bytes of the packed struct. -/
def asBytes (eoj : EOJ) : List UInt8 := [eoj.classGroupCode, eoj.classCode, eoj.instanceCode]

end EOJ

/-- The group and class of an object. -/
structure NodeGroupClass where
  classGroupCode : UInt8
  classCode : UInt8
  deriving DecidableEq, Repr

def eojClassGroupControl : UInt8 := 0x05

def eojClassGroupProfile : UInt8 := 0x0e

def classProfileNodeProfile : NodeGroupClass := ⟨eojClassGroupProfile, 0xf0⟩

def EOJ.fromGroupclassInstance (groupClass : NodeGroupClass) (inst : UInt8) : EOJ :=
  ⟨groupClass.classGroupCode, groupClass.classCode, inst⟩

end Echonet
