import EchonetBridge.Epc.Families

/-!
# Epc/Factory — the property of an EPC

`propertyFactory` builds the property of an EPC code for the class of an object: the codes from
`0x80` to `0x9f` are shared by all classes, and the node profile has codes of its own.
-/

namespace Echonet

open BigEndian Outcome

/-! ## Codes -/

def epcOperatingStatus : UInt8 := 0x80

def epcInstallationLocation : UInt8 := 0x81

def epcVersionInformation : UInt8 := 0x82

def epcIdentificationNumber : UInt8 := 0x83

def epcMeasuredInstantaneousPowerConsumption : UInt8 := 0x84

def epcMeasuredCumulativePowerConsumption : UInt8 := 0x85

def epcManufacturersFaultCode : UInt8 := 0x86

def epcCurrentLimitSetting : UInt8 := 0x87

def epcFaultStatus : UInt8 := 0x88

def epcFaultContent : UInt8 := 0x89

def epcManufacturerCode : UInt8 := 0x8a

def epcBusinessFacilityCode : UInt8 := 0x8b

def epcProductCode : UInt8 := 0x8c

def epcSerialNumber : UInt8 := 0x8d

def epcProductionDate : UInt8 := 0x8e

def epcPowerSaving : UInt8 := 0x8f

def epcRemoteControl : UInt8 := 0x93

def epcCurrentTime : UInt8 := 0x97

def epcCurrentDate : UInt8 := 0x98

def epcPowerLimit : UInt8 := 0x99

def epcCumulativeOperatingTime : UInt8 := 0x9a

def epcAnnouncementPropertyMap : UInt8 := 0x9d

def epcSetPropertyMap : UInt8 := 0x9e

def epcGetPropertyMap : UInt8 := 0x9f

def epcUniqueIdentifierData : UInt8 := 0xbf

def epcNumberOfSelfnodeInstances : UInt8 := 0xd3

def epcNumberOfSelfnodeClasses : UInt8 := 0xd4

def epcInstanceListNotification : UInt8 := 0xd5

def epcSelfnodeInstanceListS : UInt8 := 0xd6

def epcSelfnodeClassListS : UInt8 := 0xd7

def epcOperationStatusOn : UInt8 := 0x30

def epcOperationStatusOff : UInt8 := 0x31

def nodeMessageFormatSpecified : UInt8 := 0x01

def nodeMessageFormatArbitrary : UInt8 := 0x02

/-! ## Sources -/

def epcDocsourceDeviceNone : UInt16 := 0x0000

def epcDocsourceDeviceSuperclass : UInt16 := 0x0001

def epcDocsourceProfileNone : UInt16 := 0x0000

def epcDocsourceProfileSuperclass : UInt16 := 0x0100

def epcDocsourceProfileClass : UInt16 := 0x0200

/-! ## Installation location -/

section InstallationLocation

variable {F : Type}

open NodeObjectInstallationLocation

/-- The byte of a room: the number is widened to all of its bits. -/
def roomInternal (room number : UInt8) : Outcome EpcError (List UInt8) :=
  .ok [0x00, 0x00, room ||| (number ||| 0x07)]

def installationLocationFromCanonical : FromCanonicalType (NodeObjectInstallationLocation F) :=
  fun _ canonical =>
    match canonical with
    | livingRoom number => roomInternal 0x08 number
    | diningRoom number => roomInternal 0x10 number
    | kitchen number => roomInternal 0x18 number
    | bathroom number => roomInternal 0x20 number
    | lavatory number => roomInternal 0x28 number
    | washroom number => roomInternal 0x30 number
    | passageway number => roomInternal 0x38 number
    | room number => roomInternal 0x40 number
    | stairway number => roomInternal 0x48 number
    | frontDoor number => roomInternal 0x50 number
    | storeroom number => roomInternal 0x58 number
    | garden number => roomInternal 0x60 number
    | garage number => roomInternal 0x68 number
    | veranda number => roomInternal 0x70 number
    | other number => roomInternal 0x78 number
    | userDefined value => .ok (toBeBytes₃₂ value).toList
    | notSpecified => .ok [0x00, 0x00, 0x00]
    | indefinite => .ok [0x00, 0x00, 0xff]
    | location _ _ _ => .panic
    | locationInformationCode _ => .panic

/-- The location of a byte that is none of the special ones.  Masking with zero never fails, so the
user defined locations are not reached. -/
def roomOf (byte : UInt8) : Outcome EpcError (NodeObjectInstallationLocation F) :=
  if byte &&& 0x00 = 0x00 then
    let number := byte &&& 0x07
    let kind := byte &&& 0x78
    if kind = 0x08 then .ok (livingRoom number)
    else if kind = 0x10 then .ok (diningRoom number)
    else if kind = 0x18 then .ok (kitchen number)
    else if kind = 0x20 then .ok (bathroom number)
    else if kind = 0x28 then .ok (lavatory number)
    else if kind = 0x30 then .ok (washroom number)
    else if kind = 0x38 then .ok (passageway number)
    else if kind = 0x40 then .ok (room number)
    else if kind = 0x48 then .ok (stairway number)
    else if kind = 0x50 then .ok (frontDoor number)
    else if kind = 0x58 then .ok (storeroom number)
    else if kind = 0x60 then .ok (garden number)
    else if kind = 0x68 then .ok (garage number)
    else if kind = 0x70 then .ok (veranda number)
    else if kind = 0x78 then .ok (other number)
    else .panic
  else .ok (userDefined (byte &&& 0x7f).toUInt32)

/-- A location information code is compared with a slice one byte longer than itself. -/
def installationLocationToCanonical : ToCanonicalType (NodeObjectInstallationLocation F) :=
  fun _ internal => do
    let byte ← index internal 2
    if byte = 0x00 then pure notSpecified
    else if byte = 0x01 then do
      let code ← slice internal 3 12
      if code = [0x00, 0x00, 0x1b, 0x00, 0x00, 0x00, 0x00, 0x03] then
        pure (locationInformationCode 0)
      else .panic
    else if byte = 0xff then pure indefinite
    else roomOf byte

/-- The first header byte is compared where the first payload byte is meant. -/
def installationLocationValidator : ValidatorType (NodeObjectInstallationLocation F) :=
  fun _ internal => do
    let code ← andAlso (internal.length > 2) do
      let first ← index internal 0
      pure (first == 0x01 && internal.length == 17)
    pure (code || internal.length == 3)

end InstallationLocation

/-! ## Version information -/

def errMessagesRequired : String := "specified or arbitrary messages must be supported"

def profileVersionFromCanonical : FromCanonicalType NodeProfileObjectEchonetLiteSupportedVersion :=
  fun np canonical =>
    if canonical.specifiedMessage || canonical.arbituraryMessage then
      .ok [0x00, 0x00, canonical.majorVersion, canonical.minorVersion,
        (if canonical.specifiedMessage then nodeMessageFormatSpecified else 0x00) |||
          (if canonical.arbituraryMessage then nodeMessageFormatArbitrary else 0x00), 0x00]
    else .err (.invalidValue np.epc errMessagesRequired)

def profileVersionToCanonical : ToCanonicalType NodeProfileObjectEchonetLiteSupportedVersion :=
  fun _ internal => do
    let majorVersion ← index internal 2
    let minorVersion ← index internal 3
    let messages ← index internal 4
    pure ⟨majorVersion, minorVersion,
      messages &&& nodeMessageFormatSpecified == nodeMessageFormatSpecified,
      messages &&& nodeMessageFormatArbitrary == nodeMessageFormatArbitrary⟩

def profileVersionValidator : ValidatorType NodeProfileObjectEchonetLiteSupportedVersion :=
  fun epc internal =>
    if internal.length = 6 then do
      let messages ← index internal 4
      if messages &&& nodeMessageFormatSpecified = nodeMessageFormatSpecified ∨
          messages &&& nodeMessageFormatArbitrary = nodeMessageFormatArbitrary then pure true
      else .err (.invalidValue epc.epc errMessagesRequired)
    else .err (.invalidValue epc.epc (errInvalidLength 6 internal.length))

def deviceVersionFromCanonical : FromCanonicalType NodeDeviceObjectEchonetLiteSupportedVersion :=
  fun _ canonical =>
    .ok [0x00, 0x00, 0x00, 0x00, UInt8.ofNat canonical.release.toUpper.toNat, canonical.revision]

/-- The release and the revision are read from the first two bytes, and written to the last two. -/
def deviceVersionToCanonical : ToCanonicalType NodeDeviceObjectEchonetLiteSupportedVersion :=
  fun _ internal => do
    let release ← index internal 2
    let revision ← index internal 3
    pure ⟨Text.byteChar release, revision⟩

def deviceVersionValidator : ValidatorType NodeDeviceObjectEchonetLiteSupportedVersion :=
  fun epc internal =>
    if internal.length = 6 then do
      let release ← index internal 4
      if release < 0x80 then pure true else .err (.invalidValue epc.epc "invalid release")
    else .err (.invalidValue epc.epc (errInvalidLength 6 internal.length))

/-! ## Identification number and fault codes -/

/-- The length of the payload is compared with that of the whole buffer, and the class with the
first header byte. -/
def identificationValidator (isProfile : Bool) : ValidatorType HexString :=
  fun epc internal =>
    if internal.length = 17 then do
      let identifierClass ← index internal 0
      if isProfile then
        if identifierClass = 0xfe then pure true
        else .err (.invalidValue epc.epc "Invalid identifier class")
      else if identifierClass = 0x00 ∨ identifierClass = 0xfe ∨ identifierClass = 0xff then
        pure true
      else .err (.invalidValue epc.epc "Invalid identifier class")
    else .err (.invalidValue epc.epc s!"expected 17 bytes found {internal.length}")

/-- A hex string decoded into the tail of a buffer. -/
def decodeIntoTail (epc : UInt8) (h : HexString) (buf : List UInt8) (start : ℕ) :
    Outcome EpcError (List UInt8) := do
  let tail ← sliceFrom buf start
  match h.decodeIntoSlice tail with
  | (.ok (), out) => pure (buf.take start ++ out)
  | (.err e, _) => .err (.invalidValue epc e.display)
  | (.panic, _) => .panic

/-- The manufacturer code is decoded into the whole payload, and the fault code over its tail. -/
def faultCodeFromCanonical : FromCanonicalType NodeObjectManufacturerFaultCode :=
  fun epc canonical => do
    let bufLen := canonical.manufacturerCode.byteLen + canonical.faultCode.byteLen + 2
    let buf ← decodeIntoTail epc.epc canonical.manufacturerCode (List.replicate bufLen 0x00) 2
    decodeIntoTail epc.epc canonical.faultCode buf 5

def faultCodeToCanonical : ToCanonicalType NodeObjectManufacturerFaultCode :=
  fun epc internal => do
    let manufacturerBytes ← slice internal 2 5
    let manufacturerCode ← (HexString.fromBytes manufacturerBytes 3).mapErr fun e =>
      .invalidValue epc.epc e.display
    let faultBytes ← sliceFrom internal 5
    let faultLen ← checkedSub internal.length 5
    let faultCode ← (HexString.fromBytes faultBytes faultLen).mapErr fun e =>
      .invalidValue epc.epc e.display
    pure ⟨manufacturerCode, faultCode⟩

def faultCodeValidator : ValidatorType NodeObjectManufacturerFaultCode :=
  fun epc internal =>
    if internal.length ≥ 5 then .ok true
    else .err (.invalidValue epc.epc
      s!"Required length must be greater than {5}, was {internal.length}")

def faultContentFromCanonical : FromCanonicalType NodeObjectFaultDescription :=
  fun _ canonical => .ok (0x00 :: 0x00 :: (toBeBytes₁₆ canonical.toU16).toList)

def faultContentToCanonical : ToCanonicalType NodeObjectFaultDescription :=
  fun epc internal => do
    let bytes ← sliceFrom internal 2
    let buf ← toArray 2 bytes
    (NodeObjectFaultDescription.tryFromU16 (fromBeBytes₁₆ buf)).mapErr fun msg =>
      .invalidValue epc.epc msg

/-- What is resolved is the value that is stored, not the one that is validated. -/
def faultContentValidator : ValidatorType NodeObjectFaultDescription :=
  fun epc internal => do
    let _ ← validateLength epc.epc internal 2
    let _ ← epc.toCanonical
    pure true

/-! ## Remote control -/

def remoteControlFromCanonical : FromCanonicalType NodeObjectRemoteControl :=
  fun _ canonical =>
    .ok [0x00, 0x00, (if canonical.networkType = .nonPublic then 0x41 else 0x42) |||
      (if canonical.networkStatus = .ok then 0x60 else 0x00)]

def remoteControlToCanonical : ToCanonicalType NodeObjectRemoteControl :=
  fun _ internal => do
    let byte ← index internal 2
    pure ⟨if byte &&& 0x41 = 0x41 then .nonPublic else .publicNetwork,
      if byte &&& 0x60 = 0x60 then .ok else .notOk⟩

def remoteControlValidator : ValidatorType NodeObjectRemoteControl :=
  fun epc internal => do
    let _ ← validateLength epc.epc internal 1
    let byte ← index internal 2
    if byte &&& 0x40 = 0x40 ∧ byte &&& 0x03 ≠ 0x00 then pure true
    else .err (.invalidValue epc.epc "Invalid boolean value")

/-! ## The factory -/

/-- Create the properties for the node profile. -/
def propertyFactoryClassProfile (epc : UInt8) : Outcome EpcError EpcWrapper :=
  if epc = epcUniqueIdentifierData then
    integerProperty NodeObjectUniqueIdentifier "Unique Identifier Data" epc
      (epcDocsourceDeviceNone ||| epcDocsourceProfileClass) false .supported .supported
  else if epc = epcNumberOfSelfnodeInstances then
    integerProperty NodeObjectInstanceCount "Number of Self-Node Instances" epc
      (epcDocsourceDeviceNone ||| epcDocsourceProfileClass) false .mandatory .notSupported
  else if epc = epcNumberOfSelfnodeClasses then
    integerProperty UInt16 "Number of Self-Node Classes" epc
      (epcDocsourceDeviceNone ||| epcDocsourceProfileClass) false .mandatory .notSupported
  else if epc = epcInstanceListNotification then
    eojArrayProperty "Instance List Notification" epc
      (epcDocsourceDeviceNone ||| epcDocsourceProfileClass) true .notSupported .notSupported
  else if epc = epcSelfnodeInstanceListS then
    eojArrayProperty "Self-Node Instance List S" epc
      (epcDocsourceDeviceNone ||| epcDocsourceProfileClass) false .mandatory .notSupported
  else if epc = epcSelfnodeClassListS then
    eojArrayProperty "Self-Node Class List S" epc
      (epcDocsourceDeviceNone ||| epcDocsourceProfileClass) false .mandatory .notSupported
  else .err (.notAvailable epc)

/-- Property factory for any given group/class and EPC. -/
def propertyFactory (F : Type) [F64 F] [Chrono] (groupClass : NodeGroupClass) (epc : UInt8) :
    Outcome EpcError EpcWrapper :=
  let isProfile := groupClass.classGroupCode == eojClassGroupProfile
  if epc ≥ 0x80 ∧ epc < 0xa0 then
    if epc = epcOperatingStatus then
      booleanProperty "Operating Status" epc
        (epcDocsourceDeviceSuperclass ||| epcDocsourceProfileClass) true .mandatory .supported
        epcOperationStatusOn epcOperationStatusOff
    else if epc = epcInstallationLocation then
      generalProperty "Installation Location" epc
        (epcDocsourceDeviceSuperclass ||| epcDocsourceProfileNone) true .mandatory .mandatory
        (installationLocationFromCanonical (F := F)) installationLocationToCanonical
        installationLocationValidator
    else if epc = epcVersionInformation then
      if isProfile then
        generalProperty "Version Information" epc
          (epcDocsourceDeviceSuperclass ||| epcDocsourceProfileClass) false .mandatory .notSupported
          profileVersionFromCanonical profileVersionToCanonical profileVersionValidator
      else
        generalProperty "Version Information" epc
          (epcDocsourceDeviceSuperclass ||| epcDocsourceProfileClass) false .mandatory .notSupported
          deviceVersionFromCanonical deviceVersionToCanonical deviceVersionValidator
    else if epc = epcIdentificationNumber then
      hexStringProperty "Identification number" epc
        (epcDocsourceDeviceSuperclass ||| epcDocsourceProfileClass) false .mandatory .notSupported
        (identificationValidator isProfile)
    else if epc = epcMeasuredInstantaneousPowerConsumption then
      integerProperty UInt16 "Measured Instantaneous Power Consumption (W)" epc
        (epcDocsourceDeviceSuperclass ||| epcDocsourceProfileNone) false .supported .notSupported
    else if epc = epcMeasuredCumulativePowerConsumption then
      unsignedIntegerPackedFloatProperty 4 "Measured Cumulative Power Consumption (kWh)" epc
        (epcDocsourceDeviceSuperclass ||| epcDocsourceProfileNone) false .supported .notSupported
        (F64.ofDecimal 999999999 3 : F) 3
    else if epc = epcManufacturersFaultCode then
      generalProperty "Manufacturer's fault Code" epc
        (epcDocsourceDeviceSuperclass ||| epcDocsourceProfileNone) false .supported .notSupported
        faultCodeFromCanonical faultCodeToCanonical faultCodeValidator
    else if epc = epcCurrentLimitSetting then
      unsignedIntegerPackedFloatProperty 1 "Current Limit Setting (%)" epc
        (epcDocsourceDeviceSuperclass ||| epcDocsourceProfileNone) false .supported .supported
        (F64.ofDecimal 1000 1 : F) 0
    else if epc = epcFaultStatus then
      booleanProperty "Fault Status" epc
        (epcDocsourceDeviceSuperclass ||| epcDocsourceProfileSuperclass) (!isProfile) .supported
        .notSupported 0x41 0x42
    else if epc = epcFaultContent then
      generalProperty "Fault Content (Fault Description)" epc
        (epcDocsourceDeviceSuperclass ||| epcDocsourceProfileClass) false .supported .notSupported
        faultContentFromCanonical faultContentToCanonical faultContentValidator
    else if epc = epcManufacturerCode then
      hexStringProperty "Manufacturer Code" epc
        (epcDocsourceDeviceSuperclass ||| epcDocsourceProfileSuperclass) false .mandatory
        .notSupported fun epc internal => validateLength epc.epc internal 3
    else if epc = epcBusinessFacilityCode then
      hexStringProperty "Business Facility Code (Place of Business Code)" epc
        (epcDocsourceDeviceSuperclass ||| epcDocsourceProfileSuperclass) false .supported
        .notSupported fun epc internal => validateLength epc.epc internal 3
    else if epc = epcProductCode then
      asciiStringProperty "Product Code" epc
        (epcDocsourceDeviceSuperclass ||| epcDocsourceProfileSuperclass) false .supported
        .notSupported fun epc internal => validateLength epc.epc internal 12
    else if epc = epcSerialNumber then
      asciiStringProperty "Serial Number (Production Number)" epc
        (epcDocsourceDeviceSuperclass ||| epcDocsourceProfileSuperclass) false .supported
        .notSupported fun epc internal => validateLength epc.epc internal 12
    else if epc = epcProductionDate then
      dateProperty "Production Date (Date of Manufacture)" epc
        (epcDocsourceDeviceSuperclass ||| epcDocsourceProfileSuperclass) false .supported
        .notSupported fun _ _ => .ok true
    else if epc = epcPowerSaving then
      booleanProperty "Power Saving" epc
        (epcDocsourceDeviceSuperclass ||| epcDocsourceProfileNone) false .supported .supported
        0x41 0x42
    else if epc = epcRemoteControl then
      generalProperty "Remote Control" epc
        (epcDocsourceDeviceSuperclass ||| epcDocsourceProfileNone) false .supported .supported
        remoteControlFromCanonical remoteControlToCanonical remoteControlValidator
    else if epc = epcCurrentTime then
      timeProperty "Current Time" epc
        (epcDocsourceDeviceSuperclass ||| epcDocsourceProfileNone) false .supported .supported
        fun _ _ => .ok true
    else if epc = epcCurrentDate then
      dateProperty "Current Date" epc
        (epcDocsourceDeviceSuperclass ||| epcDocsourceProfileNone) false .supported .supported
        fun _ _ => .ok true
    else if epc = epcPowerLimit then
      integerProperty UInt16 "Power Limit (W)" epc
        (epcDocsourceDeviceSuperclass ||| epcDocsourceProfileNone) false .supported .supported
    else if epc = epcCumulativeOperatingTime then
      durationProperty "Cumulative Operating Time" epc
        (epcDocsourceDeviceSuperclass ||| epcDocsourceProfileNone) false .supported .notSupported
        fun _ _ => .ok true
    else if epc = epcAnnouncementPropertyMap then
      propertyMapProperty "Status change announcement property map" epc
        (epcDocsourceDeviceSuperclass ||| epcDocsourceProfileSuperclass) false .mandatory
        .notSupported
    else if epc = epcSetPropertyMap then
      propertyMapProperty "Set operation property map" epc
        (epcDocsourceDeviceSuperclass ||| epcDocsourceProfileSuperclass) false .mandatory
        .notSupported
    else if epc = epcGetPropertyMap then
      propertyMapProperty "Get operation property map" epc
        (epcDocsourceDeviceSuperclass ||| epcDocsourceProfileSuperclass) false .mandatory
        .notSupported
    else .err (.notAvailable epc)
  else if epc ≥ 0xa0 ∧ epc < 0xf0 then
    if groupClass = classProfileNodeProfile then propertyFactoryClassProfile epc
    else .err (.notAvailable epc)
  else .err (.notAvailable epc)

/-- The factory over the model calendar and the floating-point numbers of the host. -/
abbrev hostFactory (groupClass : NodeGroupClass) (epc : UInt8) : Outcome EpcError EpcWrapper :=
  @propertyFactory Float _ Calendar.chrono groupClass epc

end Echonet
