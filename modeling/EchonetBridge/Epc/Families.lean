import EchonetBridge.Api.PropertyMap
import EchonetBridge.Epc.External
import EchonetBridge.Epc.Property
import EchonetBridge.Foundations.BigEndian

/-!
# Epc/Families — the kinds of properties

Each kind of property is a factory with the three functions it hands to `generalProperty`: the
encoder, the decoder and the validator, which are called with a buffer that starts with the two
header bytes.
-/

namespace Echonet

open BigEndian Outcome Text

/-! ## General properties -/

/-- A property of any canonical type. -/
structure EpcWrapper where
  Canonical : Type
  property : StaticNodeProperty Canonical

/-- A converter from canonical to internal. -/
abbrev FromCanonicalType (T : Type) := EpcRef T → T → Outcome EpcError (List UInt8)

/-- A converter from internal to canonical. -/
abbrev ToCanonicalType (T : Type) := EpcRef T → List UInt8 → Outcome EpcError T

/-- A validator for internal values. -/
abbrev ValidatorType (T : Type) := EpcRef T → List UInt8 → Outcome EpcError Bool

/-- General properties where all properties need to be specified. -/
def generalProperty {T : Type} (name : String) (epc : UInt8) (source : UInt16) (announce : Bool)
    (getOperation setOperation : EpcAccessRule) (fromCanonical : FromCanonicalType T)
    (toCanonical : ToCanonicalType T) (validator : ValidatorType T) :
    Outcome EpcError EpcWrapper :=
  .ok ⟨T, .new name epc source announce getOperation setOperation fromCanonical toCanonical
    validator⟩

def errMsgInvalidBoolean : String := "did not match true or false value"

def errIntegerUnderflow : String := "Integer underflow"

def errIntegerOverflow : String := "Integer overflow"

def errInvalidLength (expected found : ℕ) : String :=
  s!"Invalid length, expected {expected} bytes, found {found}"

/-- A simple length validator support function. -/
def validateLength (epcCode : UInt8) (internal : List UInt8) (len : ℕ) : Outcome EpcError Bool :=
  if internal.length = len + 2 then .ok true
  else .err (.invalidValue epcCode (errInvalidLength (len + 2) internal.length))

/-! ## Booleans -/

def booleanFromCanonical (trueValue falseValue : UInt8) : FromCanonicalType Bool :=
  fun _ canonical => .ok [0x00, 0x00, if canonical then trueValue else falseValue]

def booleanToCanonical (trueValue falseValue : UInt8) : ToCanonicalType Bool :=
  fun epc internal => do
    let value ← index internal 2
    if value = trueValue then pure true
    else if value = falseValue then pure false
    else .err (.invalidValue epc.epc errMsgInvalidBoolean)

/-- The values are compared with the first header byte. -/
def booleanValidator (trueValue falseValue : UInt8) : ValidatorType Bool :=
  fun epc internal =>
    if internal.length ≠ 3 then
      .err (.invalidValue epc.epc (errInvalidLength 3 internal.length))
    else do
      let value ← index internal 0
      if value = trueValue ∨ value = falseValue then pure true
      else .err (.invalidValue epc.epc errMsgInvalidBoolean)

/-- Construct a standard boolean type. -/
def booleanProperty (name : String) (epc : UInt8) (source : UInt16) (announce : Bool)
    (getOperation setOperation : EpcAccessRule) (trueValue falseValue : UInt8) :
    Outcome EpcError EpcWrapper :=
  generalProperty name epc source announce getOperation setOperation
    (booleanFromCanonical trueValue falseValue) (booleanToCanonical trueValue falseValue)
    (booleanValidator trueValue falseValue)

/-! ## Strings -/

def hexStringFromCanonical : FromCanonicalType HexString :=
  fun epc canonical =>
    match canonical.decodeIntoSlice (List.replicate canonical.byteLen 0x00) with
    | (.ok (), buf) => .ok (0x00 :: 0x00 :: buf)
    | (.err e, _) => .err (.invalidValue epc.epc e.display)
    | (.panic, _) => .panic

def hexStringToCanonical : ToCanonicalType HexString :=
  fun _ internal => do
    let bytes ← sliceFrom internal 2
    HexString.ofSlice bytes

/-- General handler for properties that should be treated as hex strings. -/
def hexStringProperty (name : String) (epc : UInt8) (source : UInt16) (announce : Bool)
    (getOperation setOperation : EpcAccessRule) (validator : ValidatorType HexString) :
    Outcome EpcError EpcWrapper :=
  generalProperty name epc source announce getOperation setOperation hexStringFromCanonical
    hexStringToCanonical validator

def errInvalidAscii : String := "Invalid ASCII characters found"

def asciiStringFromCanonical : FromCanonicalType String :=
  fun epc canonical =>
    if isAscii canonical then .ok (0x00 :: 0x00 :: asBytes canonical)
    else .err (.invalidValue epc.epc errInvalidAscii)

def asciiStringToCanonical : ToCanonicalType String :=
  fun _ internal => do
    let bytes ← sliceFrom internal 2
    fromUtf8Unchecked bytes

def asciiStringValidator (validator : ValidatorType String) : ValidatorType String :=
  fun epc internal => do
    let bytes ← sliceFrom internal 2
    if bytes.all (· < 0x80) then validator epc internal
    else .err (.invalidValue epc.epc errInvalidAscii)

/-- General handler for properties that should be treated as ascii strings. -/
def asciiStringProperty (name : String) (epc : UInt8) (source : UInt16) (announce : Bool)
    (getOperation setOperation : EpcAccessRule) (validator : ValidatorType String) :
    Outcome EpcError EpcWrapper :=
  generalProperty name epc source announce getOperation setOperation asciiStringFromCanonical
    asciiStringToCanonical (asciiStringValidator validator)

/-! ## Integers -/

/-- The integer types of the wire, with the byte strings that mark an underflow and an overflow. -/
class Integer (T : Type) where
  size : ℕ
  toBeBytes : T → Vector UInt8 size
  fromBeBytes : Vector UInt8 size → T
  isUnderflow : Vector UInt8 size → Bool
  isOverflow : Vector UInt8 size → Bool

instance : Integer UInt16 where
  size := 2
  toBeBytes := toBeBytes₁₆
  fromBeBytes := fromBeBytes₁₆
  isUnderflow bytes := bytes == #v[0xff, 0xfe]
  isOverflow bytes := bytes == #v[0xff, 0xff]

instance : Integer UInt32 where
  size := 4
  toBeBytes := toBeBytes₃₂
  fromBeBytes := fromBeBytes₃₂
  isUnderflow bytes := bytes == #v[0xff, 0xff, 0xff, 0xfe]
  isOverflow bytes := bytes == #v[0xff, 0xff, 0xff, 0xff]

instance : Integer NodeObjectUniqueIdentifier where
  size := 2
  toBeBytes id := toBeBytes₁₆ id.value
  fromBeBytes bytes := ⟨fromBeBytes₁₆ bytes⟩
  isUnderflow _ := false
  isOverflow _ := false

/-- The three-byte integer: a count that does not fit is written as the overflow marker. -/
instance : Integer NodeObjectInstanceCount where
  size := 3
  toBeBytes count :=
    if count.value ≥ 0x00ffffff then #v[0xff, 0xff, 0xff]
    else
      let bytes := toBeBytes₃₂ count.value
      #v[bytes.get 1, bytes.get 2, bytes.get 3]
  fromBeBytes bytes := ⟨fromBeBytes₃₂ #v[0x00, bytes.get 0, bytes.get 1, bytes.get 2]⟩
  isUnderflow bytes := bytes == #v[0xff, 0xff, 0xfe]
  isOverflow bytes := bytes == #v[0xff, 0xff, 0xff]

section Integers

variable {T : Type} [Integer T]

def integerFromCanonical : FromCanonicalType T :=
  fun _ canonical => .ok (0x00 :: 0x00 :: (Integer.toBeBytes canonical).toList)

def integerToCanonical : ToCanonicalType T :=
  fun _ internal => do
    let bytes ← sliceFrom internal 2
    let buf ← toArray (Integer.size T) bytes
    pure (Integer.fromBeBytes buf)

def integerValidator (validator : ValidatorType T) : ValidatorType T :=
  fun epc internal =>
    if internal.length ≠ Integer.size T + 2 then
      .err (.invalidValue epc.epc (errInvalidLength (Integer.size T + 2) internal.length))
    else do
      let bytes ← sliceFrom internal 2
      let buf ← toArray (Integer.size T) bytes
      if Integer.isUnderflow buf then .err (.invalidValue epc.epc errIntegerUnderflow)
      else if Integer.isOverflow buf then .err (.invalidValue epc.epc errIntegerOverflow)
      else validator epc internal

/-- Generic handler for integer type properties. -/
def integerPropertyValidated (name : String) (epc : UInt8) (source : UInt16) (announce : Bool)
    (getOperation setOperation : EpcAccessRule) (validator : ValidatorType T) :
    Outcome EpcError EpcWrapper :=
  generalProperty name epc source announce getOperation setOperation integerFromCanonical
    integerToCanonical (integerValidator validator)

end Integers

/-- Simple wrapper for integer types whose network value has the size of the canonical value. -/
def integerProperty (T : Type) [Integer T] (name : String) (epc : UInt8) (source : UInt16)
    (announce : Bool) (getOperation setOperation : EpcAccessRule) : Outcome EpcError EpcWrapper :=
  integerPropertyValidated (T := T) name epc source announce getOperation setOperation
    fun _ _ => .ok true

/-! ## Packed decimals -/

section Packed

variable {F : Type} [F64 F]

/-- The value of one digit of the integer, `1.0 / 10.0.powi(precision)`. -/
def packedDivisor (F : Type) [F64 F] (precision : UInt8) : F :=
  F64.div (F64.ofDecimal 1 0) (F64.powi (F64.ofDecimal 10 0) (Int32.ofNat precision.toNat))

/-- The largest integer a value may be packed to. -/
def packedMaxValue (maxValue : F) (precision : UInt8) : F :=
  F64.ceil (F64.div maxValue (packedDivisor F precision))

/-- The largest integer of a size that is not a marker. -/
def packedTypeMaxValue (F : Type) [F64 F] (N : ℕ) : Outcome EpcError F :=
  match N with
  | 1 => .ok (F64.ofU32 (0xff - 2))
  | 2 => .ok (F64.ofU32 (0xffff - 2))
  | 4 => .ok (F64.ofU32 (0xffffffff - 2))
  | _ => .panic

/-- The integer of `N` big-endian bytes. -/
def packedInteger (N : ℕ) (value : List UInt8) : Outcome EpcError UInt32 :=
  match N with
  | 1 => do
    let byte ← index value 0
    pure byte.toUInt32
  | 2 => do
    let buf ← toArray 2 value
    pure (fromBeBytes₁₆ buf).toUInt32
  | 4 => do
    let buf ← toArray 4 value
    pure (fromBeBytes₃₂ buf)
  | _ => .panic

/-- A float written as an integer of `N` bytes; the casts saturate. -/
def packedBytes (N : ℕ) (val : F) : Outcome EpcError (List UInt8) :=
  match N with
  | 1 => .ok [F64.toU8 val]
  | 2 => .ok (toBeBytes₁₆ (F64.toU16 val)).toList
  | 4 => .ok (toBeBytes₃₂ (F64.toU32 val)).toList
  | _ => .panic

def underflowSlice (N : ℕ) : Outcome EpcError (List UInt8) := do
  let last ← checkedSub N 1
  setAt (List.replicate N 0xff) last 0xfe

def overflowSlice (N : ℕ) : List UInt8 := List.replicate N 0xff

def packedFromCanonical (N : ℕ) (maxValue : F) (precision : UInt8) : FromCanonicalType F :=
  fun epc canonical =>
    let val := F64.round (F64.div canonical (packedDivisor F precision))
    if F64.eq val (F64.neg (F64.ofDecimal 0 0)) ∨ F64.le (F64.ofDecimal 0 0) val ∧
        F64.le val (packedMaxValue maxValue precision) then do
      let bytes ← packedBytes N val
      pure (0x00 :: 0x00 :: bytes)
    else if F64.isNan val then .err (.invalidValue epc.epc "Unable to represent NAN")
    else if F64.isSignNegative val then setAt (List.replicate (N + 2) 0xff) (N + 1) 0xfe
    else .ok (List.replicate (N + 2) 0xff)

def packedToCanonical (N : ℕ) (precision : UInt8) : ToCanonicalType F :=
  fun _ internal => do
    let underflow ← underflowSlice N
    let value ← sliceFrom internal 2
    if value = underflow then pure (F64.neg F64.infinity)
    else if value = overflowSlice N then pure F64.infinity
    else do
      let intValue ← packedInteger N value
      pure (F64.mul (F64.ofU32 intValue) (packedDivisor F precision))

def packedValidator (N : ℕ) (maxValue : F) (precision : UInt8) : ValidatorType F :=
  fun epc internal =>
    if internal.length ≠ N + 2 then
      .err (.invalidValue epc.epc (errInvalidLength (N + 2) internal.length))
    else do
      let value ← sliceFrom internal 2
      let actualValue ← packedInteger N value
      if actualValue ≤ F64.toU32 (packedMaxValue maxValue precision) then pure true
      else do
        let underflow ← underflowSlice N
        if value = underflow ∨ value = overflowSlice N then pure true
        else .err (.valueTooLarge epc.epc "Value exceeds specified type maximum")

/-- Types that are a float mapped into an integer property of `N` bytes. -/
def unsignedIntegerPackedFloatProperty (N : ℕ) (name : String) (epc : UInt8) (source : UInt16)
    (announce : Bool) (getOperation setOperation : EpcAccessRule) (maxValue : F)
    (precision : UInt8) : Outcome EpcError EpcWrapper :=
  match packedTypeMaxValue F N with
  | .ok typeMaxValue =>
    if F64.lt typeMaxValue (packedMaxValue maxValue precision) then
      .err (.valueTooLarge epc "Specified maximum value exceeds the underlying type size")
    else
      generalProperty name epc source announce getOperation setOperation
        (packedFromCanonical N maxValue precision) (packedToCanonical N precision)
        (packedValidator N maxValue precision)
  | .err e => .err e
  | .panic => .panic

end Packed

/-! ## Dates, times and durations -/

section Chrono

variable [Chrono]

/-- The year is truncated to sixteen bits. -/
def dateFromCanonical : FromCanonicalType Chrono.NaiveDate :=
  fun _ canonical =>
    .ok (0x00 :: 0x00 :: (toBeBytes₁₆ (Chrono.year canonical).toInt16.toUInt16).toList
      ++ [(Chrono.month canonical).toUInt8, (Chrono.day canonical).toUInt8])

def dateToCanonical : ToCanonicalType Chrono.NaiveDate :=
  fun epc internal => do
    let yearBytes ← slice internal 2 4
    let yearBuf ← toArray 2 yearBytes
    let month ← index internal 4
    let day ← index internal 5
    match Chrono.fromYmdOpt (Int32.ofNat (fromBeBytes₁₆ yearBuf).toNat) month.toUInt32
        day.toUInt32 with
    | some canonical => pure canonical
    | none => .err (.invalidValue epc.epc "error parsing date")

def dateValidator (validator : ValidatorType Chrono.NaiveDate) : ValidatorType Chrono.NaiveDate :=
  fun epc internal =>
    if internal.length = 6 then validator epc internal
    else .err (.invalidValue epc.epc (errInvalidLength 6 internal.length))

/-- General handler for date types. -/
def dateProperty (name : String) (epc : UInt8) (source : UInt16) (announce : Bool)
    (getOperation setOperation : EpcAccessRule) (validator : ValidatorType Chrono.NaiveDate) :
    Outcome EpcError EpcWrapper :=
  generalProperty name epc source announce getOperation setOperation dateFromCanonical
    dateToCanonical (dateValidator validator)

def timeFromCanonical : FromCanonicalType Chrono.NaiveTime :=
  fun _ canonical =>
    .ok [0x00, 0x00, (Chrono.hour canonical).toUInt8, (Chrono.minute canonical).toUInt8]

def timeToCanonical : ToCanonicalType Chrono.NaiveTime :=
  fun epc internal => do
    let hour ← index internal 2
    let minute ← index internal 3
    match Chrono.fromHmsOpt hour.toUInt32 minute.toUInt32 0 with
    | some canonical => pure canonical
    | none => .err (.invalidValue epc.epc "error parsing time")

/-- A wrong length is reported with the length of a date. -/
def timeValidator (validator : ValidatorType Chrono.NaiveTime) : ValidatorType Chrono.NaiveTime :=
  fun epc internal =>
    if internal.length = 4 then do
      let hour ← index internal 2
      let inRange ← andAlso (hour < 24) do
        let minute ← index internal 3
        pure (minute < 60)
      if inRange then validator epc internal
      else .err (.invalidValue epc.epc "Time not in range")
    else .err (.invalidValue epc.epc (errInvalidLength 6 internal.length))

/-- General handler for time types. -/
def timeProperty (name : String) (epc : UInt8) (source : UInt16) (announce : Bool)
    (getOperation setOperation : EpcAccessRule) (validator : ValidatorType Chrono.NaiveTime) :
    Outcome EpcError EpcWrapper :=
  generalProperty name epc source announce getOperation setOperation timeFromCanonical
    timeToCanonical (timeValidator validator)

/-- The unit byte and the eight bytes of the amount; the slice written to has room for five, in a
buffer that ends before it does. -/
def durationInternal (unit : UInt8) (amount : Int64) : Outcome EpcError (List UInt8) := do
  let internal ← setAt (List.replicate 7 0x00) 2 unit
  writeSlice internal 3 8 (toBeBytes₆₄ amount.toUInt64).toList

def durationFromCanonical : FromCanonicalType Chrono.TimeDelta :=
  fun epc canonical =>
    if Chrono.numSeconds canonical ≤ 0xffffffff then
      durationInternal 0x41 (Chrono.numSeconds canonical)
    else if Chrono.numMinutes canonical ≤ 0xffffffff then
      durationInternal 0x42 (Chrono.numMinutes canonical)
    else if Chrono.numHours canonical ≤ 0xffffffff then
      durationInternal 0x43 (Chrono.numHours canonical)
    else if Chrono.numDays canonical ≤ 0xffffffff then
      durationInternal 0x44 (Chrono.numDays canonical)
    else .err (.invalidValue epc.epc "TimeDelta overflows internal value")

def durationToCanonical : ToCanonicalType Chrono.TimeDelta :=
  fun _ internal => do
    let bytes ← sliceFrom internal 3
    let buf ← toArray 4 bytes
    let amount := Int64.ofNat (fromBeBytes₃₂ buf).toNat
    let unit ← index internal 2
    if unit = 0x41 then unwrap (Chrono.seconds amount)
    else if unit = 0x42 then unwrap (Chrono.minutes amount)
    else if unit = 0x43 then unwrap (Chrono.hours amount)
    else if unit = 0x44 then unwrap (Chrono.days amount)
    else .panic

def durationValidator (validator : ValidatorType Chrono.TimeDelta) :
    ValidatorType Chrono.TimeDelta :=
  fun epc internal =>
    if internal.length = 7 then do
      let unit ← index internal 2
      if unit ≥ 0x41 ∧ unit ≤ 0x44 then validator epc internal
      else .err (.invalidValue epc.epc "Not a vaslid duration type")
    else .err (.invalidValue epc.epc (errInvalidLength 6 internal.length))

/-- General handler for duration types. -/
def durationProperty (name : String) (epc : UInt8) (source : UInt16) (announce : Bool)
    (getOperation setOperation : EpcAccessRule) (validator : ValidatorType Chrono.TimeDelta) :
    Outcome EpcError EpcWrapper :=
  generalProperty name epc source announce getOperation setOperation durationFromCanonical
    durationToCanonical (durationValidator validator)

end Chrono

/-! ## Property maps and object lists -/

/-- The encoder leaves no room for the header. -/
def propertyMapFromCanonical : FromCanonicalType NodeObjectPropertyMap :=
  fun _ canonical => canonical.decode

def propertyMapToCanonical : ToCanonicalType NodeObjectPropertyMap :=
  fun epc internal => do
    let bytes ← sliceFrom internal 2
    (NodeObjectPropertyMap.fromBytes bytes).mapErr fun e => .invalidValue epc.epc e.display

def propertyMapValidator : ValidatorType NodeObjectPropertyMap :=
  fun epc internal => do
    let valid ← andAlso (internal.length > 2) do
      let pdc ← index internal 1
      pure ((pdc < 16 && (pdc + 2).toNat == internal.length) || internal.length == 17)
    if valid then pure true else .err (.invalidValue epc.epc "Invalid data length")

/-- Handler for property map types. -/
def propertyMapProperty (name : String) (epc : UInt8) (source : UInt16) (announce : Bool)
    (getOperation setOperation : EpcAccessRule) : Outcome EpcError EpcWrapper :=
  generalProperty name epc source announce getOperation setOperation propertyMapFromCanonical
    propertyMapToCanonical propertyMapValidator

/-- A list of object addresses. -/
abbrev EOJVec := List EOJ

/-- The two header bytes are left uninitialised; they are overwritten before they are read. -/
def eojArrayFromCanonical : FromCanonicalType EOJVec :=
  fun _ canonical => .ok (0x00 :: 0x00 :: canonical.flatMap EOJ.asBytes)

/-- Object `i` is read from byte `i` of the payload. -/
def eojArrayToCanonical : ToCanonicalType EOJVec :=
  fun _ internal => do
    let size ← checkedSub internal.length 2
    (List.range (size / 3)).foldlM (fun eojs i => do
      let eojBytes ← slice internal (i + 2) (i + 2 + 3)
      let buf ← toArray 3 eojBytes
      pure (eojs ++ [EOJ.fromBytes buf])) []

def eojArrayValidator : ValidatorType EOJVec :=
  fun _ internal =>
    andAlso (internal.length ≥ 2 && (internal.length - 2) % 3 == 0) do
      let pdc ← index internal 1
      pure (pdc.toNat % 3 == 0)

/-- Handler for a list of EOJ bytes. -/
def eojArrayProperty (name : String) (epc : UInt8) (source : UInt16) (announce : Bool)
    (getOperation setOperation : EpcAccessRule) : Outcome EpcError EpcWrapper :=
  generalProperty name epc source announce getOperation setOperation eojArrayFromCanonical
    eojArrayToCanonical eojArrayValidator

end Echonet
