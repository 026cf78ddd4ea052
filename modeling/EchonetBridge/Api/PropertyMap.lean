import EchonetBridge.Api.Errors
import EchonetBridge.Foundations.Bits
import EchonetBridge.Foundations.Buffer
import EchonetBridge.Foundations.Text

/-!
# Api/PropertyMap — the supported-EPC map of an object

`NodeObjectPropertyMap` keeps one bit for each of the 128 codes `0x80`–`0xff`, in eight words of
sixteen, beside a separately maintained count.  The word and the bit of a code are its high and low
nibble; the wire form is a list of codes below sixteen entries and a bitmap from there on.
-/

namespace Echonet

open Bits Outcome Text

/-- Holder for the supported EPC property maps. -/
structure NodeObjectPropertyMap where
  /-- Bit `j` of word `i` is the code `0x80 + 16 * i + j`. -/
  operations : Vector UInt16 8
  operationsCount : ℕ
  deriving DecidableEq

namespace NodeObjectPropertyMap

/-! ## The map's operations -/

def new : NodeObjectPropertyMap := ⟨Vector.replicate 8 0x0000, 0⟩

/-- The word of a code, `((operation - 0x80) >> 4) as usize`. -/
def row (operation : UInt8) : ℕ := ((operation - 0x80) >>> 4).toNat

/-- The bit of a code in its word, `0x0001 << (operation & 0x0f)`. -/
def mask (operation : UInt8) : UInt16 := 1 <<< (operation &&& 0x0f).toUInt16

def invalidOperation : MiddlewareError :=
  .invalidValue "valid operations must be in the range 0x80 - 0xff inclusive"

/-- Validate the operation is within range. -/
def validateOperation (operation : UInt8) : Outcome MiddlewareError Unit :=
  if operation < 0x80 then .err invalidOperation else .ok ()

/-- Check if an operation is enabled without going through the proper checks. -/
def isOperationEnabledUnsafe {ε : Type} (m : NodeObjectPropertyMap) (operation : UInt8) :
    Outcome ε Bool := do
  let word ← entry m.operations (row operation)
  pure (word &&& mask operation != 0)

/-- Determines if an operation is enabled. -/
def isOperationEnabled (m : NodeObjectPropertyMap) (operation : UInt8) :
    Outcome MiddlewareError Bool := do
  validateOperation operation
  m.isOperationEnabledUnsafe operation

/-- Set the operation as enabled. -/
def enableOperation (m : NodeObjectPropertyMap) (operation : UInt8) :
    Outcome MiddlewareError Bool × NodeObjectPropertyMap :=
  match m.isOperationEnabled operation with
  | .ok false =>
    match (modifyAt m.operations (row operation) (· ||| mask operation) :
        Outcome MiddlewareError _) with
    | .ok operations => (.ok true, ⟨operations, m.operationsCount + 1⟩)
    | .err e => (.err e, m)
    | .panic => (.panic, m)
  | .ok true => (.ok false, m)
  | .err e => (.err e, m)
  | .panic => (.panic, m)

/-- Disable an operation.  The count is unsigned: taking one from zero panics. -/
def disableOperation (m : NodeObjectPropertyMap) (operation : UInt8) :
    Outcome MiddlewareError Bool × NodeObjectPropertyMap :=
  match m.isOperationEnabled operation with
  | .ok true =>
    match (modifyAt m.operations (row operation) (· &&& ~~~(mask operation)) :
        Outcome MiddlewareError _) with
    | .ok operations =>
      if m.operationsCount = 0 then (.panic, ⟨operations, m.operationsCount⟩)
      else (.ok true, ⟨operations, m.operationsCount - 1⟩)
    | .err e => (.err e, m)
    | .panic => (.panic, m)
  | .ok false => (.ok false, m)
  | .err e => (.err e, m)
  | .panic => (.panic, m)

/-- Disable all operations. -/
def disableAll (m : NodeObjectPropertyMap) : Outcome MiddlewareError Bool × NodeObjectPropertyMap :=
  if m.operationsCount > 0 then (.ok true, ⟨Vector.replicate 8 0x0000, 0⟩) else (.ok false, m)

/-- Copy the set of operations from another instance. -/
def copyFrom (_ other : NodeObjectPropertyMap) : NodeObjectPropertyMap :=
  ⟨other.operations, other.operationsCount⟩

/-- The codes `0x80..=0xff`, in order. -/
def codes : List UInt8 := (List.range 128).map fun k => 0x80 + UInt8.ofNat k

/-- Return the list of enabled operations. -/
def asOperationsList {ε : Type} (m : NodeObjectPropertyMap) : Outcome ε (List UInt8) :=
  codes.foldlM (fun opsList i => do
    if ← m.isOperationEnabledUnsafe i then pure (opsList ++ [i]) else pure opsList) []

/-! ## The wire format -/

/-- One byte of the list form: the code is set without the checked setter. -/
def listEntry (npm : NodeObjectPropertyMap) (operation : UInt8) :
    Outcome MiddlewareError NodeObjectPropertyMap :=
  if operation < 0x80 then
    .err (.invalidValue s!"Invalid operation '0x{ofAscii (lowerHex operation)}' specified")
  else do
    let operations ← modifyAt npm.operations (((operation &&& 0xf0).toNat - 0x80) >>> 4)
      (· ||| mask operation)
    pure ⟨operations, npm.operationsCount + 1⟩

/-- One pass over a row of the bitmap form: bit `i` of byte `j + 1` is shifted in. -/
def bitmapBit (wire : List UInt8) (i : ℕ) (row : UInt16) (j : ℕ) :
    Outcome MiddlewareError UInt16 := do
  let byte ← index wire (j + 1)
  pure ((row <<< 1) ||| ((byte &&& (1 <<< UInt8.ofNat i)) >>> UInt8.ofNat i).toUInt16)

/-- One row of the bitmap form, read from the last byte to the first, and the count with it. -/
def bitmapRow (wire : List UInt8) (state : Vector UInt16 8 × ℕ) (i : ℕ) :
    Outcome MiddlewareError (Vector UInt16 8 × ℕ) := do
  let row ← entry state.1 i
  let row ← (List.range 16).reverse.foldlM (bitmapBit wire i) row
  let operations ← modifyAt state.1 i fun _ => row
  pure (operations, state.2 + countOnes row)

/-- Convert a byte format into a new NodeObjectPropertyMap. -/
def fromBytes (wire : List UInt8) : Outcome MiddlewareError NodeObjectPropertyMap :=
  match wire with
  | [] => .err (.invalidValue "Invalid wire structure")
  | count :: entries =>
    if (count < 16 ∧ (count + 1).toNat ≠ wire.length) ∨ (16 ≤ count ∧ wire.length ≠ 17) then
      .err (.invalidValue "Invalid wire structure")
    else do
      let npm ←
        if count < 16 then entries.foldlM listEntry new
        else do
          let rows ← (List.range 8).foldlM (bitmapRow wire) (new.operations, 0)
          if rows.2 ≠ count.toNat then
            .err (.invalidValue "Operation count mismatch in bitfield")
          else pure ⟨rows.1, rows.2⟩
      if count.toNat = npm.operationsCount then pure npm
      else .err (.invalidValue "Incorrect number of properties set")

/-- The code of bit `j` of word `i`, `((i << 4) | j) as u8 + 0x80`. -/
def codeAt (i j : ℕ) : UInt8 := UInt8.ofNat ((i <<< 4) ||| j) + 0x80

/-- One pass of the list form: an enabled code is written at the current position. -/
def listBit {ε : Type} (m : NodeObjectPropertyMap) (i : ℕ) (state : List UInt8 × ℕ) (j : ℕ) :
    Outcome ε (List UInt8 × ℕ) := do
  let word ← entry m.operations i
  if word &&& (1 <<< UInt16.ofNat j) != 0 then
    let wire ← setAt state.1 state.2 (codeAt i j)
    pure (wire, state.2 + 1)
  else pure state

/-- The list form: every enabled code, written behind the count in order. -/
def decodeList {ε : Type} (m : NodeObjectPropertyMap) (wire : List UInt8) :
    Outcome ε (List UInt8 × ℕ) :=
  (List.range 8).foldlM (fun state i => (List.range 16).foldlM (m.listBit i) state) (wire, 1)

/-- One pass over a row: its lowest bit becomes bit `i` of byte `j + 1`, and is dropped. -/
def scatterBit {ε : Type} (i : ℕ) (state : List UInt8 × UInt16) (j : ℕ) :
    Outcome ε (List UInt8 × UInt16) := do
  let byte ← index state.1 (j + 1)
  let wire ← setAt state.1 (j + 1) (byte ||| ((state.2 &&& 1).toUInt8 <<< UInt8.ofNat i))
  pure (wire, state.2 >>> 1)

/-- One row of the bitmap form. -/
def scatterRow {ε : Type} (m : NodeObjectPropertyMap) (wire : List UInt8) (i : ℕ) :
    Outcome ε (List UInt8) := do
  let bits ← entry m.operations i
  let state ← (List.range 16).foldlM (scatterBit i) (wire, bits)
  pure state.1

/-- Convert to bytes, in the expected EPC wire format. -/
def decode {ε : Type} (m : NodeObjectPropertyMap) : Outcome ε (List UInt8) :=
  if m.operationsCount < 16 then do
    let wire ← setAt (List.replicate (m.operationsCount + 1) 0x00) 0
      (UInt8.ofNat m.operationsCount)
    let state ← m.decodeList wire
    pure state.1
  else do
    let wire ← setAt (List.replicate 17 0x00) 0 (UInt8.ofNat m.operationsCount)
    (List.range 8).foldlM m.scatterRow wire

end NodeObjectPropertyMap

end Echonet
