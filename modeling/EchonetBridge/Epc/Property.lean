import EchonetBridge.Api.Errors
import EchonetBridge.Api.Types
import EchonetBridge.Foundations.Machine

/-!
# Epc/Property — a property and its stored value

A `StaticNodeProperty` converts between its canonical type and the wire through three functions of
its own, which may read the property they belong to.  What they can read is an `EpcRef`.  The
stored value and the time of its last update are the two `Cells`; `get`, `set` and the two
canonical conversions are the only operations on them.
-/

namespace Echonet

open Outcome

/-! ## The property -/

/-- What a converter or a validator reads of the property it is called with.  Its `get` is not
implemented, and none of them writes to it. -/
structure EpcRef (T : Type) where
  name : String
  epc : UInt8
  toCanonical : Outcome EpcError T

/-- The static part of a property. -/
structure StaticNodeProperty (T : Type) where
  /-- Name of the property. -/
  name : String
  /-- The EPC code it is represented by. -/
  epc : UInt8
  /-- The definition source in the specification. -/
  source : UInt16
  /-- If the property must exist. -/
  mandatory : Bool
  /-- If the property requires an announce message on change. -/
  announce : Bool
  /-- If the property is get- or settable. -/
  operations : UInt8
  /-- Convert a canonical value to internal. -/
  fromCanonicalFn : EpcRef T → T → Outcome EpcError (List UInt8)
  /-- Convert the internal value to canonical. -/
  toCanonicalFn : EpcRef T → List UInt8 → Outcome EpcError T
  /-- Validate an internal value; the header bytes are in front of it. -/
  validatorFn : EpcRef T → List UInt8 → Outcome EpcError Bool

/-- A reading of the clock, in ms.  Zero stands for "never" and is never read. -/
def ClockReading : Type := {ms : Int64 // ms ≠ 0}

/-- The stored part of a property. -/
structure Cells where
  /-- The last known value, with two bytes in front for the EPC and the PDC. -/
  lastValue : List UInt8
  /-- When the value was last updated, or zero if it never was. -/
  lastUpdated : Int64
  deriving DecidableEq

/-- Nothing was ever stored. -/
def Cells.fresh : Cells := ⟨[], 0⟩

def nodeValueOperationGetSupported : UInt8 := 0x02

def nodeValueOperationGetMandatory : UInt8 := 0x04

def nodeValueOperationSetSupported : UInt8 := 0x20

def nodeValueOperationSetMandatory : UInt8 := 0x40

/-- The length byte of a payload: it is clamped, and the payload is not shortened. -/
def clampLength (dataLen : ℕ) : UInt8 := if dataLen > 0xff then 0xff else UInt8.ofNat dataLen

/-- A payload behind the header of its property. -/
def frame (epc : UInt8) (payload : List UInt8) : List UInt8 :=
  epc :: clampLength payload.length :: payload

@[simp] theorem length_frame (epc : UInt8) (payload : List UInt8) :
    (frame epc payload).length = payload.length + 2 := rfl

@[simp] theorem sliceFrom_frame {ε : Type} (epc : UInt8) (payload : List UInt8) :
    (sliceFrom (frame epc payload) 2 : Outcome ε (List UInt8)) = .ok payload := by
  rw [sliceFrom_of_le (by rw [length_frame]; exact Nat.le_add_left 2 _)]
  rfl

@[simp] theorem index_frame_epc {ε : Type} (epc : UInt8) (payload : List UInt8) :
    (index (frame epc payload) 0 : Outcome ε UInt8) = .ok epc := rfl

@[simp] theorem index_frame_pdc {ε : Type} (epc : UInt8) (payload : List UInt8) :
    (index (frame epc payload) 1 : Outcome ε UInt8) = .ok (clampLength payload.length) := rfl

@[simp] theorem index_frame_first {ε : Type} (epc byte : UInt8) (rest : List UInt8) :
    (index (frame epc (byte :: rest)) 2 : Outcome ε UInt8) = .ok byte := rfl

@[simp] theorem index_frame_second {ε : Type} (epc first byte : UInt8) (rest : List UInt8) :
    (index (frame epc (first :: byte :: rest)) 3 : Outcome ε UInt8) = .ok byte := rfl

namespace StaticNodeProperty

variable {T : Type}

/-- Constructor for general type. -/
def new (name : String) (epc : UInt8) (source : UInt16) (announce : Bool)
    (getOperation setOperation : EpcAccessRule)
    (fromCanonical : EpcRef T → T → Outcome EpcError (List UInt8))
    (toCanonical : EpcRef T → List UInt8 → Outcome EpcError T)
    (validator : EpcRef T → List UInt8 → Outcome EpcError Bool) : StaticNodeProperty T where
  name := name
  epc := epc
  source := source
  mandatory := getOperation == .mandatory || setOperation == .mandatory
  announce := announce
  operations :=
    (match getOperation with
      | .notSupported => 0x00
      | .supported => nodeValueOperationGetSupported
      | .mandatory => nodeValueOperationGetMandatory ||| nodeValueOperationGetSupported) |||
    (match setOperation with
      | .notSupported => 0x00
      | .supported => nodeValueOperationSetSupported
      | .mandatory => nodeValueOperationSetMandatory ||| nodeValueOperationSetSupported)
  fromCanonicalFn := fromCanonical
  toCanonicalFn := toCanonical
  validatorFn := validator

/-! ## Its operations -/

/-- What the decoder reads of its own property.  It only runs when a value is stored, so asking for
the canonical value again would run it again, without end: the stack overflow is a panic. -/
def decoderRef (p : StaticNodeProperty T) : EpcRef T := ⟨p.name, p.epc, .panic⟩

/-- Convert the internal value to a canonical value. -/
def toCanonical (p : StaticNodeProperty T) (cells : Cells) : Outcome EpcError T :=
  if cells.lastUpdated = 0 then .err (.noValue p.epc)
  else p.toCanonicalFn p.decoderRef cells.lastValue

/-- The property as its encoder and its validator read it. -/
def ref (p : StaticNodeProperty T) (cells : Cells) : EpcRef T :=
  ⟨p.name, p.epc, p.toCanonical cells⟩

/-- Convert a canonical value into an internal value. -/
def fromCanonical (p : StaticNodeProperty T) (cells : Cells) (canonical : T) (now : ClockReading) :
    Outcome EpcError Unit × Cells :=
  match p.fromCanonicalFn (p.ref cells) canonical with
  | .ok internal =>
    if internal.length < 2 then
      (.err (.invalidValue p.epc "internal buffer length is required to be at least 2"), cells)
    else
      let internal := (internal.set 0 p.epc).set 1 (clampLength (internal.length - 2))
      match p.validatorFn (p.ref cells) internal with
      | .ok true => (.ok (), ⟨internal, now.1⟩)
      | .ok false => (.err (.validationFailed p.epc), cells)
      | .err e => (.err e, cells)
      | .panic => (.panic, cells)
  | .err e => (.err e, cells)
  | .panic => (.panic, cells)

/-- Get the internal value, without the EPC or PDC header. -/
def get (p : StaticNodeProperty T) (cells : Cells) : Outcome EpcError (List UInt8) :=
  if cells.lastUpdated = 0 then .err (.noValue p.epc) else sliceFrom cells.lastValue 2

/-- Set the internal value.  The validator's error is returned; its answer is not looked at. -/
def set (p : StaticNodeProperty T) (cells : Cells) (internal : List UInt8) (now : ClockReading) :
    Outcome EpcError Unit × Cells :=
  let buf := frame p.epc internal
  match p.validatorFn (p.ref cells) buf with
  | .ok _ => (.ok (), ⟨buf, now.1⟩)
  | .err e => (.err e, cells)
  | .panic => (.panic, cells)

/-! ## Runs -/

end StaticNodeProperty

/-- A call that writes a property, with the clock reading it makes if it stores. -/
inductive Call (T : Type) where
  | set (payload : List UInt8) (now : ClockReading)
  | fromCanonical (canonical : T) (now : ClockReading)

namespace StaticNodeProperty

variable {T : Type} (p : StaticNodeProperty T)

/-- One call. -/
def call (cells : Cells) : Call T → Outcome EpcError Unit × Cells
  | .set payload now => p.set cells payload now
  | .fromCanonical canonical now => p.fromCanonical cells canonical now

/-- The cells of a new property after a sequence of calls. -/
def run (calls : List (Call T)) : Cells := Machine.final p.call .fresh calls

/-- The payload a call asks to store: the argument of `set`, or the converter's output without its
first two bytes. -/
def payload (cells : Cells) : Call T → Option (List UInt8)
  | .set payload _ => some payload
  | .fromCanonical canonical _ =>
    match p.fromCanonicalFn (p.ref cells) canonical with
    | .ok internal => some (internal.drop 2)
    | _ => none

@[simp] theorem run_nil : p.run [] = .fresh := rfl

theorem run_concat (calls : List (Call T)) (call : Call T) :
    p.run (calls ++ [call]) = (p.call (p.run calls) call).2 := Machine.run_concat _ _ calls call

end StaticNodeProperty

end Echonet
