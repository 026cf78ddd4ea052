import EchonetBridge.Foundations.BigEndian
import EchonetBridge.Foundations.Buffer

/-!
# Foundations/Endian — integers in the memory of a machine

A machine keeps the bytes of an integer in an order of its own.  An integer that is converted to
big endian before it is written leaves the same bytes on every machine (`toNeBytes_toBe`), and one
that is read and then converted from big endian is the number that these bytes spell
(`fromBe_fromNeBytes`).
-/

namespace Endian

open BigEndian Outcome

/-- The order in which a machine keeps the bytes of an integer. -/
inductive ByteOrder where
  | big
  | little
  deriving DecidableEq

/-- The bytes of an integer, as a machine keeps them. -/
def toNeBytes₁₆ (order : ByteOrder) (v : UInt16) : Vector UInt8 2 :=
  match order with
  | .big => toBeBytes₁₆ v
  | .little => (toBeBytes₁₆ v).reverse

/-- The integer of the bytes that a machine keeps. -/
def fromNeBytes₁₆ (order : ByteOrder) (bytes : Vector UInt8 2) : UInt16 :=
  match order with
  | .big => fromBeBytes₁₆ bytes
  | .little => fromBeBytes₁₆ bytes.reverse

def swapBytes₁₆ (v : UInt16) : UInt16 := fromBeBytes₁₆ (toBeBytes₁₆ v).reverse

/-- Convert an integer to big endian. -/
def toBe₁₆ (order : ByteOrder) (v : UInt16) : UInt16 :=
  match order with
  | .big => v
  | .little => swapBytes₁₆ v

/-- Convert an integer from big endian. -/
def fromBe₁₆ (order : ByteOrder) (v : UInt16) : UInt16 :=
  match order with
  | .big => v
  | .little => swapBytes₁₆ v

@[simp] theorem reverse_two (a b : UInt8) : #v[a, b].reverse = #v[b, a] :=
  Vector.toList_inj.mp (by simp)

/-! ## Round trips -/

@[simp] theorem toBeBytes_fromBeBytes₁₆ (bytes : Vector UInt8 2) :
    toBeBytes₁₆ (fromBeBytes₁₆ bytes) = bytes := by
  refine Vector.toList_inj.mp (eq_of_beValue_eq ?_ ?_)
  · rw [Vector.length_toList, Vector.length_toList]
  · rw [beValue_toBeBytes₁₆, toNat_fromBeBytes₁₆]

/-- **Every machine writes the same bytes** for an integer that was converted to big endian. -/
theorem toNeBytes_toBe (order : ByteOrder) (v : UInt16) :
    toNeBytes₁₆ order (toBe₁₆ order v) = toBeBytes₁₆ v := by
  cases order with
  | big => rfl
  | little => rw [toNeBytes₁₆, toBe₁₆, swapBytes₁₆, toBeBytes_fromBeBytes₁₆, Vector.reverse_reverse]

/-- **Every machine reads the same integer** if it is converted from big endian. -/
theorem fromBe_fromNeBytes (order : ByteOrder) (bytes : Vector UInt8 2) :
    fromBe₁₆ order (fromNeBytes₁₆ order bytes) = fromBeBytes₁₆ bytes := by
  cases order with
  | big => rfl
  | little =>
    rw [fromBe₁₆, fromNeBytes₁₆, swapBytes₁₆, toBeBytes_fromBeBytes₁₆, Vector.reverse_reverse]

/-! ## Memory -/

variable {ε : Type}

/-- Read an integer, at any offset.  Outside of the memory this is undefined, which is modelled by
a panic. -/
def readUnaligned₁₆ (order : ByteOrder) (memory : List UInt8) (offset : ℕ) : Outcome ε UInt16 := do
  let bytes ← slice memory offset (offset + 2)
  let bytes ← toArray 2 bytes
  pure (fromNeBytes₁₆ order bytes)

/-- Write an integer, at any offset within the memory. -/
def writeUnaligned₁₆ (order : ByteOrder) (memory : List UInt8) (offset : ℕ) (v : UInt16) :
    Outcome ε (List UInt8) :=
  writeSlice memory offset (offset + 2) (toNeBytes₁₆ order v).toList

theorem slice_append (before part after : List UInt8) :
    (slice (before ++ (part ++ after)) before.length (before.length + part.length) :
      Outcome ε (List UInt8)) = .ok part := by
  rw [slice_of_le (Nat.le_add_right _ _) (by simp), List.take_length_add_append,
    List.drop_left, List.take_left]

theorem writeSlice_append (before part after : List UInt8) {src : List UInt8}
    (h : src.length = part.length) :
    (writeSlice (before ++ (part ++ after)) before.length (before.length + part.length) src :
      Outcome ε (List UInt8)) = .ok (before ++ (src ++ after)) := by
  rw [writeSlice, if_pos ⟨Nat.le_add_right _ _, by simp, by omega⟩, List.take_left,
    List.drop_length_add_append, List.drop_left, List.append_assoc]

/-- Read the bytes at the end of a prefix. -/
theorem readUnaligned_append (order : ByteOrder) (before : List UInt8) (bytes : Vector UInt8 2)
    (after : List UInt8) :
    (readUnaligned₁₆ order (before ++ (bytes.toList ++ after)) before.length : Outcome ε UInt16)
      = .ok (fromNeBytes₁₆ order bytes) := by
  have hslice := slice_append (ε := ε) before bytes.toList after
  rw [Vector.length_toList] at hslice
  rw [readUnaligned₁₆, hslice, ok_bind, toArray_toList, ok_bind, pure_eq]

/-- Write over two bytes at the end of a prefix. -/
theorem writeUnaligned_append (order : ByteOrder) (before part after : List UInt8)
    (h : part.length = 2) (v : UInt16) :
    (writeUnaligned₁₆ order (before ++ (part ++ after)) before.length v :
      Outcome ε (List UInt8)) = .ok (before ++ ((toNeBytes₁₆ order v).toList ++ after)) := by
  have hlength : (toNeBytes₁₆ order v).toList.length = part.length := by
    rw [Vector.length_toList, h]
  have hwrite := writeSlice_append (ε := ε) before part after hlength
  rwa [h] at hwrite

end Endian
