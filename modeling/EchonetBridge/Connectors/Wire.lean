import EchonetBridge.Foundations.Endian

/-!
# Connectors/Wire — ECHONET frames in memory

A frame is made of zeroed memory, in which the first two fields are written in big-endian order.
Every machine writes the same bytes (`createFrame_eq`), but the tests of the frame's format read
them in the machine's own order, and the pointer to a frame claims the header twice.
-/

namespace Echonet

open BigEndian Endian Outcome

def ehd1Echonet : UInt16 := 0x0800

def ehd1EchonetLite : UInt16 := 0x1000

def ehd2Fixed : UInt16 := 0x0080

/-- Property value notification: the common bit, the prefix of responses and the code. -/
def esvResponseInf : UInt8 := 0x40 ||| 0x30 ||| 0x03

/-- The node profile: class group, class and instance of a general node. -/
def nodeProfileSpec : List UInt8 := [0x0e, 0xf0, 0x01]

/-- The bytes in front of the properties. -/
def echonetFrameSize : ℕ := 12

/-! ## Frames -/

/-- A frame behind its pointer: the memory that was allocated for it, and the number of bytes that
the pointer claims for the properties, behind the fields of fixed size. -/
structure EchonetFrame where
  memory : List UInt8
  epcsLen : ℕ
  deriving DecidableEq

/-- The machine the program runs on. -/
structure Platform where
  byteOrder : ByteOrder
  /-- The largest size of an allocation. -/
  isizeMax : ℕ

namespace EchonetFrame

/-- The two header bytes, read at once. -/
def ehdValue (platform : Platform) (self : EchonetFrame) : Outcome Empty UInt16 :=
  readUnaligned₁₆ platform.byteOrder self.memory 0

/-- The header has the bits of a format. -/
def hasFormat (ehd1 ehd : UInt16) : Bool := ehd &&& ehd1 == ehd1 && ehd &&& 0x00ff == ehd2Fixed

/-- Determine if this frame is an ECHONET format. -/
def isEchonet (platform : Platform) (self : EchonetFrame) : Outcome Empty Bool := do
  let ehd ← self.ehdValue platform
  pure (hasFormat ehd1Echonet ehd)

/-- Determine if this frame is ECHONET Lite format. -/
def isEchonetLite (platform : Platform) (self : EchonetFrame) : Outcome Empty Bool := do
  let ehd ← self.ehdValue platform
  pure (hasFormat ehd1EchonetLite ehd)

/-- The transaction ID, as it is displayed. -/
def tid (platform : Platform) (self : EchonetFrame) : Outcome Empty UInt16 := do
  let tid ← readUnaligned₁₆ platform.byteOrder self.memory 2
  pure (fromBe₁₆ platform.byteOrder tid)

/-- Display for packets: the parenthesis stays open. -/
def display (platform : Platform) (self : EchonetFrame) : Outcome Empty String := do
  let tid ← self.tid platform
  pure ("EchonetFrame(tid=" ++ String.ofList (Nat.toDigits 16 tid.toNat))

/-- The size of the frame as its pointer tells. -/
def sizeOfVal (self : EchonetFrame) : ℕ := echonetFrameSize + self.epcsLen

/-- Get the actual packet length.  Properties are not implemented. -/
def len (self : EchonetFrame) : Outcome Empty ℕ := do
  let opc ← index self.memory 11
  if 0 < opc then .panic else pure echonetFrameSize

/-- Create a basic ECHONET Lite frame: the transaction ID is random if there is none. -/
def createFrame (platform : Platform) (random : UInt16) (maybeTid : Option UInt16)
    (propertySize : ℕ) : Outcome Empty EchonetFrame :=
  let size := echonetFrameSize + propertySize
  if platform.isizeMax < size then .panic
  else do
    let tid := maybeTid.getD random
    let order := platform.byteOrder
    let memory ← writeUnaligned₁₆ order (List.replicate size 0) 0
      (toBe₁₆ order (ehd1EchonetLite ||| ehd2Fixed))
    let memory ← writeUnaligned₁₆ order memory 2 (toBe₁₆ order tid)
    pure ⟨memory, size⟩

/-- Create a new initial broadcast frame. -/
def createAllNodesQuery (platform : Platform) (random : UInt16) : Outcome Empty EchonetFrame := do
  let frame ← createFrame platform random none 3
  let memory ← writeSlice frame.memory 4 7 nodeProfileSpec
  let memory ← writeSlice memory 7 10 nodeProfileSpec
  let memory ← setAt memory 10 esvResponseInf
  pure { frame with memory := memory }

/-! ## What is written -/

/-- The first fields of an ECHONET Lite frame on the wire. -/
def wireHeader (tid : UInt16) : List UInt8 := [0x10, 0x80] ++ (toBeBytes₁₆ tid).toList

theorem length_wireHeader (tid : UInt16) : (wireHeader tid).length = 4 := by
  rw [wireHeader, List.length_append, Vector.length_toList]
  rfl

theorem toNeBytes_ehd (order : ByteOrder) :
    (toNeBytes₁₆ order (toBe₁₆ order (ehd1EchonetLite ||| ehd2Fixed))).toList = [0x10, 0x80] := by
  rw [toNeBytes_toBe]
  rfl

/-- The header fields are written over zeros. -/
theorem write_header (order : ByteOrder) (propertySize : ℕ) (tid : UInt16) :
    (do
      let memory ← writeUnaligned₁₆ order (List.replicate (echonetFrameSize + propertySize) 0) 0
        (toBe₁₆ order (ehd1EchonetLite ||| ehd2Fixed))
      writeUnaligned₁₆ order memory 2 (toBe₁₆ order tid) : Outcome Empty (List UInt8))
      = .ok (wireHeader tid ++ List.replicate (8 + propertySize) 0) := by
  have hzeros : List.replicate (echonetFrameSize + propertySize) (0 : UInt8)
      = List.replicate 2 0 ++ (List.replicate 2 0 ++ List.replicate (8 + propertySize) 0) := by
    rw [← List.replicate_add, ← List.replicate_add, echonetFrameSize]
    congr 1
    omega
  have hehd := writeUnaligned_append (ε := Empty) order [] (List.replicate 2 0)
    (List.replicate 2 0 ++ List.replicate (8 + propertySize) 0) rfl
    (toBe₁₆ order (ehd1EchonetLite ||| ehd2Fixed))
  rw [List.nil_append, ← hzeros, toNeBytes_ehd] at hehd
  have htid := writeUnaligned_append (ε := Empty) order [0x10, 0x80] (List.replicate 2 0)
    (List.replicate (8 + propertySize) 0) rfl (toBe₁₆ order tid)
  rw [toNeBytes_toBe] at htid
  calc _ = writeUnaligned₁₆ order _ 2 (toBe₁₆ order tid) := congrArg (· >>= _) hehd
    _ = _ := htid

/-- **Every machine builds the same frame**, and its pointer claims as many bytes for the properties
as were allocated for the whole of it. -/
theorem createFrame_eq {platform : Platform} {propertySize : ℕ}
    (h : echonetFrameSize + propertySize ≤ platform.isizeMax) (random : UInt16)
    (maybeTid : Option UInt16) :
    createFrame platform random maybeTid propertySize
      = .ok ⟨wireHeader (maybeTid.getD random) ++ List.replicate (8 + propertySize) 0,
          echonetFrameSize + propertySize⟩ := by
  have hwrite := write_header platform.byteOrder propertySize (maybeTid.getD random)
  rw [createFrame]
  dsimp only
  rw [if_neg (Nat.not_lt.mpr h)]
  obtain ⟨memory, hehd, htid⟩ := bind_eq_ok.mp hwrite
  rw [hehd, ok_bind, htid, ok_bind, pure_eq]

/-- A frame is built unless it is too large to be allocated. -/
theorem createFrame_cases (platform : Platform) (random : UInt16) (maybeTid : Option UInt16)
    (propertySize : ℕ) :
    createFrame platform random maybeTid propertySize = .panic ∨
      createFrame platform random maybeTid propertySize
        = .ok ⟨wireHeader (maybeTid.getD random) ++ List.replicate (8 + propertySize) 0,
            echonetFrameSize + propertySize⟩ := by
  by_cases h : echonetFrameSize + propertySize ≤ platform.isizeMax
  · exact Or.inr (createFrame_eq h random maybeTid)
  · exact Or.inl (if_pos (Nat.not_le.mp h))

/-- **The broadcast frame on the wire** is the same on every machine. -/
theorem createAllNodesQuery_eq {platform : Platform} (h : 15 ≤ platform.isizeMax)
    (random : UInt16) :
    createAllNodesQuery platform random
      = .ok ⟨wireHeader random ++ (nodeProfileSpec ++ nodeProfileSpec ++ [esvResponseInf] ++
          List.replicate 4 0), 15⟩ := by
  rw [createAllNodesQuery, createFrame_eq h, ok_bind]
  rfl

/-! ## What is read -/

section Read

variable (platform : Platform) (tid : UInt16) (rest : List UInt8) (epcsLen : ℕ)

/-- The header is read in the order of the machine. -/
theorem ehdValue_eq : ehdValue platform ⟨wireHeader tid ++ rest, epcsLen⟩
    = .ok (fromNeBytes₁₆ platform.byteOrder #v[0x10, 0x80]) := by
  rw [ehdValue, wireHeader, List.append_assoc]
  exact readUnaligned_append platform.byteOrder [] #v[0x10, 0x80] _

/-- **An ECHONET Lite frame is recognised on big-endian machines only.** -/
theorem isEchonetLite_eq : isEchonetLite platform ⟨wireHeader tid ++ rest, epcsLen⟩
    = .ok (platform.byteOrder == .big) := by
  rw [isEchonetLite, ehdValue_eq, ok_bind, pure_eq]
  cases platform.byteOrder with
  | big => rfl
  | little =>
    rw [fromNeBytes₁₆, reverse_two]
    rfl

/-- It is taken for an ECHONET frame on no machine. -/
theorem isEchonet_eq : isEchonet platform ⟨wireHeader tid ++ rest, epcsLen⟩ = .ok false := by
  rw [isEchonet, ehdValue_eq, ok_bind, pure_eq]
  cases platform.byteOrder with
  | big => rfl
  | little =>
    rw [fromNeBytes₁₆, reverse_two]
    rfl

/-- The transaction ID is read back on every machine. -/
theorem tid_eq : EchonetFrame.tid platform ⟨wireHeader tid ++ rest, epcsLen⟩ = .ok tid := by
  have hread := readUnaligned_append (ε := Empty) platform.byteOrder [0x10, 0x80]
    (toBeBytes₁₆ tid) rest
  rw [EchonetFrame.tid, wireHeader, List.append_assoc]
  refine (congrArg (· >>= _) hread).trans ?_
  rw [ok_bind, fromBe_fromNeBytes, fromBeBytes_toBeBytes₁₆, pure_eq]

theorem display_eq : display platform ⟨wireHeader tid ++ rest, epcsLen⟩
    = .ok ("EchonetFrame(tid=" ++ String.ofList (Nat.toDigits 16 tid.toNat)) := by
  rw [display, tid_eq, ok_bind, pure_eq]

/-- The actual length of a frame without properties leaves out the room for them. -/
theorem len_eq (propertySize : ℕ) :
    len ⟨wireHeader tid ++ List.replicate (8 + propertySize) 0, epcsLen⟩
      = .ok echonetFrameSize := by
  have hopc : (wireHeader tid ++ List.replicate (8 + propertySize) 0)[11]? = some 0 := by
    rw [List.getElem?_append_right (by rw [length_wireHeader]; omega), length_wireHeader,
      List.getElem?_replicate_of_lt (by omega)]
  rw [len, index, hopc, unwrap_some, ok_bind]
  rfl

end Read

/-! ## What a frame should be -/

/-- A frame is recognised as what it was created as, and has the size that was allocated. -/
structure Recognises (platform : Platform) (tid : UInt16) (propertySize : ℕ)
    (frame : EchonetFrame) : Prop where
  lite : frame.isEchonetLite platform = .ok true
  not_echonet : frame.isEchonet platform = .ok false
  tid : frame.tid platform = .ok tid
  size : frame.sizeOfVal = echonetFrameSize + propertySize

/-- A frame that is created is recognised on big-endian machines, but it never has the size that was
allocated: the fields of fixed size are counted twice. -/
theorem of_createFrame {platform : Platform} {random tid : UInt16} {propertySize : ℕ}
    {frame : EchonetFrame}
    (h : createFrame platform random (some tid) propertySize = .ok frame) :
    (frame.isEchonetLite platform = .ok true ↔ platform.byteOrder = .big) ∧
      frame.isEchonet platform = .ok false ∧ frame.tid platform = .ok tid ∧
      frame.memory.length = echonetFrameSize + propertySize ∧
      frame.sizeOfVal = frame.memory.length + echonetFrameSize := by
  rcases createFrame_cases platform random (some tid) propertySize with hpanic | hok
  · cases hpanic.symm.trans h
  · cases hok.symm.trans h
    have hlength : (wireHeader ((some tid).getD random) ++
        List.replicate (8 + propertySize) 0).length = echonetFrameSize + propertySize := by
      rw [List.length_append, length_wireHeader, List.length_replicate, ← Nat.add_assoc]
      rfl
    refine ⟨?_, isEchonet_eq _ _ _ _, tid_eq _ _ _ _, hlength, ?_⟩
    · rw [isEchonetLite_eq, ok.injEq, beq_iff_eq]
    · rw [hlength, sizeOfVal, Nat.add_comm]

/-- **No frame is what it should be**, on any machine. -/
theorem createFrame_not_recognises (platform : Platform) (random tid : UInt16)
    (propertySize : ℕ) :
    ¬ ∃ frame, createFrame platform random (some tid) propertySize = .ok frame ∧
      Recognises platform tid propertySize frame := by
  rintro ⟨frame, hframe, hrecognises⟩
  obtain ⟨-, -, -, hlength, hsize⟩ := of_createFrame hframe
  have hclaimed := hrecognises.size
  rw [hsize, hlength, echonetFrameSize] at hclaimed
  omega

/-- **A frame of three property bytes** on a little-endian machine is not recognised, and claims
twenty-seven bytes of the fifteen that were allocated. -/
theorem createFrame_three :
    ∃ frame, createFrame ⟨.little, 0x7fffffffffffffff⟩ 0 (some 1) 3 = .ok frame ∧
      frame.isEchonetLite ⟨.little, 0x7fffffffffffffff⟩ = .ok false ∧
      frame.memory.length = 15 ∧ frame.sizeOfVal = 27 ∧
      ¬ Recognises ⟨.little, 0x7fffffffffffffff⟩ 1 3 frame := by
  refine ⟨_, createFrame_eq (by decide) 0 (some 1), isEchonetLite_eq _ _ _ _, rfl, rfl, ?_⟩
  intro hrecognises
  cases hrecognises.size

end EchonetFrame

end Echonet
