import EchonetBridge.Connectors.Wire
import EchonetBridge.Foundations.Rendering

/-!
# Connectors/Dump — frames as they are printed

The bytes of a frame are printed in rows of sixteen, which are collected in a buffer and written
when they are full.  Nothing is lost on the way: the bytes can be told from the print
(`displayRaw_eq_iff`).
-/

namespace Echonet

open BigEndian Endian Outcome Rendering

/-! ## Printing -/

/-- One pass of the loop over the bytes, on what is written and what is in the buffer. -/
def displayByte (data : List UInt8) (state : String × String) (i : ℕ) :
    Outcome Empty (String × String) := do
  let (f, buffer) := state
  let buffer := if i % 16 = 0 then buffer ++ (" " ++ hexPadded 8 i ++ ":") else buffer
  let byte ← index data i
  let buffer := buffer ++ (" " ++ hexPadded 2 byte.toNat)
  let buffer := if i % 16 = 7 then buffer ++ "  " else buffer
  if i % 16 = 15 then pure (f ++ (buffer ++ "\n"), "") else pure (f, buffer)

/-- Utility function to display raw data. -/
def displayRaw (data : List UInt8) (dataLen : ℕ) : Outcome Empty String := do
  let (f, buffer) ← (List.range dataLen).foldlM (displayByte data) ("\nRaw packet:\n", "")
  let buffer := if buffer.isEmpty then buffer else buffer ++ "\n"
  pure (f ++ buffer)

/-- The fields in print: that of the source object is the first header byte again. -/
def debugFields (ehd1 ehd2 : UInt8) (tid : UInt16) : String :=
  "EchonetFrame \x7b ehd1: 0x" ++ hexPadded 0 ehd1.toNat ++ ", ehd2: 0x" ++
    hexPadded 0 ehd2.toNat ++ ", tid: 0x" ++ hexPadded 0 tid.toNat ++ ", edata.seoj: 0x" ++
      hexPadded 0 ehd1.toNat ++ " \x7d"

/-- Display for debug: the fields, and then the bytes as far as the packet goes. -/
def EchonetFrame.debug (platform : Platform) (self : EchonetFrame) : Outcome Empty String := do
  let ehd1 : UInt8 ← index self.memory 0
  let ehd2 : UInt8 ← index self.memory 1
  let tid ← self.tid platform
  let len ← self.len
  let data ← slice self.memory 0 self.epcsLen
  let raw ← displayRaw data (min self.sizeOfVal len)
  pure (debugFields ehd1 ehd2 tid ++ raw)

/-! ## Rows -/

/-- What is printed for a byte: the first one of a row has its index in front of it, and there is a
gap in the middle. -/
def bytePiece (i : ℕ) (b : UInt8) : String :=
  (if i % 16 = 0 then " " ++ hexPadded 8 i ++ ":" else "") ++ (" " ++ hexPadded 2 b.toNat) ++
    ((if i % 16 = 7 then "  " else "") ++ (if i % 16 = 15 then "\n" else ""))

/-- The rows from an index on. -/
def rows (i : ℕ) : List UInt8 → String
  | [] => if i % 16 = 0 then "" else "\n"
  | b :: bs => bytePiece i b ++ rows (i + 1) bs

def dump (bytes : List UInt8) : String := "\nRaw packet:\n" ++ rows 0 bytes

/-- One pass prints one byte, and leaves the buffer empty at the end of a row. -/
theorem displayByte_spec {data : List UInt8} {i : ℕ} (hi : i < data.length) (f buffer : String) :
    ∃ f' buffer', displayByte data (f, buffer) i = .ok (f', buffer') ∧
      f' ++ buffer' = f ++ buffer ++ bytePiece i data[i] ∧ (buffer' = "" ↔ (i + 1) % 16 = 0) := by
  rw [displayByte, index_of_lt hi]
  simp only [ok_bind, pure_eq, bytePiece]
  by_cases hlast : i % 16 = 15
  · have h0 : i % 16 ≠ 0 := by omega
    have h7 : i % 16 ≠ 7 := by omega
    rw [if_pos hlast, if_neg h0, if_neg h0, if_neg h7, if_neg h7, if_pos hlast]
    refine ⟨_, _, rfl, ?_, iff_of_true rfl (by omega)⟩
    simp only [String.append_assoc, String.append_empty, String.empty_append]
  · have hne : (i + 1) % 16 ≠ 0 := by omega
    rw [if_neg hlast, if_neg hlast]
    refine ⟨_, _, rfl, ?_, iff_of_false (fun h => ?_) hne⟩
    · split_ifs <;> simp only [String.append_assoc, String.append_empty, String.empty_append]
    · have hlength := congrArg String.length h
      split_ifs at hlength <;> simp at hlength

/-- **The loop** prints the bytes row by row. -/
theorem displayRaw_of_le {data : List UInt8} {dataLen : ℕ} (h : dataLen ≤ data.length) :
    displayRaw data dataLen = .ok (dump (data.take dataLen)) := by
  obtain ⟨⟨f, buffer⟩, hloop, hwritten, hempty⟩ := foldlM_range_rule (displayByte data)
    (fun i state => state.1 ++ state.2 ++ rows i ((data.take dataLen).drop i)
      = dump (data.take dataLen) ∧ (state.2 = "" ↔ i % 16 = 0))
    dataLen ("\nRaw packet:\n", "") ⟨by rw [String.append_empty]; rfl, by decide⟩
    fun i hi ⟨f, buffer⟩ ⟨hwritten, _⟩ => by
      have hlt : i < data.length := Nat.lt_of_lt_of_le hi h
      obtain ⟨f', buffer', hpass, hpiece, hempty⟩ := displayByte_spec hlt f buffer
      have hdrop : (data.take dataLen).drop i
          = data[i] :: (data.take dataLen).drop (i + 1) := by
        rw [List.drop_eq_getElem_cons (by rw [List.length_take]; omega), List.getElem_take]
      rw [hdrop, rows, ← String.append_assoc] at hwritten
      exact ⟨(f', buffer'), hpass, by rw [hpiece, hwritten], hempty⟩
  have hend : (data.take dataLen).drop dataLen = [] :=
    List.drop_eq_nil_of_le (List.length_take_le _ _)
  rw [displayRaw, hloop, ok_bind, ← hwritten, hend, rows, String.append_assoc]
  dsimp only at hempty ⊢
  by_cases hrow : dataLen % 16 = 0
  · rw [if_pos hrow, hempty.mpr hrow]
    rfl
  · have hne : buffer.isEmpty = false := by
      rw [← Bool.not_eq_true, String.isEmpty_iff, hempty]
      exact hrow
    rw [if_neg hrow, hne]
    rfl

example : displayRaw [0x10, 0x81, 0x00] 2 = .ok "\nRaw packet:\n 00000000: 10 81\n" := by decide

/-- Bytes that are not there cannot be printed. -/
theorem displayRaw_of_lt {data : List UInt8} {dataLen : ℕ} (h : data.length < dataLen) :
    displayRaw data dataLen = .panic := by
  have hreturns (state : String × String) (i : ℕ) :
      IsOk (displayByte data state i) ↔ i < data.length := by
    rcases Nat.lt_or_ge i data.length with hi | hi
    · obtain ⟨_, _, hpass, -⟩ := displayByte_spec hi state.1 state.2
      exact iff_of_true ⟨_, hpass⟩ hi
    · rw [displayByte, index_of_le hi]
      exact iff_of_false not_isOk_panic (Nat.not_lt.mpr hi)
  have hpanics (state : String × String) (i : ℕ) :
      displayByte data state i = .panic ↔ data.length ≤ i := by
    rcases Nat.lt_or_ge i data.length with hi | hi
    · exact iff_of_false ((hreturns state i).mpr hi).ne_panic (Nat.not_le.mpr hi)
    · rw [displayByte, index_of_le hi]
      exact iff_of_true rfl hi
  have hloop :
      (List.range dataLen).foldlM (displayByte data) ("\nRaw packet:\n", "") = .panic := by
    rw [foldlM_eq_panic_iff hreturns hpanics]
    refine ⟨data.length, data.length, List.getElem?_range h, le_rfl, fun j hj y hy => ?_⟩
    rw [List.getElem?_range (hj.trans h)] at hy
    cases hy
    exact hj
  rw [displayRaw, hloop, panic_bind]

/-! ## Telling prints apart -/

/-- The length of a piece depends on its place alone. -/
theorem length_bytePiece (i : ℕ) (b b' : UInt8) :
    (bytePiece i b).length = (bytePiece i b').length := by
  simp only [bytePiece, String.length_append, length_hexPadded_two]

theorem length_rows (i : ℕ) {bs bs' : List UInt8} (h : bs.length = bs'.length) :
    (rows i bs).length = (rows i bs').length := by
  induction bs generalizing i bs' with
  | nil => rw [List.length_eq_zero_iff.mp h.symm]
  | cons b bs ih =>
    cases bs' with
    | nil => cases h
    | cons b' bs' =>
      rw [rows, rows, String.length_append, String.length_append, length_bytePiece i b b',
        ih (i + 1) (Nat.succ.inj h)]

theorem append_inj_of_length {s s' t t' : String}
    (hlength : s.length = s'.length ∨ t.length = t'.length) (h : s ++ t = s' ++ t') :
    s = s' ∧ t = t' := by
  rw [← String.toList_inj, String.toList_append, String.toList_append] at h
  simp only [← String.length_toList] at hlength
  obtain ⟨hs, ht⟩ := hlength.elim (List.append_inj h) (List.append_inj' h)
  exact ⟨String.toList_inj.mp hs, String.toList_inj.mp ht⟩

theorem rows_nil_ne_cons (i : ℕ) (b : UInt8) (bs : List UInt8) : rows i [] ≠ rows i (b :: bs) := by
  intro h
  have hlength := congrArg String.length h
  have hspace : " ".length = 1 := rfl
  simp only [rows, bytePiece, String.length_append, hspace, length_hexPadded_two] at hlength
  have hle : (if i % 16 = 0 then "" else "\n" : String).length ≤ 1 := by
    split_ifs
    · exact Nat.zero_le 1
    · exact Nat.le_refl 1
  omega

/-- The bytes can be told from their rows. -/
theorem rows_inj (i : ℕ) {bs bs' : List UInt8} (h : rows i bs = rows i bs') : bs = bs' := by
  induction bs generalizing i bs' with
  | nil =>
    cases bs' with
    | nil => rfl
    | cons b' bs' => exact absurd h (rows_nil_ne_cons i b' bs')
  | cons b bs ih =>
    cases bs' with
    | nil => exact absurd h.symm (rows_nil_ne_cons i b bs)
    | cons b' bs' =>
      obtain ⟨hpiece, hrows⟩ := append_inj_of_length (Or.inl (length_bytePiece i b b')) h
      rw [bytePiece, bytePiece, String.append_left_inj, String.append_right_inj,
        String.append_right_inj, hexPadded_two_inj] at hpiece
      rw [hpiece, ih (i + 1) hrows]

theorem dump_inj {bytes bytes' : List UInt8} : dump bytes = dump bytes' ↔ bytes = bytes' := by
  refine ⟨fun h => rows_inj 0 ?_, fun h => h ▸ rfl⟩
  rw [dump, dump, String.append_right_inj] at h
  exact h

/-- **Nothing is lost in print**: two prints are the same when the same bytes were to be printed, or
when neither was possible because bytes are missing. -/
theorem displayRaw_eq_iff (data data' : List UInt8) (dataLen dataLen' : ℕ) :
    displayRaw data dataLen = displayRaw data' dataLen' ↔
      (data.length < dataLen ∧ data'.length < dataLen') ∨
      (dataLen ≤ data.length ∧ dataLen' ≤ data'.length ∧
        data.take dataLen = data'.take dataLen') := by
  rcases Nat.lt_or_ge data.length dataLen with h | h
  · rw [displayRaw_of_lt h]
    rcases Nat.lt_or_ge data'.length dataLen' with h' | h'
    · rw [displayRaw_of_lt h']
      exact iff_of_true rfl (Or.inl ⟨h, h'⟩)
    · rw [displayRaw_of_le h']
      exact iff_of_false nofun (by omega)
  · rw [displayRaw_of_le h]
    rcases Nat.lt_or_ge data'.length dataLen' with h' | h'
    · rw [displayRaw_of_lt h']
      exact iff_of_false nofun (by omega)
    · rw [displayRaw_of_le h', ok.injEq, dump_inj]
      exact ⟨fun heq => Or.inr ⟨h, h', heq⟩, fun hor => (hor.resolve_left (by omega)).2.2⟩

/-! ## Frames -/

namespace EchonetFrame

/-- The print of a frame that was created: there is nothing to see behind the header. -/
def debugText (tid : UInt16) : String :=
  debugFields 0x10 0x80 tid ++ dump (wireHeader tid ++ List.replicate 8 0)

theorem length_dump {bytes bytes' : List UInt8} (h : bytes.length = bytes'.length) :
    (dump bytes).length = (dump bytes').length := by
  rw [dump, dump, String.length_append, String.length_append, length_rows 0 h]

theorem debugText_inj {tid tid' : UInt16} : debugText tid = debugText tid' ↔ tid = tid' := by
  refine ⟨fun h => ?_, fun h => h ▸ rfl⟩
  have hbytes : (wireHeader tid ++ List.replicate 8 0).length
      = (wireHeader tid' ++ List.replicate 8 0).length := by
    rw [List.length_append, List.length_append, length_wireHeader, length_wireHeader]
  -- What is in front of the dumps may differ in length.
  obtain ⟨-, hdump⟩ := append_inj_of_length (Or.inr (length_dump hbytes)) h
  have hheader := List.append_cancel_left (List.append_cancel_right (dump_inj.mp hdump))
  rw [← fromBeBytes_toBeBytes₁₆ tid, Vector.toList_inj.mp hheader, fromBeBytes_toBeBytes₁₆]

/-- A frame that counts properties cannot be printed. -/
theorem debug_of_properties {platform : Platform} {self : EchonetFrame} {opc : UInt8}
    (hopc : self.memory[11]? = some opc) (hpos : 0 < opc) : self.debug platform = .panic := by
  have hlen : self.len = .panic := by
    rw [len, index, hopc, unwrap_some, ok_bind]
    exact if_pos hpos
  cases hdebug : self.debug platform with
  | ok text =>
    rw [debug] at hdebug
    obtain ⟨_, -, hdebug⟩ := bind_eq_ok.mp hdebug
    obtain ⟨_, -, hdebug⟩ := bind_eq_ok.mp hdebug
    obtain ⟨_, -, hdebug⟩ := bind_eq_ok.mp hdebug
    rw [hlen] at hdebug
    cases hdebug
  | err e => exact e.elim
  | panic => rfl

/-- A frame that was created is printed, on the machine it was created on. -/
theorem debug_eq {platform : Platform} {random tid : UInt16} {propertySize : ℕ}
    {frame : EchonetFrame}
    (h : createFrame platform random (some tid) propertySize = .ok frame) :
    frame.debug platform = .ok (debugText tid) := by
  rcases createFrame_cases platform random (some tid) propertySize with hpanic | hok
  · cases hpanic.symm.trans h
  · cases hok.symm.trans h
    have hlength : (wireHeader tid ++ List.replicate (8 + propertySize) 0).length
        = echonetFrameSize + propertySize := by
      rw [List.length_append, length_wireHeader, List.length_replicate, ← Nat.add_assoc]
      rfl
    have hehd1 : (index (wireHeader tid ++ List.replicate (8 + propertySize) 0) 0 :
        Outcome Empty UInt8) = .ok 0x10 := rfl
    have hehd2 : (index (wireHeader tid ++ List.replicate (8 + propertySize) 0) 1 :
        Outcome Empty UInt8) = .ok 0x80 := rfl
    have htaken : (wireHeader tid ++ List.replicate (8 + propertySize) 0).take echonetFrameSize
        = wireHeader tid ++ List.replicate 8 0 := by
      have hmin : min (echonetFrameSize - 4) (8 + propertySize) = 8 :=
        Nat.min_eq_left (Nat.le_add_right 8 propertySize)
      rw [List.take_append, length_wireHeader, List.take_replicate, hmin,
        List.take_of_length_le ((length_wireHeader tid).trans_le (by decide))]
    rw [Option.getD_some, debug, hehd1, ok_bind, hehd2, ok_bind, tid_eq, ok_bind, len_eq, ok_bind,
      slice_of_le (Nat.zero_le _) hlength.ge, ok_bind, List.drop_zero,
      List.take_of_length_le hlength.le, sizeOfVal, Nat.min_eq_right (Nat.le_add_right _ _),
      displayRaw_of_le (hlength.ge.trans' (Nat.le_add_right _ _)), htaken, ok_bind, pure_eq,
      debugText]

/-- **Frames in print** show their transaction ID and nothing else: frames that were created on any
machines and for any number of property bytes are printed in the same way exactly when their IDs are
the same, and frames that count properties are not printed at all. -/
theorem debug_createFrame {platform platform' : Platform} {random random' tid tid' : UInt16}
    {propertySize propertySize' : ℕ} {frame frame' : EchonetFrame}
    (h : createFrame platform random (some tid) propertySize = .ok frame)
    (h' : createFrame platform' random' (some tid') propertySize' = .ok frame') :
    IsOk (frame.debug platform) ∧ (frame.debug platform = frame'.debug platform' ↔ tid = tid') ∧
      ∀ opc > 0, ∀ epcsLen,
        debug platform ⟨frame.memory.set 11 opc, epcsLen⟩ = .panic := by
  refine ⟨⟨_, debug_eq h⟩, ?_, fun opc hopc epcsLen => ?_⟩
  · rw [debug_eq h, debug_eq h', ok.injEq, debugText_inj]
  · have hlength := (of_createFrame h).2.2.2.1
    have hlt : 11 < frame.memory.length := by
      rw [hlength, echonetFrameSize]
      omega
    exact debug_of_properties (List.getElem?_set_self hlt) hopc

theorem debug_createFrame_two :
    ∃ frame frame', createFrame ⟨.little, 0x7fffffffffffffff⟩ 0 (some 1) 3 = .ok frame ∧
      createFrame ⟨.big, 0x7fffffff⟩ 0 (some 1) 7 = .ok frame' ∧
      frame.debug ⟨.little, 0x7fffffffffffffff⟩ = frame'.debug ⟨.big, 0x7fffffff⟩ := by
  have hle : echonetFrameSize + 3 ≤ (⟨.little, 0x7fffffffffffffff⟩ : Platform).isizeMax := by decide
  have hle' : echonetFrameSize + 7 ≤ (⟨.big, 0x7fffffff⟩ : Platform).isizeMax := by decide
  have h := createFrame_eq hle 0 (some 1)
  have h' := createFrame_eq hle' 0 (some 1)
  exact ⟨_, _, h, h', (debug_createFrame h h').2.1.mpr rfl⟩

end EchonetFrame

end Echonet
