import EchonetBridge.Api.Errors
import EchonetBridge.Foundations.BigEndian
import EchonetBridge.Foundations.Buffer
import EchonetBridge.Foundations.Text

/-!
# Api/HexString — strings of hexadecimal digits that stand for bytes

A `HexString` is an even number of digits of either case; `represented` reads them in pairs.  The
buffer conversions keep the value right-aligned, and drop or add zero bytes in front.
-/

namespace Echonet

open BigEndian Outcome Text

/-- Basic Hex String implementation: the bytes of its text. -/
structure HexString where
  digits : List UInt8
  isHex : ∀ c ∈ digits, IsHexDigit c
  even : digits.length % 2 = 0
  deriving DecidableEq

namespace HexString

/-! ## The bytes a text stands for -/

/-- The bytes that pairs of digits spell. -/
def pairBytes : List UInt8 → List UInt8
  | a :: b :: rest => hexPair a b :: pairBytes rest
  | _ => []

theorem length_pairBytes : ∀ ds : List UInt8, (pairBytes ds).length = ds.length / 2
  | [] => rfl
  | [_] => by simp [pairBytes]
  | a :: b :: rest => by
    rw [pairBytes, List.length_cons, length_pairBytes rest, List.length_cons, List.length_cons]
    omega

theorem getElem?_pairBytes : ∀ (ds : List UInt8) (k : ℕ),
    (pairBytes ds)[k]? = ds[2 * k]?.bind fun a => ds[2 * k + 1]?.map fun b => hexPair a b
  | [], _ => rfl
  | [a], k => by cases k <;> rfl
  | a :: b :: rest, 0 => rfl
  | a :: b :: rest, k + 1 => by
    rw [pairBytes, List.getElem?_cons_succ, getElem?_pairBytes rest k]
    rfl

/-- Two lower-case digits for every byte. -/
def lowerDigits (bytes : List UInt8) : List UInt8 := bytes.flatMap lowerHex

@[simp] theorem pairBytes_lowerDigits (bytes : List UInt8) :
    pairBytes (lowerDigits bytes) = bytes := by
  induction bytes with
  | nil => rfl
  | cons b bytes ih =>
    rw [lowerDigits, List.flatMap_cons, lowerHex, List.cons_append, List.cons_append,
      List.nil_append, pairBytes, hexPair_lowerHex]
    exact congrArg (b :: ·) ih

@[simp] theorem length_lowerDigits (bytes : List UInt8) :
    (lowerDigits bytes).length = 2 * bytes.length := by
  induction bytes with
  | nil => rfl
  | cons b bytes ih =>
    rw [lowerDigits] at ih ⊢
    rw [List.flatMap_cons, List.length_append, ih, List.length_cons, lowerHex, List.length_cons,
      List.length_singleton]
    omega

theorem isHex_lowerDigits {bytes : List UInt8} : ∀ c ∈ lowerDigits bytes, IsHexDigit c := by
  intro c hc
  obtain ⟨b, -, hb⟩ := List.mem_flatMap.mp hc
  exact isHexDigit_of_mem_lowerHex hb

/-- The string of two lower-case digits for every byte. -/
def ofBytes (bytes : List UInt8) : HexString where
  digits := lowerDigits bytes
  isHex := isHex_lowerDigits
  even := by rw [length_lowerDigits]; exact Nat.mul_mod_right 2 _

/-- The bytes a hex string stands for. -/
def represented (h : HexString) : List UInt8 := pairBytes h.digits

@[simp] theorem represented_ofBytes (bytes : List UInt8) : (ofBytes bytes).represented = bytes :=
  pairBytes_lowerDigits bytes

/-! ## Parsing a text -/

/-- One of the characters a hex string is made of. -/
def isHexChar (c : Char) : Bool :=
  ('0' ≤ c && c ≤ '9') || ('a' ≤ c && c ≤ 'f') || ('A' ≤ c && c ≤ 'F')

theorem isHexDigit_of_isHexChar {c : Char} (h : isHexChar c = true) :
    c.toNat < 0x80 ∧ IsHexDigit (UInt8.ofNat c.toNat) := by
  have hle : ∀ a b : Char, a ≤ b ↔ a.toNat ≤ b.toNat := fun a b => Iff.rfl
  simp only [isHexChar, Bool.or_eq_true, Bool.and_eq_true, decide_eq_true_eq, hle,
    Char.reduceToNat] at h
  have hlt : c.toNat < 0x80 := by omega
  have hnat : (UInt8.ofNat c.toNat).toNat = c.toNat :=
    UInt8.toNat_ofNat_of_lt' (lt_trans hlt (by decide))
  refine ⟨hlt, ?_⟩
  rw [IsHexDigit, digitVal]
  simp only [UInt8.le_iff_toNat_le, hnat, UInt8.reduceToNat]
  split_ifs with h1 h2 h3
  · rfl
  · rfl
  · rfl
  · omega

/-- The bytes of a text are its digits. -/
theorem isHexDigit_of_mem_asBytes {value : String} (h : value.toList.all isHexChar = true) :
    ∀ b ∈ asBytes value, IsHexDigit b := by
  rw [List.all_eq_true] at h
  have hascii : isAscii value = true := by
    rw [isAscii, List.all_eq_true]
    exact fun c hc => decide_eq_true (isHexDigit_of_isHexChar (h c hc)).1
  rw [asBytes_of_isAscii hascii]
  intro b hb
  obtain ⟨c, hc, rfl⟩ := List.mem_map.mp hb
  exact (isHexDigit_of_isHexChar (h c hc)).2

/-- Constructor.  Excess padding in front is kept, and an odd number of digits is padded with one
more `0`. -/
def new (value : String) : Outcome HexStringError HexString :=
  if h : value.toList.all isHexChar = true then
    if heven : (asBytes value).length % 2 = 0 then
      .ok ⟨asBytes value, isHexDigit_of_mem_asBytes h, heven⟩
    else
      .ok ⟨0x30 :: asBytes value, List.forall_mem_cons.mpr ⟨rfl, isHexDigit_of_mem_asBytes h⟩, by
        rw [List.length_cons]
        omega⟩
  else .err .invalidCharacter

/-! ## Encoding a buffer -/

/-- The first byte of a buffer to encode: the padding is skipped when the buffer is too long. -/
def bufStart (buf : List UInt8) (len : ℕ) : Outcome HexStringError ℕ :=
  if len < buf.length then do
    let size ← checkedSub buf.length (leadingZeros buf)
    if len < size then .err .bufferTooSmall else pure (leadingZeros buf)
  else pure 0

/-- One byte of the text: padding, or a byte of the buffer. -/
def encodeByte (buf : List UInt8) (start padLen : ℕ) (encoded : List UInt8) (i : ℕ) :
    Outcome HexStringError (List UInt8) :=
  if i < padLen then pure (encoded ++ asBytes "00")
  else do
    let offset ← checkedSub i padLen
    let byte ← index buf (offset + start)
    pure (encoded ++ lowerHex byte)

/-- The text of a byte array.  Memory for all of it is asked for before it is written. -/
def encode (buf : List UInt8) (len : ℕ) (isizeMax : Option ℕ := none) :
    Outcome HexStringError (List UInt8) := do
  let start ← bufStart buf len
  -- A product that does not fit `usize` panics here, or wraps and panics when the text has grown.
  withCapacity isizeMax (len * 2)
  let size ← checkedSub buf.length start
  let padLen ← checkedSub len size
  (List.range len).foldlM (encodeByte buf start padLen) []

/-- The encoding loop writes the padded buffer. -/
theorem foldlM_encodeByte {buf : List UInt8} {start len : ℕ} (hlen : buf.length - start ≤ len) :
    (List.range len).foldlM (encodeByte buf start (len - (buf.length - start))) []
      = .ok (lowerDigits (List.replicate (len - (buf.length - start)) 0 ++ buf.drop start)) := by
  set padded := List.replicate (len - (buf.length - start)) 0 ++ buf.drop start with hpadded
  have hsize : padded.length = len := by
    rw [hpadded, List.length_append, List.length_replicate, List.length_drop]
    omega
  obtain ⟨encoded, hloop, rfl⟩ := foldlM_range_rule
    (encodeByte buf start (len - (buf.length - start)))
    (fun i encoded => encoded = lowerDigits (padded.take i)) len [] rfl fun i hi encoded hinv => by
      have hpi : i < padded.length := by rw [hsize]; exact hi
      have hnext : lowerDigits (padded.take (i + 1)) = encoded ++ lowerHex padded[i] := by
        rw [List.take_succ_eq_append_getElem hpi, lowerDigits, List.flatMap_append,
          List.flatMap_singleton, hinv, lowerDigits]
      rw [hnext, encodeByte]
      by_cases hpad : i < len - (buf.length - start)
      · refine ⟨_, if_pos hpad, ?_⟩
        have h0 : padded[i] = 0 := by
          simp only [hpadded]
          rw [List.getElem_append_left (by rw [List.length_replicate]; exact hpad),
            List.getElem_replicate]
        rw [h0]
        rfl
      · have hbuf : i - (len - (buf.length - start)) + start < buf.length := by omega
        rw [if_neg hpad, checkedSub_of_le (Nat.not_lt.mp hpad), ok_bind, index_of_lt hbuf, ok_bind,
          pure_eq]
        refine ⟨_, rfl, ?_⟩
        have h1 : padded[i] = buf[i - (len - (buf.length - start)) + start] := by
          simp only [hpadded]
          rw [List.getElem_append_right (by rw [List.length_replicate]; exact Nat.not_lt.mp hpad),
            List.getElem_drop]
          congr 1
          rw [List.length_replicate, Nat.add_comm]
        rw [h1]
  rw [hloop, List.take_of_length_le hsize.le]

/-- Only padding is skipped, and none of it unless the buffer is too long. -/
theorem bufStart_spec (buf : List UInt8) (len : ℕ) :
    (∃ start ≤ leadingZeros buf, bufStart buf len = .ok start ∧ buf.length - start ≤ len ∧
      (buf.length ≤ len → start = 0)) ∨
    (bufStart buf len = .err .bufferTooSmall ∧ len < buf.length - leadingZeros buf) := by
  rw [bufStart]
  by_cases hlt : len < buf.length
  · rw [if_pos hlt, checkedSub_of_le (leadingZeros_le buf), ok_bind]
    by_cases hsmall : len < buf.length - leadingZeros buf
    · exact Or.inr ⟨if_pos hsmall, hsmall⟩
    · exact Or.inl ⟨_, le_rfl, if_neg hsmall, Nat.not_lt.mp hsmall,
        fun hle => absurd hlt (by omega)⟩
  · exact Or.inl ⟨0, Nat.zero_le _, if_neg hlt, by omega, fun _ => rfl⟩

/-- **Encoding a buffer**: the text stands for the buffer's value, right-aligned in as many bytes as
asked for, or the significant bytes are too many. -/
theorem encode_spec (buf : List UInt8) (len : ℕ) :
    (∃ padded, encode buf len = .ok (lowerDigits padded) ∧ padded.length = len ∧
      beValue padded = beValue buf ∧ (significant buf).length ≤ len ∧
      (buf.length = len → padded = buf)) ∨
    (encode buf len = .err .bufferTooSmall ∧ len < (significant buf).length) := by
  have hz := leadingZeros_le buf
  rw [length_significant, encode]
  rcases bufStart_spec buf len with ⟨start, hle, hstart, hfit, hwhole⟩ | ⟨herr, hlt⟩
  · refine Or.inl ⟨List.replicate (len - (buf.length - start)) 0 ++ buf.drop start, ?_, ?_, ?_,
      by omega, fun heq => ?_⟩
    · rw [hstart, ok_bind, withCapacity_none, ok_bind, checkedSub_of_le (hle.trans hz), ok_bind,
        checkedSub_of_le hfit, ok_bind, foldlM_encodeByte hfit]
    · rw [List.length_append, List.length_replicate, List.length_drop]
      omega
    · rw [beValue_append, beValue_replicate_zero, Nat.zero_mul, Nat.zero_add,
        beValue_drop_eq_iff (hle.trans hz)]
      exact hle
    · rw [hwhole heq.le, heq, Nat.sub_zero, Nat.sub_self, List.replicate_zero, List.nil_append,
        List.drop_zero]
  · exact Or.inr ⟨by rw [herr, err_bind], hlt⟩

/-- With room for the text, a bound on the memory changes nothing. -/
theorem encode_of_room {buf : List UInt8} {len isizeMax : ℕ} (h : 2 * len ≤ isizeMax) :
    encode buf len (some isizeMax) = encode buf len := by
  have hroom : len * 2 ≤ isizeMax := by omega
  simp only [encode, withCapacity_of_le hroom, withCapacity_none]

/-- Without room for the text, a buffer that is not refused is not written. -/
theorem encode_of_no_room (buf : List UInt8) {len isizeMax : ℕ} (h : isizeMax < 2 * len) :
    ((significant buf).length ≤ len ∧ encode buf len (some isizeMax) = .panic) ∨
    (len < (significant buf).length ∧ encode buf len (some isizeMax) = .err .bufferTooSmall) := by
  have hroom : isizeMax < len * 2 := by omega
  have hz := leadingZeros_le buf
  rw [length_significant, encode]
  rcases bufStart_spec buf len with ⟨start, hle, hstart, hfit, -⟩ | ⟨herr, hlt⟩
  · exact Or.inl ⟨by omega, by rw [hstart, ok_bind, withCapacity_of_lt hroom, panic_bind]⟩
  · exact Or.inr ⟨hlt, by rw [herr, err_bind]⟩

/-- What is written is what is written in a memory without bounds. -/
theorem encode_of_ok {buf : List UInt8} {len : ℕ} {isizeMax : Option ℕ} {digits : List UInt8}
    (h : encode buf len isizeMax = .ok digits) : encode buf len = .ok digits := by
  cases isizeMax with
  | none => exact h
  | some isizeMax =>
    by_cases hroom : 2 * len ≤ isizeMax
    · rwa [encode_of_room hroom] at h
    · rcases encode_of_no_room buf (Nat.not_le.mp hroom) with ⟨-, hpanic⟩ | ⟨-, herr⟩
      · exact nomatch hpanic.symm.trans h
      · exact nomatch herr.symm.trans h

theorem isHex_of_encode {buf : List UInt8} {len : ℕ} {isizeMax : Option ℕ} {digits : List UInt8}
    (h : encode buf len isizeMax = .ok digits) :
    (∀ c ∈ digits, IsHexDigit c) ∧ digits.length % 2 = 0 := by
  replace h := encode_of_ok h
  rcases encode_spec buf len with ⟨padded, hok, -⟩ | ⟨herr, -⟩
  · rw [hok] at h
    cases h
    exact ⟨isHex_lowerDigits, (ofBytes padded).even⟩
  · rw [herr] at h
    exact nomatch h

/-- Create a HexString from a byte array.  No allocation is larger than `isizeMax` bytes; without a
bound no text is too large, which is assumed where the whole of a payload or a slice is written. -/
def fromBytes (buf : List UInt8) (len : ℕ) (isizeMax : Option ℕ := none) :
    Outcome HexStringError HexString :=
  match h : encode buf len isizeMax with
  | .ok digits => .ok ⟨digits, (isHex_of_encode h).1, (isHex_of_encode h).2⟩
  | .err e => .err e
  | .panic => .panic

theorem fromBytes_of_encode {buf padded : List UInt8} {len : ℕ} {isizeMax : Option ℕ}
    (h : encode buf len isizeMax = .ok (lowerDigits padded)) :
    fromBytes buf len isizeMax = .ok (ofBytes padded) := by
  unfold fromBytes
  split
  · next digits hd =>
    rw [h] at hd
    cases hd
    rfl
  · next e hd => rw [h] at hd; exact nomatch hd
  · next hd => rw [h] at hd; exact nomatch hd

/-- A whole buffer always fits. -/
@[simp] theorem fromBytes_length (bytes : List UInt8) :
    fromBytes bytes bytes.length = .ok (ofBytes bytes) := by
  rcases encode_spec bytes bytes.length with ⟨padded, hok, -, -, -, heq⟩ | ⟨-, hlt⟩
  · rw [fromBytes_of_encode hok, heq rfl]
  · rw [length_significant] at hlt
    omega

/-- A whole buffer, unwrapped. -/
def ofSlice {ε : Type} (bytes : List UInt8) : Outcome ε HexString :=
  match fromBytes bytes bytes.length with
  | .ok h => .ok h
  | .err _ => .panic
  | .panic => .panic

@[simp] theorem ofSlice_eq {ε : Type} (bytes : List UInt8) :
    (ofSlice bytes : Outcome ε HexString) = .ok (ofBytes bytes) := by
  rw [ofSlice, fromBytes_length]

end HexString

end Echonet
