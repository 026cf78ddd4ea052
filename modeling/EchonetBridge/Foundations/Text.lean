import EchonetBridge.Foundations.Bits
import EchonetBridge.Foundations.Outcome
import Mathlib.Data.List.Basic
import Mathlib.Tactic.IntervalCases

/-!
# Foundations/Text — strings as their UTF-8 bytes, and hexadecimal digits

A string is measured, sliced and copied by its UTF-8 bytes.  An ASCII string has one byte a
character, so its bytes and its characters are the same list read at two types
(`asBytes_ofAscii`); two hexadecimal digits are one byte (`fromHexPair_lowerHex`).
-/

namespace Text

/-! ## Strings and their bytes -/

/-- The UTF-8 bytes of a string. -/
def asBytes (s : String) : List UInt8 := s.toList.flatMap String.utf8EncodeChar

/-- The string a byte sequence encodes, taken without a check: undefined, which is modelled by a
panic, when the bytes are not UTF-8. -/
def fromUtf8Unchecked {ε : Type} (bytes : List UInt8) : Outcome ε String :=
  Outcome.unwrap (String.fromUTF8? ⟨bytes.toArray⟩)

/-- The character of a byte read as a code point. -/
def byteChar (b : UInt8) : Char := Char.ofNat b.toNat

/-- The ASCII string of a byte sequence. -/
def ofAscii (bytes : List UInt8) : String := String.ofList (bytes.map byteChar)

/-- Every character is ASCII. -/
def isAscii (s : String) : Bool := s.toList.all fun c => c.toNat < 0x80

theorem toNat_byteChar (b : UInt8) : (byteChar b).toNat = b.toNat := by
  have h := b.toNat_lt
  have hv : b.toNat.isValidChar := Or.inl (by omega)
  rw [byteChar, Char.ofNat, dif_pos hv]
  rfl

/-- A fact about ASCII characters, checked one character at a time. -/
@[elab_as_elim]
theorem forall_ascii {motive : Char → Prop} {c : Char} (hc : c.toNat < 0x80)
    (h : ∀ n < 128, motive (Char.ofNat n)) : motive c := by
  rw [← Char.ofNat_toNat (c := c)]
  exact h c.toNat hc

/-- Only ASCII letters have an upper case of their own. -/
theorem toUpper_of_le {c : Char} (h : 0x80 ≤ c.toNat) : c.toUpper = c :=
  dif_neg fun hletter => absurd (UInt32.le_iff_toNat_le.mp hletter.2) (by
    have hz : 'z'.val.toNat = 122 := rfl
    change ¬ c.toNat ≤ _
    omega)

/-- An ASCII character is encoded as the byte of its code point. -/
theorem utf8EncodeChar_of_lt {c : Char} (h : c.toNat < 0x80) :
    String.utf8EncodeChar c = [UInt8.ofNat c.toNat] := by
  unfold String.utf8EncodeChar
  rw [if_pos (show c.val.toNat ≤ 0x7f from Nat.le_of_lt_succ h)]
  rfl

/-- **ASCII bytes are the UTF-8 of the string they spell.** -/
theorem asBytes_ofAscii {bytes : List UInt8} (h : ∀ b ∈ bytes, b < 0x80) :
    asBytes (ofAscii bytes) = bytes := by
  rw [asBytes, ofAscii, String.toList_ofList, List.flatMap_map]
  induction bytes with
  | nil => rfl
  | cons b bytes ih =>
    have hb : (byteChar b).toNat < 0x80 := by
      rw [toNat_byteChar]
      exact UInt8.lt_iff_toNat_lt.mp (h b List.mem_cons_self)
    rw [List.flatMap_cons, utf8EncodeChar_of_lt hb, toNat_byteChar, UInt8.ofNat_toNat,
      ih fun b' hb' => h b' (List.mem_cons_of_mem b hb')]
    rfl

/-- An ASCII string has one byte a character, the character's code point. -/
theorem asBytes_of_isAscii {s : String} (h : isAscii s = true) :
    asBytes s = s.toList.map fun c => UInt8.ofNat c.toNat := by
  have hall : ∀ c ∈ s.toList, c.toNat < 0x80 := by simpa [isAscii] using h
  rw [asBytes, ← List.flatMap_singleton' (s.toList.map _), List.flatMap_map]
  exact List.flatMap_congr fun c hc => utf8EncodeChar_of_lt (hall c hc)

/-- The unchecked conversion gives a string's bytes back as the string. -/
@[simp] theorem fromUtf8Unchecked_asBytes {ε : Type} (s : String) :
    (fromUtf8Unchecked (asBytes s) : Outcome ε String) = .ok s := by
  have hbytes : (⟨(asBytes s).toArray⟩ : ByteArray) = s.toByteArray := by
    rw [← String.utf8Encode_toList, List.utf8Encode, asBytes]
    exact ByteArray.ext (List.data_toByteArray).symm
  have hvalid : (⟨(asBytes s).toArray⟩ : ByteArray).IsValidUTF8 := by
    rw [hbytes]
    exact s.isValidUTF8
  rw [fromUtf8Unchecked, String.fromUTF8?, dif_pos hvalid, Outcome.unwrap_some]
  exact congrArg Outcome.ok (String.toByteArray_inj.mp hbytes)

theorem fromUtf8Unchecked_of_ascii {ε : Type} {bytes : List UInt8} (h : ∀ b ∈ bytes, b < 0x80) :
    (fromUtf8Unchecked bytes : Outcome ε String) = .ok (ofAscii bytes) := by
  rw [← fromUtf8Unchecked_asBytes (ofAscii bytes), asBytes_ofAscii h]

/-! ## Hexadecimal digits -/

/-- The value of a hexadecimal digit, of either case. -/
def digitVal (c : UInt8) : Option ℕ :=
  if 0x30 ≤ c ∧ c ≤ 0x39 then some (c.toNat - 0x30)
  else if 0x61 ≤ c ∧ c ≤ 0x66 then some (c.toNat - 0x57)
  else if 0x41 ≤ c ∧ c ≤ 0x46 then some (c.toNat - 0x37)
  else none

/-- A byte that is an ASCII hexadecimal digit. -/
def IsHexDigit (c : UInt8) : Prop := (digitVal c).isSome

instance (c : UInt8) : Decidable (IsHexDigit c) := inferInstanceAs (Decidable (_ = true))

/-- The lower-case digit of a value below sixteen. -/
def lowerHexDigit (d : ℕ) : UInt8 :=
  if d < 10 then UInt8.ofNat (0x30 + d) else UInt8.ofNat (0x57 + d)

/-- A byte formatted as two lower-case digits. -/
def lowerHex (b : UInt8) : List UInt8 :=
  [lowerHexDigit (b.toNat / 16), lowerHexDigit (b.toNat % 16)]

/-- A plus sign in front of at least one more character is dropped. -/
def stripPlus : List UInt8 → List UInt8
  | c :: d :: rest => if c = 0x2b then d :: rest else c :: d :: rest
  | src => src

/-- An unsigned byte parsed in radix 16: an optional plus sign, then at least one digit, and no
overflow. -/
def fromStrRadix16 (src : List UInt8) : Option UInt8 :=
  if src.isEmpty then none
  else
    ((stripPlus src).foldlM (fun acc c => (digitVal c).bind fun d =>
      if acc * 16 + d < 256 then some (acc * 16 + d) else none) 0).map UInt8.ofNat

theorem digitVal_lt {c : UInt8} {d : ℕ} (h : digitVal c = some d) : d < 16 := by
  unfold digitVal at h
  split_ifs at h with h1 h2 h3 <;> cases h <;>
    simp only [UInt8.le_iff_toNat_le, UInt8.reduceToNat] at * <;> omega

theorem digitVal_lowerHexDigit {d : ℕ} (h : d < 16) : digitVal (lowerHexDigit d) = some d := by
  interval_cases d <;> rfl

theorem isHexDigit_lowerHexDigit {d : ℕ} (h : d < 16) : IsHexDigit (lowerHexDigit d) := by
  rw [IsHexDigit, digitVal_lowerHexDigit h]
  rfl

theorem isHexDigit_of_mem_lowerHex {b c : UInt8} (h : c ∈ lowerHex b) : IsHexDigit c := by
  have hb := b.toNat_lt
  rcases List.mem_pair.mp h with rfl | rfl
  · exact isHexDigit_lowerHexDigit (by omega)
  · exact isHexDigit_lowerHexDigit (by omega)

/-- The byte two digits spell. -/
def hexPair (a b : UInt8) : UInt8 :=
  UInt8.ofNat (16 * (digitVal a).getD 0 + (digitVal b).getD 0)

theorem hexPair_lowerHex (b : UInt8) :
    hexPair (lowerHexDigit (b.toNat / 16)) (lowerHexDigit (b.toNat % 16)) = b := by
  have hb := b.toNat_lt
  rw [hexPair, digitVal_lowerHexDigit (by omega), digitVal_lowerHexDigit (by omega),
    Option.getD_some, Option.getD_some, Nat.div_add_mod, UInt8.ofNat_toNat]

/-- Two digits parse to the byte they spell. -/
theorem fromStrRadix16_pair {a b : UInt8} (ha : IsHexDigit a) (hb : IsHexDigit b) :
    fromStrRadix16 [a, b] = some (hexPair a b) := by
  obtain ⟨x, hx⟩ := Option.isSome_iff_exists.mp ha
  obtain ⟨y, hy⟩ := Option.isSome_iff_exists.mp hb
  have hx16 := digitVal_lt hx
  have hy16 := digitVal_lt hy
  have hplus : a ≠ 0x2b := fun h => by
    rw [h] at hx
    cases hx
  rw [fromStrRadix16, stripPlus, if_neg hplus]
  simp only [List.isEmpty_cons, Bool.false_eq_true, if_false, List.foldlM_cons, List.foldlM_nil,
    Option.bind_eq_bind, hx, hy, Option.bind_some, Nat.zero_mul, Nat.zero_add, hexPair,
    Option.getD_some]
  rw [if_pos (by omega), Option.bind_some, if_pos (by omega), Nat.mul_comm]
  rfl

/-! ## Letter case -/

/-- A digit from `0` to `9` or from `a` to `f`. -/
def IsLowerHexDigit (c : UInt8) : Prop := 0x30 ≤ c ∧ c ≤ 0x39 ∨ 0x61 ≤ c ∧ c ≤ 0x66

instance (c : UInt8) : Decidable (IsLowerHexDigit c) := inferInstanceAs (Decidable (_ ∨ _))

/-- A capital ASCII letter in lower case; any other byte as it is. -/
def toAsciiLowercase (c : UInt8) : UInt8 := if 0x41 ≤ c ∧ c ≤ 0x5a then c + 0x20 else c

@[simp] theorem toAsciiLowercase_idem (c : UInt8) :
    toAsciiLowercase (toAsciiLowercase c) = toAsciiLowercase c :=
  Bits.forall_byte c (by decide +kernel)

theorem isLowerHexDigit_lowerHexDigit {d : ℕ} (h : d < 16) : IsLowerHexDigit (lowerHexDigit d) := by
  interval_cases d <;> decide

theorem isLowerHexDigit_of_mem_lowerHex {b c : UInt8} (h : c ∈ lowerHex b) :
    IsLowerHexDigit c := by
  have hb := b.toNat_lt
  rcases List.mem_pair.mp h with rfl | rfl
  · exact isLowerHexDigit_lowerHexDigit (by omega)
  · exact isLowerHexDigit_lowerHexDigit (by omega)

/-- A digit written back is the digit in lower case. -/
theorem lowerHexDigit_of_digitVal {c : UInt8} {d : ℕ} (h : digitVal c = some d) :
    lowerHexDigit d = toAsciiLowercase c := by
  have hall : ∀ d < 16, digitVal c = some d → lowerHexDigit d = toAsciiLowercase c := by
    clear h
    exact Bits.forall_byte c (by decide +kernel)
  exact hall d (digitVal_lt h) h

/-- Two digits written back are the digits in lower case. -/
theorem lowerHex_hexPair {a b : UInt8} (ha : IsHexDigit a) (hb : IsHexDigit b) :
    lowerHex (hexPair a b) = [toAsciiLowercase a, toAsciiLowercase b] := by
  obtain ⟨x, hx⟩ := Option.isSome_iff_exists.mp ha
  obtain ⟨y, hy⟩ := Option.isSome_iff_exists.mp hb
  have hx16 := digitVal_lt hx
  have hy16 := digitVal_lt hy
  have hnat : (hexPair a b).toNat = 16 * x + y := by
    rw [hexPair, hx, hy, Option.getD_some, Option.getD_some]
    exact UInt8.toNat_ofNat_of_lt' (by change 16 * x + y < 256; omega)
  rw [lowerHex, hnat, show (16 * x + y) / 16 = x by omega, show (16 * x + y) % 16 = y by omega,
    lowerHexDigit_of_digitVal hx, lowerHexDigit_of_digitVal hy]

end Text
