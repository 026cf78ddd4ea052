import EchonetBridge.Api.HexStringDecode

/-!
# Api/HexStringText — the texts of byte strings, and the byte strings of texts

Writing a buffer and reading a text are inverse, but for the letter case and the leading zeros:
`fromBytes_exact` says what text a buffer is given, if there can be memory for it, `parse_render`
what a text is read as, and that writing it again gives the text in lower case.
-/

namespace Echonet

open BigEndian Outcome Text

namespace HexString

/-! ## Writing -/

theorem isLowerHexDigit_of_mem_lowerDigits {bytes : List UInt8} :
    ∀ c ∈ lowerDigits bytes, IsLowerHexDigit c := by
  intro c hc
  obtain ⟨b, -, hb⟩ := List.mem_flatMap.mp hc
  exact isLowerHexDigit_of_mem_lowerHex hb

theorem fromBytes_of_encode_err {buf : List UInt8} {len : ℕ} {isizeMax : Option ℕ}
    {e : HexStringError} (h : encode buf len isizeMax = .err e) :
    fromBytes buf len isizeMax = .err e := by
  unfold fromBytes
  split
  · next digits hd => rw [h] at hd; exact nomatch hd
  · next e' he =>
    rw [h] at he
    cases he
    rfl
  · next hd => rw [h] at hd; exact nomatch hd

theorem fromBytes_of_encode_panic {buf : List UInt8} {len : ℕ} {isizeMax : Option ℕ}
    (h : encode buf len isizeMax = .panic) : fromBytes buf len isizeMax = .panic := by
  unfold fromBytes
  split
  · next digits hd => rw [h] at hd; exact nomatch hd
  · next e he => rw [h] at he; exact nomatch he
  · rfl

/-- What is written stands for the value of the buffer. -/
theorem fromBytes_eq_ok {buf : List UInt8} {len : ℕ} {isizeMax : Option ℕ} {h : HexString}
    (hok : fromBytes buf len isizeMax = .ok h) :
    ∃ padded, h = ofBytes padded ∧ padded.length = len ∧ beValue padded = beValue buf := by
  cases hencode : encode buf len isizeMax with
  | ok digits =>
    have hdigits := encode_of_ok hencode
    rcases encode_spec buf len with ⟨padded, hpadded, hlen, hvalue, -⟩ | ⟨herr, -⟩
    · obtain rfl : digits = lowerDigits padded := Outcome.ok.inj (hdigits.symm.trans hpadded)
      exact ⟨padded, Outcome.ok.inj (hok.symm.trans (fromBytes_of_encode hencode)), hlen, hvalue⟩
    · cases hdigits.symm.trans herr
  | err e => cases hok.symm.trans (fromBytes_of_encode_err hencode)
  | panic => cases hok.symm.trans (fromBytes_of_encode_panic hencode)

/-- **Writing a buffer is exact**, for every buffer and length: the significant bytes of the buffer
are written in two lower-case digits each, behind as many zeros as there is room for, or they are
too many and the buffer is refused.  A text that is larger than any allocation panics instead. -/
theorem fromBytes_exact (buf : List UInt8) (len isizeMax : ℕ) :
    ((significant buf).length ≤ len → 2 * len ≤ isizeMax →
      ∃ h, fromBytes buf len (some isizeMax) = .ok h ∧ h.digits.length = 2 * len ∧
        (∀ c ∈ h.digits, IsLowerHexDigit c) ∧
        ∃ out, (h.decode : Outcome HexStringError (List UInt8)) = .ok out ∧ out.length = len ∧
          beValue out = beValue buf) ∧
    (len < (significant buf).length →
      fromBytes buf len (some isizeMax) = .err .bufferTooSmall) ∧
    ((significant buf).length ≤ len → isizeMax < 2 * len →
      fromBytes buf len (some isizeMax) = .panic) := by
  -- The room for the text matters only after the significant bytes have been counted.
  by_cases hroom : 2 * len ≤ isizeMax
  · rcases encode_spec buf len with ⟨padded, hok, hlen, hvalue, hfit, -⟩ | ⟨herr, hlt⟩
    · rw [← encode_of_room hroom] at hok
      refine ⟨fun _ _ => ⟨ofBytes padded, fromBytes_of_encode hok, ?_,
        isLowerHexDigit_of_mem_lowerDigits, padded, ?_, hlen, hvalue⟩,
        fun hlt => absurd hfit (Nat.not_le.mpr hlt), fun _ hlarge => absurd hroom hlarge.not_ge⟩
      · rw [ofBytes, length_lowerDigits, hlen]
      · rw [decode_eq, represented_ofBytes]
    · rw [← encode_of_room hroom] at herr
      exact ⟨fun hle => absurd hlt hle.not_gt, fun _ => fromBytes_of_encode_err herr,
        fun hle => absurd hlt hle.not_gt⟩
  · rcases encode_of_no_room buf (Nat.not_le.mp hroom) with ⟨hfit, hpanic⟩ | ⟨hlt, herr⟩
    · exact ⟨fun _ h => absurd h hroom, fun hlt => absurd hlt hfit.not_gt,
        fun _ _ => fromBytes_of_encode_panic hpanic⟩
    · exact ⟨fun _ h => absurd h hroom, fun _ => fromBytes_of_encode_err herr,
        fun hfit => absurd hlt hfit.not_gt⟩

/-- An empty buffer, to be written in more zeros than 64 bits have room for. -/
theorem fromBytes_huge :
    (significant []).length ≤ 2 ^ 62 ∧ fromBytes [] (2 ^ 62) (some (2 ^ 63 - 1)) = .panic := by
  have hlarge : 2 ^ 63 - 1 < 2 * 2 ^ 62 := by decide
  refine ⟨by decide, fromBytes_of_encode_panic ?_⟩
  rcases encode_of_no_room [] hlarge with ⟨-, hpanic⟩ | ⟨hlt, -⟩
  · exact hpanic
  · exact absurd hlt (by decide)

/-! ## Reading -/

/-- The digits and letters a hexadecimal number is written with. -/
def IsAsciiHexDigit (c : Char) : Prop := c ∈ "0123456789abcdefABCDEF".toList

instance (c : Char) : Decidable (IsAsciiHexDigit c) := inferInstanceAs (Decidable (_ ∈ _))

/-- The test of the parser is the right one, for characters that are not ASCII as well. -/
theorem isHexChar_iff (c : Char) : isHexChar c = true ↔ IsAsciiHexDigit c := by
  constructor
  · exact fun h => forall_ascii (motive := fun c => isHexChar c = true → IsAsciiHexDigit c)
      (isHexDigit_of_isHexChar h).1 (by decide +kernel) h
  · have hall : "0123456789abcdefABCDEF".toList.all isHexChar = true := by decide +kernel
    exact List.all_eq_true.mp hall c

/-- The digits of a text, with a `0` in front if there is an odd number of them. -/
def evenDigits (value : String) : List UInt8 :=
  if (asBytes value).length % 2 = 0 then asBytes value else 0x30 :: asBytes value

/-- A text is read exactly when it is made of hexadecimal digits, and keeps them. -/
theorem new_cases (value : String) :
    ((∀ c ∈ value.toList, IsAsciiHexDigit c) ∧
      ∃ h, new value = .ok h ∧ h.digits = evenDigits value) ∨
    (¬ (∀ c ∈ value.toList, IsAsciiHexDigit c) ∧ new value = .err .invalidCharacter) := by
  have hall : value.toList.all isHexChar = true ↔ ∀ c ∈ value.toList, IsAsciiHexDigit c := by
    simp only [List.all_eq_true, isHexChar_iff]
  rw [new]
  by_cases hhex : value.toList.all isHexChar = true
  · rw [dif_pos hhex, evenDigits]
    refine Or.inl ⟨hall.mp hhex, ?_⟩
    split_ifs <;> exact ⟨_, rfl, rfl⟩
  · rw [dif_neg hhex]
    exact Or.inr ⟨fun h => hhex (hall.mpr h), rfl⟩

/-- Digits read in pairs and written back are the digits in lower case. -/
theorem lowerDigits_pairBytes : ∀ ds : List UInt8, (∀ c ∈ ds, IsHexDigit c) → ds.length % 2 = 0 →
    lowerDigits (pairBytes ds) = ds.map toAsciiLowercase
  | [], _, _ => rfl
  | [_], _, heven => nomatch heven
  | a :: b :: rest, hhex, heven => by
    obtain ⟨ha, hb, hrest⟩ : IsHexDigit a ∧ IsHexDigit b ∧ ∀ c ∈ rest, IsHexDigit c := by
      simpa only [List.forall_mem_cons] using hhex
    have hlen : rest.length % 2 = 0 := by
      rw [List.length_cons, List.length_cons] at heven
      omega
    rw [pairBytes, lowerDigits, List.flatMap_cons, lowerHex_hexPair ha hb, List.map_cons,
      List.map_cons, ← lowerDigits_pairBytes rest hrest hlen]
    rfl

/-- **Writing what was read** gives the text in lower case. -/
theorem digits_ofBytes_represented (h : HexString) :
    (ofBytes h.represented).digits = h.digits.map toAsciiLowercase :=
  lowerDigits_pairBytes h.digits h.isHex h.even

/-- **Reading and writing are inverse.**  A text is accepted exactly when it is made of hexadecimal
digits; it is read as the bytes that its pairs of digits spell, and writing those gives the text
back in lower case.  A byte string that is written is read as itself. -/
theorem parse_render :
    (∀ value : String,
      (IsOk (new value) ↔ ∀ c ∈ value.toList, IsAsciiHexDigit c) ∧ new value ≠ .panic ∧
      ∀ h, new value = .ok h →
        (h.decode : Outcome HexStringError (List UInt8)) = .ok (pairBytes (evenDigits value)) ∧
        ∃ h', fromBytes (pairBytes (evenDigits value)) h.byteLen = .ok h' ∧
          h'.digits = h.digits.map toAsciiLowercase) ∧
    ∀ bytes : List UInt8,
      ((ofSlice bytes : Outcome HexStringError HexString) >>= decode) = .ok bytes := by
  refine ⟨fun value => ?_, fun bytes => ?_⟩
  · rcases new_cases value with ⟨hall, h, hok, hdigits⟩ | ⟨hnot, herr⟩
    · rw [hok]
      refine ⟨iff_of_true (isOk_ok h) hall, nofun, fun h' heq => ?_⟩
      cases heq
      have hbytes : h.represented = pairBytes (evenDigits value) := congrArg pairBytes hdigits
      have hrender := fromBytes_length h.represented
      rw [length_represented] at hrender
      rw [decode_eq, ← hbytes]
      exact ⟨rfl, _, hrender, h.digits_ofBytes_represented⟩
    · rw [herr]
      exact ⟨iff_of_false (not_isOk_err _) hnot, nofun, fun _ h => nomatch h⟩
  · rw [ofSlice_eq, ok_bind, decode_eq, represented_ofBytes]

end HexString

end Echonet
