import EchonetBridge.Api.HexStringText

/-!
# Api/HexStringEquality — when two hex strings are equal

The bytes that a hex string stands for do not depend on the letter case of its digits, and neither
does its comparison with a string.  Two hex strings, though, are compared, ordered and hashed as
their texts, so they are equal exactly when their bytes are unless only the letter case is different
(`comparesEqual_iff_decode_eq_iff`).
-/

namespace Echonet

open Outcome Text

/-- Two texts that are equal but for the letter case. -/
def EqIgnoreCase (h h' : HexString) : Prop :=
  h.digits.map toAsciiLowercase = h'.digits.map toAsciiLowercase

theorem eqIgnoreCase_ofBytes_represented (h : HexString) :
    EqIgnoreCase (HexString.ofBytes h.represented) h := by
  rw [EqIgnoreCase, h.digits_ofBytes_represented, List.map_map]
  exact List.map_congr_left fun digit _ => toAsciiLowercase_idem digit

namespace HexString

/-! ## The derived comparisons -/

/-- The order of the texts. -/
def cmp (h h' : HexString) : Ordering := compare h.digits h'.digits

/-- What is fed to a hasher: the text, and a byte that ends it. -/
def hashed (h : HexString) : List UInt8 := h.digits ++ [0xff]

/-- Compare with a string: the letter case does not matter. -/
def eqStr (h : HexString) (other : String) : Bool :=
  h.digits.map toAsciiLowercase == (asBytes other).map toAsciiLowercase

/-- Two hex strings are equal, order as equal and hash equal. -/
structure ComparesEqual (h h' : HexString) : Prop where
  eq : h = h'
  cmp : h.cmp h' = .eq
  hashed : h.hashed = h'.hashed

theorem eq_of_digits_eq {h h' : HexString} (hdigits : h.digits = h'.digits) : h = h' := by
  cases h
  cases h'
  cases hdigits
  rfl

theorem cmp_eq_iff {h h' : HexString} : h.cmp h' = .eq ↔ h = h' := by
  rw [cmp, Std.compare_eq_iff_eq]
  exact ⟨eq_of_digits_eq, congrArg digits⟩

theorem hashed_inj {h h' : HexString} : h.hashed = h'.hashed ↔ h = h' := by
  rw [hashed, hashed, List.append_cancel_right_eq]
  exact ⟨eq_of_digits_eq, congrArg digits⟩

/-- The derived comparisons agree with each other. -/
theorem comparesEqual_iff {h h' : HexString} : ComparesEqual h h' ↔ h.digits = h'.digits := by
  constructor
  · intro hequal
    rw [hequal.eq]
  · intro hdigits
    obtain rfl := eq_of_digits_eq hdigits
    exact ⟨rfl, cmp_eq_iff.mpr rfl, hashed_inj.mpr rfl⟩

/-! ## The bytes -/

/-- **Two hex strings stand for the same bytes** exactly when their texts are equal but for the
letter case. -/
theorem represented_eq_iff {h h' : HexString} :
    h.represented = h'.represented ↔ EqIgnoreCase h h' := by
  rw [EqIgnoreCase, ← h.digits_ofBytes_represented, ← h'.digits_ofBytes_represented]
  constructor
  · intro hbytes
    rw [hbytes]
  · intro hdigits
    rw [← represented_ofBytes h.represented, eq_of_digits_eq hdigits, represented_ofBytes]

theorem decode_eq_decode_iff {h h' : HexString} :
    (h.decode : Outcome HexStringError (List UInt8)) = h'.decode ↔ EqIgnoreCase h h' := by
  rw [decode_eq, decode_eq, Outcome.ok.injEq, represented_eq_iff]

theorem digits_of_new {value : String} {h : HexString} (hnew : new value = .ok h) :
    h.digits = evenDigits value := by
  rcases new_cases value with ⟨-, h', hok, hdigits⟩ | ⟨-, herr⟩
  · cases hok.symm.trans hnew
    exact hdigits
  · cases herr.symm.trans hnew

/-- The comparison with a string does decide whether the bytes are the same, as long as the string
needs no padding. -/
theorem eqStr_iff {h h' : HexString} {value : String} (hnew : new value = .ok h')
    (heven : (asBytes value).length % 2 = 0) :
    h.eqStr value = true ↔ (h.decode : Outcome HexStringError (List UInt8)) = h'.decode := by
  have hdigits : h'.digits = asBytes value := (digits_of_new hnew).trans (if_pos heven)
  rw [eqStr, beq_iff_eq, decode_eq_decode_iff, EqIgnoreCase, hdigits]

/-! ## Texts -/

/-- Two texts are different, once they are padded to an even number of digits, but only in the
letter case. -/
def DifferInCase (value value' : String) : Prop :=
  evenDigits value ≠ evenDigits value' ∧
    (evenDigits value).map toAsciiLowercase = (evenDigits value').map toAsciiLowercase

/-- **Hex strings are equal when their bytes are**, unless their texts differ only in the letter
case. -/
theorem comparesEqual_iff_decode_eq_iff {value value' : String} {h h' : HexString}
    (hnew : new value = .ok h) (hnew' : new value' = .ok h') :
    (ComparesEqual h h' ↔ (h.decode : Outcome HexStringError (List UInt8)) = h'.decode) ↔
      ¬ DifferInCase value value' := by
  rw [comparesEqual_iff, decode_eq_decode_iff, EqIgnoreCase, digits_of_new hnew,
    digits_of_new hnew', DifferInCase]
  constructor
  · intro hiff hdiffer
    exact hdiffer.1 (hiff.mpr hdiffer.2)
  · intro hsame
    refine ⟨fun hdigits => by rw [hdigits], fun hlower => ?_⟩
    by_contra hne
    exact hsame ⟨hne, hlower⟩

theorem comparesEqual_iff_decode_eq_iff_padded :
    ∃ h h', new "abc" = .ok h ∧ new "0abc" = .ok h' ∧
      ((ComparesEqual h h' ↔ (h.decode : Outcome HexStringError (List UInt8)) = h'.decode) ↔
        ¬ DifferInCase "abc" "0abc") :=
  ⟨_, _, rfl, rfl, comparesEqual_iff_decode_eq_iff rfl rfl⟩

/-- **Two spellings of one byte are not equal.** -/
theorem spellings_not_equal :
    ∃ h h', new "AB" = .ok h ∧ new "ab" = .ok h' ∧
      (h.decode : Outcome HexStringError (List UInt8)) = .ok [0xab] ∧
      (h'.decode : Outcome HexStringError (List UInt8)) = .ok [0xab] ∧
      ¬ ComparesEqual h h' := by
  refine ⟨_, _, rfl, rfl, rfl, rfl, ?_⟩
  rw [comparesEqual_iff]
  decide

end HexString

end Echonet
