import EchonetBridge.Epc.Families
import EchonetBridge.Epc.RoundTrip

/-!
# Epc/AsciiStrings — ASCII string properties

The decoder takes the stored bytes for UTF-8 without a check.  Both ways of writing run the
validator, which lets only ASCII through whatever the inner validator answers, so the decoder never
sees anything else (`asciiString_sound`).
-/

namespace Echonet

open Outcome Text

/-- Only bytes below `0x80`. -/
def IsAsciiBytes (payload : List UInt8) : Prop := ∀ b ∈ payload, b < 0x80

theorem isAsciiBytes_asBytes {s : String} (h : isAscii s = true) : IsAsciiBytes (asBytes s) := by
  intro b hb
  rw [asBytes_of_isAscii h] at hb
  obtain ⟨c, hc, rfl⟩ := List.mem_map.mp hb
  have hlt : c.toNat < 0x80 := of_decide_eq_true (List.all_eq_true.mp h c hc)
  rw [UInt8.lt_iff_toNat_lt, UInt8.toNat_ofNat_of_lt' (by change c.toNat < 256; omega)]
  exact hlt

/-! ## Converters and validator -/

variable {validator : ValidatorType String}

/-- ASCII bytes are left to the inner validator, and others are refused. -/
theorem asciiStringValidator_of_ascii (r : EpcRef String) (epc : UInt8) {payload : List UInt8}
    (h : IsAsciiBytes payload) :
    asciiStringValidator validator r (frame epc payload) = validator r (frame epc payload) := by
  have hall : payload.all (· < 0x80) = true :=
    List.all_eq_true.mpr fun b hb => by simpa using h b hb
  rw [asciiStringValidator, sliceFrom_frame, ok_bind, if_pos hall]

theorem asciiStringValidator_of_not_ascii (r : EpcRef String) (epc : UInt8)
    {payload : List UInt8} (h : ¬ IsAsciiBytes payload) :
    asciiStringValidator validator r (frame epc payload)
      = .err (.invalidValue r.epc errInvalidAscii) := by
  have hall : ¬ payload.all (· < 0x80) = true := fun hall =>
    h fun b hb => by simpa using List.all_eq_true.mp hall b hb
  rw [asciiStringValidator, sliceFrom_frame, ok_bind, if_neg hall]

/-- The validator answers on ASCII only. -/
theorem isAsciiBytes_of_answer {r : EpcRef String} {epc : UInt8} {payload : List UInt8}
    (h : IsOk (asciiStringValidator validator r (frame epc payload))) : IsAsciiBytes payload := by
  by_contra hascii
  rw [asciiStringValidator_of_not_ascii r epc hascii] at h
  exact not_isOk_err _ h

/-- The decoder returns the string whose bytes are stored. -/
theorem asciiStringToCanonical_frame (r : EpcRef String) (epc : UInt8) (s : String) :
    asciiStringToCanonical r (frame epc (asBytes s)) = .ok s := by
  rw [asciiStringToCanonical, sliceFrom_frame, ok_bind, fromUtf8Unchecked_asBytes]

/-! ## The property -/

section Property

variable {p : StaticNodeProperty String}

/-- What is stored is ASCII, and is the bytes of the canonical value. -/
theorem asciiString_get (hd : p.toCanonicalFn = asciiStringToCanonical)
    (hv : p.validatorFn = asciiStringValidator validator) {calls : List (Call String)}
    {payload : List UInt8} (hget : p.get (p.run calls) = .ok payload) :
    IsAsciiBytes payload ∧ ∃ s, p.toCanonical (p.run calls) = .ok s ∧ asBytes s = payload := by
  rcases p.framed_run calls with hfresh | ⟨hne, stored, hstored, r, answer, -, hanswer⟩
  · rw [hfresh] at hget
    cases hget
  · rw [StaticNodeProperty.get, if_neg hne, hstored, sliceFrom_frame] at hget
    cases hget
    rw [hv] at hanswer
    have hascii := isAsciiBytes_of_answer ⟨answer, hanswer⟩
    refine ⟨hascii, ofAscii payload, ?_, asBytes_ofAscii hascii⟩
    rw [StaticNodeProperty.toCanonical, if_neg hne, hstored, hd]
    conv => lhs; rw [← asBytes_ofAscii hascii]
    exact asciiStringToCanonical_frame _ _ _

theorem asciiString_set_iff (hv : p.validatorFn = asciiStringValidator validator) (cells : Cells)
    (payload : List UInt8) (now : ClockReading) :
    IsOk (p.set cells payload now).1 ↔
      IsAsciiBytes payload ∧ IsOk (validator (p.ref cells) (frame p.epc payload)) := by
  rw [p.isOk_set, hv]
  by_cases hascii : IsAsciiBytes payload
  · rw [asciiStringValidator_of_ascii _ _ hascii, and_iff_right hascii]
  · rw [asciiStringValidator_of_not_ascii _ _ hascii]
    exact iff_of_false (not_isOk_err _) fun h => hascii h.1

/-- An ASCII string is stored when the inner validator says yes to it, and no other string is. -/
theorem asciiString_fromCanonical_iff (henc : p.fromCanonicalFn = asciiStringFromCanonical)
    (hv : p.validatorFn = asciiStringValidator validator) (cells : Cells) (s : String)
    (now : ClockReading) :
    (p.fromCanonical cells s now).1 = .ok () ↔
      isAscii s = true ∧ validator (p.ref cells) (frame p.epc (asBytes s)) = .ok true := by
  by_cases hascii : isAscii s = true
  · have hinternal : p.fromCanonicalFn (p.ref cells) s = .ok (0x00 :: 0x00 :: asBytes s) := by
      rw [henc, asciiStringFromCanonical, if_pos hascii]
    rw [p.fromCanonical_eq_ok_iff hinternal (Nat.le_add_left 2 _), and_iff_right hascii, hv]
    change asciiStringValidator validator _ (frame p.epc (asBytes s)) = .ok true ↔ _
    rw [asciiStringValidator_of_ascii _ _ (isAsciiBytes_asBytes hascii)]
  · refine iff_of_false (fun hok => ?_) fun h => hascii h.1
    obtain ⟨internal, hinternal, -⟩ := p.fromCanonical_eq_ok hok
    rw [henc, asciiStringFromCanonical, if_neg hascii] at hinternal
    cases hinternal

/-- A string that is stored is read back. -/
theorem asciiString_readback (henc : p.fromCanonicalFn = asciiStringFromCanonical)
    (hd : p.toCanonicalFn = asciiStringToCanonical) {cells : Cells} {s : String}
    {now : ClockReading} (hok : (p.fromCanonical cells s now).1 = .ok ()) :
    p.toCanonical (p.fromCanonical cells s now).2 = .ok s := by
  obtain ⟨internal, hinternal, -, hstored⟩ := p.fromCanonical_eq_ok hok
  rw [henc, asciiStringFromCanonical] at hinternal
  split_ifs at hinternal with hascii
  cases hinternal
  rw [hstored]
  exact (p.toCanonical_frame (asBytes s) now).trans (by rw [hd, asciiStringToCanonical_frame])

end Property

/-- **An ASCII property holds ASCII**, after any calls and whatever its inner validator answers.
Its canonical value has the stored bytes, and a canonical value that is stored is read back. -/
theorem asciiString_sound (name : String) (epc : UInt8) (source : UInt16) (announce : Bool)
    (getOperation setOperation : EpcAccessRule) (validator : ValidatorType String) :
    ∃ p, asciiStringProperty name epc source announce getOperation setOperation validator
        = .ok ⟨String, p⟩ ∧
      (∀ calls payload, p.get (p.run calls) = .ok payload →
        IsAsciiBytes payload ∧
          ∃ s, p.toCanonical (p.run calls) = .ok s ∧ asBytes s = payload) ∧
      ∀ cells s now, (p.fromCanonical cells s now).1 = .ok () →
        p.toCanonical (p.fromCanonical cells s now).2 = .ok s :=
  ⟨_, rfl, fun _ _ => asciiString_get rfl rfl, fun _ _ _ => asciiString_readback rfl rfl⟩

end Echonet
