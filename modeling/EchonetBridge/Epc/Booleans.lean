import EchonetBridge.Epc.Families
import EchonetBridge.Epc.Factory
import EchonetBridge.Epc.RoundTrip

/-!
# Epc/Booleans — boolean properties

The validator compares the first byte of the buffer, which is the code of the property, with the two
values.  So a property whose code is one of its own values accepts every byte, and any other accepts
none (`boolean_codec_iff`).
-/

namespace Echonet

open Outcome

variable {trueValue falseValue : UInt8}

/-- What the validator looks at is the code of the property. -/
theorem isOk_booleanValidator (r : EpcRef Bool) (epc : UInt8) (payload : List UInt8) :
    IsOk (booleanValidator trueValue falseValue r (frame epc payload)) ↔
      payload.length = 1 ∧ (epc = trueValue ∨ epc = falseValue) := by
  rw [booleanValidator, length_frame, index_frame_epc, ok_bind]
  by_cases hlen : payload.length = 1
  · rw [if_neg (by omega), and_iff_right hlen]
    split_ifs with h
    · exact iff_of_true (isOk_ok _) h
    · exact iff_of_false (not_isOk_err _) h
  · rw [if_pos (by omega)]
    exact iff_of_false (not_isOk_err _) fun h => hlen h.1

/-- The two values are told apart. -/
theorem booleanToCanonical_frame (h : trueValue ≠ falseValue) (r : EpcRef Bool) (epc : UInt8)
    (b : Bool) :
    booleanToCanonical trueValue falseValue r
      (frame epc [if b then trueValue else falseValue]) = .ok b := by
  rw [booleanToCanonical, index_frame_first, ok_bind]
  cases b with
  | true => exact if_pos rfl
  | false => exact (if_neg h.symm).trans (if_pos rfl)

/-! ## The property -/

section Property

variable {p : StaticNodeProperty Bool}

theorem boolean_stored (henc : p.fromCanonicalFn = booleanFromCanonical trueValue falseValue)
    (hv : p.validatorFn = booleanValidator trueValue falseValue)
    (hepc : p.epc = trueValue ∨ p.epc = falseValue) (cells : Cells) (b : Bool)
    (now : ClockReading) :
    p.fromCanonical cells b now
      = (.ok (), ⟨frame p.epc [if b then trueValue else falseValue], now.1⟩) := by
  have hinternal : p.fromCanonicalFn (p.ref cells) b
      = .ok [0x00, 0x00, if b then trueValue else falseValue] := by
    rw [henc, booleanFromCanonical]
  refine p.fromCanonical_of_yes hinternal (Nat.le_add_left 2 1) ?_ now
  rw [hv, booleanValidator, length_frame, index_frame_epc, ok_bind, if_neg (by simp), if_pos hepc]
  rfl

/-- Nothing is stored by a property whose code is neither of its values. -/
theorem boolean_accepted (hv : p.validatorFn = booleanValidator trueValue falseValue)
    {cells : Cells} {b : Bool} {now : ClockReading}
    (h : (p.fromCanonical cells b now).1 = .ok ()) :
    p.epc = trueValue ∨ p.epc = falseValue := by
  rcases p.call_cases cells (.fromCanonical b now) with ⟨payload, answer, -, hok, -⟩ | ⟨hne, -⟩
  · rw [hv] at hok
    exact ((isOk_booleanValidator _ _ _).mp ⟨answer, hok⟩).2
  · exact absurd h hne

theorem boolean_roundTrip_iff (hne : trueValue ≠ falseValue)
    (henc : p.fromCanonicalFn = booleanFromCanonical trueValue falseValue)
    (hd : p.toCanonicalFn = booleanToCanonical trueValue falseValue)
    (hv : p.validatorFn = booleanValidator trueValue falseValue) (cells : Cells) (b : Bool)
    (now : ClockReading) :
    p.RoundTrip cells b now [if b then trueValue else falseValue] (· = b) ↔
      p.epc = trueValue ∨ p.epc = falseValue := by
  refine ⟨fun h => boolean_accepted hv h.accepted, fun hepc => ?_⟩
  rw [p.roundTrip_iff (boolean_stored henc hv hepc cells b now), hd,
    booleanToCanonical_frame hne]
  exact ⟨rfl, b, rfl, rfl⟩

/-- A payload is one of the two values. -/
def IsBooleanValue (trueValue falseValue : UInt8) (payload : List UInt8) : Prop :=
  payload = [trueValue] ∨ payload = [falseValue]

theorem boolean_set_iff (hv : p.validatorFn = booleanValidator trueValue falseValue)
    (cells : Cells) (payload : List UInt8) (now : ClockReading) :
    (IsOk (p.set cells payload now).1 ↔ IsBooleanValue trueValue falseValue payload) ↔
      (payload.length = 1 →
        (IsBooleanValue trueValue falseValue payload ↔
          p.epc = trueValue ∨ p.epc = falseValue)) := by
  have hone : IsBooleanValue trueValue falseValue payload → payload.length = 1 := by
    rintro (rfl | rfl) <;> rfl
  rw [p.isOk_set, hv, isOk_booleanValidator]
  by_cases hlen : payload.length = 1
  · rw [and_iff_right hlen, imp_iff_right hlen]
    exact iff_comm
  · exact iff_of_true (iff_of_false (fun h => hlen h.1) fun h => hlen (hone h)) fun h =>
      absurd h hlen

end Property

/-- **A boolean property stores and reads its values** exactly when its code is one of them; it then
judges a single byte rightly only if that is a value as well, and otherwise only if it is none. -/
theorem boolean_codec_iff (name : String) (epc : UInt8) (source : UInt16) (announce : Bool)
    (getOperation setOperation : EpcAccessRule) (hne : trueValue ≠ falseValue) :
    ∃ p, booleanProperty name epc source announce getOperation setOperation trueValue falseValue
        = .ok ⟨Bool, p⟩ ∧
      (∀ cells b now,
        p.RoundTrip cells b now [if b then trueValue else falseValue] (· = b) ↔
          epc = trueValue ∨ epc = falseValue) ∧
      ∀ cells payload now,
        (IsOk (p.set cells payload now).1 ↔ IsBooleanValue trueValue falseValue payload) ↔
          (payload.length = 1 →
            (IsBooleanValue trueValue falseValue payload ↔ epc = trueValue ∨ epc = falseValue)) :=
  ⟨_, rfl, boolean_roundTrip_iff hne rfl rfl rfl, boolean_set_iff rfl⟩

theorem boolean_codec_iff_own_code :
    ∃ p, booleanProperty "Operating Status" 0x30 0x0001 true .mandatory .supported 0x30 0x31
        = .ok ⟨Bool, p⟩ ∧ p.RoundTrip .fresh true ⟨1, by decide⟩ [0x30] (· = true) := by
  obtain ⟨p, hp, htrip, -⟩ := boolean_codec_iff "Operating Status" 0x30 0x0001 true .mandatory
    .supported (show (0x30 : UInt8) ≠ 0x31 by decide)
  exact ⟨p, hp, (htrip .fresh true ⟨1, by decide⟩).mpr (Or.inl rfl)⟩

/-- The operating status refuses both of its values. -/
theorem operating_status_refused :
    ∃ p, hostFactory classProfileNodeProfile epcOperatingStatus = .ok ⟨Bool, p⟩ ∧
      (p.fromCanonical .fresh true ⟨1, by decide⟩).1
        = .err (.invalidValue epcOperatingStatus errMsgInvalidBoolean) ∧
      (p.set .fresh [epcOperationStatusOn] ⟨1, by decide⟩).1
        = .err (.invalidValue epcOperatingStatus errMsgInvalidBoolean) :=
  ⟨_, rfl, rfl, rfl⟩

end Echonet
