import EchonetBridge.Api.HexStringEquality
import EchonetBridge.Epc.Families
import EchonetBridge.Epc.RoundTrip

/-!
# Epc/HexStrings — hex string properties

The encoder decodes the string to its bytes, and the decoder writes the bytes as digits again.  Both
are exact, so what a property stores depends on its validator alone, up to the case of the digits
(`hexString_exact`).
-/

namespace Echonet

open Outcome

theorem hexStringFromCanonical_eq (r : EpcRef HexString) (h : HexString) :
    hexStringFromCanonical r h = .ok (0x00 :: 0x00 :: h.represented) := by
  have hlen : (List.replicate h.byteLen (0x00 : UInt8)).length = h.byteLen := List.length_replicate
  rw [hexStringFromCanonical, h.decodeIntoSlice_of_le hlen.ge, hlen, h.rightAligned_zero le_rfl,
    Nat.sub_self, List.replicate_zero, List.nil_append]

theorem hexStringToCanonical_frame (r : EpcRef HexString) (epc : UInt8) (payload : List UInt8) :
    hexStringToCanonical r (frame epc payload) = .ok (HexString.ofBytes payload) := by
  rw [hexStringToCanonical, sliceFrom_frame, ok_bind, HexString.ofSlice_eq]

section Property

variable {p : StaticNodeProperty HexString} {v : ValidatorType HexString} {cells : Cells}

/-- A string is stored as its bytes when the validator says yes to them. -/
theorem hexString_roundTrip (henc : p.fromCanonicalFn = hexStringFromCanonical)
    (hd : p.toCanonicalFn = hexStringToCanonical) (h : HexString) (now : ClockReading) :
    p.RoundTrip cells h now h.represented (EqIgnoreCase · h) ↔
      p.validatorFn (p.ref cells) (frame p.epc h.represented) = .ok true := by
  refine p.roundTrip_iff_yes (by rw [henc, hexStringFromCanonical_eq]) ?_
  rw [hd, hexStringToCanonical_frame]
  exact ⟨_, rfl, eqIgnoreCase_ofBytes_represented h⟩

theorem hexString_writtenBack_iff (henc : p.fromCanonicalFn = hexStringFromCanonical)
    (hd : p.toCanonicalFn = hexStringToCanonical) {payload : List UInt8} {now now' : ClockReading} :
    p.WrittenBack cells payload now now' ↔
      IsOk (p.validatorFn (p.ref cells) (frame p.epc payload)) ∧
      p.validatorFn (p.ref ⟨frame p.epc payload, now.1⟩) (frame p.epc payload) = .ok true := by
  rw [p.writtenBack_iff, henc, hd]
  refine and_congr_right fun _ => and_iff_left ⟨_, hexStringToCanonical_frame _ _ _, 0x00, 0x00, ?_⟩
  rw [hexStringFromCanonical_eq, HexString.represented_ofBytes]

end Property

/-- **Hex strings are carried exactly**, whatever the validator looks at: a string makes a round
trip, up to the case of its digits, when the validator says yes to its bytes, and a payload is
written back when the validator lets it in and then says yes to it. -/
theorem hexString_exact (name : String) (epc : UInt8) (source : UInt16) (announce : Bool)
    (getOperation setOperation : EpcAccessRule) (validator : ValidatorType HexString) :
    ∃ p, hexStringProperty name epc source announce getOperation setOperation validator
        = .ok ⟨HexString, p⟩ ∧
      (∀ cells h now, p.RoundTrip cells h now h.represented (EqIgnoreCase · h) ↔
        validator (p.ref cells) (frame epc h.represented) = .ok true) ∧
      ∀ cells payload now now', p.WrittenBack cells payload now now' ↔
        IsOk (validator (p.ref cells) (frame epc payload)) ∧
        validator (p.ref ⟨frame epc payload, now.1⟩) (frame epc payload) = .ok true :=
  ⟨_, rfl, fun _ => hexString_roundTrip rfl rfl, fun _ _ _ _ => hexString_writtenBack_iff rfl rfl⟩

end Echonet
