import EchonetBridge.Epc.Factory
import EchonetBridge.Epc.RoundTrip

/-!
# Epc/Versions — the version of a device

The release and the revision are written to the last two of four bytes and read from the first two,
and a release that is not ASCII is narrowed to a byte before it is tested:
`deviceVersion_kept_iff` says what comes through all the same.
-/

namespace Echonet

open Outcome Text

/-! ## The release -/

/-- The byte of a release. -/
def releaseByte (release : Char) : UInt8 := UInt8.ofNat release.toUpper.toNat

theorem releaseByte_of_lt {release : Char} (h : release.toNat < 0x80) :
    releaseByte release < 0x80 :=
  forall_ascii (motive := fun release => releaseByte release < 0x80) h (by decide +kernel)

/-- Only the null character is null in upper case. -/
theorem toUpper_eq_null_iff (release : Char) : release.toUpper = '\x00' ↔ release = '\x00' := by
  rcases Nat.lt_or_ge release.toNat 0x80 with h | h
  · exact forall_ascii (motive := fun release => release.toUpper = '\x00' ↔ release = '\x00') h
      (by decide +kernel)
  · rw [toUpper_of_le h]

/-- Narrowing keeps the low byte of the code point. -/
theorem releaseByte_lt_iff {release : Char} (h : 0x80 ≤ release.toNat) :
    releaseByte release < 0x80 ↔ release.toNat % 256 < 0x80 := by
  rw [releaseByte, toUpper_of_le h, UInt8.lt_iff_toNat_lt, UInt8.toNat_ofNat']
  rfl

/-! ## The property -/

/-- A version is accepted exactly when its release is ASCII, and read back in upper case. -/
structure KeepsVersion (p : StaticNodeProperty NodeDeviceObjectEchonetLiteSupportedVersion)
    (cells : Cells) (v : NodeDeviceObjectEchonetLiteSupportedVersion) (now : ClockReading) :
    Prop where
  accepted_iff : IsOk (p.fromCanonical cells v now).1 ↔ v.release.toNat < 0x80
  read : IsOk (p.fromCanonical cells v now).1 →
    p.toCanonical (p.fromCanonical cells v now).2 = .ok ⟨v.release.toUpper, v.revision⟩

/-- The release and the revision are those that are read whatever was written; or the release is
not ASCII, and neither is its low byte. -/
def ReadAsWritten (v : NodeDeviceObjectEchonetLiteSupportedVersion) : Prop :=
  v.release = '\x00' ∧ v.revision = 0x00 ∨ 0x80 ≤ v.release.toNat ∧ 0x80 ≤ v.release.toNat % 256

section Property

variable {p : StaticNodeProperty NodeDeviceObjectEchonetLiteSupportedVersion}

theorem deviceVersionValidator_eq (r : EpcRef NodeDeviceObjectEchonetLiteSupportedVersion)
    (epc release revision : UInt8) :
    deviceVersionValidator r (frame epc [0x00, 0x00, release, revision]) =
      if release < 0x80 then .ok true else .err (.invalidValue r.epc "invalid release") := rfl

theorem deviceVersion_encoded (henc : p.fromCanonicalFn = deviceVersionFromCanonical)
    (cells : Cells) (v : NodeDeviceObjectEchonetLiteSupportedVersion) :
    p.fromCanonicalFn (p.ref cells) v
      = .ok [0x00, 0x00, 0x00, 0x00, releaseByte v.release, v.revision] := by
  rw [henc, deviceVersionFromCanonical, releaseByte]

theorem isOk_deviceVersion_stored (henc : p.fromCanonicalFn = deviceVersionFromCanonical)
    (hv : p.validatorFn = deviceVersionValidator) (cells : Cells)
    (v : NodeDeviceObjectEchonetLiteSupportedVersion) (now : ClockReading) :
    IsOk (p.fromCanonical cells v now).1 ↔ releaseByte v.release < 0x80 := by
  rw [isOk_unit_iff, p.fromCanonical_eq_ok_iff (deviceVersion_encoded henc cells v)
    (Nat.le_add_left 2 4), hv, List.drop_succ_cons, List.drop_succ_cons, List.drop_zero,
    deviceVersionValidator_eq]
  split_ifs with hsmall
  · exact iff_of_true rfl hsmall
  · exact iff_of_false (by simp) hsmall

/-- What is read does not depend on what was written. -/
theorem deviceVersion_read (henc : p.fromCanonicalFn = deviceVersionFromCanonical)
    (hd : p.toCanonicalFn = deviceVersionToCanonical) {cells : Cells}
    {v : NodeDeviceObjectEchonetLiteSupportedVersion} {now : ClockReading}
    (hok : IsOk (p.fromCanonical cells v now).1) :
    p.toCanonical (p.fromCanonical cells v now).2 = .ok ⟨'\x00', 0x00⟩ := by
  obtain ⟨_, hok⟩ := hok
  obtain ⟨internal, hinternal, -, hstored⟩ := p.fromCanonical_eq_ok hok
  rw [deviceVersion_encoded henc] at hinternal
  cases hinternal
  rw [hstored, p.toCanonical_frame, hd]
  rfl

theorem deviceVersion_kept (henc : p.fromCanonicalFn = deviceVersionFromCanonical)
    (hd : p.toCanonicalFn = deviceVersionToCanonical) (hv : p.validatorFn = deviceVersionValidator)
    (cells : Cells) (v : NodeDeviceObjectEchonetLiteSupportedVersion) (now : ClockReading) :
    KeepsVersion p cells v now ↔ ReadAsWritten v := by
  have hok := isOk_deviceVersion_stored henc hv cells v now
  rcases Nat.lt_or_ge v.release.toNat 0x80 with hascii | hascii
  · have hsmall := releaseByte_of_lt hascii
    have hread := deviceVersion_read henc hd (hok.mpr hsmall)
    constructor
    · intro h
      have heq := hread.symm.trans (h.read (hok.mpr hsmall))
      injection heq with heq
      injection heq with hrelease hrevision
      exact Or.inl ⟨(toUpper_eq_null_iff _).mp hrelease.symm, hrevision.symm⟩
    · rintro (⟨hrelease, hrevision⟩ | ⟨hlarge, -⟩)
      · refine ⟨iff_of_true (hok.mpr hsmall) hascii, fun _ => ?_⟩
        rw [hread, (toUpper_eq_null_iff _).mpr hrelease, hrevision]
      · exact absurd hlarge (Nat.not_le.mpr hascii)
  · rw [releaseByte_lt_iff hascii] at hok
    constructor
    · intro h
      refine Or.inr ⟨hascii, Nat.not_lt.mp fun hlow => ?_⟩
      exact absurd (h.accepted_iff.mp (hok.mpr hlow)) (Nat.not_lt.mpr hascii)
    · rintro (⟨hrelease, -⟩ | ⟨-, hlow⟩)
      · rw [hrelease] at hascii
        exact absurd hascii (by decide)
      · have hno : ¬ IsOk (p.fromCanonical cells v now).1 := fun h =>
          absurd (hok.mp h) (Nat.not_lt.mpr hlow)
        exact ⟨iff_of_false hno (Nat.not_lt.mpr hascii), fun h => absurd h hno⟩

end Property

/-- **A device version comes through** exactly when it is the one that is read whatever was written,
or when the byte its release is narrowed to is not ASCII either. -/
theorem deviceVersion_kept_iff {F : Type} [F64 F] [Chrono] {groupClass : NodeGroupClass}
    (hdevice : groupClass.classGroupCode ≠ eojClassGroupProfile) :
    ∃ p, propertyFactory F groupClass epcVersionInformation
        = .ok ⟨NodeDeviceObjectEchonetLiteSupportedVersion, p⟩ ∧
      ∀ cells v now, KeepsVersion p cells v now ↔ ReadAsWritten v := by
  rw [propertyFactory, if_pos (by decide), if_neg (by decide), if_neg (by decide), if_pos rfl,
    beq_eq_false_iff_ne.mpr hdevice]
  exact ⟨_, rfl, deviceVersion_kept rfl rfl rfl⟩

theorem deviceVersion_kept_iff_null :
    ∃ p, hostFactory ⟨0x05, 0xff⟩ epcVersionInformation
        = .ok ⟨NodeDeviceObjectEchonetLiteSupportedVersion, p⟩ ∧
      KeepsVersion p .fresh ⟨'\x00', 0x00⟩ ⟨1, by decide⟩ := by
  let := Calendar.chrono
  have hdevice : (⟨0x05, 0xff⟩ : NodeGroupClass).classGroupCode ≠ eojClassGroupProfile := by decide
  obtain ⟨p, hp, hkept⟩ := deviceVersion_kept_iff (F := Float) hdevice
  exact ⟨p, hp, (hkept _ _ _).mpr (Or.inl ⟨rfl, rfl⟩)⟩

/-- Release `Q` revision 1 is read back as the null release, and a release that is not ASCII is
accepted. -/
theorem deviceVersion_lost :
    ∃ p, hostFactory ⟨0x05, 0xff⟩ epcVersionInformation
        = .ok ⟨NodeDeviceObjectEchonetLiteSupportedVersion, p⟩ ∧
      (p.fromCanonical .fresh ⟨'Q', 0x01⟩ ⟨1, by decide⟩).1 = .ok () ∧
      p.toCanonical (p.fromCanonical .fresh ⟨'Q', 0x01⟩ ⟨1, by decide⟩).2
        = .ok ⟨'\x00', 0x00⟩ ∧
      (p.fromCanonical .fresh ⟨'\u0141', 0x01⟩ ⟨1, by decide⟩).1 = .ok () :=
  ⟨_, rfl, rfl, rfl, rfl⟩

end Echonet
