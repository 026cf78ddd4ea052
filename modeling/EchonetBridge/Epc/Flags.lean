import EchonetBridge.Epc.Factory
import EchonetBridge.Epc.RoundTrip

/-!
# Epc/Flags — properties with a byte of flags

The version of a node profile names the formats of its messages in two bits of a byte, and the
remote control setting keeps the network and the state of the line in four.  All canonical values
that are accepted come through; a payload is written back exactly when it has no other bits
(`profileVersion_exact`, `remoteControl_exact`).
-/

namespace Echonet

open Outcome

/-! ## The version of a profile -/

/-- The byte that names the formats of messages. -/
def messagesByte (specified arbitrary : Bool) : UInt8 :=
  (if specified then nodeMessageFormatSpecified else 0x00) |||
    (if arbitrary then nodeMessageFormatArbitrary else 0x00)

/-- The payload of a version. -/
def versionPayload (v : NodeProfileObjectEchonetLiteSupportedVersion) : List UInt8 :=
  [v.majorVersion, v.minorVersion, messagesByte v.specifiedMessage v.arbituraryMessage, 0x00]

/-- A version supports at least one format of messages. -/
def SupportsMessages (v : NodeProfileObjectEchonetLiteSupportedVersion) : Prop :=
  v.specifiedMessage = true ∨ v.arbituraryMessage = true

instance (v : NodeProfileObjectEchonetLiteSupportedVersion) : Decidable (SupportsMessages v) :=
  inferInstanceAs (Decidable (_ ∨ _))

/-- The version that a payload spells. -/
def versionOf (major minor messages : UInt8) : NodeProfileObjectEchonetLiteSupportedVersion :=
  ⟨major, minor, messages &&& nodeMessageFormatSpecified == nodeMessageFormatSpecified,
    messages &&& nodeMessageFormatArbitrary == nodeMessageFormatArbitrary⟩

/-- The payloads of versions that support messages: no other bit is set, and the last byte is
zero. -/
def IsVersionPayload (payload : List UInt8) : Prop :=
  payload.length = 4 ∧ (0x01 ≤ payload.getD 2 0 ∧ payload.getD 2 0 ≤ 0x03) ∧ payload.getD 3 0 = 0x00

theorem profileVersionToCanonical_frame
    (r : EpcRef NodeProfileObjectEchonetLiteSupportedVersion)
    (epc major minor messages last : UInt8) :
    profileVersionToCanonical r (frame epc [major, minor, messages, last])
      = .ok (versionOf major minor messages) := rfl

theorem profileVersionFromCanonical_eq (r : EpcRef NodeProfileObjectEchonetLiteSupportedVersion)
    {v : NodeProfileObjectEchonetLiteSupportedVersion} (h : SupportsMessages v) :
    profileVersionFromCanonical r v = .ok (0x00 :: 0x00 :: versionPayload v) := by
  rw [profileVersionFromCanonical, if_pos (Bool.or_eq_true_iff.mpr h)]
  rfl

/-- The flags of a version are read from its byte. -/
theorem versionOf_messagesByte (v : NodeProfileObjectEchonetLiteSupportedVersion) :
    versionOf v.majorVersion v.minorVersion (messagesByte v.specifiedMessage v.arbituraryMessage)
      = v := by
  have hflags : ∀ specified arbitrary : Bool,
      (messagesByte specified arbitrary &&& nodeMessageFormatSpecified
        == nodeMessageFormatSpecified) = specified ∧
      (messagesByte specified arbitrary &&& nodeMessageFormatArbitrary
        == nodeMessageFormatArbitrary) = arbitrary := by decide
  obtain ⟨hspecified, harbitrary⟩ := hflags v.specifiedMessage v.arbituraryMessage
  rw [versionOf, hspecified, harbitrary]

/-- What is written of a version are the two lowest bits of the byte it is read from. -/
theorem versionPayload_versionOf (major minor messages : UInt8) :
    versionPayload (versionOf major minor messages)
      = [major, minor, messages &&& 0x03, 0x00] := by
  have hbyte : messagesByte (messages &&& nodeMessageFormatSpecified == nodeMessageFormatSpecified)
      (messages &&& nodeMessageFormatArbitrary == nodeMessageFormatArbitrary)
        = messages &&& 0x03 := by
    refine Bits.forall_byte messages ?_
    decide +kernel
  rw [versionPayload, versionOf, hbyte]

/-- The validator asks for a format of messages of the version that a payload spells. -/
theorem profileVersionValidator_eq (r : EpcRef NodeProfileObjectEchonetLiteSupportedVersion)
    (epc major minor messages last : UInt8) :
    profileVersionValidator r (frame epc [major, minor, messages, last]) =
      if SupportsMessages (versionOf major minor messages) then .ok true
      else .err (.invalidValue r.epc errMessagesRequired) := by
  simp only [SupportsMessages, versionOf, beq_iff_eq]
  rfl

theorem profileVersionValidator_versionPayload
    (r : EpcRef NodeProfileObjectEchonetLiteSupportedVersion) (epc : UInt8)
    {v : NodeProfileObjectEchonetLiteSupportedVersion} (h : SupportsMessages v) :
    profileVersionValidator r (frame epc (versionPayload v)) = .ok true := by
  rw [versionPayload, profileVersionValidator_eq, versionOf_messagesByte, if_pos h]

/-- The bytes that name a format of messages and have no other bit. -/
theorem supportsMessages_byte_iff (major minor messages : UInt8) :
    SupportsMessages (versionOf major minor messages) ∧ messages &&& 0x03 = messages ↔
      0x01 ≤ messages ∧ messages ≤ 0x03 := by
  rw [SupportsMessages, versionOf, beq_iff_eq, beq_iff_eq]
  refine Bits.forall_byte messages ?_
  decide +kernel

section ProfileVersion

variable {p : StaticNodeProperty NodeProfileObjectEchonetLiteSupportedVersion} {cells : Cells}

/-- A version that supports messages is stored and read back; one that does not is refused. -/
theorem profileVersion_roundTrip_iff (henc : p.fromCanonicalFn = profileVersionFromCanonical)
    (hd : p.toCanonicalFn = profileVersionToCanonical)
    (hv : p.validatorFn = profileVersionValidator)
    (v : NodeProfileObjectEchonetLiteSupportedVersion) (now : ClockReading) :
    p.RoundTrip cells v now (versionPayload v) (· = v) ↔ SupportsMessages v := by
  constructor
  · intro h
    obtain ⟨internal, hinternal, -⟩ := p.fromCanonical_eq_ok h.accepted
    by_contra hmessages
    rw [henc, profileVersionFromCanonical,
      if_neg fun h => hmessages (Bool.or_eq_true_iff.mp h)] at hinternal
    cases hinternal
  · intro h
    refine (p.roundTrip_iff_yes (by rw [henc, profileVersionFromCanonical_eq _ h]) ?_).mpr ?_
    · rw [hd, versionPayload, profileVersionToCanonical_frame]
      exact ⟨_, rfl, versionOf_messagesByte v⟩
    · rw [hv]
      exact profileVersionValidator_versionPayload _ _ h

theorem profileVersion_writtenBack_iff (henc : p.fromCanonicalFn = profileVersionFromCanonical)
    (hd : p.toCanonicalFn = profileVersionToCanonical)
    (hv : p.validatorFn = profileVersionValidator) {payload : List UInt8}
    {now now' : ClockReading} :
    p.WrittenBack cells payload now now' ↔ IsVersionPayload payload := by
  rw [p.writtenBack_iff, henc, hd, hv]
  by_cases hlen : payload.length = 4
  · obtain ⟨major, minor, messages, last, rfl⟩ := List.length_eq_four.mp hlen
    have hpayload : IsVersionPayload [major, minor, messages, last] ↔
        (0x01 ≤ messages ∧ messages ≤ 0x03) ∧ last = 0x00 := and_iff_right hlen
    rw [hpayload, ← supportsMessages_byte_iff major minor, profileVersionValidator_eq,
      profileVersionValidator_eq, profileVersionToCanonical_frame]
    constructor
    · rintro ⟨-, hyes, c, hc, b₀, b₁, hencoded⟩
      cases hc
      have hmessages : SupportsMessages (versionOf major minor messages) := by
        by_contra hno
        rw [if_neg hno] at hyes
        cases hyes
      rw [profileVersionFromCanonical_eq _ hmessages, versionPayload_versionOf] at hencoded
      simp only [Outcome.ok.injEq, List.cons.injEq] at hencoded
      exact ⟨⟨hmessages, hencoded.2.2.2.2.1⟩, hencoded.2.2.2.2.2.1.symm⟩
    · rintro ⟨⟨hmessages, hbyte⟩, rfl⟩
      refine ⟨⟨true, if_pos hmessages⟩, if_pos hmessages, _, rfl, 0x00, 0x00, ?_⟩
      rw [profileVersionFromCanonical_eq _ hmessages, versionPayload_versionOf, hbyte]
  · refine iff_of_false (fun h => ?_) fun h => hlen h.1
    rw [profileVersionValidator, if_neg (by rw [length_frame]; omega)] at h
    exact not_isOk_err _ h.1

end ProfileVersion

/-- **The version of a profile is carried exactly when it supports messages**, and a payload is
written back exactly when it spells such a version and nothing else. -/
theorem profileVersion_exact {F : Type} [F64 F] [Chrono] {groupClass : NodeGroupClass}
    (hprofile : groupClass.classGroupCode = eojClassGroupProfile) :
    ∃ p, propertyFactory F groupClass epcVersionInformation
        = .ok ⟨NodeProfileObjectEchonetLiteSupportedVersion, p⟩ ∧
      (∀ cells v now, p.RoundTrip cells v now (versionPayload v) (· = v) ↔ SupportsMessages v) ∧
      ∀ cells payload now now',
        p.WrittenBack cells payload now now' ↔ IsVersionPayload payload := by
  rw [propertyFactory, if_pos (by decide), if_neg (by decide), if_neg (by decide), if_pos rfl,
    beq_iff_eq.mpr hprofile]
  exact ⟨_, rfl, fun _ => profileVersion_roundTrip_iff rfl rfl rfl,
    fun _ _ _ _ => profileVersion_writtenBack_iff rfl rfl rfl⟩

theorem profileVersion_exact_node :
    ∃ p, hostFactory classProfileNodeProfile epcVersionInformation
        = .ok ⟨NodeProfileObjectEchonetLiteSupportedVersion, p⟩ ∧
      p.RoundTrip .fresh ⟨0x01, 0x0d, true, false⟩ ⟨1, by decide⟩ [0x01, 0x0d, 0x01, 0x00]
        (· = ⟨0x01, 0x0d, true, false⟩) := by
  let := Calendar.chrono
  have hprofile : classProfileNodeProfile.classGroupCode = eojClassGroupProfile := rfl
  obtain ⟨p, hp, htrip, -⟩ := profileVersion_exact (F := Float) hprofile
  exact ⟨p, hp, (htrip _ _ _).mpr (by decide)⟩

/-! ## Remote control -/

/-- The byte of a remote control setting. -/
def remoteControlByte (c : NodeObjectRemoteControl) : UInt8 :=
  (if c.networkType = .nonPublic then 0x41 else 0x42) |||
    (if c.networkStatus = .ok then 0x60 else 0x00)

/-- The setting that a byte spells. -/
def remoteControlOf (byte : UInt8) : NodeObjectRemoteControl :=
  ⟨if byte &&& 0x41 = 0x41 then .nonPublic else .publicNetwork,
    if byte &&& 0x60 = 0x60 then .ok else .notOk⟩

/-- The bytes of the four settings. -/
def IsRemoteControlByte (byte : UInt8) : Prop :=
  byte = 0x41 ∨ byte = 0x42 ∨ byte = 0x61 ∨ byte = 0x62

instance (byte : UInt8) : Decidable (IsRemoteControlByte byte) :=
  inferInstanceAs (Decidable (_ ∨ _))

theorem remoteControlOf_byte (c : NodeObjectRemoteControl) :
    remoteControlOf (remoteControlByte c) = c := by
  obtain ⟨networkType, networkStatus⟩ := c
  cases networkType <;> cases networkStatus <;> decide

theorem remoteControlByte_eq_iff (byte : UInt8) :
    (byte &&& 0x40 = 0x40 ∧ byte &&& 0x03 ≠ 0x00) ∧
      remoteControlByte (remoteControlOf byte) = byte ↔ IsRemoteControlByte byte := by
  refine Bits.forall_byte byte ?_
  decide +kernel

theorem remoteControlValidator_eq (r : EpcRef NodeObjectRemoteControl) (epc byte : UInt8) :
    remoteControlValidator r (frame epc [byte]) =
      if byte &&& 0x40 = 0x40 ∧ byte &&& 0x03 ≠ 0x00 then .ok true
      else .err (.invalidValue r.epc "Invalid boolean value") := rfl

section RemoteControl

variable {p : StaticNodeProperty NodeObjectRemoteControl} {cells : Cells}

/-- Every setting is stored and read back. -/
theorem remoteControl_roundTrip (henc : p.fromCanonicalFn = remoteControlFromCanonical)
    (hd : p.toCanonicalFn = remoteControlToCanonical) (hv : p.validatorFn = remoteControlValidator)
    (c : NodeObjectRemoteControl) (now : ClockReading) :
    p.RoundTrip cells c now [remoteControlByte c] (· = c) := by
  have hencoded : p.fromCanonicalFn (p.ref cells) c = .ok [0x00, 0x00, remoteControlByte c] := by
    rw [henc]
    rfl
  refine (p.roundTrip_iff_yes hencoded ?_).mpr ?_
  · rw [hd]
    exact ⟨_, rfl, remoteControlOf_byte c⟩
  · have hbyte : IsRemoteControlByte (remoteControlByte c) := by
      obtain ⟨networkType, networkStatus⟩ := c
      cases networkType <;> cases networkStatus <;> decide
    rw [hv, remoteControlValidator_eq, if_pos ((remoteControlByte_eq_iff _).mpr hbyte).1]

theorem remoteControl_writtenBack_iff (henc : p.fromCanonicalFn = remoteControlFromCanonical)
    (hd : p.toCanonicalFn = remoteControlToCanonical) (hv : p.validatorFn = remoteControlValidator)
    {payload : List UInt8} {now now' : ClockReading} :
    p.WrittenBack cells payload now now' ↔ ∃ byte, payload = [byte] ∧ IsRemoteControlByte byte := by
  rw [p.writtenBack_iff, henc, hd, hv]
  constructor
  · rintro ⟨⟨answer, hanswer⟩, hyes, c, hc, b₀, b₁, hencoded⟩
    have hlen : payload.length = 1 := by
      by_contra hlen
      rw [remoteControlValidator, validateLength, if_neg (by rw [length_frame]; omega)] at hanswer
      cases hanswer
    obtain ⟨byte, rfl⟩ := List.length_eq_one_iff.mp hlen
    have hc : remoteControlOf byte = c := Outcome.ok.inj hc
    rw [remoteControlValidator_eq] at hyes
    have hbits : byte &&& 0x40 = 0x40 ∧ byte &&& 0x03 ≠ 0x00 := by
      by_contra hno
      rw [if_neg hno] at hyes
      cases hyes
    have hbyte : [0x00, 0x00, remoteControlByte c] = [b₀, b₁, byte] := Outcome.ok.inj hencoded
    simp only [List.cons.injEq] at hbyte
    exact ⟨byte, rfl, (remoteControlByte_eq_iff byte).mp ⟨hbits, hc ▸ hbyte.2.2.1⟩⟩
  · rintro ⟨byte, rfl, hbyte⟩
    obtain ⟨hbits, hback⟩ := (remoteControlByte_eq_iff byte).mpr hbyte
    rw [remoteControlValidator_eq, remoteControlValidator_eq, if_pos hbits, if_pos hbits]
    refine ⟨isOk_ok _, rfl, remoteControlOf byte, rfl, 0x00, 0x00, ?_⟩
    change Outcome.ok [0x00, 0x00, remoteControlByte (remoteControlOf byte)] = _
    rw [hback]

end RemoteControl

/-- **Every remote control setting is carried**, and a payload is written back exactly when it is
the byte of one. -/
theorem remoteControl_exact (F : Type) [F64 F] [Chrono] (groupClass : NodeGroupClass) :
    ∃ p, propertyFactory F groupClass epcRemoteControl = .ok ⟨NodeObjectRemoteControl, p⟩ ∧
      (∀ cells c now, p.RoundTrip cells c now [remoteControlByte c] (· = c)) ∧
      ∀ cells payload now now', p.WrittenBack cells payload now now' ↔
        ∃ byte, payload = [byte] ∧ IsRemoteControlByte byte :=
  ⟨_, rfl, fun _ => remoteControl_roundTrip rfl rfl rfl,
    fun _ _ _ _ => remoteControl_writtenBack_iff rfl rfl rfl⟩

end Echonet
