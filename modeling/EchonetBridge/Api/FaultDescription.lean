import EchonetBridge.Api.Types
import EchonetBridge.Foundations.Bits

/-!
# Api/FaultDescription — fault descriptions and their codes

The high byte of a code is taken from its low eight bits, so it is always zero, and every code whose
low byte is below `0x6f` is read by that byte alone.  `tryFromU16_toU16_iff` says which descriptions
are read back from their codes all the same.
-/

namespace Echonet

open Bits Outcome

namespace NodeObjectFaultDescription

/-! ## Reading a code -/

/-- The low eight bits have no high byte. -/
theorem highByte_eq_zero (value : UInt16) : ((0xff &&& value) >>> 8).toUInt8 = 0 := by
  have hlt : 255 &&& value.toNat < 256 := Nat.lt_succ_of_le Nat.and_le_left
  apply UInt8.toNat_inj.mp
  simp [Nat.shiftRight_eq_div_pow, Nat.div_eq_of_lt hlt]

theorem lowByte_eq (value : UInt16) : (0x00ff &&& value).toUInt8 = value.toUInt8 := by
  have hlow : value.toNat &&& (0x00ff : UInt16).toNat = value.toNat % 256 :=
    Nat.and_two_pow_sub_one_eq_mod value.toNat 8
  rw [← UInt8.toNat_inj, UInt16.toNat_toUInt8, UInt16.toNat_toUInt8, UInt16.toNat_and, Nat.and_comm,
    hlow, Nat.mod_mod]

/-- A code with a small low byte is read by that byte. -/
theorem tryFromU16_of_lt {value : UInt16} (h : value.toUInt8 < 0x6f) :
    tryFromU16 value = ofLowByte value.toUInt8 0x00 := by
  rw [tryFromU16, highByte_eq_zero, lowByte_eq]
  exact if_pos ⟨Or.inl rfl, h⟩

/-- Any other code is read as a whole. -/
theorem tryFromU16_of_le {value : UInt16} (h : 0x6f ≤ value.toUInt8) :
    tryFromU16 value =
      if value ≥ 0x006f ∧ value ≤ 0x03e8 then .ok (repairUserDefined value)
      else if value ≥ 0x03e9 ∧ value ≤ 0x03ec then .ok (echonetMiddleware value)
      else if value = 0x03ff then .ok indeterminate
      else .err "Invalid value" := by
  have hne : value ≠ 0x0000 := by
    rintro rfl
    exact absurd h (by decide)
  rw [tryFromU16, highByte_eq_zero, lowByte_eq,
    if_neg fun hlow => absurd hlow.2 (UInt8.not_lt.mpr h), if_neg hne]

/-- What is read by a low byte is never a user-defined repair. -/
theorem ofLowByte_ne_repairUserDefined (lowByte highByte : UInt8) (value : UInt16) :
    ofLowByte lowByte highByte ≠ .ok (repairUserDefined value) := by
  rw [ofLowByte]
  repeat refine ite_ne_ok nofun ?_
  nofun

/-! ## Reading the code of a description -/

/-- The payload of a description lies in the range of values that are meant to be read as its
constructor. -/
def InRange : NodeObjectFaultDescription → Prop
  | recoverableUserDefined code => code = 0x00 ∨ 0x04 ≤ code
  | repairSafetyDevice index => index ≤ 9
  | repairSwitch index => index ≤ 9
  | repairSensor index => index ≤ 29
  | repairComponent index => index ≤ 29
  | repairControlBoard index => index ≤ 20
  | repairUserDefined code => 0x006f ≤ code ∧ code ≤ 0x03e8
  | echonetMiddleware code => 0x03e9 ≤ code ∧ code ≤ 0x03ec
  | _ => True

/-- The descriptions that are read back from their codes: the code of none is not read at all, a
recoverable fault loses its high byte, and a user-defined repair with a small low byte is read as
another description. -/
def Survives : NodeObjectFaultDescription → Prop
  | none => False
  | recoverableUserDefined code => code = 0x00
  | repairUserDefined code => 0x6f ≤ code.toUInt8
  | _ => True

/-- The low byte is read as the description, whatever the rest of the code. -/
def ReadAs (lowByte : UInt8) (d : NodeObjectFaultDescription) : Prop :=
  lowByte < 0x6f ∧ ofLowByte lowByte 0x00 = .ok d

instance (lowByte : UInt8) (d : NodeObjectFaultDescription) : Decidable (ReadAs lowByte d) :=
  inferInstanceAs (Decidable (_ ∧ _))

theorem ReadAs.tryFromU16 {value : UInt16} {d : NodeObjectFaultDescription}
    (h : ReadAs value.toUInt8 d) : tryFromU16 value = .ok d := by
  rw [tryFromU16_of_lt h.1, h.2]

/-- The repairs of one kind have consecutive codes, and each is read back. -/
theorem tryFromU16_indexed (kind : UInt8 → NodeObjectFaultDescription) {index last : UInt8}
    (hread : ∀ n < 256, UInt8.ofNat n ≤ last →
      ReadAs (kind (UInt8.ofNat n)).toU16.toUInt8 (kind (UInt8.ofNat n)))
    (h : index ≤ last) : tryFromU16 (kind index).toU16 = .ok (kind index) :=
  ReadAs.tryFromU16 (forall_byte index hread h)

/-- The high byte of a user-defined recoverable fault is lost. -/
theorem tryFromU16_recoverableUserDefined (code : UInt8) :
    tryFromU16 (recoverableUserDefined code).toU16 = .ok (recoverableUserDefined 0x00) := by
  have hlow : (recoverableUserDefined code).toU16.toUInt8 = 0x09 :=
    forall_byte code (by decide +kernel)
  refine ReadAs.tryFromU16 ?_
  rw [hlow]
  decide

/-- A user-defined repair is read back when its low byte is no code of its own. -/
theorem tryFromU16_repairUserDefined {code : UInt16} (h : (repairUserDefined code).InRange) :
    tryFromU16 code = .ok (repairUserDefined code) ↔ 0x6f ≤ code.toUInt8 := by
  rcases UInt8.lt_or_le code.toUInt8 0x6f with hlt | hle
  · rw [tryFromU16_of_lt hlt]
    exact iff_of_false (ofLowByte_ne_repairUserDefined _ _ _) (UInt8.not_le.mpr hlt)
  · have hrange : code ≥ 0x006f ∧ code ≤ 0x03e8 := h
    rw [tryFromU16_of_le hle, if_pos hrange]
    exact iff_of_true rfl hle

/-- The codes of the middleware are four. -/
theorem middleware_cases {code : UInt16} (h : (echonetMiddleware code).InRange) :
    ∃ n < 4, code = UInt16.ofNat (0x03e9 + n) := by
  have hge : 0x03e9 ≤ code.toNat := h.1
  have hle : code.toNat ≤ 0x03ec := h.2
  refine ⟨code.toNat - 0x03e9, by omega, ?_⟩
  rw [Nat.add_sub_cancel' hge, UInt16.ofNat_toNat]

theorem tryFromU16_echonetMiddleware {code : UInt16} (h : (echonetMiddleware code).InRange) :
    tryFromU16 code = .ok (echonetMiddleware code) := by
  obtain ⟨n, hn, rfl⟩ := middleware_cases h
  interval_cases n <;> decide

/-- **A description in the range of its constructor is read back from its code** exactly when it
`Survives`. -/
theorem tryFromU16_toU16_iff {d : NodeObjectFaultDescription} (h : d.InRange) :
    tryFromU16 d.toU16 = .ok d ↔ d.Survives := by
  cases d with
  | none => exact iff_of_false (by decide) id
  | recoverableByPowerCycle | recoverableByReset | recoverableByPhysicalAdjustment
  | recoverableByAdditionalResources | recoverableByCleaning | recoverableBatteryReplacement
  | indeterminate => exact iff_of_true (by decide) trivial
  | recoverableUserDefined code =>
    rw [tryFromU16_recoverableUserDefined, ok.injEq, recoverableUserDefined.injEq]
    exact eq_comm
  | repairSafetyDevice index =>
    exact iff_of_true (tryFromU16_indexed repairSafetyDevice (by decide +kernel) h) trivial
  | repairSwitch index =>
    exact iff_of_true (tryFromU16_indexed repairSwitch (by decide +kernel) h) trivial
  | repairSensor index =>
    exact iff_of_true (tryFromU16_indexed repairSensor (by decide +kernel) h) trivial
  | repairComponent index =>
    exact iff_of_true (tryFromU16_indexed repairComponent (by decide +kernel) h) trivial
  | repairControlBoard index =>
    exact iff_of_true (tryFromU16_indexed repairControlBoard (by decide +kernel) h) trivial
  | repairUserDefined code => exact tryFromU16_repairUserDefined h
  | echonetMiddleware code => exact iff_of_true (tryFromU16_echonetMiddleware h) trivial

theorem tryFromU16_toU16_iff_switch :
    tryFromU16 (repairSwitch 0x09).toU16 = .ok (repairSwitch 0x09) :=
  (tryFromU16_toU16_iff (by rw [InRange]; decide)).mpr trivial

/-- The user-defined repair `0x0101` is read as a fault that a power cycle recovers from, and the
code of none is not read. -/
theorem userDefined_read_as_recoverable :
    (repairUserDefined 0x0101).InRange ∧
      tryFromU16 (repairUserDefined 0x0101).toU16 = .ok recoverableByPowerCycle ∧
      none.InRange ∧ tryFromU16 none.toU16 = .err "Invalid value" :=
  ⟨by rw [InRange]; decide, by decide, trivial, by decide⟩

end NodeObjectFaultDescription

end Echonet
