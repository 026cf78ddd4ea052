import EchonetBridge.Epc.FactoryContract
import EchonetBridge.Epc.RoundTrip

/-!
# Epc/Locations — storing an installation location

The encoder sets all three bits of a room's number instead of masking them, so every room is stored
with the number seven: `installationLocation_losesNothing_iff` says that these are the only rooms
that are read back.
-/

namespace Echonet

open Outcome

variable {F : Type}

namespace NodeObjectInstallationLocation

/-- The number of a room. -/
def roomNumber? : NodeObjectInstallationLocation F → Option UInt8
  | livingRoom number | diningRoom number | kitchen number | bathroom number | lavatory number
  | washroom number | passageway number | room number | stairway number | frontDoor number
  | storeroom number | garden number | garage number | veranda number | other number => some number
  | userDefined _ | notSpecified | indefinite | location _ _ _ | locationInformationCode _ => none

/-- The locations that are neither coordinates nor a location information code. -/
def IsCoded : NodeObjectInstallationLocation F → Prop
  | location _ _ _ | locationInformationCode _ => False
  | _ => True

/-- The locations that have a byte of their own. -/
def HasByte (value : NodeObjectInstallationLocation F) : Prop :=
  value = notSpecified ∨ value = indefinite ∨ ∃ number ≤ 7, value.roomNumber? = some number

end NodeObjectInstallationLocation

open NodeObjectInstallationLocation

/-! ## Rooms -/

/-- The byte of a room has the kind of the room, and a number that is widened to all of its bits. -/
theorem fromCanonical_room {value : NodeObjectInstallationLocation F} {number : UInt8}
    (h : value.roomNumber? = some number) :
    ∃ kind, ∀ r, installationLocationFromCanonical r value = roomInternal kind number := by
  cases value with
  | userDefined | notSpecified | indefinite | location | locationInformationCode => exact nomatch h
  | _ =>
    cases h
    exact ⟨_, fun _ => rfl⟩

theorem number_of_internal (kind number : UInt8) :
    (kind ||| (number ||| 0x07)) &&& 0x07 = 0x07 := by
  rw [← UInt8.or_assoc]
  refine Bits.forall_byte (kind ||| number) ?_
  decide +kernel

/-- A room is read with the number that the last three bits of its byte spell. -/
theorem roomNumber_of_roomOf {byte : UInt8} {value : NodeObjectInstallationLocation F}
    (h : roomOf byte = (.ok value : Outcome EpcError _)) :
    value.roomNumber? = some (byte &&& 0x07) := by
  have hmask : byte &&& 0x00 = 0x00 := UInt8.and_zero
  obtain ⟨k, hk, hkind⟩ := kind_cases byte
  rw [roomOf, if_pos hmask, hkind] at h
  interval_cases k
  · cases h
  all_goals
    cases h
    rfl

/-- Whatever its byte, a room is never read back with another number than seven. -/
theorem number_of_readBack {r : EpcRef (NodeObjectInstallationLocation F)} {epc kind number : UInt8}
    {value : NodeObjectInstallationLocation F}
    (h : installationLocationToCanonical r (frame epc [kind ||| (number ||| 0x07)]) = .ok value) :
    value = indefinite ∨ value.roomNumber? = some 0x07 := by
  have hnumber := number_of_internal kind number
  rw [installationLocationToCanonical, index_frame_first, ok_bind] at h
  generalize kind ||| (number ||| 0x07) = byte at h hnumber
  split_ifs at h with h0 h1 hff
  · rw [h0] at hnumber
    exact absurd hnumber (by decide)
  · rw [h1] at hnumber
    exact absurd hnumber (by decide)
  · cases h
    exact Or.inl rfl
  · rw [roomNumber_of_roomOf h, hnumber]
    exact Or.inr rfl

/-- The seventh room of every kind is read back. -/
theorem readBack_seventh (r r' : EpcRef (NodeObjectInstallationLocation F)) (epc : UInt8)
    {value : NodeObjectInstallationLocation F} (h : value.roomNumber? = some 0x07) :
    ∃ byte, installationLocationFromCanonical r value = .ok [0x00, 0x00, byte] ∧
      installationLocationToCanonical r' (frame epc [byte]) = .ok value := by
  cases value with
  | userDefined | notSpecified | indefinite | location | locationInformationCode => exact nomatch h
  | _ =>
    cases h
    exact ⟨_, rfl, rfl⟩

/-! ## The property -/

/-- A location is refused with an error or read back as it was written, and the locations that have
a byte are accepted. -/
structure LosesNothing (p : StaticNodeProperty (NodeObjectInstallationLocation F)) (cells : Cells)
    (value : NodeObjectInstallationLocation F) (now : ClockReading) : Prop where
  kept : (∃ e, (p.fromCanonical cells value now).1 = .err e) ∨
    (p.fromCanonical cells value now).1 = .ok () ∧
      p.toCanonical (p.fromCanonical cells value now).2 = .ok value
  accepted : value.HasByte → (p.fromCanonical cells value now).1 = .ok ()

section Property

variable {p : StaticNodeProperty (NodeObjectInstallationLocation F)} {cells : Cells}
  {value : NodeObjectInstallationLocation F} {byte : UInt8}

theorem location_stored (hepc : p.epc ≠ 0x01)
    (henc : p.fromCanonicalFn (p.ref cells) value = .ok [0x00, 0x00, byte])
    (hv : p.validatorFn = installationLocationValidator) (now : ClockReading) :
    p.fromCanonical cells value now = (.ok (), ⟨frame p.epc [byte], now.1⟩) := by
  refine p.fromCanonical_of_yes henc (Nat.le_add_left 2 1) ?_ now
  rw [hv, List.drop_succ_cons, List.drop_succ_cons, List.drop_zero,
    installationLocationValidator_eq hepc]
  rfl

/-- What has a byte is kept when its byte is read as it. -/
theorem losesNothing_iff_read (hepc : p.epc ≠ 0x01)
    (henc : p.fromCanonicalFn (p.ref cells) value = .ok [0x00, 0x00, byte])
    (hd : p.toCanonicalFn = installationLocationToCanonical)
    (hv : p.validatorFn = installationLocationValidator) (now : ClockReading) :
    LosesNothing p cells value now ↔
      installationLocationToCanonical p.decoderRef (frame p.epc [byte]) = .ok value := by
  have hstored := location_stored hepc henc hv now
  have hkept := p.unchanged_iff hstored
  rw [hd] at hkept
  constructor
  · exact fun h => hkept.mp h.kept
  · exact fun hvalue => ⟨hkept.mpr hvalue, fun _ => by rw [hstored]⟩

/-- A room is kept exactly when its number is seven. -/
theorem losesNothing_room_iff (hepc : p.epc ≠ 0x01)
    (henc : p.fromCanonicalFn = installationLocationFromCanonical)
    (hd : p.toCanonicalFn = installationLocationToCanonical)
    (hv : p.validatorFn = installationLocationValidator) (cells : Cells) {number : UInt8}
    (h : value.roomNumber? = some number) (now : ClockReading) :
    LosesNothing p cells value now ↔ number = 0x07 := by
  constructor
  · intro hkept
    obtain ⟨kind, hkind⟩ := fromCanonical_room h
    have hbyte : p.fromCanonicalFn (p.ref cells) value
        = .ok [0x00, 0x00, kind ||| (number ||| 0x07)] := by rw [henc, hkind, roomInternal]
    rcases number_of_readBack ((losesNothing_iff_read hepc hbyte hd hv now).mp hkept) with rfl | h7
    · exact nomatch h
    · exact Option.some.inj (h.symm.trans h7)
  · rintro rfl
    obtain ⟨byte, hbyte, hread⟩ := readBack_seventh (p.ref cells) p.decoderRef p.epc h
    exact (losesNothing_iff_read hepc (by rw [henc, hbyte]) hd hv now).mpr hread

/-- The four bytes of a user-defined location leave no room for the header, and are refused. -/
theorem losesNothing_userDefined (hepc : p.epc ≠ 0x01)
    (henc : p.fromCanonicalFn = installationLocationFromCanonical)
    (hv : p.validatorFn = installationLocationValidator) (cells : Cells) (code : UInt32)
    (now : ClockReading) : LosesNothing p cells (userDefined code) now := by
  have hno : p.fromCanonical cells (userDefined code) now
      = (.err (.validationFailed p.epc), cells) := by
    have hinternal : p.fromCanonicalFn (p.ref cells) (userDefined code)
        = .ok (BigEndian.toBeBytes₃₂ code).toList := by
      rw [henc, installationLocationFromCanonical]
    refine p.fromCanonical_of_no hinternal (by rw [Vector.length_toList]; decide) ?_ now
    rw [hv, installationLocationValidator_eq hepc]
    rfl
  refine ⟨Or.inl ⟨_, by rw [hno]⟩, ?_⟩
  rintro (hvalue | hvalue | ⟨_, -, hnumber⟩)
  · exact nomatch hvalue
  · exact nomatch hvalue
  · exact nomatch hnumber

end Property

/-- **An installation location is not lost** exactly when it is no room, or the seventh. -/
theorem installationLocation_losesNothing_iff (F : Type) [F64 F] [Chrono]
    (groupClass : NodeGroupClass) :
    ∃ p, propertyFactory F groupClass epcInstallationLocation
        = .ok ⟨NodeObjectInstallationLocation F, p⟩ ∧
      ∀ cells value now, value.IsCoded →
        (LosesNothing p cells value now ↔
          ∀ number, value.roomNumber? = some number → number = 0x07) := by
  refine ⟨_, rfl, fun cells value now hcoded => ?_⟩
  have hepc : epcInstallationLocation ≠ 0x01 := by decide
  cases hroom : value.roomNumber? with
  | some number =>
    rw [losesNothing_room_iff hepc rfl rfl rfl cells hroom]
    exact ⟨fun h _ heq => Option.some.inj heq ▸ h, fun h => h number rfl⟩
  | none =>
    refine iff_of_true ?_ fun _ h => nomatch h
    cases value with
    | userDefined code => exact losesNothing_userDefined hepc rfl rfl cells code now
    | notSpecified => exact (losesNothing_iff_read hepc rfl rfl rfl now).mpr rfl
    | indefinite => exact (losesNothing_iff_read hepc rfl rfl rfl now).mpr rfl
    | location | locationInformationCode => exact hcoded.elim
    | _ => exact nomatch hroom

/-- The first living room is read back as the seventh. -/
theorem first_room_read_as_seventh :
    ∃ p, hostFactory classProfileNodeProfile epcInstallationLocation
        = .ok ⟨NodeObjectInstallationLocation Float, p⟩ ∧
      (p.fromCanonical .fresh (livingRoom 0x01) ⟨1, by decide⟩).1 = .ok () ∧
      p.toCanonical (p.fromCanonical .fresh (livingRoom 0x01) ⟨1, by decide⟩).2
        = .ok (livingRoom 0x07) ∧
      ¬ LosesNothing p .fresh (livingRoom 0x01) ⟨1, by decide⟩ := by
  refine ⟨_, rfl, rfl, rfl, fun h => ?_⟩
  have hseven := (losesNothing_room_iff (by decide) rfl rfl rfl .fresh rfl _).mp h
  exact absurd hseven (by decide)

end Echonet
