import EchonetBridge.Epc.FactoryContract
import EchonetBridge.Epc.RoundTrip
import EchonetBridge.Middleware.Node

/-!
# Middleware/Profile — the profile object of a node

The profile object is built with an identification number for the node.  The number is different for
different nodes, and the property it is meant for takes no value at all
(`identificationNumber_refused`): its validator counts the header, and compares its own code.
-/

namespace Echonet

open BigEndian Outcome

/-! ## Objects -/

/-- ECHONET Object representation. -/
structure NodeObject where
  eoj : EOJ
  properties : List EpcWrapper

/-- The unique identification number of a node: the medium, the manufacturer and the instance. -/
def identificationNumber {ε : Type} (manufacturerCode : Vector UInt8 3) (inst : UInt64) :
    Outcome ε (List UInt8) := do
  let instanceBytes := toBeBytes₆₄ inst
  let identificationNumberSize := 17
  let number := List.replicate identificationNumberSize 0x00
  let number ← setAt number 0 0xfe
  let number ← writeSlice number 1 4 manufacturerCode.toList
  writeSlice number (identificationNumberSize - 1 - 8) (identificationNumberSize - 1)
    instanceBytes.toList

/-- Create a profile object.  The identification number is not stored yet. -/
def NodeObject.profile (F : Type) [F64 F] [Chrono] (type : NodeType)
    (manufacturerCode : Vector UInt8 3) (inst : UInt64) : Outcome EpcError NodeObject :=
  match (identificationNumber manufacturerCode inst : Outcome EpcError (List UInt8)),
    propertyFactory F classProfileNodeProfile epcOperatingStatus with
  | .ok _, .ok operatingStatus =>
    .ok ⟨EOJ.fromGroupclassInstance classProfileNodeProfile type.toU8, [operatingStatus]⟩
  | _, _ => .panic

/-! ## Identification numbers -/

theorem identificationNumber_eq {ε : Type} (manufacturerCode : Vector UInt8 3) (inst : UInt64) :
    (identificationNumber manufacturerCode inst : Outcome ε (List UInt8))
      = .ok (0xfe :: (manufacturerCode.toList ++ ([0x00, 0x00, 0x00, 0x00] ++
          ((toBeBytes₆₄ inst).toList ++ [0x00])))) := by
  have hcode := manufacturerCode.length_toList
  have hinst := (toBeBytes₆₄ inst).length_toList
  rw [toList_eq_ofFn] at hcode
  simp only [identificationNumber]
  rw [setAt_of_lt (by decide), ok_bind, toList_eq_ofFn, writeSlice,
    if_pos ⟨by decide, by decide, hcode⟩, ok_bind, writeSlice, if_pos ⟨by decide, by simp, hinst⟩]
  rfl

theorem identificationNumber_inj {ε : Type} {manufacturerCode manufacturerCode' : Vector UInt8 3}
    {inst inst' : UInt64}
    (h : (identificationNumber manufacturerCode inst : Outcome ε (List UInt8))
      = identificationNumber manufacturerCode' inst') :
    manufacturerCode = manufacturerCode' ∧ inst = inst' := by
  rw [identificationNumber_eq, identificationNumber_eq] at h
  injection h with h
  injection h with _ h
  obtain ⟨hcode, h⟩ := List.append_inj h (by simp)
  obtain ⟨-, h⟩ := List.append_inj h rfl
  obtain ⟨hinst, -⟩ := List.append_inj h (by simp)
  exact ⟨Vector.toList_inj.mp hcode, toBeBytes₆₄_inj (Vector.toList_inj.mp hinst)⟩

/-- A profile object can be built for every node. -/
theorem profile_eq (F : Type) [F64 F] [Chrono] (type : NodeType) (manufacturerCode : Vector UInt8 3)
    (inst : UInt64) :
    ∃ w, propertyFactory F classProfileNodeProfile epcOperatingStatus = .ok w ∧
      NodeObject.profile F type manufacturerCode inst
        = .ok ⟨EOJ.fromGroupclassInstance classProfileNodeProfile type.toU8, [w]⟩ := by
  refine ⟨_, rfl, ?_⟩
  rw [NodeObject.profile, identificationNumber_eq]
  rfl

/-! ## The property -/

/-- A number is stored, and read back as it was and as a hex string. -/
structure StoresNumber (p : StaticNodeProperty HexString) (cells : Cells) (number : List UInt8)
    (now : ClockReading) : Prop where
  accepted : (p.set cells number now).1 = .ok ()
  get_eq : p.get (p.set cells number now).2 = .ok number
  read : p.toCanonical (p.set cells number now).2 = .ok (HexString.ofBytes number)

/-- A payload is accepted if it is two bytes short, and the code of the property is a class. -/
theorem identificationValidator_frame {r : EpcRef HexString} {epc : UInt8} {payload : List UInt8}
    (h : identificationValidator true r (frame epc payload) = .ok true) :
    payload.length = 15 ∧ epc = 0xfe := by
  rw [identificationValidator] at h
  rcases ite_eq_ok h with ⟨hlen, h⟩ | ⟨-, h⟩
  · rw [index_frame_epc, ok_bind, if_pos rfl] at h
    rcases ite_eq_ok h with ⟨hclass, -⟩ | ⟨-, h⟩
    · exact ⟨Nat.succ_injective (Nat.succ_injective hlen), hclass⟩
    · cases h
  · cases h

/-- The property takes no value. -/
theorem identification_set_ne_ok {p : StaticNodeProperty HexString}
    (hv : p.validatorFn = identificationValidator true) (hepc : p.epc ≠ 0xfe) (cells : Cells)
    (payload : List UInt8) (now : ClockReading) : (p.set cells payload now).1 ≠ .ok () := by
  rw [Ne, (loudOn_identification true p.epc).set_eq_ok_iff hv]
  exact fun h => hepc (identificationValidator_frame h).2

/-- **No node's identification number is stored**: the property it is meant for refuses it.
Different nodes have different numbers all the same. -/
theorem identificationNumber_refused (F : Type) [F64 F] [Chrono] :
    ∃ p, propertyFactory F classProfileNodeProfile epcIdentificationNumber = .ok ⟨HexString, p⟩ ∧
      (∀ manufacturerCode inst, ∃ number,
        (identificationNumber manufacturerCode inst : Outcome EpcError _) = .ok number ∧
          number.length = 17 ∧ ∀ cells now, ¬ StoresNumber p cells number now) ∧
      ∀ manufacturerCode inst manufacturerCode' inst',
        (identificationNumber manufacturerCode inst : Outcome EpcError _)
          = identificationNumber manufacturerCode' inst' →
        manufacturerCode = manufacturerCode' ∧ inst = inst' := by
  refine ⟨_, rfl, fun manufacturerCode inst => ?_, fun _ _ _ _ => identificationNumber_inj⟩
  refine ⟨_, identificationNumber_eq manufacturerCode inst, by simp, fun cells now h => ?_⟩
  exact identification_set_ne_ok rfl (by decide) cells _ now h.accepted

/-- The number of the first node of an unregistered manufacturer is refused for its length, and
without two of its bytes for its class. -/
theorem identificationNumber_one_refused :
    ∃ p, hostFactory classProfileNodeProfile epcIdentificationNumber = .ok ⟨HexString, p⟩ ∧
      ∃ number, (identificationNumber #v[0xff, 0xff, 0xff] 1 : Outcome EpcError _) = .ok number ∧
        (p.set .fresh number ⟨1, by decide⟩).1
          = .err (.invalidValue epcIdentificationNumber "expected 17 bytes found 19") ∧
        (p.set .fresh (number.take 15) ⟨1, by decide⟩).1
          = .err (.invalidValue epcIdentificationNumber "Invalid identifier class") := by
  refine ⟨_, rfl, _, identificationNumber_eq _ _, ?_, ?_⟩
  · rfl
  · rfl

end Echonet
