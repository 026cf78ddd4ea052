import EchonetBridge.Epc.Readback

/-!
# Epc/FaultContent — the fault content is checked against the past

The validator resolves the content that is stored, and not the one it is given.  While there is none
it fails, so there never is one: every run of writes leaves the property fresh, and it refuses the
code of every fault (`faultContent_validatesCandidate_iff`).
-/

namespace Echonet

open BigEndian Outcome

/-- The payload is the two-byte code of a fault. -/
def Spells (payload : List UInt8) (d : NodeObjectFaultDescription) : Prop :=
  ∃ value, payload = (toBeBytes₁₆ value).toList ∧
    NodeObjectFaultDescription.tryFromU16 value = .ok d

/-- What `set` is given is what it checks: the codes of faults are accepted and read back, and what
is refused changes nothing. -/
structure ValidatesCandidate (p : StaticNodeProperty NodeObjectFaultDescription) (cells : Cells)
    (payload : List UInt8) (now : ClockReading) : Prop where
  accepted_iff : IsOk (p.set cells payload now).1 ↔ ∃ d, Spells payload d
  read : ∀ d, IsOk (p.set cells payload now).1 → Spells payload d →
    p.toCanonical (p.set cells payload now).2 = .ok d
  unchanged : ¬ IsOk (p.set cells payload now).1 → (p.set cells payload now).2 = cells

section Property

variable {p : StaticNodeProperty NodeObjectFaultDescription}

/-- **Whether a payload is accepted depends on what is stored**, and not on the fault it spells. -/
theorem isOk_set_faultContent (hv : p.validatorFn = faultContentValidator) (cells : Cells)
    (payload : List UInt8) (now : ClockReading) :
    IsOk (p.set cells payload now).1 ↔ payload.length = 2 ∧ IsOk (p.toCanonical cells) := by
  rw [p.isOk_set, hv, isOk_faultContentValidator, length_frame]
  exact and_congr_left' (by omega)

/-- No run of writes ever stores a fault content. -/
theorem faultContent_run (hv : p.validatorFn = faultContentValidator)
    (calls : List (Call NodeObjectFaultDescription)) : p.run calls = .fresh :=
  StaticNodeProperty.Unwritable.run_eq_fresh (unwritable_faultContent hv) calls

/-- A fresh property refuses every payload, and stays fresh. -/
theorem not_isOk_set_fresh (hv : p.validatorFn = faultContentValidator) (payload : List UInt8)
    (now : ClockReading) : ¬ IsOk (p.set .fresh payload now).1 := fun h =>
  not_isOk_err _ ((isOk_set_faultContent hv .fresh payload now).mp h).2

theorem validatesCandidate_run_iff (hv : p.validatorFn = faultContentValidator)
    (calls : List (Call NodeObjectFaultDescription)) (payload : List UInt8) (now : ClockReading) :
    ValidatesCandidate p (p.run calls) payload now ↔ ¬ ∃ d, Spells payload d := by
  have hrefused := not_isOk_set_fresh hv payload now
  have hfresh : (p.set .fresh payload now).2 = .fresh := faultContent_run hv [.set payload now]
  rw [faultContent_run hv]
  constructor
  · rintro ⟨haccepted, -, -⟩ hspelt
    exact hrefused (haccepted.mpr hspelt)
  · intro hnone
    exact ⟨iff_of_false hrefused hnone, fun _ h => absurd h hrefused, fun _ => hfresh⟩

end Property

/-- **The fault content validates its candidate**, in every state that a run of writes can reach,
exactly when the candidate spells no fault: nothing is ever accepted. -/
theorem faultContent_validatesCandidate_iff (F : Type) [F64 F] [Chrono]
    (groupClass : NodeGroupClass) :
    ∃ p, propertyFactory F groupClass epcFaultContent = .ok ⟨NodeObjectFaultDescription, p⟩ ∧
      ∀ calls payload now,
        ValidatesCandidate p (p.run calls) payload now ↔ ¬ ∃ d, Spells payload d :=
  ⟨_, rfl, validatesCandidate_run_iff rfl⟩

/-- A new property refuses the code of a fault that a power cycle recovers from. -/
theorem power_cycle_refused :
    ∃ p, hostFactory classProfileNodeProfile epcFaultContent
        = .ok ⟨NodeObjectFaultDescription, p⟩ ∧
      Spells [0x00, 0x01] .recoverableByPowerCycle ∧
      p.set .fresh [0x00, 0x01] ⟨1, by decide⟩ = (.err (.noValue epcFaultContent), .fresh) ∧
      ¬ ValidatesCandidate p (p.run []) [0x00, 0x01] ⟨1, by decide⟩ := by
  have hspelt : Spells [0x00, 0x01] .recoverableByPowerCycle :=
    ⟨0x0001, by decide, by decide⟩
  refine ⟨_, rfl, hspelt, rfl, fun h => ?_⟩
  exact (validatesCandidate_run_iff rfl [] _ _).mp h ⟨_, hspelt⟩

end Echonet
