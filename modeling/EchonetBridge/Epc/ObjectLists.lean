import EchonetBridge.Epc.Contract
import EchonetBridge.Epc.Factory
import EchonetBridge.Epc.RoundTrip
import EchonetBridge.Foundations.Stride

/-!
# Epc/ObjectLists — lists of objects, as properties

The encoder writes the three bytes of every object, one object behind the other; the decoder reads
object `i` from byte `i`.  A list is read back as it was written exactly when its bytes after the
first alternate between two values (`eojArray_roundTrip_iff`).
-/

namespace Echonet

open Outcome

/-! ## Objects and their bytes -/

/-- The objects that a payload spells, three bytes each. -/
def eojsOf : List UInt8 → List EOJ
  | a :: b :: c :: rest => ⟨a, b, c⟩ :: eojsOf rest
  | _ => []

@[simp] theorem eojsOf_flatMap (eojs : List EOJ) : eojsOf (eojs.flatMap EOJ.asBytes) = eojs := by
  induction eojs with
  | nil => rfl
  | cons eoj eojs ih =>
    rw [List.flatMap_cons]
    exact congrArg (eoj :: ·) ih

/-- A payload of whole objects is what its objects are written as. -/
theorem flatMap_eojsOf : ∀ payload : List UInt8, payload.length % 3 = 0 →
    (eojsOf payload).flatMap EOJ.asBytes = payload
  | [], _ => rfl
  | [_], h => nomatch h
  | [_, _], h => nomatch h
  | a :: b :: c :: rest, h => by
    have hrest : rest.length % 3 = 0 := by
      simp only [List.length_cons] at h
      omega
    rw [eojsOf, List.flatMap_cons, flatMap_eojsOf rest hrest]
    rfl

/-- Object `i` of a payload is written from byte `3 * i` on. -/
theorem eojsOf_eq : ∀ payload : List UInt8,
    eojsOf payload = (List.range (payload.length / 3)).map fun i => eojAt payload (3 * i)
  | [] => rfl
  | [_] => by simp [eojsOf]
  | [_, _] => by simp [eojsOf]
  | a :: b :: c :: rest => by
    have hlen : (a :: b :: c :: rest).length / 3 = rest.length / 3 + 1 := by
      simp only [List.length_cons]
      omega
    rw [eojsOf, eojsOf_eq rest, hlen, List.range_succ_eq_map, List.map_cons, List.map_map]
    rfl

theorem length_flatMap_asBytes (eojs : List EOJ) :
    (eojs.flatMap EOJ.asBytes).length = 3 * eojs.length := by
  induction eojs with
  | nil => rfl
  | cons eoj eojs ih =>
    rw [List.flatMap_cons, List.length_append, ih, List.length_cons, Nat.mul_add, Nat.add_comm]
    rfl

/-! ## Reading objects back -/

/-- Every byte after the first is the one two places before it: they alternate between two
values. -/
def Alternates (payload : List UInt8) : Prop :=
  ∀ k, 1 ≤ k → k + 2 < payload.length → payload.getD (k + 2) 0 = payload.getD k 0

theorem eojAt_eq_iff (payload : List UInt8) (k l : ℕ) :
    eojAt payload k = eojAt payload l ↔
      ∀ j ≤ 2, payload.getD (k + j) 0 = payload.getD (l + j) 0 := by
  rw [eojAt, eojAt, EOJ.mk.injEq]
  constructor
  · rintro ⟨h0, h1, h2⟩ j hj
    interval_cases j
    · exact h0
    · exact h1
    · exact h2
  · exact fun h => ⟨h 0 (by decide), h 1 (by decide), h 2 (by decide)⟩

/-- **What is read back is what was written** exactly when the bytes alternate. -/
theorem readBack_eq_iff {payload : List UInt8} (h : payload.length % 3 = 0) :
    (List.range (payload.length / 3)).map (eojAt payload) = eojsOf payload ↔
      Alternates payload := by
  have hlen : payload.length = (2 + 1) * (payload.length / 3) := by omega
  rw [eojsOf_eq, List.map_inj_left, Alternates]
  simp only [List.mem_range, eojAt_eq_iff]
  rw [Stride.stride_one_iff (f := fun k => payload.getD k 0) (p := 2) (by decide), ← hlen]

/-! ## The property -/

section Property

variable {p : StaticNodeProperty EOJVec}

theorem eojArray_stored (henc : p.fromCanonicalFn = eojArrayFromCanonical)
    (hv : p.validatorFn = eojArrayValidator) (cells : Cells) (eojs : EOJVec) (now : ClockReading) :
    p.fromCanonical cells eojs now
      = (.ok (), ⟨frame p.epc (eojs.flatMap EOJ.asBytes), now.1⟩) := by
  have hinternal : p.fromCanonicalFn (p.ref cells) eojs
      = .ok (0x00 :: 0x00 :: eojs.flatMap EOJ.asBytes) := by rw [henc, eojArrayFromCanonical]
  have hyes : p.validatorFn (p.ref cells) (frame p.epc (eojs.flatMap EOJ.asBytes)) = .ok true := by
    rw [hv, eojArrayValidator_eq, length_flatMap_asBytes, Nat.mul_mod_right]
    rfl
  exact p.fromCanonical_of_yes hinternal (Nat.le_add_left 2 _) hyes now

theorem eojArray_roundTrip (henc : p.fromCanonicalFn = eojArrayFromCanonical)
    (hd : p.toCanonicalFn = eojArrayToCanonical) (hv : p.validatorFn = eojArrayValidator)
    (cells : Cells) (eojs : EOJVec) (now : ClockReading) :
    p.RoundTrip cells eojs now (eojs.flatMap EOJ.asBytes) (· = eojs) ↔
      Alternates (eojs.flatMap EOJ.asBytes) := by
  have hthree : (eojs.flatMap EOJ.asBytes).length % 3 = 0 := by
    rw [length_flatMap_asBytes, Nat.mul_mod_right]
  rw [p.roundTrip_iff (eojArray_stored henc hv cells eojs now), hd, eojArrayToCanonical_eq,
    ← readBack_eq_iff hthree, eojsOf_flatMap, and_iff_right rfl]
  exact ⟨fun ⟨c, hc, heq⟩ => (Outcome.ok.inj hc).trans heq, fun heq => ⟨_, rfl, heq⟩⟩

theorem eojArray_storedBack (henc : p.fromCanonicalFn = eojArrayFromCanonical)
    (hd : p.toCanonicalFn = eojArrayToCanonical) (hv : p.validatorFn = eojArrayValidator)
    (cells : Cells) {payload : List UInt8} (now now' : ClockReading)
    (hthree : payload.length % 3 = 0) :
    p.StoredBack cells payload now now' ↔ Alternates payload := by
  rw [p.storedBack_iff (by rw [hv, eojArrayValidator_eq]) (by rw [hd, eojArrayToCanonical_eq])
    (eojArray_stored henc hv _ _ now'), ← readBack_eq_iff hthree]
  refine ⟨fun h => ?_, fun h => by rw [h, flatMap_eojsOf payload hthree]⟩
  rw [← congrArg eojsOf h, eojsOf_flatMap]

end Property

/-- **Lists of objects make a round trip**, and payloads are stored back as they are, exactly when
their bytes after the first alternate. -/
theorem eojArray_roundTrip_iff (name : String) (epc : UInt8) (source : UInt16) (announce : Bool)
    (getOperation setOperation : EpcAccessRule) :
    ∃ p, eojArrayProperty name epc source announce getOperation setOperation = .ok ⟨EOJVec, p⟩ ∧
      (∀ cells eojs now,
        p.RoundTrip cells eojs now (eojs.flatMap EOJ.asBytes) (· = eojs) ↔
          Alternates (eojs.flatMap EOJ.asBytes)) ∧
      ∀ cells payload now now', payload.length % 3 = 0 →
        (p.StoredBack cells payload now now' ↔ Alternates payload) :=
  ⟨_, rfl, eojArray_roundTrip rfl rfl rfl, fun cells _ now now' =>
    eojArray_storedBack rfl rfl rfl cells now now'⟩

/-- The second of two objects is read from the middle of the first. -/
theorem second_object_misread :
    ∃ p, hostFactory classProfileNodeProfile epcSelfnodeInstanceListS = .ok ⟨EOJVec, p⟩ ∧
      ∃ eojs, eojs = [⟨0x0e, 0xf0, 0x01⟩, ⟨0x05, 0xff, 0x02⟩] ∧
        (p.fromCanonical .fresh eojs ⟨1, by decide⟩).1 = .ok () ∧
        p.toCanonical (p.fromCanonical .fresh eojs ⟨1, by decide⟩).2
          = .ok [⟨0x0e, 0xf0, 0x01⟩, ⟨0xf0, 0x01, 0x05⟩] ∧
        ¬ p.RoundTrip .fresh eojs ⟨1, by decide⟩ (eojs.flatMap EOJ.asBytes) (· = eojs) := by
  refine ⟨_, rfl, _, rfl, rfl, rfl, fun htrip => ?_⟩
  obtain ⟨c, hc, heq⟩ := htrip.read
  cases hc
  exact absurd heq (by decide)

end Echonet
