import EchonetBridge.Epc.AsciiStrings
import EchonetBridge.Epc.Booleans
import EchonetBridge.Epc.Integers
import EchonetBridge.Epc.PackedDecimals
import EchonetBridge.Epc.PropertyMaps
import EchonetBridge.Epc.Readback

/-!
# Epc/Acceptance — what each property of the factory accepts

The payloads that a property accepts do not depend on what it holds.  They are given by a `Shape`,
and `propertyTable` lists the shapes of all codes: the factory has a property for the codes of the
table and no other, which accepts the payloads of its shape and no other
(`propertyFactory_accepts`).  So what it can ever hold is known as well
(`propertyFactory_reachable_iff`): five of the codes never hold a value.

The factory is the one with `f64` read as exact rationals: the limits of the packed properties are
quotients, which doubles round.
-/

namespace Echonet

open BigEndian Outcome Text

/-! ## What a property accepts -/

namespace StaticNodeProperty

variable {T : Type} (p : StaticNodeProperty T)

/-- Whatever a run has left in the property, its validator answers on these payloads. -/
def AcceptsExactly (accepted : List UInt8 → Prop) : Prop :=
  ∀ calls payload, IsOk (p.validatorFn (p.ref (p.run calls)) (frame p.epc payload)) ↔
    accepted payload

variable {p} {accepted : List UInt8 → Prop}

/-- A validator that does not look at what is stored. -/
theorem acceptsExactly_of (h : ∀ r, r.epc = p.epc → ∀ payload,
    IsOk (p.validatorFn r (frame p.epc payload)) ↔ accepted payload) :
    p.AcceptsExactly accepted := fun calls => h (p.ref (p.run calls)) rfl

/-- A property that nothing is written to while it is fresh accepts nothing. -/
theorem Unwritable.acceptsExactly (h : p.Unwritable) : p.AcceptsExactly fun _ => False := by
  refine fun calls payload => iff_of_false ?_ not_false
  rintro ⟨answer, hanswer⟩
  rw [h.run_eq_fresh calls] at hanswer
  exact h _ _ rfl _ _ hanswer

namespace AcceptsExactly

variable (h : p.AcceptsExactly accepted)
include h

theorem set_eq_ok_iff (calls : List (Call T)) (payload : List UInt8) (now : ClockReading) :
    (p.set (p.run calls) payload now).1 = .ok () ↔ accepted payload := by
  rw [← h calls payload]
  constructor
  · intro hok
    rw [← p.isOk_set payload now, hok]
    exact isOk_ok _
  · rintro ⟨answer, hanswer⟩
    rw [p.set_of_ok hanswer]

/-- **What a property can hold** is nothing, or an accepted payload behind its header. -/
theorem run_eq_iff (cells : Cells) :
    (∃ calls, p.run calls = cells) ↔ cells = .fresh ∨ ∃ payload, ∃ now : ClockReading,
      accepted payload ∧ cells = ⟨frame p.epc payload, now.1⟩ := by
  constructor
  · rintro ⟨calls, rfl⟩
    induction calls using List.reverseRecOn with
    | nil => exact Or.inl rfl
    | append_singleton calls call ih =>
      rw [p.run_concat]
      rcases p.call_cases (p.run calls) call with ⟨payload, answer, -, hv, -, heq⟩ | ⟨-, heq⟩
      · exact Or.inr ⟨payload, call.now, (h calls payload).mp ⟨answer, hv⟩, by rw [heq]⟩
      · rw [heq]
        exact ih
  · rintro (rfl | ⟨payload, now, haccepted, rfl⟩)
    · exact ⟨[], rfl⟩
    · obtain ⟨answer, hanswer⟩ := (h [] payload).mpr haccepted
      exact ⟨[.set payload now], congrArg Prod.snd (p.set_of_ok hanswer now)⟩

/-- It never holds a value exactly when it accepts nothing. -/
theorem run_eq_fresh_iff : (∀ calls, p.run calls = .fresh) ↔ ∀ payload, ¬ accepted payload := by
  constructor
  · intro hfresh payload haccepted
    let now : ClockReading := ⟨1, by decide⟩
    obtain ⟨calls, hrun⟩ := (h.run_eq_iff ⟨frame p.epc payload, now.1⟩).mpr
      (Or.inr ⟨payload, now, haccepted, rfl⟩)
    cases (hfresh calls).symm.trans hrun
  · intro hnone calls
    rcases (h.run_eq_iff _).mp ⟨calls, rfl⟩ with hfresh | ⟨payload, -, haccepted, -⟩
    · exact hfresh
    · exact absurd haccepted (hnone payload)

end AcceptsExactly

end StaticNodeProperty

/-! ## Shapes -/

/-- A kind of payloads. -/
inductive Shape where
  | nothing
  | anything
  | bytes (n : ℕ)
  | atLeast (n : ℕ)
  /-- As many bytes, without the length of a bitmap. -/
  | codeList
  /-- A number that is not a marker. -/
  | number (n : ℕ)
  /-- A number up to a limit, or a marker. -/
  | packed (n limit : ℕ)
  | ascii (n : ℕ)
  /-- Four bytes, the third of which names a format of messages. -/
  | messages
  /-- Four bytes, the third of which is an ASCII character. -/
  | release
  | remoteControl
  | time
  | duration
  deriving DecidableEq, Repr

/-- The payloads of a shape. -/
def Shape.Accepts (payload : List UInt8) : Shape → Prop
  | nothing => False
  | anything => True
  | bytes n => payload.length = n
  | atLeast n => n ≤ payload.length
  | codeList => 0 < payload.length ∧ payload.length < 16
  | number n => payload.length = n ∧ payload ≠ underflowMarker n ∧ payload ≠ overflowSlice n
  | packed n limit => IsPacked n limit payload
  | ascii n => IsAsciiBytes payload ∧ payload.length = n
  | messages => payload.length = 4 ∧
      (payload.getD 2 0 &&& nodeMessageFormatSpecified = nodeMessageFormatSpecified ∨
        payload.getD 2 0 &&& nodeMessageFormatArbitrary = nodeMessageFormatArbitrary)
  | release => payload.length = 4 ∧ payload.getD 2 0 < 0x80
  | remoteControl => payload.length = 1 ∧ payload.getD 0 0 &&& 0x40 = 0x40 ∧
      payload.getD 0 0 &&& 0x03 ≠ 0x00
  | time => payload.length = 2 ∧ payload.getD 0 0 < 24 ∧ payload.getD 1 0 < 60
  | duration => payload.length = 5 ∧ 0x41 ≤ payload.getD 0 0 ∧ payload.getD 0 0 ≤ 0x44

instance Shape.decidableAccepts (payload : List UInt8) :
    (shape : Shape) → Decidable (shape.Accepts payload)
  | nothing => inferInstanceAs (Decidable False)
  | anything => inferInstanceAs (Decidable True)
  | bytes n => inferInstanceAs (Decidable (payload.length = n))
  | atLeast n => inferInstanceAs (Decidable (n ≤ payload.length))
  | codeList => inferInstanceAs (Decidable (_ ∧ _))
  | number _ => inferInstanceAs (Decidable (_ ∧ _ ∧ _))
  | packed _ _ => inferInstanceAs (Decidable (_ ∧ (_ ∨ _ ∨ _)))
  | ascii _ => inferInstanceAs (Decidable ((∀ b ∈ payload, b < 0x80) ∧ _))
  | messages => inferInstanceAs (Decidable (_ ∧ (_ ∨ _)))
  | release => inferInstanceAs (Decidable (_ ∧ _))
  | remoteControl => inferInstanceAs (Decidable (_ ∧ _ ∧ _ ≠ _))
  | time => inferInstanceAs (Decidable (_ ∧ _ ∧ _))
  | duration => inferInstanceAs (Decidable (_ ∧ _ ∧ _))

/-- A payload of a shape, if it has any. -/
def Shape.sample : Shape → List UInt8
  | nothing | anything => []
  | bytes n | atLeast n | number n | packed n _ | ascii n => List.replicate n 0x00
  | codeList => [0x00]
  | messages => [0x01, 0x0d, nodeMessageFormatSpecified, 0x00]
  | release => List.replicate 4 0x00
  | remoteControl => [0x41]
  | time => [0x00, 0x00]
  | duration => [0x41, 0x00, 0x00, 0x00, 0x00]

/-! ## The validators -/

/-- A byte of a payload, two bytes further on in its frame. -/
theorem index_frame_payload {ε : Type} {epc : UInt8} {payload : List UInt8} {i : ℕ}
    (h : i < payload.length) :
    (index (frame epc payload) (i + 2) : Outcome ε UInt8) = .ok (payload.getD i 0) := by
  rw [index_of_lt (by rw [length_frame]; omega), List.getD_eq_getElem _ _ h]
  rfl

theorem length_frame_eq_iff {epc : UInt8} {payload : List UInt8} (n : ℕ) :
    (frame epc payload).length = n + 2 ↔ payload.length = n := by
  rw [length_frame, Nat.add_right_cancel_iff]

/-- A choice between an answer and an error. -/
theorem isOk_ite_err {c : Prop} [Decidable c] {v : Outcome EpcError Bool} {e : EpcError} :
    IsOk (if c then v else .err e) ↔ c ∧ IsOk v := by
  split_ifs with hc
  · rw [and_iff_right hc]
  · exact iff_of_false (not_isOk_err e) fun h => hc h.1

theorem isOk_ite_ok {c : Prop} [Decidable c] {answer : Bool} {e : EpcError} :
    IsOk (if c then .ok answer else .err e) ↔ c := by
  rw [isOk_ite_err, and_iff_left (isOk_ok _)]

theorem isOk_validateLength (epcCode epc : UInt8) (payload : List UInt8) (len : ℕ) :
    IsOk (validateLength epcCode (frame epc payload) len) ↔ payload.length = len := by
  rw [validateLength, isOk_ite_ok, length_frame_eq_iff]

section Validators

variable {epc : UInt8}

theorem LoudOn.isOk_iff {T : Type} {v : ValidatorType T} (hloud : LoudOn v epc) {r : EpcRef T}
    (hr : r.epc = epc) (payload : List UInt8) :
    IsOk (v r (frame epc payload)) ↔ v r (frame epc payload) = .ok true := by
  rcases hloud.loud r hr payload with h | ⟨e, h⟩
  · rw [h]
    exact iff_of_true (isOk_ok _) rfl
  · rw [h]
    exact iff_of_false (not_isOk_err e) nofun

theorem isOk_booleanValidator_neither {trueValue falseValue : UInt8} (ht : epc ≠ trueValue)
    (hf : epc ≠ falseValue) (r : EpcRef Bool) (payload : List UInt8) :
    IsOk (booleanValidator trueValue falseValue r (frame epc payload)) ↔
      Shape.nothing.Accepts payload := by
  rw [isOk_booleanValidator]
  exact iff_of_false (fun h => h.2.elim ht hf) not_false

theorem isOk_identificationValidator (hepc : epc = epcIdentificationNumber) (isProfile : Bool)
    (r : EpcRef HexString) (payload : List UInt8) :
    IsOk (identificationValidator isProfile r (frame epc payload)) ↔
      Shape.nothing.Accepts payload := by
  refine iff_of_false ?_ not_false
  rw [identificationValidator, isOk_ite_err, index_frame_epc, ok_bind, hepc]
  rintro ⟨-, h⟩
  cases isProfile with
  | true => exact not_isOk_err _ h
  | false => exact not_isOk_err _ h

section Integers

variable {T : Type} [Integer T]

/-- The markers of an integer type are those of its size. -/
def StandardMarkers (T : Type) [Integer T] : Prop :=
  ∀ bytes : Vector UInt8 (Integer.size T), IsMarker bytes ↔
    bytes.toList = underflowMarker (Integer.size T) ∨ bytes.toList = overflowSlice (Integer.size T)

theorem standardMarkers_u16 : StandardMarkers UInt16 := by
  intro bytes
  simp only [IsMarker, Integer.isUnderflow, Integer.isOverflow, beq_iff_eq]
  rw [← Vector.toList_inj, ← Vector.toList_inj]
  rfl

theorem standardMarkers_count : StandardMarkers NodeObjectInstanceCount := by
  intro bytes
  simp only [IsMarker, Integer.isUnderflow, Integer.isOverflow, beq_iff_eq]
  rw [← Vector.toList_inj, ← Vector.toList_inj]
  rfl

theorem isOk_integerValidator {r : EpcRef T} (hr : r.epc = epc) (payload : List UInt8) :
    IsOk (integerValidator (fun _ _ => .ok true) r (frame epc payload)) ↔
      ∃ bytes : Vector UInt8 (Integer.size T), payload = bytes.toList ∧ ¬ IsMarker bytes := by
  rw [(loudOn_integer (loudOn_accept epc)).isOk_iff hr, integerValidator_eq_yes]

theorem isOk_integerValidator_number (hmarkers : StandardMarkers T) {r : EpcRef T}
    (hr : r.epc = epc) (payload : List UInt8) :
    IsOk (integerValidator (fun _ _ => .ok true) r (frame epc payload)) ↔
      (Shape.number (Integer.size T)).Accepts payload := by
  rw [isOk_integerValidator hr]
  constructor
  · rintro ⟨bytes, rfl, hmarker⟩
    rw [hmarkers, not_or] at hmarker
    exact ⟨bytes.length_toList, hmarker⟩
  · rintro ⟨hlen, hmarker⟩
    have hbytes : payload = (⟨payload.toArray, hlen⟩ : Vector UInt8 (Integer.size T)).toList := rfl
    refine ⟨⟨payload.toArray, hlen⟩, hbytes, ?_⟩
    rwa [hmarkers, ← hbytes, not_or]

/-- A type without markers. -/
theorem isOk_integerValidator_identifier {r : EpcRef NodeObjectUniqueIdentifier}
    (hr : r.epc = epc) (payload : List UInt8) :
    IsOk (integerValidator (fun _ _ => .ok true) r (frame epc payload)) ↔
      (Shape.bytes 2).Accepts payload := by
  rw [isOk_integerValidator hr]
  constructor
  · rintro ⟨bytes, rfl, -⟩
    exact bytes.length_toList
  · intro hlen
    refine ⟨⟨payload.toArray, hlen⟩, rfl, ?_⟩
    rintro (h | h) <;> cases h

end Integers

theorem isOk_packedValidator {N M : ℕ} {q : ℚ} {precision : UInt8}
    (h : PackedLimit N M q precision) {r : EpcRef ExtRat} (hr : r.epc = epc)
    (payload : List UInt8) :
    IsOk (packedValidator N (.fin q) precision r (frame epc payload)) ↔
      (Shape.packed N M).Accepts payload := by
  rw [(loudOn_packed h.size (.fin q : ExtRat) precision epc).isOk_iff hr]
  exact packedValidator_iff h r epc payload

theorem isOk_asciiStringValidator (n : ℕ) (r : EpcRef String) (payload : List UInt8) :
    IsOk (asciiStringValidator (fun epc internal => validateLength epc.epc internal n) r
      (frame epc payload)) ↔ (Shape.ascii n).Accepts payload := by
  by_cases hascii : IsAsciiBytes payload
  · rw [asciiStringValidator_of_ascii r epc hascii, isOk_validateLength]
    exact (and_iff_right hascii).symm
  · rw [asciiStringValidator_of_not_ascii r epc hascii]
    exact iff_of_false (not_isOk_err _) fun h => hascii h.1

theorem isOk_faultCodeValidator (r : EpcRef NodeObjectManufacturerFaultCode)
    (payload : List UInt8) :
    IsOk (faultCodeValidator r (frame epc payload)) ↔ (Shape.atLeast 3).Accepts payload := by
  rw [faultCodeValidator, isOk_ite_ok, length_frame, ge_iff_le]
  exact Nat.add_le_add_iff_right (n := 2)

theorem isOk_profileVersionValidator
    (r : EpcRef NodeProfileObjectEchonetLiteSupportedVersion) (payload : List UInt8) :
    IsOk (profileVersionValidator r (frame epc payload)) ↔ Shape.messages.Accepts payload := by
  rw [profileVersionValidator, isOk_ite_err]
  refine (and_congr_left fun _ => length_frame_eq_iff 4).trans (and_congr_right fun hlen => ?_)
  rw [index_frame_payload (by omega), ok_bind, pure_eq, isOk_ite_ok]

theorem isOk_deviceVersionValidator
    (r : EpcRef NodeDeviceObjectEchonetLiteSupportedVersion) (payload : List UInt8) :
    IsOk (deviceVersionValidator r (frame epc payload)) ↔ Shape.release.Accepts payload := by
  rw [deviceVersionValidator, isOk_ite_err]
  refine (and_congr_left fun _ => length_frame_eq_iff 4).trans (and_congr_right fun hlen => ?_)
  rw [index_frame_payload (by omega), ok_bind, pure_eq, isOk_ite_ok]

theorem isOk_remoteControlValidator (r : EpcRef NodeObjectRemoteControl) (payload : List UInt8) :
    IsOk (remoteControlValidator r (frame epc payload)) ↔
      Shape.remoteControl.Accepts payload := by
  rw [remoteControlValidator]
  by_cases hlen : payload.length = 1
  · obtain ⟨answer, hanswer⟩ := (isOk_validateLength r.epc epc payload 1).mpr hlen
    rw [hanswer, ok_bind, index_frame_payload (i := 0) (by omega), ok_bind, pure_eq, isOk_ite_ok]
    exact (and_iff_right hlen).symm
  · rcases loud_validateLength r.epc (frame epc payload) 1 with h | ⟨e, h⟩
    · exact absurd ((isOk_validateLength r.epc epc payload 1).mp ⟨true, h⟩) hlen
    · rw [h, err_bind]
      exact iff_of_false (not_isOk_err e) fun h => hlen h.1

section Chrono

variable [Chrono]

theorem isOk_dateValidator (r : EpcRef Chrono.NaiveDate) (payload : List UInt8) :
    IsOk (dateValidator (fun _ _ => .ok true) r (frame epc payload)) ↔
      (Shape.bytes 4).Accepts payload := by
  rw [dateValidator, isOk_ite_ok]
  exact length_frame_eq_iff 4

theorem isOk_timeValidator (r : EpcRef Chrono.NaiveTime) (payload : List UInt8) :
    IsOk (timeValidator (fun _ _ => .ok true) r (frame epc payload)) ↔
      Shape.time.Accepts payload := by
  rw [timeValidator, isOk_ite_err]
  refine (and_congr_left fun _ => length_frame_eq_iff 2).trans (and_congr_right fun hlen => ?_)
  rw [index_frame_payload (by omega), ok_bind, index_frame_payload (by omega), ok_bind, pure_eq,
    andAlso]
  split_ifs with hhour
  · rw [ok_bind, isOk_ite_ok, decide_eq_true_iff]
    exact (and_iff_right (of_decide_eq_true hhour)).symm
  · rw [ok_bind, isOk_ite_ok]
    exact iff_of_false Bool.false_ne_true fun h => hhour (decide_eq_true h.1)

theorem isOk_durationValidator (r : EpcRef Chrono.TimeDelta) (payload : List UInt8) :
    IsOk (durationValidator (fun _ _ => .ok true) r (frame epc payload)) ↔
      Shape.duration.Accepts payload := by
  rw [durationValidator, isOk_ite_err]
  refine (and_congr_left fun _ => length_frame_eq_iff 5).trans (and_congr_right fun hlen => ?_)
  rw [index_frame_payload (by omega), ok_bind, isOk_ite_ok]

end Chrono

theorem isOk_installationLocationValidator {F : Type} (hepc : epc ≠ 0x01)
    (r : EpcRef (NodeObjectInstallationLocation F)) (payload : List UInt8) :
    IsOk (installationLocationValidator r (frame epc payload)) ↔
      Shape.anything.Accepts payload := by
  rw [installationLocationValidator_eq hepc]
  exact iff_of_true (isOk_ok _) trivial

theorem isOk_eojArrayValidator (r : EpcRef EOJVec) (payload : List UInt8) :
    IsOk (eojArrayValidator r (frame epc payload)) ↔ Shape.anything.Accepts payload := by
  rw [eojArrayValidator_eq]
  exact iff_of_true (isOk_ok _) trivial

end Validators

/-! ## The table of properties -/

/-- The properties of all classes, with the shapes of their payloads. -/
def sharedTable (isProfile : Bool) : List (UInt8 × Shape) :=
  [(epcOperatingStatus, .nothing), (epcInstallationLocation, .anything),
    (epcVersionInformation, if isProfile then .messages else .release),
    (epcIdentificationNumber, .nothing), (epcMeasuredInstantaneousPowerConsumption, .number 2),
    (epcMeasuredCumulativePowerConsumption, .packed 4 999999999),
    (epcManufacturersFaultCode, .atLeast 3), (epcCurrentLimitSetting, .packed 1 100),
    (epcFaultStatus, .nothing), (epcFaultContent, .nothing), (epcManufacturerCode, .bytes 3),
    (epcBusinessFacilityCode, .bytes 3), (epcProductCode, .ascii 12), (epcSerialNumber, .ascii 12),
    (epcProductionDate, .bytes 4), (epcPowerSaving, .nothing), (epcRemoteControl, .remoteControl),
    (epcCurrentTime, .time), (epcCurrentDate, .bytes 4), (epcPowerLimit, .number 2),
    (epcCumulativeOperatingTime, .duration), (epcAnnouncementPropertyMap, .codeList),
    (epcSetPropertyMap, .codeList), (epcGetPropertyMap, .codeList)]

/-- The properties of the node profile alone. -/
def profileTable : List (UInt8 × Shape) :=
  [(epcUniqueIdentifierData, .bytes 2), (epcNumberOfSelfnodeInstances, .number 3),
    (epcNumberOfSelfnodeClasses, .number 2), (epcInstanceListNotification, .anything),
    (epcSelfnodeInstanceListS, .anything), (epcSelfnodeClassListS, .anything)]

/-- The properties of a class. -/
def propertyTable (groupClass : NodeGroupClass) : List (UInt8 × Shape) :=
  sharedTable (groupClass.classGroupCode == eojClassGroupProfile) ++
    if groupClass = classProfileNodeProfile then profileTable else []

theorem mem_propertyTable {groupClass : NodeGroupClass} {entry : UInt8 × Shape}
    (h : entry ∈ propertyTable groupClass) :
    entry ∈ sharedTable (groupClass.classGroupCode == eojClassGroupProfile) ++ profileTable := by
  rcases List.mem_append.mp h with h | h
  · exact List.mem_append_left _ h
  · split_ifs at h
    · exact List.mem_append_right _ h
    · cases h

/-- The factory, with `f64` read as exact rationals, has a property of the code, which accepts the
payloads of the shape. -/
def Offers [Chrono] (groupClass : NodeGroupClass) (epc : UInt8) (shape : Shape) : Prop :=
  ∃ w, propertyFactory ExtRat groupClass epc = .ok w ∧ w.property.epc = epc ∧
    w.property.AcceptsExactly fun payload => shape.Accepts payload

section Table

/-- A packed property is built, since its limit fits its size. -/
theorem PackedLimit.property_eq {N M : ℕ} {q : ℚ} {precision : UInt8}
    (h : PackedLimit N M q precision) (name : String) (epc : UInt8) (source : UInt16)
    (announce : Bool) (getOperation setOperation : EpcAccessRule) :
    unsignedIntegerPackedFloatProperty N name epc source announce getOperation setOperation
        (.fin q : ExtRat) precision =
      generalProperty name epc source announce getOperation setOperation
        (packedFromCanonical N (.fin q : ExtRat) precision) (packedToCanonical N precision)
        (packedValidator N (.fin q) precision) := by
  obtain ⟨w, hw⟩ := h.built name epc source announce getOperation setOperation
  rw [unsignedIntegerPackedFloatProperty, packedTypeMaxValue_eq h.size] at hw ⊢
  dsimp only at hw ⊢
  split_ifs at hw ⊢
  rfl

variable [Chrono] {groupClass : NodeGroupClass} {epc : UInt8} {shape : Shape}

theorem offers_of {T : Type} {p : StaticNodeProperty T}
    (hfactory : propertyFactory ExtRat groupClass epc = .ok ⟨T, p⟩) (hepc : p.epc = epc)
    (h : ∀ r, r.epc = epc → ∀ payload,
      IsOk (p.validatorFn r (frame epc payload)) ↔ shape.Accepts payload) :
    Offers groupClass epc shape := by
  refine ⟨⟨T, p⟩, hfactory, hepc, StaticNodeProperty.acceptsExactly_of ?_⟩
  rw [hepc]
  exact h

theorem offers_packed {N M : ℕ} {q : ℚ} {precision : UInt8} (hlimit : PackedLimit N M q precision)
    {name : String} {source : UInt16} {announce : Bool} {getOperation setOperation : EpcAccessRule}
    (hfactory : propertyFactory ExtRat groupClass epc = unsignedIntegerPackedFloatProperty N name
      epc source announce getOperation setOperation (.fin q : ExtRat) precision) :
    Offers groupClass epc (.packed N M) :=
  offers_of (hfactory.trans (hlimit.property_eq name epc source announce getOperation setOperation))
    rfl fun _ hr => isOk_packedValidator hlimit hr

theorem offers_boolean {name : String} {source : UInt16} {announce : Bool}
    {getOperation setOperation : EpcAccessRule} {trueValue falseValue : UInt8}
    (hfactory : propertyFactory ExtRat groupClass epc = booleanProperty name epc source announce
      getOperation setOperation trueValue falseValue)
    (ht : epc ≠ trueValue) (hf : epc ≠ falseValue) : Offers groupClass epc .nothing :=
  offers_of hfactory rfl fun r _ => isOk_booleanValidator_neither ht hf r

/-- The version of the profile is not that of the devices. -/
theorem propertyFactory_version (groupClass : NodeGroupClass) :
    propertyFactory ExtRat groupClass epcVersionInformation =
    if groupClass.classGroupCode == eojClassGroupProfile then
      generalProperty "Version Information" epcVersionInformation
        (epcDocsourceDeviceSuperclass ||| epcDocsourceProfileClass) false .mandatory .notSupported
        profileVersionFromCanonical profileVersionToCanonical profileVersionValidator
    else
      generalProperty "Version Information" epcVersionInformation
        (epcDocsourceDeviceSuperclass ||| epcDocsourceProfileClass) false .mandatory .notSupported
        deviceVersionFromCanonical deviceVersionToCanonical deviceVersionValidator := rfl

theorem offers_version : Offers groupClass epcVersionInformation
    (if groupClass.classGroupCode == eojClassGroupProfile then .messages else .release) := by
  have hfactory := propertyFactory_version groupClass
  split_ifs at hfactory ⊢
  · exact offers_of hfactory rfl fun r _ => isOk_profileVersionValidator r
  · exact offers_of hfactory rfl fun r _ => isOk_deviceVersionValidator r

theorem offers_shared (h : (epc, shape) ∈
    sharedTable (groupClass.classGroupCode == eojClassGroupProfile)) :
    Offers groupClass epc shape := by
  simp only [sharedTable, List.mem_cons, List.not_mem_nil, or_false, Prod.mk.injEq] at h
  rcases h with ⟨rfl, rfl⟩ | ⟨rfl, rfl⟩ | ⟨rfl, rfl⟩ | ⟨rfl, rfl⟩ | ⟨rfl, rfl⟩ | ⟨rfl, rfl⟩ |
    ⟨rfl, rfl⟩ | ⟨rfl, rfl⟩ | ⟨rfl, rfl⟩ | ⟨rfl, rfl⟩ | ⟨rfl, rfl⟩ | ⟨rfl, rfl⟩ | ⟨rfl, rfl⟩ |
    ⟨rfl, rfl⟩ | ⟨rfl, rfl⟩ | ⟨rfl, rfl⟩ | ⟨rfl, rfl⟩ | ⟨rfl, rfl⟩ | ⟨rfl, rfl⟩ | ⟨rfl, rfl⟩ |
    ⟨rfl, rfl⟩ | ⟨rfl, rfl⟩ | ⟨rfl, rfl⟩ | ⟨rfl, rfl⟩
  · exact offers_boolean rfl (by decide) (by decide)
  · exact offers_of rfl rfl fun r _ => isOk_installationLocationValidator (by decide) r
  · exact offers_version
  · exact offers_of rfl rfl fun r _ => isOk_identificationValidator rfl _ r
  · exact offers_of rfl rfl fun _ hr => isOk_integerValidator_number standardMarkers_u16 hr
  · have hscale : scale 3 = 10 ^ 3 := rfl
    exact offers_packed (q := 999999999 / 10 ^ 3)
      ⟨by decide, by rw [hscale]; norm_num, by norm_num⟩ rfl
  · exact offers_of rfl rfl fun r _ => isOk_faultCodeValidator r
  · exact offers_packed (q := 1000 / 10 ^ 1) ⟨by decide, by norm_num [scale], by norm_num⟩ rfl
  · exact offers_boolean rfl (by decide) (by decide)
  · exact ⟨_, rfl, rfl, (unwritable_faultContent rfl).acceptsExactly⟩
  · exact offers_of rfl rfl fun r _ payload => isOk_validateLength r.epc _ payload 3
  · exact offers_of rfl rfl fun r _ payload => isOk_validateLength r.epc _ payload 3
  · exact offers_of rfl rfl fun r _ => isOk_asciiStringValidator 12 r
  · exact offers_of rfl rfl fun r _ => isOk_asciiStringValidator 12 r
  · exact offers_of rfl rfl fun r _ => isOk_dateValidator r
  · exact offers_boolean rfl (by decide) (by decide)
  · exact offers_of rfl rfl fun r _ => isOk_remoteControlValidator r
  · exact offers_of rfl rfl fun r _ => isOk_timeValidator r
  · exact offers_of rfl rfl fun r _ => isOk_dateValidator r
  · exact offers_of rfl rfl fun _ hr => isOk_integerValidator_number standardMarkers_u16 hr
  · exact offers_of rfl rfl fun r _ => isOk_durationValidator r
  · exact offers_of rfl rfl fun r _ => isOk_propertyMapValidator r _
  · exact offers_of rfl rfl fun r _ => isOk_propertyMapValidator r _
  · exact offers_of rfl rfl fun r _ => isOk_propertyMapValidator r _

theorem offers_profile (h : (epc, shape) ∈ profileTable) :
    Offers classProfileNodeProfile epc shape := by
  simp only [profileTable, List.mem_cons, List.not_mem_nil, or_false, Prod.mk.injEq] at h
  rcases h with ⟨rfl, rfl⟩ | ⟨rfl, rfl⟩ | ⟨rfl, rfl⟩ | ⟨rfl, rfl⟩ | ⟨rfl, rfl⟩ | ⟨rfl, rfl⟩
  · exact offers_of rfl rfl fun _ hr => isOk_integerValidator_identifier hr
  · exact offers_of rfl rfl fun _ hr => isOk_integerValidator_number standardMarkers_count hr
  · exact offers_of rfl rfl fun _ hr => isOk_integerValidator_number standardMarkers_u16 hr
  · exact offers_of rfl rfl fun r _ => isOk_eojArrayValidator r
  · exact offers_of rfl rfl fun r _ => isOk_eojArrayValidator r
  · exact offers_of rfl rfl fun r _ => isOk_eojArrayValidator r

theorem offers_of_mem (h : (epc, shape) ∈ propertyTable groupClass) :
    Offers groupClass epc shape := by
  rcases List.mem_append.mp h with h | h
  · exact offers_shared h
  · split_ifs at h with hprofile
    · rw [hprofile]
      exact offers_profile h
    · cases h

/-- There is no property for a code that is not in the table. -/
theorem propertyFactory_of_notMem (h : ∀ shape, (epc, shape) ∉ propertyTable groupClass) :
    propertyFactory ExtRat groupClass epc = .err (.notAvailable epc) := by
  have hcodes : epc ∉ (propertyTable groupClass).map Prod.fst := by
    intro hmem
    obtain ⟨⟨_, shape⟩, hentry, rfl⟩ := List.mem_map.mp hmem
    exact h shape hentry
  rw [propertyTable, List.map_append, List.mem_append, not_or] at hcodes
  obtain ⟨hshared, hprofile⟩ := hcodes
  simp only [sharedTable, List.map_cons, List.map_nil, List.mem_cons, List.not_mem_nil, or_false,
    not_or] at hshared
  obtain ⟨h80, h81, h82, h83, h84, h85, h86, h87, h88, h89, h8a, h8b, h8c, h8d, h8e, h8f, h93, h97,
    h98, h99, h9a, h9d, h9e, h9f⟩ := hshared
  have hshared : epc ≥ 0x80 ∧ epc < 0xa0 →
      propertyFactory ExtRat groupClass epc = .err (.notAvailable epc) := by
    intro hrange
    rw [propertyFactory, if_pos hrange, if_neg h80, if_neg h81, if_neg h82, if_neg h83, if_neg h84,
      if_neg h85, if_neg h86, if_neg h87, if_neg h88, if_neg h89, if_neg h8a, if_neg h8b,
      if_neg h8c, if_neg h8d, if_neg h8e, if_neg h8f, if_neg h93, if_neg h97, if_neg h98,
      if_neg h99, if_neg h9a, if_neg h9d, if_neg h9e, if_neg h9f]
  have hnode : groupClass = classProfileNodeProfile →
      propertyFactoryClassProfile epc = .err (.notAvailable epc) := by
    intro hclass
    rw [if_pos hclass] at hprofile
    simp only [profileTable, List.map_cons, List.map_nil, List.mem_cons, List.not_mem_nil, or_false,
      not_or] at hprofile
    obtain ⟨hbf, hd3, hd4, hd5, hd6, hd7⟩ := hprofile
    rw [propertyFactoryClassProfile, if_neg hbf, if_neg hd3, if_neg hd4, if_neg hd5, if_neg hd6,
      if_neg hd7]
  by_cases hrange : epc ≥ 0x80 ∧ epc < 0xa0
  · exact hshared hrange
  rw [propertyFactory, if_neg hrange]
  by_cases hprofile : epc ≥ 0xa0 ∧ epc < 0xf0
  · rw [if_pos hprofile]
    by_cases hclass : groupClass = classProfileNodeProfile
    · rw [if_pos hclass, hnode hclass]
    · rw [if_neg hclass]
  · rw [if_neg hprofile]

theorem exists_shape {w : EpcWrapper} (h : propertyFactory ExtRat groupClass epc = .ok w) :
    ∃ shape, (epc, shape) ∈ propertyTable groupClass := by
  by_contra hnone
  rw [propertyFactory_of_notMem (not_exists.mp hnone)] at h
  cases h

/-- **What the factory has**, with `f64` read as exact rationals: a property for each code of the
table of the class, and for no other.  Whatever was written to it before, the property accepts the
payloads of its shape, and no others. -/
theorem propertyFactory_accepts (groupClass : NodeGroupClass) (epc : UInt8) :
    (∀ shape, (epc, shape) ∈ propertyTable groupClass →
      ∃ w, propertyFactory ExtRat groupClass epc = .ok w ∧ w.property.epc = epc ∧
        ∀ calls payload now, (w.property.set (w.property.run calls) payload now).1 = .ok () ↔
          shape.Accepts payload) ∧
    ((∀ shape, (epc, shape) ∉ propertyTable groupClass) →
      propertyFactory ExtRat groupClass epc = .err (.notAvailable epc)) := by
  refine ⟨fun shape h => ?_, propertyFactory_of_notMem⟩
  obtain ⟨w, hw, hepc, haccepts⟩ := offers_of_mem h
  exact ⟨w, hw, hepc, haccepts.set_eq_ok_iff⟩

/-- The codes of the properties that never hold a value. -/
def deadCodes : List UInt8 :=
  [epcOperatingStatus, epcIdentificationNumber, epcFaultStatus, epcFaultContent, epcPowerSaving]

omit [Chrono] in
/-- The shapes of all other properties have payloads. -/
theorem accepts_nothing_iff (h : (epc, shape) ∈ propertyTable groupClass) :
    (∀ payload, ¬ shape.Accepts payload) ↔ epc ∈ deadCodes := by
  have hall : ∀ isProfile, ∀ entry ∈ sharedTable isProfile ++ profileTable,
      entry.2 = .nothing ∧ entry.1 ∈ deadCodes ∨
        entry.2.Accepts entry.2.sample ∧ entry.1 ∉ deadCodes := by decide +kernel
  rcases hall _ _ (mem_propertyTable h) with ⟨hnothing, hdead⟩ | ⟨hsample, hlive⟩
  · have hshape : shape = .nothing := hnothing
    rw [hshape]
    exact iff_of_true (fun _ => not_false) hdead
  · exact iff_of_false (fun hnone => hnone _ hsample) hlive

/-- **What a property of the factory can hold**, with `f64` read as exact rationals: nothing, or the
frame of a payload of its shape.  Five of the codes never hold a value. -/
theorem propertyFactory_reachable_iff {w : EpcWrapper}
    (h : propertyFactory ExtRat groupClass epc = .ok w) :
    (∃ shape, (epc, shape) ∈ propertyTable groupClass ∧ ∀ cells,
      (∃ calls, w.property.run calls = cells) ↔ cells = .fresh ∨ ∃ payload, ∃ now : ClockReading,
        shape.Accepts payload ∧ cells = ⟨frame epc payload, now.1⟩) ∧
    ((∀ calls, w.property.run calls = .fresh) ↔ epc ∈ deadCodes) := by
  obtain ⟨shape, hmem⟩ := exists_shape h
  obtain ⟨w', hw', hepc, haccepts⟩ := offers_of_mem hmem
  obtain rfl : w = w' := Outcome.ok.inj (h.symm.trans hw')
  refine ⟨⟨shape, hmem, fun cells => ?_⟩, ?_⟩
  · rw [haccepts.run_eq_iff, hepc]
  · rw [haccepts.run_eq_fresh_iff, accepts_nothing_iff hmem]

end Table

/-- Of a property that stores: the current time holds a time of day, and not the hour 24. -/
theorem propertyFactory_reachable_currentTime :
    ∃ w, @propertyFactory ExtRat _ Calendar.chrono classProfileNodeProfile epcCurrentTime = .ok w ∧
      (∀ now : ClockReading,
        (∃ calls, w.property.run calls = ⟨frame epcCurrentTime [23, 59], now.1⟩) ∧
        ¬ ∃ calls, w.property.run calls = ⟨frame epcCurrentTime [24, 0], now.1⟩) ∧
      ∃ calls, w.property.run calls ≠ .fresh := by
  let := Calendar.chrono
  obtain ⟨w, hw⟩ : ∃ w, propertyFactory ExtRat classProfileNodeProfile epcCurrentTime = .ok w :=
    ⟨_, rfl⟩
  obtain ⟨⟨shape, hmem, hreachable⟩, hfresh⟩ := propertyFactory_reachable_iff hw
  have hshape : ∀ entry ∈ propertyTable classProfileNodeProfile,
      entry.1 = epcCurrentTime → entry.2 = .time := by decide
  obtain rfl : shape = .time := hshape _ hmem rfl
  refine ⟨w, hw, fun now => ⟨(hreachable _).mpr (Or.inr ⟨[23, 59], now, by decide, rfl⟩), ?_⟩, ?_⟩
  · rw [hreachable]
    rintro (hnone | ⟨payload, now', haccepted, hcells⟩)
    · cases hnone
    · obtain rfl : [24, 0] = payload := congrArg (fun cells => cells.lastValue.drop 2) hcells
      exact absurd haccepted (by decide)
  · rw [← not_forall, hfresh]
    decide

end Echonet
