import EchonetBridge.Epc.Contract
import EchonetBridge.Epc.Factory

/-!
# Epc/FactoryContract — the contract of every property the factory builds

Each kind of property meets its contract, so each property of the factory does
(`propertyFactory_contract`): two of its validators say no without failing (`RefusesQuietly`), and
three of its decoders cannot read all their validators let through (`Unreadable`).
-/

namespace Echonet

open BigEndian Outcome

/-! ## Installation locations -/

section InstallationLocation

variable {F : Type}

/-- A payload that does not start with a byte of a location. -/
def NoSuchLocation (payload : List UInt8) : Prop :=
  ∀ byte rest, payload = byte :: rest → byte ≠ 0x00 ∧ byte &&& 0x78 = 0x00

/-- The kinds of rooms are the sixteen values of four bits. -/
theorem kind_cases (byte : UInt8) : ∃ k < 16, byte &&& 0x78 = UInt8.ofNat (8 * k) :=
  Bits.forall_byte byte (by decide +kernel)

theorem isOk_roomOf (byte : UInt8) :
    IsOk (roomOf byte : Outcome EpcError (NodeObjectInstallationLocation F)) ↔
      byte &&& 0x78 ≠ 0x00 := by
  have hmask : byte &&& 0x00 = 0x00 := UInt8.and_zero
  obtain ⟨k, hk, hkind⟩ := kind_cases byte
  rw [roomOf, if_pos hmask, hkind]
  interval_cases k
  · exact iff_of_false not_isOk_panic fun h => h rfl
  all_goals exact iff_of_true ⟨_, rfl⟩ (by decide)

theorem isOk_installationLocation (r : EpcRef (NodeObjectInstallationLocation F)) (epc : UInt8)
    (payload : List UInt8) :
    IsOk (installationLocationToCanonical r (frame epc payload)) ↔ ¬ NoSuchLocation payload := by
  rw [installationLocationToCanonical]
  obtain _ | ⟨byte, rest⟩ := payload
  · exact iff_of_false (by nofun) (not_not.mpr nofun)
  · have hno : ¬ NoSuchLocation (byte :: rest) ↔ byte = 0x00 ∨ byte &&& 0x78 ≠ 0x00 := by
      refine ⟨fun h => ?_, fun h hnone => ?_⟩
      · by_contra hnot
        obtain ⟨h0, h78⟩ := not_or.mp hnot
        refine h fun b rest' heq => ?_
        cases heq
        exact ⟨h0, not_not.mp h78⟩
      · obtain ⟨h0, h78⟩ := hnone byte rest rfl
        exact h.elim h0 fun hne => hne h78
    rw [hno, index_frame_first, ok_bind]
    split_ifs with h0 h1 hff
    · exact iff_of_true (isOk_ok _) (Or.inl h0)
    · -- A location information code: the slice is too long, or differs in length.
      refine iff_of_false ?_ (by rw [h1]; decide)
      rw [slice]
      split_ifs with hlen
      · rw [ok_bind, if_neg]
        · exact not_isOk_panic
        · intro heq
          have hnine := congrArg List.length heq
          rw [List.length_drop, List.length_take, Nat.min_eq_left hlen.2] at hnine
          exact absurd hnine (by decide)
      · exact not_isOk_panic
    · exact iff_of_true (isOk_ok _) (by rw [hff]; decide)
    · rw [isOk_roomOf]
      exact (or_iff_right h0).symm

/-- On the frames of its own code the validator only looks at the length. -/
theorem installationLocationValidator_eq {epc : UInt8} (h : epc ≠ 0x01)
    (r : EpcRef (NodeObjectInstallationLocation F)) (payload : List UInt8) :
    installationLocationValidator r (frame epc payload) = .ok (decide (payload.length = 1)) := by
  have hfirst : (epc == 0x01) = false := beq_eq_false_iff_ne.mpr h
  have hlast : ((payload.length + 2) == 3) = decide (payload.length = 1) := by
    rw [Bool.eq_iff_iff, beq_iff_eq, decide_eq_true_iff]
    omega
  rw [installationLocationValidator, length_frame,
    index_frame_epc, ok_bind, pure_eq, hfirst, andAlso]
  split_ifs <;> rw [ok_bind, pure_eq, hlast] <;> simp

theorem contract_installationLocation {law : Prop}
    {p : StaticNodeProperty (NodeObjectInstallationLocation F)} (hepc : p.epc ≠ 0x01)
    (hv : p.validatorFn = installationLocationValidator)
    (hd : p.toCanonicalFn = installationLocationToCanonical) :
    p.Contract law (fun payload => payload.length ≠ 1) NoSuchLocation where
  replay := Or.inl fun r r' _ internal => by rw [hv]; rfl
  quiet_iff r _ payload := by
    rw [hv, installationLocationValidator_eq hepc]
    by_cases h : payload.length = 1 <;> simp [h]
  no_panic r _ _ _ payload := by
    rw [hv, installationLocationValidator_eq hepc]
    nofun
  readable _ r _ _ _ payload _ _ := by
    rw [hd]
    exact isOk_installationLocation _ _ _
  accepts r _ _ _ payload _ := by
    rw [hv, installationLocationValidator_eq hepc]
    exact ⟨_, rfl⟩

end InstallationLocation

/-! ## Versions -/

theorem loudOn_profileVersion (epc : UInt8) : LoudOn profileVersionValidator epc where
  stateFree r r' h internal := by rw [profileVersionValidator, profileVersionValidator, h]
  loud r _ payload := by
    rw [profileVersionValidator]
    refine .ite (fun hlen => ?_) fun _ => .err _
    rw [index_of_lt (by omega), ok_bind]
    exact .ite (fun _ => .ok) fun _ => .err _

theorem loudOn_deviceVersion (epc : UInt8) : LoudOn deviceVersionValidator epc where
  stateFree r r' h internal := by rw [deviceVersionValidator, deviceVersionValidator, h]
  loud r _ payload := by
    rw [deviceVersionValidator]
    refine .ite (fun hlen => ?_) fun _ => .err _
    rw [index_of_lt (by omega), ok_bind]
    exact .ite (fun _ => .ok) fun _ => .err _

theorem isOk_profileVersion {r r' : EpcRef NodeProfileObjectEchonetLiteSupportedVersion}
    {epc : UInt8} {payload : List UInt8}
    (h : profileVersionValidator r (frame epc payload) = .ok true) :
    IsOk (profileVersionToCanonical r' (frame epc payload)) := by
  rw [profileVersionValidator] at h
  split_ifs at h with hlen
  rw [profileVersionToCanonical, index_of_lt (by omega), ok_bind, index_of_lt (by omega), ok_bind,
    index_of_lt (by omega), ok_bind]
  exact isOk_ok _

theorem isOk_deviceVersion {r r' : EpcRef NodeDeviceObjectEchonetLiteSupportedVersion}
    {epc : UInt8} {payload : List UInt8}
    (h : deviceVersionValidator r (frame epc payload) = .ok true) :
    IsOk (deviceVersionToCanonical r' (frame epc payload)) := by
  rw [deviceVersionValidator] at h
  split_ifs at h with hlen
  rw [deviceVersionToCanonical, index_of_lt (by omega), ok_bind, index_of_lt (by omega), ok_bind]
  exact isOk_ok _

/-! ## Identification number and fault codes -/

theorem loudOn_identification (isProfile : Bool) (epc : UInt8) :
    LoudOn (identificationValidator isProfile) epc where
  stateFree r r' h internal := by rw [identificationValidator, identificationValidator, h]
  loud r _ payload := by
    rw [identificationValidator]
    refine .ite (fun hlen => ?_) fun _ => .err _
    rw [index_of_lt (by omega), ok_bind]
    exact .ite (fun _ => .ite (fun _ => .ok) fun _ => .err _)
      fun _ => .ite (fun _ => .ok) fun _ => .err _

theorem loudOn_faultCode (epc : UInt8) : LoudOn faultCodeValidator epc where
  stateFree r r' h internal := by rw [faultCodeValidator, faultCodeValidator, h]
  loud _ _ _ := .ite (fun _ => .ok) fun _ => .err _

/-- The first three bytes are read as the manufacturer code, and the rest as the fault code. -/
theorem faultCodeToCanonical_append {epc : UInt8} {code fault : List UInt8} (h : code.length = 3)
    (r : EpcRef NodeObjectManufacturerFaultCode) :
    faultCodeToCanonical r (frame epc (code ++ fault))
      = .ok ⟨HexString.ofBytes code, HexString.ofBytes fault⟩ := by
  have hlen : (frame epc (code ++ fault)).length = 5 + fault.length := by
    rw [length_frame, List.length_append, h]
    omega
  have hcode : ((frame epc (code ++ fault)).take 5).drop 2 = code := by
    rw [List.drop_take]
    exact List.take_left' h
  have hfault : (frame epc (code ++ fault)).drop 5 = fault := List.drop_left' h
  have hread := HexString.fromBytes_length code
  rw [h] at hread
  rw [faultCodeToCanonical, slice_of_le (by decide) (by omega), ok_bind, hcode, hread, mapErr_ok,
    ok_bind, sliceFrom_of_le (by omega), ok_bind, hfault, checkedSub_of_le (by omega), ok_bind,
    hlen, Nat.add_sub_cancel_left, HexString.fromBytes_length, mapErr_ok, ok_bind, pure_eq]

theorem isOk_faultCode {r r' : EpcRef NodeObjectManufacturerFaultCode} {epc : UInt8}
    {payload : List UInt8} (h : faultCodeValidator r (frame epc payload) = .ok true) :
    IsOk (faultCodeToCanonical r' (frame epc payload)) := by
  rw [faultCodeValidator, length_frame] at h
  split_ifs at h with hlen
  have hthree : (payload.take 3).length = 3 := by
    rw [List.length_take, Nat.min_eq_left (by omega)]
  rw [← List.take_append_drop 3 payload, faultCodeToCanonical_append hthree]
  exact isOk_ok _

/-- Two bytes are accepted as the fault content when the content that is stored can be read. -/
theorem isOk_faultContentValidator (r : EpcRef NodeObjectFaultDescription)
    (internal : List UInt8) :
    IsOk (faultContentValidator r internal) ↔ internal.length = 4 ∧ IsOk r.toCanonical := by
  rw [faultContentValidator, validateLength]
  split_ifs with hlen
  · rw [ok_bind, and_iff_right hlen]
    cases r.toCanonical <;> simp
  · rw [err_bind]
    exact iff_of_false (not_isOk_err _) fun h => hlen h.1

/-- The fault content is never accepted while there is none. -/
theorem unwritable_faultContent {p : StaticNodeProperty NodeObjectFaultDescription}
    (hv : p.validatorFn = faultContentValidator) : p.Unwritable := by
  intro r e hr internal answer hok
  rw [hv] at hok
  obtain ⟨-, hread⟩ := (isOk_faultContentValidator r internal).mp ⟨answer, hok⟩
  rw [hr] at hread
  exact not_isOk_err e hread

theorem contract_faultContent {law : Prop} {p : StaticNodeProperty NodeObjectFaultDescription}
    (hv : p.validatorFn = faultContentValidator) :
    p.Contract law (fun _ => False) fun _ => False where
  replay := Or.inr (unwritable_faultContent hv)
  quiet_iff r _ payload := by
    refine iff_of_false ?_ not_false
    rw [hv, faultContentValidator]
    rcases loud_validateLength r.epc (frame p.epc payload) 2 with h | ⟨e', h⟩
    · rw [h, ok_bind]
      cases r.toCanonical <;> nofun
    · rw [h]
      nofun
  no_panic r e _ hr payload := by
    rw [hv, faultContentValidator, hr]
    rcases loud_validateLength r.epc (frame p.epc payload) 2 with h | ⟨e', h⟩ <;> rw [h] <;> nofun
  readable _ r e _ hr payload answer h := absurd h (unwritable_faultContent hv r e hr _ _)
  accepts _ _ _ _ _ h := h.elim

/-! ## Remote control -/

theorem loudOn_remoteControl (epc : UInt8) : LoudOn remoteControlValidator epc where
  stateFree r r' h internal := by rw [remoteControlValidator, remoteControlValidator, h]
  loud r _ payload := by
    rw [remoteControlValidator, validateLength]
    split_ifs with hlen
    · rw [ok_bind, index_of_lt (by omega), ok_bind]
      exact .ite (fun _ => .ok) fun _ => .err _
    · exact .err _

theorem isOk_remoteControl {r r' : EpcRef NodeObjectRemoteControl} {epc : UInt8}
    {payload : List UInt8} (h : remoteControlValidator r (frame epc payload) = .ok true) :
    IsOk (remoteControlToCanonical r' (frame epc payload)) := by
  rw [remoteControlValidator, validateLength] at h
  split_ifs at h with hlen
  · rw [remoteControlToCanonical, index_of_lt (by omega), ok_bind]
    exact isOk_ok _
  · exact nomatch h

/-! ## The factory -/

/-- The payloads a validator says no to: `set` stores them all the same. -/
def RefusesQuietly (epc : UInt8) (payload : List UInt8) : Prop :=
  epc = epcInstallationLocation ∧ payload.length ≠ 1 ∨
  (epc = epcInstanceListNotification ∨ epc = epcSelfnodeInstanceListS ∨ epc = epcSelfnodeClassListS)
    ∧ payload.length % 3 ≠ 0

/-- The payloads that are stored and cannot be read. -/
def Unreadable (epc : UInt8) (payload : List UInt8) : Prop :=
  epc = epcInstallationLocation ∧ NoSuchLocation payload ∨
  (epc = epcProductionDate ∨ epc = epcCurrentDate) ∧ NoSuchDate payload ∨
  (epc = epcAnnouncementPropertyMap ∨ epc = epcSetPropertyMap ∨ epc = epcGetPropertyMap)
    ∧ NoSuchMap payload

/-- Nothing is refused quietly, and nothing that is stored is unreadable. -/
def Plain (epc : UInt8) : Prop := ∀ payload, ¬ RefusesQuietly epc payload ∧ ¬ Unreadable epc payload

/-- The codes that are not plain. -/
def specialCodes : List UInt8 :=
  [epcInstallationLocation, epcProductionDate, epcCurrentDate, epcAnnouncementPropertyMap,
    epcSetPropertyMap, epcGetPropertyMap, epcInstanceListNotification, epcSelfnodeInstanceListS,
    epcSelfnodeClassListS]

attribute [simp] epcInstallationLocation epcProductionDate epcCurrentDate
  epcAnnouncementPropertyMap epcSetPropertyMap epcGetPropertyMap epcInstanceListNotification
  epcSelfnodeInstanceListS epcSelfnodeClassListS

theorem plain_of_notMem {epc : UInt8} (h : epc ∉ specialCodes) : Plain epc := by
  simp only [specialCodes, List.mem_cons, List.not_mem_nil, or_false, not_or] at h
  intro payload
  simp only [RefusesQuietly, Unreadable]
  tauto

/-- A wrapped property has the code, and meets the contract of that code. -/
structure EpcWrapper.Meets (w : EpcWrapper) (law : Prop) (epc : UInt8) : Prop where
  epc_eq : w.property.epc = epc
  contract : w.property.Contract law (RefusesQuietly epc) (Unreadable epc)

section Factory

variable {law : Prop} {T : Type} {name : String} {epc : UInt8} {source : UInt16} {announce : Bool}
  {getOperation setOperation : EpcAccessRule} {fromCanonical : FromCanonicalType T}
  {toCanonical : ToCanonicalType T} {validator : ValidatorType T} {w : EpcWrapper}

theorem meets_generalProperty {quiet unreadable : List UInt8 → Prop}
    (h : generalProperty name epc source announce getOperation setOperation fromCanonical
      toCanonical validator = .ok w)
    (hquiet : ∀ payload, quiet payload ↔ RefusesQuietly epc payload)
    (hunreadable : ∀ payload, unreadable payload ↔ Unreadable epc payload)
    (hcontract : ∀ p : StaticNodeProperty T, p.epc = epc → p.validatorFn = validator →
      p.toCanonicalFn = toCanonical → p.Contract law quiet unreadable) : w.Meets law epc := by
  cases h
  have hq : quiet = RefusesQuietly epc := funext fun payload => propext (hquiet payload)
  have hu : unreadable = Unreadable epc := funext fun payload => propext (hunreadable payload)
  exact ⟨rfl, hq ▸ hu ▸ hcontract _ rfl rfl rfl⟩

/-- A property of a plain code with a loud validator, whose decoder reads all it accepts. -/
theorem meets_of_readable
    (h : generalProperty name epc source announce getOperation setOperation fromCanonical
      toCanonical validator = .ok w) (hplain : epc ∉ specialCodes) (hloud : LoudOn validator epc)
    (hread : law → ∀ r r' payload, validator r (frame epc payload) = .ok true →
      IsOk (toCanonical r' (frame epc payload))) : w.Meets law epc :=
  meets_generalProperty h
    (fun payload => iff_of_false not_false (plain_of_notMem hplain payload).1)
    (fun payload => iff_of_false not_false (plain_of_notMem hplain payload).2)
    fun _ hepc hv hd => contract_of_readable hv hd (hepc ▸ hloud) (hepc ▸ hread)

theorem meets_boolean {trueValue falseValue : UInt8}
    (h : booleanProperty name epc source announce getOperation setOperation trueValue falseValue
      = .ok w) (hplain : epc ∉ specialCodes) (ht : epc ≠ trueValue) (hf : epc ≠ falseValue) :
    w.Meets law epc :=
  meets_of_readable h hplain (loudOn_boolean ht hf) fun _ _ _ _ hok =>
    absurd hok (booleanValidator_ne_ok ht hf _ _)

theorem meets_hexString {v : ValidatorType HexString}
    (h : hexStringProperty name epc source announce getOperation setOperation v = .ok w)
    (hplain : epc ∉ specialCodes) (hv : LoudOn v epc) : w.Meets law epc :=
  meets_of_readable h hplain hv fun _ _ _ payload _ => isOk_hexString _ epc payload

theorem meets_asciiString {v : ValidatorType String}
    (h : asciiStringProperty name epc source announce getOperation setOperation v = .ok w)
    (hplain : epc ∉ specialCodes) (hv : LoudOn v epc) : w.Meets law epc :=
  meets_of_readable h hplain (loudOn_asciiString hv) fun _ _ _ _ => isOk_asciiString

theorem meets_integer [Integer T]
    (h : integerProperty T name epc source announce getOperation setOperation = .ok w)
    (hplain : epc ∉ specialCodes) : w.Meets law epc :=
  meets_of_readable h hplain (loudOn_integer (loudOn_accept epc)) fun _ _ _ _ => isOk_integer

theorem meets_packed {F : Type} [F64 F] {N : ℕ} {maxValue : F} {precision : UInt8}
    (h : unsignedIntegerPackedFloatProperty N name epc source announce getOperation setOperation
      maxValue precision = .ok w) (hplain : epc ∉ specialCodes) (hN : N = 1 ∨ N = 2 ∨ N = 4) :
    w.Meets law epc := by
  rw [unsignedIntegerPackedFloatProperty] at h
  split at h
  · split_ifs at h
    exact meets_of_readable h hplain (loudOn_packed hN maxValue precision epc) fun _ _ _ _ =>
      isOk_packed hN
  · exact nomatch h
  · exact nomatch h

theorem meets_propertyMap
    (h : propertyMapProperty name epc source announce getOperation setOperation = .ok w)
    (hepc : epc = epcAnnouncementPropertyMap ∨ epc = epcSetPropertyMap ∨ epc = epcGetPropertyMap) :
    w.Meets law epc := by
  refine meets_generalProperty h (fun payload => ?_) (fun payload => ?_)
    fun _ _ hv hd => contract_propertyMap hv hd
  all_goals
    rcases hepc with rfl | rfl | rfl <;> simp [RefusesQuietly, Unreadable]

theorem meets_installationLocation {F : Type}
    (h : generalProperty name epc source announce getOperation setOperation
      (installationLocationFromCanonical (F := F)) installationLocationToCanonical
      installationLocationValidator = .ok w) (hepc : epc = epcInstallationLocation) :
    w.Meets law epc := by
  refine meets_generalProperty h (fun payload => ?_) (fun payload => ?_) fun p hp hv hd =>
    contract_installationLocation (by rw [hp, hepc]; decide) hv hd
  all_goals
    rw [hepc]
    simp [RefusesQuietly, Unreadable]

theorem meets_faultContent
    (h : generalProperty name epc source announce getOperation setOperation
      faultContentFromCanonical faultContentToCanonical faultContentValidator = .ok w)
    (hplain : epc ∉ specialCodes) :
    w.Meets law epc :=
  meets_generalProperty h (fun payload => iff_of_false not_false (plain_of_notMem hplain payload).1)
    (fun payload => iff_of_false not_false (plain_of_notMem hplain payload).2) fun _ _ hv _ =>
    contract_faultContent hv

theorem meets_eojArray
    (h : eojArrayProperty name epc source announce getOperation setOperation = .ok w)
    (hepc : epc = epcInstanceListNotification ∨ epc = epcSelfnodeInstanceListS ∨
      epc = epcSelfnodeClassListS) : w.Meets law epc := by
  refine meets_generalProperty h (fun payload => ?_) (fun payload => ?_)
    fun _ _ hv hd => contract_eojArray hv hd
  all_goals
    rcases hepc with rfl | rfl | rfl <;> simp [RefusesQuietly, Unreadable]

section Chrono

variable [Chrono]

theorem meets_date
    (h : dateProperty name epc source announce getOperation setOperation (fun _ _ => .ok true)
      = .ok w)
    (hepc : epc = epcProductionDate ∨ epc = epcCurrentDate) : w.Meets Chrono.Lawful epc := by
  refine meets_generalProperty h (fun payload => ?_) (fun payload => ?_)
    fun _ _ hv hd => contract_date hv hd
  all_goals
    rcases hepc with rfl | rfl <;> simp [RefusesQuietly, Unreadable]

theorem meets_time {v : ValidatorType Chrono.NaiveTime}
    (h : timeProperty name epc source announce getOperation setOperation v = .ok w)
    (hplain : epc ∉ specialCodes) (hv : LoudOn v epc) : w.Meets Chrono.Lawful epc :=
  meets_of_readable h hplain (loudOn_time hv) fun _ _ _ _ => isOk_time

theorem meets_duration {v : ValidatorType Chrono.TimeDelta}
    (h : durationProperty name epc source announce getOperation setOperation v = .ok w)
    (hplain : epc ∉ specialCodes) (hv : LoudOn v epc) : w.Meets Chrono.Lawful epc :=
  meets_of_readable h hplain (loudOn_duration hv) fun _ _ _ _ => isOk_duration

end Chrono

theorem propertyFactoryClassProfile_meets (h : propertyFactoryClassProfile epc = .ok w) :
    w.Meets law epc := by
  rw [propertyFactoryClassProfile] at h
  rcases ite_eq_ok h with ⟨hbf, h⟩ | ⟨-, h⟩
  · exact meets_integer h (by rw [hbf]; decide)
  rcases ite_eq_ok h with ⟨hd3, h⟩ | ⟨-, h⟩
  · exact meets_integer h (by rw [hd3]; decide)
  rcases ite_eq_ok h with ⟨hd4, h⟩ | ⟨-, h⟩
  · exact meets_integer h (by rw [hd4]; decide)
  rcases ite_eq_ok h with ⟨hd5, h⟩ | ⟨-, h⟩
  · exact meets_eojArray h (Or.inl hd5)
  rcases ite_eq_ok h with ⟨hd6, h⟩ | ⟨-, h⟩
  · exact meets_eojArray h (Or.inr (Or.inl hd6))
  rcases ite_eq_ok h with ⟨hd7, h⟩ | ⟨-, h⟩
  · exact meets_eojArray h (Or.inr (Or.inr hd7))
  exact nomatch h

/-- The codes shared by all classes. -/
theorem propertyFactory_shared_meets {F : Type} [F64 F] [Chrono] {groupClass : NodeGroupClass}
    (hshared : epc ≥ 0x80 ∧ epc < 0xa0) (h : propertyFactory F groupClass epc = .ok w) :
    w.Meets Chrono.Lawful epc := by
  rw [propertyFactory, if_pos hshared] at h
  rcases ite_eq_ok h with ⟨h80, h⟩ | ⟨-, h⟩
  · exact meets_boolean h (by rw [h80]; decide) (by rw [h80]; decide) (by rw [h80]; decide)
  rcases ite_eq_ok h with ⟨h81, h⟩ | ⟨-, h⟩
  · exact meets_installationLocation h h81
  rcases ite_eq_ok h with ⟨h82, h⟩ | ⟨-, h⟩
  · rcases ite_eq_ok h with ⟨-, h⟩ | ⟨-, h⟩
    · exact meets_of_readable h (by rw [h82]; decide) (loudOn_profileVersion epc) fun _ _ _ _ =>
        isOk_profileVersion
    · exact meets_of_readable h (by rw [h82]; decide) (loudOn_deviceVersion epc) fun _ _ _ _ =>
        isOk_deviceVersion
  rcases ite_eq_ok h with ⟨h83, h⟩ | ⟨-, h⟩
  · exact meets_hexString h (by rw [h83]; decide) (loudOn_identification _ epc)
  rcases ite_eq_ok h with ⟨h84, h⟩ | ⟨-, h⟩
  · exact meets_integer h (by rw [h84]; decide)
  rcases ite_eq_ok h with ⟨h85, h⟩ | ⟨-, h⟩
  · exact meets_packed h (by rw [h85]; decide) (by decide)
  rcases ite_eq_ok h with ⟨h86, h⟩ | ⟨-, h⟩
  · exact meets_of_readable h (by rw [h86]; decide) (loudOn_faultCode epc) fun _ _ _ _ =>
      isOk_faultCode
  rcases ite_eq_ok h with ⟨h87, h⟩ | ⟨-, h⟩
  · exact meets_packed h (by rw [h87]; decide) (by decide)
  rcases ite_eq_ok h with ⟨h88, h⟩ | ⟨-, h⟩
  · exact meets_boolean h (by rw [h88]; decide) (by rw [h88]; decide) (by rw [h88]; decide)
  rcases ite_eq_ok h with ⟨h89, h⟩ | ⟨-, h⟩
  · exact meets_faultContent h (by rw [h89]; decide)
  rcases ite_eq_ok h with ⟨h8a, h⟩ | ⟨-, h⟩
  · exact meets_hexString h (by rw [h8a]; decide) (loudOn_validateLength epc 3)
  rcases ite_eq_ok h with ⟨h8b, h⟩ | ⟨-, h⟩
  · exact meets_hexString h (by rw [h8b]; decide) (loudOn_validateLength epc 3)
  rcases ite_eq_ok h with ⟨h8c, h⟩ | ⟨-, h⟩
  · exact meets_asciiString h (by rw [h8c]; decide) (loudOn_validateLength epc 12)
  rcases ite_eq_ok h with ⟨h8d, h⟩ | ⟨-, h⟩
  · exact meets_asciiString h (by rw [h8d]; decide) (loudOn_validateLength epc 12)
  rcases ite_eq_ok h with ⟨h8e, h⟩ | ⟨-, h⟩
  · exact meets_date h (Or.inl h8e)
  rcases ite_eq_ok h with ⟨h8f, h⟩ | ⟨-, h⟩
  · exact meets_boolean h (by rw [h8f]; decide) (by rw [h8f]; decide) (by rw [h8f]; decide)
  rcases ite_eq_ok h with ⟨h93, h⟩ | ⟨-, h⟩
  · exact meets_of_readable h (by rw [h93]; decide) (loudOn_remoteControl epc) fun _ _ _ _ =>
      isOk_remoteControl
  rcases ite_eq_ok h with ⟨h97, h⟩ | ⟨-, h⟩
  · exact meets_time h (by rw [h97]; decide) (loudOn_accept epc)
  rcases ite_eq_ok h with ⟨h98, h⟩ | ⟨-, h⟩
  · exact meets_date h (Or.inr h98)
  rcases ite_eq_ok h with ⟨h99, h⟩ | ⟨-, h⟩
  · exact meets_integer h (by rw [h99]; decide)
  rcases ite_eq_ok h with ⟨h9a, h⟩ | ⟨-, h⟩
  · exact meets_duration h (by rw [h9a]; decide) (loudOn_accept epc)
  rcases ite_eq_ok h with ⟨h9d, h⟩ | ⟨-, h⟩
  · exact meets_propertyMap h (Or.inl h9d)
  rcases ite_eq_ok h with ⟨h9e, h⟩ | ⟨-, h⟩
  · exact meets_propertyMap h (Or.inr (Or.inl h9e))
  rcases ite_eq_ok h with ⟨h9f, h⟩ | ⟨-, h⟩
  · exact meets_propertyMap h (Or.inr (Or.inr h9f))
  exact nomatch h

/-- **Every property of the factory meets the contract of its code.** -/
theorem propertyFactory_meets {F : Type} [F64 F] [Chrono] {groupClass : NodeGroupClass}
    (h : propertyFactory F groupClass epc = .ok w) : w.Meets Chrono.Lawful epc := by
  by_cases hshared : epc ≥ 0x80 ∧ epc < 0xa0
  · exact propertyFactory_shared_meets hshared h
  rw [propertyFactory, if_neg hshared] at h
  rcases ite_eq_ok h with ⟨-, h⟩ | ⟨-, h⟩
  · rcases ite_eq_ok h with ⟨-, h⟩ | ⟨-, h⟩
    · exact propertyFactoryClassProfile_meets h
    · exact nomatch h
  · exact nomatch h

end Factory

end Echonet
