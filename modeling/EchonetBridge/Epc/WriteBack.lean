import EchonetBridge.Api.PropertyMapCanonical
import EchonetBridge.Epc.Acceptance
import EchonetBridge.Epc.Durations
import EchonetBridge.Epc.Flags
import EchonetBridge.Epc.HexStrings
import EchonetBridge.Epc.Locations
import EchonetBridge.Epc.ManufacturerFault
import EchonetBridge.Epc.ObjectLists
import EchonetBridge.Epc.Times
import EchonetBridge.Epc.Versions

/-!
# Epc/WriteBack — reading a property and writing back what was read

A payload that is set, read as a canonical value and stored again from that value should be the same
payload.  `mirrorTable` says of each code of the factory which payloads are, whatever the property
held before (`propertyFactory_writesBack_iff`).

The factory is the one with `f64` read as exact rationals: a packed property reads a product and
writes a quotient, both of which doubles round.
-/

namespace Echonet

open BigEndian Outcome Text

namespace StaticNodeProperty

variable {T : Type} (p : StaticNodeProperty T)

/-- Whatever a run has left in the property, it writes back these payloads. -/
def WritesBackExactly (kept : List UInt8 → Prop) : Prop :=
  ∀ calls payload now now', p.WrittenBack (p.run calls) payload now now' ↔ kept payload

variable {p} {accepted kept : List UInt8 → Prop}

theorem writesBackExactly_of (h : ∀ {cells payload now now'},
    p.WrittenBack cells payload now now' ↔ kept payload) : p.WritesBackExactly kept :=
  fun _ _ _ _ => h

namespace AcceptsExactly

variable (h : p.AcceptsExactly accepted)
include h

/-- Only what is accepted is written back. -/
theorem accepted_of_writtenBack {calls : List (Call T)} {payload : List UInt8}
    {now now' : ClockReading} (hback : p.WrittenBack (p.run calls) payload now now') :
    accepted payload := (h.set_eq_ok_iff calls payload now).mp hback.accepted

/-- A property that writes back what it accepts. -/
theorem writesBack (hback : ∀ {cells payload now} now', (p.set cells payload now).1 = .ok () →
    p.WrittenBack cells payload now now') : p.WritesBackExactly accepted :=
  fun calls payload now now' => ⟨h.accepted_of_writtenBack,
    fun haccepted => hback now' ((h.set_eq_ok_iff calls payload now).mpr haccepted)⟩

end AcceptsExactly

/-- A property whose encoder never returns writes nothing back. -/
theorem writesBack_nothing_of_encoder (h : ∀ r c internal, p.fromCanonicalFn r c ≠ .ok internal) :
    p.WritesBackExactly fun _ => False := writesBackExactly_of <| by
  intro cells payload now now'
  rw [p.writtenBack_iff]
  refine iff_of_false ?_ not_false
  rintro ⟨-, -, c, -, b₀, b₁, hencoded⟩
  exact h _ c _ hencoded

end StaticNodeProperty

/-! ## Locations -/

/-- The bytes of no place, of every place, and of the seventh room of each kind. -/
def IsLocationByte (byte : UInt8) : Prop :=
  byte = 0x00 ∨ byte = 0xff ∨ 0x08 ≤ byte ∧ byte < 0x80 ∧ byte &&& 0x07 = 0x07

instance (byte : UInt8) : Decidable (IsLocationByte byte) := inferInstanceAs (Decidable (_ ∨ _))

section Location

variable {F : Type} {p : StaticNodeProperty (NodeObjectInstallationLocation F)} {cells : Cells}

/-- The byte of a room that is read keeps its kind, and its number is widened. -/
theorem roomOf_reencoded {byte : UInt8} {value : NodeObjectInstallationLocation F}
    (h : roomOf byte = (.ok value : Outcome EpcError _))
    (r : EpcRef (NodeObjectInstallationLocation F)) : installationLocationFromCanonical r value
      = .ok [0x00, 0x00, (byte &&& 0x78) ||| ((byte &&& 0x07) ||| 0x07)] := by
  have hmask : byte &&& 0x00 = 0x00 := UInt8.and_zero
  obtain ⟨k, hk, hkind⟩ := kind_cases byte
  rw [roomOf, if_pos hmask, hkind] at h
  rw [hkind]
  interval_cases k
  · cases h
  all_goals
    cases h
    rfl

theorem room_reencoded_iff {byte : UInt8} (h0 : byte ≠ 0x00) (hff : byte ≠ 0xff) :
    byte &&& 0x78 ≠ 0x00 ∧ (byte &&& 0x78) ||| ((byte &&& 0x07) ||| 0x07) = byte ↔
      IsLocationByte byte := by
  rw [IsLocationByte, or_iff_right h0, or_iff_right hff]
  refine Bits.forall_byte byte ?_
  decide +kernel

/-- A byte is read as a location that is written as the same byte. -/
theorem location_reencoded_iff (r r' : EpcRef (NodeObjectInstallationLocation F))
    (epc byte : UInt8) :
    (∃ c, installationLocationToCanonical r (frame epc [byte]) = .ok c ∧ ∃ b₀ b₁,
      installationLocationFromCanonical r' c = .ok [b₀, b₁, byte]) ↔ IsLocationByte byte := by
  rw [installationLocationToCanonical, index_frame_first, ok_bind]
  by_cases h0 : byte = 0x00
  · rw [if_pos h0, h0]
    exact iff_of_true ⟨_, rfl, 0x00, 0x00, rfl⟩ (Or.inl rfl)
  by_cases h1 : byte = 0x01
  · -- The location information code is looked for behind the end of the payload.
    rw [if_neg h0, if_pos h1, h1, slice, if_neg (by simp), panic_bind]
    refine iff_of_false ?_ (by decide)
    rintro ⟨_, hc, -⟩
    cases hc
  by_cases hff : byte = 0xff
  · rw [if_neg h0, if_neg h1, if_pos hff, hff]
    exact iff_of_true ⟨_, rfl, 0x00, 0x00, rfl⟩ (Or.inr (Or.inl rfl))
  rw [if_neg h0, if_neg h1, if_neg hff, ← room_reencoded_iff h0 hff]
  constructor
  · rintro ⟨c, hc, b₀, b₁, hencoded⟩
    rw [roomOf_reencoded hc, Outcome.ok.injEq] at hencoded
    simp only [List.cons.injEq] at hencoded
    exact ⟨(isOk_roomOf byte).mp ⟨c, hc⟩, hencoded.2.2.1⟩
  · rintro ⟨hkind, hbyte⟩
    obtain ⟨c, hc⟩ := (isOk_roomOf (F := F) byte).mpr hkind
    exact ⟨c, hc, 0x00, 0x00, by rw [roomOf_reencoded hc, hbyte]⟩

theorem location_writtenBack_iff (hepc : p.epc ≠ 0x01)
    (henc : p.fromCanonicalFn = installationLocationFromCanonical)
    (hd : p.toCanonicalFn = installationLocationToCanonical)
    (hv : p.validatorFn = installationLocationValidator) {payload : List UInt8}
    {now now' : ClockReading} :
    p.WrittenBack cells payload now now' ↔ ∃ byte, payload = [byte] ∧ IsLocationByte byte := by
  rw [p.writtenBack_iff, henc, hd, hv, installationLocationValidator_eq hepc,
    installationLocationValidator_eq hepc, and_iff_right (isOk_ok _), Outcome.ok.injEq,
    decide_eq_true_iff]
  constructor
  · rintro ⟨hlen, hback⟩
    obtain ⟨byte, rfl⟩ := List.length_eq_one_iff.mp hlen
    exact ⟨byte, rfl, (location_reencoded_iff _ _ _ byte).mp hback⟩
  · rintro ⟨byte, rfl, hbyte⟩
    exact ⟨rfl, (location_reencoded_iff _ _ _ byte).mpr hbyte⟩

end Location

/-! ## Versions of devices -/

section DeviceVersion

variable {p : StaticNodeProperty NodeDeviceObjectEchonetLiteSupportedVersion} {cells : Cells}

/-- A device version is read from the first half of the payload and written to the second. -/
theorem deviceVersion_writtenBack_iff (henc : p.fromCanonicalFn = deviceVersionFromCanonical)
    (hd : p.toCanonicalFn = deviceVersionToCanonical) (hv : p.validatorFn = deviceVersionValidator)
    {payload : List UInt8} {now now' : ClockReading} :
    p.WrittenBack cells payload now now' ↔ payload = [0x00, 0x00, 0x00, 0x00] := by
  rw [p.writtenBack_iff, henc, hd, hv]
  constructor
  · rintro ⟨⟨answer, hanswer⟩, -, c, hc, b₀, b₁, hencoded⟩
    have hlen : payload.length = 4 := by
      by_contra hlen
      rw [deviceVersionValidator, if_neg (by rw [length_frame]; omega)] at hanswer
      cases hanswer
    obtain ⟨release, revision, third, fourth, rfl⟩ := List.length_eq_four.mp hlen
    cases hc
    rw [deviceVersionFromCanonical, Outcome.ok.injEq] at hencoded
    simp only [List.cons.injEq, and_true] at hencoded
    obtain ⟨-, -, hrelease, hrevision, hthird, hfourth⟩ := hencoded
    rw [← hrelease] at hthird
    rw [← hthird, ← hfourth, ← hrelease, ← hrevision]
    rfl
  · rintro rfl
    exact ⟨⟨true, rfl⟩, rfl, _, rfl, 0x00, 0x00, rfl⟩

end DeviceVersion

/-! ## Fault codes -/

section FaultCode

variable {p : StaticNodeProperty NodeObjectManufacturerFaultCode} {cells : Cells}

/-- The manufacturer code is in place when nothing follows it, or when it is zero. -/
def IsFaultCodeInPlace (payload : List UInt8) : Prop :=
  payload.length = 3 ∨ payload.take 3 = [0x00, 0x00, 0x00]

theorem faultCode_writtenBack_iff (henc : p.fromCanonicalFn = faultCodeFromCanonical)
    (hd : p.toCanonicalFn = faultCodeToCanonical) (hv : p.validatorFn = faultCodeValidator)
    {payload : List UInt8} {now now' : ClockReading} :
    p.WrittenBack cells payload now now' ↔ IsFaultCodeInPlace payload := by
  rw [p.writtenBack_iff, henc, hd, hv]
  by_cases hlen : 3 ≤ payload.length
  · obtain ⟨code, fault, rfl, hcode⟩ : ∃ code fault, payload = code ++ fault ∧ code.length = 3 :=
      ⟨_, _, (List.take_append_drop 3 payload).symm, List.length_take_of_le hlen⟩
    have hthree : (HexString.ofBytes code).byteLen = 3 := by
      rw [← HexString.length_represented, HexString.represented_ofBytes, hcode]
    have hfault : (HexString.ofBytes fault).byteLen = fault.length := by
      rw [← HexString.length_represented, HexString.represented_ofBytes]
    have hplace := Buffer.take_padded_eq_iff fault.length 0 code
    rw [hcode] at hplace
    have hinPlace : IsFaultCodeInPlace (code ++ fault) ↔
        fault.length = 0 ∨ code = List.replicate 3 0 := by
      rw [IsFaultCodeInPlace, List.length_append, hcode, List.take_left' hcode]
      exact or_congr_left (by omega)
    rw [faultCodeValidator_eq hlen, faultCodeValidator_eq hlen, and_iff_right (isOk_ok _),
      and_iff_right rfl, hinPlace, ← hplace, faultCodeToCanonical_append hcode]
    have hencoded := faultCodeFromCanonical_of_three
      (p.ref ⟨frame p.epc (code ++ fault), now.1⟩)
      ⟨HexString.ofBytes code, HexString.ofBytes fault⟩ hthree
    rw [manufacturerPayload, hfault, HexString.represented_ofBytes,
      HexString.represented_ofBytes] at hencoded
    constructor
    · rintro ⟨c, hc, b₀, b₁, hback⟩
      cases hc
      rw [hencoded, Outcome.ok.injEq] at hback
      simp only [List.cons.injEq] at hback
      exact List.append_cancel_right hback.2.2
    · intro hback
      rw [hback] at hencoded
      exact ⟨_, rfl, _, _, hencoded⟩
  · refine iff_of_false (fun h => ?_) ?_
    · rw [faultCodeValidator, if_neg (by rw [length_frame]; omega)] at h
      exact not_isOk_err _ h.1
    · rintro (h3 | hzero)
      · omega
      · have htake := congrArg List.length hzero
        rw [List.length_take] at htake
        simp only [List.length_cons, List.length_nil] at htake
        omega

end FaultCode

/-! ## Dates -/

/-- A payload is the year, the month and the day of a date. -/
def IsDatePayload (payload : List UInt8) : Prop :=
  ∃ y₁ y₀ month day, payload = [y₁, y₀, month, day] ∧
    Calendar.IsDate (beValue [y₁, y₀]) month.toNat day.toNat

section Date

variable [Chrono] [Chrono.LawfulDate] {p : StaticNodeProperty Chrono.NaiveDate} {cells : Cells}

/-- A date that is read is written as the payload that it was read from. -/
theorem datePayload_of_read {r : EpcRef Chrono.NaiveDate} {epc y₁ y₀ month day : UInt8}
    {date : Chrono.NaiveDate}
    (h : dateToCanonical r (frame epc [y₁, y₀, month, day]) = .ok date) :
    datePayload date = [y₁, y₀, month, day] := by
  rw [dateToCanonical_eq_ok] at h
  obtain ⟨hyear, hmonth, hday⟩ := Chrono.LawfulDate.fromYmdOpt_eq_some.mp h
  have hword : yearWord (Chrono.year date) = fromBeBytes₁₆ #v[y₁, y₀] := by
    have hlt := (fromBeBytes₁₆ #v[y₁, y₀]).toNat_lt
    have hword := natCast_yearWord (Chrono.year date)
    rw [hyear, Int32.toInt_ofNat_of_lt (by omega)] at hword
    rw [hyear]
    exact UInt16.toNat_inj.mp (by omega)
  have hbytes : toBeBytes₁₆ (fromBeBytes₁₆ #v[y₁, y₀]) = #v[y₁, y₀] := by
    refine Vector.toList_inj.mp (eq_of_beValue_eq (by simp) ?_)
    rw [beValue_toBeBytes₁₆, toNat_fromBeBytes₁₆]
  rw [datePayload, hword, hbytes, hmonth, hday, UInt8.toUInt8_toUInt32, UInt8.toUInt8_toUInt32]
  rfl

theorem date_writtenBack_iff [Chrono.Lawful] (henc : p.fromCanonicalFn = dateFromCanonical)
    (hd : p.toCanonicalFn = dateToCanonical)
    (hv : p.validatorFn = dateValidator fun _ _ => .ok true) {payload : List UInt8}
    {now now' : ClockReading} :
    p.WrittenBack cells payload now now' ↔ IsDatePayload payload := by
  rw [p.writtenBack_iff, henc, hd, hv]
  constructor
  · rintro ⟨⟨answer, hanswer⟩, -, date, hdate, -⟩
    have hlen : payload.length = 4 := by
      by_contra hlen
      rw [dateValidator, if_neg (by rw [length_frame]; omega)] at hanswer
      cases hanswer
    obtain ⟨y₁, y₀, month, day, rfl⟩ := List.length_eq_four.mp hlen
    have hday := (isOk_date _ _ _ _ _ _).mp ⟨date, hdate⟩
    rw [toNat_fromBeBytes₁₆] at hday
    exact ⟨y₁, y₀, month, day, rfl, hday⟩
  · rintro ⟨y₁, y₀, month, day, rfl, hday⟩
    obtain ⟨date, hdate⟩ := (isOk_date p.decoderRef p.epc y₁ y₀ month day).mpr
      (by rwa [toNat_fromBeBytes₁₆])
    refine ⟨⟨true, rfl⟩, rfl, date, hdate, 0x00, 0x00, ?_⟩
    rw [dateFromCanonical_eq, datePayload_of_read hdate]

end Date

/-! ## Lists of objects -/

section Objects

variable {p : StaticNodeProperty EOJVec} {cells : Cells}

/-- Whole objects whose bytes after the first alternate. -/
def IsObjectsPayload (payload : List UInt8) : Prop := payload.length % 3 = 0 ∧ Alternates payload

theorem eojArray_writtenBack_iff (henc : p.fromCanonicalFn = eojArrayFromCanonical)
    (hd : p.toCanonicalFn = eojArrayToCanonical) (hv : p.validatorFn = eojArrayValidator)
    {payload : List UInt8} {now now' : ClockReading} :
    p.WrittenBack cells payload now now' ↔ IsObjectsPayload payload := by
  have hstored := eojArray_stored henc hv
  constructor
  · intro h
    have hthree : payload.length % 3 = 0 := by
      have hyes := (p.writtenBack_iff.mp h).2.1
      rw [hv, eojArrayValidator_eq, Outcome.ok.injEq, decide_eq_true_iff] at hyes
      exact hyes
    exact ⟨hthree, (eojArray_storedBack henc hd hv cells now now' hthree).mp h.toStoredBack⟩
  · rintro ⟨hthree, halternates⟩
    refine ⟨(eojArray_storedBack henc hd hv cells now now' hthree).mpr halternates, fun c _ => ?_⟩
    rw [hstored]

end Objects

/-! ## Maps, durations and texts -/

/-- The payload of a map is two bytes shorter than the map. -/
theorem propertyMap_writesBack_nothing {p : StaticNodeProperty NodeObjectPropertyMap}
    (henc : p.fromCanonicalFn = propertyMapFromCanonical)
    (hd : p.toCanonicalFn = propertyMapToCanonical) : p.WritesBackExactly fun _ => False :=
  StaticNodeProperty.writesBackExactly_of <| by
    intro cells payload now now'
    rw [p.writtenBack_iff, henc, hd]
    refine iff_of_false ?_ not_false
    rintro ⟨-, -, m, hread, b₀, b₁, hencoded⟩
    rw [propertyMapToCanonical, sliceFrom_frame, ok_bind] at hread
    cases hm : NodeObjectPropertyMap.fromBytes payload with
    | ok m' =>
      rw [hm] at hread
      cases hread
      have hlength := length_of_decode hm hencoded
      simp only [List.length_cons] at hlength
      omega
    | err e => rw [hm] at hread; cases hread
    | panic => rw [hm] at hread; cases hread

theorem durationFromCanonical_ne_ok [Chrono] (r : EpcRef Chrono.TimeDelta)
    (delta : Chrono.TimeDelta) (internal : List UInt8) :
    durationFromCanonical r delta ≠ .ok internal := by
  simp only [durationFromCanonical, durationInternal_eq_panic]
  split_ifs <;> simp

theorem isAscii_ofAscii {bytes : List UInt8} (h : IsAsciiBytes bytes) :
    isAscii (ofAscii bytes) = true := by
  rw [isAscii, ofAscii, String.toList_ofList, List.all_map, List.all_eq_true]
  intro b hb
  rw [Function.comp_apply, decide_eq_true_iff, toNat_byteChar]
  exact UInt8.lt_iff_toNat_lt.mp (h b hb)

theorem asciiString_writtenBack {p : StaticNodeProperty String} {v : ValidatorType String}
    (henc : p.fromCanonicalFn = asciiStringFromCanonical)
    (hd : p.toCanonicalFn = asciiStringToCanonical)
    (hv : p.validatorFn = asciiStringValidator v) (hloud : LoudOn v p.epc) {cells : Cells}
    {payload : List UInt8} {now : ClockReading} (now' : ClockReading)
    (hok : (p.set cells payload now).1 = .ok ()) : p.WrittenBack cells payload now now' := by
  have hyes := ((loudOn_asciiString hloud).set_eq_ok_iff hv cells payload now).mp hok
  have hascii := isAsciiBytes_of_answer ⟨true, hyes⟩
  have hread := asciiStringToCanonical_frame p.decoderRef p.epc (ofAscii payload)
  rw [asBytes_ofAscii hascii] at hread
  rw [p.writtenBack_iff, henc, hd, hv]
  refine ⟨⟨true, hyes⟩, ?_, _, hread, 0x00, 0x00, ?_⟩
  · rw [(loudOn_asciiString hloud).stateFree (p.ref ⟨frame p.epc payload, now.1⟩) (p.ref cells) rfl]
    exact hyes
  · rw [asciiStringFromCanonical, if_pos (isAscii_ofAscii hascii), asBytes_ofAscii hascii]

theorem hexString_writtenBack {p : StaticNodeProperty HexString} {v : ValidatorType HexString}
    (henc : p.fromCanonicalFn = hexStringFromCanonical)
    (hd : p.toCanonicalFn = hexStringToCanonical) (hv : p.validatorFn = v) (hloud : LoudOn v p.epc)
    {cells : Cells} {payload : List UInt8} {now : ClockReading} (now' : ClockReading)
    (hok : (p.set cells payload now).1 = .ok ()) : p.WrittenBack cells payload now now' := by
  have hyes := (hloud.set_eq_ok_iff hv cells payload now).mp hok
  rw [hexString_writtenBack_iff henc hd, hv,
    hloud.stateFree (p.ref ⟨frame p.epc payload, now.1⟩) (p.ref cells) rfl]
  exact ⟨⟨true, hyes⟩, hyes⟩

/-! ## The factory -/

/-- The payloads that a property writes back. -/
inductive Mirror where
  | nothing
  /-- All payloads that are accepted. -/
  | accepted (shape : Shape)
  | location
  | release
  | messages
  | faultCode
  | date
  | remoteControl
  | objects
  deriving DecidableEq

instance Mirror.decidableForallNe :
    (mirror : Mirror) → Decidable (∀ shape, mirror ≠ accepted shape)
  | accepted shape => isFalse fun h => h shape rfl
  | nothing | location | release | messages | faultCode | date | remoteControl | objects =>
    isTrue nofun

/-- The payloads that are written back. -/
def Mirror.Keeps (payload : List UInt8) : Mirror → Prop
  | nothing => False
  | accepted shape => shape.Accepts payload
  | location => ∃ byte, payload = [byte] ∧ IsLocationByte byte
  | release => payload = [0x00, 0x00, 0x00, 0x00]
  | messages => IsVersionPayload payload
  | faultCode => IsFaultCodeInPlace payload
  | date => IsDatePayload payload
  | remoteControl => ∃ byte, payload = [byte] ∧ IsRemoteControlByte byte
  | objects => IsObjectsPayload payload

/-- What becomes of the payloads of the codes that all classes share. -/
def sharedMirrors (isProfile : Bool) : List (UInt8 × Mirror) :=
  [(epcOperatingStatus, .nothing), (epcInstallationLocation, .location),
    (epcVersionInformation, if isProfile then .messages else .release),
    (epcIdentificationNumber, .nothing),
    (epcMeasuredInstantaneousPowerConsumption, .accepted (.number 2)),
    (epcMeasuredCumulativePowerConsumption, .accepted (.packed 4 999999999)),
    (epcManufacturersFaultCode, .faultCode), (epcCurrentLimitSetting, .accepted (.packed 1 100)),
    (epcFaultStatus, .nothing), (epcFaultContent, .nothing),
    (epcManufacturerCode, .accepted (.bytes 3)), (epcBusinessFacilityCode, .accepted (.bytes 3)),
    (epcProductCode, .accepted (.ascii 12)), (epcSerialNumber, .accepted (.ascii 12)),
    (epcProductionDate, .date), (epcPowerSaving, .nothing), (epcRemoteControl, .remoteControl),
    (epcCurrentTime, .accepted .time), (epcCurrentDate, .date),
    (epcPowerLimit, .accepted (.number 2)), (epcCumulativeOperatingTime, .nothing),
    (epcAnnouncementPropertyMap, .nothing), (epcSetPropertyMap, .nothing),
    (epcGetPropertyMap, .nothing)]

/-- What becomes of the payloads of the codes of the node profile. -/
def profileMirrors : List (UInt8 × Mirror) :=
  [(epcUniqueIdentifierData, .accepted (.bytes 2)),
    (epcNumberOfSelfnodeInstances, .accepted (.number 3)),
    (epcNumberOfSelfnodeClasses, .accepted (.number 2)), (epcInstanceListNotification, .objects),
    (epcSelfnodeInstanceListS, .objects), (epcSelfnodeClassListS, .objects)]

/-- What becomes of the payloads of a class. -/
def mirrorTable (groupClass : NodeGroupClass) : List (UInt8 × Mirror) :=
  sharedMirrors (groupClass.classGroupCode == eojClassGroupProfile) ++
    if groupClass = classProfileNodeProfile then profileMirrors else []

/-- The codes of the properties that accept payloads which they do not write back. -/
def lossyCodes : List UInt8 :=
  [epcInstallationLocation, epcVersionInformation, epcManufacturersFaultCode, epcProductionDate,
    epcRemoteControl, epcCurrentDate, epcCumulativeOperatingTime, epcAnnouncementPropertyMap,
    epcSetPropertyMap, epcGetPropertyMap, epcInstanceListNotification, epcSelfnodeInstanceListS,
    epcSelfnodeClassListS]

/-- A payload that is not written back. -/
def Mirror.lost : Mirror → List UInt8
  | nothing => [0x41, 0x00, 0x00, 0x00, 0x00]
  | accepted _ | location => []
  | release | faultCode => [0x01, 0x00, 0x00, 0x00]
  | messages => [0x01, 0x0d, nodeMessageFormatSpecified, 0x01]
  | date => [0x00, 0x00, 0x00, 0x00]
  | remoteControl => [0x43]
  | objects => [0x00]

theorem Mirror.not_keeps_lost {mirror : Mirror} (h : ∀ shape, mirror ≠ accepted shape) :
    ¬ mirror.Keeps mirror.lost := by
  cases mirror with
  | nothing => exact not_false
  | accepted shape => exact absurd rfl (h shape)
  | location =>
    rintro ⟨byte, hbyte, -⟩
    cases hbyte
  | release => exact nofun
  | messages => exact fun hkept => absurd hkept.2.2 (by decide)
  | faultCode => exact fun hkept => hkept.elim nofun nofun
  | date =>
    rintro ⟨y₁, y₀, month, day, hpayload, hdate⟩
    cases hpayload
    revert hdate
    decide
  | remoteControl =>
    rintro ⟨byte, hbyte, hkept⟩
    cases hbyte
    revert hkept
    decide
  | objects => exact fun hkept => absurd hkept.1 (by decide)

theorem mem_mirrorTable {groupClass : NodeGroupClass} {entry : UInt8 × Mirror}
    (h : entry ∈ mirrorTable groupClass) :
    entry ∈
      sharedMirrors (groupClass.classGroupCode == eojClassGroupProfile) ++ profileMirrors := by
  rcases List.mem_append.mp h with h | h
  · exact List.mem_append_left _ h
  · split_ifs at h
    · exact List.mem_append_right _ h
    · cases h

/-- The two tables have the same codes. -/
theorem exists_mirror {groupClass : NodeGroupClass} {epc : UInt8} {shape : Shape}
    (h : (epc, shape) ∈ propertyTable groupClass) :
    ∃ mirror, (epc, mirror) ∈ mirrorTable groupClass := by
  have hcodes : (propertyTable groupClass).map Prod.fst =
      (mirrorTable groupClass).map Prod.fst := by
    rw [propertyTable, mirrorTable, List.map_append, List.map_append]
    split_ifs <;> rfl
  have hmem : epc ∈ (propertyTable groupClass).map Prod.fst := List.mem_map_of_mem h
  rw [hcodes] at hmem
  obtain ⟨⟨_, mirror⟩, hentry, rfl⟩ := List.mem_map.mp hmem
  exact ⟨mirror, hentry⟩

theorem accepts_le_keeps_iff {groupClass : NodeGroupClass} {epc : UInt8} {shape : Shape}
    {mirror : Mirror} (hshape : (epc, shape) ∈ propertyTable groupClass)
    (hmirror : (epc, mirror) ∈ mirrorTable groupClass) :
    (∀ payload, shape.Accepts payload → mirror.Keeps payload) ↔ epc ∉ lossyCodes := by
  have hall : ∀ isProfile, ∀ entry ∈ sharedTable isProfile ++ profileTable,
      ∀ image ∈ sharedMirrors isProfile ++ profileMirrors, entry.1 = image.1 →
        (entry.2 = .nothing ∨ image.2 = .accepted entry.2) ∧ entry.1 ∉ lossyCodes ∨
        ((∀ shape, image.2 ≠ .accepted shape) ∧ entry.2.Accepts image.2.lost) ∧
          entry.1 ∈ lossyCodes := by
    decide +kernel
  rcases hall _ _ (mem_propertyTable hshape) _ (mem_mirrorTable hmirror) rfl with
    ⟨hnothing | haccepted, hnot⟩ | ⟨⟨hother, haccepts⟩, hlossy⟩
  · have hempty : shape = .nothing := hnothing
    rw [hempty]
    exact iff_of_true (fun _ h => h.elim) hnot
  · have hsame : mirror = .accepted shape := haccepted
    rw [hsame]
    exact iff_of_true (fun _ h => h) hnot
  · exact iff_of_false (fun hle => Mirror.not_keeps_lost hother (hle _ haccepts))
      (not_not_intro hlossy)

/-- The factory, with `f64` read as exact rationals, has a property of the code, which writes back
the payloads of the mirror. -/
def Mirrors [Chrono] (groupClass : NodeGroupClass) (epc : UInt8) (mirror : Mirror) : Prop :=
  ∃ w, propertyFactory ExtRat groupClass epc = .ok w ∧
    w.property.WritesBackExactly fun payload => mirror.Keeps payload

section Factory

variable [Chrono] {groupClass : NodeGroupClass} {epc : UInt8} {shape : Shape}

theorem mirrors_of {T : Type} {p : StaticNodeProperty T} {mirror : Mirror}
    (hfactory : propertyFactory ExtRat groupClass epc = .ok ⟨T, p⟩)
    (h : ∀ {cells payload now now'},
      p.WrittenBack cells payload now now' ↔ mirror.Keeps payload) :
    Mirrors groupClass epc mirror :=
  ⟨⟨T, p⟩, hfactory, StaticNodeProperty.writesBackExactly_of h⟩

/-- A property that accepts nothing. -/
theorem Offers.mirrors_nothing (h : Offers groupClass epc .nothing) :
    Mirrors groupClass epc .nothing := by
  obtain ⟨w, hw, -, haccepts⟩ := h
  exact ⟨w, hw, fun calls payload now now' =>
    iff_of_false (fun hback => haccepts.accepted_of_writtenBack hback) not_false⟩

/-- A property that writes back what it accepts. -/
theorem Offers.mirrors_accepted (h : Offers groupClass epc shape) {T : Type}
    {p : StaticNodeProperty T} (hfactory : propertyFactory ExtRat groupClass epc = .ok ⟨T, p⟩)
    (hback : ∀ {cells payload now} now', (p.set cells payload now).1 = .ok () →
      p.WrittenBack cells payload now now') :
    Mirrors groupClass epc (.accepted shape) := by
  obtain ⟨w, hw, -, haccepts⟩ := h
  obtain rfl := Outcome.ok.inj (hfactory.symm.trans hw)
  exact ⟨_, hfactory, haccepts.writesBack hback⟩

theorem mirrors_packed {N M : ℕ} {q : ℚ} {precision : UInt8} (hlimit : PackedLimit N M q precision)
    {name : String} {source : UInt16} {announce : Bool} {getOperation setOperation : EpcAccessRule}
    (hfactory : propertyFactory ExtRat groupClass epc = unsignedIntegerPackedFloatProperty N name
      epc source announce getOperation setOperation (.fin q : ExtRat) precision) :
    Mirrors groupClass epc (.accepted (.packed N M)) := by
  have hproperty := hlimit.property_eq name epc source announce getOperation setOperation
  exact (offers_packed hlimit hfactory).mirrors_accepted (hfactory.trans hproperty)
    (packed_writtenBack hlimit rfl rfl rfl)

theorem mirrors_version : Mirrors groupClass epcVersionInformation
    (if groupClass.classGroupCode == eojClassGroupProfile then .messages else .release) := by
  have hfactory := propertyFactory_version groupClass
  split_ifs at hfactory ⊢
  · exact mirrors_of hfactory (profileVersion_writtenBack_iff rfl rfl rfl)
  · exact mirrors_of hfactory (deviceVersion_writtenBack_iff rfl rfl rfl)

theorem mirrors_shared [Chrono.Lawful] [Chrono.LawfulDate] [Chrono.Clock] [Chrono.LawfulTime]
    {mirror : Mirror}
    (h : (epc, mirror) ∈ sharedMirrors (groupClass.classGroupCode == eojClassGroupProfile)) :
    Mirrors groupClass epc mirror := by
  simp only [sharedMirrors, List.mem_cons, List.not_mem_nil, or_false, Prod.mk.injEq] at h
  rcases h with ⟨rfl, rfl⟩ | ⟨rfl, rfl⟩ | ⟨rfl, rfl⟩ | ⟨rfl, rfl⟩ | ⟨rfl, rfl⟩ | ⟨rfl, rfl⟩ |
    ⟨rfl, rfl⟩ | ⟨rfl, rfl⟩ | ⟨rfl, rfl⟩ | ⟨rfl, rfl⟩ | ⟨rfl, rfl⟩ | ⟨rfl, rfl⟩ | ⟨rfl, rfl⟩ |
    ⟨rfl, rfl⟩ | ⟨rfl, rfl⟩ | ⟨rfl, rfl⟩ | ⟨rfl, rfl⟩ | ⟨rfl, rfl⟩ | ⟨rfl, rfl⟩ | ⟨rfl, rfl⟩ |
    ⟨rfl, rfl⟩ | ⟨rfl, rfl⟩ | ⟨rfl, rfl⟩ | ⟨rfl, rfl⟩
  · exact (offers_shared (by simp [sharedTable])).mirrors_nothing
  · exact mirrors_of rfl (location_writtenBack_iff (by decide) rfl rfl rfl)
  · exact mirrors_version
  · exact (offers_shared (by simp [sharedTable])).mirrors_nothing
  · exact (offers_shared (by simp [sharedTable])).mirrors_accepted rfl
      (integer_writtenBack rfl rfl rfl)
  · have hscale : scale 3 = 10 ^ 3 := rfl
    exact mirrors_packed (q := 999999999 / 10 ^ 3)
      ⟨by decide, by rw [hscale]; norm_num, by norm_num⟩ rfl
  · exact mirrors_of rfl (faultCode_writtenBack_iff rfl rfl rfl)
  · exact mirrors_packed (q := 1000 / 10 ^ 1) ⟨by decide, by norm_num [scale], by norm_num⟩ rfl
  · exact (offers_shared (by simp [sharedTable])).mirrors_nothing
  · exact (offers_shared (by simp [sharedTable])).mirrors_nothing
  · exact (offers_shared (by simp [sharedTable])).mirrors_accepted rfl
      (hexString_writtenBack rfl rfl rfl (loudOn_validateLength _ 3))
  · exact (offers_shared (by simp [sharedTable])).mirrors_accepted rfl
      (hexString_writtenBack rfl rfl rfl (loudOn_validateLength _ 3))
  · exact (offers_shared (by simp [sharedTable])).mirrors_accepted rfl
      (asciiString_writtenBack rfl rfl rfl (loudOn_validateLength _ 12))
  · exact (offers_shared (by simp [sharedTable])).mirrors_accepted rfl
      (asciiString_writtenBack rfl rfl rfl (loudOn_validateLength _ 12))
  · exact mirrors_of rfl (date_writtenBack_iff rfl rfl rfl)
  · exact (offers_shared (by simp [sharedTable])).mirrors_nothing
  · exact mirrors_of rfl (remoteControl_writtenBack_iff rfl rfl rfl)
  · refine mirrors_of rfl ((time_writtenBack_iff rfl rfl rfl).trans ?_)
    exact and_iff_left ⟨isOk_ok _, rfl⟩
  · exact mirrors_of rfl (date_writtenBack_iff rfl rfl rfl)
  · exact (offers_shared (by simp [sharedTable])).mirrors_accepted rfl
      (integer_writtenBack rfl rfl rfl)
  · exact ⟨_, rfl, StaticNodeProperty.writesBack_nothing_of_encoder durationFromCanonical_ne_ok⟩
  · exact ⟨_, rfl, propertyMap_writesBack_nothing rfl rfl⟩
  · exact ⟨_, rfl, propertyMap_writesBack_nothing rfl rfl⟩
  · exact ⟨_, rfl, propertyMap_writesBack_nothing rfl rfl⟩

theorem mirrors_profile {mirror : Mirror} (h : (epc, mirror) ∈ profileMirrors) :
    Mirrors classProfileNodeProfile epc mirror := by
  simp only [profileMirrors, List.mem_cons, List.not_mem_nil, or_false, Prod.mk.injEq] at h
  rcases h with ⟨rfl, rfl⟩ | ⟨rfl, rfl⟩ | ⟨rfl, rfl⟩ | ⟨rfl, rfl⟩ | ⟨rfl, rfl⟩ | ⟨rfl, rfl⟩
  · exact (offers_profile (by simp [profileTable])).mirrors_accepted rfl
      (integer_writtenBack rfl rfl rfl)
  · exact (offers_profile (by simp [profileTable])).mirrors_accepted rfl
      (integer_writtenBack rfl rfl rfl)
  · exact (offers_profile (by simp [profileTable])).mirrors_accepted rfl
      (integer_writtenBack rfl rfl rfl)
  · exact mirrors_of rfl (eojArray_writtenBack_iff rfl rfl rfl)
  · exact mirrors_of rfl (eojArray_writtenBack_iff rfl rfl rfl)
  · exact mirrors_of rfl (eojArray_writtenBack_iff rfl rfl rfl)

theorem mirrors_of_mem [Chrono.Lawful] [Chrono.LawfulDate] [Chrono.Clock] [Chrono.LawfulTime]
    {mirror : Mirror} (h : (epc, mirror) ∈ mirrorTable groupClass) :
    Mirrors groupClass epc mirror := by
  rcases List.mem_append.mp h with h | h
  · exact mirrors_shared h
  · split_ifs at h with hprofile
    · rw [hprofile]
      exact mirrors_profile h
    · cases h

/-- **What a property of the factory writes back**, with `f64` read as exact rationals, whatever it
held before.  The codes whose properties write back all that they accept are those that are not
lossy. -/
theorem propertyFactory_writesBack_iff [Chrono.Lawful] [Chrono.LawfulDate] [Chrono.Clock]
    [Chrono.LawfulTime] {w : EpcWrapper} (h : propertyFactory ExtRat groupClass epc = .ok w) :
    (∃ mirror, (epc, mirror) ∈ mirrorTable groupClass ∧ ∀ calls payload now now',
      w.property.WrittenBack (w.property.run calls) payload now now' ↔ mirror.Keeps payload) ∧
    ((∀ calls payload now now', (w.property.set (w.property.run calls) payload now).1 = .ok () →
      w.property.WrittenBack (w.property.run calls) payload now now') ↔ epc ∉ lossyCodes) := by
  obtain ⟨shape, hshape⟩ := exists_shape h
  obtain ⟨w', hw', -, haccepts⟩ := offers_of_mem hshape
  obtain rfl : w = w' := Outcome.ok.inj (h.symm.trans hw')
  obtain ⟨mirror, hmirror⟩ := exists_mirror hshape
  obtain ⟨w', hw', hback⟩ := mirrors_of_mem hmirror
  obtain rfl : w = w' := Outcome.ok.inj (h.symm.trans hw')
  refine ⟨⟨mirror, hmirror, hback⟩, ?_⟩
  rw [← accepts_le_keeps_iff hshape hmirror]
  constructor
  · intro hall payload haccepted
    let now : ClockReading := ⟨1, by decide⟩
    exact (hback [] payload now now).mp
      (hall [] payload now now ((haccepts.set_eq_ok_iff [] payload now).mpr haccepted))
  · intro hle calls payload now now' hok
    exact (hback calls payload now now').mpr
      (hle payload ((haccepts.set_eq_ok_iff calls payload now).mp hok))

end Factory

theorem propertyFactory_writesBack_currentTime :
    letI := Calendar.clock
    ∃ w, propertyFactory ExtRat classProfileNodeProfile epcCurrentTime = .ok w ∧
      ∀ calls payload now now', (w.property.set (w.property.run calls) payload now).1 = .ok () →
        w.property.WrittenBack (w.property.run calls) payload now now' := by
  let := Calendar.clock
  let := Calendar.clockSeconds
  have := Calendar.lawfulTime
  have := Calendar.lawfulClock
  have := Calendar.lawfulClockDate
  obtain ⟨w, hw⟩ : ∃ w, propertyFactory ExtRat classProfileNodeProfile epcCurrentTime = .ok w :=
    ⟨_, rfl⟩
  exact ⟨w, hw, (propertyFactory_writesBack_iff hw).2.mpr (by decide)⟩

end Echonet
