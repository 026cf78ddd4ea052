import EchonetBridge.Epc.Calendar
import EchonetBridge.Epc.Dates
import EchonetBridge.Epc.Factory
import EchonetBridge.Epc.RoundTrip

/-!
# Epc/Times — times of day on the wire

A time is written as its hour and its minute.  What is read back is the start of that minute, so a
time comes through unchanged exactly when it is one (`time_truncated`).  Every payload of a property
is the start of a minute, and is written back as it was (`time_writtenBack_iff`).
-/

namespace Echonet

open Outcome

/-! ## What a time denotes -/

/-- What is read of a time below its minute. -/
class Chrono.Clock [Chrono] where
  second : Chrono.NaiveTime → UInt32
  nanosecond : Chrono.NaiveTime → UInt32

/-- A time is built from its hour, minute and second, and no other time without a fraction has the
same three. -/
class Chrono.LawfulTime [Chrono] [Chrono.Clock] : Prop where
  fromHmsOpt_eq_some : ∀ {hour minute second time},
    Chrono.fromHmsOpt hour minute second = some time ↔
      Chrono.hour time = hour ∧ Chrono.minute time = minute ∧ Chrono.Clock.second time = second ∧
        Chrono.Clock.nanosecond time = 0
  fromHmsOpt_isSome : ∀ {hour minute second}, hour < 24 → minute < 60 → second < 60 →
    (Chrono.fromHmsOpt hour minute second).isSome = true
  hour_lt : ∀ time, Chrono.hour time < 24
  minute_lt : ∀ time, Chrono.minute time < 60

namespace Calendar

/-- The time of day exists; the fraction of a second may run into a leap second. -/
def IsTime (time : UInt32 × UInt32 × UInt32 × UInt32) : Prop :=
  time.1 < 24 ∧ time.2.1 < 60 ∧ time.2.2.1 < 60 ∧ time.2.2.2 < 2000000000

instance (time : UInt32 × UInt32 × UInt32 × UInt32) : Decidable (IsTime time) :=
  inferInstanceAs (Decidable (_ ∧ _))

/-- The Gregorian calendar with times of day down to the nanosecond. -/
@[reducible] def clock : Chrono where
  __ := gregorian
  NaiveTime := {time : UInt32 × UInt32 × UInt32 × UInt32 // IsTime time}
  fromHmsOpt hour minute second :=
    if h : IsTime (hour, minute, second, 0) then some ⟨(hour, minute, second, 0), h⟩ else none
  hour time := time.1.1
  minute time := time.1.2.1

@[reducible] def clockSeconds : @Chrono.Clock clock :=
  letI := clock
  ⟨fun time => time.1.2.2.1, fun time => time.1.2.2.2⟩

theorem lawfulTime : @Chrono.LawfulTime clock clockSeconds :=
  letI := clock
  letI := clockSeconds
  { fromHmsOpt_eq_some := fun {hour minute second time} => by
      obtain ⟨⟨h, m, s, n⟩, htime⟩ := time
      simp only [Chrono.fromHmsOpt]
      constructor
      · intro heq
        split_ifs at heq with hday
        cases heq
        exact ⟨rfl, rfl, rfl, rfl⟩
      · rintro ⟨rfl, rfl, rfl, hn⟩
        obtain rfl : n = 0 := hn
        exact dif_pos htime
    fromHmsOpt_isSome := fun {hour minute second} hh hm hs => by
      simp only [Chrono.fromHmsOpt]
      rw [dif_pos ⟨hh, hm, hs, (by decide : (0 : UInt32) < 2000000000)⟩]
      rfl
    hour_lt := fun time => time.2.1
    minute_lt := fun time => time.2.2.1 }

theorem isLeap_natCast (year : ℕ) : isLeap (year : ℤ) = isLeapYear year := by
  have hmod (n : ℕ) : ((year : ℤ) % n == 0) = (year % n == 0) := by
    rw [Bool.eq_iff_iff, beq_iff_eq, beq_iff_eq]
    exact_mod_cast Iff.rfl
  exact congrArg₂ or (congrArg₂ and (hmod 4) (congrArg not (hmod 100))) (hmod 400)

/-- The days of the calendar are those that are documented. -/
theorem isDay_iff (year : UInt16) (month day : UInt8) :
    IsDay (Int32.ofNat year.toNat, month.toUInt32, day.toUInt32) ↔
      IsDate year.toNat month.toNat day.toNat := by
  have hlt := year.toNat_lt
  have hyear : (Int32.ofNat year.toNat).toInt = year.toNat := Int32.toInt_ofNat_of_lt (by omega)
  rw [IsDay, IsDate, hyear, monthLength, daysInMonth, isLeap_natCast]
  simp only [UInt32.le_iff_toNat_le, UInt8.toNat_toUInt32, ← UInt32.toNat_inj]
  split_ifs <;> simp_all <;> omega

theorem isSome_ofNanoseconds (unit : TimeUnit) (amount : UInt32) :
    (Delta.ofNanoseconds ((Int64.ofNat amount.toNat).toInt * unit.nanoseconds)).isSome = true := by
  have hlt := amount.toNat_lt
  have hamount : (Int64.ofNat amount.toNat).toInt = amount.toNat :=
    Int64.toInt_ofNat_of_lt (by omega)
  have hunit : 0 ≤ unit.nanoseconds ∧ unit.nanoseconds ≤ 86400000000000 := by
    cases unit <;> decide
  have hle : (amount.toNat : ℤ) * unit.nanoseconds ≤ 4294967296 * 86400000000000 :=
    Int.mul_le_mul (by omega) hunit.2 hunit.1 (by decide)
  have hnonneg : 0 ≤ (amount.toNat : ℤ) * unit.nanoseconds :=
    Int.mul_nonneg (Int.natCast_nonneg _) hunit.1
  have hmax : maxNanoseconds = 9223372036854775807000000 := rfl
  rw [hamount, Delta.ofNanoseconds, dif_pos (by omega)]
  rfl

theorem lawfulClock : @Chrono.Lawful clock :=
  letI := clock
  { fromYmdOpt_isSome := fun year month day => by
      simp only [Chrono.fromYmdOpt]
      split_ifs with h
      · exact iff_of_true rfl ((isDay_iff year month day).mp h)
      · exact iff_of_false nofun fun hdate => h ((isDay_iff year month day).mpr hdate)
    fromHmsOpt_isSome := fun hour minute hh hm =>
      letI := clockSeconds
      lawfulTime.fromHmsOpt_isSome (UInt8.toUInt32_lt.mpr hh) (UInt8.toUInt32_lt.mpr hm) (by decide)
    seconds_isSome := isSome_ofNanoseconds .seconds
    minutes_isSome := isSome_ofNanoseconds .minutes
    hours_isSome := isSome_ofNanoseconds .hours
    days_isSome := isSome_ofNanoseconds .days }

theorem lawfulClockDate : @Chrono.LawfulDate clock :=
  letI := clock
  { fromYmdOpt_eq_some := fun {_ _ _ _} => lawfulDate.fromYmdOpt_eq_some
    month_le := lawfulDate.month_le
    day_le := lawfulDate.day_le }

end Calendar

/-! ## The converters -/

/-- A payload is the hour and the minute of a time. -/
def IsTimePayload (payload : List UInt8) : Prop :=
  payload.length = 2 ∧ payload.getD 0 0 < 24 ∧ payload.getD 1 0 < 60

theorem isTimePayload_pair {hour minute : UInt8} :
    IsTimePayload [hour, minute] ↔ hour < 24 ∧ minute < 60 := and_iff_right rfl

section Times

variable [Chrono]

/-- The payload of a time. -/
def timePayload (time : Chrono.NaiveTime) : List UInt8 :=
  [(Chrono.hour time).toUInt8, (Chrono.minute time).toUInt8]

theorem timeFromCanonical_eq (r : EpcRef Chrono.NaiveTime) (time : Chrono.NaiveTime) :
    timeFromCanonical r time = .ok (0x00 :: 0x00 :: timePayload time) := rfl

theorem timeToCanonical_frame (r : EpcRef Chrono.NaiveTime) (epc hour minute : UInt8) :
    timeToCanonical r (frame epc [hour, minute]) =
      match Chrono.fromHmsOpt hour.toUInt32 minute.toUInt32 0 with
      | some canonical => .ok canonical
      | none => .err (.invalidValue r.epc "error parsing time") := by
  rw [timeToCanonical, index_frame_first, ok_bind, index_frame_second, ok_bind]
  rfl

theorem timeValidator_eq (v : ValidatorType Chrono.NaiveTime) (r : EpcRef Chrono.NaiveTime)
    (epc hour minute : UInt8) :
    timeValidator v r (frame epc [hour, minute]) =
      if hour < 24 ∧ minute < 60 then v r (frame epc [hour, minute])
      else .err (.invalidValue r.epc "Time not in range") := by
  have hlen : (frame epc [hour, minute]).length = 4 := rfl
  rw [timeValidator, if_pos hlen, index_frame_first, ok_bind, index_frame_second, ok_bind, pure_eq]
  by_cases hhour : hour < 24
  · rw [decide_eq_true hhour, andAlso_true, ok_bind]
    simp only [decide_eq_true_eq, hhour, true_and]
  · rw [decide_eq_false hhour, andAlso_false, ok_bind, if_neg Bool.false_ne_true,
      if_neg fun h => hhour h.1]

/-- Only the payloads of times reach the property's own validator. -/
theorem timeValidator_of_not (v : ValidatorType Chrono.NaiveTime) (r : EpcRef Chrono.NaiveTime)
    (epc : UInt8) {payload : List UInt8} (h : ¬ IsTimePayload payload) :
    ∃ e, timeValidator v r (frame epc payload) = .err e := by
  by_cases hlen : payload.length = 2
  · obtain ⟨hour, minute, rfl⟩ := List.length_eq_two.mp hlen
    rw [timeValidator_eq, if_neg fun hrange => h (isTimePayload_pair.mpr hrange)]
    exact ⟨_, rfl⟩
  · rw [timeValidator, if_neg (by rw [length_frame]; omega)]
    exact ⟨_, rfl⟩

variable [Chrono.Clock] [Chrono.LawfulTime]

/-- The hour and the minute of a time survive being written as bytes. -/
theorem toUInt8_hour_minute (time : Chrono.NaiveTime) :
    ((Chrono.hour time).toUInt8.toUInt32 = Chrono.hour time ∧
      (Chrono.minute time).toUInt8.toUInt32 = Chrono.minute time) ∧
    (Chrono.hour time).toUInt8 < 24 ∧ (Chrono.minute time).toUInt8 < 60 := by
  have hhour := Chrono.LawfulTime.hour_lt time
  have hminute := Chrono.LawfulTime.minute_lt time
  have hh := toUInt32_toUInt8 (UInt32.le_of_lt hhour) (by decide)
  have hm := toUInt32_toUInt8 (UInt32.le_of_lt hminute) (by decide)
  refine ⟨⟨hh, hm⟩, ?_, ?_⟩
  · rw [← hh, UInt32.lt_iff_toNat_lt, UInt8.toNat_toUInt32] at hhour
    exact UInt8.lt_iff_toNat_lt.mpr hhour
  · rw [← hm, UInt32.lt_iff_toNat_lt, UInt8.toNat_toUInt32] at hminute
    exact UInt8.lt_iff_toNat_lt.mpr hminute

/-- The start of the minute of another time. -/
structure StartsMinute (time start : Chrono.NaiveTime) : Prop where
  hour : Chrono.hour start = Chrono.hour time
  minute : Chrono.minute start = Chrono.minute time
  second : Chrono.Clock.second start = 0
  nanosecond : Chrono.Clock.nanosecond start = 0

omit [Chrono.LawfulTime] in
/-- A time starts its own minute when nothing is left below the minute. -/
theorem startsMinute_self_iff {time : Chrono.NaiveTime} :
    StartsMinute time time ↔
      Chrono.Clock.second time = 0 ∧ Chrono.Clock.nanosecond time = 0 :=
  ⟨fun h => ⟨h.second, h.nanosecond⟩, fun h => ⟨rfl, rfl, h.1, h.2⟩⟩

theorem startsMinute_unique {time start start' : Chrono.NaiveTime} (h : StartsMinute time start)
    (h' : StartsMinute time start') : start = start' := by
  have hstart := Chrono.LawfulTime.fromHmsOpt_eq_some.mpr
    ⟨h.hour, h.minute, h.second, h.nanosecond⟩
  have hstart' := Chrono.LawfulTime.fromHmsOpt_eq_some.mpr
    ⟨h'.hour, h'.minute, h'.second, h'.nanosecond⟩
  exact Option.some.inj (hstart.symm.trans hstart')

/-- Every minute of the day starts. -/
theorem exists_start {hour minute : UInt32} (hhour : hour < 24) (hminute : minute < 60) :
    ∃ start, Chrono.fromHmsOpt hour minute 0 = some start :=
  Option.isSome_iff_exists.mp (Chrono.LawfulTime.fromHmsOpt_isSome hhour hminute (by decide))

/-- A time is read back as the start of its minute. -/
theorem timeToCanonical_payload (r : EpcRef Chrono.NaiveTime) (epc : UInt8)
    (time : Chrono.NaiveTime) :
    ∃ start, timeToCanonical r (frame epc (timePayload time)) = .ok start ∧
      StartsMinute time start := by
  obtain ⟨⟨hhour, hminute⟩, -⟩ := toUInt8_hour_minute time
  obtain ⟨start, hstart⟩ :=
    exists_start (Chrono.LawfulTime.hour_lt time) (Chrono.LawfulTime.minute_lt time)
  obtain ⟨hh, hm, hs, hn⟩ := Chrono.LawfulTime.fromHmsOpt_eq_some.mp hstart
  refine ⟨start, ?_, hh, hm, hs, hn⟩
  rw [timePayload, timeToCanonical_frame, hhour, hminute, hstart]

/-- A payload in range is read as a time that is written as it. -/
theorem timeToCanonical_inRange {hour minute : UInt8} (hhour : hour < 24) (hminute : minute < 60)
    (r : EpcRef Chrono.NaiveTime) (epc : UInt8) :
    ∃ time, timeToCanonical r (frame epc [hour, minute]) = .ok time ∧
      timePayload time = [hour, minute] := by
  obtain ⟨time, htime⟩ :=
    exists_start (UInt8.toUInt32_lt.mpr hhour) (UInt8.toUInt32_lt.mpr hminute)
  obtain ⟨hh, hm, -⟩ := Chrono.LawfulTime.fromHmsOpt_eq_some.mp htime
  refine ⟨time, ?_, ?_⟩
  · rw [timeToCanonical_frame, htime]
  · rw [timePayload, hh, hm, UInt8.toUInt8_toUInt32, UInt8.toUInt8_toUInt32]

/-! ## The property -/

variable {p : StaticNodeProperty Chrono.NaiveTime} {v : ValidatorType Chrono.NaiveTime}

/-- A time is stored as its hour and minute when the property's own validator says yes to them. -/
theorem time_roundTrip (henc : p.fromCanonicalFn = timeFromCanonical)
    (hd : p.toCanonicalFn = timeToCanonical) (hv : p.validatorFn = timeValidator v) (cells : Cells)
    (time : Chrono.NaiveTime) (now : ClockReading) :
    p.RoundTrip cells time now (timePayload time) (StartsMinute time) ↔
      v (p.ref cells) (frame p.epc (timePayload time)) = .ok true := by
  have hvalid : timeValidator v (p.ref cells) (frame p.epc (timePayload time))
      = v (p.ref cells) (frame p.epc (timePayload time)) :=
    (timeValidator_eq v _ _ _ _).trans (if_pos (toUInt8_hour_minute time).2)
  have hencoded : p.fromCanonicalFn (p.ref cells) time
      = .ok (0x00 :: 0x00 :: timePayload time) := by rw [henc, timeFromCanonical_eq]
  rw [p.roundTrip_iff_yes hencoded (by rw [hd]; exact timeToCanonical_payload _ _ time), hv, hvalid]

theorem time_unchanged_iff {cells : Cells} {time : Chrono.NaiveTime} {now : ClockReading}
    (h : p.RoundTrip cells time now (timePayload time) (StartsMinute time)) :
    p.toCanonical (p.fromCanonical cells time now).2 = .ok time ↔
      Chrono.Clock.second time = 0 ∧ Chrono.Clock.nanosecond time = 0 := by
  obtain ⟨start, hread, hstart⟩ := h.read
  rw [hread, Outcome.ok.injEq, ← startsMinute_self_iff]
  exact ⟨fun heq => heq ▸ hstart, fun hself => startsMinute_unique hstart hself⟩

theorem time_writtenBack_iff (henc : p.fromCanonicalFn = timeFromCanonical)
    (hd : p.toCanonicalFn = timeToCanonical) (hv : p.validatorFn = timeValidator v) {cells : Cells}
    {payload : List UInt8} {now now' : ClockReading} :
    p.WrittenBack cells payload now now' ↔ IsTimePayload payload ∧
      IsOk (v (p.ref cells) (frame p.epc payload)) ∧
      v (p.ref ⟨frame p.epc payload, now.1⟩) (frame p.epc payload) = .ok true := by
  rw [p.writtenBack_iff, hv, henc, hd]
  by_cases hpayload : IsTimePayload payload
  · obtain ⟨hour, minute, rfl⟩ := List.length_eq_two.mp hpayload.1
    have hrange := isTimePayload_pair.mp hpayload
    obtain ⟨time, hread, htime⟩ := timeToCanonical_inRange hrange.1 hrange.2 p.decoderRef p.epc
    rw [timeValidator_eq, timeValidator_eq, if_pos hrange, if_pos hrange, and_iff_right hpayload]
    refine and_congr_right fun _ => and_iff_left ⟨time, hread, 0x00, 0x00, ?_⟩
    rw [timeFromCanonical_eq, htime]
  · obtain ⟨e, he⟩ := timeValidator_of_not v (p.ref cells) p.epc hpayload
    rw [he]
    exact iff_of_false (fun h => not_isOk_err e h.1) fun h => hpayload h.1

end Times

/-- **Times are truncated to the minute.**  A time that its property's own validator says yes to is
stored as its hour and its minute, and read back as the start of that minute: it is unchanged
exactly when it has no seconds and no fraction of a second. -/
theorem time_truncated [Chrono] [Chrono.Clock] [Chrono.LawfulTime] (name : String) (epc : UInt8)
    (source : UInt16) (announce : Bool) (getOperation setOperation : EpcAccessRule)
    (validator : ValidatorType Chrono.NaiveTime) :
    ∃ p, timeProperty name epc source announce getOperation setOperation validator
        = .ok ⟨Chrono.NaiveTime, p⟩ ∧
      (∀ cells time now, p.RoundTrip cells time now (timePayload time) (StartsMinute time) ↔
        validator (p.ref cells) (frame epc (timePayload time)) = .ok true) ∧
      (∀ cells time now, p.RoundTrip cells time now (timePayload time) (StartsMinute time) →
        (p.toCanonical (p.fromCanonical cells time now).2 = .ok time ↔
          Chrono.Clock.second time = 0 ∧ Chrono.Clock.nanosecond time = 0)) ∧
      ∀ cells payload now now', p.WrittenBack cells payload now now' ↔ IsTimePayload payload ∧
        IsOk (validator (p.ref cells) (frame epc payload)) ∧
        validator (p.ref ⟨frame epc payload, now.1⟩) (frame epc payload) = .ok true :=
  ⟨_, rfl, time_roundTrip rfl rfl rfl, fun _ _ _ => time_unchanged_iff,
    fun _ _ _ _ => time_writtenBack_iff rfl rfl rfl⟩

/-- Some time of the day, with seconds. -/
def someTime : {time : UInt32 × UInt32 × UInt32 × UInt32 // Calendar.IsTime time} :=
  ⟨(12, 34, 56, 0), by decide⟩

theorem time_truncated_someTime :
    letI := Calendar.clock
    ∃ p, propertyFactory Float classProfileNodeProfile epcCurrentTime
        = .ok ⟨Chrono.NaiveTime, p⟩ ∧
      (p.fromCanonical .fresh someTime ⟨1, by decide⟩).1 = .ok () ∧
      p.toCanonical (p.fromCanonical .fresh someTime ⟨1, by decide⟩).2 ≠ .ok someTime := by
  let := Calendar.clock
  let := Calendar.clockSeconds
  have := Calendar.lawfulTime
  obtain ⟨p, hp, htrip, hunchanged, -⟩ := time_truncated "Current Time" epcCurrentTime
    (epcDocsourceDeviceSuperclass ||| epcDocsourceProfileNone) false .supported .supported
    fun _ _ => .ok true
  have htime := (htrip .fresh someTime ⟨1, by decide⟩).mpr rfl
  exact ⟨p, hp, htime.accepted, fun hread => absurd ((hunchanged _ _ _ htime).mp hread).1
    (by decide)⟩

end Echonet
