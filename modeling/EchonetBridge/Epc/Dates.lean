import EchonetBridge.Epc.Calendar
import EchonetBridge.Epc.Contract
import EchonetBridge.Epc.Factory
import EchonetBridge.Epc.RoundTrip

/-!
# Epc/Dates — dates on the wire

A year is truncated to sixteen bits when it is written, and the sixteen bits are read as an unsigned
number.  So a date comes back exactly when its year is such a number (`date_kept_iff`).
-/

namespace Echonet

open BigEndian Outcome

/-! ## Years -/

/-- The year fits in two bytes. -/
def FitsYear (year : Int32) : Prop := 0 ≤ year ∧ year ≤ 65535

instance (year : Int32) : Decidable (FitsYear year) := inferInstanceAs (Decidable (_ ∧ _))

/-- The two bytes a year is written as. -/
def yearWord (year : Int32) : UInt16 := year.toInt16.toUInt16

theorem natCast_yearWord (year : Int32) : ((yearWord year).toNat : ℤ) = year.toInt % 65536 := by
  have hword : (yearWord year).toNat = year.toBitVec.toNat % 65536 := by
    change (year.toBitVec.signExtend 16).toNat = _
    rw [BitVec.signExtend_eq_setWidth_of_le _ (by decide), BitVec.toNat_setWidth]
  have hint : year.toInt = year.toBitVec.toInt := rfl
  rw [hword, hint, BitVec.toInt_eq_toNat_cond]
  split_ifs
  · omega
  · omega

/-- Only the years that fit are read back. -/
theorem ofNat_yearWord_iff (year : Int32) :
    Int32.ofNat (yearWord year).toNat = year ↔ FitsYear year := by
  have hword := natCast_yearWord year
  rw [FitsYear, ← Int32.toInt_inj, Int32.le_iff_toInt_le, Int32.le_iff_toInt_le,
    Int32.toInt_ofNat_of_lt (by omega), hword]
  change _ ↔ (0 : ℤ) ≤ year.toInt ∧ year.toInt ≤ (65535 : ℤ)
  omega

/-- A small number survives being written as a byte. -/
theorem toUInt32_toUInt8 {n bound : UInt32} (h : n ≤ bound) (hbound : bound < 256) :
    n.toUInt8.toUInt32 = n := by
  rw [UInt32.le_iff_toNat_le] at h
  rw [UInt32.lt_iff_toNat_lt] at hbound
  rw [← UInt32.toNat_inj, UInt8.toNat_toUInt32, UInt32.toNat_toUInt8]
  exact Nat.mod_eq_of_lt (Nat.lt_of_le_of_lt h hbound)

/-! ## The property -/

/-- A date is refused or read back as it was, and it is stored if its year fits. -/
structure KeepsDate [Chrono] (p : StaticNodeProperty Chrono.NaiveDate) (cells : Cells)
    (date : Chrono.NaiveDate) (now : ClockReading) : Prop where
  unchanged : (∃ e, (p.fromCanonical cells date now).1 = .err e) ∨
    (p.fromCanonical cells date now).1 = .ok () ∧
      p.toCanonical (p.fromCanonical cells date now).2 = .ok date
  accepted : FitsYear (Chrono.year date) → (p.fromCanonical cells date now).1 = .ok ()

section Dates

variable [Chrono]

/-- The payload of a date. -/
def datePayload (date : Chrono.NaiveDate) : List UInt8 :=
  (toBeBytes₁₆ (yearWord (Chrono.year date))).toList
    ++ [(Chrono.month date).toUInt8, (Chrono.day date).toUInt8]

theorem dateFromCanonical_eq (r : EpcRef Chrono.NaiveDate) (date : Chrono.NaiveDate) :
    dateFromCanonical r date = .ok (0x00 :: 0x00 :: datePayload date) := rfl

variable {p : StaticNodeProperty Chrono.NaiveDate} {v : ValidatorType Chrono.NaiveDate}

/-- A date is decoded to itself exactly when its year fits. -/
theorem dateToCanonical_iff [Chrono.LawfulDate] (r : EpcRef Chrono.NaiveDate) (epc : UInt8)
    (date : Chrono.NaiveDate) :
    dateToCanonical r (frame epc (datePayload date)) = .ok date ↔ FitsYear (Chrono.year date) := by
  have hmonth : (Chrono.month date).toUInt8.toUInt32 = Chrono.month date :=
    toUInt32_toUInt8 (Chrono.LawfulDate.month_le date) (by decide)
  have hday : (Chrono.day date).toUInt8.toUInt32 = Chrono.day date :=
    toUInt32_toUInt8 (Chrono.LawfulDate.day_le date) (by decide)
  have hword := fromBeBytes_toBeBytes₁₆ (yearWord (Chrono.year date))
  rw [datePayload, toList_two, List.cons_append, List.cons_append, List.nil_append,
    dateToCanonical_eq_ok, hmonth, hday, ← ofNat_yearWord_iff]
  change Chrono.fromYmdOpt (Int32.ofNat (fromBeBytes₁₆ (toBeBytes₁₆ _)).toNat) _ _ = _ ↔ _
  rw [hword, Chrono.LawfulDate.fromYmdOpt_eq_some]
  exact ⟨fun h => h.1.symm, fun h => ⟨h.symm, rfl, rfl⟩⟩

/-- A date that is refused is one that should be, if its year does not fit. -/
theorem keepsDate_of_err {cells : Cells} {date : Chrono.NaiveDate} {now : ClockReading}
    {e : EpcError} (h : (p.fromCanonical cells date now).1 = .err e) :
    KeepsDate p cells date now ↔ ¬ FitsYear (Chrono.year date) := by
  constructor
  · intro hkept hfits
    rw [hkept.accepted hfits] at h
    cases h
  · exact fun hno => ⟨Or.inl ⟨e, h⟩, fun hfits => absurd hfits hno⟩

theorem date_kept [Chrono.LawfulDate] (henc : p.fromCanonicalFn = dateFromCanonical)
    (hd : p.toCanonicalFn = dateToCanonical) (hv : p.validatorFn = dateValidator v)
    (cells : Cells) (date : Chrono.NaiveDate) (now : ClockReading) :
    KeepsDate p cells date now ↔
      v (p.ref cells) (frame p.epc (datePayload date)) ≠ .panic ∧
        (v (p.ref cells) (frame p.epc (datePayload date)) = .ok true ↔
          FitsYear (Chrono.year date)) := by
  have hinternal : p.fromCanonicalFn (p.ref cells) date
      = .ok (0x00 :: 0x00 :: datePayload date) := by rw [henc, dateFromCanonical_eq]
  have hvalid : p.validatorFn (p.ref cells) (frame p.epc (datePayload date))
      = v (p.ref cells) (frame p.epc (datePayload date)) := by
    rw [hv]
    exact if_pos rfl
  have hlen : 2 ≤ (0x00 :: 0x00 :: datePayload date).length := Nat.le_add_left 2 _
  cases hanswer : v (p.ref cells) (frame p.epc (datePayload date)) with
  | ok answer =>
    rw [hanswer] at hvalid
    cases answer with
    | true =>
      have hstored := p.fromCanonical_of_yes hinternal hlen hvalid now
      have hkept := p.unchanged_iff hstored
      rw [hd] at hkept
      have hread := hkept.trans (dateToCanonical_iff p.decoderRef p.epc date)
      constructor
      · exact fun h => ⟨by simp, iff_of_true rfl (hread.mp h.unchanged)⟩
      · rintro ⟨-, hfits⟩
        exact ⟨hread.mpr (hfits.mp rfl), fun _ => by rw [hstored]⟩
    | false =>
      have hrefused := p.fromCanonical_of_no hinternal hlen hvalid now
      rw [keepsDate_of_err (congrArg Prod.fst hrefused)]
      simp
  | err e =>
    rw [hanswer] at hvalid
    have hrefused := p.fromCanonical_of_err hinternal hlen hvalid now
    rw [keepsDate_of_err (congrArg Prod.fst hrefused)]
    simp
  | panic =>
    rw [hanswer] at hvalid
    have hpanic := p.fromCanonical_of_encoded hinternal hlen now
    rw [show (0x00 :: 0x00 :: datePayload date).drop 2 = datePayload date from rfl,
      hvalid] at hpanic
    refine iff_of_false ?_ fun h => h.1 rfl
    rintro ⟨⟨e, he⟩ | ⟨hok, -⟩, -⟩
    · rw [hpanic] at he
      cases he
    · rw [hpanic] at hok
      cases hok

end Dates

/-- **A date property keeps its dates** exactly when its own validator answers without a panic, and
says yes to a date just when the year fits in two bytes. -/
theorem date_kept_iff [Chrono] [Chrono.LawfulDate] (name : String) (epc : UInt8) (source : UInt16)
    (announce : Bool) (getOperation setOperation : EpcAccessRule)
    (validator : ValidatorType Chrono.NaiveDate) :
    ∃ p, dateProperty name epc source announce getOperation setOperation validator
        = .ok ⟨Chrono.NaiveDate, p⟩ ∧
      ∀ cells date now, KeepsDate p cells date now ↔
        validator (p.ref cells) (frame epc (datePayload date)) ≠ .panic ∧
          (validator (p.ref cells) (frame epc (datePayload date)) = .ok true ↔
            FitsYear (Chrono.year date)) :=
  ⟨_, rfl, date_kept rfl rfl rfl⟩

/-- The second of March of the year 2024. -/
def someDay : {date : Int32 × UInt32 × UInt32 // Calendar.IsDay date} :=
  ⟨(2024, 3, 2), by decide⟩

theorem date_kept_iff_someDay :
    letI := Calendar.gregorian
    ∃ p, propertyFactory Float classProfileNodeProfile epcCurrentDate
        = .ok ⟨Chrono.NaiveDate, p⟩ ∧ KeepsDate p .fresh someDay ⟨1, by decide⟩ := by
  let := Calendar.gregorian
  have := Calendar.lawfulDate
  obtain ⟨p, hp, hkept⟩ := date_kept_iff "Current Date" epcCurrentDate
    (epcDocsourceDeviceSuperclass ||| epcDocsourceProfileNone) false .supported .supported
    fun _ _ => .ok true
  exact ⟨p, hp, (hkept _ _ _).mpr ⟨by simp, iff_of_true rfl (by decide)⟩⟩

/-- The last day of the year before the year zero. -/
def lastDayBeforeZero : {date : Int32 × UInt32 × UInt32 // Calendar.IsDay date} :=
  ⟨(-1, 12, 31), by decide⟩

/-- It is stored, and read back as a day of the year 65535. -/
theorem negative_year_changed :
    letI := Calendar.gregorian
    ∃ p, propertyFactory Float classProfileNodeProfile epcCurrentDate
        = .ok ⟨Chrono.NaiveDate, p⟩ ∧
      (p.fromCanonical .fresh lastDayBeforeZero ⟨1, by decide⟩).1 = .ok () ∧
      p.toCanonical (p.fromCanonical .fresh lastDayBeforeZero ⟨1, by decide⟩).2
        = .ok (⟨(65535, 12, 31), by decide⟩ : {date // Calendar.IsDay date}) :=
  ⟨_, rfl, rfl, rfl⟩

end Echonet
