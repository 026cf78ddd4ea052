import Mathlib.Data.Nat.Notation
import Mathlib.Data.Int.Notation
import Mathlib.Order.Basic
import Mathlib.Tactic.SplitIfs

/-!
# Epc/External — dates, durations and floating-point numbers

The properties hold values of types that this development takes as parameters: `Chrono` is the
calendar library, `F64` is the arithmetic of the packed decimals.  `Chrono.Lawful` is what is
documented of the calendar's constructors, and `Calendar.chrono` is an instance of it.
-/

namespace Echonet

/-! ## The calendar library -/

/-- The calendar types, their constructors and their readers.  The duration constructors return
nothing where the library panics. -/
class Chrono where
  NaiveDate : Type
  fromYmdOpt : Int32 → UInt32 → UInt32 → Option NaiveDate
  year : NaiveDate → Int32
  month : NaiveDate → UInt32
  day : NaiveDate → UInt32
  NaiveTime : Type
  fromHmsOpt : UInt32 → UInt32 → UInt32 → Option NaiveTime
  hour : NaiveTime → UInt32
  minute : NaiveTime → UInt32
  TimeDelta : Type
  seconds : Int64 → Option TimeDelta
  minutes : Int64 → Option TimeDelta
  hours : Int64 → Option TimeDelta
  days : Int64 → Option TimeDelta
  numSeconds : TimeDelta → Int64
  numMinutes : TimeDelta → Int64
  numHours : TimeDelta → Int64
  numDays : TimeDelta → Int64

namespace Calendar

def isLeapYear (year : ℕ) : Bool := (year % 4 == 0 && year % 100 != 0) || year % 400 == 0

/-- The number of days in a month of the proleptic Gregorian calendar; none if there is no such
month. -/
def daysInMonth (year month : ℕ) : ℕ :=
  if month = 2 then if isLeapYear year then 29 else 28
  else if month = 4 ∨ month = 6 ∨ month = 9 ∨ month = 11 then 30
  else if 1 ≤ month ∧ month ≤ 12 then 31
  else 0

/-- The day exists. -/
def IsDate (year month day : ℕ) : Prop := 1 ≤ day ∧ day ≤ daysInMonth year month

instance (year month day : ℕ) : Decidable (IsDate year month day) :=
  inferInstanceAs (Decidable (_ ∧ _))

end Calendar

/-- What is documented of the constructors, for the arguments that fit the wire format. -/
class Chrono.Lawful [Chrono] : Prop where
  fromYmdOpt_isSome : ∀ (year : UInt16) (month day : UInt8),
    (Chrono.fromYmdOpt (Int32.ofNat year.toNat) month.toUInt32 day.toUInt32).isSome = true ↔
      Calendar.IsDate year.toNat month.toNat day.toNat
  fromHmsOpt_isSome : ∀ hour minute : UInt8, hour < 24 → minute < 60 →
    (Chrono.fromHmsOpt hour.toUInt32 minute.toUInt32 0).isSome = true
  seconds_isSome : ∀ amount : UInt32, (Chrono.seconds (Int64.ofNat amount.toNat)).isSome = true
  minutes_isSome : ∀ amount : UInt32, (Chrono.minutes (Int64.ofNat amount.toNat)).isSome = true
  hours_isSome : ∀ amount : UInt32, (Chrono.hours (Int64.ofNat amount.toNat)).isSome = true
  days_isSome : ∀ amount : UInt32, (Chrono.days (Int64.ofNat amount.toNat)).isSome = true

namespace Calendar

/-- Dates as triples, times as pairs and durations as seconds. -/
@[reducible] def chrono : Chrono where
  NaiveDate := Int32 × UInt32 × UInt32
  fromYmdOpt year month day :=
    if IsDate year.toNatClampNeg month.toNat day.toNat then some (year, month, day) else none
  year date := date.1
  month date := date.2.1
  day date := date.2.2
  NaiveTime := UInt32 × UInt32
  fromHmsOpt hour minute second :=
    if hour < 24 ∧ minute < 60 ∧ second < 60 then some (hour, minute) else none
  hour time := time.1
  minute time := time.2
  TimeDelta := ℤ
  seconds amount := some amount.toInt
  minutes amount := some (60 * amount.toInt)
  hours amount := some (3600 * amount.toInt)
  days amount := some (86400 * amount.toInt)
  numSeconds delta := Int64.ofInt delta
  numMinutes delta := Int64.ofInt (delta.tdiv 60)
  numHours delta := Int64.ofInt (delta.tdiv 3600)
  numDays delta := Int64.ofInt (delta.tdiv 86400)

theorem lawful : @Chrono.Lawful chrono :=
  letI := chrono
  { fromYmdOpt_isSome := fun year month day => by
      have hyear : (Int32.ofNat year.toNat).toNatClampNeg = year.toNat :=
        Int32.toNatClampNeg_ofNat_of_lt (Nat.lt_of_lt_of_le year.toNat_lt (by decide))
      simp only [Chrono.fromYmdOpt, hyear, UInt8.toNat_toUInt32]
      split_ifs with h <;> simp [h]
    fromHmsOpt_isSome := fun hour minute hh hm => by
      have hhour : hour.toUInt32 < 24 := by
        rw [UInt32.lt_iff_toNat_lt, UInt8.toNat_toUInt32]
        exact UInt8.lt_iff_toNat_lt.mp hh
      have hminute : minute.toUInt32 < 60 := by
        rw [UInt32.lt_iff_toNat_lt, UInt8.toNat_toUInt32]
        exact UInt8.lt_iff_toNat_lt.mp hm
      simp only [Chrono.fromHmsOpt]
      rw [if_pos ⟨hhour, hminute, by decide⟩]
      rfl
    seconds_isSome := fun _ => rfl
    minutes_isSome := fun _ => rfl
    hours_isSome := fun _ => rfl
    days_isSome := fun _ => rfl }

end Calendar

/-! ## Floating-point numbers -/

/-- The operations the packed decimals use, on a type of floating-point numbers. -/
class F64 (F : Type) where
  /-- The literal `mantissa * 10 ^ (-places)`. -/
  ofDecimal : ℕ → ℕ → F
  ofU32 : UInt32 → F
  infinity : F
  neg : F → F
  mul : F → F → F
  div : F → F → F
  powi : F → Int32 → F
  ceil : F → F
  round : F → F
  eq : F → F → Bool
  le : F → F → Bool
  lt : F → F → Bool
  isNan : F → Bool
  isSignNegative : F → Bool
  toU8 : F → UInt8
  toU16 : F → UInt16
  toU32 : F → UInt32

instance : F64 Float where
  ofDecimal mantissa places := Float.ofScientific mantissa true places
  ofU32 value := value.toFloat
  infinity := 1.0 / 0.0
  neg := Float.neg
  mul := Float.mul
  div := Float.div
  powi x n := x.pow (Float.ofInt n.toInt)
  ceil := Float.ceil
  round := Float.round
  eq x y := x == y
  le x y := x ≤ y
  lt x y := x < y
  isNan := Float.isNaN
  isSignNegative x := x.toBits >>> 63 == 1
  toU8 := Float.toUInt8
  toU16 := Float.toUInt16
  toU32 := Float.toUInt32

end Echonet
