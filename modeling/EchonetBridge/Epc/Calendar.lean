import EchonetBridge.Epc.External
import Mathlib.Order.Lattice

/-!
# Epc/Calendar — what dates and durations denote

A date is its year, its month and its day (`Chrono.LawfulDate`).  A duration has an exact length,
and the counts that are read of it are the whole units in that length (`Chrono.LawfulSpan`).
`Calendar.gregorian` has both laws: its dates are the days of the proleptic Gregorian calendar, and
its durations are numbers of nanoseconds.
-/

namespace Echonet

/-! ## Dates -/

/-- A date is built from its year, month and day, and no other date has the same three. -/
class Chrono.LawfulDate [Chrono] : Prop where
  fromYmdOpt_eq_some : ∀ {year month day date},
    Chrono.fromYmdOpt year month day = some date ↔
      Chrono.year date = year ∧ Chrono.month date = month ∧ Chrono.day date = day
  month_le : ∀ date, Chrono.month date ≤ 12
  day_le : ∀ date, Chrono.day date ≤ 31

/-! ## Durations -/

/-- The units a duration is counted in. -/
inductive TimeUnit where
  | seconds
  | minutes
  | hours
  | days
  deriving DecidableEq

/-- The length of a unit, in nanoseconds. -/
def TimeUnit.nanoseconds : TimeUnit → ℤ
  | seconds => 1000000000
  | minutes => 60000000000
  | hours => 3600000000000
  | days => 86400000000000

/-- The count of a unit that is read of a duration. -/
def Chrono.count [Chrono] (unit : TimeUnit) (delta : Chrono.TimeDelta) : Int64 :=
  match unit with
  | .seconds => Chrono.numSeconds delta
  | .minutes => Chrono.numMinutes delta
  | .hours => Chrono.numHours delta
  | .days => Chrono.numDays delta

/-- The exact length of a duration, in nanoseconds. -/
class Chrono.Span [Chrono] where
  nanoseconds : Chrono.TimeDelta → ℤ

/-- The whole units in a duration; a negative one is rounded towards zero. -/
def Chrono.wholeUnits [Chrono] [Chrono.Span] (unit : TimeUnit) (delta : Chrono.TimeDelta) : ℤ :=
  (Chrono.Span.nanoseconds delta).tdiv unit.nanoseconds

/-- The counts are those of the whole units. -/
class Chrono.LawfulSpan [Chrono] [Chrono.Span] : Prop where
  toInt_count : ∀ unit delta, (Chrono.count unit delta).toInt = Chrono.wholeUnits unit delta

/-- A duration that has a whole unit is not negative. -/
theorem Chrono.nonneg_of_wholeUnits_pos [Chrono] [Chrono.Span] {delta : Chrono.TimeDelta}
    {unit : TimeUnit} (h : 0 < Chrono.wholeUnits unit delta) :
    0 ≤ Chrono.Span.nanoseconds delta := by
  by_contra hneg
  have hunit : 0 ≤ unit.nanoseconds := by cases unit <;> decide
  have hcount :=
    Int.tdiv_nonneg (Int.neg_nonneg_of_nonpos (Int.le_of_lt (Int.not_le.mp hneg))) hunit
  rw [Int.neg_tdiv] at hcount
  rw [wholeUnits] at h
  omega

/-- A coarser unit is counted no more often. -/
theorem Chrono.wholeUnits_days_le [Chrono] [Chrono.Span] {delta : Chrono.TimeDelta}
    (h : 0 ≤ Chrono.Span.nanoseconds delta) (unit : TimeUnit) :
    Chrono.wholeUnits .days delta ≤ Chrono.wholeUnits unit delta := by
  rw [wholeUnits, wholeUnits, Int.tdiv_eq_ediv_of_nonneg h, Int.tdiv_eq_ediv_of_nonneg h]
  cases unit <;> simp only [TimeUnit.nanoseconds] <;> omega

/-! ## The Gregorian calendar -/

namespace Calendar

/-- Leap years of the proleptic calendar, before the year one too. -/
def isLeap (year : ℤ) : Bool := (year % 4 == 0 && year % 100 != 0) || year % 400 == 0

def monthLength (year : ℤ) (month : UInt32) : UInt32 :=
  if month = 2 then if isLeap year then 29 else 28
  else if month = 4 ∨ month = 6 ∨ month = 9 ∨ month = 11 then 30
  else 31

/-- The day exists, and is in the range of the library. -/
def IsDay (date : Int32 × UInt32 × UInt32) : Prop :=
  -262143 ≤ date.1.toInt ∧ date.1.toInt ≤ 262142 ∧ 1 ≤ date.2.1 ∧ date.2.1 ≤ 12 ∧
    1 ≤ date.2.2 ∧ date.2.2 ≤ monthLength date.1.toInt date.2.1

instance (date : Int32 × UInt32 × UInt32) : Decidable (IsDay date) :=
  inferInstanceAs (Decidable (_ ∧ _))

/-- The longest duration in either direction: the milliseconds that fit a signed integer of 64
bits. -/
def maxNanoseconds : ℤ := 9223372036854775807 * 1000000

/-- A duration is a number of nanoseconds in range. -/
def Delta : Type := {nanos : ℤ // -maxNanoseconds ≤ nanos ∧ nanos ≤ maxNanoseconds}

def Delta.ofNanoseconds (nanos : ℤ) : Option Delta :=
  if h : -maxNanoseconds ≤ nanos ∧ nanos ≤ maxNanoseconds then some ⟨nanos, h⟩ else none

def Delta.count (unit : TimeUnit) (delta : Delta) : Int64 :=
  Int64.ofInt (delta.1.tdiv unit.nanoseconds)

@[reducible] def gregorian : Chrono where
  NaiveDate := {date : Int32 × UInt32 × UInt32 // IsDay date}
  fromYmdOpt year month day :=
    if h : IsDay (year, month, day) then some ⟨(year, month, day), h⟩ else none
  year date := date.1.1
  month date := date.1.2.1
  day date := date.1.2.2
  NaiveTime := UInt32 × UInt32
  fromHmsOpt hour minute second :=
    if hour < 24 ∧ minute < 60 ∧ second < 60 then some (hour, minute) else none
  hour time := time.1
  minute time := time.2
  TimeDelta := Delta
  seconds amount := Delta.ofNanoseconds (amount.toInt * TimeUnit.seconds.nanoseconds)
  minutes amount := Delta.ofNanoseconds (amount.toInt * TimeUnit.minutes.nanoseconds)
  hours amount := Delta.ofNanoseconds (amount.toInt * TimeUnit.hours.nanoseconds)
  days amount := Delta.ofNanoseconds (amount.toInt * TimeUnit.days.nanoseconds)
  numSeconds := Delta.count .seconds
  numMinutes := Delta.count .minutes
  numHours := Delta.count .hours
  numDays := Delta.count .days

@[reducible] def gregorianSpan : @Chrono.Span gregorian :=
  letI := gregorian
  ⟨fun delta : Delta => delta.1⟩

theorem monthLength_le (year : ℤ) (month : UInt32) : monthLength year month ≤ 31 := by
  unfold monthLength
  split_ifs <;> decide

theorem lawfulDate : @Chrono.LawfulDate gregorian :=
  letI := gregorian
  { fromYmdOpt_eq_some := fun {year month day date} => by
      obtain ⟨⟨y, m, d⟩, hdate⟩ := date
      simp only [Chrono.fromYmdOpt]
      constructor
      · intro h
        split_ifs at h with hday
        cases h
        exact ⟨rfl, rfl, rfl⟩
      · rintro ⟨rfl, rfl, rfl⟩
        exact dif_pos hdate
    month_le := fun date => date.2.2.2.2.1
    day_le := fun date => UInt32.le_trans date.2.2.2.2.2.2 (monthLength_le _ _) }

/-- The counts of a duration in range fit the integers they are read as. -/
theorem toInt_deltaCount (unit : TimeUnit) (delta : Delta) :
    (Delta.count unit delta).toInt = delta.1.tdiv unit.nanoseconds := by
  have hunit : 1000000000 ≤ unit.nanoseconds.natAbs := by cases unit <;> decide
  have hrange : -(9223372036854775807 * 1000000) ≤ delta.1 ∧
      delta.1 ≤ 9223372036854775807 * 1000000 := delta.2
  have hcount : (delta.1.tdiv unit.nanoseconds).natAbs ≤ 9223372036854775807 :=
    calc (delta.1.tdiv unit.nanoseconds).natAbs
        = delta.1.natAbs / unit.nanoseconds.natAbs := Int.natAbs_tdiv _ _
      _ ≤ delta.1.natAbs / 1000000000 := Nat.div_le_div_left hunit (by decide)
      _ ≤ 9223372036854775807 := by omega
  exact Int64.toInt_ofInt_of_le (by omega) (by omega)

theorem lawfulSpan : @Chrono.LawfulSpan gregorian gregorianSpan :=
  letI := gregorian
  letI := gregorianSpan
  { toInt_count := fun unit delta => by
      cases unit with
      | seconds => exact toInt_deltaCount .seconds delta
      | minutes => exact toInt_deltaCount .minutes delta
      | hours => exact toInt_deltaCount .hours delta
      | days => exact toInt_deltaCount .days delta }

end Calendar

end Echonet
