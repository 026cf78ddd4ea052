import EchonetBridge.Epc.Calendar
import EchonetBridge.Epc.Factory
import EchonetBridge.Epc.RoundTrip

/-!
# Epc/Durations — durations on the wire

A duration should be written as a count of the finest unit that fits four bytes.  The count is
copied from eight bytes to a slice that ends behind the buffer, so every duration that fits panics;
what does not fit in days is refused before it comes to that (`duration_encoded_iff`).
-/

namespace Echonet

open BigEndian Outcome

/-! ## The encoder -/

/-- No duration is ever written. -/
theorem durationInternal_eq_panic (unit : UInt8) (amount : Int64) :
    durationInternal unit amount = .panic := by
  rw [durationInternal, setAt_of_lt (by decide), ok_bind, writeSlice, if_neg]
  rintro ⟨-, hlen, -⟩
  rw [List.length_set, List.length_replicate] at hlen
  omega

section Encoder

variable [Chrono] [Chrono.Span] [Chrono.LawfulSpan] {delta : Chrono.TimeDelta}

theorem count_le_iff (unit : TimeUnit) :
    Chrono.count unit delta ≤ 0xffffffff ↔ Chrono.wholeUnits unit delta ≤ 0xffffffff := by
  rw [Int64.le_iff_toInt_le, Chrono.LawfulSpan.toInt_count]
  rfl

/-- A duration is refused when it does not fit in days, and panics otherwise. -/
theorem durationFromCanonical_eq (r : EpcRef Chrono.TimeDelta) (delta : Chrono.TimeDelta) :
    durationFromCanonical r delta =
      if 0xffffffff < Chrono.wholeUnits .days delta then
        .err (.invalidValue r.epc "TimeDelta overflows internal value")
      else .panic := by
  simp only [durationFromCanonical, durationInternal_eq_panic]
  by_cases hlarge : 0xffffffff < Chrono.wholeUnits .days delta
  · have hdays : 0 < Chrono.wholeUnits .days delta := by omega
    have hpos : 0 ≤ Chrono.Span.nanoseconds delta := Chrono.nonneg_of_wholeUnits_pos hdays
    have hunit (unit : TimeUnit) : ¬ Chrono.count unit delta ≤ 0xffffffff := by
      have hle := Chrono.wholeUnits_days_le hpos unit
      rw [count_le_iff]
      omega
    rw [if_pos hlarge]
    exact (if_neg (hunit .seconds)).trans <| (if_neg (hunit .minutes)).trans <|
      (if_neg (hunit .hours)).trans (if_neg (hunit .days))
  · have hdays : Chrono.numDays delta ≤ 0xffffffff :=
      (count_le_iff .days).mpr (Int.not_lt.mp hlarge)
    rw [if_neg hlarge, if_pos hdays]
    split_ifs <;> rfl

end Encoder

/-! ## The property -/

/-- A duration is written as a count of the finest of the units that fits. -/
def finestUnit [Chrono] [Chrono.Span] (delta : Chrono.TimeDelta) : Option TimeUnit :=
  [TimeUnit.seconds, .minutes, .hours, .days].find? fun unit =>
    Chrono.wholeUnits unit delta ≤ 0xffffffff

/-- A duration that fits is stored and read back in whole units, and any other is refused. -/
structure EncodesDuration [Chrono] [Chrono.Span] (p : StaticNodeProperty Chrono.TimeDelta)
    (cells : Cells) (delta : Chrono.TimeDelta) (now : ClockReading) : Prop where
  no_panic : (p.fromCanonical cells delta now).1 ≠ .panic
  stored : 0 ≤ Chrono.Span.nanoseconds delta → Chrono.wholeUnits .days delta ≤ 0xffffffff →
    (p.fromCanonical cells delta now).1 = .ok () ∧ ∃ unit, finestUnit delta = some unit ∧
      ∃ c, p.toCanonical (p.fromCanonical cells delta now).2 = .ok c ∧
        Chrono.Span.nanoseconds c = Chrono.wholeUnits unit delta * unit.nanoseconds
  refused : Chrono.Span.nanoseconds delta < 0 ∨ 0xffffffff < Chrono.wholeUnits .days delta →
    ∃ e, p.fromCanonical cells delta now = (.err e, cells)

section Property

variable [Chrono] [Chrono.Span] [Chrono.LawfulSpan] {p : StaticNodeProperty Chrono.TimeDelta}

theorem duration_fromCanonical (henc : p.fromCanonicalFn = durationFromCanonical) (cells : Cells)
    (delta : Chrono.TimeDelta) (now : ClockReading) :
    p.fromCanonical cells delta now =
      if 0xffffffff < Chrono.wholeUnits .days delta then
        (.err (.invalidValue p.epc "TimeDelta overflows internal value"), cells)
      else (.panic, cells) := by
  rw [StaticNodeProperty.fromCanonical, henc, durationFromCanonical_eq]
  split_ifs <;> rfl

theorem duration_encoded (henc : p.fromCanonicalFn = durationFromCanonical) (cells : Cells)
    (delta : Chrono.TimeDelta) (now : ClockReading) :
    EncodesDuration p cells delta now ↔ 0xffffffff < Chrono.wholeUnits .days delta := by
  have heq := duration_fromCanonical henc cells delta now
  constructor
  · intro h
    by_contra hfits
    rw [if_neg hfits] at heq
    exact h.no_panic (congrArg Prod.fst heq)
  · intro hlarge
    rw [if_pos hlarge] at heq
    refine ⟨?_, fun _ hfits => absurd hlarge (Int.not_lt.mpr hfits), fun _ => ⟨_, heq⟩⟩
    rw [heq]
    simp

end Property

/-- **A duration is encoded as it should be** exactly when it does not fit in days: it is refused
then, and every other duration panics. -/
theorem duration_encoded_iff [Chrono] [Chrono.Span] [Chrono.LawfulSpan] (name : String)
    (epc : UInt8) (source : UInt16) (announce : Bool) (getOperation setOperation : EpcAccessRule)
    (validator : ValidatorType Chrono.TimeDelta) :
    ∃ p, durationProperty name epc source announce getOperation setOperation validator
        = .ok ⟨Chrono.TimeDelta, p⟩ ∧
      ∀ cells delta now,
        EncodesDuration p cells delta now ↔ 0xffffffff < Chrono.wholeUnits .days delta :=
  ⟨_, rfl, duration_encoded rfl⟩

/-- The shortest duration that does not fit in days. -/
def overlongDelta : Calendar.Delta := ⟨4294967296 * 86400000000000, by decide⟩

theorem duration_encoded_iff_overlong :
    letI := Calendar.gregorian
    letI := Calendar.gregorianSpan
    ∃ p, propertyFactory Float classProfileNodeProfile epcCumulativeOperatingTime
        = .ok ⟨Chrono.TimeDelta, p⟩ ∧
      EncodesDuration p .fresh overlongDelta ⟨1, by decide⟩ := by
  let := Calendar.gregorian
  let := Calendar.gregorianSpan
  have := Calendar.lawfulSpan
  obtain ⟨p, hp, hencoded⟩ := duration_encoded_iff "Cumulative Operating Time"
    epcCumulativeOperatingTime (epcDocsourceDeviceSuperclass ||| epcDocsourceProfileNone) false
    .supported .notSupported fun _ _ => .ok true
  exact ⟨p, hp, (hencoded _ _ _).mpr (by decide)⟩

/-- One second is not written: the call panics. -/
theorem one_second_panics :
    ∃ p, hostFactory classProfileNodeProfile epcCumulativeOperatingTime = .ok ⟨ℤ, p⟩ ∧
      (p.fromCanonical .fresh 1 ⟨1, by decide⟩).1 = .panic :=
  ⟨_, rfl, rfl⟩

end Echonet
