import EchonetBridge.Epc.Contract
import EchonetBridge.Epc.Factory
import EchonetBridge.Epc.RoundTrip

/-!
# Epc/Integers — integer properties

An integer type of the wire stands for the numbers below a limit (`LawfulInteger`).  A property of
such a type stores the big-endian form of a number that is not a marker and reads it back, and
accepts just the payloads that are such a form (`integer_codec`).  A count that is too large is
written as a marker, so it is refused (`count_never_saturates`).
-/

namespace Echonet

open BigEndian Outcome

/-! ## The integers of the wire -/

/-- The numbers an integer type stands for: they have a big-endian form below the limit, and a
form that does not mark an overflow is one of those. -/
class LawfulInteger (T : Type) [Integer T] where
  value : T → ℕ
  limit : ℕ
  value_injective : Function.Injective value
  beValue_toBeBytes : ∀ v, value v < limit → beValue (Integer.toBeBytes v).toList = value v
  value_fromBeBytes : ∀ bytes, value (Integer.fromBeBytes bytes) = beValue bytes.toList
  beValue_lt_limit : ∀ bytes : Vector UInt8 (Integer.size T), Integer.isOverflow bytes = false →
    beValue bytes.toList < limit

instance : LawfulInteger UInt16 where
  value v := v.toNat
  limit := 65536
  value_injective _ _ h := UInt16.toNat_inj.mp h
  beValue_toBeBytes v _ := beValue_toBeBytes₁₆ v
  value_fromBeBytes := toNat_fromBeBytes₁₆
  beValue_lt_limit bytes _ := by
    rw [← toNat_fromBeBytes₁₆]
    exact UInt16.toNat_lt _

instance : LawfulInteger UInt32 where
  value v := v.toNat
  limit := 4294967296
  value_injective _ _ h := UInt32.toNat_inj.mp h
  beValue_toBeBytes v _ := beValue_toBeBytes₃₂ v
  value_fromBeBytes := toNat_fromBeBytes₃₂
  beValue_lt_limit bytes _ := by
    rw [← toNat_fromBeBytes₃₂]
    exact UInt32.toNat_lt _

instance : LawfulInteger NodeObjectUniqueIdentifier where
  value id := id.value.toNat
  limit := 65536
  value_injective _ _ h := congrArg NodeObjectUniqueIdentifier.mk (UInt16.toNat_inj.mp h)
  beValue_toBeBytes id _ := beValue_toBeBytes₁₆ id.value
  value_fromBeBytes := toNat_fromBeBytes₁₆
  beValue_lt_limit bytes _ := by
    rw [← toNat_fromBeBytes₁₆]
    exact UInt16.toNat_lt _

/-- A count below the limit has a zero byte in front, which is not written. -/
theorem beValue_count (count : NodeObjectInstanceCount) (h : count.value.toNat < 0xffffff) :
    beValue (Integer.toBeBytes count).toList = count.value.toNat := by
  have hsmall : ¬ count.value ≥ 0x00ffffff := by
    rw [ge_iff_le, UInt32.le_iff_toNat_le]
    exact Nat.not_le.mpr h
  have hbytes : (Integer.toBeBytes count).toList = (toBeBytes₃₂ count.value).toList.tail := by
    simp only [Integer.toBeBytes]
    rw [if_neg hsmall, toList_four]
    rfl
  have hvalue := beValue_toBeBytes₃₂ count.value
  rw [toList_four, beValue_cons] at hvalue
  rw [hbytes, toList_four, List.tail_cons]
  simp only [List.length_cons, List.length_nil] at hvalue
  omega

theorem value_countBytes (bytes : Vector UInt8 3) :
    (Integer.fromBeBytes bytes : NodeObjectInstanceCount).value.toNat = beValue bytes.toList := by
  have hvalue : (fromBeBytes₃₂ #v[0x00, bytes[0], bytes[1], bytes[2]]).toNat
      = beValue [bytes[0], bytes[1], bytes[2]] := by
    rw [toNat_fromBeBytes₃₂, toList_four, beValue_cons]
    simp
  rw [toList_eq_ofFn]
  exact hvalue

/-- The only three bytes whose number is the limit mark an overflow. -/
theorem beValue_lt_count (bytes : Vector UInt8 3)
    (h : Integer.isOverflow (T := NodeObjectInstanceCount) bytes = false) :
    beValue bytes.toList < 0xffffff := by
  have hlt := beValue_lt bytes.toList
  rw [Vector.length_toList] at hlt
  refine Nat.lt_of_le_of_ne (Nat.le_pred_of_lt hlt) fun heq => ?_
  have hmarker : bytes = #v[0xff, 0xff, 0xff] :=
    Vector.toList_inj.mp (eq_of_beValue_eq (by simp) heq)
  rw [hmarker] at h
  cases h

instance : LawfulInteger NodeObjectInstanceCount where
  value count := count.value.toNat
  limit := 0xffffff
  value_injective _ _ h := congrArg NodeObjectInstanceCount.mk (UInt32.toNat_inj.mp h)
  beValue_toBeBytes := beValue_count
  value_fromBeBytes := value_countBytes
  beValue_lt_limit := beValue_lt_count

/-! ## The codec -/

section Codec

variable {T : Type} [Integer T] [LawfulInteger T]

open LawfulInteger

/-- A number that has a big-endian form is read back from it. -/
theorem fromBeBytes_toBeBytes {v : T} (h : value v < limit T) :
    Integer.fromBeBytes (Integer.toBeBytes v) = v :=
  value_injective (by rw [value_fromBeBytes, beValue_toBeBytes v h])

/-- Bytes that do not mark an overflow are the big-endian form of the number they are read as. -/
theorem toBeBytes_fromBeBytes {bytes : Vector UInt8 (Integer.size T)}
    (h : Integer.isOverflow bytes = false) :
    Integer.toBeBytes (Integer.fromBeBytes bytes : T) = bytes := by
  refine Vector.toList_inj.mp (eq_of_beValue_eq (by simp) ?_)
  rw [beValue_toBeBytes _ (by rw [value_fromBeBytes]; exact beValue_lt_limit bytes h),
    value_fromBeBytes]

/-- The bytes mark an underflow or an overflow. -/
def IsMarker (bytes : Vector UInt8 (Integer.size T)) : Prop :=
  Integer.isUnderflow bytes = true ∨ Integer.isOverflow bytes = true

instance (bytes : Vector UInt8 (Integer.size T)) : Decidable (IsMarker bytes) :=
  inferInstanceAs (Decidable (_ ∨ _))

/-- An integer property stores and reads back each number whose big-endian form is no marker, and
accepts each payload that is such a form and writes it back.  Nothing panics. -/
structure IntegerCodec (p : StaticNodeProperty T) : Prop where
  form : ∀ v : T, value v < limit T → beValue (Integer.toBeBytes v).toList = value v
  accepted_iff : ∀ cells v now, value v < limit T →
    ((p.fromCanonical cells v now).1 = .ok () ↔ ¬ IsMarker (Integer.toBeBytes v))
  read : ∀ cells v now, value v < limit T → (p.fromCanonical cells v now).1 = .ok () →
    p.RoundTrip cells v now (Integer.toBeBytes v).toList (· = v)
  set_iff : ∀ cells payload now, (p.set cells payload now).1 = .ok () ↔
    ∃ bytes : Vector UInt8 (Integer.size T), payload = bytes.toList ∧ ¬ IsMarker bytes
  writtenBack : ∀ cells payload now now', (p.set cells payload now).1 = .ok () →
    p.WrittenBack cells payload now now'
  call_ne_panic : ∀ cells call, (p.call cells call).1 ≠ .panic
  read_ne_panic : ∀ calls, p.get (p.run calls) ≠ .panic ∧ p.toCanonical (p.run calls) ≠ .panic

/-! ## What the three functions do on a frame -/

omit [LawfulInteger T] in
theorem integerValidator_frame {r : EpcRef T} {epc : UInt8}
    (bytes : Vector UInt8 (Integer.size T)) :
    integerValidator (fun _ _ => .ok true) r (frame epc bytes.toList) = .ok true ↔
      ¬ IsMarker bytes := by
  rw [integerValidator, if_neg (by simp), sliceFrom_frame, ok_bind, toArray_toList, ok_bind,
    IsMarker]
  split_ifs with hunder hover
  · simp [hunder]
  · simp [hover]
  · simp [hunder, hover]

omit [LawfulInteger T] in
theorem integerValidator_eq_yes {r : EpcRef T} {epc : UInt8} (payload : List UInt8) :
    integerValidator (fun _ _ => .ok true) r (frame epc payload) = .ok true ↔
      ∃ bytes : Vector UInt8 (Integer.size T), payload = bytes.toList ∧ ¬ IsMarker bytes := by
  by_cases hlen : payload.length = Integer.size T
  · obtain ⟨bytes, rfl⟩ : ∃ bytes : Vector UInt8 (Integer.size T), payload = bytes.toList :=
      ⟨⟨payload.toArray, hlen⟩, rfl⟩
    rw [integerValidator_frame]
    constructor
    · exact fun h => ⟨bytes, rfl, h⟩
    · rintro ⟨bytes', heq, h⟩
      rwa [Vector.toList_inj.mp heq]
  · rw [integerValidator, if_pos (by rw [length_frame]; omega)]
    refine iff_of_false (by simp) ?_
    rintro ⟨bytes, rfl, -⟩
    exact hlen bytes.length_toList

omit [LawfulInteger T] in
theorem integerToCanonical_frame (r : EpcRef T) (epc : UInt8)
    (bytes : Vector UInt8 (Integer.size T)) :
    integerToCanonical r (frame epc bytes.toList) = .ok (Integer.fromBeBytes bytes) := by
  rw [integerToCanonical, sliceFrom_frame, ok_bind, toArray_toList, ok_bind, pure_eq]

/-! ## The property -/

variable {p : StaticNodeProperty T}

omit [LawfulInteger T] in
theorem integer_encoded (henc : p.fromCanonicalFn = integerFromCanonical) (cells : Cells) (v : T) :
    p.fromCanonicalFn (p.ref cells) v
      = .ok (0x00 :: 0x00 :: (Integer.toBeBytes v).toList) := by
  rw [henc, integerFromCanonical]

omit [LawfulInteger T] in
theorem integer_accepted_iff (henc : p.fromCanonicalFn = integerFromCanonical)
    (hv : p.validatorFn = integerValidator fun _ _ => .ok true) (cells : Cells) (v : T)
    (now : ClockReading) :
    (p.fromCanonical cells v now).1 = .ok () ↔ ¬ IsMarker (Integer.toBeBytes v) := by
  rw [p.fromCanonical_eq_ok_iff (integer_encoded henc cells v) (Nat.le_add_left 2 _), hv]
  exact integerValidator_frame _

/-- A number that has a form makes a round trip, unless its form is a marker. -/
theorem integer_roundTrip (henc : p.fromCanonicalFn = integerFromCanonical)
    (hd : p.toCanonicalFn = integerToCanonical) {cells : Cells} {v : T} {now : ClockReading}
    (hfits : value v < limit T)
    (hok : (p.fromCanonical cells v now).1 = .ok ()) :
    p.RoundTrip cells v now (Integer.toBeBytes v).toList (· = v) := by
  obtain ⟨internal, hinternal, -, hstored⟩ := p.fromCanonical_eq_ok hok
  rw [integer_encoded henc] at hinternal
  cases hinternal
  have hread := integerToCanonical_frame p.decoderRef p.epc (Integer.toBeBytes v)
  rw [fromBeBytes_toBeBytes hfits] at hread
  rw [p.roundTrip_iff hstored, hd]
  exact ⟨rfl, v, hread, rfl⟩

omit [LawfulInteger T] in
theorem integer_set_iff (hv : p.validatorFn = integerValidator fun _ _ => .ok true) (cells : Cells)
    (payload : List UInt8) (now : ClockReading) :
    (p.set cells payload now).1 = .ok () ↔
      ∃ bytes : Vector UInt8 (Integer.size T), payload = bytes.toList ∧ ¬ IsMarker bytes := by
  rw [(loudOn_integer (loudOn_accept p.epc)).set_eq_ok_iff hv]
  exact integerValidator_eq_yes payload

/-- A payload that is accepted is written back as it was. -/
theorem integer_writtenBack (henc : p.fromCanonicalFn = integerFromCanonical)
    (hd : p.toCanonicalFn = integerToCanonical)
    (hv : p.validatorFn = integerValidator fun _ _ => .ok true) {cells : Cells}
    {payload : List UInt8} {now : ClockReading} (now' : ClockReading)
    (hok : (p.set cells payload now).1 = .ok ()) : p.WrittenBack cells payload now now' := by
  obtain ⟨bytes, rfl, hmarker⟩ := (integer_set_iff hv cells payload now).mp hok
  have hback : Integer.toBeBytes (Integer.fromBeBytes bytes : T) = bytes :=
    toBeBytes_fromBeBytes (Bool.eq_false_iff.mpr fun h => hmarker (Or.inr h))
  have hyes (r : EpcRef T) : p.validatorFn r (frame p.epc bytes.toList) = .ok true := by
    rw [hv]
    exact (integerValidator_frame bytes).mpr hmarker
  have hread : p.toCanonicalFn p.decoderRef (frame p.epc bytes.toList)
      = .ok (Integer.fromBeBytes bytes) := by
    rw [hd]
    exact integerToCanonical_frame _ _ bytes
  have hencoded :=
    integer_encoded henc ⟨frame p.epc bytes.toList, now.1⟩ (Integer.fromBeBytes bytes)
  rw [hback] at hencoded
  exact p.writtenBack_of (hyes _) hread
    (p.fromCanonical_of_yes hencoded (Nat.le_add_left 2 _) (hyes _) now')

omit [LawfulInteger T] in
theorem integer_call_ne_panic (henc : p.fromCanonicalFn = integerFromCanonical)
    (hv : p.validatorFn = integerValidator fun _ _ => .ok true) (cells : Cells) (call : Call T) :
    (p.call cells call).1 ≠ .panic := by
  have hloud (payload : List UInt8) :
      Loud (p.validatorFn (p.ref cells) (frame p.epc payload)) := by
    rw [hv]
    exact (loudOn_integer (loudOn_accept p.epc)).loud (p.ref cells) rfl payload
  cases call with
  | set payload now => exact p.set_ne_panic (hloud payload).ne_panic now
  | fromCanonical v now =>
    exact p.fromCanonical_ne_panic (integer_encoded henc cells v) (Nat.le_add_left 2 _)
      (hloud _).ne_panic now

omit [LawfulInteger T] in
/-- What a run of calls left behind can be read. -/
theorem integer_read_ne_panic (hd : p.toCanonicalFn = integerToCanonical)
    (hv : p.validatorFn = integerValidator fun _ _ => .ok true) (calls : List (Call T)) :
    p.get (p.run calls) ≠ .panic ∧ p.toCanonical (p.run calls) ≠ .panic := by
  rcases p.framed_run calls with hfresh | ⟨hstored, payload, hvalue, r, answer, hr, hanswer⟩
  · rw [hfresh]
    exact ⟨by simp [StaticNodeProperty.get, Cells.fresh],
      by simp [StaticNodeProperty.toCanonical, Cells.fresh]⟩
  · have hloud := (loudOn_integer (loudOn_accept (T := T) p.epc)).loud r hr payload
    rw [hv] at hanswer
    obtain rfl : answer = true := by
      by_contra hno
      rw [Bool.eq_false_iff.mpr hno] at hanswer
      exact hloud.ne_no hanswer
    obtain ⟨bytes, rfl, -⟩ := (integerValidator_eq_yes payload).mp hanswer
    rw [StaticNodeProperty.get, StaticNodeProperty.toCanonical, if_neg hstored, if_neg hstored,
      hvalue, sliceFrom_frame, hd, integerToCanonical_frame]
    exact ⟨by simp, by simp⟩

theorem integerCodec_of (henc : p.fromCanonicalFn = integerFromCanonical)
    (hd : p.toCanonicalFn = integerToCanonical)
    (hv : p.validatorFn = integerValidator fun _ _ => .ok true) : IntegerCodec p where
  form := beValue_toBeBytes
  accepted_iff cells v now _ := integer_accepted_iff henc hv cells v now
  read _ _ _ hfits hok := integer_roundTrip henc hd hfits hok
  set_iff := integer_set_iff hv
  writtenBack _ _ _ now' hok := integer_writtenBack henc hd hv now' hok
  call_ne_panic := integer_call_ne_panic henc hv
  read_ne_panic := integer_read_ne_panic hd hv

end Codec

/-- **The four integer types have the codec of integers**: a count is below `0xffffff`. -/
theorem integer_codec (name : String) (epc : UInt8) (source : UInt16) (announce : Bool)
    (getOperation setOperation : EpcAccessRule) :
    (∃ p, integerProperty UInt16 name epc source announce getOperation setOperation
      = .ok ⟨UInt16, p⟩ ∧ IntegerCodec p) ∧
    (∃ p, integerProperty UInt32 name epc source announce getOperation setOperation
      = .ok ⟨UInt32, p⟩ ∧ IntegerCodec p) ∧
    (∃ p, integerProperty NodeObjectUniqueIdentifier name epc source announce getOperation
        setOperation = .ok ⟨NodeObjectUniqueIdentifier, p⟩ ∧ IntegerCodec p) ∧
    ∃ p, integerProperty NodeObjectInstanceCount name epc source announce getOperation setOperation
      = .ok ⟨NodeObjectInstanceCount, p⟩ ∧ IntegerCodec p :=
  ⟨⟨_, rfl, integerCodec_of rfl rfl rfl⟩, ⟨_, rfl, integerCodec_of rfl rfl rfl⟩,
    ⟨_, rfl, integerCodec_of rfl rfl rfl⟩, ⟨_, rfl, integerCodec_of rfl rfl rfl⟩⟩

/-! ## Counts that are too large -/

/-- A count that is too large is stored as the overflow marker, which can be set again. -/
structure SaturatesCount (p : StaticNodeProperty NodeObjectInstanceCount) (cells : Cells)
    (count : NodeObjectInstanceCount) (now now' : ClockReading) : Prop where
  accepted : (p.fromCanonical cells count now).1 = .ok ()
  get_eq : p.get (p.fromCanonical cells count now).2 = .ok [0xff, 0xff, 0xff]
  again : (p.set (p.fromCanonical cells count now).2 [0xff, 0xff, 0xff] now').1 = .ok ()
  kept : p.get (p.set (p.fromCanonical cells count now).2 [0xff, 0xff, 0xff] now').2
    = .ok [0xff, 0xff, 0xff]

/-- **No count that is too large is stored**: the validator refuses the overflow marker, which is
what the encoder writes. -/
theorem count_never_saturates (F : Type) [F64 F] [Chrono] :
    ∃ p, propertyFactory F classProfileNodeProfile epcNumberOfSelfnodeInstances
        = .ok ⟨NodeObjectInstanceCount, p⟩ ∧
      ∀ cells count now now', 0xffffff ≤ count.value →
        ¬ SaturatesCount p cells count now now' := by
  refine ⟨_, rfl, fun cells count now now' hlarge h => ?_⟩
  refine (integer_accepted_iff rfl rfl cells count now).mp h.accepted (Or.inr ?_)
  simp only [Integer.toBeBytes]
  rw [if_pos hlarge]
  rfl

/-- The count that the encoder writes as a marker is refused, and so is the marker. -/
theorem large_count_refused :
    ∃ p, hostFactory classProfileNodeProfile epcNumberOfSelfnodeInstances
        = .ok ⟨NodeObjectInstanceCount, p⟩ ∧
      (p.fromCanonical .fresh ⟨0x01ffffff⟩ ⟨1, by decide⟩).1
        = .err (.invalidValue epcNumberOfSelfnodeInstances errIntegerOverflow) ∧
      (p.set .fresh [0xff, 0xff, 0xff] ⟨1, by decide⟩).1
        = .err (.invalidValue epcNumberOfSelfnodeInstances errIntegerOverflow) :=
  ⟨_, rfl, rfl, rfl⟩

end Echonet
