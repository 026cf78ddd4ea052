import EchonetBridge.Epc.Integers

/-!
# Epc/Identifiers — the flags of unique identifiers

A unique identifier keeps two flags in its highest bits.  Reading an identifier, changing its
default flag and writing it again changes one bit of what is stored (`identifier_setDefault`).
-/

namespace Echonet

open BigEndian Outcome

/-! ## Flags -/

/-- Bits are masked in both parts of a word. -/
theorem or_and_distrib (a b mask : UInt16) : (a ||| b) &&& mask = a &&& mask ||| b &&& mask := by
  refine UInt16.toBitVec_inj.mp (BitVec.eq_of_getElem_eq fun i hi => ?_)
  simp only [UInt16.toBitVec_and, UInt16.toBitVec_or, BitVec.getElem_and, BitVec.getElem_or]
  exact Bool.and_or_distrib_right _ _ _

namespace NodeObjectUniqueIdentifier

def isNonVolatile (self : NodeObjectUniqueIdentifier) : Bool := self.value &&& 0x8000 == 0

def isDefault (self : NodeObjectUniqueIdentifier) : Bool := self.value &&& 0x4000 == 0

/-- Change the value of the default flag. -/
def setDefault (self : NodeObjectUniqueIdentifier) (value : Bool) : NodeObjectUniqueIdentifier :=
  ⟨if value then self.value &&& 0xbfff else self.value ||| 0x4000⟩

/-- The identifier that two bytes spell. -/
def ofBytes (high low : UInt8) : NodeObjectUniqueIdentifier :=
  ⟨(high.toUInt16 <<< 8) ||| low.toUInt16⟩

/-- The first byte of an identifier with the default flag changed. -/
def defaultByte (high : UInt8) (value : Bool) : UInt8 :=
  if value then high &&& 0xbf else high ||| 0x40

theorem value_ofBytes (high low : UInt8) :
    (ofBytes high low).value = (high.toUInt16 <<< 8) ||| low.toUInt16 := rfl

/-- A mask of the high byte leaves nothing of the low one. -/
theorem isNonVolatile_ofBytes (high low : UInt8) :
    (ofBytes high low).isNonVolatile = (high &&& 0x80 == 0) := by
  have hlow : low.toUInt16 &&& 0x8000 = 0 := Bits.forall_byte low (by decide +kernel)
  rw [isNonVolatile, value_ofBytes, or_and_distrib, hlow, UInt16.or_zero]
  exact Bits.forall_byte high (by decide +kernel)

theorem isDefault_ofBytes (high low : UInt8) :
    (ofBytes high low).isDefault = (high &&& 0x40 == 0) := by
  have hlow : low.toUInt16 &&& 0x4000 = 0 := Bits.forall_byte low (by decide +kernel)
  rw [isDefault, value_ofBytes, or_and_distrib, hlow, UInt16.or_zero]
  exact Bits.forall_byte high (by decide +kernel)

/-- The default flag is in the high byte. -/
theorem setDefault_ofBytes (high low : UInt8) (value : Bool) :
    (ofBytes high low).setDefault value = ofBytes (defaultByte high value) low := by
  refine congrArg mk ?_
  rw [value_ofBytes]
  cases value with
  | true =>
    have hhigh : high.toUInt16 <<< 8 &&& (0xbfff : UInt16) = (high &&& 0xbf).toUInt16 <<< 8 :=
      Bits.forall_byte high (by decide +kernel)
    have hlow : low.toUInt16 &&& 0xbfff = low.toUInt16 := Bits.forall_byte low (by decide +kernel)
    rw [if_pos rfl, or_and_distrib, hhigh, hlow]
    rfl
  | false =>
    have hhigh : high.toUInt16 <<< 8 ||| (0x4000 : UInt16) = (high ||| 0x40).toUInt16 <<< 8 :=
      Bits.forall_byte high (by decide +kernel)
    rw [if_neg Bool.false_ne_true, UInt16.or_assoc, UInt16.or_comm low.toUInt16,
      ← UInt16.or_assoc, hhigh]
    rfl

/-- The flag is changed, and nothing but the flag. -/
theorem defaultByte_spec (high : UInt8) (value : Bool) :
    (defaultByte high value &&& 0x40 == 0) = value ∧
      (defaultByte high value &&& 0x80 == 0) = (high &&& 0x80 == 0) ∧
      defaultByte (defaultByte high value) (high &&& 0x40 == 0) = high := by
  have hall : ∀ value, (defaultByte high value &&& 0x40 == 0) = value ∧
      (defaultByte high value &&& 0x80 == 0) = (high &&& 0x80 == 0) ∧
      defaultByte (defaultByte high value) (high &&& 0x40 == 0) = high :=
    Bits.forall_byte high (by decide +kernel)
  exact hall value

end NodeObjectUniqueIdentifier

/-! ## The property -/

/-- Bytes that are no marker are stored, and read as the number they spell. -/
theorem integer_stored {T : Type} [Integer T] {p : StaticNodeProperty T}
    (hd : p.toCanonicalFn = integerToCanonical)
    (hv : p.validatorFn = integerValidator fun _ _ => .ok true) (cells : Cells)
    {bytes : Vector UInt8 (Integer.size T)} (hmarker : ¬ IsMarker bytes) (now : ClockReading) :
    (p.set cells bytes.toList now).1 = .ok () ∧
      p.toCanonical (p.set cells bytes.toList now).2 = .ok (Integer.fromBeBytes bytes) := by
  have hyes : p.validatorFn (p.ref cells) (frame p.epc bytes.toList) = .ok true := by
    rw [hv]
    exact (integerValidator_frame bytes).mpr hmarker
  rw [p.set_of_ok hyes now, p.toCanonical_frame, hd, integerToCanonical_frame]
  exact ⟨rfl, rfl⟩

open NodeObjectUniqueIdentifier

section SetDefault

variable {p : StaticNodeProperty NodeObjectUniqueIdentifier}

/-- No identifier is a marker. -/
theorem not_isMarker_identifier (bytes : Vector UInt8 2) :
    ¬ @IsMarker NodeObjectUniqueIdentifier _ bytes := by
  rintro (h | h)
  · cases h
  · cases h

/-- An identifier is stored as the bytes that spell it. -/
theorem identifier_roundTrip (henc : p.fromCanonicalFn = integerFromCanonical)
    (hd : p.toCanonicalFn = integerToCanonical)
    (hv : p.validatorFn = integerValidator fun _ _ => .ok true) (cells : Cells)
    (high low : UInt8) (now : ClockReading) :
    p.RoundTrip cells (ofBytes high low) now [high, low] (· = ofBytes high low) := by
  have hspelt : ofBytes high low = Integer.fromBeBytes #v[high, low] := rfl
  have hbytes : Integer.toBeBytes (ofBytes high low) = #v[high, low] := by
    rw [hspelt]
    exact toBeBytes_fromBeBytes rfl
  have hok := (integer_accepted_iff henc hv cells (ofBytes high low) now).mpr
    (not_isMarker_identifier _)
  have htrip := integer_roundTrip henc hd (ofBytes high low).value.toNat_lt hok
  rwa [hbytes] at htrip

end SetDefault

/-- **Changing the default flag** of a stored identifier: whatever two bytes are stored, the
identifier that is read and written with the flag changed differs in that flag alone, so that
changing the flag back restores it. -/
theorem identifier_setDefault (F : Type) [F64 F] [Chrono] :
    ∃ p, propertyFactory F classProfileNodeProfile epcUniqueIdentifierData
        = .ok ⟨NodeObjectUniqueIdentifier, p⟩ ∧
      ∀ cells high low now now' value, ∃ id,
        (p.set cells [high, low] now).1 = .ok () ∧
        p.toCanonical (p.set cells [high, low] now).2 = .ok id ∧
        p.RoundTrip (p.set cells [high, low] now).2 (id.setDefault value) now'
          [defaultByte high value, low] fun id' =>
            id'.isDefault = value ∧ id'.isNonVolatile = id.isNonVolatile ∧
              id'.setDefault id.isDefault = id := by
  obtain ⟨p, hp, henc, hd, hv⟩ : ∃ p, propertyFactory F classProfileNodeProfile
      epcUniqueIdentifierData = .ok ⟨NodeObjectUniqueIdentifier, p⟩ ∧
        p.fromCanonicalFn = integerFromCanonical ∧ p.toCanonicalFn = integerToCanonical ∧
        p.validatorFn = integerValidator fun _ _ => .ok true := ⟨_, rfl, rfl, rfl, rfl⟩
  refine ⟨p, hp, fun cells high low now now' value => ⟨ofBytes high low, ?_⟩⟩
  obtain ⟨hset, hread⟩ :=
    integer_stored hd hv cells (not_isMarker_identifier #v[high, low]) now
  obtain ⟨haccepted, hget, id', hread', rfl⟩ := identifier_roundTrip henc hd hv
    (p.set cells [high, low] now).2 (defaultByte high value) low now'
  obtain ⟨hflag, hvolatile, hback⟩ := defaultByte_spec high value
  rw [setDefault_ofBytes]
  refine ⟨hset, hread, haccepted, hget, _, hread', ?_⟩
  rw [isDefault_ofBytes, isDefault_ofBytes, isNonVolatile_ofBytes, isNonVolatile_ofBytes,
    setDefault_ofBytes, hback]
  exact ⟨hflag, hvolatile, rfl⟩

end Echonet
