import EchonetBridge.Epc.Contract
import EchonetBridge.Epc.Factory
import EchonetBridge.Epc.RoundTrip
import EchonetBridge.Foundations.ExtendedRational

/-!
# Epc/PackedDecimals — decimals packed into integers

In exact arithmetic, a packed decimal is stored as the nearest integer number of its smallest digit,
or as one of two markers when that is negative or too large.  The property accepts just these
payloads, and writes back what it has read (`packed_codec`).
-/

namespace Echonet

open BigEndian Outcome

/-- Exact arithmetic in the place of the floating-point numbers. -/
instance : F64 ExtRat where
  ofDecimal mantissa places := .fin (mantissa / 10 ^ places)
  ofU32 value := .fin value.toNat
  infinity := .posInf
  neg := ExtRat.neg
  mul := ExtRat.mul
  div := ExtRat.div
  powi x n := x.powi n.toInt
  ceil := ExtRat.ceil
  round := ExtRat.round
  eq := ExtRat.beq
  le := ExtRat.le
  lt := ExtRat.lt
  isNan := ExtRat.isNan
  isSignNegative := ExtRat.isNegative
  toU8 x := UInt8.ofNat (x.toNatClamped 255)
  toU16 x := UInt16.ofNat (x.toNatClamped 65535)
  toU32 x := UInt32.ofNat (x.toNatClamped 4294967295)

/-! ## The scale -/

/-- How many of the smallest digit there are in one. -/
def scale (precision : UInt8) : ℚ := 10 ^ precision.toNat

theorem scale_pos (precision : UInt8) : 0 < scale precision := pow_pos (by norm_num) _

/-- A value in units of its smallest digit, rounded. -/
def scaled (precision : UInt8) (x : ExtRat) : ExtRat := (x.mul (.fin (scale precision))).round

theorem packedDivisor_eq (precision : UInt8) :
    packedDivisor ExtRat precision = .fin (scale precision)⁻¹ := by
  have hexp : (Int32.ofNat precision.toNat).toInt = precision.toNat :=
    Int32.toInt_ofNat_of_lt (Nat.lt_trans precision.toNat_lt (by decide))
  have hpow : F64.powi (F64.ofDecimal 10 0 : ExtRat) (Int32.ofNat precision.toNat)
      = .fin (scale precision) := by
    simp only [F64.powi, F64.ofDecimal]
    rw [hexp, ExtRat.powi_fin (by norm_num), zpow_natCast, scale]
    norm_num
  rw [packedDivisor, hpow]
  simp only [F64.div, F64.ofDecimal]
  rw [ExtRat.div_fin _ (scale_pos precision).ne', ExtRat.mul_fin_fin]
  norm_num

/-- Dividing by the divisor is scaling. -/
theorem div_packedDivisor (x : ExtRat) (precision : UInt8) :
    F64.div x (packedDivisor ExtRat precision) = x.mul (.fin (scale precision)) := by
  rw [packedDivisor_eq]
  simp only [F64.div]
  rw [ExtRat.div_fin _ (inv_ne_zero (scale_pos precision).ne'), inv_inv]

theorem packedMaxValue_fin (q : ℚ) (precision : UInt8) :
    packedMaxValue (.fin q : ExtRat) precision = .fin ⌈q * scale precision⌉ := by
  rw [packedMaxValue, div_packedDivisor]
  rfl

/-- What a number that is scaled back stands for. -/
theorem scaled_of_unscaled (precision : UInt8) (k : ℤ) :
    scaled precision (.fin (k * (scale precision)⁻¹)) = .fin k := by
  rw [scaled, ExtRat.mul_fin_fin, inv_mul_cancel_right₀ (scale_pos precision).ne', ExtRat.round,
    ExtRat.roundAway_intCast]

/-- A scaled number is an integer or an infinity. -/
theorem scaled_cases (precision : UInt8) {x : ExtRat} (h : x ≠ .nan) :
    scaled precision x = .negInf ∨ (∃ k : ℤ, scaled precision x = .fin k) ∨
      scaled precision x = .posInf := by
  have hpos := scale_pos precision
  cases x with
  | negInf => exact Or.inl (by rw [scaled, ExtRat.negInf_mul_fin hpos]; rfl)
  | fin q => exact Or.inr (Or.inl ⟨_, rfl⟩)
  | posInf => exact Or.inr (Or.inr (by rw [scaled, ExtRat.posInf_mul_fin hpos]; rfl))
  | nan => exact absurd rfl h

/-! ## Payloads -/

/-- The payload that marks an underflow. -/
def underflowMarker (N : ℕ) : List UInt8 := List.replicate (N - 1) 0xff ++ [0xfe]

/-- The payload is an integer in range, or one of the two markers. -/
def IsPacked (N : ℕ) (M : ℤ) (payload : List UInt8) : Prop :=
  payload.length = N ∧
    ((beValue payload : ℤ) ≤ M ∨ payload = underflowMarker N ∨ payload = overflowSlice N)

/-- The payload of a scaled number: itself if it is in range, and a marker otherwise. -/
structure Packs (N : ℕ) (M : ℤ) (v : ExtRat) (payload : List UInt8) : Prop where
  in_range : ∀ k : ℤ, v = .fin k → 0 ≤ k → k ≤ M →
    payload.length = N ∧ (beValue payload : ℤ) = k ∧ payload ≠ underflowMarker N ∧
      payload ≠ overflowSlice N
  below : v.lt (.fin 0) = true → payload = underflowMarker N
  above : (ExtRat.fin M).lt v = true → payload = overflowSlice N

/-! ## The three widths -/

section Widths

variable {N : ℕ}

theorem underflowSlice_eq (hN : N = 1 ∨ N = 2 ∨ N = 4) :
    underflowSlice N = .ok (underflowMarker N) := by
  rcases hN with rfl | rfl | rfl <;> rfl

theorem beValue_underflowMarker (hN : N = 1 ∨ N = 2 ∨ N = 4) :
    beValue (underflowMarker N) + 2 = 256 ^ N := by
  rcases hN with rfl | rfl | rfl <;> decide

theorem beValue_overflowSlice (hN : N = 1 ∨ N = 2 ∨ N = 4) :
    beValue (overflowSlice N) + 1 = 256 ^ N := by
  rcases hN with rfl | rfl | rfl <;> decide

theorem length_underflowMarker (hN : N = 1 ∨ N = 2 ∨ N = 4) : (underflowMarker N).length = N := by
  rcases hN with rfl | rfl | rfl <;> rfl

theorem packedTypeMaxValue_eq (hN : N = 1 ∨ N = 2 ∨ N = 4) :
    packedTypeMaxValue ExtRat N = .ok (.fin ((256 ^ N - 3 : ℕ) : ℚ)) := by
  rcases hN with rfl | rfl | rfl <;> rfl

/-- The integer of a payload of the right length is its number. -/
theorem packedInteger_eq (hN : N = 1 ∨ N = 2 ∨ N = 4) {payload : List UInt8}
    (h : payload.length = N) :
    ∃ n, packedInteger N payload = .ok n ∧ n.toNat = beValue payload := by
  rcases hN with rfl | rfl | rfl
  · obtain ⟨byte, rfl⟩ := List.length_eq_one_iff.mp h
    refine ⟨byte.toUInt32, rfl, ?_⟩
    rw [UInt8.toNat_toUInt32, beValue_cons]
    simp
  · rw [packedInteger, toArray_of_length h, ok_bind]
    refine ⟨_, rfl, ?_⟩
    rw [UInt16.toNat_toUInt32, toNat_fromBeBytes₁₆]
    rfl
  · rw [packedInteger, toArray_of_length h, ok_bind]
    refine ⟨_, rfl, ?_⟩
    rw [toNat_fromBeBytes₃₂]
    rfl

/-- A number that fits is written as its big-endian form. -/
theorem packedBytes_eq (hN : N = 1 ∨ N = 2 ∨ N = 4) {k : ℕ} (hk : k < 256 ^ N) :
    ∃ bytes, packedBytes N (.fin (k : ℚ) : ExtRat) = .ok bytes ∧ bytes.length = N ∧
      beValue bytes = k := by
  rcases hN with rfl | rfl | rfl
  · refine ⟨_, rfl, rfl, ?_⟩
    simp only [F64.toU8]
    rw [ExtRat.toNatClamped_natCast (Nat.le_of_lt_succ hk), beValue_cons,
      UInt8.toNat_ofNat_of_lt' hk]
    simp
  · refine ⟨_, rfl, by simp, ?_⟩
    simp only [F64.toU16]
    rw [ExtRat.toNatClamped_natCast (Nat.le_of_lt_succ hk), beValue_toBeBytes₁₆,
      UInt16.toNat_ofNat_of_lt' hk]
  · refine ⟨_, rfl, by simp, ?_⟩
    simp only [F64.toU32]
    rw [ExtRat.toNatClamped_natCast (Nat.le_of_lt_succ hk), beValue_toBeBytes₃₂,
      UInt32.toNat_ofNat_of_lt' hk]

end Widths

/-! ## The three functions on a frame -/

section Functions

variable {N M : ℕ} {q : ℚ} {precision : UInt8}

/-- The largest integer, and what is left above it for the markers. -/
structure PackedLimit (N M : ℕ) (q : ℚ) (precision : UInt8) : Prop where
  size : N = 1 ∨ N = 2 ∨ N = 4
  ceil_eq : ⌈q * scale precision⌉ = (M : ℤ)
  lt_markers : M + 3 ≤ 256 ^ N

theorem PackedLimit.packedMaxValue_eq (h : PackedLimit N M q precision) :
    packedMaxValue (.fin q : ExtRat) precision = .fin (M : ℚ) := by
  rw [packedMaxValue_fin, h.ceil_eq, Int.cast_natCast]

theorem PackedLimit.toNat_max (h : PackedLimit N M q precision) :
    (F64.toU32 (packedMaxValue (.fin q : ExtRat) precision)).toNat = M := by
  have hM : M < 4294967296 := by
    have hlt := h.lt_markers
    rcases h.size with rfl | rfl | rfl <;> omega
  rw [h.packedMaxValue_eq]
  simp only [F64.toU32]
  rw [ExtRat.toNatClamped_natCast (Nat.le_of_lt_succ hM), UInt32.toNat_ofNat_of_lt' hM]

theorem packedValidator_iff (h : PackedLimit N M q precision) (r : EpcRef ExtRat) (epc : UInt8)
    (payload : List UInt8) :
    packedValidator N (.fin q) precision r (frame epc payload) = .ok true ↔
      IsPacked N M payload := by
  rw [packedValidator, IsPacked, length_frame]
  by_cases hlen : payload.length = N
  · obtain ⟨n, hn, hvalue⟩ := packedInteger_eq h.size hlen
    have hle : n ≤ F64.toU32 (packedMaxValue (.fin q : ExtRat) precision) ↔
        beValue payload ≤ M := by
      rw [UInt32.le_iff_toNat_le, h.toNat_max, hvalue]
    rw [if_neg (by omega), sliceFrom_frame, ok_bind, hn, ok_bind, underflowSlice_eq h.size,
      ok_bind, and_iff_right hlen, Int.ofNat_le, ← hle]
    split_ifs with hsmall hmarker
    · exact iff_of_true rfl (Or.inl hsmall)
    · exact iff_of_true rfl (Or.inr hmarker)
    · exact iff_of_false (by simp) (not_or.mpr ⟨hsmall, hmarker⟩)
  · rw [if_pos (by omega)]
    exact iff_of_false (by simp) fun hpacked => hlen hpacked.1

/-- What is encoded depends on the scaled number. -/
theorem packedFromCanonical_eq (h : PackedLimit N M q precision) (r : EpcRef ExtRat) (x : ExtRat) :
    packedFromCanonical N (.fin q) precision r x =
      if (scaled precision x).beq (.fin 0) = true ∨ (ExtRat.fin 0).le (scaled precision x) = true ∧
          (scaled precision x).le (.fin M) = true then do
        let bytes ← packedBytes N (scaled precision x)
        pure (0x00 :: 0x00 :: bytes)
      else if (scaled precision x).isNan then .err (.invalidValue r.epc "Unable to represent NAN")
      else if (scaled precision x).isNegative then .ok (0xff :: 0xff :: underflowMarker N)
      else .ok (0xff :: 0xff :: overflowSlice N) := by
  have hmarker : (setAt (List.replicate (N + 2) 0xff) (N + 1) 0xfe : Outcome EpcError (List UInt8))
      = .ok (0xff :: 0xff :: underflowMarker N) := by
    rcases h.size with rfl | rfl | rfl <;> rfl
  have hzero : (F64.ofDecimal 0 0 : ExtRat) = .fin 0 := by simp [F64.ofDecimal]
  have hneg : F64.neg (.fin 0 : ExtRat) = .fin 0 := by simp [F64.neg, ExtRat.neg]
  simp only [packedFromCanonical, div_packedDivisor, h.packedMaxValue_eq, hmarker, hzero, hneg]
  rfl

theorem packs_below {k : ℤ} (hk : k < 0) : Packs N M (.fin k) (underflowMarker N) where
  in_range k' heq hnonneg := by
    obtain rfl : k = k' := by simpa using heq
    omega
  below _ := rfl
  above hlt := by
    have hM : (M : ℤ) < k := by exact_mod_cast (ExtRat.lt_fin_fin _ _).mp hlt
    omega

theorem packs_above {k : ℤ} (hk : M < k) : Packs N M (.fin k) (overflowSlice N) where
  in_range k' heq _ hle := by
    obtain rfl : k = k' := by simpa using heq
    omega
  below hlt := by
    have hneg : k < 0 := by exact_mod_cast (ExtRat.lt_fin_fin _ _).mp hlt
    omega
  above _ := rfl

/-- A number in range is no marker. -/
theorem packs_number (h : PackedLimit N M q precision) {n : ℕ} (hn : n ≤ M) {payload : List UInt8}
    (hlen : payload.length = N) (hvalue : beValue payload = n) :
    Packs N M (.fin (n : ℤ)) payload where
  in_range k heq _ _ := by
    obtain rfl : (n : ℤ) = k := by exact_mod_cast ExtRat.fin.inj heq
    have hlimit := h.lt_markers
    have hunder := beValue_underflowMarker h.size
    have hover := beValue_overflowSlice h.size
    refine ⟨hlen, by rw [hvalue], ?_, ?_⟩
    · rintro rfl
      omega
    · rintro rfl
      omega
  below hlt := by
    have hneg : (n : ℤ) < 0 := by exact_mod_cast (ExtRat.lt_fin_fin _ _).mp hlt
    omega
  above hlt := by
    have hM : (M : ℤ) < n := by exact_mod_cast (ExtRat.lt_fin_fin _ _).mp hlt
    omega

/-- **What is encoded packs the scaled number.** -/
theorem packed_encoded (h : PackedLimit N M q precision) (r : EpcRef ExtRat) {x : ExtRat}
    (hx : x ≠ .nan) :
    ∃ a b payload, packedFromCanonical N (.fin q) precision r x = .ok (a :: b :: payload) ∧
      IsPacked N M payload ∧ Packs N M (scaled precision x) payload := by
  have hunder : IsPacked N M (underflowMarker N) :=
    ⟨length_underflowMarker h.size, Or.inr (Or.inl rfl)⟩
  have hover : IsPacked N M (overflowSlice N) := ⟨List.length_replicate, Or.inr (Or.inr rfl)⟩
  rw [packedFromCanonical_eq h]
  rcases scaled_cases precision hx with hv | ⟨k, hv⟩ | hv
  · rw [hv]
    refine ⟨_, _, _, rfl, hunder, fun _ hk => ?_, fun _ => rfl, fun hlt => ?_⟩
    · cases hk
    · cases hlt
  · have hin : (ExtRat.fin k).beq (.fin 0) = true ∨ (ExtRat.fin 0).le (.fin k) = true ∧
        (ExtRat.fin k).le (.fin M) = true ↔ 0 ≤ k ∧ k ≤ M := by
      rw [ExtRat.beq_fin_fin, ExtRat.le_fin_fin, ExtRat.le_fin_fin]
      norm_cast
      omega
    have hnegative : (ExtRat.fin k).isNegative = true ↔ k < 0 := by
      rw [ExtRat.isNegative_fin, Int.cast_lt_zero]
    rw [hv]
    rcases lt_or_ge k 0 with hneg | hnonneg
    · rw [if_neg (mt hin.mp (by omega)), if_neg (by simp), if_pos (hnegative.mpr hneg)]
      exact ⟨_, _, _, rfl, hunder, packs_below hneg⟩
    · rcases le_or_gt k M with hle | hgt
      · obtain ⟨n, rfl⟩ := Int.eq_ofNat_of_zero_le hnonneg
        have hn : n ≤ M := Int.ofNat_le.mp hle
        have hlimit := h.lt_markers
        obtain ⟨bytes, hbytes, hlen, hvalue⟩ := packedBytes_eq h.size (k := n) (by omega)
        rw [if_pos (hin.mpr ⟨hnonneg, hle⟩), Int.cast_natCast, hbytes, ok_bind]
        refine ⟨_, _, bytes, rfl, ⟨hlen, Or.inl (by rw [hvalue]; exact hle)⟩, ?_⟩
        exact packs_number h hn hlen hvalue
      · rw [if_neg (mt hin.mp (by omega)), if_neg (by simp), if_neg (mt hnegative.mp (by omega))]
        exact ⟨_, _, _, rfl, hover, packs_above hgt⟩
  · rw [hv]
    refine ⟨_, _, _, rfl, hover, fun _ hk => ?_, fun hlt => ?_, fun _ => rfl⟩
    · cases hk
    · cases hlt

/-- A payload is read as a number that only it packs. -/
theorem packed_decoded (h : PackedLimit N M q precision) (r : EpcRef ExtRat) (epc : UInt8)
    {payload : List UInt8} (hp : IsPacked N M payload) :
    ∃ c, packedToCanonical N precision r (frame epc payload) = .ok c ∧ c ≠ .nan ∧
      ∀ payload', Packs N M (scaled precision c) payload' → payload' = payload := by
  rw [packedToCanonical, underflowSlice_eq h.size, ok_bind, sliceFrom_frame, ok_bind]
  split_ifs with hunder hover
  · refine ⟨.negInf, rfl, by simp, fun payload' hpacks => ?_⟩
    have hv : scaled precision .negInf = .negInf := by
      rw [scaled, ExtRat.negInf_mul_fin (scale_pos precision)]
      rfl
    rw [hv] at hpacks
    rw [hpacks.below rfl, hunder]
  · refine ⟨.posInf, rfl, by simp, fun payload' hpacks => ?_⟩
    have hv : scaled precision .posInf = .posInf := by
      rw [scaled, ExtRat.posInf_mul_fin (scale_pos precision)]
      rfl
    rw [hv] at hpacks
    rw [hpacks.above rfl, hover]
  · obtain ⟨hlen, hvalue | hmarker⟩ := hp
    · obtain ⟨n, hn, hnumber⟩ := packedInteger_eq h.size hlen
      have hv := scaled_of_unscaled precision n.toNat
      rw [Int.cast_natCast] at hv
      rw [hn, ok_bind, packedDivisor_eq]
      refine ⟨_, rfl, by simp [F64.mul, F64.ofU32], fun payload' hpacks => ?_⟩
      simp only [F64.mul, F64.ofU32, ExtRat.mul_fin_fin] at hpacks
      rw [hv] at hpacks
      obtain ⟨hlen', hvalue', -⟩ :=
        hpacks.in_range n.toNat (by simp) (Int.natCast_nonneg _) (by rw [hnumber]; exact hvalue)
      exact eq_of_beValue_eq (hlen'.trans hlen.symm) (by omega)
    · exact absurd hmarker (not_or.mpr ⟨hunder, hover⟩)

end Functions

/-! ## The property -/

/-- A packed decimal accepts the payloads that are packed and writes back what it has read of them,
and packs every number. -/
structure PackedCodec (p : StaticNodeProperty ExtRat) (N : ℕ) (precision : UInt8) (M : ℤ) :
    Prop where
  set_iff : ∀ cells payload now, (p.set cells payload now).1 = .ok () ↔ IsPacked N M payload
  writtenBack : ∀ cells payload now now', (p.set cells payload now).1 = .ok () →
    p.WrittenBack cells payload now now'
  accepted : ∀ cells x now, x ≠ .nan → (p.fromCanonical cells x now).1 = .ok ()
  packed : ∀ cells x now, x ≠ .nan → ∃ payload,
    p.get (p.fromCanonical cells x now).2 = .ok payload ∧ Packs N M (scaled precision x) payload

section Property

variable {N M : ℕ} {q : ℚ} {precision : UInt8} {p : StaticNodeProperty ExtRat}

/-- A number is stored as what packs it. -/
theorem packed_stored (h : PackedLimit N M q precision)
    (henc : p.fromCanonicalFn = packedFromCanonical N (.fin q) precision)
    (hv : p.validatorFn = packedValidator N (.fin q) precision) (cells : Cells) {x : ExtRat}
    (hx : x ≠ .nan) (now : ClockReading) :
    ∃ payload, p.fromCanonical cells x now = (.ok (), ⟨frame p.epc payload, now.1⟩) ∧
      Packs N M (scaled precision x) payload := by
  obtain ⟨a, b, payload, hencoded, hpacked, hpacks⟩ := packed_encoded h (p.ref cells) hx
  have hyes : p.validatorFn (p.ref cells) (frame p.epc payload) = .ok true := by
    rw [hv]
    exact (packedValidator_iff h _ _ payload).mpr hpacked
  rw [← henc] at hencoded
  exact ⟨payload, p.fromCanonical_of_yes hencoded (Nat.le_add_left 2 _) hyes now, hpacks⟩

theorem packed_set_iff (h : PackedLimit N M q precision)
    (hv : p.validatorFn = packedValidator N (.fin q) precision) (cells : Cells)
    (payload : List UInt8) (now : ClockReading) :
    (p.set cells payload now).1 = .ok () ↔ IsPacked N M payload := by
  rw [(loudOn_packed h.size (.fin q : ExtRat) precision p.epc).set_eq_ok_iff hv]
  exact packedValidator_iff h _ _ payload

theorem packed_writtenBack (h : PackedLimit N M q precision)
    (henc : p.fromCanonicalFn = packedFromCanonical N (.fin q) precision)
    (hd : p.toCanonicalFn = packedToCanonical N precision)
    (hv : p.validatorFn = packedValidator N (.fin q) precision) {cells : Cells}
    {payload : List UInt8} {now : ClockReading} (now' : ClockReading)
    (hok : (p.set cells payload now).1 = .ok ()) : p.WrittenBack cells payload now now' := by
  have hpacked := (packed_set_iff h hv cells payload now).mp hok
  obtain ⟨c, hc, hnan, honly⟩ := packed_decoded h p.decoderRef p.epc hpacked
  obtain ⟨payload', hstored, hpacks⟩ :=
    packed_stored h henc hv ⟨frame p.epc payload, now.1⟩ hnan now'
  rw [honly payload' hpacks] at hstored
  have hyes : p.validatorFn (p.ref cells) (frame p.epc payload) = .ok true := by
    rw [hv]
    exact (packedValidator_iff h _ _ payload).mpr hpacked
  exact p.writtenBack_of hyes (by rw [hd, hc]) hstored

theorem packedCodec_of (h : PackedLimit N M q precision)
    (henc : p.fromCanonicalFn = packedFromCanonical N (.fin q) precision)
    (hd : p.toCanonicalFn = packedToCanonical N precision)
    (hv : p.validatorFn = packedValidator N (.fin q) precision) :
    PackedCodec p N precision M where
  set_iff := packed_set_iff h hv
  writtenBack _ _ _ now' hok := packed_writtenBack h henc hd hv now' hok
  accepted cells x now hx := by
    obtain ⟨payload, hstored, -⟩ := packed_stored h henc hv cells hx now
    rw [hstored]
  packed cells x now hx := by
    obtain ⟨payload, hstored, hpacks⟩ := packed_stored h henc hv cells hx now
    exact ⟨payload, by rw [hstored, p.get_frame], hpacks⟩

end Property

/-- The maximum of a property that is built is finite, and leaves room for the markers. -/
theorem packedLimit_of_built {N : ℕ} (hN : N = 1 ∨ N = 2 ∨ N = 4) {maxValue : ExtRat}
    (hmax : (ExtRat.fin 0).le maxValue = true) {precision : UInt8}
    (h : F64.lt (.fin ((256 ^ N - 3 : ℕ) : ℚ)) (packedMaxValue maxValue precision) = false) :
    ∃ q M, maxValue = .fin q ∧ PackedLimit N M q precision := by
  cases maxValue with
  | negInf => cases hmax
  | nan => cases hmax
  | posInf =>
    rw [packedMaxValue, div_packedDivisor, ExtRat.posInf_mul_fin (scale_pos precision)] at h
    cases h
  | fin q =>
    have hq : 0 ≤ q := (ExtRat.le_fin_fin 0 q).mp hmax
    have hceil : 0 ≤ ⌈q * scale precision⌉ :=
      Int.ceil_nonneg (mul_nonneg hq (scale_pos precision).le)
    obtain ⟨M, hM⟩ := Int.eq_ofNat_of_zero_le hceil
    refine ⟨q, M, rfl, hN, hM, ?_⟩
    have hle : ¬ ((256 ^ N - 3 : ℕ) : ℚ) < (M : ℚ) := by
      intro hlt
      rw [packedMaxValue_fin, hM, Int.cast_natCast] at h
      rw [show F64.lt _ _ = ExtRat.lt _ _ from rfl, (ExtRat.lt_fin_fin _ _).mpr hlt] at h
      cases h
    have hroom : 3 ≤ 256 ^ N := by rcases hN with rfl | rfl | rfl <;> decide
    have hnat : ¬ 256 ^ N - 3 < M := by exact_mod_cast hle
    omega

/-- **A packed decimal has the codec of its scale and its maximum**, in exact arithmetic, whenever
it can be built. -/
theorem packed_codec {N : ℕ} (hN : N = 1 ∨ N = 2 ∨ N = 4) {name : String} {epc : UInt8}
    {source : UInt16} {announce : Bool} {getOperation setOperation : EpcAccessRule}
    {maxValue : ExtRat} (hmax : (ExtRat.fin 0).le maxValue = true) {precision : UInt8}
    {w : EpcWrapper} (h : unsignedIntegerPackedFloatProperty N name epc source announce getOperation
      setOperation maxValue precision = .ok w) :
    ∃ q p, maxValue = .fin q ∧ w = ⟨ExtRat, p⟩ ∧
      PackedCodec p N precision ⌈q * scale precision⌉ := by
  rw [unsignedIntegerPackedFloatProperty, packedTypeMaxValue_eq hN] at h
  dsimp only at h
  split_ifs at h with hlarge
  obtain ⟨q, M, rfl, hlimit⟩ := packedLimit_of_built hN hmax (Bool.eq_false_iff.mpr hlarge)
  cases h
  refine ⟨q, _, rfl, rfl, ?_⟩
  rw [hlimit.ceil_eq]
  exact packedCodec_of hlimit rfl rfl rfl

/-- A maximum that leaves room for the markers can be built. -/
theorem PackedLimit.built {N M : ℕ} {q : ℚ} {precision : UInt8} (h : PackedLimit N M q precision)
    (name : String) (epc : UInt8) (source : UInt16) (announce : Bool)
    (getOperation setOperation : EpcAccessRule) :
    ∃ w, unsignedIntegerPackedFloatProperty N name epc source announce getOperation setOperation
      (.fin q : ExtRat) precision = .ok w := by
  have hsmall : ¬ F64.lt (.fin ((256 ^ N - 3 : ℕ) : ℚ) : ExtRat) (.fin (M : ℚ)) = true := by
    have hlimit := h.lt_markers
    intro hlt
    have hnat : 256 ^ N - 3 < M := by exact_mod_cast (ExtRat.lt_fin_fin _ _).mp hlt
    omega
  rw [unsignedIntegerPackedFloatProperty, packedTypeMaxValue_eq h.size]
  dsimp only
  rw [h.packedMaxValue_eq, if_neg hsmall]
  exact ⟨_, rfl⟩

theorem packed_codec_percentage :
    ∃ p : StaticNodeProperty ExtRat, PackedCodec p 1 0x00 ⌈(100 : ℚ) * scale 0x00⌉ := by
  have hlimit : PackedLimit 1 100 100 0x00 := ⟨Or.inl rfl, by norm_num [scale], by norm_num⟩
  obtain ⟨w, hw⟩ := hlimit.built "Current Limit Setting (%)" epcCurrentLimitSetting 0x0001 false
    .supported .supported
  obtain ⟨q, p, hq, -, hcodec⟩ := packed_codec (Or.inl rfl) (by simp) hw
  rw [ExtRat.fin.inj hq]
  exact ⟨p, hcodec⟩

end Echonet
