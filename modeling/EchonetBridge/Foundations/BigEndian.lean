import Mathlib.Data.List.Basic
import Mathlib.Data.Nat.Notation
import Mathlib.Data.Vector.Basic
import Mathlib.Tactic.Ring

/-!
# Foundations/BigEndian — byte strings as numbers

A byte string read with its first byte as the most significant is a number in base 256.  Its
leading zero bytes are the only ones that can be dropped without changing the number
(`beValue_drop_eq_iff`), and byte strings of one length are told apart by their numbers
(`eq_of_beValue_eq`).  A fixed-width integer and its bytes are the same number.
-/

namespace BigEndian

/-- The number a byte string spells, first byte first. -/
def beValue (bs : List UInt8) : ℕ := bs.foldl (fun acc b => 256 * acc + b.toNat) 0

@[simp] theorem beValue_nil : beValue [] = 0 := rfl

theorem foldl_eq_add (bs : List UInt8) (acc : ℕ) :
    bs.foldl (fun acc b => 256 * acc + b.toNat) acc = acc * 256 ^ bs.length + beValue bs := by
  unfold beValue
  induction bs generalizing acc with
  | nil => simp
  | cons b bs ih =>
    rw [List.foldl_cons, List.foldl_cons, ih, ih (256 * 0 + b.toNat), List.length_cons]
    ring

theorem beValue_cons (b : UInt8) (bs : List UInt8) :
    beValue (b :: bs) = b.toNat * 256 ^ bs.length + beValue bs := by
  rw [beValue, List.foldl_cons, foldl_eq_add, Nat.mul_zero, Nat.zero_add]

theorem beValue_append (as bs : List UInt8) :
    beValue (as ++ bs) = beValue as * 256 ^ bs.length + beValue bs := by
  rw [beValue, List.foldl_append, foldl_eq_add]
  rfl

@[simp] theorem beValue_replicate_zero (n : ℕ) : beValue (List.replicate n 0) = 0 := by
  induction n with
  | zero => rfl
  | succ n ih => rw [List.replicate_succ, beValue_cons, ih]; simp

theorem beValue_lt (bs : List UInt8) : beValue bs < 256 ^ bs.length := by
  induction bs with
  | nil => decide
  | cons b bs ih =>
    have hb := b.toNat_lt
    rw [beValue_cons, List.length_cons, Nat.pow_succ']
    calc b.toNat * 256 ^ bs.length + beValue bs
        < b.toNat * 256 ^ bs.length + 256 ^ bs.length := Nat.add_lt_add_left ih _
      _ = (b.toNat + 1) * 256 ^ bs.length := (Nat.succ_mul _ _).symm
      _ ≤ 256 * 256 ^ bs.length := Nat.mul_le_mul_right _ hb

/-- Byte strings of one length are told apart by their numbers. -/
theorem eq_of_beValue_eq {as bs : List UInt8} (hlen : as.length = bs.length)
    (h : beValue as = beValue bs) : as = bs := by
  induction as generalizing bs with
  | nil => exact (List.length_eq_zero_iff.mp hlen.symm).symm
  | cons a as ih =>
    cases bs with
    | nil => cases hlen
    | cons b bs =>
      have hlen' := Nat.succ.inj hlen
      have hbound := beValue_lt as
      have hbound' := beValue_lt bs
      rw [beValue_cons, beValue_cons, hlen'] at h
      rw [hlen'] at hbound
      have hpos : 0 < 256 ^ bs.length := Nat.pow_pos (by decide)
      have hhead : a.toNat = b.toNat := by
        have hdiv := congrArg (· / 256 ^ bs.length) h
        simpa only [Nat.mul_comm _ (256 ^ bs.length), Nat.mul_add_div hpos, Nat.div_eq_of_lt hbound,
          Nat.div_eq_of_lt hbound', Nat.add_zero] using hdiv
      rw [hhead] at h
      rw [UInt8.toNat_inj.mp hhead, ih hlen' (Nat.add_left_cancel h)]

/-! ## Order -/

/-- A digit decides before those behind it. -/
theorem compare_mul_add {m a b x y : ℕ} (hx : x < m) (hy : y < m) :
    compare (a * m + x) (b * m + y) = (compare a b).then (compare x y) := by
  have hlt {a b x y : ℕ} (hx : x < m) (h : a < b) : a * m + x < b * m + y := by
    calc a * m + x < a * m + m := Nat.add_lt_add_left hx _
      _ = (a + 1) * m := (Nat.succ_mul _ _).symm
      _ ≤ b * m := Nat.mul_le_mul_right m h
      _ ≤ b * m + y := Nat.le_add_right _ _
  rcases Nat.lt_trichotomy a b with h | rfl | h
  · rw [Nat.compare_eq_lt.mpr h, Nat.compare_eq_lt.mpr (hlt hx h)]
    rfl
  · rw [Std.compare_self, Ordering.then]
    rcases Nat.lt_trichotomy x y with h | rfl | h
    · rw [Nat.compare_eq_lt.mpr h, Nat.compare_eq_lt.mpr (Nat.add_lt_add_left h _)]
    · rw [Std.compare_self, Std.compare_self]
    · rw [Nat.compare_eq_gt.mpr h, Nat.compare_eq_gt.mpr (Nat.add_lt_add_left h _)]
  · rw [Nat.compare_eq_gt.mpr h, Nat.compare_eq_gt.mpr (hlt hy h)]
    rfl

theorem compare_toNat (a b : UInt8) : compare a.toNat b.toNat = compare a b := by
  rcases Nat.lt_trichotomy a.toNat b.toNat with h | h | h
  · rw [Nat.compare_eq_lt.mpr h, Std.compare_eq_lt.mpr (UInt8.lt_iff_toNat_lt.mpr h)]
  · rw [UInt8.toNat_inj.mp h, Std.compare_self, Std.compare_self]
  · rw [Nat.compare_eq_gt.mpr h, Std.compare_eq_gt.mpr (UInt8.lt_iff_toNat_lt.mpr h)]

/-- **Byte strings of one length are ordered by their numbers.** -/
theorem compare_beValue {as bs : List UInt8} (hlen : as.length = bs.length) :
    compare (beValue as) (beValue bs) = compare as bs := by
  induction as generalizing bs with
  | nil =>
    rw [List.length_eq_zero_iff.mp hlen.symm]
    rfl
  | cons a as ih =>
    cases bs with
    | nil => cases hlen
    | cons b bs =>
      have hlen' := Nat.succ.inj hlen
      have hlt := beValue_lt as
      rw [hlen'] at hlt
      rw [beValue_cons, beValue_cons, hlen', compare_mul_add hlt (beValue_lt bs), ih hlen',
        compare_toNat, List.compare_cons_cons]

/-! ## Leading zeros -/

/-- How many zero bytes a byte string starts with. -/
def leadingZeros (bs : List UInt8) : ℕ := bs.findIdx (· != 0)

/-- A byte string without its leading zero bytes. -/
def significant (bs : List UInt8) : List UInt8 := bs.drop (leadingZeros bs)

theorem leadingZeros_le (bs : List UInt8) : leadingZeros bs ≤ bs.length := List.findIdx_le_length

@[simp] theorem length_significant (bs : List UInt8) :
    (significant bs).length = bs.length - leadingZeros bs := List.length_drop

@[simp] theorem leadingZeros_cons (b : UInt8) (bs : List UInt8) :
    leadingZeros (b :: bs) = if b = 0 then leadingZeros bs + 1 else 0 := by
  rw [leadingZeros, List.findIdx_cons]
  by_cases hb : b = 0
  · simp [hb, leadingZeros]
  · rw [if_neg hb, bne_iff_ne.mpr hb, cond_true]

/-- A prefix spells zero exactly when it is made of leading zeros. -/
theorem beValue_take_eq_zero_iff {bs : List UInt8} {k : ℕ} (h : k ≤ bs.length) :
    beValue (bs.take k) = 0 ↔ k ≤ leadingZeros bs := by
  induction bs generalizing k with
  | nil => simp_all
  | cons b bs ih =>
    cases k with
    | zero => simp
    | succ k =>
      rw [List.take_succ_cons, beValue_cons, Nat.add_eq_zero_iff, Nat.mul_eq_zero,
        ih (Nat.le_of_succ_le_succ h), leadingZeros_cons]
      by_cases hb : b = 0
      · simp [hb]
      · have hb' : b.toNat ≠ 0 := fun h0 => hb (UInt8.toNat_inj.mp h0)
        simp [hb, hb']

/-- **Only leading zeros can be dropped** without changing the number. -/
theorem beValue_drop_eq_iff {bs : List UInt8} {k : ℕ} (h : k ≤ bs.length) :
    beValue (bs.drop k) = beValue bs ↔ k ≤ leadingZeros bs := by
  have hpos : 0 < 256 ^ (bs.drop k).length := Nat.pow_pos (by decide)
  have hsplit := beValue_append (bs.take k) (bs.drop k)
  rw [List.take_append_drop] at hsplit
  rw [← beValue_take_eq_zero_iff h, hsplit, eq_comm, Nat.add_eq_right, Nat.mul_eq_zero,
    or_iff_left hpos.ne']

/-! ## Fixed-width integers -/

def toBeBytes₁₆ (v : UInt16) : Vector UInt8 2 := #v[(v >>> 8).toUInt8, v.toUInt8]

def fromBeBytes₁₆ (bytes : Vector UInt8 2) : UInt16 :=
  (bytes[0].toUInt16 <<< 8) ||| bytes[1].toUInt16

def toBeBytes₃₂ (v : UInt32) : Vector UInt8 4 :=
  #v[(v >>> 24).toUInt8, (v >>> 16).toUInt8, (v >>> 8).toUInt8, v.toUInt8]

def fromBeBytes₃₂ (bytes : Vector UInt8 4) : UInt32 :=
  (bytes[0].toUInt32 <<< 24) ||| (bytes[1].toUInt32 <<< 16) ||| (bytes[2].toUInt32 <<< 8)
    ||| bytes[3].toUInt32

def toBeBytes₆₄ (v : UInt64) : Vector UInt8 8 :=
  #v[(v >>> 56).toUInt8, (v >>> 48).toUInt8, (v >>> 40).toUInt8, (v >>> 32).toUInt8,
    (v >>> 24).toUInt8, (v >>> 16).toUInt8, (v >>> 8).toUInt8, v.toUInt8]

/-! ## Their numbers -/

theorem toList_eq_ofFn {α : Type} {n : ℕ} (v : Vector α n) :
    v.toList = List.ofFn fun i : Fin n => v[i] :=
  List.ext_getElem (by simp) fun i _ _ => by simp

theorem toList_two {α : Type} (v : Vector α 2) : v.toList = [v[0], v[1]] := toList_eq_ofFn v

theorem toList_four {α : Type} (v : Vector α 4) : v.toList = [v[0], v[1], v[2], v[3]] :=
  toList_eq_ofFn v

/-- Disjoint bits are added. -/
theorem or_eq_add {x y k : ℕ} (h : y < 2 ^ k) : 2 ^ k * x ||| y = 2 ^ k * x + y := by
  rw [Nat.mul_comm, ← Nat.shiftLeft_eq, Nat.shiftLeft_add_eq_or_of_lt h]

theorem toNat_fromBeBytes₁₆ (bytes : Vector UInt8 2) :
    (fromBeBytes₁₆ bytes).toNat = beValue bytes.toList := by
  have h0 := bytes[0].toNat_lt
  have h1 := bytes[1].toNat_lt
  have hshift : bytes[0].toNat <<< 8 % 2 ^ 16 = 2 ^ 8 * bytes[0].toNat := by
    rw [Nat.shiftLeft_eq]
    omega
  calc (fromBeBytes₁₆ bytes).toNat
      = bytes[0].toNat <<< 8 % 2 ^ 16 ||| bytes[1].toNat := by simp [fromBeBytes₁₆]
    _ = 2 ^ 8 * bytes[0].toNat + bytes[1].toNat := by rw [hshift, or_eq_add h1]
    _ = beValue bytes.toList := by simp [toList_two, beValue]

theorem beValue_toBeBytes₁₆ (v : UInt16) : beValue (toBeBytes₁₆ v).toList = v.toNat := by
  have hv := v.toNat_lt
  simp [toBeBytes₁₆, beValue]
  omega

theorem toNat_fromBeBytes₃₂ (bytes : Vector UInt8 4) :
    (fromBeBytes₃₂ bytes).toNat = beValue bytes.toList := by
  have h0 := bytes[0].toNat_lt
  have h1 := bytes[1].toNat_lt
  have h2 := bytes[2].toNat_lt
  have h3 := bytes[3].toNat_lt
  have hshift0 : bytes[0].toNat <<< 24 % 2 ^ 32 = 2 ^ 24 * bytes[0].toNat := by
    rw [Nat.shiftLeft_eq]
    omega
  have hshift1 : bytes[1].toNat <<< 16 % 2 ^ 32 = 2 ^ 16 * bytes[1].toNat := by
    rw [Nat.shiftLeft_eq]
    omega
  have hshift2 : bytes[2].toNat <<< 8 % 2 ^ 32 = 2 ^ 8 * bytes[2].toNat := by
    rw [Nat.shiftLeft_eq]
    omega
  have hsum1 : 2 ^ 24 * bytes[0].toNat + 2 ^ 16 * bytes[1].toNat
      = 2 ^ 16 * (2 ^ 8 * bytes[0].toNat + bytes[1].toNat) := by omega
  have hsum2 (x : ℕ) : 2 ^ 16 * x + 2 ^ 8 * bytes[2].toNat
      = 2 ^ 8 * (2 ^ 8 * x + bytes[2].toNat) := by omega
  calc (fromBeBytes₃₂ bytes).toNat
      = bytes[0].toNat <<< 24 % 2 ^ 32 ||| bytes[1].toNat <<< 16 % 2 ^ 32 |||
          bytes[2].toNat <<< 8 % 2 ^ 32 ||| bytes[3].toNat := by simp [fromBeBytes₃₂]
    _ = 2 ^ 8 * (2 ^ 8 * (2 ^ 8 * bytes[0].toNat + bytes[1].toNat) + bytes[2].toNat)
          + bytes[3].toNat := by
      rw [hshift0, hshift1, hshift2, or_eq_add (by omega), hsum1, or_eq_add (by omega), hsum2,
        or_eq_add h3]
    _ = beValue bytes.toList := by simp [toList_four, beValue]

theorem beValue_toBeBytes₃₂ (v : UInt32) : beValue (toBeBytes₃₂ v).toList = v.toNat := by
  have hv := v.toNat_lt
  simp [toBeBytes₃₂, beValue]
  omega

/-- A byte of a number, behind the more significant ones. -/
theorem shiftRight_add_byte (n k : ℕ) : 256 * (n >>> (k + 8)) + n >>> k % 256 = n >>> k := by
  rw [Nat.shiftRight_add, Nat.shiftRight_eq_div_pow (n >>> k) 8]
  exact Nat.div_add_mod (n >>> k) 256

theorem beValue_toBeBytes₆₄ (v : UInt64) : beValue (toBeBytes₆₄ v).toList = v.toNat := by
  have hv := v.toNat_lt
  have hfirst : v.toNat >>> 56 % 256 = v.toNat >>> 56 := by
    rw [Nat.shiftRight_eq_div_pow]
    omega
  simp only [toBeBytes₆₄, beValue, List.foldl_cons, List.foldl_nil, Vector.toList_mk,
    UInt64.toNat_toUInt8, UInt64.toNat_shiftRight, UInt64.reduceToNat, Nat.reduceMod, Nat.mul_zero,
    Nat.zero_add, Nat.reducePow]
  rw [hfirst, shiftRight_add_byte _ 48, shiftRight_add_byte _ 40, shiftRight_add_byte _ 32,
    shiftRight_add_byte _ 24, shiftRight_add_byte _ 16, shiftRight_add_byte _ 8]
  exact shiftRight_add_byte v.toNat 0

/-! ## Round trips -/

@[simp] theorem fromBeBytes_toBeBytes₁₆ (v : UInt16) : fromBeBytes₁₆ (toBeBytes₁₆ v) = v := by
  rw [← UInt16.toNat_inj, toNat_fromBeBytes₁₆, beValue_toBeBytes₁₆]

theorem toBeBytes₆₄_inj {v w : UInt64} (h : toBeBytes₆₄ v = toBeBytes₆₄ w) : v = w := by
  rw [← UInt64.toNat_inj, ← beValue_toBeBytes₆₄, ← beValue_toBeBytes₆₄, h]

end BigEndian
