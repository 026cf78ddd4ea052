import Mathlib.Algebra.Order.Floor.Ring
import Mathlib.Data.Rat.Floor

/-!
# Foundations/ExtendedRational — exact arithmetic with infinities

The rationals with two infinities and a value that is not a number: floating-point arithmetic that
never rounds.  Zero has no sign, and what is divided by it keeps its own.  On finite values the
operations are those of the rationals.
-/

/-- A rational, an infinity, or no number. -/
inductive ExtRat where
  | negInf
  | fin (q : ℚ)
  | posInf
  | nan
  deriving DecidableEq

namespace ExtRat

/-! ## Arithmetic -/

def neg : ExtRat → ExtRat
  | negInf => posInf
  | fin q => fin (-q)
  | posInf => negInf
  | nan => nan

/-- The infinity with the sign of a rational; zero has none. -/
def infOfSign (q : ℚ) : ExtRat := if 0 < q then posInf else if q < 0 then negInf else nan

def mul : ExtRat → ExtRat → ExtRat
  | fin p, fin q => fin (p * q)
  | fin p, posInf | posInf, fin p => infOfSign p
  | fin p, negInf | negInf, fin p => infOfSign (-p)
  | posInf, posInf | negInf, negInf => posInf
  | posInf, negInf | negInf, posInf => negInf
  | nan, _ | _, nan => nan

def inv : ExtRat → ExtRat
  | fin q => if q = 0 then posInf else fin q⁻¹
  | negInf | posInf => fin 0
  | nan => nan

def div (x y : ExtRat) : ExtRat := x.mul y.inv

/-- A power with an integer exponent. -/
def powi (x : ExtRat) (n : ℤ) : ExtRat :=
  if n = 0 then fin 1
  else
    match x with
    | fin q => if q = 0 ∧ n < 0 then posInf else fin (q ^ n)
    | posInf => if 0 < n then posInf else fin 0
    | negInf => if 0 < n then if n % 2 = 0 then posInf else negInf else fin 0
    | nan => nan

@[simp] theorem mul_fin_fin (p q : ℚ) : (fin p).mul (fin q) = fin (p * q) := rfl

@[simp] theorem negInf_mul_fin {q : ℚ} (h : 0 < q) : negInf.mul (fin q) = negInf := by
  rw [mul, infOfSign, if_neg (by linarith), if_pos (by linarith)]

@[simp] theorem posInf_mul_fin {q : ℚ} (h : 0 < q) : posInf.mul (fin q) = posInf := if_pos h

/-- Dividing by a finite value that is not zero is multiplying by its inverse. -/
theorem div_fin (x : ExtRat) {q : ℚ} (h : q ≠ 0) : x.div (fin q) = x.mul (fin q⁻¹) := by
  rw [div, inv, if_neg h]

@[simp] theorem powi_fin {q : ℚ} (hq : q ≠ 0) (n : ℤ) : (fin q).powi n = fin (q ^ n) := by
  by_cases hn : n = 0
  · rw [powi, if_pos hn, hn, zpow_zero]
  · rw [powi, if_neg hn]
    exact if_neg fun h => hq h.1

/-! ## Rounding -/

/-- The nearest integer; halves are rounded away from zero. -/
def roundAway (q : ℚ) : ℤ := if 0 ≤ q then ⌊q + 1 / 2⌋ else ⌈q - 1 / 2⌉

def ceil : ExtRat → ExtRat
  | fin q => fin ⌈q⌉
  | x => x

def round : ExtRat → ExtRat
  | fin q => fin (roundAway q)
  | x => x

@[simp] theorem roundAway_intCast (k : ℤ) : roundAway k = k := by
  unfold roundAway
  split_ifs
  · rw [Int.floor_intCast_add]
    norm_num
  · rw [sub_eq_add_neg, Int.ceil_intCast_add]
    norm_num

/-! ## Comparisons -/

/-- Equality of numbers. -/
def beq (x y : ExtRat) : Bool := x ≠ nan ∧ x = y

def le : ExtRat → ExtRat → Bool
  | nan, _ | _, nan => false
  | negInf, _ | _, posInf => true
  | fin p, fin q => p ≤ q
  | _, _ => false

def lt : ExtRat → ExtRat → Bool
  | nan, _ | _, nan => false
  | negInf, negInf | posInf, _ | _, negInf => false
  | negInf, _ | _, posInf => true
  | fin p, fin q => p < q

def isNan (x : ExtRat) : Bool := x = nan

/-- Less than zero. -/
def isNegative (x : ExtRat) : Bool := x.lt (fin 0)

@[simp] theorem le_fin_fin (p q : ℚ) : (fin p).le (fin q) = true ↔ p ≤ q := decide_eq_true_iff

@[simp] theorem lt_fin_fin (p q : ℚ) : (fin p).lt (fin q) = true ↔ p < q := decide_eq_true_iff

@[simp] theorem beq_fin_fin (p q : ℚ) : (fin p).beq (fin q) = true ↔ p = q := by simp [beq]

@[simp] theorem isNan_fin (q : ℚ) : (fin q).isNan = false := rfl

@[simp] theorem isNegative_fin (q : ℚ) : (fin q).isNegative = true ↔ q < 0 := lt_fin_fin q 0

/-! ## Conversions -/

/-- Truncated to a natural number, and saturated at a bound. -/
def toNatClamped (bound : ℕ) : ExtRat → ℕ
  | negInf | nan => 0
  | fin q => min ⌊q⌋.toNat bound
  | posInf => bound

theorem toNatClamped_natCast {bound n : ℕ} (h : n ≤ bound) :
    (fin (n : ℚ)).toNatClamped bound = n := by
  rw [toNatClamped, Int.floor_natCast, Int.toNat_natCast, min_eq_left h]

end ExtRat
