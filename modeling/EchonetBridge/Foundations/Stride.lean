import Mathlib.Data.Nat.Notation
import Mathlib.Tactic.Ring

/-!
# Foundations/Stride — blocks read at the wrong stride

Blocks of `p + 1` values lie one behind the other, and are read one value apart instead of one block
apart.  What is read is what was written exactly when all values but the first repeat with period
`p` (`stride_one_iff`).
-/

namespace Stride

variable {α : Type*} {f : ℕ → α} {p N : ℕ}

/-- A step of the period can be taken any number of times. -/
theorem period_mul (h : ∀ k, 1 ≤ k → k + p < N → f (k + p) = f k) (m : ℕ) :
    ∀ k, 1 ≤ k → k + p * m < N → f (k + p * m) = f k := by
  induction m with
  | zero => exact fun k _ _ => rfl
  | succ m ih =>
    intro k hk hlt
    have hsplit : k + p * (m + 1) = k + p * m + p := by ring
    rw [hsplit] at hlt ⊢
    rw [h (k + p * m) (by omega) hlt, ih k hk (by omega)]

/-- Blocks read at stride one: every value but the first is that of its place in the period. -/
theorem eq_of_stride_one {n : ℕ} (hp : 0 < p)
    (h : ∀ i < n, ∀ j ≤ p, f (i + j) = f ((p + 1) * i + j)) :
    ∀ k, 1 ≤ k → k < (p + 1) * n → f k = f ((k - 1) % p + 1) := by
  intro k
  induction k using Nat.strongRecOn with
  | ind k ih =>
    intro hk hlt
    have hmod : k % (p + 1) < p + 1 := Nat.mod_lt k (Nat.succ_pos p)
    have hdiv := Nat.div_add_mod k (p + 1)
    have hi : k / (p + 1) < n := Nat.div_lt_of_lt_mul hlt
    have hread := h _ hi _ (Nat.le_of_lt_succ hmod)
    rcases Nat.eq_zero_or_pos (k / (p + 1)) with h0 | hpos
    · rw [h0, Nat.mul_zero, Nat.zero_add] at hdiv
      rw [Nat.mod_eq_of_lt (by omega), Nat.sub_add_cancel hk]
    · -- The value is read from an earlier place, a multiple of the period before.
      have hmul : 1 ≤ p * (k / (p + 1)) := Nat.mul_pos hp hpos
      have hsplit : k = k / (p + 1) + k % (p + 1) + p * (k / (p + 1)) := by
        rw [Nat.add_mul, Nat.one_mul] at hdiv
        omega
      have hprev := ih (k / (p + 1) + k % (p + 1)) (by omega) (by omega) (by omega)
      rw [hdiv] at hread
      have hplace : (k / (p + 1) + k % (p + 1) - 1) % p = (k - 1) % p := by
        have hsub : k - 1 = k / (p + 1) + k % (p + 1) - 1 + p * (k / (p + 1)) := by omega
        rw [hsub, Nat.add_mul_mod_self_left]
      rw [← hread, hprev, hplace]

/-- **Blocks read at stride one are right** exactly when all values but the first repeat. -/
theorem stride_one_iff {n : ℕ} (hp : 0 < p) :
    (∀ i < n, ∀ j ≤ p, f (i + j) = f ((p + 1) * i + j)) ↔
      ∀ k, 1 ≤ k → k + p < (p + 1) * n → f (k + p) = f k := by
  constructor
  · intro h k hk hlt
    have hplace : (k + p - 1) % p = (k - 1) % p := by
      rw [Nat.sub_add_comm hk, Nat.add_mod_right]
    rw [eq_of_stride_one hp h k hk (by omega), eq_of_stride_one hp h (k + p) (by omega) hlt, hplace]
  · intro h i hi j hj
    rcases Nat.eq_zero_or_pos i with rfl | hpos
    · rw [Nat.mul_zero]
    · have hsplit : (p + 1) * i + j = i + j + p * i := by ring
      have hlt : (p + 1) * i + j < (p + 1) * n := by
        have hle : (p + 1) * (i + 1) ≤ (p + 1) * n := Nat.mul_le_mul_left _ hi
        rw [Nat.mul_add, Nat.mul_one] at hle
        omega
      rw [hsplit] at hlt ⊢
      exact (period_mul h i (i + j) (by omega) hlt).symm

end Stride
