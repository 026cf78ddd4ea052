import Mathlib.Algebra.BigOperators.Group.Finset.Sigma
import Mathlib.Algebra.BigOperators.Intervals
import Mathlib.Data.Nat.Bitwise
import Mathlib.Data.List.Induction
import Mathlib.Tactic.IntervalCases

/-!
# Foundations/Bits — the bits of machine words

A word is the function `k ↦ w.toNat.testBit k` on its width.  Each masking idiom is one lemma on
that function: testing, setting and clearing one bit, moving one bit between widths, and shifting
bits in from the right one at a time (`testBit_shiftIn`).
-/

namespace Bits

/-- A fact about bytes, checked one byte at a time. -/
@[elab_as_elim]
theorem forall_byte {motive : UInt8 → Prop} (b : UInt8)
    (h : ∀ n < 256, motive (UInt8.ofNat n)) : motive b := by
  rw [← UInt8.ofNat_toNat (x := b)]
  exact h b.toNat b.toNat_lt

/-! ## Words are determined by their bits -/

/-- A 16-bit word has no bit from 16 on. -/
theorem testBit_of_le₁₆ (w : UInt16) {k : ℕ} (h : 16 ≤ k) : w.toNat.testBit k = false :=
  Nat.testBit_lt_two_pow (lt_of_lt_of_le w.toNat_lt (Nat.pow_le_pow_right (by decide) h))

/-- A byte has no bit from 8 on. -/
theorem testBit_of_le₈ (w : UInt8) {k : ℕ} (h : 8 ≤ k) : w.toNat.testBit k = false :=
  Nat.testBit_lt_two_pow (lt_of_lt_of_le w.toNat_lt (Nat.pow_le_pow_right (by decide) h))

theorem ext₁₆ {w v : UInt16} (h : ∀ k < 16, w.toNat.testBit k = v.toNat.testBit k) : w = v := by
  refine UInt16.toNat_inj.mp (Nat.eq_of_testBit_eq fun k => ?_)
  rcases lt_or_ge k 16 with hk | hk
  · exact h k hk
  · rw [testBit_of_le₁₆ w hk, testBit_of_le₁₆ v hk]

theorem ext₈ {w v : UInt8} (h : ∀ k < 8, w.toNat.testBit k = v.toNat.testBit k) : w = v := by
  refine UInt8.toNat_inj.mp (Nat.eq_of_testBit_eq fun k => ?_)
  rcases lt_or_ge k 8 with hk | hk
  · exact h k hk
  · rw [testBit_of_le₈ w hk, testBit_of_le₈ v hk]

/-! ## One-bit masks -/

/-- The mask `1 << k`. -/
theorem toNat_mask₁₆ {k : ℕ} (h : k < 16) : ((1 : UInt16) <<< UInt16.ofNat k).toNat = 2 ^ k := by
  interval_cases k <;> rfl

theorem toNat_mask₈ {k : ℕ} (h : k < 8) : ((1 : UInt8) <<< UInt8.ofNat k).toNat = 2 ^ k := by
  interval_cases k <;> rfl

/-- Masking one bit leaves a nonzero word exactly when the bit is set. -/
theorem and_mask_ne_zero₁₆ (w : UInt16) {k : ℕ} (h : k < 16) :
    (w &&& ((1 : UInt16) <<< UInt16.ofNat k) != 0) = w.toNat.testBit k := by
  have hand : (w &&& ((1 : UInt16) <<< UInt16.ofNat k)).toNat
      = 2 ^ k * (w.toNat.testBit k).toNat := by
    rw [UInt16.toNat_and, toNat_mask₁₆ h, Nat.and_two_pow]
    exact Nat.mul_comm _ _
  cases hb : w.toNat.testBit k
  · rw [hb] at hand
    have h0 : w &&& ((1 : UInt16) <<< UInt16.ofNat k) = 0 :=
      UInt16.toNat_inj.mp (by simpa using hand)
    simp [h0]
  · rw [hb] at hand
    have hne : w &&& ((1 : UInt16) <<< UInt16.ofNat k) ≠ 0 := fun h0 => by
      rw [h0] at hand
      have hpos := Nat.two_pow_pos k
      simp only [UInt16.toNat_zero, Bool.toNat_true, Nat.mul_one] at hand
      omega
    simpa using hne

/-- Setting a bit. -/
theorem testBit_or_mask₁₆ (w : UInt16) {k : ℕ} (h : k < 16) (i : ℕ) :
    (w ||| ((1 : UInt16) <<< UInt16.ofNat k)).toNat.testBit i = (w.toNat.testBit i || i == k) := by
  rw [UInt16.toNat_or, toNat_mask₁₆ h, Nat.testBit_or, Nat.testBit_two_pow]
  congr 1
  exact decide_eq_decide.mpr eq_comm

/-- Clearing a bit. -/
theorem testBit_and_not_mask₁₆ (w : UInt16) {k : ℕ} (h : k < 16) (i : ℕ) :
    (w &&& ~~~((1 : UInt16) <<< UInt16.ofNat k)).toNat.testBit i
      = (w.toNat.testBit i && i != k) := by
  rcases lt_or_ge i 16 with hi | hi
  · rw [UInt16.toNat_and, Nat.testBit_and, UInt16.toNat_not, toNat_mask₁₆ h]
    have hpow : 2 ^ k < 2 ^ 16 := Nat.pow_lt_pow_right (by decide) h
    have hsize : UInt16.size - 1 - 2 ^ k = 2 ^ 16 - (2 ^ k + 1) := by simp only [UInt16.size]; omega
    rw [hsize, Nat.testBit_two_pow_sub_succ hpow, Nat.testBit_two_pow]
    have : decide (k = i) = (i == k) := decide_eq_decide.mpr eq_comm
    simp [hi, this, bne]
  · rw [testBit_of_le₁₆ _ hi, testBit_of_le₁₆ _ hi, Bool.false_and]

/-! ## Moving one bit -/

/-- A bit as a word. -/
def ofBit (b : Bool) : UInt16 := if b then 1 else 0

@[simp] theorem toNat_ofBit (b : Bool) : (ofBit b).toNat = b.toNat := by cases b <;> rfl

/-- Bit `i` of a byte, masked and shifted down, as a 16-bit word. -/
theorem masked_shift_eq_ofBit (b : UInt8) {i : ℕ} (h : i < 8) :
    ((b &&& ((1 : UInt8) <<< UInt8.ofNat i)) >>> UInt8.ofNat i).toUInt16
      = ofBit (b.toNat.testBit i) := by
  have hi : (UInt8.ofNat i).toNat % 8 = i := by interval_cases i <;> rfl
  refine UInt16.toNat_inj.mp ?_
  rw [UInt8.toNat_toUInt16, UInt8.toNat_shiftRight, UInt8.toNat_and, toNat_mask₈ h, hi,
    toNat_ofBit, Nat.and_two_pow, Nat.shiftRight_eq_div_pow,
    Nat.mul_div_cancel _ (Nat.two_pow_pos i)]

/-- The lowest bit of a word, moved to bit `i` of a byte. -/
theorem testBit_low_shift (w : UInt16) {i : ℕ} (h : i < 8) (k : ℕ) :
    ((w &&& 1).toUInt8 <<< UInt8.ofNat i).toNat.testBit k = (w.toNat.testBit 0 && k == i) := by
  have hi : (UInt8.ofNat i).toNat % 8 = i := by interval_cases i <;> rfl
  have hlow : (w &&& 1).toUInt8.toNat = (w.toNat.testBit 0).toNat := by
    rw [UInt16.toNat_toUInt8, UInt16.toNat_and, UInt16.toNat_one, Nat.and_one_is_mod,
      Nat.testBit_zero]
    rcases Nat.mod_two_eq_zero_or_one w.toNat with h0 | h1 <;> simp [*]
  rw [UInt8.toNat_shiftLeft, hlow, hi]
  cases w.toNat.testBit 0
  · simp
  · have hpow : 2 ^ i < 2 ^ 8 := Nat.pow_lt_pow_right (by decide) h
    rw [Bool.toNat_true, Nat.one_shiftLeft, Nat.mod_eq_of_lt hpow, Nat.testBit_two_pow,
      Bool.true_and]
    exact decide_eq_decide.mpr eq_comm

/-- Dropping the lowest bit. -/
theorem testBit_shiftRight_one (w : UInt16) (k : ℕ) :
    (w >>> 1).toNat.testBit k = w.toNat.testBit (k + 1) := by
  rw [UInt16.toNat_shiftRight, show (1 : UInt16).toNat % 16 = 1 from rfl, Nat.testBit_shiftRight,
    Nat.add_comm]

/-! ## Shifting bits in -/

/-- One bit shifted in from the right. -/
def shiftIn (w : UInt16) (b : Bool) : UInt16 := (w <<< 1) ||| ofBit b

theorem testBit_shiftIn_zero (w : UInt16) (b : Bool) : (shiftIn w b).toNat.testBit 0 = b := by
  rw [shiftIn, UInt16.toNat_or, Nat.testBit_or, UInt16.toNat_shiftLeft, toNat_ofBit,
    show (1 : UInt16).toNat % 16 = 1 from rfl, Nat.testBit_mod_two_pow, Nat.testBit_shiftLeft]
  cases b <;> rfl

theorem testBit_shiftIn_succ (w : UInt16) (b : Bool) {k : ℕ} (h : k + 1 < 16) :
    (shiftIn w b).toNat.testBit (k + 1) = w.toNat.testBit k := by
  have hb : b.toNat.testBit (k + 1) = false :=
    Nat.testBit_lt_two_pow (lt_of_le_of_lt (Bool.toNat_le b) (Nat.one_lt_two_pow (by omega)))
  rw [shiftIn, UInt16.toNat_or, Nat.testBit_or, UInt16.toNat_shiftLeft, toNat_ofBit,
    show (1 : UInt16).toNat % 16 = 1 from rfl, Nat.testBit_mod_two_pow, Nat.testBit_shiftLeft, hb]
  simp [h]

/-- **Bits shifted in one after another stand in the word in reverse order.** -/
theorem testBit_foldl_shiftIn (bs : List Bool) {k : ℕ} (hk : k < 16) :
    (bs.foldl shiftIn 0).toNat.testBit k = bs.reverse.getD k false := by
  induction bs using List.reverseRecOn generalizing k with
  | nil => simp
  | append_singleton bs b ih =>
    rw [List.foldl_append, List.foldl_cons, List.foldl_nil, List.reverse_append,
      List.reverse_singleton, List.singleton_append]
    cases k with
    | zero => rw [testBit_shiftIn_zero, List.getD_cons_zero]
    | succ k => rw [testBit_shiftIn_succ _ _ hk, ih (by omega), List.getD_cons_succ]

/-! ## Counting bits -/

/-- The number of ones in the binary representation. -/
def countOnes (w : UInt16) : ℕ := (List.range 16).countP w.toNat.testBit

/-- The number of ones of a byte. -/
def byteOnes (b : UInt8) : ℕ := (List.range 8).countP b.toNat.testBit

theorem countP_range_eq_sum (p : ℕ → Bool) (n : ℕ) :
    (List.range n).countP p = ∑ k ∈ Finset.range n, (p k).toNat := by
  induction n with
  | zero => rfl
  | succ n ih =>
    rw [List.range_succ, List.countP_append, Finset.sum_range_succ, ih, List.countP_singleton]
    cases p n <;> rfl

theorem sum_map_eq_sum_range (f : UInt8 → ℕ) (bytes : List UInt8) :
    (bytes.map f).sum = ∑ j ∈ Finset.range bytes.length, f (bytes.getD j 0) := by
  induction bytes with
  | nil => rfl
  | cons b bytes ih =>
    rw [List.map_cons, List.sum_cons, List.length_cons, Finset.sum_range_succ', ih, Nat.add_comm]
    rfl

/-- The ones of a block of bytes, summed bit position by bit position. -/
theorem sum_byteOnes (bytes : List UInt8) :
    (bytes.map byteOnes).sum
      = ∑ i ∈ Finset.range 8, ∑ j ∈ Finset.range bytes.length,
          ((bytes.getD j 0).toNat.testBit i).toNat := by
  rw [sum_map_eq_sum_range, Finset.sum_comm]
  exact Finset.sum_congr rfl fun j _ => countP_range_eq_sum _ _

/-- A sum over blocks of sixteen. -/
theorem sum_range_blocks (f : ℕ → ℕ) (n : ℕ) :
    ∑ k ∈ Finset.range (16 * n), f k
      = ∑ i ∈ Finset.range n, ∑ j ∈ Finset.range 16, f (16 * i + j) := by
  induction n with
  | zero => rw [Nat.mul_zero, Finset.sum_range_zero, Finset.sum_range_zero]
  | succ n ih =>
    rw [Nat.mul_succ, Finset.sum_range_add, ih]
    exact (Finset.sum_range_succ _ n).symm

end Bits
