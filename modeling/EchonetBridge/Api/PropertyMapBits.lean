import EchonetBridge.Api.PropertyMap
import Mathlib.Data.Finset.Card
import Mathlib.Data.Finset.Range
import Mathlib.Data.Fintype.Basic

/-!
# Api/PropertyMapBits — what each operation does to the bits and to the count

`bitAt v k` reads the bit of code `0x80 + k`, and `slot` numbers the valid codes.  The checked
setters change one bit and the count with it (`enableOperation_spec`, `disableOperation_spec`), so
`Counted` — the count is the number of set bits — is kept by every operation.
-/

namespace Echonet

open Bits Outcome

namespace NodeObjectPropertyMap

/-! ## Codes and slots -/

/-- The number of a valid code, from `0` for `0x80` to `127` for `0xff`. -/
def slot (operation : UInt8) : ℕ := operation.toNat % 128

theorem slot_lt (operation : UInt8) : slot operation < 128 := Nat.mod_lt _ (by decide)

theorem le_toNat {operation : UInt8} (h : 0x80 ≤ operation) : 0x80 ≤ operation.toNat :=
  UInt8.le_iff_toNat_le.mp h

theorem toNat_eq_add_slot {operation : UInt8} (h : 0x80 ≤ operation) :
    operation.toNat = 0x80 + slot operation := by
  have hlt := operation.toNat_lt
  have hle := le_toNat h
  unfold slot
  omega

theorem toNat_sub_base {operation : UInt8} (h : 0x80 ≤ operation) :
    (operation - 0x80).toNat = slot operation := by
  rw [UInt8.toNat_sub_of_le _ _ h, toNat_eq_add_slot h]
  exact Nat.add_sub_cancel_left 0x80 _

theorem row_eq {operation : UInt8} (h : 0x80 ≤ operation) :
    row operation = slot operation / 16 := by
  rw [row, UInt8.toNat_shiftRight, toNat_sub_base h, Nat.shiftRight_eq_div_pow]
  rfl

theorem row_lt {operation : UInt8} (h : 0x80 ≤ operation) : row operation < 8 := by
  have := slot_lt operation
  rw [row_eq h]
  omega

theorem mask_eq {operation : UInt8} (h : 0x80 ≤ operation) :
    mask operation = 1 <<< UInt16.ofNat (slot operation % 16) := by
  have hlow : (operation &&& 0x0f).toUInt16 = UInt16.ofNat (slot operation % 16) := by
    have hmod : slot operation % 16 < UInt16.size := lt_trans (Nat.mod_lt _ (by decide)) (by decide)
    refine UInt16.toNat_inj.mp ?_
    rw [UInt8.toNat_toUInt16, UInt8.toNat_and, UInt16.toNat_ofNat_of_lt' hmod,
      show (0x0f : UInt8).toNat = 2 ^ 4 - 1 from rfl, Nat.and_two_pow_sub_one_eq_mod,
      toNat_eq_add_slot h]
    omega
  rw [mask, hlow]

/-- The code of a slot. -/
def codeOf (k : ℕ) : UInt8 := 0x80 + UInt8.ofNat k

theorem toNat_codeOf {k : ℕ} (h : k < 128) : (codeOf k).toNat = 0x80 + k := by
  have hsize : k < UInt8.size := lt_trans h (by decide)
  rw [codeOf, UInt8.toNat_add, UInt8.toNat_ofNat_of_lt' hsize]
  exact Nat.mod_eq_of_lt (Nat.add_lt_add_left h 128)

theorem slot_codeOf {k : ℕ} (h : k < 128) : slot (codeOf k) = k := by
  rw [slot, toNat_codeOf h, Nat.add_mod_left, Nat.mod_eq_of_lt h]

theorem le_codeOf {k : ℕ} (h : k < 128) : 0x80 ≤ codeOf k := by
  rw [UInt8.le_iff_toNat_le, toNat_codeOf h]
  exact Nat.le_add_right _ _

theorem codeOf_slot {operation : UInt8} (h : 0x80 ≤ operation) :
    codeOf (slot operation) = operation := by
  refine UInt8.toNat_inj.mp ?_
  rw [toNat_codeOf (slot_lt operation), toNat_eq_add_slot h]

theorem slot_injOn {c d : UInt8} (hc : 0x80 ≤ c) (hd : 0x80 ≤ d) (h : slot c = slot d) : c = d := by
  rw [← codeOf_slot hc, h, codeOf_slot hd]

/-! ## The bits of the eight words -/

/-- Bit `k % 16` of word `k / 16`: the bit of code `0x80 + k`. -/
def bitAt (v : Vector UInt16 8) (k : ℕ) : Bool := (v[k / 16]?.getD 0).toNat.testBit (k % 16)

theorem bitAt_eq (v : Vector UInt16 8) {i j : ℕ} (hi : i < 8) (hj : j < 16) :
    bitAt v (16 * i + j) = v[i].toNat.testBit j := by
  have hdiv : (16 * i + j) / 16 = i := by omega
  have hmod : (16 * i + j) % 16 = j := by omega
  rw [bitAt, hdiv, hmod, Vector.getElem?_eq_getElem hi, Option.getD_some]

theorem bitAt_of_lt (v : Vector UInt16 8) {k : ℕ} (h : k < 128) :
    bitAt v k = (v[k / 16]).toNat.testBit (k % 16) := by
  rw [bitAt, Vector.getElem?_eq_getElem (by omega), Option.getD_some]

/-- The words are determined by the bits of the 128 codes. -/
theorem words_ext {v w : Vector UInt16 8} (h : ∀ k < 128, bitAt v k = bitAt w k) : v = w := by
  refine Vector.ext fun i hi => ext₁₆ fun j hj => ?_
  rw [← bitAt_eq v hi hj, ← bitAt_eq w hi hj]
  exact h _ (by omega)

@[simp] theorem bitAt_zero (k : ℕ) : bitAt (Vector.replicate 8 0x0000) k = false := by
  rw [bitAt]
  rcases lt_or_ge (k / 16) 8 with h | h
  · rw [Vector.getElem?_eq_getElem h, Vector.getElem_replicate]
    simp
  · rw [Vector.getElem?_eq_none h]
    simp

/-- Rewriting one word rewrites the sixteen bits of its row. -/
theorem bitAt_set (v : Vector UInt16 8) {i : ℕ} (hi : i < 8) (w : UInt16) (k : ℕ) :
    bitAt (v.set i w) k = if k / 16 = i then w.toNat.testBit (k % 16) else bitAt v k := by
  rw [bitAt, Vector.getElem?_set hi]
  split_ifs with h1 h2 h2
  · rfl
  · exact absurd h1.symm h2
  · exact absurd h2.symm h1
  · rfl

/-- The bits of a row are those of its word. -/
theorem bitAt_of_row (v : Vector UInt16 8) {i k : ℕ} (hi : i < 8) (hk : k / 16 = i) :
    bitAt v k = (v[i]).toNat.testBit (k % 16) := by
  rw [bitAt, hk, Vector.getElem?_eq_getElem hi, Option.getD_some]

/-- Setting a code's bit. -/
theorem bitAt_enable (v : Vector UInt16 8) {operation : UInt8} (h : 0x80 ≤ operation)
    (hr : row operation < 8) (k : ℕ) :
    bitAt (v.set (row operation) (v[row operation] ||| mask operation)) k
      = (bitAt v k || k == slot operation) := by
  have hmod : slot operation % 16 < 16 := Nat.mod_lt _ (by decide)
  rw [bitAt_set _ (row_lt h), mask_eq h, testBit_or_mask₁₆ _ hmod]
  split_ifs with hk
  · rw [bitAt_of_row v hr hk]
    congr 1
    rw [row_eq h] at hk
    rw [Bool.eq_iff_iff, beq_iff_eq, beq_iff_eq]
    omega
  · have hne : k ≠ slot operation := fun hks => hk (by rw [row_eq h, hks])
    simp [hne]

/-- Clearing a code's bit. -/
theorem bitAt_disable (v : Vector UInt16 8) {operation : UInt8} (h : 0x80 ≤ operation)
    (hr : row operation < 8) (k : ℕ) :
    bitAt (v.set (row operation) (v[row operation] &&& ~~~(mask operation))) k
      = (bitAt v k && k != slot operation) := by
  have hmod : slot operation % 16 < 16 := Nat.mod_lt _ (by decide)
  rw [bitAt_set _ (row_lt h), mask_eq h, testBit_and_not_mask₁₆ _ hmod]
  split_ifs with hk
  · rw [bitAt_of_row v hr hk]
    congr 1
    rw [row_eq h] at hk
    rw [Bool.eq_iff_iff, bne_iff_ne, bne_iff_ne]
    omega
  · have hne : k ≠ slot operation := fun hks => hk (by rw [row_eq h, hks])
    simp [hne]

/-! ## Counting the set bits -/

/-- The total number of set bits in the eight words. -/
def setBits (v : Vector UInt16 8) : ℕ := (v.toList.map countOnes).sum

/-- The codes whose bit is set, by slot. -/
def enabledSlots (v : Vector UInt16 8) : Finset ℕ := (Finset.range 128).filter fun k => bitAt v k

@[simp] theorem mem_enabledSlots {v : Vector UInt16 8} {k : ℕ} :
    k ∈ enabledSlots v ↔ k < 128 ∧ bitAt v k = true := by
  rw [enabledSlots, Finset.mem_filter, Finset.mem_range]

/-- The bits of the first `n` words. -/
theorem sum_countOnes_take (v : Vector UInt16 8) : ∀ n ≤ 8,
    ((v.toList.take n).map countOnes).sum
      = ∑ i ∈ Finset.range n, ∑ j ∈ Finset.range 16, (bitAt v (16 * i + j)).toNat := by
  intro n
  induction n with
  | zero => intro _; rfl
  | succ n ih =>
    intro hn
    have hlt : n < v.toList.length := by rw [Vector.length_toList]; omega
    have hword : ∀ j ∈ Finset.range 16,
        (v[n].toNat.testBit j).toNat = (bitAt v (16 * n + j)).toNat :=
      fun j hj => by rw [bitAt_eq v (by omega) (Finset.mem_range.mp hj)]
    rw [List.take_succ_eq_append_getElem hlt, List.map_append, List.sum_append, ih (by omega),
      Finset.sum_range_succ, List.map_singleton, List.sum_singleton, Vector.getElem_toList,
      countOnes, countP_range_eq_sum, Finset.sum_congr rfl hword]

theorem setBits_eq_sum (v : Vector UInt16 8) :
    setBits v = ∑ i ∈ Finset.range 8, ∑ j ∈ Finset.range 16, (bitAt v (16 * i + j)).toNat := by
  rw [← sum_countOnes_take v 8 le_rfl, List.take_of_length_le (by rw [Vector.length_toList]),
    setBits]

/-- **The bits of the words are the bits of the 128 codes.** -/
theorem setBits_eq_card (v : Vector UInt16 8) : setBits v = (enabledSlots v).card := by
  rw [setBits_eq_sum, ← sum_range_blocks fun k => (bitAt v k).toNat, enabledSlots,
    Finset.card_filter]
  exact Finset.sum_congr rfl fun k _ => by cases bitAt v k <;> rfl

/-- **The count invariant**: the tracked count is the number of set bits. -/
def Counted (m : NodeObjectPropertyMap) : Prop := m.operationsCount = setBits m.operations

instance (m : NodeObjectPropertyMap) : Decidable m.Counted :=
  inferInstanceAs (Decidable (_ = _))

/-! ## The checked setters -/

@[simp] theorem isOperationEnabledUnsafe_of_le {ε : Type} (m : NodeObjectPropertyMap)
    {operation : UInt8} (h : 0x80 ≤ operation) :
    (m.isOperationEnabledUnsafe operation : Outcome ε Bool)
      = .ok (bitAt m.operations (slot operation)) := by
  have hmod : slot operation % 16 < 16 := Nat.mod_lt _ (by decide)
  rw [isOperationEnabledUnsafe, entry_of_lt (row_lt h), ok_bind, mask_eq h,
    and_mask_ne_zero₁₆ _ hmod, bitAt_of_lt _ (slot_lt operation)]
  simp only [row_eq h, pure_eq]

theorem isOperationEnabled_of_lt (m : NodeObjectPropertyMap) {operation : UInt8}
    (h : operation < 0x80) : m.isOperationEnabled operation = .err invalidOperation := by
  rw [isOperationEnabled, validateOperation, if_pos h, err_bind]

theorem isOperationEnabled_of_le (m : NodeObjectPropertyMap) {operation : UInt8}
    (h : 0x80 ≤ operation) :
    m.isOperationEnabled operation = .ok (bitAt m.operations (slot operation)) := by
  rw [isOperationEnabled, validateOperation, if_neg (UInt8.not_lt.mpr h), ok_bind,
    isOperationEnabledUnsafe_of_le m h]

/-- **Enabling a code** sets its bit and counts it, or finds it set and changes nothing. -/
theorem enableOperation_spec (m : NodeObjectPropertyMap) {operation : UInt8}
    (h : 0x80 ≤ operation) :
    (bitAt m.operations (slot operation) = true ∧ m.enableOperation operation = (.ok false, m)) ∨
    (bitAt m.operations (slot operation) = false ∧
      ∃ v, (∀ k, bitAt v k = (bitAt m.operations k || k == slot operation)) ∧
        m.enableOperation operation = (.ok true, ⟨v, m.operationsCount + 1⟩)) := by
  rw [enableOperation, isOperationEnabled_of_le m h]
  cases hb : bitAt m.operations (slot operation)
  · refine Or.inr ⟨rfl, _, bitAt_enable m.operations h (row_lt h), ?_⟩
    simp only [modifyAt_of_lt (row_lt h)]
  · exact Or.inl ⟨rfl, rfl⟩

/-- **Disabling a code** clears its bit and discounts it, or finds it clear and changes nothing.
The count has to be positive for the subtraction to be defined. -/
theorem disableOperation_spec (m : NodeObjectPropertyMap) {operation : UInt8}
    (h : 0x80 ≤ operation) :
    (bitAt m.operations (slot operation) = false ∧ m.disableOperation operation = (.ok false, m)) ∨
    (bitAt m.operations (slot operation) = true ∧
      ∃ v, (∀ k, bitAt v k = (bitAt m.operations k && k != slot operation)) ∧
        m.disableOperation operation =
          if m.operationsCount = 0 then (.panic, ⟨v, m.operationsCount⟩)
          else (.ok true, ⟨v, m.operationsCount - 1⟩)) := by
  rw [disableOperation, isOperationEnabled_of_le m h]
  cases hb : bitAt m.operations (slot operation)
  · exact Or.inl ⟨rfl, rfl⟩
  · refine Or.inr ⟨rfl, _, bitAt_disable m.operations h (row_lt h), ?_⟩
    simp only [modifyAt_of_lt (row_lt h)]

theorem enableOperation_of_lt (m : NodeObjectPropertyMap) {operation : UInt8}
    (h : operation < 0x80) : m.enableOperation operation = (.err invalidOperation, m) := by
  rw [enableOperation, isOperationEnabled_of_lt m h]

theorem disableOperation_of_lt (m : NodeObjectPropertyMap) {operation : UInt8}
    (h : operation < 0x80) : m.disableOperation operation = (.err invalidOperation, m) := by
  rw [disableOperation, isOperationEnabled_of_lt m h]

/-! ## The count under one bit more or less -/

theorem enabledSlots_insert {v w : Vector UInt16 8} {s : ℕ} (hs : s < 128)
    (hw : ∀ k, bitAt w k = (bitAt v k || k == s)) :
    enabledSlots w = insert s (enabledSlots v) := by
  ext k
  rw [Finset.mem_insert, mem_enabledSlots, mem_enabledSlots, hw, Bool.or_eq_true, beq_iff_eq]
  constructor
  · rintro ⟨hk, hv | rfl⟩
    · exact Or.inr ⟨hk, hv⟩
    · exact Or.inl rfl
  · rintro (rfl | ⟨hk, hv⟩)
    · exact ⟨hs, Or.inr rfl⟩
    · exact ⟨hk, Or.inl hv⟩

theorem enabledSlots_erase {v w : Vector UInt16 8} {s : ℕ}
    (hw : ∀ k, bitAt w k = (bitAt v k && k != s)) :
    enabledSlots w = (enabledSlots v).erase s := by
  ext k
  rw [Finset.mem_erase, mem_enabledSlots, mem_enabledSlots, hw, Bool.and_eq_true, bne_iff_ne]
  tauto

theorem setBits_insert {v w : Vector UInt16 8} {s : ℕ} (hs : s < 128)
    (hw : ∀ k, bitAt w k = (bitAt v k || k == s)) (hv : bitAt v s = false) :
    setBits w = setBits v + 1 := by
  rw [setBits_eq_card, setBits_eq_card, enabledSlots_insert hs hw, Finset.card_insert_of_notMem]
  rw [mem_enabledSlots, hv]
  simp

theorem setBits_erase {v w : Vector UInt16 8} {s : ℕ} (hs : s < 128)
    (hw : ∀ k, bitAt w k = (bitAt v k && k != s)) (hv : bitAt v s = true) :
    setBits v = setBits w + 1 := by
  have hmem : s ∈ enabledSlots v := mem_enabledSlots.mpr ⟨hs, hv⟩
  rw [setBits_eq_card, setBits_eq_card, enabledSlots_erase hw, Finset.card_erase_add_one hmem]

theorem setBits_zero : setBits (Vector.replicate 8 0x0000) = 0 := by
  rw [setBits_eq_card, Finset.card_eq_zero, Finset.eq_empty_iff_forall_notMem]
  intro k hk
  rw [mem_enabledSlots, bitAt_zero] at hk
  exact Bool.false_ne_true hk.2

end NodeObjectPropertyMap

end Echonet
