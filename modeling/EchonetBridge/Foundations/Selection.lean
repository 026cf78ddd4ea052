import Mathlib.Data.List.Sort

/-!
# Foundations/Selection — the first element of a stable sort

The head of a stably sorted list is the first element of the list with the smallest key
(`head?_mergeSort_iff`).  In a list in which the positions increase, it is the least element by key
and then by position (`isFirstMin_iff_of_increasing`).
-/

universe u v

namespace Selection

variable {α : Type u} {κ : Type v} [LinearOrder κ] {key : α → κ} {l : List α} {x : α}

/-- The element has the smallest key, and is the first that does. -/
def IsFirstMin (key : α → κ) (l : List α) (x : α) : Prop :=
  ∃ pre post, l = pre ++ x :: post ∧ (∀ y ∈ pre, key x < key y) ∧ ∀ y ∈ post, key x ≤ key y

theorem IsFirstMin.mem (h : IsFirstMin key l x) : x ∈ l := by
  obtain ⟨pre, post, rfl, -, -⟩ := h
  exact List.mem_append_right _ List.mem_cons_self

theorem IsFirstMin.le (h : IsFirstMin key l x) {y : α} (hy : y ∈ l) : key x ≤ key y := by
  obtain ⟨pre, post, rfl, hpre, hpost⟩ := h
  rcases List.mem_append.mp hy with hy | hy
  · exact (hpre y hy).le
  · rcases List.mem_cons.mp hy with rfl | hy
    · exact le_rfl
    · exact hpost y hy

/-- An element in front of a list is the first minimum, or larger than it. -/
theorem isFirstMin_cons_iff {a : α} :
    IsFirstMin key (a :: l) x ↔
      x = a ∧ (∀ y ∈ l, key a ≤ key y) ∨ key x < key a ∧ IsFirstMin key l x := by
  constructor
  · rintro ⟨pre, post, heq, hpre, hpost⟩
    cases pre with
    | nil =>
      cases heq
      exact Or.inl ⟨rfl, hpost⟩
    | cons b pre =>
      cases heq
      exact Or.inr ⟨hpre a List.mem_cons_self, pre, post, rfl,
        fun y hy => hpre y (List.mem_cons_of_mem _ hy), hpost⟩
  · rintro (⟨rfl, hle⟩ | ⟨hlt, pre, post, rfl, hpre, hpost⟩)
    · exact ⟨[], l, rfl, fun y hy => absurd hy List.not_mem_nil, hle⟩
    · refine ⟨a :: pre, post, rfl, fun y hy => ?_, hpost⟩
      rcases List.mem_cons.mp hy with rfl | hy
      · exact hlt
      · exact hpre y hy

/-- **The head of a stably sorted list** is the first element with the smallest key. -/
theorem head?_mergeSort_iff :
    (l.mergeSort fun a b => key a ≤ key b).head? = some x ↔ IsFirstMin key l x := by
  have htrans : ∀ a b c : α, decide (key a ≤ key b) = true → decide (key b ≤ key c) = true →
      decide (key a ≤ key c) = true := fun a b c hab hbc =>
    decide_eq_true ((of_decide_eq_true hab).trans (of_decide_eq_true hbc))
  have htotal : ∀ a b : α, (decide (key a ≤ key b) || decide (key b ≤ key a)) = true :=
    fun a b => by simpa using le_total (key a) (key b)
  induction l generalizing x with
  | nil =>
    rw [List.mergeSort_nil]
    exact iff_of_false (by simp) fun h => List.not_mem_nil h.mem
  | cons a l ih =>
    obtain ⟨front, back, hcons, hl, hfront⟩ := List.mergeSort_cons htrans htotal a l
    have hrest : (front ++ back).head? = some x ↔ IsFirstMin key l x := by
      rw [← hl]
      exact ih
    have hmem {y : α} : y ∈ l ↔ y ∈ front ++ back := by
      rw [← hl]
      exact List.mem_mergeSort.symm
    rw [isFirstMin_cons_iff, ← hrest, hcons]
    cases front with
    | nil =>
      have hsorted := List.pairwise_mergeSort htrans htotal (a :: l)
      rw [hcons, List.nil_append, List.pairwise_cons] at hsorted
      have hle : ∀ y ∈ l, key a ≤ key y := fun y hy =>
        of_decide_eq_true (hsorted.1 y (hmem.mp hy))
      rw [List.nil_append, List.nil_append, List.head?_cons]
      constructor
      · intro h
        exact Or.inl ⟨(Option.some.inj h).symm, hle⟩
      · rintro (⟨rfl, -⟩ | ⟨hlt, hx⟩)
        · rfl
        · exact absurd (hle x (hmem.mpr (List.mem_of_mem_head? hx))) (not_le.mpr hlt)
    | cons b front =>
      have hba : key b < key a := by simpa using hfront b List.mem_cons_self
      have hb : b ∈ l := hmem.mpr List.mem_cons_self
      rw [List.cons_append, List.cons_append, List.head?_cons, List.head?_cons]
      constructor
      · intro h
        cases h
        exact Or.inr ⟨hba, rfl⟩
      · rintro (⟨rfl, hle⟩ | ⟨-, hx⟩)
        · exact absurd (hle b hb) (not_le.mpr hba)
        · exact hx

/-- Where positions increase along the list, a first minimum is least by key and position. -/
theorem isFirstMin_iff_of_increasing {pos : α → ℕ} (h : l.Pairwise fun a b => pos a < pos b) :
    IsFirstMin key l x ↔
      x ∈ l ∧ ∀ y ∈ l, key x < key y ∨ key x = key y ∧ pos x ≤ pos y := by
  constructor
  · rintro ⟨pre, post, rfl, hpre, hpost⟩
    refine ⟨List.mem_append_right _ List.mem_cons_self, fun y hy => ?_⟩
    rcases List.mem_append.mp hy with hy | hy
    · exact Or.inl (hpre y hy)
    · rcases List.mem_cons.mp hy with rfl | hy
      · exact Or.inr ⟨rfl, le_rfl⟩
      · have hpos := (List.pairwise_cons.mp (List.pairwise_append.mp h).2.1).1 y hy
        exact (hpost y hy).lt_or_eq.imp_right fun heq => ⟨heq, hpos.le⟩
  · rintro ⟨hx, hmin⟩
    obtain ⟨pre, post, rfl⟩ := List.append_of_mem hx
    refine ⟨pre, post, rfl, fun y hy => ?_, fun y hy => ?_⟩
    · have hpos := (List.pairwise_append.mp h).2.2 y hy x List.mem_cons_self
      rcases hmin y (List.mem_append_left _ hy) with hlt | ⟨-, hle⟩
      · exact hlt
      · exact absurd hpos (not_lt.mpr hle)
    · rcases hmin y (List.mem_append_right _ (List.mem_cons_of_mem _ hy)) with hlt | ⟨heq, -⟩
      · exact hlt.le
      · exact heq.le

end Selection
