import EchonetBridge.Foundations.Outcome
import Mathlib.Data.Vector.Basic

/-!
# Foundations/Buffer — indexing, slicing and writing a buffer

The partial operations of growable and fixed-size arrays: each panics outside the buffer, and
none of them changes a buffer's length.  Asking for more memory than there can be panics as well.
-/

universe u v

namespace Outcome

variable {ε : Type u} {α : Type v}

/-! ## Reading -/

/-- `xs[i]`. -/
def index (xs : List α) (i : ℕ) : Outcome ε α := unwrap xs[i]?

/-- `&xs[i..]`. -/
def sliceFrom (xs : List α) (i : ℕ) : Outcome ε (List α) :=
  if i ≤ xs.length then ok (xs.drop i) else panic

/-- `&xs[i..j]`. -/
def slice (xs : List α) (i j : ℕ) : Outcome ε (List α) :=
  if i ≤ j ∧ j ≤ xs.length then ok ((xs.take j).drop i) else panic

theorem index_of_lt {xs : List α} {i : ℕ} (h : i < xs.length) :
    (index xs i : Outcome ε α) = ok xs[i] := by
  rw [index, List.getElem?_eq_getElem h, unwrap_some]

theorem index_of_le {xs : List α} {i : ℕ} (h : xs.length ≤ i) :
    (index xs i : Outcome ε α) = panic := by
  rw [index, List.getElem?_eq_none h, unwrap_none]

@[simp] theorem index_cons_zero (x : α) (xs : List α) :
    (index (x :: xs) 0 : Outcome ε α) = ok x := rfl

theorem sliceFrom_of_le {xs : List α} {i : ℕ} (h : i ≤ xs.length) :
    (sliceFrom xs i : Outcome ε (List α)) = ok (xs.drop i) := if_pos h

theorem slice_of_le {xs : List α} {i j : ℕ} (hij : i ≤ j) (hj : j ≤ xs.length) :
    (slice xs i j : Outcome ε (List α)) = ok ((xs.take j).drop i) := if_pos ⟨hij, hj⟩

/-! ## Allocating -/

/-- `with_capacity(capacity)`: no allocation is larger than the bound, if there is one. -/
def withCapacity : Option ℕ → ℕ → Outcome ε Unit
  | some bound, capacity => if bound < capacity then panic else ok ()
  | none, _ => ok ()

@[simp] theorem withCapacity_none (capacity : ℕ) :
    (withCapacity none capacity : Outcome ε Unit) = ok () := rfl

theorem withCapacity_of_le {bound capacity : ℕ} (h : capacity ≤ bound) :
    (withCapacity (some bound) capacity : Outcome ε Unit) = ok () := if_neg (Nat.not_lt.mpr h)

theorem withCapacity_of_lt {bound capacity : ℕ} (h : bound < capacity) :
    (withCapacity (some bound) capacity : Outcome ε Unit) = panic := if_pos h

/-! ## Writing -/

/-- `xs[i] = a`. -/
def setAt (xs : List α) (i : ℕ) (a : α) : Outcome ε (List α) :=
  if i < xs.length then ok (xs.set i a) else panic

/-- `(&mut xs[i..j]).copy_from_slice(src)`. -/
def writeSlice (xs : List α) (i j : ℕ) (src : List α) : Outcome ε (List α) :=
  if i ≤ j ∧ j ≤ xs.length ∧ src.length = j - i then ok (xs.take i ++ src ++ xs.drop j) else panic

theorem setAt_of_lt {xs : List α} {i : ℕ} (h : i < xs.length) (a : α) :
    (setAt xs i a : Outcome ε (List α)) = ok (xs.set i a) := if_pos h

/-! ## Fixed-size arrays -/

/-- `f` applied in place to the entry at an index of a fixed-size array. -/
def modifyAt {n : ℕ} (v : Vector α n) (i : ℕ) (f : α → α) : Outcome ε (Vector α n) :=
  if h : i < n then ok (v.set i (f v[i])) else panic

/-- An entry of a fixed-size array. -/
def entry {n : ℕ} (v : Vector α n) (i : ℕ) : Outcome ε α :=
  if h : i < n then ok v[i] else panic

/-- A slice converted to an array of a fixed size, unwrapped. -/
def toArray (n : ℕ) (xs : List α) : Outcome ε (Vector α n) :=
  if h : xs.length = n then ok ⟨xs.toArray, h⟩ else panic

theorem toArray_of_length {n : ℕ} {xs : List α} (h : xs.length = n) :
    (toArray n xs : Outcome ε (Vector α n)) = ok ⟨xs.toArray, h⟩ := dif_pos h

@[simp] theorem toArray_toList {n : ℕ} (v : Vector α n) :
    (toArray n v.toList : Outcome ε (Vector α n)) = ok v := by
  rw [toArray_of_length v.length_toList]
  rfl

theorem modifyAt_of_lt {n : ℕ} {v : Vector α n} {i : ℕ} (h : i < n) (f : α → α) :
    (modifyAt v i f : Outcome ε (Vector α n)) = ok (v.set i (f v[i])) := dif_pos h

theorem entry_of_lt {n : ℕ} {v : Vector α n} {i : ℕ} (h : i < n) :
    (entry v i : Outcome ε α) = ok v[i] := dif_pos h

end Outcome

/-! ## Padded buffers -/

namespace Buffer

/-- **Padding in front of a buffer shifts it**, which shows unless the buffer is made of padding. -/
theorem take_padded_eq_iff {α : Type u} (n : ℕ) (a : α) (xs : List α) :
    (List.replicate n a ++ xs).take xs.length = xs ↔ n = 0 ∨ xs = List.replicate xs.length a := by
  constructor
  · intro h
    rcases Nat.eq_zero_or_pos n with h0 | hpos
    · exact Or.inl h0
    obtain ⟨n, rfl⟩ := Nat.exists_eq_add_of_le' hpos
    refine Or.inr ?_
    induction xs with
    | nil => rfl
    | cons x xs ih =>
      rw [List.replicate_succ, List.cons_append, List.length_cons, List.take_succ_cons,
        List.cons.injEq] at h
      obtain ⟨rfl, hrest⟩ := h
      rw [List.append_cons, ← List.replicate_succ'] at hrest
      rw [List.length_cons, List.replicate_succ, ← ih hrest]
  · rintro (rfl | hxs)
    · rw [List.replicate_zero, List.nil_append, List.take_length]
    · rw [hxs, ← List.replicate_add, List.length_replicate, List.take_replicate,
        Nat.min_eq_left (Nat.le_add_left _ n)]

end Buffer
