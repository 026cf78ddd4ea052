import Mathlib.Data.List.Basic
import Mathlib.Data.Nat.Notation
import Mathlib.Order.Basic

/-!
# Foundations/Outcome — calls that return, fail or panic

A call of a program with checked errors and panics ends in one of three ways: it returns, it
fails with an error of its own, or it panics.  `Outcome ε α` is that type, with the sequencing in
which an error or a panic ends the call, and `foldlM_rule` is the loop rule of that sequencing.
-/

universe u v

/-- How a call ends: it returns a value, fails with an error, or panics. -/
inductive Outcome (ε : Type u) (α : Type v) where
  | ok (a : α)
  | err (e : ε)
  | panic
  deriving DecidableEq, Repr

namespace Outcome

variable {ε ε' : Type u} {α β : Type v}

/-- Sequencing: an error or a panic ends the call. -/
protected def bind (x : Outcome ε α) (f : α → Outcome ε β) : Outcome ε β :=
  match x with
  | ok a => f a
  | err e => err e
  | panic => panic

instance : Monad (Outcome ε) where
  pure := ok
  bind := Outcome.bind

@[simp] theorem pure_eq (a : α) : (pure a : Outcome ε α) = ok a := rfl

@[simp] theorem ok_bind (a : α) (f : α → Outcome ε β) : (ok a >>= f) = f a := rfl

@[simp] theorem err_bind (e : ε) (f : α → Outcome ε β) : (err e >>= f) = err e := rfl

@[simp] theorem panic_bind (f : α → Outcome ε β) : ((panic : Outcome ε α) >>= f) = panic := rfl

instance : LawfulMonad (Outcome ε) :=
  LawfulMonad.mk' _ (fun x => by cases x <;> rfl) (fun _ _ => rfl)
    (fun x _ _ => by cases x <;> rfl)

/-- A sequence returns exactly when its first part does and the rest does from there. -/
theorem bind_eq_ok {x : Outcome ε α} {f : α → Outcome ε β} {b : β} :
    (x >>= f) = ok b ↔ ∃ a, x = ok a ∧ f a = ok b := by
  cases x <;> simp

/-- A choice returns exactly when the branch that is taken does. -/
theorem ite_eq_ok {c : Prop} [Decidable c] {x y : Outcome ε α} {a : α}
    (h : (if c then x else y) = ok a) : c ∧ x = ok a ∨ ¬ c ∧ y = ok a := by
  by_cases hc : c
  · exact Or.inl ⟨hc, (if_pos hc).symm.trans h⟩
  · exact Or.inr ⟨hc, (if_neg hc).symm.trans h⟩

/-- A choice between two calls that do not return a value does not return it. -/
theorem ite_ne_ok {c : Prop} [Decidable c] {x y : Outcome ε α} {a : α} (hx : x ≠ ok a)
    (hy : y ≠ ok a) : (if c then x else y) ≠ ok a := fun h =>
  (ite_eq_ok h).elim (fun h => hx h.2) fun h => hy h.2

/-- The call returned. -/
def IsOk (x : Outcome ε α) : Prop := ∃ a, x = ok a

/-- A call that has nothing to return. -/
theorem isOk_unit_iff {x : Outcome ε Unit} : IsOk x ↔ x = ok () :=
  ⟨fun ⟨_, h⟩ => h, fun h => ⟨(), h⟩⟩

@[simp] theorem isOk_ok (a : α) : IsOk (ok a : Outcome ε α) := ⟨a, rfl⟩

@[simp] theorem not_isOk_err (e : ε) : ¬ IsOk (err e : Outcome ε α) := fun ⟨_, h⟩ => nomatch h

@[simp] theorem not_isOk_panic : ¬ IsOk (panic : Outcome ε α) := fun ⟨_, h⟩ => nomatch h

theorem IsOk.ne_panic {x : Outcome ε α} (h : IsOk x) : x ≠ panic := fun hpanic =>
  not_isOk_panic (hpanic ▸ h)

/-- Replace the error of a failed call. -/
def mapErr (f : ε → ε') : Outcome ε α → Outcome ε' α
  | ok a => ok a
  | err e => err (f e)
  | panic => panic

@[simp] theorem mapErr_ok (f : ε → ε') (a : α) : mapErr f (ok a) = ok a := rfl

@[simp] theorem mapErr_err (f : ε → ε') (e : ε) : mapErr f (err e : Outcome ε α) = err (f e) := rfl

@[simp] theorem mapErr_panic (f : ε → ε') : mapErr f (panic : Outcome ε α) = panic := rfl

@[simp] theorem isOk_mapErr {f : ε → ε'} {x : Outcome ε α} : IsOk (mapErr f x) ↔ IsOk x := by
  cases x <;> simp

/-- The value of an optional, or the panic of unwrapping nothing. -/
def unwrap : Option α → Outcome ε α
  | some a => ok a
  | none => panic

@[simp] theorem unwrap_some (a : α) : (unwrap (some a) : Outcome ε α) = ok a := rfl

@[simp] theorem unwrap_none : (unwrap none : Outcome ε α) = panic := rfl

/-- Short-circuit conjunction: the second test runs only when the first is true. -/
def andAlso (p : Bool) (q : Outcome ε Bool) : Outcome ε Bool := if p then q else ok false

@[simp] theorem andAlso_true (q : Outcome ε Bool) : andAlso true q = q := rfl

@[simp] theorem andAlso_false (q : Outcome ε Bool) : andAlso false q = ok false := rfl

/-- Unsigned subtraction, which panics below zero. -/
def checkedSub (a b : ℕ) : Outcome ε ℕ := if b ≤ a then ok (a - b) else panic

@[simp] theorem checkedSub_of_le {a b : ℕ} (h : b ≤ a) :
    (checkedSub a b : Outcome ε ℕ) = ok (a - b) := if_pos h

/-! ## Loops

A `for` loop over a list is `List.foldlM`: it carries the loop's state from one element to the
next and ends early on an error or a panic. -/

/-- **The loop rule.**  An invariant of the elements already visited, re-established by every
pass, holds of the whole list when the loop ends — and the loop does end, by returning. -/
theorem foldlM_rule (f : β → α → Outcome ε β) (Inv : List α → β → Prop) (l : List α) (b : β)
    (h0 : Inv [] b)
    (hstep : ∀ pre a post b, l = pre ++ a :: post → Inv pre b →
      ∃ b', f b a = ok b' ∧ Inv (pre ++ [a]) b') :
    ∃ b', l.foldlM f b = ok b' ∧ Inv l b' := by
  suffices H : ∀ post pre b, l = pre ++ post → Inv pre b →
      ∃ b', post.foldlM f b = ok b' ∧ Inv l b' from H l [] b rfl h0
  intro post
  induction post with
  | nil =>
    intro pre b hl hb
    rw [List.append_nil] at hl
    exact ⟨b, rfl, hl ▸ hb⟩
  | cons a post ih =>
    intro pre b hl hb
    obtain ⟨b', hfb, hb'⟩ := hstep pre a post b hl hb
    obtain ⟨b'', hpost, hinv⟩ := ih (pre ++ [a]) b' (by rw [hl]; simp) hb'
    exact ⟨b'', by rw [List.foldlM_cons, hfb, ok_bind, hpost], hinv⟩

/-- What every pass preserves that returns holds when the loop returns. -/
theorem foldlM_preserves {f : β → α → Outcome ε β} {Inv : β → Prop}
    (hstep : ∀ b a b', Inv b → f b a = ok b' → Inv b') {l : List α} {b b' : β} (h0 : Inv b)
    (h : l.foldlM f b = ok b') : Inv b' := by
  induction l generalizing b with
  | nil =>
    cases h
    exact h0
  | cons a l ih =>
    rw [List.foldlM_cons, bind_eq_ok] at h
    obtain ⟨c, hc, hl⟩ := h
    exact ih (hstep b a c h0 hc) hl

/-- A loop whose every pass returns computes the fold of the values its passes return. -/
theorem foldlM_eq_foldl {f : β → α → Outcome ε β} {g : β → α → β} (l : List α) (b : β)
    (h : ∀ b, ∀ a ∈ l, f b a = ok (g b a)) : l.foldlM f b = ok (l.foldl g b) := by
  induction l generalizing b with
  | nil => rfl
  | cons a l ih =>
    rw [List.foldlM_cons, h b a List.mem_cons_self, ok_bind, List.foldl_cons]
    exact ih _ fun b' a' ha' => h b' a' (List.mem_cons_of_mem a ha')

/-- The first element that does not return panics: it is the head, or it is behind a head that
returns. -/
theorem exists_first_cons {Returns Panics : α → Prop} (a : α) (l : List α) :
    (∃ (k : ℕ) (x : α), (a :: l)[k]? = some x ∧ Panics x ∧
        ∀ j < k, ∀ y, (a :: l)[j]? = some y → Returns y) ↔
      Panics a ∨ Returns a ∧ ∃ (k : ℕ) (x : α), l[k]? = some x ∧ Panics x ∧
        ∀ j < k, ∀ y, l[j]? = some y → Returns y := by
  constructor
  · rintro ⟨k, x, hk, hx, hbefore⟩
    cases k with
    | zero =>
      cases hk
      exact Or.inl hx
    | succ k =>
      exact Or.inr ⟨hbefore 0 (Nat.succ_pos k) a rfl, k, x, hk, hx, fun j hj =>
        hbefore (j + 1) (Nat.succ_lt_succ hj)⟩
  · rintro (ha | ⟨ha, k, x, hk, hx, hbefore⟩)
    · exact ⟨0, a, rfl, ha, fun j hj => absurd hj (Nat.not_lt_zero j)⟩
    · refine ⟨k + 1, x, hk, hx, fun j hj y hy => ?_⟩
      cases j with
      | zero =>
        cases hy
        exact ha
      | succ j => exact hbefore j (Nat.lt_of_succ_lt_succ hj) y hy

/-- **A loop panics at the first pass that does not return**, if it is up to the element alone
whether a pass returns, and whether it panics. -/
theorem foldlM_eq_panic_iff {f : β → α → Outcome ε β} {Returns Panics : α → Prop}
    (hreturns : ∀ b a, IsOk (f b a) ↔ Returns a) (hpanics : ∀ b a, f b a = panic ↔ Panics a)
    (l : List α) (b : β) :
    l.foldlM f b = panic ↔
      ∃ (k : ℕ) (x : α), l[k]? = some x ∧ Panics x ∧
        ∀ j < k, ∀ y, l[j]? = some y → Returns y := by
  induction l generalizing b with
  | nil => simp
  | cons a l ih =>
    rw [List.foldlM_cons, exists_first_cons, ← hreturns b a, ← hpanics b a]
    cases f b a with
    | ok c => simp [ih]
    | err e => simp
    | panic => simp

/-- **The counting loop rule**: `for i in 0..n`, with an invariant indexed by the passes made. -/
theorem foldlM_range_rule (f : β → ℕ → Outcome ε β) (Inv : ℕ → β → Prop) (n : ℕ) (b : β)
    (h0 : Inv 0 b) (hstep : ∀ i < n, ∀ b, Inv i b → ∃ b', f b i = ok b' ∧ Inv (i + 1) b') :
    ∃ b', (List.range n).foldlM f b = ok b' ∧ Inv n b' := by
  induction n with
  | zero => exact ⟨b, rfl, h0⟩
  | succ n ih =>
    obtain ⟨b', hloop, hb'⟩ := ih fun i hi => hstep i (Nat.lt_succ_of_lt hi)
    obtain ⟨b'', hlast, hb''⟩ := hstep n (Nat.lt_succ_self n) b' hb'
    refine ⟨b'', ?_, hb''⟩
    rw [List.range_succ, List.foldlM_append, hloop, ok_bind, List.foldlM_cons, hlast, ok_bind]
    rfl

/-- A loop that writes in place: what its passes have written survives an error or a panic. -/
def forEach (f : β → α → Outcome ε β) : List α → β → Outcome ε Unit × β
  | [], b => (ok (), b)
  | a :: as, b =>
    match f b a with
    | ok b' => forEach f as b'
    | err e => (err e, b)
    | panic => (panic, b)

theorem forEach_of_foldlM {f : β → α → Outcome ε β} {l : List α} {b b' : β}
    (h : l.foldlM f b = ok b') : forEach f l b = (ok (), b') := by
  induction l generalizing b with
  | nil =>
    cases h
    rfl
  | cons a l ih =>
    rw [List.foldlM_cons, bind_eq_ok] at h
    obtain ⟨c, hc, hl⟩ := h
    rw [forEach, hc]
    exact ih hl

end Outcome
