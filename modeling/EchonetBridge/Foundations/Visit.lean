import EchonetBridge.Foundations.Outcome

/-!
# Foundations/Visit — loops that change a list in place

The passes of a loop make calls that are answered one by one, and change their elements in place.
The first call that fails ends the loop, and leaves the elements that it has not come to as they
were.  `Visits` describes a pass by the calls it makes and by what it leaves when they succeed and
when they do not, `Keeps` by what it does not change, and `Sweeps` by how far it comes; each has a
rule for every way in which passes are put together.
-/

universe u v w

namespace Visit

open Outcome

variable {ε : Type u} {α β : Type v} {κ : Type w}

/-- A pass over one element, from the number of the calls made before it to that of the calls made
after it. -/
abbrev Pass (ε : Type u) (α : Type v) := ℕ → α → Outcome ε ℕ × α

/-- A pass that changes its element last, when all has gone well. -/
def attempt (f : ℕ → α → Outcome ε (ℕ × α)) : Pass ε α := fun n a =>
  match f n a with
  | .ok (n', a') => (.ok n', a')
  | .err e => (.err e, a)
  | .panic => (.panic, a)

/-- A pass over a part. -/
def within (get : β → α) (set : α → β → β) (f : β → Pass ε α) : Pass ε β := fun n b =>
  ((f b n (get b)).1, set (f b n (get b)).2 b)

/-- A loop over a list. -/
def visit (f : Pass ε α) : Pass ε (List α)
  | n, [] => (.ok n, [])
  | n, a :: as =>
    match (f n a).1 with
    | .ok n' => ((visit f n' as).1, (f n a).2 :: (visit f n' as).2)
    | .err e => (.err e, (f n a).2 :: as)
    | .panic => (.panic, (f n a).2 :: as)

/-! ## Calls -/

/-- Calls succeed, made one after the other from a number on. -/
def Succeed (answers : ℕ → κ → Prop) (n : ℕ) (calls : List κ) : Prop :=
  ∀ k call, calls[k]? = some call → answers (n + k) call

variable {answers : ℕ → κ → Prop}

@[simp] theorem succeed_nil (n : ℕ) : Succeed answers n [] := fun _ _ h => by cases h

theorem succeed_cons {n : ℕ} {call : κ} {calls : List κ} :
    Succeed answers n (call :: calls) ↔ answers n call ∧ Succeed answers (n + 1) calls := by
  constructor
  · intro h
    refine ⟨h 0 call rfl, fun k c hk => ?_⟩
    rw [Nat.add_assoc, Nat.add_comm 1]
    exact h (k + 1) c hk
  · rintro ⟨hcall, hcalls⟩ k c hk
    cases k with
    | zero =>
      cases hk
      exact hcall
    | succ k =>
      have hanswer := hcalls k c hk
      rwa [Nat.add_assoc, Nat.add_comm 1] at hanswer

theorem succeed_append {n : ℕ} {calls calls' : List κ} :
    Succeed answers n (calls ++ calls') ↔
      Succeed answers n calls ∧ Succeed answers (n + calls.length) calls' := by
  induction calls generalizing n with
  | nil => simp
  | cons call calls ih =>
    rw [List.cons_append, succeed_cons, succeed_cons, ih, and_assoc, List.length_cons,
      Nat.add_assoc, Nat.add_comm 1]

/-! ## What a pass does -/

/-- A pass makes these calls.  It returns when they succeed, and leaves what is promised after
them; else it does not return, and leaves what is promised of a failure. -/
structure Visits (answers : ℕ → κ → Prop) (Before : α → Prop) (f : Pass ε α)
    (calls : α → List κ) (After Failed : α → Prop) : Prop where
  returns : ∀ n a, Before a → Succeed answers n (calls a) →
    (f n a).1 = ok (n + (calls a).length) ∧ After (f n a).2
  fails : ∀ n a, Before a → ¬ Succeed answers n (calls a) → ¬ IsOk (f n a).1 ∧ Failed (f n a).2

namespace Visits

variable {Before After Failed : α → Prop} {f : Pass ε α} {calls : α → List κ}

/-- A pass returns exactly when its calls succeed. -/
theorem isOk_iff (h : Visits answers Before f calls After Failed) {n : ℕ} {a : α}
    (ha : Before a) : IsOk (f n a).1 ↔ Succeed answers n (calls a) := by
  constructor
  · intro hok
    by_contra hcalls
    exact (h.fails n a ha hcalls).1 hok
  · intro hcalls
    exact ⟨_, (h.returns n a ha hcalls).1⟩

/-- What is promised after the calls tells whether they succeed, unless a failure promises it
too. -/
theorem after_iff (h : Visits answers Before f calls After Failed)
    (hfailed : ∀ a, Failed a → ¬ After a) {n : ℕ} {a : α} (ha : Before a) :
    After (f n a).2 ↔ Succeed answers n (calls a) := by
  constructor
  · intro hafter
    by_contra hcalls
    exact hfailed _ (h.fails n a ha hcalls).2 hafter
  · intro hcalls
    exact (h.returns n a ha hcalls).2

/-- A failure promises less. -/
theorem weaken (h : Visits answers Before f calls After Failed) {Failed' : α → Prop}
    (hfailed : ∀ a, Failed a → Failed' a) : Visits answers Before f calls After Failed' where
  returns := h.returns
  fails n a ha hcalls := ⟨(h.fails n a ha hcalls).1, hfailed _ (h.fails n a ha hcalls).2⟩

/-- **The rule of an attempt**: when it fails, the element is as it was, and calls were due. -/
theorem attempt {f : ℕ → α → Outcome ε (ℕ × α)}
    (hreturns : ∀ n a, Before a → Succeed answers n (calls a) →
      ∃ a', f n a = ok (n + (calls a).length, a') ∧ After a')
    (hfails : ∀ n a, Before a → ¬ Succeed answers n (calls a) → ¬ IsOk (f n a)) :
    Visits answers Before (Visit.attempt f) calls After fun a => Before a ∧ calls a ≠ [] where
  returns n a ha hcalls := by
    obtain ⟨a', hok, hafter⟩ := hreturns n a ha hcalls
    rw [Visit.attempt, hok]
    exact ⟨rfl, hafter⟩
  fails n a ha hcalls := by
    have hdue : calls a ≠ [] := fun hnil => hcalls (hnil ▸ succeed_nil n)
    have hnot := hfails n a ha hcalls
    rw [Visit.attempt]
    cases hpass : f n a with
    | ok value => exact absurd ⟨value, hpass⟩ hnot
    | err e => exact ⟨not_isOk_err e, ha, hdue⟩
    | panic => exact ⟨not_isOk_panic, ha, hdue⟩

/-- **The rule of a part.** -/
theorem within {get : β → α} {set : α → β → β} (hget : ∀ a b, get (set a b) = a)
    {f : β → Pass ε α} {calls : β → α → List κ}
    (h : ∀ b, Visits answers Before (f b) (calls b) After Failed) :
    Visits answers (fun b => Before (get b)) (Visit.within get set f) (fun b => calls b (get b))
      (fun b => After (get b)) fun b => Failed (get b) where
  returns n b hb hcalls := by
    rw [Visit.within, hget]
    exact (h b).returns n (get b) hb hcalls
  fails n b hb hcalls := by
    rw [Visit.within, hget]
    exact (h b).fails n (get b) hb hcalls

/-- **The rule of a loop**: its calls are those of its passes, and it leaves them all as a pass
does, or one of them as a failed pass does. -/
theorem visit (h : Visits answers Before f calls After Failed) :
    Visits answers (fun as => ∀ a ∈ as, Before a) (Visit.visit f) (fun as => as.flatMap calls)
      (fun as => ∀ a ∈ as, After a) fun as => ∃ a ∈ as, Failed a where
  returns n as hbefore hcalls := by
    induction as generalizing n with
    | nil => exact ⟨rfl, fun _ h => absurd h List.not_mem_nil⟩
    | cons a as ih =>
      obtain ⟨ha, has⟩ := List.forall_mem_cons.mp hbefore
      rw [List.flatMap_cons, succeed_append] at hcalls
      obtain ⟨hok, hafter⟩ := h.returns n a ha hcalls.1
      obtain ⟨hokRest, hafterRest⟩ := ih _ has hcalls.2
      rw [Visit.visit, hok]
      dsimp only
      rw [hokRest, List.flatMap_cons, List.length_append, Nat.add_assoc]
      exact ⟨rfl, List.forall_mem_cons.mpr ⟨hafter, hafterRest⟩⟩
  fails n as hbefore hcalls := by
    induction as generalizing n with
    | nil => exact absurd (succeed_nil n) hcalls
    | cons a as ih =>
      obtain ⟨ha, has⟩ := List.forall_mem_cons.mp hbefore
      rw [List.flatMap_cons, succeed_append] at hcalls
      rw [Visit.visit]
      by_cases hone : Succeed answers n (calls a)
      · obtain ⟨hok, -⟩ := h.returns n a ha hone
        obtain ⟨hnot, a', ha', hfailed⟩ := ih _ has fun hrest => hcalls ⟨hone, hrest⟩
        rw [hok]
        exact ⟨hnot, a', List.mem_cons_of_mem _ ha', hfailed⟩
      · obtain ⟨hnot, hfailed⟩ := h.fails n a ha hone
        cases hpass : (f n a).1 with
        | ok n' => exact absurd ⟨n', hpass⟩ hnot
        | err e => exact ⟨not_isOk_err e, _, List.mem_cons_self, hfailed⟩
        | panic => exact ⟨not_isOk_panic, _, List.mem_cons_self, hfailed⟩

end Visits

/-! ## What a pass keeps -/

/-- Whatever becomes of its calls, a pass does not change what a function makes of an element. -/
def Keeps {γ : Type v} (g : α → γ) (f : Pass ε α) : Prop := ∀ n a, g (f n a).2 = g a

namespace Keeps

variable {γ δ : Type v} {g : α → γ}

theorem attempt {f : ℕ → α → Outcome ε (ℕ × α)}
    (h : ∀ n a n' a', f n a = ok (n', a') → g a' = g a) : Keeps g (Visit.attempt f) := by
  intro n a
  rw [Visit.attempt]
  cases hpass : f n a with
  | ok value => exact h n a value.1 value.2 hpass
  | err e => rfl
  | panic => rfl

theorem within {get : β → α} {set : α → β → β} {f : β → Pass ε α} {g' : β → δ}
    (hset : ∀ a b, g a = g (get b) → g' (set a b) = g' b) (h : ∀ b, Keeps g (f b)) :
    Keeps g' (Visit.within get set f) := fun n b => hset _ b (h b n (get b))

theorem visit {f : Pass ε α} (h : Keeps g f) : Keeps (List.map g) (Visit.visit f) := by
  intro n as
  induction as generalizing n with
  | nil => rfl
  | cons a as ih =>
    rw [Visit.visit]
    cases (f n a).1 with
    | ok n' => exact congrArg₂ List.cons (h n a) (ih n')
    | err e => exact congrArg (· :: as.map g) (h n a)
    | panic => exact congrArg (· :: as.map g) (h n a)

end Keeps

/-! ## How far a pass comes -/

/-- A list is changed as far as a position, which is its end if all went well. -/
def Advances {γ : Type v} (g : γ → γ) (before after : List γ) (returned : Prop) : Prop :=
  ∃ k ≤ before.length, after = (before.take k).map g ++ before.drop k ∧
    (returned ↔ k = before.length)

section Advances

variable {γ : Type v} {g : γ → γ} {before after rest rest' : List γ} {returned : Prop}

/-- Behind what is changed as a whole, the rest is changed as far as it is. -/
theorem Advances.append (hwhole : after = before.map g) (h : Advances g rest rest' returned) :
    Advances g (before ++ rest) (after ++ rest') returned := by
  obtain ⟨k, hk, rfl, hreturned⟩ := h
  refine ⟨before.length + k, ?_, ?_, ?_⟩
  · rw [List.length_append]
    exact Nat.add_le_add_left hk _
  · rw [List.take_length_add_append, List.drop_length_add_append, List.map_append, hwhole,
      List.append_assoc]
  · rw [hreturned, List.length_append, Nat.add_left_cancel_iff]

/-- Behind what is not changed as a whole, the rest stays as it was. -/
theorem Advances.append_of_not (h : Advances g before after returned) (hnot : ¬ returned)
    (rest : List γ) : Advances g (before ++ rest) (after ++ rest) returned := by
  obtain ⟨k, hk, rfl, hreturned⟩ := h
  have hlt : k < before.length := Nat.lt_of_le_of_ne hk fun heq => hnot (hreturned.mpr heq)
  refine ⟨k, ?_, ?_, ?_⟩
  · rw [List.length_append]
    exact Nat.le_add_right_of_le hk
  · rw [List.take_append_of_le_length hk, List.drop_append_of_le_length hk, List.append_assoc]
  · refine iff_of_false hnot fun heq => ?_
    rw [List.length_append] at heq
    omega

theorem Advances.eq_map (h : Advances g before after returned) (hreturned : returned) :
    after = before.map g := by
  obtain ⟨k, -, rfl, hiff⟩ := h
  rw [hiff.mp hreturned, List.take_length, List.drop_length, List.append_nil]

end Advances

/-- A pass changes the parts of an element one by one, until a call fails. -/
def Sweeps {γ : Type v} (parts : α → List γ) (g : γ → γ) (f : Pass ε α) : Prop :=
  ∀ n a, Advances g (parts a) (parts (f n a).2) (IsOk (f n a).1)

namespace Sweeps

variable {γ : Type v} {g : γ → γ} {parts : α → List γ}

theorem attempt {g : α → α} {f : ℕ → α → Outcome ε (ℕ × α)}
    (h : ∀ n a n' a', f n a = ok (n', a') → a' = g a) :
    Sweeps (fun a => [a]) g (Visit.attempt f) := by
  intro n a
  rw [Visit.attempt]
  cases hpass : f n a with
  | ok value =>
    refine ⟨1, Nat.le_refl 1, ?_, iff_of_true (isOk_ok _) rfl⟩
    rw [h n a value.1 value.2 hpass]
    rfl
  | err e => exact ⟨0, Nat.zero_le _, rfl, iff_of_false (not_isOk_err e) Nat.zero_ne_one⟩
  | panic => exact ⟨0, Nat.zero_le _, rfl, iff_of_false not_isOk_panic Nat.zero_ne_one⟩

theorem within {get : β → α} {set : α → β → β} (hget : ∀ a b, get (set a b) = a)
    {f : β → Pass ε α} (h : ∀ b, Sweeps parts g (f b)) :
    Sweeps (fun b => parts (get b)) g (Visit.within get set f) := by
  intro n b
  rw [Visit.within]
  dsimp only
  rw [hget]
  exact h b n (get b)

theorem visit {f : Pass ε α} (h : Sweeps parts g f) :
    Sweeps (fun as => as.flatMap parts) g (Visit.visit f) := by
  intro n as
  induction as generalizing n with
  | nil => exact ⟨0, Nat.le_refl 0, rfl, iff_of_true (isOk_ok n) rfl⟩
  | cons a as ih =>
    have hone := h n a
    rw [Visit.visit]
    cases hpass : (f n a).1 with
    | ok n' =>
      rw [hpass] at hone
      exact (ih n').append (hone.eq_map (isOk_ok n'))
    | err e =>
      rw [hpass] at hone
      exact hone.append_of_not (not_isOk_err e) _
    | panic =>
      rw [hpass] at hone
      exact hone.append_of_not not_isOk_panic _

end Sweeps

/-! ## How far the calls carry a pass -/

/-- A list is changed as far as the calls of its elements succeed, and the outcome says if that is
all of it.  The first element that is not changed has a call that fails. -/
def Reached {γ : Type v} (answers : ℕ → κ → Prop) (calls : γ → List κ) (g : γ → γ) (n : ℕ)
    (before after : List γ) (outcome : Outcome ε ℕ) : Prop :=
  ∃ done rest, before = done ++ rest ∧ after = done.map g ++ rest ∧
    Succeed answers n (done.flatMap calls) ∧
    (∀ p ∈ rest.head?, ¬ Succeed answers n ((done ++ [p]).flatMap calls)) ∧
    (IsOk outcome ↔ rest = []) ∧ (rest = [] → outcome = ok (n + (done.flatMap calls).length))

section Reached

variable {γ : Type v} {calls : γ → List κ} {g : γ → γ} {n : ℕ}

theorem reached_nil : Reached answers calls g n [] [] (ok n : Outcome ε ℕ) :=
  ⟨[], [], rfl, rfl, succeed_nil n, nofun, iff_of_true (isOk_ok n) rfl, fun _ => rfl⟩

/-- Behind what is changed as a whole, the rest is changed as far as it is. -/
theorem Reached.append {before after rest rest' : List γ} {n' : ℕ} {outcome : Outcome ε ℕ}
    (h : Reached answers calls g n before after (ok n' : Outcome ε ℕ))
    (hrest : Reached answers calls g n' rest rest' outcome) :
    Reached answers calls g n (before ++ rest) (after ++ rest') outcome := by
  obtain ⟨done, left, rfl, rfl, hdone, -, hall, hn⟩ := h
  obtain rfl : left = [] := hall.mp (isOk_ok n')
  obtain rfl : n' = n + (done.flatMap calls).length := Outcome.ok.inj (hn rfl)
  obtain ⟨done', left', rfl, rfl, hdone', hstop, hall', hn'⟩ := hrest
  refine ⟨done ++ done', left', by simp, by simp, ?_, fun p hp hcalls => ?_, hall', fun hnil => ?_⟩
  · rw [List.flatMap_append, succeed_append]
    exact ⟨hdone, hdone'⟩
  · rw [List.append_assoc, List.flatMap_append, succeed_append] at hcalls
    exact hstop p hp hcalls.2
  · rw [hn' hnil, List.flatMap_append, List.length_append, Nat.add_assoc]

/-- Behind what is not changed as a whole, the rest stays as it was. -/
theorem Reached.append_of_not {before after : List γ} {outcome : Outcome ε ℕ}
    (h : Reached answers calls g n before after outcome) (hnot : ¬ IsOk outcome)
    (rest : List γ) : Reached answers calls g n (before ++ rest) (after ++ rest) outcome := by
  obtain ⟨done, left, rfl, rfl, hdone, hstop, hall, -⟩ := h
  have hleft : left ≠ [] := fun hnil => hnot (hall.mpr hnil)
  obtain ⟨p, left, rfl⟩ := List.exists_cons_of_ne_nil hleft
  refine ⟨done, p :: left ++ rest, by simp, by simp, hdone, fun q hq => ?_, ?_, nofun⟩
  · cases hq
    exact hstop p rfl
  · exact iff_of_false hnot nofun

end Reached

/-- A pass changes the parts of an element as far as the calls that they ask for succeed. -/
def Reaches {γ : Type v} (answers : ℕ → κ → Prop) (parts : α → List γ) (calls : γ → List κ)
    (g : γ → γ) (f : Pass ε α) : Prop :=
  ∀ n a, Reached answers calls g n (parts a) (parts (f n a).2) (f n a).1

namespace Reaches

variable {γ : Type v} {calls : γ → List κ} {g : γ → γ}

/-- An element without parts of its own. -/
theorem single {view : α → γ} {f : Pass ε α}
    (hreturns : ∀ n a, Succeed answers n (calls (view a)) →
      (f n a).1 = ok (n + (calls (view a)).length) ∧ view (f n a).2 = g (view a))
    (hfails : ∀ n a, ¬ Succeed answers n (calls (view a)) →
      ¬ IsOk (f n a).1 ∧ view (f n a).2 = view a) :
    Reaches answers (fun a => [view a]) calls g f := by
  intro n a
  by_cases hcalls : Succeed answers n (calls (view a))
  · obtain ⟨hok, hview⟩ := hreturns n a hcalls
    refine ⟨[view a], [], rfl, congrArg (fun v => [v]) hview, ?_, nofun, ?_, fun _ => ?_⟩
    · rwa [List.flatMap_singleton]
    · exact iff_of_true ⟨_, hok⟩ rfl
    · rw [hok, List.flatMap_singleton]
  · obtain ⟨hnot, hview⟩ := hfails n a hcalls
    refine ⟨[], [view a], rfl, congrArg (fun v => [v]) hview, succeed_nil n, fun p hp => ?_,
      iff_of_false hnot nofun, nofun⟩
    cases hp
    rwa [List.nil_append, List.flatMap_singleton]

/-- What the parts of an element are may depend on what is not changed of it. -/
theorem within {get : β → α} {set : α → β → β} (hget : ∀ a b, get (set a b) = a)
    {parts : β → α → List γ} (hparts : ∀ a b, parts (set a b) = parts b) {f : β → Pass ε α}
    (h : ∀ b, Reaches answers (parts b) calls g (f b)) :
    Reaches answers (fun b => parts b (get b)) calls g (Visit.within get set f) := by
  intro n b
  rw [Visit.within]
  dsimp only
  rw [hget, hparts]
  exact h b n (get b)

theorem visit {parts : α → List γ} {f : Pass ε α} (h : Reaches answers parts calls g f) :
    Reaches answers (fun as => as.flatMap parts) calls g (Visit.visit f) := by
  intro n as
  induction as generalizing n with
  | nil => exact reached_nil
  | cons a as ih =>
    have hone := h n a
    rw [Visit.visit]
    cases hpass : (f n a).1 with
    | ok n' =>
      rw [hpass] at hone
      exact hone.append (ih n')
    | err e =>
      rw [hpass] at hone
      exact hone.append_of_not (not_isOk_err e) _
    | panic =>
      rw [hpass] at hone
      exact hone.append_of_not not_isOk_panic _

end Reaches

end Visit
