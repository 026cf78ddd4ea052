import Mathlib.Data.List.Induction
import Mathlib.Data.List.Infix

/-!
# Foundations/Machine — runs of a state machine

The kinds of machine, each with the rule that lifts a fact about one step to a fact about every
finite run: a machine that reacts to every input (`run`), one that puts out a value at some of its
steps (`outputs`), one that replies to every input (`replies`), and one whose steps are guarded
(`exec`).
-/

universe u v w

namespace Machine

variable {σ : Type u} {τ : Type*} {ι : Type v} {ο : Type w}

/-! ## Machines that react to every input -/

section Run

variable (step : σ → ι → σ)

/-- The state after a finite sequence of inputs. -/
def run (s : σ) (is : List ι) : σ := is.foldl step s

@[simp] theorem run_nil (s : σ) : run step s [] = s := rfl

@[simp] theorem run_cons (s : σ) (i : ι) (is : List ι) :
    run step s (i :: is) = run step (step s i) is := rfl

theorem run_append (s : σ) (is js : List ι) :
    run step s (is ++ js) = run step (run step s is) js := List.foldl_append

theorem run_concat (s : σ) (is : List ι) (i : ι) :
    run step s (is ++ [i]) = step (run step s is) i := by
  rw [run_append, run_cons, run_nil]

variable {step}

/-- **The invariant rule**, for runs whose inputs are all admissible. -/
theorem run_invariant (Inv : σ → Prop) (Ok : ι → Prop)
    (hstep : ∀ s i, Ok i → Inv s → Inv (step s i)) {s : σ} (h0 : Inv s) (is : List ι)
    (his : ∀ i ∈ is, Ok i) : Inv (run step s is) := by
  induction is generalizing s with
  | nil => exact h0
  | cons i is ih =>
    exact ih (hstep s i (his i List.mem_cons_self) h0)
      fun j hj => his j (List.mem_cons_of_mem i hj)

/-- **The invariant rule with history**: the invariant may speak of the inputs so far. -/
theorem run_history (Inv : List ι → σ → Prop) {s : σ} (h0 : Inv [] s)
    (hstep : ∀ pre i, Inv pre (run step s pre) → Inv (pre ++ [i]) (step (run step s pre) i))
    (is : List ι) : Inv is (run step s is) := by
  induction is using List.reverseRecOn with
  | nil => exact h0
  | append_singleton is i ih =>
    rw [run_concat]
    exact hstep is i ih

end Run

/-! ## Machines that put out a value at some of their steps -/

section Outputs

variable (step : σ → ι → σ) (out : σ → ι → Option ο)

/-- The values put out along a run, in order. -/
def outputs : σ → List ι → List ο
  | _, [] => []
  | s, i :: is => (out s i).toList ++ outputs (step s i) is

theorem outputs_concat (s : σ) (is : List ι) (i : ι) :
    outputs step out s (is ++ [i])
      = outputs step out s is ++ (out (run step s is) i).toList := by
  induction is generalizing s with
  | nil => simp [outputs]
  | cons j is ih => rw [List.cons_append, outputs, outputs, ih, List.append_assoc, run_cons]

variable {step out}

/-- **The last value put out wins**: a view of the state that every output replaces, and nothing
else changes, is the last output of the run. -/
theorem view_eq_getLast? (view : σ → Option ο)
    (hstep : ∀ s i, view (step s i) = (out s i).or (view s)) {s : σ} (h0 : view s = none)
    (is : List ι) :
    view (run step s is) = (outputs step out s is).getLast? := by
  induction is using List.reverseRecOn with
  | nil => exact h0
  | append_singleton is i ih =>
    rw [run_concat, outputs_concat, hstep, ih, List.getLast?_append]
    cases out (run step s is) i <;> rfl

end Outputs

/-! ## Machines that reply -/

section Replies

/-- The replies to a finite sequence of inputs. -/
def replies (step : σ → ι → ο × σ) : σ → List ι → List ο
  | _, [] => []
  | s, i :: is => (step s i).1 :: replies step (step s i).2 is

/-- The state a replying machine is left in. -/
def final (step : σ → ι → ο × σ) (s : σ) (is : List ι) : σ := run (fun s i => (step s i).2) s is

/-- **Simulation**: two machines that agree on every reply and keep a relation between their
states give the same replies to every sequence of inputs, and end related. -/
theorem simulation {stepA : σ → ι → ο × σ} {stepB : τ → ι → ο × τ} (R : σ → τ → Prop)
    (hstep : ∀ a b i, R a b → (stepA a i).1 = (stepB b i).1 ∧ R (stepA a i).2 (stepB b i).2)
    {a : σ} {b : τ} (h0 : R a b) (is : List ι) :
    replies stepA a is = replies stepB b is ∧ R (final stepA a is) (final stepB b is) := by
  induction is generalizing a b with
  | nil => exact ⟨rfl, h0⟩
  | cons i is ih =>
    obtain ⟨hreply, hrel⟩ := hstep a b i h0
    obtain ⟨hrest, hfinal⟩ := ih hrel
    exact ⟨by rw [replies, replies, hreply, hrest], hfinal⟩

end Replies

/-! ## Machines with guarded steps -/

section Exec

variable (step : σ → ι → Option σ)

/-- The state after a sequence of steps, if every one of them was enabled. -/
def exec : σ → List ι → Option σ
  | s, [] => some s
  | s, i :: is => (step s i).bind fun s' => exec s' is

@[simp] theorem exec_nil (s : σ) : exec step s [] = some s := rfl

@[simp] theorem exec_cons (s : σ) (i : ι) (is : List ι) :
    exec step s (i :: is) = (step s i).bind fun s' => exec step s' is := rfl

theorem exec_append (s : σ) (is js : List ι) :
    exec step s (is ++ js) = (exec step s is).bind fun s' => exec step s' js := by
  induction is generalizing s with
  | nil => rfl
  | cons i is ih =>
    rw [List.cons_append, exec_cons, exec_cons, Option.bind_assoc]
    exact congrArg _ (funext ih)

/-- A run splits at any point of its steps. -/
theorem exec_append_eq_some {s s'' : σ} {is js : List ι} :
    exec step s (is ++ js) = some s''
      ↔ ∃ s', exec step s is = some s' ∧ exec step s' js = some s'' := by
  rw [exec_append, Option.bind_eq_some_iff]

theorem exec_concat_eq_some {s s'' : σ} {is : List ι} {i : ι} :
    exec step s (is ++ [i]) = some s'' ↔ ∃ s', exec step s is = some s' ∧ step s' i = some s'' := by
  rw [exec_append_eq_some]
  refine exists_congr fun s' => and_congr_right fun _ => ?_
  rw [exec_cons]
  cases step s' i <;> rfl

variable {step}

/-- **The invariant rule for guarded runs**, with the steps taken so far. -/
theorem exec_history (Inv : List ι → σ → Prop) {s₀ : σ} (h0 : Inv [] s₀)
    (hstep : ∀ pre s i s', exec step s₀ pre = some s → Inv pre s → step s i = some s' →
      Inv (pre ++ [i]) s')
    (is : List ι) {s : σ} (h : exec step s₀ is = some s) : Inv is s := by
  induction is using List.reverseRecOn generalizing s with
  | nil =>
    cases h
    exact h0
  | append_singleton is i ih =>
    obtain ⟨s', hs', hlast⟩ := (exec_concat_eq_some step).mp h
    exact hstep is s' i s hs' (ih hs') hlast

end Exec

end Machine
