import Mathlib.Data.Nat.Notation
import Mathlib.Order.Basic

/-!
# Foundations/Channel — a bounded queue of messages

A channel delivers its messages in the order they were sent, each of them once, and never holds more
than its capacity: the bound is a field of the structure.  A send is enabled while there is room, a
receive while there is a message.
-/

universe u

/-- A bounded channel: the messages in flight, the oldest first. -/
structure Channel (capacity : ℕ) (μ : Type u) where
  queue : List μ
  bounded : queue.length ≤ capacity

namespace Channel

variable {capacity : ℕ} {μ : Type u}

@[ext] theorem ext {c d : Channel capacity μ} (h : c.queue = d.queue) : c = d := by
  cases c
  cases d
  cases h
  rfl

/-- A channel with nothing in flight. -/
def empty : Channel capacity μ := ⟨[], Nat.zero_le capacity⟩

@[simp] theorem queue_empty : (empty : Channel capacity μ).queue = [] := rfl

/-- There is no room for another message. -/
def IsFull (c : Channel capacity μ) : Prop := c.queue.length = capacity

instance (c : Channel capacity μ) : Decidable c.IsFull := inferInstanceAs (Decidable (_ = _))

/-- A message is sent if there is room for it. -/
def trySend (c : Channel capacity μ) (message : μ) : Option (Channel capacity μ) :=
  if h : c.queue.length < capacity then
    some ⟨c.queue ++ [message], by rw [List.length_append]; exact h⟩
  else none

/-- The oldest message is received, if there is one. -/
def tryRecv : Channel capacity μ → Option (μ × Channel capacity μ)
  | ⟨[], _⟩ => none
  | ⟨message :: rest, h⟩ => some (message, ⟨rest, Nat.le_of_succ_le h⟩)

theorem trySend_eq_some {c c' : Channel capacity μ} {message : μ} :
    c.trySend message = some c' ↔ ¬ c.IsFull ∧ c'.queue = c.queue ++ [message] := by
  have hroom : c.queue.length < capacity ↔ ¬ c.IsFull := Nat.lt_iff_le_and_ne.trans
    (and_iff_right c.bounded)
  rw [trySend]
  split_ifs with h
  · rw [Option.some_inj, Channel.ext_iff, eq_comm]
    exact (and_iff_right (hroom.mp h)).symm
  · exact iff_of_false nofun fun hc => h (hroom.mpr hc.1)

theorem trySend_eq_none {c : Channel capacity μ} {message : μ} :
    c.trySend message = none ↔ c.IsFull := by
  rw [trySend]
  split_ifs with h
  · exact iff_of_false nofun (Nat.ne_of_lt h)
  · exact iff_of_true rfl (Nat.le_antisymm c.bounded (Nat.not_lt.mp h))

theorem tryRecv_eq_some {c c' : Channel capacity μ} {message : μ} :
    c.tryRecv = some (message, c') ↔ c.queue = message :: c'.queue := by
  obtain ⟨queue, hbounded⟩ := c
  cases queue with
  | nil => exact iff_of_false nofun nofun
  | cons first rest =>
    simp only [tryRecv, Option.some.injEq, Prod.mk.injEq, List.cons.injEq, Channel.ext_iff]

end Channel
