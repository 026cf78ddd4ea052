import EchonetBridge.Epc.Property

/-!
# Epc/Runs — what a property holds after any sequence of writes

`call_cases` says once what a write can do.  From it: the stored buffer is always a payload behind
its header, and what `get` returns is the payload of the last call that succeeded (`get_run`).
-/

namespace Echonet

open Outcome

namespace Call

variable {T : Type}

/-- The reading of the clock a call makes. -/
def now : Call T → ClockReading
  | .set _ now => now
  | .fromCanonical _ now => now

end Call

namespace StaticNodeProperty

variable {T : Type} (p : StaticNodeProperty T)

/-! ## One write -/

/-- `set` stores what the validator answers on. -/
theorem set_of_ok {cells : Cells} {payload : List UInt8} {answer : Bool}
    (h : p.validatorFn (p.ref cells) (frame p.epc payload) = .ok answer) (now : ClockReading) :
    p.set cells payload now = (.ok (), ⟨frame p.epc payload, now.1⟩) := by
  simp only [set, h]

/-- Filling in the header of a buffer frames its payload. -/
theorem header_eq_frame (epc : UInt8) {internal : List UInt8} (h : ¬ internal.length < 2) :
    (internal.set 0 epc).set 1 (clampLength (internal.length - 2))
      = frame epc (internal.drop 2) := by
  obtain _ | ⟨a, _ | ⟨b, rest⟩⟩ := internal
  · exact absurd Nat.zero_lt_two h
  · exact absurd Nat.one_lt_two h
  · rfl

/-- **One write** stores the framed payload when the validator answers, and has no effect otherwise.
Only `set` stores a payload the validator said no to. -/
theorem call_cases (cells : Cells) (call : Call T) :
    (∃ payload answer, p.payload cells call = some payload ∧
      p.validatorFn (p.ref cells) (frame p.epc payload) = .ok answer ∧
      (answer = false → ∃ now, call = .set payload now) ∧
      p.call cells call = (.ok (), ⟨frame p.epc payload, call.now.1⟩)) ∨
    ((p.call cells call).1 ≠ .ok () ∧ (p.call cells call).2 = cells) := by
  cases call with
  | set payload now =>
    cases hv : p.validatorFn (p.ref cells) (frame p.epc payload) with
    | ok answer => exact Or.inl ⟨payload, answer, rfl, hv, fun _ => ⟨now, rfl⟩, p.set_of_ok hv now⟩
    | err e => exact Or.inr (by simp [call, set, hv])
    | panic => exact Or.inr (by simp [call, set, hv])
  | fromCanonical canonical now =>
    rw [call, fromCanonical, payload]
    cases hf : p.fromCanonicalFn (p.ref cells) canonical with
    | ok internal =>
      by_cases hlen : internal.length < 2
      · refine Or.inr ?_
        dsimp only
        rw [if_pos hlen]
        exact ⟨nofun, rfl⟩
      · dsimp only
        rw [if_neg hlen, header_eq_frame p.epc hlen]
        cases hv : p.validatorFn (p.ref cells) (frame p.epc (internal.drop 2)) with
        | ok answer =>
          cases answer with
          | true => exact Or.inl ⟨internal.drop 2, true, rfl, hv, nofun, rfl⟩
          | false => exact Or.inr ⟨nofun, rfl⟩
        | err e => exact Or.inr ⟨nofun, rfl⟩
        | panic => exact Or.inr ⟨nofun, rfl⟩
    | err e => exact Or.inr ⟨nofun, rfl⟩
    | panic => exact Or.inr ⟨nofun, rfl⟩

/-! ## The stored buffer -/

/-- The validator has answered on a payload, whatever it answered. -/
def Answered (payload : List UInt8) : Prop :=
  ∃ r answer, r.epc = p.epc ∧ p.validatorFn r (frame p.epc payload) = .ok answer

/-- Nothing was ever stored, or a payload behind its header on which the validator has answered. -/
def Framed (cells : Cells) : Prop :=
  cells = .fresh ∨
    cells.lastUpdated ≠ 0 ∧ ∃ payload, cells.lastValue = frame p.epc payload ∧ p.Answered payload

theorem framed_call {cells : Cells} (h : p.Framed cells) (call : Call T) :
    p.Framed (p.call cells call).2 := by
  rcases p.call_cases cells call with ⟨payload, answer, -, hv, -, heq⟩ | ⟨-, heq⟩
  · rw [heq]
    exact Or.inr ⟨call.now.2, payload, rfl, p.ref cells, answer, rfl, hv⟩
  · rw [heq]
    exact h

theorem framed_run (calls : List (Call T)) : p.Framed (p.run calls) :=
  Machine.run_invariant p.Framed (fun _ => True) (fun _ call _ h => p.framed_call h call)
    (Or.inl rfl) calls fun _ _ => trivial

/-! ## The last write wins -/

/-- The payload a call stores, if it succeeds. -/
def stored (cells : Cells) (call : Call T) : Option (List UInt8) :=
  match (p.call cells call).1 with
  | .ok () => p.payload cells call
  | _ => none

/-- The payloads of the calls that succeeded, in order. -/
def accepted (calls : List (Call T)) : List (List UInt8) :=
  Machine.outputs (fun cells call => (p.call cells call).2) p.stored .fresh calls

/-- The register a property implements: the payload that is stored, if there is one. -/
def register (cells : Cells) : Option (List UInt8) :=
  if cells.lastUpdated = 0 then none else some (cells.lastValue.drop 2)

theorem register_call (cells : Cells) (call : Call T) :
    register (p.call cells call).2 = (p.stored cells call).or (register cells) := by
  rcases p.call_cases cells call with ⟨payload, _, hpayload, -, -, heq⟩ | ⟨hne, heq⟩
  · rw [stored, heq, hpayload, register, if_neg call.now.2]
    rfl
  · have hnone : p.stored cells call = none := by
      unfold stored
      split
      · next h => exact absurd h hne
      · rfl
    rw [heq, hnone, Option.none_or]

/-- Reading a framed property reads its register. -/
theorem get_eq_register {cells : Cells} (h : p.Framed cells) :
    p.get cells = match register cells with
      | none => .err (.noValue p.epc)
      | some payload => .ok payload := by
  rcases h with rfl | ⟨hne, payload, hvalue, -⟩
  · rfl
  · rw [get, register, if_neg hne, if_neg hne, sliceFrom_of_le]
    rw [hvalue, length_frame]
    exact Nat.le_add_left 2 _

/-- **The last successful write wins, and failed writes leave no trace.** -/
theorem get_run (calls : List (Call T)) :
    (p.get (p.run calls) = match (p.accepted calls).getLast? with
      | none => .err (.noValue p.epc)
      | some payload => .ok payload) ∧
    ∀ call e, (p.call (p.run calls) call).1 = .err e →
      (p.call (p.run calls) call).2 = p.run calls := by
  refine ⟨?_, fun call e he => ?_⟩
  · have hview : register (p.run calls) = (p.accepted calls).getLast? :=
      Machine.view_eq_getLast? register p.register_call (by rfl) calls
    rw [p.get_eq_register (p.framed_run calls), hview]
  · rcases p.call_cases (p.run calls) call with ⟨_, _, -, -, -, heq⟩ | ⟨-, heq⟩
    · rw [heq] at he
      exact nomatch he
    · exact heq

end StaticNodeProperty

end Echonet
