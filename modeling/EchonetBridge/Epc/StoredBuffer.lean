import EchonetBridge.Epc.FactoryContract
import EchonetBridge.Epc.Runs

/-!
# Epc/StoredBuffer — what is stored was accepted

The representation invariant of a property over a run of writes (`StoredBuffer`): a header, a
payload, and a validator that said yes when they were stored.  `fromCanonical` keeps it; `set` keeps
it as long as no payload is refused quietly (`storedBuffer_run_iff`).
-/

namespace Echonet

open Outcome

namespace StaticNodeProperty

variable {T : Type} (p : StaticNodeProperty T)

/-! ## Verdicts -/

/-- The buffer a call stores, with what the validator says of it as the call is made. -/
def verdict (cells : Cells) (call : Call T) : Option (List UInt8 × Outcome EpcError Bool) :=
  match p.call cells call with
  | (.ok (), stored) => some (stored.lastValue, p.validatorFn (p.ref cells) stored.lastValue)
  | _ => none

/-- The buffers stored along a run, in order, with their verdicts. -/
def verdicts (calls : List (Call T)) : List (List UInt8 × Outcome EpcError Bool) :=
  Machine.outputs (fun cells call => (p.call cells call).2) p.verdict .fresh calls

theorem verdict_of_stored {cells : Cells} {call : Call T} {buf : List UInt8} {ms : Int64}
    (h : p.call cells call = (.ok (), ⟨buf, ms⟩)) :
    p.verdict cells call = some (buf, p.validatorFn (p.ref cells) buf) := by
  rw [verdict, h]

theorem verdict_of_failed {cells : Cells} {call : Call T} (h : (p.call cells call).1 ≠ .ok ()) :
    p.verdict cells call = none := by
  unfold verdict
  split
  · next heq => exact absurd (congrArg Prod.fst heq) h
  · rfl

theorem verdicts_concat (calls : List (Call T)) (call : Call T) :
    p.verdicts (calls ++ [call]) = p.verdicts calls ++ (p.verdict (p.run calls) call).toList :=
  Machine.outputs_concat _ _ _ calls call

/-- A buffer that is stored is the last one stored. -/
theorem getLast?_verdicts_of_stored {calls : List (Call T)} {call : Call T} {buf : List UInt8}
    {ms : Int64} (h : p.call (p.run calls) call = (.ok (), ⟨buf, ms⟩)) :
    (p.verdicts (calls ++ [call])).getLast?
      = some (buf, p.validatorFn (p.ref (p.run calls)) buf) := by
  rw [verdicts_concat, p.verdict_of_stored h, Option.toList_some, List.getLast?_concat]

/-- A call that fails stores nothing. -/
theorem verdicts_of_failed {calls : List (Call T)} {call : Call T}
    (h : (p.call (p.run calls) call).1 ≠ .ok ()) :
    p.verdicts (calls ++ [call]) = p.verdicts calls := by
  rw [verdicts_concat, p.verdict_of_failed h, Option.toList_none, List.append_nil]

/-! ## The invariant -/

/-- The cells after a run hold a buffer of the property that the validator said yes to. -/
structure HoldsAccepted (calls : List (Call T)) : Prop where
  updated : (p.run calls).lastUpdated ≠ 0
  two_le : 2 ≤ (p.run calls).lastValue.length
  epc : (p.run calls).lastValue[0]? = some p.epc
  pdc : (p.run calls).lastValue[1]?
    = some (UInt8.ofNat (min ((p.run calls).lastValue.length - 2) 255))
  accepted : (p.verdicts calls).getLast? = some ((p.run calls).lastValue, .ok true)

/-- **The representation invariant**: nothing was ever stored, or what is stored was accepted. -/
def StoredBuffer (calls : List (Call T)) : Prop := p.run calls = .fresh ∨ p.HoldsAccepted calls

theorem clampLength_eq (n : ℕ) : clampLength n = UInt8.ofNat (min n 255) := by
  rw [clampLength]
  split_ifs with h
  · rw [min_eq_right (Nat.le_of_lt h)]
    rfl
  · rw [min_eq_left (Nat.not_lt.mp h)]

/-- A call that stores what the validator says yes to establishes the invariant. -/
theorem holdsAccepted_of_stored {calls : List (Call T)} {call : Call T} {payload : List UInt8}
    (hv : p.validatorFn (p.ref (p.run calls)) (frame p.epc payload) = .ok true)
    (h : p.call (p.run calls) call = (.ok (), ⟨frame p.epc payload, call.now.1⟩)) :
    p.HoldsAccepted (calls ++ [call]) := by
  have hrun : p.run (calls ++ [call]) = ⟨frame p.epc payload, call.now.1⟩ := by
    rw [run_concat, h]
  have hlast := p.getLast?_verdicts_of_stored h
  rw [hv] at hlast
  refine ⟨?_, ?_, ?_, ?_, ?_⟩
  · rw [hrun]
    exact call.now.2
  · rw [hrun, length_frame]
    exact Nat.le_add_left 2 _
  · rw [hrun]
    rfl
  · rw [hrun, length_frame, Nat.add_sub_cancel, ← clampLength_eq]
    rfl
  · rw [hrun]
    exact hlast

/-- A call that fails keeps the invariant. -/
theorem storedBuffer_of_failed {calls : List (Call T)} {call : Call T}
    (hinv : p.StoredBuffer calls) (hne : (p.call (p.run calls) call).1 ≠ .ok ())
    (hsame : (p.call (p.run calls) call).2 = p.run calls) : p.StoredBuffer (calls ++ [call]) := by
  have hrun : p.run (calls ++ [call]) = p.run calls := by rw [run_concat, hsame]
  rcases hinv with hfresh | hinv
  · exact Or.inl (hrun.trans hfresh)
  · refine Or.inr ⟨?_, ?_, ?_, ?_, ?_⟩ <;> rw [hrun]
    · exact hinv.updated
    · exact hinv.two_le
    · exact hinv.epc
    · exact hinv.pdc
    · rw [p.verdicts_of_failed hne]
      exact hinv.accepted

/-! ## Runs -/

section Runs

variable {p} {law : Prop} {quiet unreadable : List UInt8 → Prop}

/-- **One call keeps the invariant**, unless it sets a payload that is refused quietly. -/
theorem storedBuffer_call (hc : p.Contract law quiet unreadable) {calls : List (Call T)}
    (hinv : p.StoredBuffer calls) (call : Call T)
    (hloud : ∀ payload now, call = .set payload now → ¬ quiet payload) :
    p.StoredBuffer (calls ++ [call]) := by
  rcases p.call_cases (p.run calls) call with
    ⟨payload, answer, hpayload, hv, hset, hcall⟩ | ⟨hne, hsame⟩
  · have hyes : answer = true := by
      by_contra hno
      obtain ⟨now, rfl⟩ := hset (Bool.eq_false_iff.mpr hno)
      rw [Bool.eq_false_iff.mpr hno, hc.quiet_iff _ rfl] at hv
      exact hloud payload now rfl hv
    subst hyes
    exact Or.inr (p.holdsAccepted_of_stored hv hcall)
  · exact p.storedBuffer_of_failed hinv hne hsame

/-- Setting a payload that is refused quietly stores it, and breaks the invariant. -/
theorem not_storedBuffer_of_quiet (hc : p.Contract law quiet unreadable) (calls : List (Call T))
    {payload : List UInt8} (hquiet : quiet payload) (now : ClockReading) :
    ¬ p.StoredBuffer (calls ++ [.set payload now]) := by
  have hv := (hc.quiet_iff (p.ref (p.run calls)) rfl payload).mpr hquiet
  have hcall : p.call (p.run calls) (.set payload now) = (.ok (), ⟨frame p.epc payload, now.1⟩) :=
    p.set_of_ok hv now
  have hlast := p.getLast?_verdicts_of_stored hcall
  rintro (hfresh | hinv)
  · rw [run_concat, hcall] at hfresh
    exact now.2 (congrArg Cells.lastUpdated hfresh)
  · rw [hv, hinv.accepted, run_concat, hcall] at hlast
    simp at hlast

/-- A run that sets no payload that is refused quietly keeps the invariant. -/
theorem storedBuffer_run (hc : p.Contract law quiet unreadable) (calls : List (Call T))
    (hloud : ∀ payload now, Call.set payload now ∈ calls → ¬ quiet payload) :
    p.StoredBuffer calls := by
  refine @Machine.run_history _ _ (fun cells call => (p.call cells call).2)
    (fun pre _ => (∀ payload now, Call.set payload now ∈ pre → ¬ quiet payload) →
      p.StoredBuffer pre) .fresh (fun _ => Or.inl rfl) (fun pre call ih hpre => ?_) calls hloud
  refine storedBuffer_call hc (ih fun payload now hmem => ?_) call ?_
  · exact hpre payload now (List.mem_append_left _ hmem)
  · rintro payload now rfl
    exact hpre payload now (List.mem_append_right _ (List.mem_singleton.mpr rfl))

/-- The invariant holds all along a run exactly when no payload that is refused quietly is set. -/
theorem Contract.storedBuffer_iff (hc : p.Contract law quiet unreadable)
    (calls : List (Call T)) :
    (∀ pre, pre <+: calls → p.StoredBuffer pre) ↔
      ∀ payload now, Call.set payload now ∈ calls → ¬ quiet payload := by
  constructor
  · intro hinv payload now hmem hquiet
    obtain ⟨pre, post, rfl⟩ := List.append_of_mem hmem
    refine not_storedBuffer_of_quiet hc pre hquiet now (hinv _ ⟨post, ?_⟩)
    rw [List.append_assoc, List.singleton_append]
  · intro hloud pre hpre
    exact storedBuffer_run hc pre fun payload now hmem => hloud payload now (hpre.subset hmem)

end Runs

end StaticNodeProperty

/-! ## The properties of the factory -/

/-- **What a property of the factory stores was accepted**, all along a run, exactly when no payload
that its validator refuses quietly is set. -/
theorem storedBuffer_run_iff {F : Type} [F64 F] [Chrono] {groupClass : NodeGroupClass} {epc : UInt8}
    {w : EpcWrapper} (h : propertyFactory F groupClass epc = .ok w)
    (calls : List (Call w.Canonical)) :
    (∀ pre, pre <+: calls → w.property.StoredBuffer pre) ↔
      ∀ payload now, Call.set payload now ∈ calls → ¬ RefusesQuietly epc payload :=
  (propertyFactory_meets h).contract.storedBuffer_iff calls

theorem storedBuffer_run_iff_room :
    ∃ w, hostFactory classProfileNodeProfile epcInstallationLocation = .ok w ∧
      ∀ pre, pre <+: [Call.set [0x08] ⟨1, by decide⟩] → w.property.StoredBuffer pre := by
  let := Calendar.chrono
  obtain ⟨w, hw⟩ : ∃ w, hostFactory classProfileNodeProfile epcInstallationLocation = .ok w :=
    ⟨_, rfl⟩
  refine ⟨w, hw, (storedBuffer_run_iff hw _).mpr fun payload now hmem => ?_⟩
  cases List.mem_singleton.mp hmem
  simp [RefusesQuietly]

/-- One byte is no list of objects: the validator says no, and the byte is stored. -/
theorem short_list_stored :
    ∃ w, hostFactory classProfileNodeProfile epcInstanceListNotification = .ok w ∧
      ¬ w.property.StoredBuffer [.set [0x01] ⟨1, by decide⟩] := by
  refine ⟨_, rfl, ?_⟩
  rintro (hfresh | hinv)
  · exact absurd hfresh (by decide)
  · exact nomatch hinv.accepted

end Echonet
