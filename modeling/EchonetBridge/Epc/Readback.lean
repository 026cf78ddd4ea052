import EchonetBridge.Epc.FactoryContract
import EchonetBridge.Epc.RoundTrip

/-!
# Epc/Readback — reading what was stored, and storing what was read

Consequences of the contract of a property.  What a fresh property accepts can be read, but for the
payloads that are `Unreadable` (`set_readable_iff`), and so can what any run of writes has left in a
property (`run_readable_iff`).  It can be set again, and changes nothing (`set_get`), or set on
another instance, which then reads the same (`set_get_other`).
-/

namespace Echonet

open Outcome

namespace StaticNodeProperty

variable {T : Type} {p : StaticNodeProperty T} {law : Prop} {quiet unreadable : List UInt8 → Prop}

/-! ## Reading what was stored -/

/-- What a fresh property accepts can be read, exactly when it is not one of the payloads that its
contract names. -/
theorem Contract.readable_of_set_iff (hc : p.Contract law quiet unreadable) (hlaw : law)
    (payload : List UInt8) (now : ClockReading) :
    ((p.set .fresh payload now).1 ≠ .panic ∧
        ((p.set .fresh payload now).1 = .ok () →
          IsOk (p.toCanonical (p.set .fresh payload now).2))) ↔ ¬ unreadable payload := by
  have hfresh : (p.ref .fresh).toCanonical = .err (.noValue p.epc) := rfl
  cases hv : p.validatorFn (p.ref .fresh) (frame p.epc payload) with
  | ok answer =>
    rw [p.set_of_ok hv now, toCanonical_frame, ← hc.readable hlaw _ _ rfl hfresh payload answer hv]
    exact ⟨fun h => h.2 rfl, fun h => ⟨by simp, fun _ => h⟩⟩
  | err e =>
    have hset : p.set .fresh payload now = (.err e, .fresh) := by simp only [set, hv]
    rw [hset]
    refine iff_of_true (by simp) fun hunreadable => ?_
    obtain ⟨answer, hanswer⟩ := hc.accepts _ _ rfl hfresh payload hunreadable
    rw [hanswer] at hv
    cases hv
  | panic => exact absurd hv (hc.no_panic _ _ rfl hfresh payload)

/-! ## After a run of writes -/

/-- A property that accepts nothing while it is fresh stays fresh. -/
theorem Unwritable.run_eq_fresh (h : p.Unwritable) (calls : List (Call T)) :
    p.run calls = .fresh := by
  refine Machine.run_invariant (fun cells => cells = Cells.fresh) (fun _ => True) ?_ rfl calls
    fun _ _ => trivial
  rintro _ call - rfl
  rcases p.call_cases .fresh call with ⟨payload, answer, -, hv, -, -⟩ | ⟨-, heq⟩
  · exact absurd hv (h _ _ rfl _ _)
  · exact heq

/-- The writes before it do not change what the validator makes of a payload. -/
theorem Contract.verdict_run (hc : p.Contract law quiet unreadable) (calls : List (Call T))
    (payload : List UInt8) :
    p.validatorFn (p.ref (p.run calls)) (frame p.epc payload)
      = p.validatorFn (p.ref .fresh) (frame p.epc payload) := by
  rcases hc.replay with hfree | hunwritable
  · exact hfree (p.ref (p.run calls)) (p.ref .fresh) rfl _
  · rw [hunwritable.run_eq_fresh calls]

/-- Setting never panics. -/
theorem Contract.set_run_ne_panic (hc : p.Contract law quiet unreadable) (calls : List (Call T))
    (payload : List UInt8) (now : ClockReading) :
    (p.set (p.run calls) payload now).1 ≠ .panic := by
  refine p.set_ne_panic ?_ now
  rw [hc.verdict_run]
  exact hc.no_panic (p.ref .fresh) _ rfl rfl payload

/-- What is stored is accepted again: the validator answers on it in any state. -/
theorem Contract.accepted_run (hc : p.Contract law quiet unreadable) (calls : List (Call T)) :
    p.run calls = .fresh ∨ (p.run calls).lastUpdated ≠ 0 ∧ ∃ payload,
      (p.run calls).lastValue = frame p.epc payload ∧
        ∀ cells, ∃ answer, p.validatorFn (p.ref cells) (frame p.epc payload) = .ok answer := by
  rcases p.framed_run calls with hfresh | ⟨hstored, payload, hvalue, r, answer, hr, hv⟩
  · exact Or.inl hfresh
  · rcases hc.replay with hfree | hunwritable
    · refine Or.inr ⟨hstored, payload, hvalue, fun cells => ⟨answer, ?_⟩⟩
      rw [hfree (p.ref cells) r hr.symm, hv]
    · exact Or.inl (hunwritable.run_eq_fresh calls)

/-- What is stored can be read, exactly when its payload is not one of those that the contract
names. -/
theorem Contract.readable_run (hc : p.Contract law quiet unreadable) (hlaw : law)
    (calls : List (Call T)) :
    p.run calls = .fresh ∨ ∃ payload, p.get (p.run calls) = .ok payload ∧
      (IsOk (p.toCanonical (p.run calls)) ↔ ¬ unreadable payload) := by
  rcases hc.accepted_run calls with hfresh | ⟨hstored, payload, hvalue, hanswers⟩
  · exact Or.inl hfresh
  · obtain ⟨answer, hv⟩ := hanswers .fresh
    refine Or.inr ⟨payload, ?_, ?_⟩
    · rw [get, if_neg hstored, hvalue, sliceFrom_frame]
    · rw [toCanonical, if_neg hstored, hvalue]
      exact hc.readable hlaw (p.ref .fresh) _ rfl rfl payload answer hv

/-! ## Storing what was read -/

theorem Contract.answers_in (hc : p.Contract law quiet unreadable) {calls : List (Call T)}
    (hstored : (p.run calls).lastUpdated ≠ 0) (cells : Cells) :
    ∃ payload answer, (p.run calls).lastValue = frame p.epc payload ∧
      p.validatorFn (p.ref cells) (frame p.epc payload) = .ok answer := by
  rcases hc.accepted_run calls with hfresh | ⟨-, payload, hvalue, hanswers⟩
  · rw [hfresh] at hstored
    exact absurd rfl hstored
  · obtain ⟨answer, hv⟩ := hanswers cells
    exact ⟨payload, answer, hvalue, hv⟩

/-- It is accepted in the state it is stored in. -/
theorem Contract.answers_stored (hc : p.Contract law quiet unreadable) {calls : List (Call T)}
    (hstored : (p.run calls).lastUpdated ≠ 0) :
    ∃ payload answer, (p.run calls).lastValue = frame p.epc payload ∧
      p.validatorFn (p.ref (p.run calls)) (frame p.epc payload) = .ok answer :=
  hc.answers_in hstored (p.run calls)

/-- Setting what `get` returns changes nothing but the time of the last update. -/
theorem Contract.set_of_get (hc : p.Contract law quiet unreadable) {calls : List (Call T)}
    (hstored : (p.run calls).lastUpdated ≠ 0) :
    ∃ payload, p.get (p.run calls) = .ok payload ∧ ∀ now,
      p.set (p.run calls) payload now = (.ok (), ⟨(p.run calls).lastValue, now.1⟩) := by
  obtain ⟨payload, answer, hvalue, hv⟩ := hc.answers_stored hstored
  refine ⟨payload, ?_, fun now => ?_⟩
  · rw [get, if_neg hstored, hvalue, sliceFrom_frame]
  · rw [p.set_of_ok hv now, hvalue]

/-- What is read depends on the stored value, and not on when it was stored. -/
theorem reads_eq {cells cells' : Cells} (h : cells.lastUpdated ≠ 0) (h' : cells'.lastUpdated ≠ 0)
    (hvalue : cells.lastValue = cells'.lastValue) :
    p.get cells = p.get cells' ∧ p.toCanonical cells = p.toCanonical cells' := by
  rw [get, get, toCanonical, toCanonical, if_neg h, if_neg h', if_neg h, if_neg h', hvalue]
  exact ⟨rfl, rfl⟩

end StaticNodeProperty

/-! ## The properties of the factory -/

/-- **What the network can store can be read**, in a fresh property of the factory, exactly when the
payload is not unreadable. -/
theorem set_readable_iff {F : Type} [F64 F] [Chrono] [Chrono.Lawful] {groupClass : NodeGroupClass}
    {epc : UInt8} {w : EpcWrapper} (h : propertyFactory F groupClass epc = .ok w)
    (payload : List UInt8) (now : ClockReading) :
    ((w.property.set .fresh payload now).1 ≠ .panic ∧
        ((w.property.set .fresh payload now).1 = .ok () →
          IsOk (w.property.toCanonical (w.property.set .fresh payload now).2))) ↔
      ¬ Unreadable epc payload :=
  (propertyFactory_meets h).contract.readable_of_set_iff inferInstance payload now

theorem set_readable_iff_room :
    ∃ w, hostFactory classProfileNodeProfile epcInstallationLocation = .ok w ∧
      IsOk (w.property.toCanonical (w.property.set .fresh [0x08] ⟨1, by decide⟩).2) := by
  let := Calendar.chrono
  have := Calendar.lawful
  obtain ⟨w, hw, hok⟩ : ∃ w, hostFactory classProfileNodeProfile epcInstallationLocation = .ok w ∧
      (w.property.set .fresh [0x08] ⟨1, by decide⟩).1 = .ok () := ⟨_, rfl, rfl⟩
  refine ⟨w, hw, ((set_readable_iff hw [0x08] ⟨1, by decide⟩).mpr ?_).2 hok⟩
  rintro (⟨-, hno⟩ | ⟨hdate, -⟩ | ⟨hmap, -⟩)
  · exact absurd (hno 0x08 [] rfl).2 (by decide)
  · exact absurd hdate (by decide)
  · exact absurd hmap (by decide)

/-- **The network can write what it likes**: whatever calls a property of the factory has had
before, setting a payload does not panic, and the property holds nothing, or a payload which
`toCanonical` can read exactly when it is not unreadable. -/
theorem run_readable_iff {F : Type} [F64 F] [Chrono] [Chrono.Lawful] {groupClass : NodeGroupClass}
    {epc : UInt8} {w : EpcWrapper} (h : propertyFactory F groupClass epc = .ok w)
    (calls : List (Call w.Canonical)) :
    (∀ payload now, (w.property.set (w.property.run calls) payload now).1 ≠ .panic) ∧
    (w.property.run calls = .fresh ∨ ∃ payload,
      w.property.get (w.property.run calls) = .ok payload ∧
        (IsOk (w.property.toCanonical (w.property.run calls)) ↔ ¬ Unreadable epc payload)) :=
  ⟨(propertyFactory_meets h).contract.set_run_ne_panic calls,
    (propertyFactory_meets h).contract.readable_run inferInstance calls⟩

theorem run_readable_iff_room :
    ∃ w, hostFactory classProfileNodeProfile epcInstallationLocation = .ok w ∧
      (w.property.set (w.property.run [.set [0x01] ⟨1, by decide⟩]) [0x08] ⟨2, by decide⟩).1
        ≠ .panic := by
  let := Calendar.chrono
  have := Calendar.lawful
  obtain ⟨w, hw⟩ : ∃ w, hostFactory classProfileNodeProfile epcInstallationLocation = .ok w :=
    ⟨_, rfl⟩
  exact ⟨w, hw, (run_readable_iff hw [.set [0x01] ⟨1, by decide⟩]).1 [0x08] ⟨2, by decide⟩⟩

/-- The location code has its nine bytes compared with eight: it is stored, and reading it
panics. -/
theorem location_code_unreadable :
    ∃ w, hostFactory classProfileNodeProfile epcInstallationLocation = .ok w ∧
      (w.property.set .fresh [0x01] ⟨1, by decide⟩).1 = .ok () ∧
      w.property.toCanonical (w.property.set .fresh [0x01] ⟨1, by decide⟩).2 = .panic :=
  ⟨_, rfl, rfl, rfl⟩

/-- **What was read can be stored again, and changes nothing**: after any run of writes on a
property of the factory, setting what `get` returns succeeds and leaves the stored value, `get` and
`toCanonical` as they are. -/
theorem set_get {F : Type} [F64 F] [Chrono] {groupClass : NodeGroupClass} {epc : UInt8}
    {w : EpcWrapper} (h : propertyFactory F groupClass epc = .ok w)
    (calls : List (Call w.Canonical)) (hstored : (w.property.run calls).lastUpdated ≠ 0) :
    ∃ payload, w.property.get (w.property.run calls) = .ok payload ∧ ∀ now,
      (w.property.set (w.property.run calls) payload now).1 = .ok () ∧
      (w.property.set (w.property.run calls) payload now).2.lastValue
        = (w.property.run calls).lastValue ∧
      w.property.get (w.property.set (w.property.run calls) payload now).2
        = w.property.get (w.property.run calls) ∧
      w.property.toCanonical (w.property.set (w.property.run calls) payload now).2
        = w.property.toCanonical (w.property.run calls) := by
  obtain ⟨payload, hget, hset⟩ := (propertyFactory_meets h).contract.set_of_get hstored
  refine ⟨payload, hget, fun now => ?_⟩
  rw [hset now]
  exact ⟨rfl, rfl, StaticNodeProperty.reads_eq now.2 hstored rfl⟩

theorem set_get_room :
    ∃ w, hostFactory classProfileNodeProfile epcInstallationLocation = .ok w ∧
      ∃ payload, w.property.get (w.property.run [.set [0x08] ⟨1, by decide⟩]) = .ok payload ∧
        (w.property.set (w.property.run [.set [0x08] ⟨1, by decide⟩]) payload
          ⟨2, by decide⟩).1 = .ok () := by
  let := Calendar.chrono
  obtain ⟨w, hw, hstored⟩ :
      ∃ w, hostFactory classProfileNodeProfile epcInstallationLocation = .ok w ∧
        (w.property.run [.set [0x08] ⟨1, by decide⟩]).lastUpdated ≠ 0 := ⟨_, rfl, by decide⟩
  obtain ⟨payload, hget, hset⟩ := set_get hw [.set [0x08] ⟨1, by decide⟩] hstored
  exact ⟨w, hw, payload, hget, (hset ⟨2, by decide⟩).1⟩

/-- **One node mirrors another**: what one instance of a property of the factory holds after any run
of writes can be set on any other, whatever has been written to that, and both then hold the same
and read the same. -/
theorem set_get_other {F : Type} [F64 F] [Chrono] {groupClass : NodeGroupClass} {epc : UInt8}
    {w : EpcWrapper} (h : propertyFactory F groupClass epc = .ok w)
    (calls calls' : List (Call w.Canonical)) (hstored : (w.property.run calls).lastUpdated ≠ 0) :
    ∃ payload, w.property.get (w.property.run calls) = .ok payload ∧ ∀ now,
      (w.property.set (w.property.run calls') payload now).1 = .ok () ∧
      (w.property.set (w.property.run calls') payload now).2.lastValue
        = (w.property.run calls).lastValue ∧
      w.property.get (w.property.set (w.property.run calls') payload now).2
        = w.property.get (w.property.run calls) ∧
      w.property.toCanonical (w.property.set (w.property.run calls') payload now).2
        = w.property.toCanonical (w.property.run calls) := by
  obtain ⟨payload, answer, hvalue, hv⟩ :=
    (propertyFactory_meets h).contract.answers_in hstored (w.property.run calls')
  refine ⟨payload, ?_, fun now => ?_⟩
  · rw [StaticNodeProperty.get, if_neg hstored, hvalue, sliceFrom_frame]
  · rw [w.property.set_of_ok hv now]
    exact ⟨rfl, hvalue.symm, StaticNodeProperty.reads_eq now.2 hstored hvalue.symm⟩

theorem set_get_other_room :
    ∃ w, hostFactory classProfileNodeProfile epcInstallationLocation = .ok w ∧
      ∃ payload, w.property.get (w.property.run [.set [0x08] ⟨1, by decide⟩]) = .ok payload ∧
        w.property.get (w.property.set (w.property.run [.set [0x10] ⟨1, by decide⟩]) payload
          ⟨2, by decide⟩).2 = .ok payload := by
  let := Calendar.chrono
  obtain ⟨w, hw, hstored⟩ :
      ∃ w, hostFactory classProfileNodeProfile epcInstallationLocation = .ok w ∧
        (w.property.run [.set [0x08] ⟨1, by decide⟩]).lastUpdated ≠ 0 := ⟨_, rfl, by decide⟩
  obtain ⟨payload, hget, hset⟩ :=
    set_get_other hw _ [.set [0x10] ⟨1, by decide⟩] hstored
  exact ⟨w, hw, payload, hget, (hset ⟨2, by decide⟩).2.2.1.trans hget⟩

end Echonet
