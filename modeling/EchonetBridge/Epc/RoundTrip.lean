import EchonetBridge.Epc.Runs

/-!
# Epc/RoundTrip — one write, and what is read after it

What one call stores follows from what the encoder and the validator make of its argument, and what
is read after it from the payload it has stored.  A canonical value survives a property when it
makes a `RoundTrip`: it is stored, as the payload it should be, and read back as the same value.
-/

namespace Echonet

open Outcome

namespace StaticNodeProperty

variable {T : Type} (p : StaticNodeProperty T) {cells : Cells}

/-! ## Reading a stored payload -/

theorem get_frame (payload : List UInt8) (now : ClockReading) :
    p.get ⟨frame p.epc payload, now.1⟩ = .ok payload := by
  rw [get, if_neg now.2, sliceFrom_frame]

theorem toCanonical_frame (payload : List UInt8) (now : ClockReading) :
    p.toCanonical ⟨frame p.epc payload, now.1⟩
      = p.toCanonicalFn p.decoderRef (frame p.epc payload) := if_neg now.2

/-! ## Writing a payload -/

/-- `set` succeeds exactly when the validator answers, whatever it answers. -/
theorem isOk_set (payload : List UInt8) (now : ClockReading) :
    IsOk (p.set cells payload now).1 ↔
      IsOk (p.validatorFn (p.ref cells) (frame p.epc payload)) := by
  cases hv : p.validatorFn (p.ref cells) (frame p.epc payload) <;> simp [set, hv]

theorem set_ne_panic {payload : List UInt8}
    (h : p.validatorFn (p.ref cells) (frame p.epc payload) ≠ .panic) (now : ClockReading) :
    (p.set cells payload now).1 ≠ .panic := by
  cases hv : p.validatorFn (p.ref cells) (frame p.epc payload) with
  | ok answer => simp [set, hv]
  | err e => simp [set, hv]
  | panic => exact absurd hv h

/-! ## Writing a canonical value -/

variable {canonical : T} {internal : List UInt8}

/-- What the encoder made of a value is stored if the validator says yes to it. -/
theorem fromCanonical_of_encoded
    (henc : p.fromCanonicalFn (p.ref cells) canonical = .ok internal)
    (hlen : 2 ≤ internal.length) (now : ClockReading) :
    p.fromCanonical cells canonical now =
      match p.validatorFn (p.ref cells) (frame p.epc (internal.drop 2)) with
      | .ok true => (.ok (), ⟨frame p.epc (internal.drop 2), now.1⟩)
      | .ok false => (.err (.validationFailed p.epc), cells)
      | .err e => (.err e, cells)
      | .panic => (.panic, cells) := by
  rw [fromCanonical, henc]
  dsimp only
  rw [header_eq_frame p.epc (Nat.not_lt.mpr hlen)]
  exact if_neg (Nat.not_lt.mpr hlen)

theorem fromCanonical_of_yes (henc : p.fromCanonicalFn (p.ref cells) canonical = .ok internal)
    (hlen : 2 ≤ internal.length)
    (hv : p.validatorFn (p.ref cells) (frame p.epc (internal.drop 2)) = .ok true)
    (now : ClockReading) :
    p.fromCanonical cells canonical now = (.ok (), ⟨frame p.epc (internal.drop 2), now.1⟩) := by
  rw [p.fromCanonical_of_encoded henc hlen, hv]

theorem fromCanonical_of_no (henc : p.fromCanonicalFn (p.ref cells) canonical = .ok internal)
    (hlen : 2 ≤ internal.length)
    (hv : p.validatorFn (p.ref cells) (frame p.epc (internal.drop 2)) = .ok false)
    (now : ClockReading) :
    p.fromCanonical cells canonical now = (.err (.validationFailed p.epc), cells) := by
  rw [p.fromCanonical_of_encoded henc hlen, hv]

theorem fromCanonical_of_err {e : EpcError}
    (henc : p.fromCanonicalFn (p.ref cells) canonical = .ok internal) (hlen : 2 ≤ internal.length)
    (hv : p.validatorFn (p.ref cells) (frame p.epc (internal.drop 2)) = .err e)
    (now : ClockReading) : p.fromCanonical cells canonical now = (.err e, cells) := by
  rw [p.fromCanonical_of_encoded henc hlen, hv]

theorem fromCanonical_eq_ok_iff
    (henc : p.fromCanonicalFn (p.ref cells) canonical = .ok internal)
    (hlen : 2 ≤ internal.length) (now : ClockReading) :
    (p.fromCanonical cells canonical now).1 = .ok () ↔
      p.validatorFn (p.ref cells) (frame p.epc (internal.drop 2)) = .ok true := by
  rw [p.fromCanonical_of_encoded henc hlen]
  split <;> simp_all

theorem fromCanonical_ne_panic (henc : p.fromCanonicalFn (p.ref cells) canonical = .ok internal)
    (hlen : 2 ≤ internal.length)
    (h : p.validatorFn (p.ref cells) (frame p.epc (internal.drop 2)) ≠ .panic)
    (now : ClockReading) : (p.fromCanonical cells canonical now).1 ≠ .panic := by
  rw [p.fromCanonical_of_encoded henc hlen]
  split
  · simp
  · simp
  · simp
  · next hpanic => exact absurd hpanic h

/-- A canonical value is stored only as what the encoder made of it, without its first two
bytes. -/
theorem fromCanonical_eq_ok {now : ClockReading}
    (h : (p.fromCanonical cells canonical now).1 = .ok ()) :
    ∃ internal, p.fromCanonicalFn (p.ref cells) canonical = .ok internal ∧ 2 ≤ internal.length ∧
      p.fromCanonical cells canonical now = (.ok (), ⟨frame p.epc (internal.drop 2), now.1⟩) := by
  rcases p.call_cases cells (.fromCanonical canonical now) with
    ⟨_, _, hpayload, -, -, heq⟩ | ⟨hne, -⟩
  · rw [payload] at hpayload
    cases henc : p.fromCanonicalFn (p.ref cells) canonical with
    | ok internal =>
      rw [henc] at hpayload
      cases hpayload
      refine ⟨internal, rfl, ?_, heq⟩
      by_contra hlen
      rw [fromCanonical, henc] at h
      dsimp only at h
      rw [if_pos (Nat.not_le.mp hlen)] at h
      cases h
    | err e =>
      rw [henc] at hpayload
      cases hpayload
    | panic =>
      rw [henc] at hpayload
      cases hpayload
  · exact absurd h hne

/-! ## Round trips -/

/-- A canonical value is stored as `payload`, and read back as a value that is the `Same`. -/
structure RoundTrip (cells : Cells) (canonical : T) (now : ClockReading) (payload : List UInt8)
    (Same : T → Prop) : Prop where
  accepted : (p.fromCanonical cells canonical now).1 = .ok ()
  get_eq : p.get (p.fromCanonical cells canonical now).2 = .ok payload
  read : ∃ c, p.toCanonical (p.fromCanonical cells canonical now).2 = .ok c ∧ Same c

/-- **A stored value makes a round trip** exactly when it is stored as it should be, and what is
stored is decoded to the same value. -/
theorem roundTrip_iff {now : ClockReading} {stored payload : List UInt8} {Same : T → Prop}
    (h : p.fromCanonical cells canonical now = (.ok (), ⟨frame p.epc stored, now.1⟩)) :
    p.RoundTrip cells canonical now payload Same ↔
      stored = payload ∧
        ∃ c, p.toCanonicalFn p.decoderRef (frame p.epc stored) = .ok c ∧ Same c := by
  constructor
  · rintro ⟨-, hget, hread⟩
    rw [h, get_frame] at hget
    rw [h, toCanonical_frame] at hread
    cases hget
    exact ⟨rfl, hread⟩
  · rintro ⟨rfl, hread⟩
    refine ⟨by rw [h], by rw [h, get_frame], ?_⟩
    rw [h, toCanonical_frame]
    exact hread

/-- **A value that is encoded to a payload of its own makes a round trip** exactly when the
validator says yes to that payload. -/
theorem roundTrip_iff_yes {now : ClockReading} {payload : List UInt8} {Same : T → Prop}
    {b₀ b₁ : UInt8} (henc : p.fromCanonicalFn (p.ref cells) canonical = .ok (b₀ :: b₁ :: payload))
    (hread : ∃ c, p.toCanonicalFn p.decoderRef (frame p.epc payload) = .ok c ∧ Same c) :
    p.RoundTrip cells canonical now payload Same ↔
      p.validatorFn (p.ref cells) (frame p.epc payload) = .ok true := by
  have hlen : 2 ≤ (b₀ :: b₁ :: payload).length := Nat.le_add_left 2 _
  constructor
  · exact fun h => (p.fromCanonical_eq_ok_iff henc hlen now).mp h.accepted
  · exact fun hyes => (p.roundTrip_iff (p.fromCanonical_of_yes henc hlen hyes now)).mpr ⟨rfl, hread⟩

/-- A stored value is not changed exactly when what is stored is decoded to it. -/
theorem unchanged_iff {now : ClockReading} {stored : List UInt8}
    (h : p.fromCanonical cells canonical now = (.ok (), ⟨frame p.epc stored, now.1⟩)) :
    ((∃ e, (p.fromCanonical cells canonical now).1 = .err e) ∨
        (p.fromCanonical cells canonical now).1 = .ok () ∧
          p.toCanonical (p.fromCanonical cells canonical now).2 = .ok canonical) ↔
      p.toCanonicalFn p.decoderRef (frame p.epc stored) = .ok canonical := by
  rw [h, toCanonical_frame]
  constructor
  · rintro (⟨e, he⟩ | ⟨-, hread⟩)
    · cases he
    · exact hread
  · exact fun hread => Or.inr ⟨rfl, hread⟩

/-- A payload is set, read as a canonical value, and stored as the same payload from that value. -/
structure StoredBack (cells : Cells) (payload : List UInt8) (now now' : ClockReading) : Prop where
  accepted : (p.set cells payload now).1 = .ok ()
  rewritten : ∃ c, p.toCanonical (p.set cells payload now).2 = .ok c ∧
    p.get (p.fromCanonical (p.set cells payload now).2 c now').2 = .ok payload

/-- **A payload is stored back** exactly when the value it is decoded to is stored as it. -/
theorem storedBack_iff {payload stored : List UInt8} {answer : Bool} {now now' : ClockReading}
    {c : T} (hv : p.validatorFn (p.ref cells) (frame p.epc payload) = .ok answer)
    (hdec : p.toCanonicalFn p.decoderRef (frame p.epc payload) = .ok c)
    (h : p.fromCanonical ⟨frame p.epc payload, now.1⟩ c now'
      = (.ok (), ⟨frame p.epc stored, now'.1⟩)) :
    p.StoredBack cells payload now now' ↔ stored = payload := by
  have hset := p.set_of_ok hv now
  have hread := p.toCanonical_frame payload now
  rw [hdec] at hread
  constructor
  · rintro ⟨-, c', hc', hget⟩
    rw [hset, hread] at hc'
    cases hc'
    rw [hset, h, get_frame] at hget
    exact Outcome.ok.inj hget
  · rintro rfl
    refine ⟨by rw [hset], c, by rw [hset, hread], ?_⟩
    rw [hset, h, get_frame]

/-- A payload is stored back, and the value it is read as is accepted. -/
structure WrittenBack (cells : Cells) (payload : List UInt8) (now now' : ClockReading) : Prop
    extends p.StoredBack cells payload now now' where
  accepted_again : ∀ c, p.toCanonical (p.set cells payload now).2 = .ok c →
    (p.fromCanonical (p.set cells payload now).2 c now').1 = .ok ()

theorem writtenBack_of {payload : List UInt8} {answer : Bool} {now now' : ClockReading} {c : T}
    (hv : p.validatorFn (p.ref cells) (frame p.epc payload) = .ok answer)
    (hdec : p.toCanonicalFn p.decoderRef (frame p.epc payload) = .ok c)
    (h : p.fromCanonical ⟨frame p.epc payload, now.1⟩ c now'
      = (.ok (), ⟨frame p.epc payload, now'.1⟩)) : p.WrittenBack cells payload now now' := by
  refine ⟨(p.storedBack_iff hv hdec h).mpr rfl, fun c' hc' => ?_⟩
  rw [p.set_of_ok hv now] at hc' ⊢
  rw [p.toCanonical_frame, hdec] at hc'
  cases hc'
  rw [h]

/-- **A payload is written back** exactly when it is accepted, accepted again once it is stored, and
decoded to a value that is encoded to it. -/
theorem writtenBack_iff {payload : List UInt8} {now now' : ClockReading} :
    p.WrittenBack cells payload now now' ↔
      IsOk (p.validatorFn (p.ref cells) (frame p.epc payload)) ∧
      p.validatorFn (p.ref ⟨frame p.epc payload, now.1⟩) (frame p.epc payload) = .ok true ∧
      ∃ c, p.toCanonicalFn p.decoderRef (frame p.epc payload) = .ok c ∧ ∃ b₀ b₁,
        p.fromCanonicalFn (p.ref ⟨frame p.epc payload, now.1⟩) c = .ok (b₀ :: b₁ :: payload) := by
  constructor
  · rintro ⟨⟨haccepted, c, hread, hget⟩, hagain⟩
    have hanswer : IsOk (p.validatorFn (p.ref cells) (frame p.epc payload)) := by
      rw [← p.isOk_set payload now, haccepted]
      exact isOk_ok _
    obtain ⟨answer, hv⟩ := hanswer
    have hstored := hagain c hread
    rw [p.set_of_ok hv now] at hread hget hstored
    rw [p.toCanonical_frame] at hread
    obtain ⟨internal, henc, hlen, heq⟩ := p.fromCanonical_eq_ok hstored
    rw [heq, get_frame] at hget
    have hdrop : internal.drop 2 = payload := Outcome.ok.inj hget
    have hyes := (p.fromCanonical_eq_ok_iff henc hlen now').mp hstored
    rw [hdrop] at hyes
    obtain ⟨b₀, b₁, rest, rfl⟩ : ∃ b₀ b₁ rest, internal = b₀ :: b₁ :: rest := by
      match internal, hlen with
      | b₀ :: b₁ :: rest, _ => exact ⟨b₀, b₁, rest, rfl⟩
    refine ⟨⟨answer, hv⟩, hyes, c, hread, b₀, b₁, ?_⟩
    rw [henc, ← hdrop]
    rfl
  · rintro ⟨⟨answer, hv⟩, hyes, c, hdec, b₀, b₁, henc⟩
    exact p.writtenBack_of hv hdec (p.fromCanonical_of_yes henc (Nat.le_add_left 2 _) hyes now')

end StaticNodeProperty

end Echonet
