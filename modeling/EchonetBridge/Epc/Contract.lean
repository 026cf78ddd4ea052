import EchonetBridge.Api.PropertyMapWire
import EchonetBridge.Epc.Families

/-!
# Epc/Contract — what the validator of a property promises its decoder

A `Contract` says of a property which payloads its validator says no to without failing, and which
of those it lets through its decoder cannot read.  Most validators are `Loud`: they say yes or
fail, and what they let through can be read.
-/

namespace Echonet

open BigEndian Outcome Text

/-! ## Contracts -/

namespace StaticNodeProperty

variable {T : Type} (p : StaticNodeProperty T)

/-- The validator does not look at the stored value. -/
def StateFree : Prop :=
  ∀ r r' : EpcRef T, r.epc = r'.epc → ∀ internal,
    p.validatorFn r internal = p.validatorFn r' internal

/-- As long as no value can be read, none is accepted. -/
def Unwritable : Prop :=
  ∀ (r : EpcRef T) e, r.toCanonical = .err e → ∀ internal answer,
    p.validatorFn r internal ≠ .ok answer

/-- The payloads a validator says no to, and the payloads it accepts that cannot be read.  The last
three fields are about a property that holds no value yet; what can be read may rest on a law of the
types the property holds. -/
structure Contract (law : Prop) (quiet unreadable : List UInt8 → Prop) : Prop where
  replay : p.StateFree ∨ p.Unwritable
  quiet_iff : ∀ r, r.epc = p.epc → ∀ payload,
    p.validatorFn r (frame p.epc payload) = .ok false ↔ quiet payload
  no_panic : ∀ r e, r.epc = p.epc → r.toCanonical = .err e → ∀ payload,
    p.validatorFn r (frame p.epc payload) ≠ .panic
  readable : law → ∀ r e, r.epc = p.epc → r.toCanonical = .err e → ∀ payload answer,
    p.validatorFn r (frame p.epc payload) = .ok answer →
      (IsOk (p.toCanonicalFn p.decoderRef (frame p.epc payload)) ↔ ¬ unreadable payload)
  accepts : ∀ r e, r.epc = p.epc → r.toCanonical = .err e → ∀ payload, unreadable payload →
    ∃ answer, p.validatorFn r (frame p.epc payload) = .ok answer

end StaticNodeProperty

/-- A verdict that is yes or an error. -/
def Loud (verdict : Outcome EpcError Bool) : Prop := verdict = .ok true ∨ ∃ e, verdict = .err e

namespace Loud

variable {verdict : Outcome EpcError Bool}

theorem ok : Loud (.ok true) := Or.inl rfl

theorem err (e : EpcError) : Loud (.err e) := Or.inr ⟨e, rfl⟩

theorem ne_no (h : Loud verdict) : verdict ≠ .ok false := by
  rintro rfl
  rcases h with h | ⟨e, h⟩
  · cases h
  · cases h

theorem ne_panic (h : Loud verdict) : verdict ≠ .panic := by
  rintro rfl
  rcases h with h | ⟨e, h⟩
  · cases h
  · cases h

/-- A choice between two loud verdicts. -/
theorem ite {c : Prop} [Decidable c] {v w : Outcome EpcError Bool} (hv : c → Loud v)
    (hw : ¬ c → Loud w) : Loud (if c then v else w) := by
  split_ifs with hc
  · exact hv hc
  · exact hw hc

end Loud

/-! ## Loud validators -/

/-- The validator of a kind of property, on the frames of one of its codes: it does not look at the
stored value, and is loud. -/
structure LoudOn {T : Type} (v : ValidatorType T) (epc : UInt8) : Prop where
  stateFree : ∀ r r' : EpcRef T, r.epc = r'.epc → ∀ internal, v r internal = v r' internal
  loud : ∀ r, r.epc = epc → ∀ payload, Loud (v r (frame epc payload))

section Contracts

variable {law : Prop} {T : Type} {p : StaticNodeProperty T}

/-- A property whose validator is loud accepts the payloads that it says yes to. -/
theorem LoudOn.set_eq_ok_iff {v : ValidatorType T} (hloud : LoudOn v p.epc)
    (hv : p.validatorFn = v) (cells : Cells) (payload : List UInt8) (now : ClockReading) :
    (p.set cells payload now).1 = .ok () ↔ v (p.ref cells) (frame p.epc payload) = .ok true := by
  rcases hloud.loud (p.ref cells) rfl payload with h | ⟨e, h⟩
  · simp [StaticNodeProperty.set, hv, h]
  · simp [StaticNodeProperty.set, hv, h]

/-- The contract of a loud validator, from what its decoder makes of the payloads it accepts. -/
theorem contract_of_loud (hloud : LoudOn p.validatorFn p.epc) {unreadable : List UInt8 → Prop}
    (hread : law → ∀ r, r.epc = p.epc → ∀ payload,
      p.validatorFn r (frame p.epc payload) = .ok true →
      (IsOk (p.toCanonicalFn p.decoderRef (frame p.epc payload)) ↔ ¬ unreadable payload))
    (haccepts : ∀ r, r.epc = p.epc → ∀ payload, unreadable payload →
      p.validatorFn r (frame p.epc payload) = .ok true) :
    p.Contract law (fun _ => False) unreadable where
  replay := Or.inl hloud.stateFree
  quiet_iff r hr payload := iff_of_false (hloud.loud r hr payload).ne_no not_false
  no_panic r _ hr _ payload := (hloud.loud r hr payload).ne_panic
  readable hlaw r _ hr _ payload answer hanswer := by
    cases answer with
    | true => exact hread hlaw r hr payload hanswer
    | false => exact absurd hanswer (hloud.loud r hr payload).ne_no
  accepts r _ hr _ payload hpayload := ⟨true, haccepts r hr payload hpayload⟩

/-- The contract of a loud validator whose decoder reads every payload it accepts. -/
theorem contract_of_readable {v : ValidatorType T} {d : ToCanonicalType T} (hv : p.validatorFn = v)
    (hd : p.toCanonicalFn = d) (hloud : LoudOn v p.epc)
    (hread : law → ∀ r r' payload, v r (frame p.epc payload) = .ok true →
      IsOk (d r' (frame p.epc payload))) :
    p.Contract law (fun _ => False) fun _ => False := by
  subst hv hd
  exact contract_of_loud hloud
    (fun hlaw r _ payload h => iff_of_true (hread hlaw r _ payload h) not_false)
    fun _ _ _ h => h.elim

end Contracts

theorem loud_validateLength (epcCode : UInt8) (internal : List UInt8) (len : ℕ) :
    Loud (validateLength epcCode internal len) := .ite (fun _ => .ok) fun _ => .err _

theorem loudOn_validateLength {T : Type} (epc : UInt8) (len : ℕ) :
    LoudOn (fun r internal => validateLength r.epc internal len : ValidatorType T) epc where
  stateFree r r' h internal := by rw [h]
  loud r _ payload := loud_validateLength _ _ _

theorem loudOn_accept {T : Type} (epc : UInt8) :
    LoudOn (fun _ _ => .ok true : ValidatorType T) epc where
  stateFree _ _ _ _ := rfl
  loud _ _ _ := .ok

/-! ## Booleans -/

/-- A boolean property whose values are not its own code refuses everything: it compares its
code. -/
theorem loudOn_boolean {trueValue falseValue epc : UInt8} (ht : epc ≠ trueValue)
    (hf : epc ≠ falseValue) : LoudOn (booleanValidator trueValue falseValue) epc where
  stateFree r r' h internal := by rw [booleanValidator, booleanValidator, h]
  loud r hr payload := .ite (fun _ => .err _) fun _ =>
    .ite (fun h => absurd h (not_or.mpr ⟨ht, hf⟩)) fun _ => .err _

theorem booleanValidator_ne_ok {trueValue falseValue epc : UInt8} (ht : epc ≠ trueValue)
    (hf : epc ≠ falseValue) (r : EpcRef Bool) (payload : List UInt8) :
    booleanValidator trueValue falseValue r (frame epc payload) ≠ .ok true := by
  rw [booleanValidator]
  split_ifs
  · nofun
  · rw [frame, index_cons_zero, ok_bind, if_neg (not_or.mpr ⟨ht, hf⟩)]
    nofun

/-! ## Strings -/

theorem isOk_hexString (r : EpcRef HexString) (epc : UInt8) (payload : List UInt8) :
    IsOk (hexStringToCanonical r (frame epc payload)) := by
  rw [hexStringToCanonical, sliceFrom_frame, ok_bind, HexString.ofSlice_eq]
  exact isOk_ok _

theorem loudOn_asciiString {v : ValidatorType String} {epc : UInt8} (hv : LoudOn v epc) :
    LoudOn (asciiStringValidator v) epc where
  stateFree r r' h internal := by
    rw [asciiStringValidator, asciiStringValidator, h, hv.stateFree r r' h]
  loud r hr payload := by
    rw [asciiStringValidator, sliceFrom_frame, ok_bind]
    exact .ite (fun _ => hv.loud r hr payload) fun _ => .err _

theorem isOk_asciiString {v : ValidatorType String} {r r' : EpcRef String} {epc : UInt8}
    {payload : List UInt8} (h : asciiStringValidator v r (frame epc payload) = .ok true) :
    IsOk (asciiStringToCanonical r' (frame epc payload)) := by
  rw [asciiStringValidator, sliceFrom_frame, ok_bind] at h
  split_ifs at h with hascii
  rw [asciiStringToCanonical, sliceFrom_frame, ok_bind,
    fromUtf8Unchecked_of_ascii fun b hb => by simpa using List.all_eq_true.mp hascii b hb]
  exact isOk_ok _

/-! ## Integers -/

section Integers

variable {T : Type} [Integer T]

theorem toArray_frame {ε : Type} {n : ℕ} {payload : List UInt8} (h : payload.length = n) :
    ∃ buf : Vector UInt8 n, (toArray n payload : Outcome ε _) = .ok buf :=
  ⟨_, toArray_of_length h⟩

theorem loudOn_integer {v : ValidatorType T} {epc : UInt8} (hv : LoudOn v epc) :
    LoudOn (integerValidator v) epc where
  stateFree r r' h internal := by
    unfold integerValidator
    rw [h, hv.stateFree r r' h]
  loud r hr payload := by
    rw [integerValidator]
    refine .ite (fun _ => .err _) fun hlen => ?_
    obtain ⟨buf, hbuf⟩ := toArray_frame (ε := EpcError) (Nat.succ_injective
      (Nat.succ_injective (not_not.mp hlen)))
    rw [sliceFrom_frame, ok_bind, hbuf, ok_bind]
    exact .ite (fun _ => .err _) fun _ => .ite (fun _ => .err _) fun _ => hv.loud r hr payload

theorem isOk_integer {v : ValidatorType T} {r r' : EpcRef T} {epc : UInt8} {payload : List UInt8}
    (h : integerValidator v r (frame epc payload) = .ok true) :
    IsOk (integerToCanonical r' (frame epc payload)) := by
  rw [integerValidator] at h
  split_ifs at h with hlen
  obtain ⟨buf, hbuf⟩ := toArray_frame (ε := EpcError) (Nat.succ_injective
    (Nat.succ_injective (not_not.mp hlen)))
  rw [integerToCanonical, sliceFrom_frame, ok_bind, hbuf, ok_bind, pure_eq]
  exact isOk_ok _

end Integers

/-! ## Packed decimals -/

section Packed

variable {F : Type} [F64 F] {N : ℕ}

theorem packedInteger_of_length (hN : N = 1 ∨ N = 2 ∨ N = 4) {value : List UInt8}
    (h : value.length = N) : ∃ n, packedInteger N value = .ok n := by
  obtain ⟨buf, hbuf⟩ := toArray_frame (ε := EpcError) h
  rcases hN with rfl | rfl | rfl
  · rw [packedInteger, index_of_lt (by omega), ok_bind]
    exact ⟨_, rfl⟩
  · rw [packedInteger, hbuf, ok_bind]
    exact ⟨_, rfl⟩
  · rw [packedInteger, hbuf, ok_bind]
    exact ⟨_, rfl⟩

theorem underflowSlice_of_size (hN : N = 1 ∨ N = 2 ∨ N = 4) :
    ∃ slice, underflowSlice N = .ok slice := by
  rcases hN with rfl | rfl | rfl <;> exact ⟨_, rfl⟩

theorem loudOn_packed (hN : N = 1 ∨ N = 2 ∨ N = 4) (maxValue : F) (precision epc : UInt8) :
    LoudOn (packedValidator N maxValue precision) epc where
  stateFree r r' h internal := by rw [packedValidator, packedValidator, h]
  loud r _ payload := by
    rw [packedValidator]
    refine .ite (fun _ => .err _) fun hlen => ?_
    obtain ⟨n, hn⟩ := packedInteger_of_length hN (Nat.succ_injective
      (Nat.succ_injective (not_not.mp hlen)))
    obtain ⟨slice, hslice⟩ := underflowSlice_of_size hN
    rw [sliceFrom_frame, ok_bind, hn, ok_bind]
    refine .ite (fun _ => .ok) fun _ => ?_
    rw [hslice, ok_bind]
    exact .ite (fun _ => .ok) fun _ => .err _

theorem isOk_packed (hN : N = 1 ∨ N = 2 ∨ N = 4) {maxValue : F} {precision epc : UInt8}
    {r r' : EpcRef F} {payload : List UInt8}
    (h : packedValidator N maxValue precision r (frame epc payload) = .ok true) :
    IsOk (packedToCanonical N precision r' (frame epc payload)) := by
  rw [packedValidator] at h
  split_ifs at h with hlen
  obtain ⟨n, hn⟩ := packedInteger_of_length hN (Nat.succ_injective
    (Nat.succ_injective (not_not.mp hlen)))
  obtain ⟨slice, hslice⟩ := underflowSlice_of_size hN
  rw [packedToCanonical, hslice, ok_bind, sliceFrom_frame, ok_bind, hn]
  split_ifs <;> exact isOk_ok _

end Packed

/-! ## Dates, times and durations -/

/-- The unit byte is one of the four units. -/
theorem unit_cases {unit : UInt8} (h : unit ≥ 0x41 ∧ unit ≤ 0x44) :
    unit = 0x41 ∨ unit = 0x42 ∨ unit = 0x43 ∨ unit = 0x44 := by
  have hle := UInt8.le_iff_toNat_le.mp h.1
  have hge := UInt8.le_iff_toNat_le.mp h.2
  simp only [← UInt8.toNat_inj, UInt8.reduceToNat] at hle hge ⊢
  omega

section Chrono

variable [Chrono]

/-- The day a payload names does not exist. -/
def NoSuchDate (payload : List UInt8) : Prop :=
  ∃ y₁ y₀ month day, payload = [y₁, y₀, month, day] ∧
    ¬ Calendar.IsDate (fromBeBytes₁₆ #v[y₁, y₀]).toNat month.toNat day.toNat

theorem loudOn_date {v : ValidatorType Chrono.NaiveDate} {epc : UInt8} (hv : LoudOn v epc) :
    LoudOn (dateValidator v) epc where
  stateFree r r' h internal := by rw [dateValidator, dateValidator, h, hv.stateFree r r' h]
  loud r hr payload := .ite (fun _ => hv.loud r hr payload) fun _ => .err _

/-- Four bytes are decoded to a date when the calendar has it. -/
theorem dateToCanonical_eq_ok (r : EpcRef Chrono.NaiveDate) (epc y₁ y₀ month day : UInt8)
    (date : Chrono.NaiveDate) :
    dateToCanonical r (frame epc [y₁, y₀, month, day]) = .ok date ↔
      Chrono.fromYmdOpt (Int32.ofNat (fromBeBytes₁₆ #v[y₁, y₀]).toNat) month.toUInt32
        day.toUInt32 = some date := by
  cases hopt : Chrono.fromYmdOpt (Int32.ofNat (fromBeBytes₁₆ #v[y₁, y₀]).toNat) month.toUInt32
    day.toUInt32 with
  | none => simp [dateToCanonical, frame, slice, toArray, index, hopt]
  | some canonical => simp [dateToCanonical, frame, slice, toArray, index, hopt]

/-- A payload of the length of a date is decoded exactly when the calendar has the day. -/
theorem isOk_date [Chrono.Lawful] (r : EpcRef Chrono.NaiveDate) (epc y₁ y₀ month day : UInt8) :
    IsOk (dateToCanonical r (frame epc [y₁, y₀, month, day])) ↔
      Calendar.IsDate (fromBeBytes₁₆ #v[y₁, y₀]).toNat month.toNat day.toNat := by
  rw [← Chrono.Lawful.fromYmdOpt_isSome, Option.isSome_iff_exists]
  exact exists_congr fun date => dateToCanonical_eq_ok r epc y₁ y₀ month day date

theorem contract_date {p : StaticNodeProperty Chrono.NaiveDate}
    (hv : p.validatorFn = dateValidator fun _ _ => .ok true)
    (hd : p.toCanonicalFn = dateToCanonical) :
    p.Contract Chrono.Lawful (fun _ => False) NoSuchDate := by
  refine contract_of_loud (by rw [hv]; exact loudOn_date (loudOn_accept p.epc))
    (fun _ r _ payload hok => ?_) fun r _ payload ⟨_, _, _, _, heq, _⟩ => ?_
  · rw [hv, dateValidator] at hok
    split_ifs at hok with hlen
    obtain ⟨y₁, y₀, month, day, rfl⟩ : ∃ a b c d, payload = [a, b, c, d] :=
      List.length_eq_four.mp (Nat.succ_injective (Nat.succ_injective hlen))
    rw [hd, isOk_date]
    refine ⟨fun hdate => ?_, fun hnot => by_contra fun hdate => hnot ⟨_, _, _, _, rfl, hdate⟩⟩
    rintro ⟨_, _, _, _, heq, hno⟩
    cases heq
    exact hno hdate
  · rw [hv, heq]
    rfl

theorem loudOn_time {v : ValidatorType Chrono.NaiveTime} {epc : UInt8} (hv : LoudOn v epc) :
    LoudOn (timeValidator v) epc where
  stateFree r r' h internal := by rw [timeValidator, timeValidator, h, hv.stateFree r r' h]
  loud r hr payload := by
    rw [timeValidator]
    refine .ite (fun hlen => ?_) fun _ => .err _
    obtain ⟨hour, minute, rfl⟩ : ∃ a b, payload = [a, b] :=
      List.length_eq_two.mp (Nat.succ_injective (Nat.succ_injective hlen))
    rw [index_frame_first, ok_bind, index_frame_second, ok_bind, pure_eq, andAlso]
    split_ifs <;> rw [ok_bind] <;> exact .ite (fun _ => hv.loud r hr _) fun _ => .err _

theorem isOk_time [Chrono.Lawful] {v : ValidatorType Chrono.NaiveTime}
    {r r' : EpcRef Chrono.NaiveTime} {epc : UInt8} {payload : List UInt8}
    (h : timeValidator v r (frame epc payload) = .ok true) :
    IsOk (timeToCanonical r' (frame epc payload)) := by
  rw [timeValidator] at h
  split_ifs at h with hlen
  obtain ⟨hour, minute, rfl⟩ : ∃ a b, payload = [a, b] :=
    List.length_eq_two.mp (Nat.succ_injective (Nat.succ_injective hlen))
  rw [index_frame_first, ok_bind, index_frame_second, ok_bind, pure_eq, andAlso] at h
  have hrange : hour < 24 ∧ minute < 60 := by
    by_contra hnot
    rcases not_and_or.mp hnot with hh | hm
    · simp [hh] at h
    · by_cases hh : hour < 24 <;> simp [hh, hm] at h
  obtain ⟨canonical, hsome⟩ := Option.isSome_iff_exists.mp
    (Chrono.Lawful.fromHmsOpt_isSome hour minute hrange.1 hrange.2)
  simp [timeToCanonical, frame, index, hsome]

theorem loudOn_duration {v : ValidatorType Chrono.TimeDelta} {epc : UInt8} (hv : LoudOn v epc) :
    LoudOn (durationValidator v) epc where
  stateFree r r' h internal := by rw [durationValidator, durationValidator, h, hv.stateFree r r' h]
  loud r hr payload := by
    rw [durationValidator]
    refine .ite (fun hlen => ?_) fun _ => .err _
    rw [index_of_lt (by omega), ok_bind]
    exact .ite (fun _ => hv.loud r hr _) fun _ => .err _

theorem isOk_duration [Chrono.Lawful] {v : ValidatorType Chrono.TimeDelta}
    {r r' : EpcRef Chrono.TimeDelta} {epc : UInt8} {payload : List UInt8}
    (h : durationValidator v r (frame epc payload) = .ok true) :
    IsOk (durationToCanonical r' (frame epc payload)) := by
  rw [durationValidator] at h
  split_ifs at h with hlen
  obtain _ | ⟨unit, amount⟩ := payload
  · cases hlen
  rw [index_frame_first, ok_bind] at h
  split_ifs at h with hunit
  have hamount : amount.length = 4 := Nat.add_right_cancel (m := 3) hlen
  obtain ⟨buf, hbuf⟩ := toArray_frame (ε := EpcError) hamount
  have hslice : (sliceFrom (frame epc (unit :: amount)) 3 : Outcome EpcError (List UInt8))
      = .ok amount := sliceFrom_of_le (by omega)
  rw [durationToCanonical, hslice, ok_bind, hbuf, ok_bind]
  rw [index_frame_first, ok_bind]
  rcases unit_cases hunit with rfl | rfl | rfl | rfl
  · obtain ⟨delta, hdelta⟩ := Option.isSome_iff_exists.mp
      (Chrono.Lawful.seconds_isSome (fromBeBytes₃₂ buf))
    exact ⟨delta, by rw [if_pos rfl, hdelta, unwrap_some]⟩
  · obtain ⟨delta, hdelta⟩ := Option.isSome_iff_exists.mp
      (Chrono.Lawful.minutes_isSome (fromBeBytes₃₂ buf))
    exact ⟨delta, by rw [if_neg (by decide), if_pos rfl, hdelta, unwrap_some]⟩
  · obtain ⟨delta, hdelta⟩ := Option.isSome_iff_exists.mp
      (Chrono.Lawful.hours_isSome (fromBeBytes₃₂ buf))
    exact ⟨delta, by rw [if_neg (by decide), if_neg (by decide), if_pos rfl, hdelta, unwrap_some]⟩
  · obtain ⟨delta, hdelta⟩ := Option.isSome_iff_exists.mp
      (Chrono.Lawful.days_isSome (fromBeBytes₃₂ buf))
    exact ⟨delta, by rw [if_neg (by decide), if_neg (by decide), if_neg (by decide), if_pos rfl,
      hdelta, unwrap_some]⟩

end Chrono

/-! ## Property maps -/

/-- A payload with the length of a list of codes, which is not one. -/
def NoSuchMap (payload : List UInt8) : Prop :=
  ∃ count entries, payload = count :: entries ∧ payload.length < 16 ∧
    ¬ (count.toNat = entries.length ∧ ∀ c ∈ entries, 0x80 ≤ c)

theorem noSuchMap_iff {payload : List UInt8} (h : payload.length < 16) (hpos : 0 < payload.length) :
    NoSuchMap payload ↔ ¬ NodeObjectPropertyMap.IsCodeList payload := by
  obtain ⟨count, entries, rfl⟩ := List.exists_cons_of_length_pos hpos
  rw [NodeObjectPropertyMap.isCodeList_cons]
  refine ⟨?_, fun hnot => ⟨_, _, rfl, h, hnot⟩⟩
  rintro ⟨_, _, heq, -, hnot⟩
  cases heq
  exact hnot

/-- The validator of a property map accepts one to fifteen bytes. -/
theorem propertyMapValidator_eq (r : EpcRef NodeObjectPropertyMap) (epc : UInt8)
    (payload : List UInt8) :
    propertyMapValidator r (frame epc payload) =
      if 0 < payload.length ∧ payload.length < 16 then .ok true
      else .err (.invalidValue r.epc "Invalid data length") := by
  rw [propertyMapValidator, length_frame, index_frame_pdc, ok_bind, pure_eq, andAlso]
  rcases Nat.eq_zero_or_pos payload.length with h0 | hpos
  · simp [h0]
  · rw [if_pos (by simpa using hpos), ok_bind]
    rcases Nat.lt_or_ge payload.length 16 with hlt | hge
    · have hclamp : clampLength payload.length = UInt8.ofNat payload.length := if_neg (by omega)
      have hnat : (UInt8.ofNat payload.length).toNat = payload.length :=
        UInt8.toNat_ofNat_of_lt' (lt_trans hlt (by decide))
      have hsmall : UInt8.ofNat payload.length < 16 :=
        UInt8.lt_iff_toNat_lt.mpr (by rw [hnat]; exact hlt)
      have hsum : (UInt8.ofNat payload.length + 2).toNat = payload.length + 2 := by
        rw [UInt8.toNat_add, hnat]
        exact Nat.mod_eq_of_lt (by change payload.length + 2 < 256; omega)
      rw [hclamp, if_pos (by simp [hsmall, hsum]), pure_eq, if_pos ⟨hpos, hlt⟩]
    · have hlarge : ¬ clampLength payload.length < 16 := by
        rw [UInt8.lt_iff_toNat_lt, clampLength]
        split_ifs with hclamp
        · decide
        · rw [UInt8.toNat_ofNat_of_lt' (by change payload.length < 256; omega)]
          exact Nat.not_lt.mpr hge
      have hne : (payload.length + 2 == 17) = false := beq_eq_false_iff_ne.mpr (by omega)
      rw [if_neg (by simp [hlarge, hne]), if_neg fun h => absurd h.2 (Nat.not_lt.mpr hge)]

theorem loudOn_propertyMap (epc : UInt8) : LoudOn propertyMapValidator epc where
  stateFree r r' h internal := by rw [propertyMapValidator, propertyMapValidator, h]
  loud r _ payload := by
    rw [propertyMapValidator_eq]
    exact .ite (fun _ => .ok) fun _ => .err _

theorem contract_propertyMap {law : Prop} {p : StaticNodeProperty NodeObjectPropertyMap}
    (hv : p.validatorFn = propertyMapValidator) (hd : p.toCanonicalFn = propertyMapToCanonical) :
    p.Contract law (fun _ => False) NoSuchMap := by
  refine contract_of_loud (by rw [hv]; exact loudOn_propertyMap p.epc) (fun _ r _ payload hok => ?_)
    fun r _ payload ⟨count, entries, heq, hlt, _⟩ => ?_
  · rw [hv, propertyMapValidator_eq] at hok
    split_ifs at hok with hlen
    rw [hd, propertyMapToCanonical, sliceFrom_frame, ok_bind, isOk_mapErr,
      NodeObjectPropertyMap.isOk_fromBytes_iff,
      or_iff_left fun h => absurd h.length_eq (Nat.ne_of_lt (Nat.lt_succ_of_lt hlen.2)),
      and_iff_right hlen.2.le, noSuchMap_iff hlen.2 hlen.1, not_not]
  · have hpos : 0 < payload.length := by rw [heq]; exact Nat.succ_pos _
    rw [hv, propertyMapValidator_eq, if_pos ⟨hpos, hlt⟩]

/-! ## Object lists -/

/-- The length byte of a payload is clamped to a multiple of three, so that it agrees with the
length on whether the payload is a list of objects. -/
theorem clampLength_mod_three (n : ℕ) (h : n % 3 = 0) : (clampLength n).toNat % 3 = 0 := by
  rw [clampLength]
  split_ifs with hlong
  · rfl
  · rw [UInt8.toNat_ofNat_of_lt' (by change n < 256; omega)]
    exact h

theorem eojArrayValidator_eq (r : EpcRef EOJVec) (epc : UInt8) (payload : List UInt8) :
    eojArrayValidator r (frame epc payload) = .ok (decide (payload.length % 3 = 0)) := by
  rw [eojArrayValidator, length_frame, Nat.add_sub_cancel, index_frame_pdc, ok_bind, pure_eq,
    andAlso]
  by_cases h : payload.length % 3 = 0
  · rw [if_pos (by simp [h]), clampLength_mod_three _ h]
    simp [h]
  · rw [if_neg (by simp [h])]
    simp [h]

/-- The object in three bytes of a payload. -/
def eojAt (payload : List UInt8) (k : ℕ) : EOJ :=
  ⟨payload.getD k 0, payload.getD (k + 1) 0, payload.getD (k + 2) 0⟩

/-- One pass of the loop reads the three bytes from byte `i` on. -/
theorem eojPass_eq (epc : UInt8) {payload : List UInt8} {i : ℕ} (h : i + 3 ≤ payload.length)
    (eojs : EOJVec) :
    (do
      let eojBytes ← slice (frame epc payload) (i + 2) (i + 2 + 3)
      let buf ← toArray 3 eojBytes
      pure (eojs ++ [EOJ.fromBytes buf]) : Outcome EpcError EOJVec)
        = .ok (eojs ++ [eojAt payload i]) := by
  have hend : i + 2 + 3 ≤ (frame epc payload).length := by rw [length_frame]; omega
  have hslice : ((frame epc payload).take (i + 2 + 3)).drop (i + 2)
      = [payload[i], payload[i + 1], payload[i + 2]] := by
    rw [List.drop_take, Nat.add_sub_cancel_left, show (frame epc payload).drop (i + 2)
      = payload.drop i from rfl, List.drop_eq_getElem_cons (by omega),
      List.drop_eq_getElem_cons (by omega), List.drop_eq_getElem_cons (by omega)]
    rfl
  have harray : (toArray 3 [payload[i], payload[i + 1], payload[i + 2]] :
      Outcome EpcError (Vector UInt8 3)) = .ok #v[payload[i], payload[i + 1], payload[i + 2]] := rfl
  rw [slice_of_le (Nat.le_add_right _ _) hend, ok_bind, hslice, harray, ok_bind, pure_eq, eojAt,
    List.getD_eq_getElem _ _ (by omega), List.getD_eq_getElem _ _ (by omega),
    List.getD_eq_getElem _ _ (by omega)]
  rfl

/-- Every object lies inside the buffer, though it is read where it was not written. -/
theorem eojArrayToCanonical_eq (r : EpcRef EOJVec) (epc : UInt8) (payload : List UInt8) :
    eojArrayToCanonical r (frame epc payload)
      = .ok ((List.range (payload.length / 3)).map (eojAt payload)) := by
  rw [eojArrayToCanonical, length_frame, checkedSub_of_le (Nat.le_add_left 2 _), ok_bind,
    Nat.add_sub_cancel, foldlM_eq_foldl (g := fun eojs i => eojs ++ [eojAt payload i]) _ _
      fun eojs i hi => eojPass_eq epc (by have := List.mem_range.mp hi; omega) eojs,
    List.foldl_append_eq_append, List.nil_append, ← List.flatMap_def, ← List.map_eq_flatMap]

theorem contract_eojArray {law : Prop} {p : StaticNodeProperty EOJVec}
    (hv : p.validatorFn = eojArrayValidator) (hd : p.toCanonicalFn = eojArrayToCanonical) :
    p.Contract law (fun payload => payload.length % 3 ≠ 0) fun _ => False where
  replay := Or.inl fun r r' _ internal => by rw [hv]; rfl
  quiet_iff r _ payload := by
    rw [hv, eojArrayValidator_eq]
    by_cases h : payload.length % 3 = 0 <;> simp [h]
  no_panic r _ _ _ payload := by
    rw [hv, eojArrayValidator_eq]
    nofun
  readable _ r _ _ _ payload _ _ := by
    rw [hd]
    rw [eojArrayToCanonical_eq]
    exact iff_of_true (isOk_ok _) not_false
  accepts _ _ _ _ _ h := h.elim

end Echonet
