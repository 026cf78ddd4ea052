import EchonetBridge.Api.HexStringEquality
import EchonetBridge.Epc.FactoryContract
import EchonetBridge.Epc.RoundTrip

/-!
# Epc/ManufacturerFault — storing a manufacturer's fault code

The manufacturer code is decoded into the whole payload, where it is right-aligned, and the fault
code over what follows the first three bytes: the two overlap, and the manufacturer code is in its
place only by chance (`faultCode_carries_iff`).
-/

namespace Echonet

open BigEndian Outcome Text

/-! ## Two texts in one buffer -/

theorem decodeIntoTail_of_le (epc : UInt8) (h : HexString) {buf : List UInt8} {start : ℕ}
    (hstart : start + h.byteLen ≤ buf.length) :
    decodeIntoTail epc h buf start = .ok (buf.take start ++
      (List.replicate (buf.length - start - h.byteLen) 0 ++ h.represented)) := by
  have hroom : h.byteLen ≤ (buf.drop start).length := by
    rw [List.length_drop]
    omega
  rw [decodeIntoTail, sliceFrom_of_le (by omega), ok_bind, h.decodeIntoSlice_of_le hroom,
    h.rightAligned_zero hroom, List.length_drop]
  rfl

/-- Only the text makes decoding into a tail fail; a tail that starts behind the buffer panics. -/
theorem decodeIntoTail_isErr_iff (epc : UInt8) (h : HexString) (buf : List UInt8) (start : ℕ) :
    (∃ e, decodeIntoTail epc h buf start = .err e) ↔
      start ≤ buf.length ∧ ∃ e, (h.decodeIntoSlice (buf.drop start)).1 = .err e := by
  rw [decodeIntoTail]
  by_cases hstart : start ≤ buf.length
  · rw [sliceFrom_of_le hstart, ok_bind, and_iff_right hstart]
    rcases h.decodeIntoSlice (buf.drop start) with ⟨_ | _ | _, out⟩ <;> simp
  · rw [sliceFrom, if_neg hstart, panic_bind]
    exact iff_of_false (fun ⟨_, he⟩ => nomatch he) fun h => hstart h.1

theorem length_of_decodeIntoTail {epc : UInt8} {h : HexString} {buf out : List UInt8} {start : ℕ}
    (hout : decodeIntoTail epc h buf start = .ok out) : start ≤ out.length := by
  rw [decodeIntoTail, bind_eq_ok] at hout
  obtain ⟨tail, htail, hout⟩ := hout
  have hstart : start ≤ buf.length := by
    by_contra hlt
    rw [sliceFrom, if_neg hlt] at htail
    exact nomatch htail
  have hcut : (buf.take start).length = start := by
    rw [List.length_take, Nat.min_eq_left hstart]
  rcases hrun : h.decodeIntoSlice tail with ⟨_ | _ | _, bytes⟩ <;> rw [hrun] at hout
  · cases hout
    rw [List.length_append, hcut]
    exact Nat.le_add_right _ _
  · exact nomatch hout
  · exact nomatch hout

/-! ## The encoder -/

section Encoder

variable (r : EpcRef NodeObjectManufacturerFaultCode) (c : NodeObjectManufacturerFaultCode)

/-- The payload after the manufacturer code is decoded: right-aligned behind the zeros that stand
for the fault code. -/
def manufacturerPayload : List UInt8 :=
  List.replicate c.faultCode.byteLen 0 ++ c.manufacturerCode.represented

theorem length_manufacturerPayload : (manufacturerPayload c).length
    = c.manufacturerCode.byteLen + c.faultCode.byteLen := by
  rw [manufacturerPayload, List.length_append, List.length_replicate,
    HexString.length_represented, Nat.add_comm]

/-- The fault code is decoded over the tail of that payload. -/
theorem faultCodeFromCanonical_eq :
    faultCodeFromCanonical r c
      = decodeIntoTail r.epc c.faultCode (0x00 :: 0x00 :: manufacturerPayload c) 5 := by
  have hbuf : 2 + c.manufacturerCode.byteLen
      ≤ (List.replicate (c.manufacturerCode.byteLen + c.faultCode.byteLen + 2)
        (0x00 : UInt8)).length := by
    rw [List.length_replicate]
    omega
  rw [faultCodeFromCanonical, decodeIntoTail_of_le r.epc _ hbuf, ok_bind, List.length_replicate,
    List.take_replicate, Nat.min_eq_left (Nat.le_add_left 2 _),
    show c.manufacturerCode.byteLen + c.faultCode.byteLen + 2 - 2 - c.manufacturerCode.byteLen
      = c.faultCode.byteLen by omega]
  rfl

/-- Three bytes of the manufacturer code are kept, if it has three. -/
theorem faultCodeFromCanonical_of_three (h : c.manufacturerCode.byteLen = 3) :
    faultCodeFromCanonical r c
      = .ok (0x00 :: 0x00 :: ((manufacturerPayload c).take 3 ++ c.faultCode.represented)) := by
  have hlen := length_manufacturerPayload c
  have hbuf : (0x00 :: 0x00 :: manufacturerPayload c).length = 5 + c.faultCode.byteLen := by
    rw [List.length_cons, List.length_cons, hlen, h]
    omega
  rw [faultCodeFromCanonical_eq, decodeIntoTail_of_le r.epc _ hbuf.ge, hbuf,
    Nat.add_sub_cancel_left, Nat.sub_self]
  rfl

/-- The encoder fails only when the manufacturer code is too short, so that the fault code has to
skip padding. -/
theorem faultCodeFromCanonical_isErr_iff :
    (∃ e, faultCodeFromCanonical r c = .err e) ↔
      c.manufacturerCode.byteLen < 3 ∧ 3 ≤ c.manufacturerCode.byteLen + c.faultCode.byteLen ∧
        (c.faultCode.byteLen = 1 ∨
          ∃ k < 3 - c.manufacturerCode.byteLen, c.faultCode.StopsAt k) := by
  have hlen := length_manufacturerPayload c
  rw [faultCodeFromCanonical_eq, decodeIntoTail_isErr_iff, HexString.decodeIntoSlice_isErr_iff,
    List.length_drop, List.length_cons, List.length_cons, hlen]
  by_cases hroom : 3 ≤ c.manufacturerCode.byteLen + c.faultCode.byteLen
  · rw [show c.faultCode.byteLen - (c.manufacturerCode.byteLen + c.faultCode.byteLen + 1 + 1 - 5)
      = 3 - c.manufacturerCode.byteLen by omega]
    constructor
    · rintro ⟨-, hlt, hscan⟩
      exact ⟨by omega, hroom, hscan⟩
    · rintro ⟨hlt, -, hscan⟩
      exact ⟨by omega, by omega, hscan⟩
  · exact iff_of_false (fun h => by omega) fun h => hroom h.2.1

end Encoder

/-! ## The validator -/

theorem faultCodeValidator_eq {epc : UInt8} {payload : List UInt8} (h : 3 ≤ payload.length)
    (r : EpcRef NodeObjectManufacturerFaultCode) :
    faultCodeValidator r (frame epc payload) = .ok true := by
  rw [faultCodeValidator, length_frame, if_pos (by omega)]

/-! ## The property -/

/-- A manufacturer code of three bytes is stored in front of the fault code, and the two are read
back; one of another length is refused with an error. -/
structure CarriesCode (p : StaticNodeProperty NodeObjectManufacturerFaultCode) (cells : Cells)
    (c : NodeObjectManufacturerFaultCode) (now : ClockReading) : Prop where
  carried : c.manufacturerCode.byteLen = 3 →
    p.RoundTrip cells c now (c.manufacturerCode.represented ++ c.faultCode.represented)
      fun c' => EqIgnoreCase c'.manufacturerCode c.manufacturerCode ∧
        EqIgnoreCase c'.faultCode c.faultCode
  refused : c.manufacturerCode.byteLen ≠ 3 →
    (∃ e, (p.fromCanonical cells c now).1 = .err e) ∧ (p.fromCanonical cells c now).2 = cells

/-- The codes that do not overlap: three bytes of manufacturer code are in place when there is no
fault code, or when they are all zero.  A shorter manufacturer code is refused when the fault code
is one byte, or stops the padding scan before the bytes that have to be skipped. -/
structure InPlace (c : NodeObjectManufacturerFaultCode) : Prop where
  three : c.manufacturerCode.byteLen = 3 →
    c.faultCode.byteLen = 0 ∨ c.manufacturerCode.represented = [0, 0, 0]
  other : c.manufacturerCode.byteLen ≠ 3 →
    c.manufacturerCode.byteLen < 3 ∧ 3 ≤ c.manufacturerCode.byteLen + c.faultCode.byteLen ∧
      (c.faultCode.byteLen = 1 ∨ ∃ k < 3 - c.manufacturerCode.byteLen, c.faultCode.StopsAt k)

section Property

variable {p : StaticNodeProperty NodeObjectManufacturerFaultCode}
  {c : NodeObjectManufacturerFaultCode}

theorem faultCode_stored (henc : p.fromCanonicalFn = faultCodeFromCanonical)
    (hv : p.validatorFn = faultCodeValidator) (cells : Cells)
    (h : c.manufacturerCode.byteLen = 3) (now : ClockReading) :
    p.fromCanonical cells c now = (.ok (), ⟨frame p.epc
      ((manufacturerPayload c).take 3 ++ c.faultCode.represented), now.1⟩) := by
  refine p.fromCanonical_of_yes (by rw [henc, faultCodeFromCanonical_of_three _ c h])
    (Nat.le_add_left 2 _) ?_ now
  have hlen := length_manufacturerPayload c
  rw [hv]
  refine faultCodeValidator_eq ?_ _
  rw [List.drop_succ_cons, List.drop_succ_cons, List.drop_zero, List.length_append,
    List.length_take, hlen]
  omega

/-- Three bytes of a manufacturer code make a round trip when they are in place. -/
theorem faultCode_roundTrip_iff (henc : p.fromCanonicalFn = faultCodeFromCanonical)
    (hd : p.toCanonicalFn = faultCodeToCanonical) (hv : p.validatorFn = faultCodeValidator)
    (cells : Cells) (h : c.manufacturerCode.byteLen = 3) (now : ClockReading) :
    p.RoundTrip cells c now (c.manufacturerCode.represented ++ c.faultCode.represented)
        (fun c' => EqIgnoreCase c'.manufacturerCode c.manufacturerCode ∧
          EqIgnoreCase c'.faultCode c.faultCode) ↔
      c.faultCode.byteLen = 0 ∨ c.manufacturerCode.represented = [0, 0, 0] := by
  have hthree : c.manufacturerCode.represented.length = 3 := by
    rw [HexString.length_represented, h]
  have hplace := Buffer.take_padded_eq_iff c.faultCode.byteLen 0 c.manufacturerCode.represented
  rw [hthree] at hplace
  rw [p.roundTrip_iff (faultCode_stored henc hv cells h now), List.append_left_inj,
    manufacturerPayload, hplace]
  refine and_iff_left_of_imp fun hin => ?_
  rw [hplace.mpr hin, hd, faultCodeToCanonical_append hthree]
  exact ⟨_, rfl, eqIgnoreCase_ofBytes_represented _, eqIgnoreCase_ofBytes_represented _⟩

/-- What the encoder returns is long enough for the validator. -/
theorem faultCode_refused_iff (henc : p.fromCanonicalFn = faultCodeFromCanonical)
    (hv : p.validatorFn = faultCodeValidator) (cells : Cells) (now : ClockReading) :
    ((∃ e, (p.fromCanonical cells c now).1 = .err e) ∧ (p.fromCanonical cells c now).2 = cells) ↔
      ∃ e, faultCodeFromCanonical (p.ref cells) c = .err e := by
  cases hrun : faultCodeFromCanonical (p.ref cells) c with
  | ok internal =>
    have hlen : 5 ≤ internal.length := by
      rw [faultCodeFromCanonical_eq] at hrun
      exact length_of_decodeIntoTail hrun
    have hyes : p.validatorFn (p.ref cells) (frame p.epc (internal.drop 2)) = .ok true := by
      rw [hv]
      exact faultCodeValidator_eq (by rw [List.length_drop]; omega) _
    rw [p.fromCanonical_of_yes (by rw [henc, hrun]) (by omega) hyes now]
    simp
  | err e =>
    have herr : p.fromCanonical cells c now = (.err e, cells) := by
      rw [StaticNodeProperty.fromCanonical, henc, hrun]
    rw [herr]
    simp
  | panic =>
    have hpanic : p.fromCanonical cells c now = (.panic, cells) := by
      rw [StaticNodeProperty.fromCanonical, henc, hrun]
    rw [hpanic]
    simp

theorem carriesCode_iff (henc : p.fromCanonicalFn = faultCodeFromCanonical)
    (hd : p.toCanonicalFn = faultCodeToCanonical) (hv : p.validatorFn = faultCodeValidator)
    (cells : Cells) (c : NodeObjectManufacturerFaultCode) (now : ClockReading) :
    CarriesCode p cells c now ↔ InPlace c := by
  have hrefused := (faultCode_refused_iff henc hv cells now).trans
    (faultCodeFromCanonical_isErr_iff (p.ref cells) c)
  constructor
  · rintro ⟨hthree, hother⟩
    exact ⟨fun h => (faultCode_roundTrip_iff henc hd hv cells h now).mp (hthree h),
      fun h => hrefused.mp (hother h)⟩
  · rintro ⟨hthree, hother⟩
    exact ⟨fun h => (faultCode_roundTrip_iff henc hd hv cells h now).mpr (hthree h),
      fun h => hrefused.mpr (hother h)⟩

end Property

/-- **A manufacturer's fault code is carried** exactly when its two parts are in place. -/
theorem faultCode_carries_iff (F : Type) [F64 F] [Chrono] (groupClass : NodeGroupClass) :
    ∃ p, propertyFactory F groupClass epcManufacturersFaultCode
        = .ok ⟨NodeObjectManufacturerFaultCode, p⟩ ∧
      ∀ cells c now, CarriesCode p cells c now ↔ InPlace c :=
  ⟨_, rfl, carriesCode_iff rfl rfl rfl⟩

/-- The manufacturer code `010203` is moved by one byte of fault code, and its last byte is lost. -/
theorem manufacturer_code_moved :
    ∃ p m f, hostFactory classProfileNodeProfile epcManufacturersFaultCode
        = .ok ⟨NodeObjectManufacturerFaultCode, p⟩ ∧
      HexString.new "010203" = .ok m ∧ HexString.new "04" = .ok f ∧ m.byteLen = 3 ∧
      p.get (p.fromCanonical .fresh ⟨m, f⟩ ⟨1, by decide⟩).2 = .ok [0x00, 0x01, 0x02, 0x04] ∧
      ¬ CarriesCode p .fresh ⟨m, f⟩ ⟨1, by decide⟩ := by
  refine ⟨_, ⟨[0x30, 0x31, 0x30, 0x32, 0x30, 0x33], by decide +kernel, rfl⟩,
    ⟨[0x30, 0x34], by decide +kernel, rfl⟩, rfl, by rfl, by rfl, rfl, by rfl, fun h => ?_⟩
  exact absurd (h.carried rfl).get_eq (by decide)

end Echonet
