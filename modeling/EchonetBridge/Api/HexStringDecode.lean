import EchonetBridge.Api.HexString
import Mathlib.Data.List.GetD

/-!
# Api/HexStringDecode — decoding a hex string into a buffer

The value is written from its last byte backwards, as far as the first byte that the padding scan
lets through (`writeLoop_spec`).  The scan is meant to skip the zero bytes in front; it compares
the first digit of byte `k` and, in place of its second digit, the first digit of byte `2 * k`, so
what it skips is described by `StopsAt`.
-/

namespace Echonet

open BigEndian Outcome Text

namespace HexString

/-- Return the number of bytes represented. -/
def byteLen (h : HexString) : ℕ := h.digits.length / 2

theorem length_digits (h : HexString) : h.digits.length = 2 * h.byteLen := by
  have heven := h.even
  rw [byteLen]
  omega

@[simp] theorem length_represented (h : HexString) : h.represented.length = h.byteLen :=
  length_pairBytes h.digits

/-! ## Decoding -/

/-- The test of the padding scan at position `i`: the second index is read only when the first digit
is a `0`. -/
def notPadding (h : HexString) (i : ℕ) : Outcome HexStringError Bool := do
  let first ← index h.digits i
  if first != 0x30 then pure true
  else do
    let second ← index h.digits (i + i)
    pure (second != 0x30)

/-- The padding scan: the first position that is not padding ends it. -/
def padScan (h : HexString) (padEnd : ℕ) : List ℕ → Outcome HexStringError ℕ
  | [] => pure padEnd
  | i :: is => do
    if ← h.notPadding i then pure i else h.padScan padEnd is

/-- The first digit to decode: the padding is skipped when the buffer is too short. -/
def startPos (h : HexString) (bufLen : ℕ) : Outcome HexStringError ℕ :=
  if bufLen * 2 < h.digits.length then do
    let padEnd ← h.padScan bufLen (List.range' 0 ((h.digits.length + 1) / 2) 2)
    let size ← checkedSub h.digits.length padEnd
    if bufLen * 2 < size then .err .bufferTooSmall else pure padEnd
  else pure 0

/-- The byte two digits of the text spell. -/
def parsePair (h : HexString) (start : ℕ) : Outcome HexStringError UInt8 := do
  let pair ← slice h.digits start (start + 2)
  match fromStrRadix16 pair with
  | some byte => pure byte
  | none => .err .invalidCharacter

/-- One pass of the write loop, which fills the buffer from its end. -/
def writeByte (h : HexString) (startPos bufLen : ℕ) (buf : List UInt8) (i : ℕ) :
    Outcome HexStringError (List UInt8) :=
  let start : ℤ := h.digits.length - i * 2 - 2
  if start ≥ startPos then do
    let byte ← h.parsePair start.toNat
    setAt buf (bufLen - i - 1) byte
  else setAt buf (bufLen - i - 1) 0x00

/-- Decode the value into a buffer, right aligned.  A failed call leaves the bytes it has
written. -/
def decodeIntoSlice (h : HexString) (buf : List UInt8) :
    Outcome HexStringError Unit × List UInt8 :=
  match h.startPos buf.length with
  | .ok start => forEach (h.writeByte start buf.length) (List.range buf.length) buf
  | .err e => (.err e, buf)
  | .panic => (.panic, buf)

/-- Decode the value into a new Vec. -/
def decode {ε : Type} (h : HexString) : Outcome ε (List UInt8) :=
  match h.decodeIntoSlice (List.replicate (h.digits.length / 2) 0x00) with
  | (.ok (), buf) => .ok buf
  | (.err _, _) => .panic
  | (.panic, _) => .panic

/-! ## The write loop -/

theorem parsePair_of_lt (h : HexString) {k : ℕ} (hk : k < h.byteLen) :
    h.parsePair (2 * k) = .ok (h.represented.getD k 0) := by
  have hlen := h.length_digits
  have hpair : (h.digits.take (2 * k + 2)).drop (2 * k)
      = [h.digits[2 * k], h.digits[2 * k + 1]] := by
    rw [List.drop_take, Nat.add_sub_cancel_left, List.drop_eq_getElem_cons (by omega),
      List.drop_eq_getElem_cons (by omega)]
    rfl
  rw [parsePair, slice_of_le (Nat.le_add_right _ _) (by omega), ok_bind, hpair,
    fromStrRadix16_pair (h.isHex _ (List.getElem_mem _)) (h.isHex _ (List.getElem_mem _)),
    List.getD_eq_getElem?_getD, represented, getElem?_pairBytes,
    List.getElem?_eq_getElem (by omega), List.getElem?_eq_getElem (by omega)]
  rfl

/-- The buffer after the write loop: the bytes from `k` on behind zeros, or the last of them when
they are too many. -/
def rightAligned (h : HexString) (k n : ℕ) : List UInt8 :=
  (List.replicate n 0 ++ h.represented.drop k).drop (h.byteLen - k)

theorem length_rightAligned (h : HexString) (k n : ℕ) : (h.rightAligned k n).length = n := by
  rw [rightAligned, List.length_drop, List.length_append, List.length_replicate, List.length_drop,
    length_represented, Nat.add_sub_cancel]

/-- A buffer with room for every byte of the text has zeros in front of them. -/
theorem rightAligned_zero (h : HexString) {n : ℕ} (hn : h.byteLen ≤ n) :
    h.rightAligned 0 n = List.replicate (n - h.byteLen) 0 ++ h.represented := by
  rw [rightAligned, List.drop_zero, Nat.sub_zero,
    List.drop_append_of_le_length (by rw [List.length_replicate]; exact hn), List.drop_replicate]

/-- The byte `i` places from the end of the right-aligned buffer. -/
theorem getElem_rightAligned (h : HexString) {k n i : ℕ} (hi : i < n) :
    (h.rightAligned k n).getD (n - i - 1) 0
      = if k + i < h.byteLen then h.represented.getD (h.byteLen - i - 1) 0 else 0 := by
  rw [rightAligned, List.getD_eq_getElem?_getD, List.getElem?_drop]
  split_ifs with hlt
  · rw [List.getElem?_append_right (by rw [List.length_replicate]; omega), List.length_replicate,
      List.getElem?_drop, ← List.getD_eq_getElem?_getD]
    congr 1
    omega
  · rw [List.getElem?_append_left (by rw [List.length_replicate]; omega),
      List.getElem?_replicate_of_lt (by omega), Option.getD_some]

/-- **The write loop** fills the buffer, whatever it held. -/
theorem writeLoop_spec (h : HexString) (k : ℕ) (buf : List UInt8) :
    forEach (h.writeByte (2 * k) buf.length) (List.range buf.length) buf
      = (.ok (), h.rightAligned k buf.length) := by
  have hlen := h.length_digits
  obtain ⟨out, hloop, hout, hbytes⟩ := foldlM_range_rule (h.writeByte (2 * k) buf.length)
    (fun i out => out.length = buf.length ∧ ∀ j < i, out.getD (buf.length - j - 1) 0
      = (h.rightAligned k buf.length).getD (buf.length - j - 1) 0)
    buf.length buf ⟨rfl, fun _ hj => absurd hj (Nat.not_lt_zero _)⟩
    fun i hi out ⟨hout, hbytes⟩ => by
      have hpos : buf.length - i - 1 < out.length := by omega
      refine ⟨out.set (buf.length - i - 1)
        ((h.rightAligned k buf.length).getD (buf.length - i - 1) 0),
        ?_, by rw [List.length_set, hout], fun j hj => ?_⟩
      · rw [h.getElem_rightAligned hi, writeByte]
        by_cases hlt : k + i < h.byteLen
        · have hstart : ((h.digits.length : ℤ) - i * 2 - 2).toNat = 2 * (h.byteLen - i - 1) := by
            omega
          rw [if_pos hlt, if_pos (by omega), hstart, parsePair_of_lt _ (by omega), ok_bind,
            setAt_of_lt hpos]
        · rw [if_neg hlt, if_neg (by omega), setAt_of_lt hpos]
      · rw [List.getD_eq_getElem?_getD, List.getElem?_set]
        split_ifs with heq
        · rw [Option.getD_some, heq]
        · rw [← List.getD_eq_getElem?_getD]
          exact hbytes j (by omega)
  rw [forEach_of_foldlM hloop]
  congr 1
  refine List.ext_getElem (hout.trans (h.length_rightAligned k _).symm) fun p hp hp' => ?_
  rw [← List.getD_eq_getElem _ 0 hp, ← List.getD_eq_getElem _ 0 hp',
    show p = buf.length - (buf.length - p - 1) - 1 by omega]
  exact hbytes _ (by omega)

/-- The written value is the value of the bytes from `k` on, when they fit. -/
theorem beValue_rightAligned (h : HexString) {k n : ℕ} (hk : k ≤ h.byteLen)
    (hn : h.byteLen - k ≤ n) :
    beValue (h.rightAligned k n) = beValue h.represented ↔ k ≤ leadingZeros h.represented := by
  have hk' : k ≤ h.represented.length := by rw [length_represented]; exact hk
  rw [rightAligned, List.drop_append_of_le_length (by rw [List.length_replicate]; exact hn),
    List.drop_replicate, beValue_append, beValue_replicate_zero, Nat.zero_mul, Nat.zero_add,
    beValue_drop_eq_iff hk']

/-! ## The padding scan -/

/-- The first digit of byte `k` is not a `0`. -/
def HighDigit (h : HexString) (k : ℕ) : Prop := h.digits.getD (2 * k) 0x30 ≠ 0x30

instance (h : HexString) (k : ℕ) : Decidable (h.HighDigit k) := inferInstanceAs (Decidable (¬ _))

/-- The scan ends at byte `k`: it or byte `2 * k` has a first digit, and every byte `j` before `k`
has none, like byte `2 * j`, which the text still has. -/
structure StopsAt (h : HexString) (k : ℕ) : Prop where
  lt : k < h.byteLen
  stop : h.HighDigit k ∨ h.HighDigit (2 * k)
  before : ∀ j < k, 2 * j < h.byteLen ∧ ¬ h.HighDigit j ∧ ¬ h.HighDigit (2 * j)

theorem StopsAt.unique {h : HexString} {k l : ℕ} (hk : h.StopsAt k) (hl : h.StopsAt l) : k = l := by
  rcases Nat.lt_trichotomy k l with hlt | heq | hlt
  · obtain ⟨-, h1, h2⟩ := hl.before k hlt
    exact absurd hk.stop (not_or.mpr ⟨h1, h2⟩)
  · exact heq
  · obtain ⟨-, h1, h2⟩ := hk.before l hlt
    exact absurd hl.stop (not_or.mpr ⟨h1, h2⟩)

theorem index_digits (h : HexString) {k : ℕ} (hk : k < h.byteLen) :
    ∃ c, (index h.digits (2 * k) : Outcome HexStringError UInt8) = .ok c ∧
      (c ≠ 0x30 ↔ h.HighDigit k) := by
  have hlen := h.length_digits
  have hlt : 2 * k < h.digits.length := by omega
  exact ⟨_, index_of_lt hlt, by rw [HighDigit, List.getD_eq_getElem _ _ hlt]⟩

/-- The test at byte `k`. -/
theorem notPadding_spec (h : HexString) {k : ℕ} (hk : k < h.byteLen) :
    (h.notPadding (2 * k) = .ok true ∧ (h.HighDigit k ∨ h.HighDigit (2 * k))) ∨
    (h.notPadding (2 * k) = .ok false ∧ 2 * k < h.byteLen ∧ ¬ h.HighDigit k ∧
      ¬ h.HighDigit (2 * k)) ∨
    (h.notPadding (2 * k) = .panic ∧ h.byteLen ≤ 2 * k ∧ ¬ h.HighDigit k) := by
  have hlen := h.length_digits
  obtain ⟨c, hc, hhigh⟩ := h.index_digits hk
  rw [notPadding, hc, ok_bind]
  by_cases hc0 : c = 0x30
  · have hlow : ¬ h.HighDigit k := fun hh => hhigh.mpr hh hc0
    rw [if_neg (by simp [hc0]), ← Nat.two_mul]
    rcases Nat.lt_or_ge (2 * k) h.byteLen with h2 | h2
    · obtain ⟨d, hd, hhigh2⟩ := h.index_digits h2
      rw [hd, ok_bind, pure_eq]
      by_cases hd0 : d = 0x30
      · exact Or.inr (Or.inl ⟨by rw [hd0]; rfl, h2, hlow, fun hh => hhigh2.mpr hh hd0⟩)
      · exact Or.inl ⟨by rw [bne_iff_ne.mpr hd0], Or.inr (hhigh2.mp hd0)⟩
    · exact Or.inr (Or.inr ⟨by rw [index_of_le (by omega), panic_bind], h2, hlow⟩)
  · rw [if_pos (bne_iff_ne.mpr hc0), pure_eq]
    exact Or.inl ⟨rfl, Or.inl (hhigh.mp hc0)⟩

/-- **The padding scan** stops where `StopsAt` says, or reads past the text, or finds nothing at
all — the last only when the text has at most one byte. -/
theorem padScan_spec (h : HexString) (padEnd : ℕ) {k n : ℕ} (hkn : k + n = h.byteLen)
    (hbefore : ∀ j < k, 2 * j < h.byteLen ∧ ¬ h.HighDigit j ∧ ¬ h.HighDigit (2 * j)) :
    (∃ l, h.padScan padEnd (List.range' (2 * k) n 2) = .ok (2 * l) ∧ h.StopsAt l) ∨
    (h.padScan padEnd (List.range' (2 * k) n 2) = .panic ∧ (∀ l, ¬ h.StopsAt l) ∧ 2 ≤ h.byteLen) ∨
    (h.padScan padEnd (List.range' (2 * k) n 2) = .ok padEnd ∧ (∀ l, ¬ h.StopsAt l) ∧
      h.byteLen ≤ 1) := by
  induction n generalizing k with
  | zero =>
    have hnone : ∀ l, ¬ h.StopsAt l := fun l hl => by
      obtain ⟨-, h1, h2⟩ := hbefore l (by have := hl.lt; omega)
      exact absurd hl.stop (not_or.mpr ⟨h1, h2⟩)
    refine Or.inr (Or.inr ⟨rfl, hnone, ?_⟩)
    rcases Nat.eq_zero_or_pos k with h0 | hpos
    · omega
    · have := (hbefore (k - 1) (by omega)).1
      omega
  | succ n ih =>
    have hlt : k < h.byteLen := by omega
    rw [List.range'_succ, padScan]
    rcases h.notPadding_spec hlt with ⟨hnp, hstop⟩ | ⟨hnp, h2, hhigh, hhigh2⟩ | ⟨hnp, h2, hhigh⟩
    · exact Or.inl ⟨k, by rw [hnp, ok_bind]; rfl, hlt, hstop, hbefore⟩
    · rw [hnp, ok_bind, if_neg Bool.false_ne_true, show 2 * k + 2 = 2 * (k + 1) by ring]
      refine ih (by omega) fun j hj => ?_
      rcases Nat.lt_succ_iff_lt_or_eq.mp hj with hjk | rfl
      · exact hbefore j hjk
      · exact ⟨h2, hhigh, hhigh2⟩
    · refine Or.inr (Or.inl ⟨by rw [hnp, panic_bind], fun l hl => ?_, by omega⟩)
      rcases Nat.lt_trichotomy l k with hlk | rfl | hkl
      · obtain ⟨-, h1, h2⟩ := hbefore l hlk
        exact absurd hl.stop (not_or.mpr ⟨h1, h2⟩)
      · rcases hl.stop with hs | hs
        · exact hhigh hs
        · rw [HighDigit, List.getD_eq_default _ _ (by rw [h.length_digits]; omega)] at hs
          exact hs rfl
      · exact absurd (hl.before k hkl).1 (by omega)

/-! ## When decoding is lossless -/

/-- What a call with too short a buffer does. -/
theorem decodeIntoSlice_short (h : HexString) {buf : List UInt8} (hn : buf.length < h.byteLen) :
    (∃ k, h.StopsAt k ∧ h.decodeIntoSlice buf =
      if h.byteLen - k ≤ buf.length then (.ok (), h.rightAligned k buf.length)
      else (.err .bufferTooSmall, buf)) ∨
    (h.decodeIntoSlice buf = (.panic, buf) ∧ (∀ k, ¬ h.StopsAt k) ∧ 2 ≤ h.byteLen) ∨
    (h.decodeIntoSlice buf = (.err .bufferTooSmall, buf) ∧ (∀ k, ¬ h.StopsAt k) ∧
      h.byteLen = 1) := by
  have hlen := h.length_digits
  have hsteps : (h.digits.length + 1) / 2 = h.byteLen := by omega
  have hscan := h.padScan_spec buf.length (Nat.zero_add h.byteLen)
    fun _ hj => absurd hj (Nat.not_lt_zero _)
  rw [Nat.mul_zero] at hscan
  rw [decodeIntoSlice, startPos, if_pos (by omega), hsteps]
  rcases hscan with ⟨k, hk, hstop⟩ | ⟨hpanic, hnone, htwo⟩ | ⟨hend, hnone, hone⟩
  · have hlt := hstop.lt
    rw [hk, ok_bind, checkedSub_of_le (by omega), ok_bind]
    refine Or.inl ⟨k, hstop, ?_⟩
    by_cases hfit : h.byteLen - k ≤ buf.length
    · rw [if_neg (by omega), if_pos hfit, pure_eq]
      exact h.writeLoop_spec k buf
    · rw [if_pos (by omega), if_neg hfit]
  · rw [hpanic, panic_bind]
    exact Or.inr (Or.inl ⟨rfl, hnone, htwo⟩)
  · rw [hend, ok_bind, checkedSub_of_le (by omega), ok_bind, if_pos (by omega)]
    exact Or.inr (Or.inr ⟨rfl, hnone, by omega⟩)

theorem decodeIntoSlice_of_le (h : HexString) {buf : List UInt8} (hn : h.byteLen ≤ buf.length) :
    h.decodeIntoSlice buf = (.ok (), h.rightAligned 0 buf.length) := by
  have hlen := h.length_digits
  rw [decodeIntoSlice, startPos, if_neg (by omega), pure_eq]
  exact h.writeLoop_spec 0 buf

/-- **A buffer is refused** when it is too short, and the scan stops before all is skipped that has
to be, or there is only one byte. -/
theorem decodeIntoSlice_isErr_iff (h : HexString) (buf : List UInt8) :
    (∃ e, (h.decodeIntoSlice buf).1 = .err e) ↔
      buf.length < h.byteLen ∧
        (h.byteLen = 1 ∨ ∃ k < h.byteLen - buf.length, h.StopsAt k) := by
  rcases Nat.lt_or_ge buf.length h.byteLen with hn | hn
  · rw [and_iff_right hn]
    rcases h.decodeIntoSlice_short hn with ⟨k, hstop, hrun⟩ | ⟨hrun, hnone, htwo⟩ |
      ⟨hrun, -, hone⟩
    · have hlt := hstop.lt
      have hscan : (∃ l < h.byteLen - buf.length, h.StopsAt l) ↔ k < h.byteLen - buf.length :=
        ⟨fun ⟨l, hl, hstop'⟩ => hstop.unique hstop' ▸ hl, fun hk => ⟨k, hk, hstop⟩⟩
      rw [hrun, hscan]
      split_ifs with hfit
      · exact iff_of_false (fun ⟨_, he⟩ => nomatch he) (by omega)
      · exact iff_of_true ⟨_, rfl⟩ (by omega)
    · rw [hrun]
      exact iff_of_false (fun ⟨_, he⟩ => nomatch he)
        (not_or.mpr ⟨by omega, fun ⟨k, _, hk⟩ => hnone k hk⟩)
    · rw [hrun]
      exact iff_of_true ⟨_, rfl⟩ (Or.inl hone)
  · rw [h.decodeIntoSlice_of_le hn]
    exact iff_of_false (fun ⟨_, he⟩ => nomatch he) fun hlt => absurd hlt.1 (Nat.not_lt.mpr hn)

/-- The buffer takes the value exactly when its significant bytes fit; otherwise it is refused, and
unchanged. -/
def DecodesInto (h : HexString) (buf : List UInt8) : Prop :=
  if (significant h.represented).length ≤ buf.length then
    ∃ out, h.decodeIntoSlice buf = (.ok (), out) ∧ out.length = buf.length ∧
      beValue out = beValue h.represented
  else h.decodeIntoSlice buf = (.err .bufferTooSmall, buf)

/-- The buffer is long enough for every byte; or the padding scan stops at a byte that is, like the
number of leading zeros, on the right side of what has to be skipped; or one byte that is not zero
meets an empty buffer. -/
def ScansPadding (h : HexString) (n : ℕ) : Prop :=
  h.byteLen ≤ n ∨
  (∃ k, h.StopsAt k ∧ (h.byteLen - n ≤ k ∧ k ≤ leadingZeros h.represented ∨
    k < h.byteLen - n ∧ leadingZeros h.represented < h.byteLen - n)) ∨
  (h.byteLen = 1 ∧ n = 0 ∧ leadingZeros h.represented = 0)

/-- The scan stops at one byte, so what it stops at is what holds of that byte. -/
theorem StopsAt.exists_iff {h : HexString} {k : ℕ} (hstop : h.StopsAt k) {P : ℕ → Prop} :
    (∃ l, h.StopsAt l ∧ P l) ↔ P k :=
  ⟨fun ⟨_, hl, hP⟩ => hl.unique hstop ▸ hP, fun hP => ⟨k, hstop, hP⟩⟩

/-- A scan that stops at `k` decodes the bytes from `k` on, or refuses a buffer too short for
them. -/
theorem decodesInto_of_stopsAt (h : HexString) {buf : List UInt8} (hn : buf.length < h.byteLen)
    {k : ℕ} (hstop : h.StopsAt k)
    (hrun : h.decodeIntoSlice buf =
      if h.byteLen - k ≤ buf.length then (.ok (), h.rightAligned k buf.length)
      else (.err .bufferTooSmall, buf)) :
    h.DecodesInto buf ↔
      h.byteLen - buf.length ≤ k ∧ k ≤ leadingZeros h.represented ∨
        k < h.byteLen - buf.length ∧ leadingZeros h.represented < h.byteLen - buf.length := by
  have hlt := hstop.lt
  rw [DecodesInto, length_significant, length_represented, hrun]
  by_cases hfit : h.byteLen - k ≤ buf.length
  · rw [if_pos hfit]
    have hvalue := h.beValue_rightAligned hlt.le hfit
    split_ifs with hsig
    · constructor
      · rintro ⟨out, hout, -, hval⟩
        cases hout
        exact Or.inl ⟨by omega, hvalue.mp hval⟩
      · intro hor
        exact ⟨_, rfl, h.length_rightAligned k _, hvalue.mpr (by omega)⟩
    · exact iff_of_false (fun hout => nomatch hout) (by omega)
  · rw [if_neg hfit]
    split_ifs with hsig
    · exact iff_of_false (fun ⟨_, hout, _⟩ => nomatch hout) (by omega)
    · exact iff_of_true rfl (by omega)

/-- A scan that reads past the text answers nothing. -/
theorem not_decodesInto_of_panic (h : HexString) {buf : List UInt8}
    (hrun : h.decodeIntoSlice buf = (.panic, buf)) : ¬ h.DecodesInto buf := by
  rw [DecodesInto, hrun]
  split_ifs
  · exact fun ⟨_, hout, _⟩ => nomatch hout
  · exact fun hout => nomatch hout

/-- A refused buffer is right to be refused when it has no room for the value. -/
theorem decodesInto_of_refused (h : HexString) {buf : List UInt8}
    (hrun : h.decodeIntoSlice buf = (.err .bufferTooSmall, buf)) :
    h.DecodesInto buf ↔ buf.length < h.byteLen - leadingZeros h.represented := by
  rw [DecodesInto, length_significant, length_represented, hrun]
  split_ifs with hsig
  · exact iff_of_false (fun ⟨_, hout, _⟩ => nomatch hout) (Nat.not_lt.mpr hsig)
  · exact iff_of_true rfl (Nat.lt_of_not_le hsig)

/-- A buffer for every byte of the text takes its value. -/
theorem decodesInto_of_le (h : HexString) {buf : List UInt8} (hn : h.byteLen ≤ buf.length) :
    h.DecodesInto buf := by
  have hroom : (significant h.represented).length ≤ buf.length := by
    rw [length_significant, length_represented]
    omega
  rw [DecodesInto, if_pos hroom, h.decodeIntoSlice_of_le hn]
  exact ⟨_, rfl, h.length_rightAligned 0 _,
    (h.beValue_rightAligned (Nat.zero_le _) hn).mpr (Nat.zero_le _)⟩

/-- **Decoding is right-aligned and lossless** exactly when the buffer holds every byte of the text
or the padding scan, which looks at the wrong digits, happens to end at the right place. -/
theorem decodesInto_iff (h : HexString) (buf : List UInt8) :
    h.DecodesInto buf ↔ h.ScansPadding buf.length := by
  have hz := leadingZeros_le h.represented
  rw [length_represented] at hz
  rw [ScansPadding]
  rcases Nat.lt_or_ge buf.length h.byteLen with hn | hn
  · rw [or_iff_right (Nat.not_le.mpr hn)]
    rcases h.decodeIntoSlice_short hn with ⟨k, hstop, hrun⟩ | ⟨hrun, hnone, htwo⟩ |
      ⟨hrun, hnone, hone⟩
    · have hlt := hstop.lt
      rw [h.decodesInto_of_stopsAt hn hstop hrun, hstop.exists_iff]
      omega
    · exact iff_of_false (h.not_decodesInto_of_panic hrun)
        (not_or.mpr ⟨fun ⟨k, hk, _⟩ => hnone k hk, by omega⟩)
    · rw [h.decodesInto_of_refused hrun, or_iff_right fun ⟨k, hk, _⟩ => hnone k hk]
      omega
  · exact iff_of_true (h.decodesInto_of_le hn) (Or.inl hn)

/-- `0134` does not fit one byte, but its first byte is skipped as padding and lost. -/
theorem decodeIntoSlice_loses_byte :
    ∃ h : HexString, new "0134" = .ok h ∧ h.decodeIntoSlice [0xaa] = (.ok (), [0x34]) ∧
      ¬ h.DecodesInto [0xaa] := by
  refine ⟨⟨[0x30, 0x31, 0x33, 0x34], by decide +kernel, rfl⟩, by rfl, by rfl, ?_⟩
  rw [DecodesInto, if_neg (by decide)]
  exact fun h => nomatch h

/-- A text with room for its value: every byte is decoded, by `decode` as by a buffer of its
size. -/
theorem decode_eq {ε : Type} (h : HexString) :
    (h.decode : Outcome ε (List UInt8)) = .ok h.represented := by
  have hlen : (List.replicate (h.digits.length / 2) (0x00 : UInt8)).length = h.byteLen :=
    List.length_replicate
  rw [decode, h.decodeIntoSlice_of_le hlen.ge, hlen, h.rightAligned_zero le_rfl, Nat.sub_self,
    List.replicate_zero, List.nil_append]

end HexString

end Echonet
