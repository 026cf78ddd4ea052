import EchonetBridge.Api.PropertyMapBits

/-!
# Api/PropertyMapWire — the two wire forms of a property map

The bitmap form is the transpose of the eight words: bit `i` of byte `j + 1` is bit `j` of word `i`
(`fromBytes_bitmap` reads it, `decode_bitmap` writes it).  The list form is the enabled codes in
order behind their number (`fromBytes_list`, `decode_list`).
-/

namespace Echonet

open Bits Outcome

namespace NodeObjectPropertyMap

/-! ## Reading the bitmap -/

/-- Bit `i` of byte `j + 1` of a bitmap. -/
def wireBit (wire : List UInt8) (i j : ℕ) : Bool := (wire.getD (j + 1) 0).toNat.testBit i

theorem bitmapBit_eq {wire : List UInt8} (hlen : wire.length = 17) {i j : ℕ} (hi : i < 8)
    (hj : j < 16) (row : UInt16) :
    bitmapBit wire i row j = .ok (shiftIn row (wireBit wire i j)) := by
  rw [bitmapBit, index_of_lt (by omega), ok_bind, masked_shift_eq_ofBit _ hi, wireBit,
    List.getD_eq_getElem _ _ (by omega)]
  rfl

/-- A row of the bitmap collects one bit of each of the sixteen bytes. -/
theorem foldlM_bitmapBit {wire : List UInt8} (hlen : wire.length = 17) {i : ℕ} (hi : i < 8) :
    ∃ row : UInt16, (List.range 16).reverse.foldlM (bitmapBit wire i) 0 = .ok row ∧
      ∀ j < 16, row.toNat.testBit j = wireBit wire i j := by
  refine ⟨_, foldlM_eq_foldl (g := fun row j => shiftIn row (wireBit wire i j)) _ _
    fun row j hj => bitmapBit_eq hlen hi (by simpa using hj) row, fun j hj => ?_⟩
  rw [← List.foldl_map (f := wireBit wire i) (g := shiftIn), testBit_foldl_shiftIn _ hj,
    ← List.map_reverse, List.reverse_reverse, List.getD_eq_getElem _ _ (by simpa using hj),
    List.getElem_map, List.getElem_range]

/-- The rows read so far, the zeros still to be read, and the count of the former. -/
structure RowsRead (wire : List UInt8) (n : ℕ) (s : Vector UInt16 8 × ℕ) : Prop where
  count : s.2 = ((s.1.toList.take n).map countOnes).sum
  bits : ∀ i < n, ∀ (hi : i < 8), ∀ j < 16, s.1[i].toNat.testBit j = wireBit wire i j
  zero : ∀ i, n ≤ i → ∀ (hi : i < 8), s.1[i] = 0

theorem RowsRead.bitmapRow {wire : List UInt8} (hlen : wire.length = 17) {n : ℕ} (hn : n < 8)
    {s : Vector UInt16 8 × ℕ} (h : RowsRead wire n s) :
    ∃ s', bitmapRow wire s n = .ok s' ∧ RowsRead wire (n + 1) s' := by
  obtain ⟨row, hrow, hbits⟩ := foldlM_bitmapBit hlen hn
  refine ⟨(s.1.set n row, s.2 + countOnes row), ?_, ?_, fun i hin hi j hj => ?_,
    fun i hin hi => ?_⟩
  · rw [NodeObjectPropertyMap.bitmapRow, entry_of_lt hn, ok_bind, h.zero n le_rfl hn, hrow, ok_bind,
      modifyAt_of_lt hn, ok_bind, pure_eq]
  · have htake : (s.1.set n row).toList.take n = s.1.toList.take n := by
      rw [Vector.toList_set, List.take_set_of_le le_rfl]
    have hlt : n < (s.1.set n row).toList.length := by rw [Vector.length_toList]; exact hn
    rw [List.take_succ_eq_append_getElem hlt, htake, List.map_append, List.sum_append, ← h.count,
      List.map_singleton, List.sum_singleton, Vector.getElem_toList, Vector.getElem_set_self]
  · rcases Nat.lt_succ_iff_lt_or_eq.mp hin with hlt | rfl
    · rw [Vector.getElem_set_ne _ _ (Nat.ne_of_gt hlt)]
      exact h.bits i hlt hi j hj
    · rw [Vector.getElem_set_self]
      exact hbits j hj
  · rw [Vector.getElem_set_ne _ _ (Nat.ne_of_lt hin)]
    exact h.zero i (Nat.le_of_succ_le hin) hi

/-- **Reading the bitmap transposes it**, and counts the bits it reads. -/
theorem bitmapRows_spec {wire : List UInt8} (hlen : wire.length = 17) :
    ∃ v : Vector UInt16 8,
      (List.range 8).foldlM (bitmapRow wire) (new.operations, 0) = .ok (v, setBits v) ∧
        ∀ i < 8, ∀ j < 16, bitAt v (16 * i + j) = wireBit wire i j := by
  have h0 : RowsRead wire 0 (new.operations, 0) :=
    ⟨rfl, fun _ h => absurd h (Nat.not_lt_zero _), fun i _ hi => by simp [new]⟩
  obtain ⟨⟨v, count⟩, hloop, h⟩ := foldlM_range_rule _ (RowsRead wire) 8 _ h0
    fun n hn s hs => hs.bitmapRow hlen hn
  have hcount : count = setBits v :=
    h.count.trans (by rw [setBits, List.take_of_length_le (by rw [Vector.length_toList])])
  subst hcount
  exact ⟨v, hloop, fun i hi j hj => by rw [bitAt_eq v hi hj, h.bits i hi hi j hj]⟩

/-- The transpose has the bits of the bytes. -/
theorem setBits_transpose {v : Vector UInt16 8} {count : UInt8} {bytes : List UInt8}
    (hlen : bytes.length = 16)
    (hv : ∀ i < 8, ∀ j < 16, bitAt v (16 * i + j) = wireBit (count :: bytes) i j) :
    setBits v = (bytes.map byteOnes).sum := by
  rw [setBits_eq_sum, sum_byteOnes, hlen]
  refine Finset.sum_congr rfl fun i hi => Finset.sum_congr rfl fun j hj => ?_
  rw [hv i (Finset.mem_range.mp hi) j (Finset.mem_range.mp hj), wireBit, List.getD_cons_succ]

/-- **Parsing the bitmap form**: the length and the number of bits are checked, and the words are
the transpose of the bytes. -/
theorem fromBytes_bitmap {count : UInt8} (h : 16 ≤ count) (bytes : List UInt8) :
    (¬ ((count :: bytes).length = 17 ∧ (bytes.map byteOnes).sum = count.toNat) →
      ∃ e, fromBytes (count :: bytes) = .err e) ∧
    ((count :: bytes).length = 17 ∧ (bytes.map byteOnes).sum = count.toNat →
      ∃ v : Vector UInt16 8, fromBytes (count :: bytes) = .ok ⟨v, count.toNat⟩ ∧
        count.toNat = setBits v ∧
        ∀ i < 8, ∀ j < 16, bitAt v (16 * i + j) = wireBit (count :: bytes) i j) := by
  have hlt : ¬ count < 16 := UInt8.not_lt.mpr h
  by_cases hlen : (count :: bytes).length = 17
  · obtain ⟨v, hrows, hbits⟩ := bitmapRows_spec hlen
    have hcount : setBits v = (bytes.map byteOnes).sum :=
      setBits_transpose (Nat.succ_injective hlen) hbits
    have hstruct : ¬ ((count < 16 ∧ (count + 1).toNat ≠ (count :: bytes).length)
        ∨ (16 ≤ count ∧ (count :: bytes).length ≠ 17)) := by
      rintro (⟨h1, -⟩ | ⟨-, h2⟩)
      · exact hlt h1
      · exact h2 hlen
    rw [fromBytes, if_neg hstruct, if_neg hlt, hrows, ok_bind, hcount]
    refine ⟨fun hne => ?_, fun ⟨_, hsum⟩ => ?_⟩
    · rw [if_pos fun hsum => hne ⟨hlen, hsum⟩, err_bind]
      exact ⟨_, rfl⟩
    · rw [if_neg (not_not.mpr hsum), pure_eq, ok_bind]
      exact ⟨v, (if_pos hsum.symm).trans (by rw [hsum, pure_eq]),
        hsum.symm.trans hcount.symm, hbits⟩
  · refine ⟨fun _ => ?_, fun ⟨hlen', _⟩ => absurd hlen' hlen⟩
    rw [fromBytes, if_pos (Or.inr ⟨h, hlen⟩)]
    exact ⟨_, rfl⟩

/-! ## Writing the bitmap -/

/-- The rows written so far, in a wire buffer that starts with the count. -/
structure RowsWritten (m : NodeObjectPropertyMap) (n : ℕ) (wire : List UInt8) : Prop where
  length : wire.length = 17
  head : wire.getD 0 0 = UInt8.ofNat m.operationsCount
  bits : ∀ j < 16, ∀ k, wireBit wire k j = (decide (k < n) && bitAt m.operations (16 * k + j))

/-- The bits of row `i` written so far, and the bits of its word still to be written. -/
structure RowWriting (m : NodeObjectPropertyMap) (i n : ℕ) (s : List UInt8 × UInt16) : Prop where
  length : s.1.length = 17
  head : s.1.getD 0 0 = UInt8.ofNat m.operationsCount
  bits : ∀ j < 16, ∀ k, wireBit s.1 k j
    = ((decide (k < i) || (decide (k = i) && decide (j < n))) && bitAt m.operations (16 * k + j))
  rest : ∀ j, s.2.toNat.testBit j = bitAt m.operations (16 * i + (n + j)) ∨ 16 ≤ n + j

theorem RowWriting.scatterBit {ε : Type} {m : NodeObjectPropertyMap} {i n : ℕ} (hi : i < 8)
    (hn : n < 16) {s : List UInt8 × UInt16} (h : RowWriting m i n s) :
    ∃ s', (scatterBit i s n : Outcome ε (List UInt8 × UInt16)) = .ok s' ∧
      RowWriting m i (n + 1) s' := by
  have hlt : n + 1 < s.1.length := by rw [h.length]; omega
  refine ⟨(s.1.set (n + 1) (s.1[n + 1] ||| ((s.2 &&& 1).toUInt8 <<< UInt8.ofNat i)), s.2 >>> 1),
    ?_, ⟨?_, ?_, fun j hj k => ?_, fun j => ?_⟩⟩
  · rw [NodeObjectPropertyMap.scatterBit, index_of_lt hlt, ok_bind, setAt_of_lt hlt, ok_bind,
      pure_eq]
  · rw [List.length_set, h.length]
  · rw [← h.head]
    simp
  · have hold := h.bits j hj k
    rw [wireBit] at hold ⊢
    by_cases hjn : j = n
    · subst hjn
      have hget : s.1[j + 1] = s.1.getD (j + 1) 0 := (List.getD_eq_getElem _ _ hlt).symm
      have hrest : s.2.toNat.testBit 0 = bitAt m.operations (16 * i + j) := by
        rcases h.rest 0 with h0 | h0
        · exact h0
        · omega
      rw [List.getD_eq_getElem _ _ (by rw [List.length_set]; exact hlt), List.getElem_set_self,
        UInt8.toNat_or, Nat.testBit_or, testBit_low_shift _ hi, hget, hold, hrest]
      by_cases hki : k = i
      · subst hki
        simp
      · simp [hki]
    · have hne : n + 1 ≠ j + 1 := fun he => hjn (by omega)
      have hdec : decide (j < n + 1) = decide (j < n) := decide_eq_decide.mpr (by omega)
      rw [List.getD_eq_getElem?_getD, List.getElem?_set_ne hne, ← List.getD_eq_getElem?_getD, hold,
        hdec]
  · rw [testBit_shiftRight_one]
    rcases h.rest (j + 1) with h1 | h1
    · exact Or.inl (by rw [h1]; congr 2; omega)
    · exact Or.inr (by omega)

theorem RowsWritten.scatterRow {ε : Type} {m : NodeObjectPropertyMap} {n : ℕ} (hn : n < 8)
    {wire : List UInt8} (h : RowsWritten m n wire) :
    ∃ wire', (m.scatterRow wire n : Outcome ε (List UInt8)) = .ok wire' ∧
      RowsWritten m (n + 1) wire' := by
  have h0 : RowWriting m n 0 (wire, m.operations[n]) := by
    refine ⟨h.length, h.head, fun j hj k => by rw [h.bits j hj k]; simp, fun j => ?_⟩
    rcases lt_or_ge j 16 with hj | hj
    · exact Or.inl (by rw [Nat.zero_add, bitAt_eq _ hn hj])
    · exact Or.inr (by omega)
  obtain ⟨s, hloop, hs⟩ := foldlM_range_rule (ε := ε) (NodeObjectPropertyMap.scatterBit n)
    (RowWriting m n) 16 _ h0 fun j hj s hs => hs.scatterBit hn hj
  refine ⟨s.1, ?_, hs.length, hs.head, fun j hj k => ?_⟩
  · rw [NodeObjectPropertyMap.scatterRow, entry_of_lt hn, ok_bind, hloop, ok_bind, pure_eq]
  · have hdec : (decide (k < n) || (decide (k = n) && decide (j < 16))) = decide (k < n + 1) := by
      rw [decide_eq_true hj, Bool.and_true, ← Bool.decide_or]
      exact decide_eq_decide.mpr Nat.lt_succ_iff_lt_or_eq.symm
    rw [hs.bits j hj k, hdec]

/-- **Writing the bitmap transposes the words.** -/
theorem decode_bitmap {ε : Type} {m : NodeObjectPropertyMap} (h : 16 ≤ m.operationsCount) :
    ∃ wire : List UInt8, (m.decode : Outcome ε (List UInt8)) = .ok wire ∧ wire.length = 17 ∧
      wire.getD 0 0 = UInt8.ofNat m.operationsCount ∧
      ∀ i < 8, ∀ j < 16, wireBit wire i j = bitAt m.operations (16 * i + j) := by
  have h0 : RowsWritten m 0 ((List.replicate 17 0x00).set 0 (UInt8.ofNat m.operationsCount)) := by
    refine ⟨rfl, rfl, fun j hj k => ?_⟩
    rw [wireBit, List.getD_eq_getElem?_getD, List.getElem?_set_ne (Nat.succ_ne_zero j).symm,
      ← List.getD_eq_getElem?_getD, List.getD_replicate _ (by omega)]
    simp
  obtain ⟨wire, hloop, hw⟩ := foldlM_range_rule (ε := ε) m.scatterRow (RowsWritten m) 8 _ h0
    fun n hn wire hw => hw.scatterRow hn
  refine ⟨wire, ?_, hw.length, hw.head, fun i hi j hj => by rw [hw.bits j hj i]; simp [hi]⟩
  rw [decode, if_neg (Nat.not_lt.mpr h), setAt_of_lt (by decide), ok_bind, hloop]

/-! ## Reading the list -/

/-- The unchecked setter computes the same row as the checked one. -/
theorem listRow_eq {operation : UInt8} (h : 0x80 ≤ operation) :
    ((operation &&& 0xf0).toNat - 0x80) >>> 4 = row operation := by
  have hhigh : (operation &&& 0xf0).toNat / 16 = operation.toNat / 16 := by
    have hlt : operation.toNat / 16 < 2 ^ 4 := Nat.div_lt_of_lt_mul operation.toNat_lt
    rw [UInt8.toNat_and, ← Nat.shiftRight_eq_div_pow _ 4, Nat.shiftRight_and_distrib,
      show (0xf0 : UInt8).toNat >>> 4 = 2 ^ 4 - 1 from rfl, Nat.and_two_pow_sub_one_eq_mod,
      Nat.shiftRight_eq_div_pow, Nat.mod_eq_of_lt hlt]
  have hcode := toNat_eq_add_slot h
  rw [Nat.shiftRight_eq_div_pow, row_eq h]
  omega

theorem listEntry_of_le (m : NodeObjectPropertyMap) {operation : UInt8} (h : 0x80 ≤ operation) :
    ∃ v, (∀ k, bitAt v k = (bitAt m.operations k || k == slot operation)) ∧
      m.listEntry operation = .ok ⟨v, m.operationsCount + 1⟩ := by
  refine ⟨_, bitAt_enable m.operations h (row_lt h), ?_⟩
  rw [listEntry, if_neg (UInt8.not_lt.mpr h), listRow_eq h, modifyAt_of_lt (row_lt h), ok_bind,
    pure_eq]

/-- **Reading a list sets the bit of every entry**, and counts the entries. -/
theorem foldlM_listEntry {entries : List UInt8} (h : ∀ c ∈ entries, 0x80 ≤ c)
    (m : NodeObjectPropertyMap) :
    ∃ v, entries.foldlM listEntry m = .ok ⟨v, m.operationsCount + entries.length⟩ ∧
      ∀ k, bitAt v k = true ↔ bitAt m.operations k = true ∨ k ∈ entries.map slot := by
  induction entries generalizing m with
  | nil => exact ⟨m.operations, rfl, fun k => by simp⟩
  | cons c entries ih =>
    obtain ⟨v, hv, hc⟩ := m.listEntry_of_le (h c List.mem_cons_self)
    obtain ⟨w, hw, hbits⟩ := ih (fun d hd => h d (List.mem_cons_of_mem c hd))
      ⟨v, m.operationsCount + 1⟩
    refine ⟨w, ?_, fun k => ?_⟩
    · rw [List.foldlM_cons, hc, ok_bind, hw, List.length_cons, Nat.add_assoc,
        Nat.add_comm 1 entries.length]
    · rw [hbits, hv, Bool.or_eq_true, beq_iff_eq, List.map_cons, List.mem_cons, or_assoc]

/-- An entry that is no valid code is refused. -/
theorem foldlM_listEntry_err {entries : List UInt8} {c : UInt8} (hc : c ∈ entries)
    (hlt : c < 0x80) (m : NodeObjectPropertyMap) :
    ∃ e, entries.foldlM listEntry m = .err e := by
  induction entries generalizing m with
  | nil => exact absurd hc List.not_mem_nil
  | cons d entries ih =>
    rw [List.foldlM_cons]
    rcases UInt8.lt_or_le d 0x80 with hd | hd
    · exact ⟨_, by rw [listEntry, if_pos hd, err_bind]⟩
    · obtain ⟨v, -, hv⟩ := m.listEntry_of_le hd
      rw [hv, ok_bind]
      refine ih ((List.mem_cons.mp hc).resolve_left fun hcd => ?_) _
      exact absurd (hcd ▸ hlt) (UInt8.not_lt.mpr hd)

/-- **Parsing the list form**: it is accepted exactly when its length is the count and its entries
are valid codes; the entries' bits are then set, and the count is their number. -/
theorem fromBytes_list {count : UInt8} (h : count < 16) (entries : List UInt8) :
    (∀ m, fromBytes (count :: entries) = .ok m → count.toNat = entries.length ∧
      (∀ c ∈ entries, 0x80 ≤ c) ∧ m.operationsCount = entries.length ∧
      ∀ k, bitAt m.operations k = true ↔ k ∈ entries.map slot) ∧
    (count.toNat = entries.length → (∀ c ∈ entries, 0x80 ≤ c) →
      IsOk (fromBytes (count :: entries))) := by
  have hge : ¬ 16 ≤ count := UInt8.not_le.mpr h
  have hsucc : (count + 1).toNat = count.toNat + 1 := by
    have hlt : count.toNat < 16 := UInt8.lt_iff_toNat_lt.mp h
    rw [UInt8.toNat_add]
    exact Nat.mod_eq_of_lt (Nat.lt_of_lt_of_le (Nat.succ_lt_succ hlt) (by decide))
  by_cases hlen : count.toNat = entries.length
  · have hstruct : ¬ ((count < 16 ∧ (count + 1).toNat ≠ (count :: entries).length)
        ∨ (16 ≤ count ∧ (count :: entries).length ≠ 17)) := by
      rintro (⟨-, h1⟩ | ⟨h2, -⟩)
      · exact h1 (by rw [hsucc, hlen, List.length_cons])
      · exact hge h2
    rw [fromBytes, if_neg hstruct, if_pos h]
    by_cases hcodes : ∀ c ∈ entries, 0x80 ≤ c
    · obtain ⟨v, hv, hbits⟩ := foldlM_listEntry hcodes new
      have hcount : new.operationsCount + entries.length = entries.length := Nat.zero_add _
      rw [hv, ok_bind, hcount]
      dsimp only
      rw [if_pos hlen, pure_eq]
      refine ⟨fun m hm => ?_, fun _ _ => isOk_ok _⟩
      cases hm
      refine ⟨hlen, hcodes, rfl, fun k => ?_⟩
      rw [hbits, new, bitAt_zero]
      simp
    · obtain ⟨c, hc, hlt⟩ : ∃ c ∈ entries, c < 0x80 := by
        simpa only [not_forall, exists_prop, UInt8.not_le] using hcodes
      obtain ⟨e, he⟩ := foldlM_listEntry_err hc hlt new
      rw [he, err_bind]
      exact ⟨fun m hm => (nomatch hm), fun _ hall => absurd hall hcodes⟩
  · refine ⟨fun m hm => ?_, fun hlen' _ => absurd hlen' hlen⟩
    have hne : (count + 1).toNat ≠ (count :: entries).length := fun hl => by
      rw [hsucc, List.length_cons] at hl
      exact hlen (Nat.succ_injective hl)
    rw [fromBytes, if_pos (Or.inl ⟨h, hne⟩)] at hm
    exact nomatch hm

/-! ## The strings that are accepted -/

theorem isOk_fromBytes_list {count : UInt8} (h : count < 16) (entries : List UInt8) :
    IsOk (fromBytes (count :: entries)) ↔
      count.toNat = entries.length ∧ ∀ c ∈ entries, 0x80 ≤ c := by
  obtain ⟨hread, hwrite⟩ := fromBytes_list h entries
  refine ⟨fun ⟨m, hm⟩ => ?_, fun ⟨hcount, hcodes⟩ => hwrite hcount hcodes⟩
  obtain ⟨hcount, hcodes, -⟩ := hread m hm
  exact ⟨hcount, hcodes⟩

theorem isOk_fromBytes_bitmap {count : UInt8} (h : 16 ≤ count) (bytes : List UInt8) :
    IsOk (fromBytes (count :: bytes)) ↔
      bytes.length = 16 ∧ (bytes.map byteOnes).sum = count.toNat := by
  have hlen : (count :: bytes).length = 17 ↔ bytes.length = 16 := Nat.succ_inj
  rw [← hlen]
  by_cases hwell : (count :: bytes).length = 17 ∧ (bytes.map byteOnes).sum = count.toNat
  · obtain ⟨v, hv, -⟩ := (fromBytes_bitmap h bytes).2 hwell
    exact iff_of_true ⟨_, hv⟩ hwell
  · obtain ⟨e, he⟩ := (fromBytes_bitmap h bytes).1 hwell
    rw [he]
    exact iff_of_false (not_isOk_err _) hwell

/-- A list of codes behind their number. -/
def IsCodeList (wire : List UInt8) : Prop :=
  ∃ count entries, wire = count :: entries ∧ count.toNat = entries.length ∧ ∀ c ∈ entries, 0x80 ≤ c

/-- Sixteen bytes behind the number of their bits, which is at least sixteen. -/
def IsBitmap (wire : List UInt8) : Prop :=
  ∃ count bytes, wire = count :: bytes ∧ 16 ≤ count ∧ bytes.length = 16 ∧
    (bytes.map byteOnes).sum = count.toNat

theorem isCodeList_cons {count : UInt8} {entries : List UInt8} :
    IsCodeList (count :: entries) ↔ count.toNat = entries.length ∧ ∀ c ∈ entries, 0x80 ≤ c := by
  refine ⟨?_, fun h => ⟨_, _, rfl, h⟩⟩
  rintro ⟨_, _, heq, h⟩
  cases heq
  exact h

theorem isBitmap_cons {count : UInt8} {bytes : List UInt8} :
    IsBitmap (count :: bytes) ↔
      16 ≤ count ∧ bytes.length = 16 ∧ (bytes.map byteOnes).sum = count.toNat := by
  refine ⟨?_, fun h => ⟨_, _, rfl, h⟩⟩
  rintro ⟨_, _, heq, h⟩
  cases heq
  exact h

theorem IsBitmap.length_eq {wire : List UInt8} (h : IsBitmap wire) : wire.length = 17 := by
  obtain ⟨count, bytes, rfl, -, hlen, -⟩ := h
  rw [List.length_cons, hlen]

/-- **The strings that are property maps**: a list of at most fifteen codes, or a bitmap. -/
theorem isOk_fromBytes_iff (wire : List UInt8) :
    IsOk (fromBytes wire) ↔ wire.length ≤ 16 ∧ IsCodeList wire ∨ IsBitmap wire := by
  obtain _ | ⟨count, rest⟩ := wire
  · refine iff_of_false (not_isOk_err _) ?_
    rintro (⟨-, _, _, heq, -⟩ | ⟨_, _, heq, -⟩) <;> exact nomatch heq
  · rw [isCodeList_cons, isBitmap_cons, List.length_cons]
    rcases UInt8.lt_or_le count 16 with hlt | hle
    · have hlt' : count.toNat < 16 := UInt8.lt_iff_toNat_lt.mp hlt
      rw [isOk_fromBytes_list hlt, or_iff_left fun h => absurd hlt (UInt8.not_lt.mpr h.1)]
      exact ⟨fun h => ⟨by omega, h⟩, fun h => h.2⟩
    · have hle' : 16 ≤ count.toNat := UInt8.le_iff_toNat_le.mp hle
      rw [isOk_fromBytes_bitmap hle, or_iff_right fun h => by omega, and_iff_right hle]

/-! ## Writing the list -/

/-- The enabled codes below a slot, in order. -/
def enabledBelow (m : NodeObjectPropertyMap) (s : ℕ) : List UInt8 :=
  ((List.range s).filter fun k => bitAt m.operations k).map codeOf

theorem enabledBelow_succ (m : NodeObjectPropertyMap) (s : ℕ) :
    m.enabledBelow (s + 1)
      = m.enabledBelow s ++ if bitAt m.operations s then [codeOf s] else [] := by
  rw [enabledBelow, enabledBelow, List.range_succ, List.filter_append, List.map_append]
  cases hb : bitAt m.operations s <;> simp [hb]

theorem length_enabledBelow (m : NodeObjectPropertyMap) :
    (m.enabledBelow 128).length = setBits m.operations := by
  rw [setBits_eq_card, enabledBelow, List.length_map, ← List.countP_eq_length_filter,
    countP_range_eq_sum, enabledSlots, Finset.card_filter]
  exact Finset.sum_congr rfl fun k _ => by cases bitAt m.operations k <;> rfl

theorem length_enabledBelow_mono (m : NodeObjectPropertyMap) {s t : ℕ} (h : s ≤ t) :
    (m.enabledBelow s).length ≤ (m.enabledBelow t).length := by
  rw [enabledBelow, enabledBelow, List.length_map, List.length_map]
  exact ((List.range_sublist.mpr h).filter _).length_le

theorem le_of_mem_enabledBelow {m : NodeObjectPropertyMap} {s : ℕ} (hs : s ≤ 128) {c : UInt8}
    (hc : c ∈ m.enabledBelow s) : 0x80 ≤ c := by
  obtain ⟨k, hk, rfl⟩ := List.mem_map.mp hc
  exact le_codeOf (lt_of_lt_of_le (List.mem_range.mp (List.mem_filter.mp hk).1) hs)

theorem mem_slots_enabledBelow {m : NodeObjectPropertyMap} {k : ℕ} (hk : k < 128) :
    k ∈ (m.enabledBelow 128).map slot ↔ bitAt m.operations k = true := by
  rw [enabledBelow, List.map_map, List.mem_map]
  constructor
  · rintro ⟨l, hl, rfl⟩
    obtain ⟨hlt, hbit⟩ := List.mem_filter.mp hl
    rw [Function.comp_apply, slot_codeOf (List.mem_range.mp hlt)]
    exact hbit
  · exact fun hbit => ⟨k, List.mem_filter.mpr ⟨List.mem_range.mpr hk, hbit⟩, slot_codeOf hk⟩

theorem codeAt_eq (i : ℕ) {j : ℕ} (hj : j < 16) : codeAt i j = codeOf (16 * i + j) := by
  have hor : (i <<< 4) ||| j = 16 * i + j := by
    rw [Nat.shiftLeft_eq, Nat.mul_comm, ← Nat.two_pow_add_eq_or_of_lt hj]
  rw [codeAt, codeOf, hor, UInt8.add_comm]

/-- The codes below slot `s` are written, in a buffer with room for exactly the rest. -/
structure ListWritten (m : NodeObjectPropertyMap) (s : ℕ) (state : List UInt8 × ℕ) : Prop where
  pos : state.2 = (m.enabledBelow s).length + 1
  wire : state.1 = UInt8.ofNat m.operationsCount :: (m.enabledBelow s
    ++ List.replicate (m.operationsCount - (m.enabledBelow s).length) 0x00)

theorem ListWritten.listBit {ε : Type} {m : NodeObjectPropertyMap}
    (hm : setBits m.operations ≤ m.operationsCount) {i j : ℕ} (hi : i < 8) (hj : j < 16)
    {state : List UInt8 × ℕ} (h : ListWritten m (16 * i + j) state) :
    ∃ state', (m.listBit i state j : Outcome ε (List UInt8 × ℕ)) = .ok state' ∧
      ListWritten m (16 * i + (j + 1)) state' := by
  have hsucc := m.enabledBelow_succ (16 * i + j)
  have hbit : (m.operations[i] &&& (1 <<< UInt16.ofNat j) != 0)
      = bitAt m.operations (16 * i + j) := by
    rw [and_mask_ne_zero₁₆ _ hj, bitAt_eq _ hi hj]
  rw [NodeObjectPropertyMap.listBit, entry_of_lt hi, ok_bind, hbit]
  cases hb : bitAt m.operations (16 * i + j)
  · rw [hb, if_neg Bool.false_ne_true, List.append_nil, Nat.add_assoc] at hsucc
    exact ⟨state, rfl, by rw [hsucc]; exact h.pos, by rw [hsucc]; exact h.wire⟩
  · rw [hb, if_pos rfl, Nat.add_assoc] at hsucc
    -- The enabled codes are no more than the count, so this one still has room.
    have hroom : (m.enabledBelow (16 * i + j)).length < m.operationsCount := by
      have hle := m.length_enabledBelow_mono (show 16 * i + (j + 1) ≤ 128 by omega)
      rw [length_enabledBelow, hsucc, List.length_append] at hle
      exact hle.trans hm
    have hlen : state.2 < state.1.length := by
      rw [h.pos, h.wire, List.length_cons, List.length_append, List.length_replicate]
      omega
    refine ⟨(state.1.set state.2 (codeAt i j), state.2 + 1), ?_, ?_, ?_⟩
    · rw [if_pos rfl, setAt_of_lt hlen, ok_bind, pure_eq]
    · rw [hsucc, List.length_append, h.pos, List.length_singleton]
    · obtain ⟨rest, hrest⟩ : ∃ rest,
          m.operationsCount - (m.enabledBelow (16 * i + j)).length = rest + 1 :=
        ⟨m.operationsCount - (m.enabledBelow (16 * i + j)).length - 1, by omega⟩
      have hrest' : m.operationsCount - ((m.enabledBelow (16 * i + j)).length + 1) = rest := by
        omega
      rw [h.pos, h.wire, List.set_cons_succ, List.set_append_right _ _ le_rfl, Nat.sub_self, hrest,
        List.replicate_succ, List.set_cons_zero, hsucc, List.length_append, List.length_singleton,
        hrest', codeAt_eq i hj, List.append_assoc, List.singleton_append]

/-- **Writing the list** puts the enabled codes in order behind the count, and leaves the rest of
the count zero. -/
theorem decode_list_padded {ε : Type} {m : NodeObjectPropertyMap}
    (hm : setBits m.operations ≤ m.operationsCount) (h : m.operationsCount < 16) :
    (m.decode : Outcome ε (List UInt8))
      = .ok (UInt8.ofNat m.operationsCount :: (m.enabledBelow 128
        ++ List.replicate (m.operationsCount - setBits m.operations) 0x00)) := by
  have h0 : ListWritten m 0
      ((List.replicate (m.operationsCount + 1) 0x00).set 0 (UInt8.ofNat m.operationsCount), 1) :=
    ⟨rfl, by simp [enabledBelow, List.replicate_succ]⟩
  have hrow : ∀ i < 8, ∀ state, ListWritten m (16 * i) state → ∃ state',
      ((List.range 16).foldlM (m.listBit i) state : Outcome ε (List UInt8 × ℕ)) = .ok state' ∧
        ListWritten m (16 * (i + 1)) state' := fun i hi state hs =>
    foldlM_range_rule _ (fun j => ListWritten m (16 * i + j)) 16 _ hs
      fun j hj state hs => hs.listBit hm hi hj
  obtain ⟨⟨wire, pos⟩, hloop, hs⟩ := foldlM_range_rule (ε := ε)
    (fun state i => (List.range 16).foldlM (m.listBit i) state)
    (fun i => ListWritten m (16 * i)) 8 _ h0 hrow
  have hwire := hs.wire
  rw [length_enabledBelow] at hwire
  rw [decode, if_pos h, setAt_of_lt (by simp), ok_bind, decodeList, hloop, ok_bind, pure_eq]
  exact congrArg Outcome.ok hwire

/-- A counted map leaves no room. -/
theorem decode_list {ε : Type} {m : NodeObjectPropertyMap} (hm : m.Counted)
    (h : m.operationsCount < 16) :
    (m.decode : Outcome ε (List UInt8))
      = .ok (UInt8.ofNat m.operationsCount :: m.enabledBelow 128) := by
  have hcount : setBits m.operations = m.operationsCount := hm.symm
  rw [decode_list_padded (Nat.le_of_eq hcount) h, hcount, Nat.sub_self, List.replicate_zero,
    List.append_nil]

end NodeObjectPropertyMap

end Echonet
