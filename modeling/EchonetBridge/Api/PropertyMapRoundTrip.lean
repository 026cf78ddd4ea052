import EchonetBridge.Api.PropertyMapSet
import EchonetBridge.Api.PropertyMapWire

/-!
# Api/PropertyMapRoundTrip — the wire format loses nothing

Both forms meet at the bits of the 128 codes: a counted map is written and read back unchanged
(`decode_fromBytes`), and a bitmap is read and written back byte for byte (`fromBytes_decode`).
What breaks the count is a list that repeats a code (`counted_list_iff`), and nothing else does
(`counted_run_iff`).
-/

namespace Echonet

open Bits Outcome NodeObjectPropertyMap

/-! ## Bitmaps, read and written back -/

/-- A bitmap is determined by its count and its bits. -/
theorem wire_ext {v w : List UInt8} (hv : v.length = 17) (hw : w.length = 17)
    (h0 : v.getD 0 0 = w.getD 0 0)
    (h : ∀ i < 8, ∀ j < 16, wireBit v i j = wireBit w i j) : v = w := by
  refine List.ext_getElem (hv.trans hw.symm) fun n hnv hnw => ?_
  rw [← List.getD_eq_getElem v 0 hnv, ← List.getD_eq_getElem w 0 hnw]
  cases n with
  | zero => exact h0
  | succ j => exact ext₈ fun i hi => h i hi j (by omega)

/-- **A bitmap is accepted exactly when its length and its count are right, and the map read from it
is written back byte for byte.**  Bit `i` of byte `j + 1` is the code `0x80 + 16 * i + j`. -/
theorem fromBytes_decode {count : UInt8} (h : 16 ≤ count) (bytes : List UInt8) :
    (IsOk (fromBytes (count :: bytes)) ↔
      (count :: bytes).length = 17 ∧ (bytes.map byteOnes).sum = count.toNat) ∧
    ∀ m, fromBytes (count :: bytes) = .ok m →
      (m.decode : Outcome MiddlewareError (List UInt8)) = .ok (count :: bytes) ∧
      ∀ i < 8, ∀ j < 16, m.isOperationEnabled (0x80 + UInt8.ofNat (16 * i + j))
        = .ok (wireBit (count :: bytes) i j) := by
  obtain ⟨hbad, hgood⟩ := fromBytes_bitmap h bytes
  by_cases hw : (count :: bytes).length = 17 ∧ (bytes.map byteOnes).sum = count.toNat
  · obtain ⟨v, hv, -, hbits⟩ := hgood hw
    rw [hv]
    refine ⟨iff_of_true (isOk_ok _) hw, fun m hm => ?_⟩
    cases hm
    have hcount : 16 ≤ (⟨v, count.toNat⟩ : NodeObjectPropertyMap).operationsCount :=
      UInt8.le_iff_toNat_le.mp h
    obtain ⟨wire, hdecode, hlen, hhead, hwire⟩ := decode_bitmap (ε := MiddlewareError) hcount
    refine ⟨?_, fun i hi j hj => ?_⟩
    · rw [hdecode]
      refine congrArg Outcome.ok (wire_ext hlen hw.1 ?_ fun i hi j hj => ?_)
      · rw [hhead, List.getD_cons_zero, UInt8.ofNat_toNat]
      · rw [hwire i hi j hj, hbits i hi j hj]
    · have hk : 16 * i + j < 128 := by omega
      have hslot := slot_codeOf hk
      have hle := le_codeOf hk
      rw [codeOf] at hslot hle
      rw [isOperationEnabled_of_le _ hle, hslot, hbits i hi j hj]
  · obtain ⟨e, he⟩ := hbad hw
    rw [he]
    refine ⟨iff_of_false (not_isOk_err e) hw, fun m hm => ?_⟩
    cases hm

/-- One bit in each of the sixteen bytes, climbing and falling through the eight words. -/
theorem fromBytes_decode_staircase :
    let wire : List UInt8 := [1, 2, 4, 8, 16, 32, 64, 128, 128, 64, 32, 16, 8, 4, 2, 1]
    (IsOk (fromBytes (16 :: wire)) ↔
      (16 :: wire).length = 17 ∧ (wire.map byteOnes).sum = (16 : UInt8).toNat) ∧
    ∀ m, fromBytes (16 :: wire) = .ok m →
      (m.decode : Outcome MiddlewareError (List UInt8)) = .ok (16 :: wire) ∧
      ∀ i < 8, ∀ j < 16, m.isOperationEnabled (0x80 + UInt8.ofNat (16 * i + j))
        = .ok (wireBit (16 :: wire) i j) :=
  fromBytes_decode (by decide) _

/-! ## Maps, written and read back -/

theorem Counted.le_codes {m : NodeObjectPropertyMap} (hm : m.Counted) :
    m.operationsCount ≤ 128 := by
  rw [Counted, setBits_eq_card] at hm
  rw [hm]
  exact (Finset.card_filter_le _ _).trans_eq (Finset.card_range 128)

theorem toNat_ofNat_count {m : NodeObjectPropertyMap} (hm : m.Counted) :
    (UInt8.ofNat m.operationsCount).toNat = m.operationsCount :=
  UInt8.toNat_ofNat_of_lt' (lt_of_le_of_lt (Counted.le_codes hm) (by decide))

/-- The list form is read back as it was written. -/
theorem fromBytes_enabledBelow {m : NodeObjectPropertyMap} (hm : m.Counted)
    (h : m.operationsCount < 16) :
    fromBytes (UInt8.ofNat m.operationsCount :: m.enabledBelow 128) = .ok m := by
  have hcount := toNat_ofNat_count hm
  have hlen : m.operationsCount = (m.enabledBelow 128).length :=
    Eq.trans hm m.length_enabledBelow.symm
  have hlt : UInt8.ofNat m.operationsCount < 16 :=
    UInt8.lt_iff_toNat_lt.mpr (by rw [hcount]; exact h)
  obtain ⟨hread, hok⟩ := fromBytes_list hlt (m.enabledBelow 128)
  obtain ⟨m', hm'⟩ := hok (hcount.trans hlen) fun c hc => le_of_mem_enabledBelow le_rfl hc
  obtain ⟨-, -, hcount', hbits⟩ := hread m' hm'
  have hwords : m'.operations = m.operations := words_ext fun k hk =>
    Bool.eq_iff_iff.mpr ((hbits k).trans (mem_slots_enabledBelow hk))
  rw [hm', show m' = m from by
    cases m
    cases m'
    exact congrArg₂ NodeObjectPropertyMap.mk hwords (hcount'.trans hlen.symm)]

/-- **A counted map survives the wire**, in either form. -/
theorem decode_fromBytes {m : NodeObjectPropertyMap} (hm : m.Counted) :
    ∃ wire : List UInt8, (m.decode : Outcome MiddlewareError (List UInt8)) = .ok wire ∧
      fromBytes wire = .ok m := by
  have hcount := toNat_ofNat_count hm
  rcases Nat.lt_or_ge m.operationsCount 16 with hlt | hge
  · exact ⟨_, decode_list hm hlt, fromBytes_enabledBelow hm hlt⟩
  obtain ⟨wire, hdecode, hlen, hhead, hwire⟩ := decode_bitmap (ε := MiddlewareError) hge
  refine ⟨wire, hdecode, ?_⟩
  obtain ⟨count, bytes, rfl⟩ : ∃ count bytes, wire = count :: bytes :=
    List.exists_cons_of_length_pos (by omega)
  rw [List.getD_cons_zero] at hhead
  subst hhead
  have hsum : (bytes.map byteOnes).sum = (UInt8.ofNat m.operationsCount).toNat := by
    rw [hcount,
      ← setBits_transpose (Nat.succ_injective hlen) fun i hi j hj => (hwire i hi j hj).symm]
    exact hm.symm
  have hle : 16 ≤ UInt8.ofNat m.operationsCount :=
    UInt8.le_iff_toNat_le.mpr (by rw [hcount]; exact hge)
  obtain ⟨v, hv, -, hbits⟩ := (fromBytes_bitmap hle bytes).2 ⟨hlen, hsum⟩
  have hwords : v = m.operations := words_ext fun k hk => by
    have hk' : 16 * (k / 16) + k % 16 = k := Nat.div_add_mod k 16
    rw [← hk', hbits _ (by omega) _ (Nat.mod_lt _ (by decide)),
      hwire _ (by omega) _ (Nat.mod_lt _ (by decide))]
  rw [hv, hcount, hwords]

section Runs

variable {κ : Type} [DecidableEq κ]

/-- **Every map built by commands survives the wire.** -/
theorem run_decode_fromBytes (cmds : List (MapCommand κ)) (k : κ) :
    ∃ wire : List UInt8,
      ((runMaps cmds k).decode : Outcome MiddlewareError (List UInt8)) = .ok wire ∧
        fromBytes wire = .ok (runMaps cmds k) :=
  decode_fromBytes ((run_simulates cmds).2 k).counted

/-! ## The count of a received map -/

/-- The set a map's bits stand for, whatever its count. -/
def bitSet (m : NodeObjectPropertyMap) : CodeSet :=
  ⟨(NodeObjectPropertyMap.codes.filter fun c => bitAt m.operations (slot c)).toFinset,
    fun _ hc => mem_codes.mp (List.mem_filter.mp (List.mem_toFinset.mp hc)).1⟩

theorem Represents.of_counted {m : NodeObjectPropertyMap} (hm : m.Counted) :
    Represents m (bitSet m) where
  counted := hm
  bit_iff _ hc := by
    refine Iff.trans ?_ List.mem_toFinset.symm
    rw [List.mem_filter, mem_codes]
    exact ⟨fun hbit => ⟨hc, hbit⟩, fun h => h.2⟩

/-- The count is kept by every run, whatever the maps it starts from. -/
theorem counted_run {σ : κ → NodeObjectPropertyMap} (hσ : ∀ k, (σ k).Counted)
    (cmds : List (MapCommand κ)) (k : κ) : (Machine.final MapCommand.exec σ cmds k).Counted :=
  ((Machine.simulation
    (fun (σ : κ → NodeObjectPropertyMap) (S : κ → CodeSet) => ∀ k, Represents (σ k) (S k))
    exec_simulates (fun k => Represents.of_counted (hσ k)) cmds).2 k).counted

/-- A list's map is counted exactly when no code is repeated: the entries are counted one by one,
and a repeated one sets no new bit. -/
theorem counted_list_iff {count : UInt8} (h : count < 16) {entries : List UInt8}
    {m : NodeObjectPropertyMap} (hm : fromBytes (count :: entries) = .ok m) :
    m.Counted ↔ entries.Nodup := by
  obtain ⟨-, hcodes, hcount, hbits⟩ := (fromBytes_list h entries).1 m hm
  have hslots : enabledSlots m.operations = (entries.map slot).toFinset := by
    ext k
    rw [mem_enabledSlots, hbits, List.mem_toFinset]
    refine ⟨fun hk => hk.2, fun hk => ⟨?_, hk⟩⟩
    obtain ⟨c, -, rfl⟩ := List.mem_map.mp hk
    exact slot_lt c
  have hnodup : (entries.map slot).Nodup ↔ entries.Nodup :=
    ⟨List.Nodup.of_map slot,
      List.Nodup.map_on fun c hc d hd => slot_injOn (hcodes c hc) (hcodes d hd)⟩
  rw [Counted, hcount, setBits_eq_card, hslots, ← hnodup, ← List.length_map slot, eq_comm]
  exact @Multiset.toFinset_card_eq_card_iff_nodup _ _ (Multiset.ofList (entries.map slot))

/-- Where a map comes from. -/
inductive MapOrigin where
  | new
  | fromBytes (wire : List UInt8)

namespace MapOrigin

/-- The map a program starts with. -/
def build : MapOrigin → Outcome MiddlewareError NodeObjectPropertyMap
  | new => .ok NodeObjectPropertyMap.new
  | fromBytes wire => NodeObjectPropertyMap.fromBytes wire

/-- A received map is a bitmap, or a list that repeats no code. -/
def Distinct : MapOrigin → Prop
  | new => True
  | fromBytes wire => 16 ≤ wire.headD 0 ∨ wire.tail.Nodup

theorem counted_iff {origin : MapOrigin} {m : NodeObjectPropertyMap} (h : origin.build = .ok m) :
    m.Counted ↔ origin.Distinct := by
  cases origin with
  | new =>
    cases h
    exact iff_of_true setBits_zero.symm trivial
  | fromBytes wire =>
    cases wire with
    | nil => exact nomatch h
    | cons count entries =>
      rw [build] at h
      rw [Distinct, List.headD_cons, List.tail_cons]
      rcases UInt8.lt_or_le count 16 with hlt | hle
      · rw [counted_list_iff hlt h, or_iff_right (UInt8.not_le.mpr hlt)]
      · refine iff_of_true ?_ (Or.inl hle)
        obtain ⟨hbad, hgood⟩ := fromBytes_bitmap hle entries
        by_cases hw : (count :: entries).length = 17 ∧ (entries.map byteOnes).sum = count.toNat
        · obtain ⟨v, hv, hcount, -⟩ := hgood hw
          rw [hv] at h
          cases h
          exact hcount
        · obtain ⟨e, he⟩ := hbad hw
          rw [he] at h
          exact nomatch h

end MapOrigin

/-- **The count is the number of set bits in every run** exactly when no received list repeats a
code: the list form counts its entries without asking the setter whether they were there. -/
theorem counted_run_iff {origin : κ → MapOrigin} {σ : κ → NodeObjectPropertyMap}
    (h : ∀ k, (origin k).build = .ok (σ k)) :
    (∀ cmds k, (Machine.final MapCommand.exec σ cmds k).Counted) ↔ ∀ k, (origin k).Distinct := by
  constructor
  · exact fun hrun k => (MapOrigin.counted_iff (h k)).mp (hrun [] k)
  · exact fun hdistinct => counted_run fun k => (MapOrigin.counted_iff (h k)).mpr (hdistinct k)

end Runs

/-- Two maps, one of them received as a list of one code. -/
theorem counted_run_iff_pair :
    let σ : Bool → NodeObjectPropertyMap := fun b =>
      if b then ⟨#v[1, 0, 0, 0, 0, 0, 0, 0], 1⟩ else new
    let origin : Bool → MapOrigin := fun b => if b then .fromBytes [0x01, 0x80] else .new
    (∀ cmds k, (Machine.final MapCommand.exec σ cmds k).Counted) ↔ ∀ k, (origin k).Distinct :=
  counted_run_iff (by decide)

/-- A list that names `0x80` twice is accepted: one bit is set, and two are counted. -/
theorem repeated_code_miscounted :
    ∃ m, fromBytes [0x02, 0x80, 0x80] = .ok m ∧ m.operationsCount = 2 ∧
      setBits m.operations = 1 ∧ ¬ m.Counted :=
  ⟨⟨#v[1, 0, 0, 0, 0, 0, 0, 0], 2⟩, by decide, rfl, by decide, by decide⟩

end Echonet
