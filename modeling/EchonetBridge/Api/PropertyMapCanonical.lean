import EchonetBridge.Api.PropertyMapRoundTrip

/-!
# Api/PropertyMapCanonical — which strings are written back

Parsing is more generous than writing: a list may name its codes in any order and more than once.
What is read and written back unchanged is a bitmap, or a list in ascending order
(`reencode_eq_self_iff`), and every set of codes has exactly one such string
(`existsUnique_canonical`).  A list out of order is put in order; a list that repeats a code is
written back as a string that the parser refuses (`reencode_settles_iff`).
-/

namespace Echonet

open Bits Outcome NodeObjectPropertyMap

/-- A string, read and written back. -/
def reencode (wire : List UInt8) : Outcome MiddlewareError (List UInt8) := do
  let m ← fromBytes wire
  m.decode

/-- A list of at most fifteen codes, each above the one before. -/
def IsAscendingList (wire : List UInt8) : Prop :=
  wire.length ≤ 16 ∧ IsCodeList wire ∧ wire.tail.Pairwise (· < ·)

/-- A list of at most fifteen codes that names none of them twice. -/
def IsDistinctList (wire : List UInt8) : Prop :=
  wire.length ≤ 16 ∧ IsCodeList wire ∧ wire.tail.Nodup

/-! ## The codes of a map, in order -/

theorem pairwise_enabledBelow (m : NodeObjectPropertyMap) :
    (m.enabledBelow 128).Pairwise (· < ·) := by
  rw [enabledBelow, List.pairwise_map]
  refine (List.pairwise_lt_range.filter _).imp_of_mem fun {a b} ha hb hab => ?_
  rw [UInt8.lt_iff_toNat_lt, toNat_codeOf (List.mem_range.mp (List.mem_filter.mp ha).1),
    toNat_codeOf (List.mem_range.mp (List.mem_filter.mp hb).1)]
  exact Nat.add_lt_add_left hab 0x80

theorem mem_enabledBelow {m : NodeObjectPropertyMap} {c : UInt8} (hc : 0x80 ≤ c) :
    c ∈ m.enabledBelow 128 ↔ bitAt m.operations (slot c) = true := by
  rw [← mem_slots_enabledBelow (slot_lt c), List.mem_map]
  refine ⟨fun h => ⟨c, h, rfl⟩, ?_⟩
  rintro ⟨d, hd, hslot⟩
  rw [← slot_injOn (le_of_mem_enabledBelow le_rfl hd) hc hslot]
  exact hd

/-- Two ascending lists with the same members are the same list. -/
theorem ascending_ext {l₁ l₂ : List UInt8} (h₁ : l₁.Pairwise (· < ·)) (h₂ : l₂.Pairwise (· < ·))
    (h : ∀ c, c ∈ l₁ ↔ c ∈ l₂) : l₁ = l₂ :=
  List.Perm.eq_of_pairwise (fun _ _ _ _ hab hba => absurd hab (UInt8.lt_asymm hba)) h₁ h₂
    ((List.perm_ext_iff_of_nodup (h₁.imp UInt8.ne_of_lt) (h₂.imp UInt8.ne_of_lt)).mpr h)

/-! ## Lists, read and written back -/

section List

variable {count : UInt8} {entries : List UInt8} {m : NodeObjectPropertyMap}

/-- The codes enabled by a list are its entries. -/
theorem mem_enabledBelow_of_list (h : count < 16) (hm : fromBytes (count :: entries) = .ok m)
    (c : UInt8) : c ∈ m.enabledBelow 128 ↔ c ∈ entries := by
  obtain ⟨-, hcodes, -, hbits⟩ := (fromBytes_list h entries).1 m hm
  constructor
  · intro hc
    have hle := le_of_mem_enabledBelow le_rfl hc
    obtain ⟨d, hd, hslot⟩ := List.mem_map.mp ((hbits _).mp ((mem_enabledBelow hle).mp hc))
    rw [← slot_injOn (hcodes d hd) hle hslot]
    exact hd
  · exact fun hc => (mem_enabledBelow (hcodes c hc)).mpr
      ((hbits _).mpr (List.mem_map_of_mem hc))

/-- The entries of an ascending list are its codes in order. -/
theorem enabledBelow_eq_iff (h : count < 16) (hm : fromBytes (count :: entries) = .ok m) :
    m.enabledBelow 128 = entries ↔ entries.Pairwise (· < ·) := by
  refine ⟨fun heq => heq ▸ pairwise_enabledBelow m, fun hasc => ?_⟩
  exact ascending_ext (pairwise_enabledBelow m) hasc (mem_enabledBelow_of_list h hm)

/-- The enabled codes are distinct entries, so there are no more of them than entries. -/
theorem setBits_le_of_list (h : count < 16) (hm : fromBytes (count :: entries) = .ok m) :
    setBits m.operations ≤ m.operationsCount := by
  obtain ⟨-, -, hops, -⟩ := (fromBytes_list h entries).1 m hm
  have hnodup : (m.enabledBelow 128).Nodup := (pairwise_enabledBelow m).imp UInt8.ne_of_lt
  rw [← length_enabledBelow, hops]
  exact (List.subperm_of_subset hnodup fun c hc =>
    (mem_enabledBelow_of_list h hm c).mp hc).length_le

theorem ofNat_operationsCount (h : count < 16) (hm : fromBytes (count :: entries) = .ok m) :
    UInt8.ofNat m.operationsCount = count ∧ m.operationsCount < 16 := by
  obtain ⟨hcount, -, hops, -⟩ := (fromBytes_list h entries).1 m hm
  rw [hops, ← hcount, UInt8.ofNat_toNat]
  exact ⟨rfl, UInt8.lt_iff_toNat_lt.mp h⟩

/-- **A received list is written back in order**, behind the count it came with; what repeated codes
leave of the count is filled with zeros. -/
theorem decode_of_list {ε : Type} (h : count < 16) (hm : fromBytes (count :: entries) = .ok m) :
    ∃ padding : List UInt8, (∀ c ∈ padding, c = 0) ∧ (padding = [] ↔ entries.Nodup) ∧
      (m.enabledBelow 128 ++ padding).length = entries.length ∧
      (m.decode : Outcome ε (List UInt8)) = .ok (count :: (m.enabledBelow 128 ++ padding)) := by
  obtain ⟨-, -, hops, -⟩ := (fromBytes_list h entries).1 m hm
  obtain ⟨hhead, hlt⟩ := ofNat_operationsCount h hm
  have hle := setBits_le_of_list h hm
  refine ⟨List.replicate (m.operationsCount - setBits m.operations) 0x00,
    fun c hc => List.eq_of_mem_replicate hc, ?_, ?_, by rw [decode_list_padded hle hlt, hhead]⟩
  · rw [List.replicate_eq_nil_iff, ← counted_list_iff h hm, Counted]
    omega
  · rw [List.length_append, length_enabledBelow, List.length_replicate, Nat.add_sub_cancel' hle,
      hops]

theorem reencode_list (h : count < 16) (hm : fromBytes (count :: entries) = .ok m) :
    ∃ padding : List UInt8, (∀ c ∈ padding, c = 0) ∧ (padding = [] ↔ entries.Nodup) ∧
      reencode (count :: entries) = .ok (count :: (m.enabledBelow 128 ++ padding)) := by
  obtain ⟨padding, hzero, hpadding, -, hdecode⟩ := decode_of_list h hm
  exact ⟨padding, hzero, hpadding, by rw [reencode, hm, ok_bind, hdecode]⟩

/-- The codes of a list without repetitions, in order, are read as the same map. -/
theorem fromBytes_ordered (h : count < 16) (hm : fromBytes (count :: entries) = .ok m)
    (hnodup : entries.Nodup) : fromBytes (count :: m.enabledBelow 128) = .ok m := by
  obtain ⟨hhead, hlt⟩ := ofNat_operationsCount h hm
  rw [← hhead]
  exact fromBytes_enabledBelow ((counted_list_iff h hm).mpr hnodup) hlt

/-- Zeros are no codes. -/
theorem not_isOk_padded (h : count < 16) {codes padding : List UInt8} (hne : padding ≠ [])
    (hzero : ∀ c ∈ padding, c = 0) : ¬ IsOk (fromBytes (count :: (codes ++ padding))) := by
  intro hok
  obtain ⟨c, rest, rfl⟩ := List.exists_cons_of_ne_nil hne
  have hle := ((isOk_fromBytes_list h _).mp hok).2 c (by simp)
  rw [hzero c List.mem_cons_self] at hle
  exact absurd hle (by decide)

end List

/-! ## Every string -/

/-- A bitmap is written back as it is. -/
theorem reencode_bitmap {wire : List UInt8} (h : IsBitmap wire) : reencode wire = .ok wire := by
  obtain ⟨count, bytes, rfl, h16, hlen, hsum⟩ := h
  have hlen' : (count :: bytes).length = 17 := by rw [List.length_cons, hlen]
  obtain ⟨v, hv, -, hbits⟩ := (fromBytes_bitmap h16 bytes).2 ⟨hlen', hsum⟩
  have hcount : 16 ≤ (⟨v, count.toNat⟩ : NodeObjectPropertyMap).operationsCount :=
    UInt8.le_iff_toNat_le.mp h16
  obtain ⟨wire, hdecode, hlength, hhead, hwire⟩ := decode_bitmap (ε := MiddlewareError) hcount
  rw [reencode, hv, ok_bind, hdecode]
  refine congrArg Outcome.ok (wire_ext hlength hlen' ?_ fun i hi j hj => ?_)
  · rw [hhead, List.getD_cons_zero, UInt8.ofNat_toNat]
  · rw [hwire i hi j hj, hbits i hi j hj]

/-- A string that is no bitmap and is accepted is a list. -/
theorem exists_list_of_isOk {wire : List UInt8} (hok : IsOk (fromBytes wire))
    (h : ¬ IsBitmap wire) : ∃ count entries m, wire = count :: entries ∧ count < 16 ∧
      wire.length ≤ 16 ∧ IsCodeList wire ∧ fromBytes (count :: entries) = .ok m := by
  obtain ⟨hlen, hlist⟩ := ((isOk_fromBytes_iff wire).mp hok).resolve_right h
  obtain ⟨m, hm⟩ := hok
  obtain ⟨count, entries, rfl, hcount, hcodes⟩ := hlist
  rw [List.length_cons] at hlen
  exact ⟨count, entries, m, rfl, UInt8.lt_iff_toNat_lt.mpr (by
    rw [hcount]
    exact Nat.lt_of_succ_le hlen), hlen, isCodeList_cons.mpr ⟨hcount, hcodes⟩, hm⟩

theorem isOk_of_reencode {wire wire' : List UInt8} (h : reencode wire = .ok wire') :
    IsOk (fromBytes wire) := by
  obtain ⟨m, hm, -⟩ := bind_eq_ok.mp h
  exact ⟨m, hm⟩

/-- Writing back keeps the length. -/
theorem length_of_decode {ε : Type} {wire wire' : List UInt8} {m : NodeObjectPropertyMap}
    (hm : fromBytes wire = .ok m) (h : (m.decode : Outcome ε (List UInt8)) = .ok wire') :
    wire'.length = wire.length := by
  by_cases hbitmap : IsBitmap wire
  · obtain ⟨count, bytes, rfl, h16, hlen, hsum⟩ := hbitmap
    have hlen' : (count :: bytes).length = 17 := by rw [List.length_cons, hlen]
    obtain ⟨v, hv, -⟩ := (fromBytes_bitmap h16 bytes).2 ⟨hlen', hsum⟩
    cases hm.symm.trans hv
    obtain ⟨wire, hdecode, hlength, -⟩ := decode_bitmap (ε := ε)
      (m := ⟨v, count.toNat⟩) (UInt8.le_iff_toNat_le.mp h16)
    cases hdecode.symm.trans h
    rw [hlength, hlen']
  · obtain ⟨count, entries, m', rfl, hlt, -, -, hm'⟩ := exists_list_of_isOk ⟨m, hm⟩ hbitmap
    cases hm.symm.trans hm'
    obtain ⟨padding, -, -, hlength, hdecode⟩ := decode_of_list (ε := ε) hlt hm
    cases hdecode.symm.trans h
    rw [List.length_cons, List.length_cons, hlength]

/-- **Read and written back unchanged** are the bitmaps and the ascending lists, and no other
string. -/
theorem reencode_eq_self_iff (wire : List UInt8) :
    reencode wire = .ok wire ↔ IsBitmap wire ∨ IsAscendingList wire := by
  by_cases hbitmap : IsBitmap wire
  · exact iff_of_true (reencode_bitmap hbitmap) (Or.inl hbitmap)
  rw [or_iff_right hbitmap]
  constructor
  · intro h
    obtain ⟨count, entries, m, rfl, hlt, hlen, hlist, hm⟩ :=
      exists_list_of_isOk (isOk_of_reencode h) hbitmap
    obtain ⟨padding, hzero, -, heq⟩ := reencode_list hlt hm
    have hentries : m.enabledBelow 128 ++ padding = entries := by
      rw [heq] at h
      exact (List.cons.inj (Outcome.ok.inj h)).2
    -- A zero among the entries would be no code.
    have hpadding : padding = [] := by
      by_contra hne
      have hok : IsOk (fromBytes (count :: (m.enabledBelow 128 ++ padding))) := by
        rw [hentries, hm]
        exact isOk_ok m
      exact not_isOk_padded hlt hne hzero hok
    rw [hpadding, List.append_nil] at hentries
    exact ⟨hlen, hlist, (enabledBelow_eq_iff hlt hm).mp hentries⟩
  · rintro ⟨hlen, hlist, hasc⟩
    obtain ⟨count, entries, m, rfl, hlt, -, -, hm⟩ :=
      exists_list_of_isOk ((isOk_fromBytes_iff wire).mpr (Or.inl ⟨hlen, hlist⟩)) hbitmap
    obtain ⟨padding, -, hnodup, heq⟩ := reencode_list hlt hm
    have hasc : entries.Pairwise (· < ·) := hasc
    rw [heq, hnodup.mpr (hasc.imp UInt8.ne_of_lt), List.append_nil,
      (enabledBelow_eq_iff hlt hm).mpr hasc]

/-- A list without repetitions is put in order. -/
theorem reencode_distinct {wire : List UInt8} (h : IsBitmap wire ∨ IsDistinctList wire) :
    ∃ wire', reencode wire = .ok wire' ∧ reencode wire' = .ok wire' ∧
      fromBytes wire' = fromBytes wire := by
  by_cases hbitmap : IsBitmap wire
  · exact ⟨wire, reencode_bitmap hbitmap, reencode_bitmap hbitmap, rfl⟩
  obtain ⟨hlen, hlist, hnodup⟩ := h.resolve_left hbitmap
  obtain ⟨count, entries, m, rfl, hlt, -, -, hm⟩ :=
    exists_list_of_isOk ((isOk_fromBytes_iff wire).mpr (Or.inl ⟨hlen, hlist⟩)) hbitmap
  rw [List.tail_cons] at hnodup
  have hread := fromBytes_ordered hlt hm hnodup
  obtain ⟨padding, -, hpadding, heq⟩ := reencode_list hlt hm
  rw [hpadding.mpr hnodup, List.append_nil] at heq
  refine ⟨_, heq, ?_, hread.trans hm.symm⟩
  rw [← heq, reencode, hread, reencode, hm]

/-- What a repeated code leaves of the count is refused. -/
theorem reencode_repeating {wire : List UInt8} (hlen : wire.length ≤ 16) (hlist : IsCodeList wire)
    (h : ¬ wire.tail.Nodup) : ∃ wire', reencode wire = .ok wire' ∧ ¬ IsOk (fromBytes wire') := by
  have hbitmap : ¬ IsBitmap wire := fun hb => by
    have := hb.length_eq
    omega
  obtain ⟨count, entries, m, rfl, hlt, -, -, hm⟩ :=
    exists_list_of_isOk ((isOk_fromBytes_iff wire).mpr (Or.inl ⟨hlen, hlist⟩)) hbitmap
  obtain ⟨padding, hzero, hpadding, heq⟩ := reencode_list hlt hm
  exact ⟨_, heq, not_isOk_padded hlt (fun hnil => h (hpadding.mp hnil)) hzero⟩

/-- **Writing back settles a string at once, or spoils it.**  A bitmap and a list without
repetitions are written back as a string that stands for the same map and no longer changes; a list
that repeats a code is written back as a string that is refused. -/
theorem reencode_settles_iff (wire : List UInt8) :
    ((∃ wire', reencode wire = .ok wire' ∧ reencode wire' = .ok wire' ∧
        fromBytes wire' = fromBytes wire) ↔ IsBitmap wire ∨ IsDistinctList wire) ∧
      ((∃ wire', reencode wire = .ok wire' ∧ ¬ IsOk (fromBytes wire')) ↔
        wire.length ≤ 16 ∧ IsCodeList wire ∧ ¬ wire.tail.Nodup) := by
  refine ⟨⟨?_, reencode_distinct⟩, ⟨?_, fun ⟨hlen, hlist, h⟩ => reencode_repeating hlen hlist h⟩⟩
  · rintro ⟨wire', heq, hagain, -⟩
    rcases (isOk_fromBytes_iff wire).mp (isOk_of_reencode heq) with ⟨hlen, hlist⟩ | hbitmap
    · refine Or.inr ⟨hlen, hlist, ?_⟩
      by_contra hnodup
      obtain ⟨refused, heq', hrefused⟩ := reencode_repeating hlen hlist hnodup
      cases heq.symm.trans heq'
      exact hrefused (isOk_of_reencode hagain)
    · exact Or.inl hbitmap
  · rintro ⟨wire', heq, hrefused⟩
    have hspoilt : ¬ (IsBitmap wire ∨ IsDistinctList wire) := fun hdistinct => by
      obtain ⟨settled, heq', hagain, -⟩ := reencode_distinct hdistinct
      cases heq.symm.trans heq'
      exact hrefused (isOk_of_reencode hagain)
    obtain ⟨hlen, hlist⟩ := ((isOk_fromBytes_iff wire).mp (isOk_of_reencode heq)).resolve_right
      fun hbitmap => hspoilt (Or.inl hbitmap)
    exact ⟨hlen, hlist, fun hnodup => hspoilt (Or.inr ⟨hlen, hlist, hnodup⟩)⟩

/-! ## One string for every set -/

/-- A string stands for the set of the codes that the map read from it has enabled. -/
def StandsFor (wire : List UInt8) (S : CodeSet) : Prop :=
  ∃ m, fromBytes wire = .ok m ∧
    ∀ operation, 0x80 ≤ operation → m.isOperationEnabled operation = .ok (decide (operation ∈ S))

/-- A string that is written back unchanged was read as a counted map. -/
theorem counted_of_reencode_self {wire : List UInt8} {m : NodeObjectPropertyMap}
    (h : reencode wire = .ok wire) (hm : fromBytes wire = .ok m) : m.Counted := by
  have hbuilt : (MapOrigin.fromBytes wire).build = .ok m := hm
  refine (MapOrigin.counted_iff hbuilt).mpr ?_
  rcases (reencode_eq_self_iff wire).mp h with ⟨count, bytes, rfl, h16, -⟩ | ⟨-, -, hasc⟩
  · exact Or.inl h16
  · exact Or.inr (hasc.imp UInt8.ne_of_lt)

/-- Counted maps that enable the same codes are the same map. -/
theorem Represents.map_eq {m m' : NodeObjectPropertyMap} {S : CodeSet} (h : Represents m S)
    (h' : Represents m' S) : m = m' := by
  have hwords : m.operations = m'.operations := words_ext fun k hk => Bool.eq_iff_iff.mpr (by
    rw [← slot_codeOf hk, h.bit_iff _ (le_codeOf hk), h'.bit_iff _ (le_codeOf hk)])
  have hcount := h.counted
  rw [Counted, hwords, ← show m'.operationsCount = _ from h'.counted] at hcount
  cases m
  cases m'
  exact congrArg₂ NodeObjectPropertyMap.mk hwords hcount

/-- Every set of codes is that of a map: its codes are enabled one by one. -/
theorem CodeSet.exists_represents (S : CodeSet) : ∃ m, Represents m S := by
  obtain ⟨codes, hvalid⟩ := S
  induction codes using Finset.induction_on with
  | empty => exact ⟨new, Represents.new_empty⟩
  | insert c codes hc ih =>
    obtain ⟨m, hm⟩ := ih fun d hd => hvalid d (Finset.mem_insert_of_mem hd)
    have hle : ¬ c < 0x80 := UInt8.not_lt.mpr (hvalid c (Finset.mem_insert_self c codes))
    have henable := (hm.enable c).2
    rw [CodeSet.enable, dif_neg hle] at henable
    exact ⟨_, henable⟩

/-- **Every set of codes has exactly one string that is read and written back unchanged.** -/
theorem existsUnique_canonical (S : CodeSet) :
    ∃! wire, reencode wire = .ok wire ∧ StandsFor wire S := by
  obtain ⟨m, hm⟩ := S.exists_represents
  obtain ⟨wire, hdecode, hread⟩ := decode_fromBytes hm.counted
  refine ⟨wire, ⟨?_, m, hread, fun operation hle => ?_⟩, ?_⟩
  · rw [reencode, hread, ok_bind, hdecode]
  · rw [hm.isOperationEnabled, if_neg (UInt8.not_lt.mpr hle)]
  · rintro wire' ⟨hself, m', hread', henabled⟩
    have hm' : Represents m' S := by
      refine ⟨counted_of_reencode_self hself hread', fun c hc => ?_⟩
      have hbit := henabled c hc
      rw [isOperationEnabled_of_le m' hc] at hbit
      rw [Outcome.ok.inj hbit, decide_eq_true_iff]
    rw [reencode, hread', ok_bind, hm'.map_eq hm, hdecode] at hself
    exact (Outcome.ok.inj hself).symm

end Echonet
