import EchonetBridge.Connectors.Multicast
import EchonetBridge.Foundations.Blocks

/-!
# Connectors/Registry — the blocks that addresses belong to

The tests that sort addresses into classes are those of a registry of blocks, some of which have
exceptions inside of them: the class of an address is that of the smallest block it is in
(`addressClass_eq_lookup`).
-/

namespace Echonet

open BigEndian Blocks

theorem map_prefix_map_iff {α β : Type} {f : α → β} (hf : Function.Injective f)
    {start words : List α} : start.map f <+: words.map f ↔ start <+: words := by
  refine ⟨fun h => ?_, fun h => h.map f⟩
  obtain ⟨l, hl, heq⟩ := List.prefix_map_iff.mp h
  rwa [List.map_injective_iff.mpr hf heq]

theorem lt_of_mem_bytes (bytes : List UInt8) : ∀ d ∈ bytes.map UInt8.toNat, d < 2 ^ 8 := by
  intro d hd
  obtain ⟨b, -, rfl⟩ := List.mem_map.mp hd
  exact b.toNat_lt

/-! ## Classes of blocks -/

/-- The tests for the classes find the same as the registry. -/
theorem class_eq_lookup {w : ℕ} {special : List (Block w × AddressClass)} {outer : Block w}
    {exceptions : List (Block w)} (h : OnlyOuter special (outer, .other) exceptions .globalish)
    (hspecial : ∀ e ∈ special, e.2 ≠ .globalish) {x : ℕ} {isLinkLocal isInternal isGlobalish : Bool}
    (hlink : isLinkLocal = true ↔ ∃ e ∈ special, e.2 = .linkLocal ∧ x ∈ e.1)
    (hinternal : isInternal = true ↔ ∃ e ∈ special, e.2 = .internal ∧ x ∈ e.1)
    (hglobalish : isGlobalish = true ↔
      (∀ e ∈ special, x ∉ e.1) ∧ (x ∈ outer → ∃ B ∈ exceptions, x ∈ B)) :
    (if isLinkLocal then .linkLocal else if isInternal then .internal
      else if isGlobalish then .globalish else .other) =
      lookup (withExceptions special (outer, .other) exceptions .globalish) .globalish x := by
  split_ifs with hl hi hg
  · obtain ⟨e, he, hclass, hx⟩ := hlink.mp hl
    rw [h.lookup_special he hx, hclass]
  · obtain ⟨e, he, hclass, hx⟩ := hinternal.mp hi
    rw [h.lookup_special he hx, hclass]
  · obtain ⟨hnone, hexceptions⟩ := hglobalish.mp hg
    exact (h.lookup_fallback hnone hexceptions).symm
  · by_cases hin : ∃ e ∈ special, x ∈ e.1
    · obtain ⟨e, he, hx⟩ := hin
      rw [h.lookup_special he hx]
      cases hclass : e.2 with
      | linkLocal => exact absurd (hlink.mpr ⟨e, he, hclass, hx⟩) hl
      | internal => exact absurd (hinternal.mpr ⟨e, he, hclass, hx⟩) hi
      | globalish => exact absurd hclass (hspecial e he)
      | other => rfl
    · have hnone : ∀ e ∈ special, x ∉ e.1 := fun e he hx => hin ⟨e, he, hx⟩
      have houter : x ∈ (outer, AddressClass.other).1 ∧ ∀ B ∈ exceptions, x ∉ B := by
        by_contra hnot
        refine hg (hglobalish.mpr ⟨hnone, fun hx => ?_⟩)
        by_contra hex
        exact hnot ⟨hx, fun B hB hxB => hex ⟨B, hB, hxB⟩⟩
      exact (lookup_outer houter.1 hnone houter.2).symm

/-! ## IPv4 -/

namespace Ipv4Addr

variable (ip : Ipv4Addr)

def words : List ℕ := ip.octets.toList.map UInt8.toNat

/-- The address as a number. -/
def number : ℕ := value 8 ip.words

theorem length_words : ip.words.length = 4 := by
  rw [words, List.length_map, Vector.length_toList]

theorem lt_of_mem_words : ∀ d ∈ ip.words, d < 2 ^ 8 := lt_of_mem_bytes _

end Ipv4Addr

/-- The block of the addresses whose first `len` bits are those of these octets. -/
@[irreducible] def block4 (start : List ℕ) (len : ℕ) : Block 32 := ⟨value 8 (padded 4 start), len⟩

theorem Ipv4Addr.mem_block4_iff (ip : Ipv4Addr) (s : List UInt8) (h : s.length ≤ 4) :
    ip.number ∈ block4 (s.map UInt8.toNat) (8 * s.length) ↔ ip.startsWith s = true := by
  have hagree := agree_padded_iff ip.lt_of_mem_words (lt_of_mem_bytes s)
    (by rwa [ip.length_words, List.length_map])
  rw [ip.length_words, List.length_map, words,
    map_prefix_map_iff fun _ _ => UInt8.toNat_inj.mp] at hagree
  rw [startsWith, List.isPrefixOf_iff_prefix, mem_iff, block4]
  exact hagree

/-- The blocks that are told apart, with their classes. -/
def special4 : List (Block 32 × AddressClass) :=
  [(block4 [0] 8, .other), (block4 [10] 8, .internal), (block4 [172, 16] 12, .internal),
    (block4 [192, 168] 16, .internal), (block4 [127] 8, .other),
    (block4 [169, 254] 16, .linkLocal), (block4 [192, 0, 2] 24, .other),
    (block4 [198, 51, 100] 24, .other), (block4 [203, 0, 113] 24, .other),
    (block4 [255, 255, 255, 255] 32, .other)]

/-- Addresses for future protocols. -/
def future4 : Block 32 × AddressClass := (block4 [192, 0, 0] 24, .other)

/-- Those of them that can be reached. -/
def reachable4 : List (Block 32) := [block4 [192, 0, 0, 9] 32, block4 [192, 0, 0, 10] 32]

def registry4 : List (Block 32 × AddressClass) :=
  withExceptions special4 future4 reachable4 .globalish

theorem onlyOuter4 : OnlyOuter special4 future4 reachable4 .globalish :=
  ⟨by decide +kernel, by decide, by decide +kernel⟩

section V4

variable (ip : Ipv4Addr)

theorem Ipv4Addr.octets_eq :
    ip.octets.toList = [ip.octet 0, ip.octet 1, ip.octet 2, ip.octet 3] := by
  simp only [octet, toList_four, List.getD_cons_zero, List.getD_cons_succ]

theorem Ipv4Addr.words_eq : ip.words = [(ip.octet 0).toNat, (ip.octet 1).toNat, (ip.octet 2).toNat,
    (ip.octet 3).toNat] := by
  rw [words, octets_eq]
  rfl

theorem Ipv4Addr.startsWith_iff {start : List UInt8} : ip.startsWith start = true ↔
    start <+: [ip.octet 0, ip.octet 1, ip.octet 2, ip.octet 3] := by
  rw [startsWith, octets_eq, List.isPrefixOf_iff_prefix]

/-- `172.16.0.0/12` ends inside of an octet. -/
theorem mem_twelve_iff {a b c d : ℕ} (h : ∀ x ∈ [a, b, c, d], x < 2 ^ 8) :
    value 8 [a, b, c, d] ∈ block4 [172, 16] 12 ↔ a = 172 ∧ 16 ≤ b ∧ b ≤ 31 := by
  have h' : ∀ x ∈ [b, c, d], x < 2 ^ 8 := fun x hx => h x (List.mem_cons_of_mem a hx)
  have h'' : ∀ x ∈ [c, d], x < 2 ^ 8 := fun x hx => h' x (List.mem_cons_of_mem b hx)
  have hzero : ∀ x ∈ [16, 0, 0], x < 2 ^ 8 := by decide
  have hzero' : ∀ x ∈ [0, 0], x < 2 ^ 8 := by decide
  have hfirst : Agree 32 12 (value 8 [a, b, c, d]) (value 8 [172, 16, 0, 0]) ↔
      a = 172 ∧ Agree 24 4 (value 8 [b, c, d]) (value 8 [16, 0, 0]) :=
    agree_cons_iff (by decide : 4 ≤ 24) h' hzero rfl
  have hsecond : Agree 24 4 (value 8 [b, c, d]) (value 8 [16, 0, 0]) ↔ b / 16 = 1 :=
    agree_cons_iff_of_le (by decide : 4 ≤ 8) h'' hzero' rfl
  rw [mem_iff, block4]
  refine (hfirst.trans (and_congr_right fun _ => hsecond)).trans ?_
  omega

theorem Ipv4Addr.mem_block4_twelve : ip.number ∈ block4 [172, 16] 12 ↔
    (ip.startsWith [172] && ip.octet 1 ≥ 16 && ip.octet 1 ≤ 31) = true := by
  have hlt := ip.lt_of_mem_words
  rw [words_eq] at hlt
  rw [number, words_eq, mem_twelve_iff hlt, Bool.and_eq_true, Bool.and_eq_true, startsWith_iff,
    List.cons_prefix_cons, and_iff_left List.nil_prefix, decide_eq_true_iff, decide_eq_true_iff,
    and_assoc, eq_comm, ge_iff_le, UInt8.le_iff_toNat_le, UInt8.le_iff_toNat_le, ← UInt8.toNat_inj]
  rfl

theorem Ipv4Addr.mem_future4 : ip.number ∈ block4 [192, 0, 0] 24 ↔
    ip.octet 0 = 192 ∧ ip.octet 1 = 0 ∧ ip.octet 2 = 0 := by
  refine (ip.mem_block4_iff [192, 0, 0] (by decide)).trans ?_
  rw [startsWith_iff, List.cons_prefix_cons, List.cons_prefix_cons, List.cons_prefix_cons,
    and_iff_left List.nil_prefix, eq_comm, @eq_comm _ 0, @eq_comm _ 0]

theorem Ipv4Addr.isPrivate_iff :
    ip.isPrivate = true ↔ ∃ e ∈ special4, e.2 = .internal ∧ ip.number ∈ e.1 := by
  have h10 := ip.mem_block4_iff [10] (by decide)
  have h192 := ip.mem_block4_iff [192, 168] (by decide)
  rw [isPrivate, Bool.or_eq_true, Bool.or_eq_true, ← h10, ← ip.mem_block4_twelve, ← h192]
  simp [special4, or_assoc]

theorem Ipv4Addr.isLinkLocal_iff :
    ip.isLinkLocal = true ↔ ∃ e ∈ special4, e.2 = .linkLocal ∧ ip.number ∈ e.1 := by
  rw [isLinkLocal, ← ip.mem_block4_iff _ (by decide)]
  simp [special4]

theorem Ipv4Addr.mem_reachable4 (b : UInt8) :
    ip.number ∈ block4 [192, 0, 0, b.toNat] 32 ↔
      (ip.octet 0 = 192 ∧ ip.octet 1 = 0 ∧ ip.octet 2 = 0) ∧ ip.octet 3 = b := by
  refine (ip.mem_block4_iff [192, 0, 0, b] (by simp)).trans ?_
  rw [startsWith_iff, List.cons_prefix_cons, List.cons_prefix_cons, List.cons_prefix_cons,
    List.cons_prefix_cons, and_iff_left List.nil_prefix, eq_comm, @eq_comm _ 0, @eq_comm _ 0,
    @eq_comm _ b, and_assoc, and_assoc]

theorem Ipv4Addr.forall_special4 : (∀ e ∈ special4, ip.number ∉ e.1) ↔
    (ip.octet 0 == 0) = false ∧ ip.isPrivate = false ∧ ip.isLoopback = false ∧
      ip.isLinkLocal = false ∧ ip.isDocumentation = false ∧ ip.isBroadcast = false := by
  have hzero : ip.number ∈ block4 [0] 8 ↔ (ip.octet 0 == 0) = true := by
    refine (ip.mem_block4_iff [0] (by decide)).trans ?_
    rw [ip.startsWith_iff, List.cons_prefix_cons, and_iff_left List.nil_prefix, beq_iff_eq, eq_comm]
  have h10 : ip.number ∈ block4 [10] 8 ↔ ip.startsWith [10] = true :=
    ip.mem_block4_iff [10] (by decide)
  have h192 : ip.number ∈ block4 [192, 168] 16 ↔ ip.startsWith [192, 168] = true :=
    ip.mem_block4_iff [192, 168] (by decide)
  have hloopback : ip.number ∈ block4 [127] 8 ↔ ip.isLoopback = true :=
    ip.mem_block4_iff [127] (by decide)
  have hlink : ip.number ∈ block4 [169, 254] 16 ↔ ip.isLinkLocal = true :=
    ip.mem_block4_iff [169, 254] (by decide)
  have hnet1 : ip.number ∈ block4 [192, 0, 2] 24 ↔ ip.startsWith [192, 0, 2] = true :=
    ip.mem_block4_iff [192, 0, 2] (by decide)
  have hnet2 : ip.number ∈ block4 [198, 51, 100] 24 ↔ ip.startsWith [198, 51, 100] = true :=
    ip.mem_block4_iff [198, 51, 100] (by decide)
  have hnet3 : ip.number ∈ block4 [203, 0, 113] 24 ↔ ip.startsWith [203, 0, 113] = true :=
    ip.mem_block4_iff [203, 0, 113] (by decide)
  have hbroadcast : ip.number ∈ block4 [255, 255, 255, 255] 32 ↔ ip.isBroadcast = true :=
    ip.mem_block4_iff [255, 255, 255, 255] (by decide)
  simp only [special4, List.forall_mem_cons, List.not_mem_nil, IsEmpty.forall_iff, implies_true,
    and_true, hzero, h10, ip.mem_block4_twelve, h192, hloopback, hlink, hnet1, hnet2, hnet3,
    hbroadcast, isPrivate, isDocumentation, Bool.not_eq_true, Bool.or_eq_false_iff, and_assoc]

theorem Ipv4Addr.future_iff : (ip.number ∈ future4.1 → ∃ B ∈ reachable4, ip.number ∈ B) ↔
    (ip.octet 0 == 192 && ip.octet 1 == 0 && ip.octet 2 == 0 && ip.octet 3 != 9 &&
      ip.octet 3 != 10) = false := by
  have h9 : ip.number ∈ block4 [192, 0, 0, 9] 32 ↔ _ := ip.mem_reachable4 9
  have h10 : ip.number ∈ block4 [192, 0, 0, 10] 32 ↔ _ := ip.mem_reachable4 10
  simp only [future4, reachable4, List.exists_mem_cons_iff, List.not_mem_nil, false_and,
    exists_false, or_false, h9, h10, ip.mem_future4, ← Bool.not_eq_true, Bool.and_eq_true,
    beq_iff_eq, bne_iff_ne]
  tauto

theorem isGlobalish4_iff : isGlobalish4 ip = true ↔ (∀ e ∈ special4, ip.number ∉ e.1) ∧
    (ip.number ∈ future4.1 → ∃ B ∈ reachable4, ip.number ∈ B) := by
  rw [ip.forall_special4, ip.future_iff, isGlobalish4, Bool.not_eq_true']
  simp only [Bool.or_eq_false_iff, and_assoc]
  exact ⟨fun ⟨h0, hp, hl, hk, hf, hd, hb⟩ => ⟨h0, hp, hl, hk, hd, hb, hf⟩,
    fun ⟨h0, hp, hl, hk, hd, hb, hf⟩ => ⟨h0, hp, hl, hk, hf, hd, hb⟩⟩

theorem addressClass_v4_eq : addressClass (.v4 ip) = lookup registry4 .globalish ip.number :=
  class_eq_lookup onlyOuter4 (by decide) ip.isLinkLocal_iff ip.isPrivate_iff (isGlobalish4_iff ip)

end V4

/-! ## IPv6 -/

/-- The words that are spelt by two octets each. -/
def pairWords : List UInt8 → List ℕ
  | a :: b :: rest => beValue [a, b] :: pairWords rest
  | _ => []

theorem exists_pair {n : ℕ} : ∀ {bytes : List UInt8}, bytes.length = 2 * (n + 1) →
    ∃ a b rest, bytes = a :: b :: rest ∧ rest.length = 2 * n
  | [], h => absurd h (by simp)
  | [_], h => by
    rw [List.length_singleton] at h
    omega
  | a :: b :: rest, h => ⟨a, b, rest, rfl, by simp only [List.length_cons] at h; omega⟩

theorem length_pairWords {n : ℕ} {bytes : List UInt8} (h : bytes.length = 2 * n) :
    (pairWords bytes).length = n := by
  induction n generalizing bytes with
  | zero =>
    rw [List.length_eq_zero_iff.mp h]
    rfl
  | succ n ih =>
    obtain ⟨a, b, rest, rfl, hrest⟩ := exists_pair h
    rw [pairWords, List.length_cons, ih hrest]

theorem value_pairWords {n : ℕ} {bytes : List UInt8} (h : bytes.length = 2 * n) :
    value 16 (pairWords bytes) = beValue bytes := by
  induction n generalizing bytes with
  | zero =>
    rw [List.length_eq_zero_iff.mp h]
    rfl
  | succ n ih =>
    obtain ⟨a, b, rest, rfl, hrest⟩ := exists_pair h
    have hpow : 256 ^ rest.length = 2 ^ (16 * n) := by rw [hrest, Nat.pow_mul, Nat.pow_mul]
    rw [pairWords, value_cons, length_pairWords hrest, ih hrest, ← hpow]
    exact (beValue_append [a, b] rest).symm

section V6

variable (ip : Ipv6Addr)

namespace Ipv6Addr

def words : List ℕ := ip.segments.toList.map UInt16.toNat

/-- The address as a number. -/
def number : ℕ := value 16 ip.words

theorem length_words : ip.words.length = 8 := by
  rw [words, List.length_map, Vector.length_toList]

theorem lt_of_mem_words : ∀ d ∈ ip.words, d < 2 ^ 16 := by
  intro d hd
  obtain ⟨s, -, rfl⟩ := List.mem_map.mp hd
  exact s.toNat_lt

/-- One of the eight words. -/
def word (i : Fin 8) : ℕ := (ip.segments.get i).toNat

theorem words_eq : ip.words = [ip.word 0, ip.word 1, ip.word 2, ip.word 3, ip.word 4, ip.word 5,
    ip.word 6, ip.word 7] := by
  rw [words, toList_eq_ofFn]
  rfl

theorem words_eq_pairWords : ip.words = pairWords ip.octets.toList := by
  have hword (i : Fin 8) : ip.word i =
      beValue [ip.octets[2 * i.val], ip.octets[2 * i.val + 1]] := by
    change (ip.segments[i.val]).toNat = _
    simp only [segments, Vector.getElem_ofFn, toNat_fromBeBytes₁₆]
    rfl
  rw [words_eq, toList_eq_ofFn]
  simp only [hword]
  rfl

theorem toBits_eq : ip.toBits = ip.number := by
  rw [toBits, number, words_eq_pairWords]
  have hlength : ip.octets.toList.length = 2 * 8 := ip.octets.length_toList
  exact (value_pairWords hlength).symm

end Ipv6Addr

/-- The block of the addresses whose first `len` bits are those of these words. -/
@[irreducible] def block6 (start : List ℕ) (len : ℕ) : Block 128 := ⟨value 16 (padded 8 start), len⟩

namespace Ipv6Addr

theorem mem_block6_iff (s : List UInt16) (h : s.length ≤ 8) :
    ip.number ∈ block6 (s.map UInt16.toNat) (16 * s.length) ↔ ip.startsWith s = true := by
  have hstart : ∀ d ∈ s.map UInt16.toNat, d < 2 ^ 16 := by
    intro d hd
    obtain ⟨b, -, rfl⟩ := List.mem_map.mp hd
    exact b.toNat_lt
  have hagree := agree_padded_iff ip.lt_of_mem_words hstart
    (by rwa [ip.length_words, List.length_map])
  rw [ip.length_words, List.length_map, words,
    map_prefix_map_iff fun _ _ => UInt16.toNat_inj.mp] at hagree
  rw [startsWith, List.isPrefixOf_iff_prefix, mem_iff, block6]
  exact hagree

/-- A block of one address. -/
theorem mem_block6_all (start : List ℕ) :
    ip.number ∈ block6 start 128 ↔ ip.toBits = value 16 (padded 8 start) := by
  rw [mem_iff, block6, Agree, Nat.sub_self, Nat.pow_zero, Nat.div_one, Nat.div_one, toBits_eq]

/-- A block that ends inside of the first word. -/
theorem mem_block6_first (a : ℕ) {len : ℕ} (hlen : len ≤ 16) :
    ip.number ∈ block6 [a] len ↔ Agree 16 len (ip.word 0) a := by
  have hlt := ip.lt_of_mem_words
  rw [words_eq] at hlt
  have hzero : ∀ d ∈ List.replicate 7 0, d < 2 ^ 16 := by decide
  rw [mem_iff, block6, number, words_eq]
  exact agree_cons_iff_of_le hlen (fun d hd => hlt d (List.mem_cons_of_mem _ hd)) hzero rfl

/-- A block that ends inside of the second word. -/
theorem mem_block6_second (a : ℕ) {b len : ℕ} (hb : b < 2 ^ 16) (hlen : len ≤ 16) :
    ip.number ∈ block6 [a, b] (16 + len) ↔
      ip.word 0 = a ∧ Agree 16 len (ip.word 1) b := by
  have hlt := ip.lt_of_mem_words
  rw [words_eq] at hlt
  have hlt' := fun d hd => hlt d (List.mem_cons_of_mem _ hd)
  have hzero : ∀ d ∈ List.replicate 6 0, d < 2 ^ 16 := by decide
  have hb' : ∀ d ∈ b :: List.replicate 6 0, d < 2 ^ 16 := by
    rw [List.forall_mem_cons]
    exact ⟨hb, hzero⟩
  have hlen' := hlen.trans (Nat.le_mul_of_pos_right 16 (Nat.succ_pos 6))
  rw [mem_iff, block6, number, words_eq]
  refine (agree_cons_iff hlen' hlt' hb' rfl).trans (and_congr_right fun _ => ?_)
  exact agree_cons_iff_of_le hlen (fun d hd => hlt' d (List.mem_cons_of_mem _ hd)) hzero rfl

/-- The bits of a word that are masked. -/
theorem masked_eq_iff (word base : UInt16) {mask : UInt16} {len : ℕ}
    (hmask : mask.toNat = Blocks.mask 16 len) (hbase : base &&& mask = base) :
    (word &&& mask == base) = true ↔ Agree 16 len word.toNat base.toNat := by
  rw [beq_iff_eq, ← and_mask_eq_iff word.toNat_lt base.toNat_lt, ← hmask, ← UInt16.toNat_and,
    ← UInt16.toNat_and, UInt16.toNat_inj, hbase]

end Ipv6Addr

/-- The blocks that are told apart, with their classes. -/
def special6 : List (Block 128 × AddressClass) :=
  [(block6 [] 128, .other), (block6 [0, 0, 0, 0, 0, 0, 0, 1] 128, .other),
    (block6 [0, 0, 0, 0, 0, 0xffff] 96, .other), (block6 [0x64, 0xff9b, 1] 48, .other),
    (block6 [0x100, 0, 0, 0] 64, .other), (block6 [0x2002] 16, .other),
    (block6 [0x5f00] 16, .other), (block6 [0xfc00] 7, .internal),
    (block6 [0xfe80] 10, .linkLocal)]

/-- Protocol assignments. -/
def protocols6 : Block 128 × AddressClass := (block6 [0x2001, 0] 23, .other)

/-- Those of them that can be reached. -/
def reachable6 : List (Block 128) :=
  [block6 [0x2001, 1, 0, 0, 0, 0, 0, 1] 128, block6 [0x2001, 1, 0, 0, 0, 0, 0, 2] 128,
    block6 [0x2001, 3] 32, block6 [0x2001, 4, 0x112] 48, block6 [0x2001, 0x20] 28,
    block6 [0x2001, 0x30] 28]

def registry6 : List (Block 128 × AddressClass) :=
  withExceptions special6 protocols6 reachable6 .globalish

theorem onlyOuter6 : OnlyOuter special6 protocols6 reachable6 .globalish :=
  ⟨by decide +kernel, by decide, by decide +kernel⟩

namespace Ipv6Addr

theorem mem_uniqueLocal : ip.number ∈ block6 [0xfc00] 7 ↔ ip.isUniqueLocal = true := by
  have hlen : 7 ≤ 16 := by decide
  have hmask : (0xfe00 : UInt16).toNat = Blocks.mask 16 7 := by decide
  rw [ip.mem_block6_first 0xfc00 hlen, isUniqueLocal]
  exact (masked_eq_iff _ 0xfc00 hmask (by decide)).symm

theorem mem_unicastLinkLocal : ip.number ∈ block6 [0xfe80] 10 ↔ ip.isUnicastLinkLocal = true := by
  have hlen : 10 ≤ 16 := by decide
  have hmask : (0xffc0 : UInt16).toNat = Blocks.mask 16 10 := by decide
  rw [ip.mem_block6_first 0xfe80 hlen, isUnicastLinkLocal]
  exact (masked_eq_iff _ 0xfe80 hmask (by decide)).symm

theorem isUniqueLocal_iff :
    ip.isUniqueLocal = true ↔ ∃ e ∈ special6, e.2 = .internal ∧ ip.number ∈ e.1 := by
  rw [← mem_uniqueLocal]
  simp [special6]

theorem isUnicastLinkLocal_iff :
    ip.isUnicastLinkLocal = true ↔ ∃ e ∈ special6, e.2 = .linkLocal ∧ ip.number ∈ e.1 := by
  rw [← mem_unicastLinkLocal]
  simp [special6]

theorem forall_special6 : (∀ e ∈ special6, ip.number ∉ e.1) ↔
    ip.isUnspecified = false ∧ ip.isLoopback = false ∧
      ip.startsWith [0, 0, 0, 0, 0, 0xffff] = false ∧ ip.startsWith [0x64, 0xff9b, 1] = false ∧
      ip.startsWith [0x100, 0, 0, 0] = false ∧ ip.startsWith [0x2002] = false ∧
      ip.startsWith [0x5f00] = false ∧ ip.isUniqueLocal = false ∧
      ip.isUnicastLinkLocal = false := by
  have hunspecified : ip.number ∈ block6 [] 128 ↔ ip.isUnspecified = true := by
    rw [mem_block6_all, isUnspecified, beq_iff_eq]
    rfl
  have hloopback : ip.number ∈ block6 [0, 0, 0, 0, 0, 0, 0, 1] 128 ↔ ip.isLoopback = true := by
    rw [mem_block6_all, isLoopback, beq_iff_eq]
    rfl
  have hmapped : ip.number ∈ block6 [0, 0, 0, 0, 0, 0xffff] 96 ↔
      ip.startsWith [0, 0, 0, 0, 0, 0xffff] = true :=
    ip.mem_block6_iff [0, 0, 0, 0, 0, 0xffff] (by decide)
  have htranslation : ip.number ∈ block6 [0x64, 0xff9b, 1] 48 ↔
      ip.startsWith [0x64, 0xff9b, 1] = true := ip.mem_block6_iff [0x64, 0xff9b, 1] (by decide)
  have hdiscard : ip.number ∈ block6 [0x100, 0, 0, 0] 64 ↔ ip.startsWith [0x100, 0, 0, 0] = true :=
    ip.mem_block6_iff [0x100, 0, 0, 0] (by decide)
  have h6to4 : ip.number ∈ block6 [0x2002] 16 ↔ ip.startsWith [0x2002] = true :=
    ip.mem_block6_iff [0x2002] (by decide)
  have hrouting : ip.number ∈ block6 [0x5f00] 16 ↔ ip.startsWith [0x5f00] = true :=
    ip.mem_block6_iff [0x5f00] (by decide)
  simp only [special6, List.forall_mem_cons, List.not_mem_nil, IsEmpty.forall_iff, implies_true,
    and_true, hunspecified, hloopback, hmapped, htranslation, hdiscard, h6to4, hrouting,
    ip.mem_uniqueLocal, ip.mem_unicastLinkLocal, Bool.not_eq_true]

theorem startsWith_first (b : UInt16) :
    ip.startsWith [b] = true ↔ ip.word 0 = b.toNat := by
  have hsegments : ∃ rest, ip.segments.toList = ip.segments.get 0 :: rest := by
    rw [toList_eq_ofFn, List.ofFn_succ]
    exact ⟨_, rfl⟩
  obtain ⟨rest, hrest⟩ := hsegments
  rw [startsWith, List.isPrefixOf_iff_prefix, hrest, List.cons_prefix_cons,
    and_iff_left List.nil_prefix, eq_comm, word, UInt16.toNat_inj]

theorem protocols_iff : (ip.number ∈ protocols6.1 → ∃ B ∈ reachable6, ip.number ∈ B) ↔
    ((ip.startsWith [0x2001] && ip.segments.get 1 < 0x200) &&
      !(ip.toBits == 0x20010001000000000000000000000001 ||
        ip.toBits == 0x20010001000000000000000000000002 || ip.startsWith [0x2001, 3] ||
        ip.startsWith [0x2001, 4, 0x112] ||
        (ip.startsWith [0x2001] && ip.segments.get 1 ≥ 0x20 &&
          ip.segments.get 1 ≤ 0x3f))) = false := by
  have hprotocols : ip.number ∈ block6 [0x2001, 0] 23 ↔
      (ip.startsWith [0x2001] && ip.segments.get 1 < 0x200) = true := by
    have hlen : 7 ≤ 16 := by decide
    refine (ip.mem_block6_second 0x2001 (by decide) hlen).trans ?_
    rw [Bool.and_eq_true, startsWith_first, decide_eq_true_iff, UInt16.lt_iff_toNat_lt, Agree]
    refine and_congr_right fun _ => ?_
    change ip.word 1 / 512 = 0 ↔ ip.word 1 < 512
    omega
  have hcontrol : ip.number ∈ block6 [0x2001, 1, 0, 0, 0, 0, 0, 1] 128 ↔
      (ip.toBits == 0x20010001000000000000000000000001) = true := by
    rw [mem_block6_all, beq_iff_eq]
    rfl
  have hrelays : ip.number ∈ block6 [0x2001, 1, 0, 0, 0, 0, 0, 2] 128 ↔
      (ip.toBits == 0x20010001000000000000000000000002) = true := by
    rw [mem_block6_all, beq_iff_eq]
    rfl
  have hamt : ip.number ∈ block6 [0x2001, 3] 32 ↔ ip.startsWith [0x2001, 3] = true :=
    ip.mem_block6_iff [0x2001, 3] (by decide)
  have has112 : ip.number ∈ block6 [0x2001, 4, 0x112] 48 ↔
      ip.startsWith [0x2001, 4, 0x112] = true := ip.mem_block6_iff [0x2001, 4, 0x112] (by decide)
  have hidentifiers :
      (ip.number ∈ block6 [0x2001, 0x20] 28 ∨ ip.number ∈ block6 [0x2001, 0x30] 28) ↔
        (ip.startsWith [0x2001] && ip.segments.get 1 ≥ 0x20 &&
          ip.segments.get 1 ≤ 0x3f) = true := by
    have hlen : 12 ≤ 16 := by decide
    have h20 := ip.mem_block6_second 0x2001 (b := 0x20) (by decide) hlen
    have h30 := ip.mem_block6_second 0x2001 (b := 0x30) (by decide) hlen
    rw [Bool.and_eq_true, Bool.and_eq_true, startsWith_first, decide_eq_true_iff,
      decide_eq_true_iff, ge_iff_le, UInt16.le_iff_toNat_le, UInt16.le_iff_toNat_le, and_assoc]
    refine (or_congr h20 h30).trans (and_or_left.symm.trans (and_congr_right fun _ => ?_))
    change ip.word 1 / 16 = 2 ∨ ip.word 1 / 16 = 3 ↔
      32 ≤ ip.word 1 ∧ ip.word 1 ≤ 63
    omega
  rw [← Bool.not_eq_true, Bool.and_eq_true, Bool.not_eq_true', ← Bool.not_eq_true,
    not_and_not_right, protocols6, hprotocols]
  simp only [reachable6, List.exists_mem_cons_iff, List.not_mem_nil, false_and, exists_false,
    or_false, hcontrol, hrelays, hamt, has112, hidentifiers, Bool.or_eq_true, or_assoc]

theorem isGlobalish6_iff : isGlobalish6 ip = true ↔ (∀ e ∈ special6, ip.number ∉ e.1) ∧
    (ip.number ∈ protocols6.1 → ∃ B ∈ reachable6, ip.number ∈ B) := by
  rw [ip.forall_special6, ip.protocols_iff, isGlobalish6, Bool.not_eq_true']
  simp only [Bool.or_eq_false_iff, and_assoc]
  exact ⟨fun ⟨hu, hl, hm, ht, hd, hp, h6, hs, hi, hk⟩ => ⟨hu, hl, hm, ht, hd, h6, hs, hi, hk, hp⟩,
    fun ⟨hu, hl, hm, ht, hd, h6, hs, hi, hk, hp⟩ => ⟨hu, hl, hm, ht, hd, hp, h6, hs, hi, hk⟩⟩

end Ipv6Addr

theorem addressClass_v6_eq : addressClass (.v6 ip) = lookup registry6 .globalish ip.number :=
  class_eq_lookup onlyOuter6 (by decide) ip.isUnicastLinkLocal_iff ip.isUniqueLocal_iff
    ip.isGlobalish6_iff

end V6

/-! ## The classes -/

/-- The class of an address by the registry of its family. -/
def IpAddr.registered : IpAddr → AddressClass
  | v4 ip => lookup registry4 .globalish ip.number
  | v6 ip => lookup registry6 .globalish ip.number

theorem addressClass_eq_registered (ip : IpAddr) : addressClass ip = ip.registered := by
  cases ip with
  | v4 ip => exact addressClass_v4_eq ip
  | v6 ip => exact addressClass_v6_eq ip

/-- **What a socket weighs** is decided by the smallest block of the registry that its address is
in. -/
theorem weightOf_eq_registered (f : Family) (e : InterfaceSocket) :
    weightOf f e = if e.address.ip.family = f ∧ e.multicastCapable = true
      then e.address.ip.registered.weight else 1000000 := by
  rw [weightOf_eq, InterfaceSocket.addressClass, addressClass_eq_registered]

/-- **What is globally reachable**: the addresses that the registry says nothing of, or that are
exceptions in it. -/
theorem isGlobalish_iff_lookup :
    (∀ ip, isGlobalish4 ip = true ↔ lookup registry4 .globalish ip.number = .globalish) ∧
      ∀ ip, isGlobalish6 ip = true ↔ lookup registry6 .globalish ip.number = .globalish := by
  refine ⟨fun ip => ?_, fun ip => ?_⟩
  · rw [isGlobalish4_iff, registry4, onlyOuter4.lookup_eq_fallback_iff (by decide)]
  · rw [ip.isGlobalish6_iff, registry6, onlyOuter6.lookup_eq_fallback_iff (by decide)]

end Echonet
