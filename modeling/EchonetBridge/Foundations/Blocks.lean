import Mathlib.Data.List.MinMax
import Mathlib.Data.Nat.Bitwise

/-!
# Foundations/Blocks — blocks of addresses

The addresses of `w` bits that begin with the same bits form a block.  Of two blocks that meet, the
smaller one is inside of the other (`Block.mem_of_mem`), so that an address belongs to the smallest
block of a registry that it is in (`lookup`).  Masking the other bits tells the blocks of one size
apart (`and_mask_eq_iff`), and the words of an address begin with those of the block
(`agree_padded_iff`).
-/

universe u

namespace Blocks

variable {w : ℕ}

/-! ## Addresses with the same first bits -/

/-- The first `len` of `w` bits are the same. -/
def Agree (w len x y : ℕ) : Prop := x / 2 ^ (w - len) = y / 2 ^ (w - len)

instance (w len x y : ℕ) : Decidable (Agree w len x y) := inferInstanceAs (Decidable (_ = _))

namespace Agree

variable {len x y z : ℕ}

theorem refl (w len x : ℕ) : Agree w len x x := rfl

theorem symm (h : Agree w len x y) : Agree w len y x := Eq.symm h

theorem trans (h : Agree w len x y) (h' : Agree w len y z) : Agree w len x z := Eq.trans h h'

/-- Fewer bits are the same as well. -/
theorem mono {k : ℕ} (hle : k ≤ len) (h : Agree w len x y) : Agree w k x y := by
  have hpow : 2 ^ (w - k) = 2 ^ (w - len) * 2 ^ (w - k - (w - len)) := by
    rw [← Nat.pow_add, Nat.add_sub_cancel' (Nat.sub_le_sub_left hle w)]
  rw [Agree, hpow, ← Nat.div_div_eq_div_mul, ← Nat.div_div_eq_div_mul, h]

end Agree

/-! ## Masks -/

/-- The first `len` of `w` bits are set. -/
def mask (w len : ℕ) : ℕ := 2 ^ w - 2 ^ (w - len)

theorem testBit_mask (w len i : ℕ) :
    (mask w len).testBit i = (decide (i < w) && decide (w - len ≤ i)) := by
  have hpos : 0 < 2 ^ (w - len) := Nat.two_pow_pos _
  have hle : 2 ^ (w - len) ≤ 2 ^ w := Nat.pow_le_pow_right (by decide) (Nat.sub_le w len)
  have hlt : 2 ^ (w - len) - 1 < 2 ^ w := Nat.lt_of_lt_of_le (Nat.sub_one_lt hpos.ne') hle
  rw [mask, ← Nat.sub_one_add_one hpos.ne', Nat.testBit_two_pow_sub_succ hlt,
    Nat.testBit_two_pow_sub_one, ← decide_not]
  exact congrArg _ (decide_eq_decide.mpr Nat.not_lt)

/-- A masked address is the first one that agrees with it. -/
theorem and_mask {x : ℕ} (h : x < 2 ^ w) (len : ℕ) :
    x &&& mask w len = x / 2 ^ (w - len) * 2 ^ (w - len) := by
  refine Nat.eq_of_testBit_eq fun i => ?_
  rw [Nat.testBit_and, testBit_mask, Nat.testBit_mul_two_pow, Nat.testBit_div_two_pow]
  by_cases hi : w - len ≤ i
  · rw [decide_eq_true hi, Nat.sub_add_cancel hi, Bool.and_true, Bool.true_and]
    by_cases hw : i < w
    · rw [decide_eq_true hw, Bool.and_true]
    · have hx : x < 2 ^ i := Nat.lt_of_lt_of_le h (Nat.pow_le_pow_right (by decide) (by omega))
      rw [Nat.testBit_lt_two_pow hx, Bool.false_and]
  · rw [decide_eq_false hi, Bool.and_false, Bool.and_false, Bool.false_and]

/-- **Masking keeps what addresses of one block have in common.** -/
theorem and_mask_eq_iff {x y : ℕ} (hx : x < 2 ^ w) (hy : y < 2 ^ w) (len : ℕ) :
    x &&& mask w len = y &&& mask w len ↔ Agree w len x y := by
  rw [and_mask hx, and_mask hy]
  exact ⟨Nat.eq_of_mul_eq_mul_right (Nat.two_pow_pos _), congrArg (· * 2 ^ (w - len))⟩

/-! ## Blocks -/

/-- The addresses that agree with a base in their first bits. -/
structure Block (w : ℕ) where
  base : ℕ
  len : ℕ
  deriving DecidableEq, Repr

instance : Membership ℕ (Block w) := ⟨fun B x => Agree w B.len x B.base⟩

theorem mem_iff {B : Block w} {x : ℕ} : x ∈ B ↔ Agree w B.len x B.base := Iff.rfl

instance (x : ℕ) (B : Block w) : Decidable (x ∈ B) := inferInstanceAs (Decidable (Agree w _ x _))

/-- **Blocks that meet are nested.** -/
theorem Block.mem_of_mem {B C : Block w} {x y : ℕ} (hle : B.len ≤ C.len) (hB : x ∈ B) (hC : x ∈ C)
    (hy : y ∈ C) : y ∈ B :=
  ((Agree.trans hy (Agree.symm hC)).mono hle).trans hB

theorem Block.base_mem (B : Block w) : B.base ∈ B := Agree.refl w B.len B.base

/-! ## Registries -/

section Lookup

variable {α : Type u} {registry : List (Block w × α)} {fallback : α} {x : ℕ} {e : Block w × α}

/-- What a registry says of an address: what it says of the smallest block the address is in. -/
def lookup (registry : List (Block w × α)) (fallback : α) (x : ℕ) : α :=
  match (registry.filter fun e => x ∈ e.1).argmax fun e => e.1.len with
  | some e => e.2
  | none => fallback

theorem lookup_of_forall_notMem (h : ∀ e ∈ registry, x ∉ e.1) :
    lookup registry fallback x = fallback := by
  have hnone : registry.filter (fun e => x ∈ e.1) = [] := by
    rw [List.filter_eq_nil_iff]
    exact fun e he hx => h e he (of_decide_eq_true hx)
  rw [lookup, hnone]
  rfl

theorem lookup_of_longest (he : e ∈ registry) (hx : x ∈ e.1)
    (hlongest : ∀ e' ∈ registry, x ∈ e'.1 → e' ≠ e → e'.1.len < e.1.len) :
    lookup registry fallback x = e.2 := by
  have hmem : e ∈ registry.filter fun e => x ∈ e.1 :=
    List.mem_filter.mpr ⟨he, decide_eq_true hx⟩
  rw [lookup]
  split
  · next m hm =>
    obtain ⟨hreg, hxm⟩ := List.mem_filter.mp (List.argmax_mem hm)
    by_contra hne
    have hlt := hlongest m hreg (of_decide_eq_true hxm) fun heq => hne (congrArg Prod.snd heq)
    exact absurd (List.le_of_mem_argmax hmem hm) (Nat.not_le.mpr hlt)
  · next hnone =>
    rw [List.argmax_eq_none] at hnone
    rw [hnone] at hmem
    cases hmem

/-- The registry says of the addresses of a block what it says of the block, but for those of the
blocks inside of it. -/
theorem lookup_of_mem (he : e ∈ registry) (hx : x ∈ e.1)
    (hinner : ∀ e' ∈ registry, e' ≠ e → e'.1.len < e.1.len ∨ e'.1.base ∉ e.1 ∨ x ∉ e'.1) :
    lookup registry fallback x = e.2 := by
  refine lookup_of_longest he hx fun e' he' hx' hne => ?_
  by_contra hlt
  rcases hinner e' he' hne with h | h | h
  · exact hlt h
  · exact h (Block.mem_of_mem (Nat.not_lt.mp hlt) hx hx' e'.1.base_mem)
  · exact h hx'

/-- A block without blocks inside of it. -/
theorem lookup_of_leaf (he : e ∈ registry) (hx : x ∈ e.1)
    (hleaf : ∀ e' ∈ registry, e' ≠ e → e'.1.len < e.1.len ∨ e'.1.base ∉ e.1) :
    lookup registry fallback x = e.2 :=
  lookup_of_mem he hx fun e' he' hne => (hleaf e' he' hne).imp_right Or.inl

end Lookup

/-! ## Exceptions -/

section Exceptions

variable {α : Type u} {special : List (Block w × α)} {outer : Block w × α}
  {exceptions : List (Block w)} {fallback : α} {x : ℕ}

/-- A registry of blocks, one of which has exceptions that nothing is said of. -/
def withExceptions (special : List (Block w × α)) (outer : Block w × α)
    (exceptions : List (Block w)) (fallback : α) : List (Block w × α) :=
  special ++ outer :: exceptions.map fun B => (B, fallback)

theorem mem_withExceptions {e : Block w × α}
    (he : e ∈ withExceptions special outer exceptions fallback) :
    e ∈ special ∨ e = outer ∨ ∃ B ∈ exceptions, (B, fallback) = e := by
  rcases List.mem_append.mp he with he | he
  · exact Or.inl he
  · exact Or.inr ((List.mem_cons.mp he).imp_right List.mem_map.mp)

/-- The block with exceptions, outside of them. -/
theorem lookup_outer (hx : x ∈ outer.1) (hspecial : ∀ e ∈ special, x ∉ e.1)
    (hexceptions : ∀ B ∈ exceptions, x ∉ B) :
    lookup (withExceptions special outer exceptions fallback) fallback x = outer.2 := by
  have hmem : outer ∈ withExceptions special outer exceptions fallback :=
    List.mem_append_right _ List.mem_cons_self
  refine lookup_of_mem hmem hx fun e he hne => Or.inr (Or.inr ?_)
  rcases mem_withExceptions he with he | he | ⟨B, hB, rfl⟩
  · exact hspecial e he
  · exact absurd he hne
  · exact hexceptions B hB

/-- No other block has blocks inside of it. -/
structure OnlyOuter (special : List (Block w × α)) (outer : Block w × α)
    (exceptions : List (Block w)) (fallback : α) : Prop where
  notMem : outer ∉ special
  ne_fallback : outer.2 ≠ fallback
  leaf : ∀ e ∈ withExceptions special outer exceptions fallback, e ≠ outer →
    ∀ e' ∈ withExceptions special outer exceptions fallback, e' ≠ e →
      e'.1.len < e.1.len ∨ e'.1.base ∉ e.1

namespace OnlyOuter

variable (h : OnlyOuter special outer exceptions fallback)
include h

theorem lookup_special {e : Block w × α} (he : e ∈ special) (hx : x ∈ e.1) :
    lookup (withExceptions special outer exceptions fallback) fallback x = e.2 := by
  have hmem : e ∈ withExceptions special outer exceptions fallback := List.mem_append_left _ he
  exact lookup_of_leaf hmem hx (h.leaf e hmem fun heq => h.notMem (heq ▸ he))

/-- **Nothing is said of an address** that is in no block, or is an exception. -/
theorem lookup_fallback (hspecial : ∀ e ∈ special, x ∉ e.1)
    (hexceptions : x ∈ outer.1 → ∃ B ∈ exceptions, x ∈ B) :
    lookup (withExceptions special outer exceptions fallback) fallback x = fallback := by
  by_cases hin : ∃ B ∈ exceptions, x ∈ B
  · obtain ⟨B, hB, hx⟩ := hin
    have hmem : (B, fallback) ∈ withExceptions special outer exceptions fallback :=
      List.mem_append_right _ (List.mem_cons_of_mem _ (List.mem_map_of_mem hB))
    exact lookup_of_leaf hmem hx
      (h.leaf _ hmem fun heq => h.ne_fallback (congrArg Prod.snd heq).symm)
  · refine lookup_of_forall_notMem fun e he hx => ?_
    rcases mem_withExceptions he with he | rfl | ⟨B, hB, rfl⟩
    · exact hspecial e he hx
    · exact hin (hexceptions hx)
    · exact hin ⟨B, hB, hx⟩

/-- The addresses that nothing is said of. -/
theorem lookup_eq_fallback_iff (hspecial : ∀ e ∈ special, e.2 ≠ fallback) :
    lookup (withExceptions special outer exceptions fallback) fallback x = fallback ↔
      (∀ e ∈ special, x ∉ e.1) ∧ (x ∈ outer.1 → ∃ B ∈ exceptions, x ∈ B) := by
  refine ⟨fun heq => ?_, fun hx => h.lookup_fallback hx.1 hx.2⟩
  have hnone : ∀ e ∈ special, x ∉ e.1 := fun e he hx =>
    hspecial e he ((h.lookup_special he hx).symm.trans heq)
  refine ⟨hnone, fun hx => ?_⟩
  by_contra hex
  exact h.ne_fallback ((lookup_outer hx hnone fun B hB hxB => hex ⟨B, hB, hxB⟩).symm.trans heq)

end OnlyOuter

end Exceptions

/-! ## Words -/

/-- The number that is spelt by words of `k` bits, first word first. -/
def value (k : ℕ) : List ℕ → ℕ
  | [] => 0
  | a :: s => a * 2 ^ (k * s.length) + value k s

section Words

variable {k len a b : ℕ} {s t : List ℕ}

theorem value_cons (k a : ℕ) (s : List ℕ) :
    value k (a :: s) = a * 2 ^ (k * s.length) + value k s := rfl

theorem value_lt (h : ∀ d ∈ s, d < 2 ^ k) : value k s < 2 ^ (k * s.length) := by
  induction s with
  | nil => exact Nat.two_pow_pos _
  | cons a s ih =>
    have ha : a + 1 ≤ 2 ^ k := h a List.mem_cons_self
    have hs := ih fun d hd => h d (List.mem_cons_of_mem a hd)
    rw [value_cons, List.length_cons, Nat.mul_succ, Nat.add_comm (k * _), Nat.pow_add]
    calc a * 2 ^ (k * s.length) + value k s
        < a * 2 ^ (k * s.length) + 2 ^ (k * s.length) := Nat.add_lt_add_left hs _
      _ = (a + 1) * 2 ^ (k * s.length) := (Nat.succ_mul _ _).symm
      _ ≤ 2 ^ k * 2 ^ (k * s.length) := Nat.mul_le_mul_right _ ha

/-- A block that ends inside of the first word. -/
theorem agree_cons_iff_of_le (hlen : len ≤ k) (hs : ∀ d ∈ s, d < 2 ^ k)
    (ht : ∀ d ∈ t, d < 2 ^ k) (hlength : s.length = t.length) :
    Agree (k * (a :: s).length) len (value k (a :: s)) (value k (b :: t)) ↔ Agree k len a b := by
  have hpow : 2 ^ (k * (a :: s).length - len) = 2 ^ (k * s.length) * 2 ^ (k - len) := by
    rw [List.length_cons, Nat.mul_succ, Nat.add_sub_assoc hlen, Nat.pow_add]
  have hfirst {c : ℕ} {cs : List ℕ} (hcs : ∀ d ∈ cs, d < 2 ^ k) :
      value k (c :: cs) / 2 ^ (k * cs.length) = c := by
    rw [value_cons, Nat.mul_comm, Nat.mul_add_div (Nat.two_pow_pos _),
      Nat.div_eq_of_lt (value_lt hcs), Nat.add_zero]
  rw [Agree, hpow, ← Nat.div_div_eq_div_mul, ← Nat.div_div_eq_div_mul, hfirst hs, hlength,
    hfirst ht, Agree]

/-- A block that goes on behind the first word. -/
theorem agree_cons_iff (hlen : len ≤ k * s.length) (hs : ∀ d ∈ s, d < 2 ^ k)
    (ht : ∀ d ∈ t, d < 2 ^ k) (hlength : s.length = t.length) :
    Agree (k * (a :: s).length) (k + len) (value k (a :: s)) (value k (b :: t)) ↔
      a = b ∧ Agree (k * s.length) len (value k s) (value k t) := by
  have hexp : k * (a :: s).length - (k + len) = k * s.length - len := by
    rw [List.length_cons, Nat.mul_succ, Nat.add_comm (k * _), Nat.add_sub_add_left]
  have hpow : 2 ^ (k * s.length) = 2 ^ (k * s.length - len) * 2 ^ len := by
    rw [← Nat.pow_add, Nat.sub_add_cancel hlen]
  have hrest {cs : List ℕ} (hcs : ∀ d ∈ cs, d < 2 ^ k) (hsame : cs.length = s.length) :
      value k cs / 2 ^ (k * s.length - len) < 2 ^ len := by
    have hlt := value_lt hcs
    rw [hsame, hpow] at hlt
    exact Nat.div_lt_of_lt_mul hlt
  have hsplit (c : ℕ) {cs : List ℕ} (hsame : cs.length = s.length) :
      value k (c :: cs) / 2 ^ (k * s.length - len) =
        c * 2 ^ len + value k cs / 2 ^ (k * s.length - len) := by
    rw [value_cons, hsame, hpow, Nat.mul_left_comm, Nat.mul_add_div (Nat.two_pow_pos _)]
  have hlt := hrest hs rfl
  have hlt' := hrest ht hlength.symm
  rw [Agree, hexp, hsplit a rfl, hsplit b hlength.symm, Agree]
  constructor
  · intro h
    have hhead := congrArg (· / 2 ^ len) h
    simp only [Nat.mul_comm _ (2 ^ len), Nat.mul_add_div (Nat.two_pow_pos len),
      Nat.div_eq_of_lt hlt, Nat.div_eq_of_lt hlt', Nat.add_zero] at hhead
    rw [hhead] at h
    exact ⟨hhead, Nat.add_left_cancel h⟩
  · rintro ⟨rfl, h⟩
    rw [h]

/-- Numbers are masked word by word. -/
theorem value_zipWith_and (hs : ∀ d ∈ s, d < 2 ^ k) (ht : ∀ d ∈ t, d < 2 ^ k)
    (hlength : s.length = t.length) :
    value k (List.zipWith (· &&& ·) s t) = value k s &&& value k t := by
  induction s generalizing t with
  | nil =>
    rw [value, Nat.zero_and]
    rfl
  | cons a s ih =>
    cases t with
    | nil => cases hlength
    | cons b t =>
      have hs' := fun d hd => hs d (List.mem_cons_of_mem a hd)
      have ht' := fun d hd => ht d (List.mem_cons_of_mem b hd)
      have hlength' : s.length = t.length := Nat.succ.inj hlength
      have hlt := value_lt hs'
      have hlt' := value_lt ht'
      rw [← hlength'] at hlt'
      rw [List.zipWith_cons_cons, value_cons, value_cons, value_cons, ih hs' ht' hlength',
        List.length_zipWith, ← hlength', Nat.min_self]
      refine Nat.eq_of_testBit_eq fun i => ?_
      rw [Nat.testBit_and, Nat.mul_comm, Nat.mul_comm a, Nat.mul_comm b,
        Nat.testBit_two_pow_mul_add _ (Nat.and_lt_two_pow _ hlt'),
        Nat.testBit_two_pow_mul_add _ hlt, Nat.testBit_two_pow_mul_add _ hlt']
      split_ifs
      · rw [Nat.testBit_and]
      · rw [Nat.testBit_and]

/-- The words, filled up with zeros. -/
def padded (n : ℕ) (start : List ℕ) : List ℕ := start ++ List.replicate (n - start.length) 0

theorem length_padded {n : ℕ} {start : List ℕ} (h : start.length ≤ n) :
    (padded n start).length = n := by
  rw [padded, List.length_append, List.length_replicate, Nat.add_sub_cancel' h]

theorem lt_of_mem_padded {start : List ℕ} (h : ∀ d ∈ start, d < 2 ^ k) (n : ℕ) :
    ∀ d ∈ padded n start, d < 2 ^ k := by
  intro d hd
  rcases List.mem_append.mp hd with hd | hd
  · exact h d hd
  · rw [List.eq_of_mem_replicate hd]
    exact Nat.two_pow_pos k

/-- **The words of an address begin with those of its block.** -/
theorem agree_padded_iff {start ws : List ℕ} (hws : ∀ d ∈ ws, d < 2 ^ k)
    (hstart : ∀ d ∈ start, d < 2 ^ k) (hle : start.length ≤ ws.length) :
    Agree (k * ws.length) (k * start.length) (value k ws) (value k (padded ws.length start)) ↔
      start <+: ws := by
  induction start generalizing ws with
  | nil =>
    refine iff_of_true ?_ List.nil_prefix
    have hlt := value_lt (lt_of_mem_padded hstart ws.length)
    rw [length_padded (Nat.zero_le _)] at hlt
    rw [Agree, List.length_nil, Nat.mul_zero, Nat.sub_zero, Nat.div_eq_of_lt (value_lt hws),
      Nat.div_eq_of_lt hlt]
  | cons c start ih =>
    cases ws with
    | nil => cases hle
    | cons d ws =>
      have hle' := Nat.le_of_succ_le_succ hle
      have hstart' := fun e he => hstart e (List.mem_cons_of_mem c he)
      have hws' := fun e he => hws e (List.mem_cons_of_mem d he)
      have hpadded : padded (d :: ws).length (c :: start) = c :: padded ws.length start := by
        rw [padded, padded, List.cons_append, List.length_cons, List.length_cons,
          Nat.add_sub_add_right]
      have hlen : k * (c :: start).length = k + k * start.length := by
        rw [List.length_cons, Nat.mul_succ, Nat.add_comm]
      rw [hpadded, hlen, agree_cons_iff (Nat.mul_le_mul_left k hle') hws'
        (lt_of_mem_padded hstart' _) (length_padded hle').symm, ih hws' hstart' hle',
        List.cons_prefix_cons, eq_comm]

end Words

end Blocks
