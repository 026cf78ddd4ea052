import EchonetBridge.Foundations.Text

/-!
# Foundations/Rendering — numbers as texts, and texts that can be told apart

A rendering writes values as texts.  It is `SelfDelimiting` if a text tells its value whatever comes
after it, so that such texts can be put one after the other.  Others end at what may follow them
(`EndsBefore`), which is enough for lists (`EndsBefore.listed`).  Texts that begin with one of
several headings are told apart by these (`heading_inj`).
-/

namespace Rendering

open Text

variable {σ α β : Type*} {follow : List σ → Prop} {f : α → List σ}

/-! ## Texts and what follows them -/

/-- A text tells its value when something of this kind comes after it. -/
def EndsBefore (follow : List σ → Prop) (f : α → List σ) : Prop :=
  ∀ a b s t, follow s → follow t → f a ++ s = f b ++ t → a = b

/-- A text tells its value whatever comes after it. -/
def SelfDelimiting (f : α → List σ) : Prop := ∀ a b s t, f a ++ s = f b ++ t → a = b

/-- A text of symbols none of which can follow it. -/
theorem endsBefore_of_notMem {stop : σ → Prop} (hinj : Function.Injective f)
    (hstop : ∀ a, ∀ c ∈ f a, ¬ stop c) :
    EndsBefore (fun s => ∃ c ∈ s.head?, stop c) f := by
  intro a b s t hs ht h
  obtain ⟨c, hc, hcstop⟩ := hs
  obtain ⟨d, hd, hdstop⟩ := ht
  -- The longer of the two texts would go on with a symbol that follows the other.
  rcases List.append_eq_append_iff.mp h with ⟨u, hu, hsu⟩ | ⟨u, hu, htu⟩
  · cases u with
    | nil => exact hinj (by rw [hu, List.append_nil])
    | cons e u =>
      rw [hsu, List.cons_append, List.head?_cons, Option.mem_some_iff] at hc
      have he : e ∈ f b := by
        rw [hu]
        exact List.mem_append_right _ List.mem_cons_self
      exact absurd (hc ▸ hcstop) (hstop b e he)
  · cases u with
    | nil => exact hinj (by rw [hu, List.append_nil])
    | cons e u =>
      rw [htu, List.cons_append, List.head?_cons, Option.mem_some_iff] at hd
      have he : e ∈ f a := by
        rw [hu]
        exact List.mem_append_right _ List.mem_cons_self
      exact absurd (hd ▸ hdstop) (hstop a e he)

namespace SelfDelimiting

variable (hf : SelfDelimiting f)
include hf

theorem injective : Function.Injective f := fun a b h => hf a b [] [] (by rw [h])

/-- Both the value and the rest of a text are known. -/
theorem split {a b : α} {s t : List σ} (h : f a ++ s = f b ++ t) : a = b ∧ s = t := by
  obtain rfl := hf a b s t h
  exact ⟨rfl, List.append_cancel_left h⟩

theorem endsBefore : EndsBefore follow f := fun a b s t _ _ => hf a b s t

/-- With a constant text in front of it. -/
theorem before (pre : List σ) : SelfDelimiting fun a => pre ++ f a := by
  intro a b s t h
  rw [List.append_assoc, List.append_assoc] at h
  exact hf a b s t (List.append_cancel_left h)

end SelfDelimiting

/-- Texts of one length. -/
theorem selfDelimiting_of_length (hinj : Function.Injective f)
    (hlength : ∀ a b, (f a).length = (f b).length) : SelfDelimiting f :=
  fun a b _ _ h => hinj (List.append_inj h (hlength a b)).1

theorem EndsBefore.comp (hf : EndsBefore follow f) {k : β → α} (hk : Function.Injective k) :
    EndsBefore follow fun b => f (k b) :=
  fun a b s t hs ht h => hk (hf (k a) (k b) s t hs ht h)

/-! ## Headings -/

/-- Neither of two texts begins as the other does. -/
def Diverge (u v : List σ) : Prop := ¬ u <+: v ∧ ¬ v <+: u

instance [DecidableEq σ] (u v : List σ) : Decidable (Diverge u v) :=
  inferInstanceAs (Decidable (_ ∧ _))

theorem diverge_cons {c d : σ} (h : c ≠ d) (u v : List σ) : Diverge (c :: u) (d :: v) :=
  ⟨fun hpre => h (List.cons_prefix_cons.mp hpre).1,
    fun hpre => h (List.cons_prefix_cons.mp hpre).1.symm⟩

/-- The second text begins with a symbol that is not in the first. -/
theorem diverge_of_stop {u v : List σ} {stop : σ → Prop} (hu : u ≠ []) (hnot : ∀ c ∈ u, ¬ stop c)
    (hv : ∃ c ∈ v.head?, stop c) : Diverge u v := by
  obtain ⟨c, u, rfl⟩ := List.exists_cons_of_ne_nil hu
  obtain ⟨d, hd, hstop⟩ := hv
  obtain ⟨v, rfl⟩ := List.head?_eq_some_iff.mp hd
  have hcd : c ≠ d := fun h => hnot c List.mem_cons_self (h ▸ hstop)
  exact diverge_cons hcd u v

theorem Diverge.append_ne {u v : List σ} (h : Diverge u v) (s t : List σ) : u ++ s ≠ v ++ t := by
  intro heq
  have hv : v <+: u ++ s := heq ▸ List.prefix_append v t
  rcases List.prefix_or_prefix_of_prefix (List.prefix_append u s) hv with huv | hvu
  · exact h.1 huv
  · exact h.2 hvu

/-- A text tells which of several headings it has. -/
theorem heading_inj {heading : ℕ → List σ} {n : ℕ}
    (h : ∀ j < n, ∀ i < j, Diverge (heading i) (heading j)) {i j : ℕ} (hi : i < n) (hj : j < n)
    {s t : List σ} (heq : heading i ++ s = heading j ++ t) : i = j ∧ s = t := by
  rcases Nat.lt_trichotomy i j with hlt | rfl | hlt
  · exact absurd heq ((h j hj i hlt).append_ne s t)
  · exact ⟨rfl, List.append_cancel_left heq⟩
  · exact absurd heq.symm ((h i hi j hlt).append_ne t s)

/-! ## Lists -/

/-- The elements after the first, each with a separator in front of it, and the end of the list. -/
def others (sep close : List σ) (f : α → List σ) : List α → List σ
  | [] => close
  | a :: as => sep ++ (f a ++ others sep close f as)

/-- The elements of a list, separated, and its end. -/
def listed (sep close : List σ) (f : α → List σ) : List α → List σ
  | [] => close
  | a :: as => f a ++ others sep close f as

section Lists

variable {sep close : List σ}

/-- What comes after an element separates or closes. -/
theorem follow_others (hsep : ∀ s, follow (sep ++ s)) (hclose : ∀ s, follow (close ++ s))
    (as : List α) (s : List σ) : follow (others sep close f as ++ s) := by
  cases as with
  | nil => exact hclose s
  | cons a as =>
    rw [others, List.append_assoc]
    exact hsep _

variable (hf : EndsBefore follow f) (hdiverge : Diverge sep close)
  (hsep : ∀ s, follow (sep ++ s)) (hclose : ∀ s, follow (close ++ s))
include hf hdiverge hsep hclose

/-- The induction is on the first list: at its end, the other one cannot go on with a separator. -/
theorem EndsBefore.others : SelfDelimiting (others sep close f) := by
  intro as
  induction as with
  | nil =>
    intro bs s t h
    cases bs with
    | nil => rfl
    | cons b bs =>
      rw [Rendering.others, Rendering.others, List.append_assoc] at h
      exact absurd h.symm (hdiverge.append_ne _ _)
  | cons a as ih =>
    intro bs s t h
    cases bs with
    | nil =>
      rw [Rendering.others, Rendering.others, List.append_assoc] at h
      exact absurd h (hdiverge.append_ne _ _)
    | cons b bs =>
      simp only [Rendering.others, List.append_assoc] at h
      have h := List.append_cancel_left h
      obtain rfl := hf a b _ _ (follow_others hsep hclose as s) (follow_others hsep hclose bs t) h
      rw [ih bs s t (List.append_cancel_left h)]

/-- **Lists are told apart** if their elements are, and end at what separates and closes them. -/
theorem EndsBefore.listed (hempty : ∀ a, Diverge (f a) close) :
    SelfDelimiting (listed sep close f) := by
  intro as bs s t h
  cases as with
  | nil =>
    cases bs with
    | nil => rfl
    | cons b bs =>
      rw [Rendering.listed, Rendering.listed, List.append_assoc] at h
      exact absurd h.symm ((hempty b).append_ne _ _)
  | cons a as =>
    rw [Rendering.listed, List.append_assoc] at h
    cases bs with
    | nil => exact absurd h ((hempty a).append_ne _ _)
    | cons b bs =>
      rw [Rendering.listed, List.append_assoc] at h
      obtain rfl := hf a b _ _ (follow_others hsep hclose as s) (follow_others hsep hclose bs t) h
      rw [hf.others hdiverge hsep hclose as bs s t (List.append_cancel_left h)]

end Lists

theorem intercalate_append (sep close : List σ) (f : α → List σ) (as : List α) :
    sep.intercalate (as.map f) ++ close = listed sep close f as := by
  cases as with
  | nil => rfl
  | cons a as =>
    rw [listed, List.map_cons]
    induction as generalizing a with
    | nil => rw [List.map_nil, List.intercalate_singleton, others]
    | cons b as ih =>
      rw [List.map_cons, List.intercalate_cons_cons, List.append_assoc, ih b, others,
        List.append_assoc]

/-- A fixed number of texts, one after the other. -/
theorem eq_of_flatMap_range {g : ℕ → β → List σ} (hg : ∀ i, SelfDelimiting (g i)) {v w : ℕ → β}
    {n : ℕ} {s t : List σ}
    (h : ((List.range n).flatMap fun i => g i (v i)) ++ s
      = ((List.range n).flatMap fun i => g i (w i)) ++ t) : ∀ i < n, v i = w i := by
  induction n generalizing s t with
  | zero => exact fun i hi => absurd hi (Nat.not_lt_zero i)
  | succ n ih =>
    simp only [List.range_succ, List.flatMap_append, List.flatMap_singleton, List.append_assoc] at h
    have hlt := ih h
    have hpre : ((List.range n).flatMap fun i => g i (v i))
        = (List.range n).flatMap fun i => g i (w i) :=
      List.flatMap_congr fun i hi => by rw [hlt i (List.mem_range.mp hi)]
    rw [hpre] at h
    have hlast := hg n _ _ _ _ (List.append_cancel_left h)
    intro i hi
    rcases Nat.lt_succ_iff_lt_or_eq.mp hi with hi | rfl
    · exact hlt i hi
    · exact hlast

/-! ## Numbers -/

/-- A number in hexadecimal digits, filled up with zeros in front. -/
def hexPadded (width n : ℕ) : String := String.ofList ((Nat.toDigits 16 n).leftpad width '0')

/-- A number in binary digits, filled up with zeros in front. -/
def binPadded (width n : ℕ) : String := String.ofList ((Nat.toDigits 2 n).leftpad width '0')

theorem toList_hexPadded_two (b : UInt8) :
    (hexPadded 2 b.toNat).toList = (lowerHex b).map byteChar := by
  rw [hexPadded, String.toList_ofList]
  exact Bits.forall_byte b (by decide +kernel)

theorem length_hexPadded_two (b : UInt8) : (hexPadded 2 b.toNat).length = 2 := by
  rw [← String.length_toList, toList_hexPadded_two]
  rfl

theorem hexPadded_two_inj {b b' : UInt8} :
    hexPadded 2 b.toNat = hexPadded 2 b'.toNat ↔ b = b' := by
  refine ⟨fun h => ?_, fun h => h ▸ rfl⟩
  rw [← String.toList_inj, toList_hexPadded_two, toList_hexPadded_two] at h
  have hchar : Function.Injective byteChar := fun c c' hc => by
    rw [← UInt8.toNat_inj, ← toNat_byteChar, hc, toNat_byteChar]
  have hdigits := List.map_injective_iff.mpr hchar h
  rw [lowerHex, lowerHex, List.cons.injEq, List.cons.injEq] at hdigits
  rw [← hexPair_lowerHex b, hdigits.1, hdigits.2.1, hexPair_lowerHex]

/-- Two hexadecimal digits of a byte. -/
theorem selfDelimiting_hexByte : SelfDelimiting fun b : UInt8 => (hexPadded 2 b.toNat).toList := by
  refine selfDelimiting_of_length (fun b b' h => ?_) fun b b' => ?_
  · exact hexPadded_two_inj.mp (String.toList_inj.mp h)
  · rw [String.length_toList, String.length_toList, length_hexPadded_two, length_hexPadded_two]

/-- The number that binary digits are read as. -/
def binValue (digits : List Char) : ℕ :=
  digits.foldl (fun n c => 2 * n + if c = '1' then 1 else 0) 0

theorem toList_binPadded (width n : ℕ) :
    (binPadded width n).toList = (Nat.toDigits 2 n).leftpad width '0' := String.toList_ofList

/-- Eight binary digits of a byte. -/
theorem selfDelimiting_binByte : SelfDelimiting fun b : UInt8 => (binPadded 8 b.toNat).toList := by
  have hdigits (b : UInt8) : binValue ((Nat.toDigits 2 b.toNat).leftpad 8 '0') = b.toNat ∧
      ((Nat.toDigits 2 b.toNat).leftpad 8 '0').length = 8 :=
    Bits.forall_byte b (by decide +kernel)
  simp only [toList_binPadded]
  refine selfDelimiting_of_length (fun b b' h => ?_) fun b b' => ?_
  · rw [← UInt8.toNat_inj, ← (hdigits b).1, h, (hdigits b').1]
  · rw [(hdigits b).2, (hdigits b').2]

theorem isDigit_of_mem_repr {n : ℕ} {c : Char} (h : c ∈ n.repr.toList) : c.isDigit = true := by
  rw [Nat.toList_repr] at h
  exact Nat.isDigit_of_mem_toDigits (by decide) le_rfl h

theorem decimal_injective : Function.Injective fun n : ℕ => n.repr.toList := by
  intro n n' h
  have h : n.repr.toList = n'.repr.toList := h
  rw [Nat.toList_repr, Nat.toList_repr] at h
  have htwo : 1 < 10 := by decide
  rw [← Nat.ofDigitChars_toDigits (n := n) htwo le_rfl, h, Nat.ofDigitChars_toDigits htwo le_rfl]

/-- Decimal digits end where there is no digit. -/
theorem endsBefore_decimal :
    EndsBefore (fun s => ∃ c ∈ s.head?, ¬ c.isDigit = true) fun n : ℕ => n.repr.toList :=
  endsBefore_of_notMem decimal_injective fun _ _ hc hnot => hnot (isDigit_of_mem_repr hc)

theorem diverge_decimal (n : ℕ) {v : List Char} (hv : ∃ c ∈ v.head?, ¬ c.isDigit = true) :
    Diverge n.repr.toList v := by
  refine diverge_of_stop ?_ (fun c hc hnot => hnot (isDigit_of_mem_repr hc)) hv
  rw [Nat.toList_repr]
  exact Nat.toDigits_ne_nil

end Rendering
