import EchonetBridge.Api.HexStringEquality

/-!
# Api/HexStringOrder — hex strings in order

Hex strings are ordered as texts.  The digits come before the letters, so that texts that are
written in one length are ordered by what they stand for (`cmp_fromBytes`).
-/

namespace Echonet

open BigEndian Outcome Text

/-! ## Digits -/

theorem compare_lowerHexDigit {x y : ℕ} (hx : x < 16) (hy : y < 16) :
    compare (lowerHexDigit x) (lowerHexDigit y) = compare x y := by
  have hall : ∀ x < 16, ∀ y < 16, compare (lowerHexDigit x) (lowerHexDigit y) = compare x y := by
    decide
  exact hall x hx y hy

/-- The two digits of a byte decide in turn. -/
theorem compare_digits (a b : UInt8) :
    (compare (lowerHexDigit (a.toNat / 16)) (lowerHexDigit (b.toNat / 16))).then
      (compare (lowerHexDigit (a.toNat % 16)) (lowerHexDigit (b.toNat % 16))) = compare a b := by
  have ha := a.toNat_lt
  have hb := b.toNat_lt
  rw [compare_lowerHexDigit (by omega) (by omega), compare_lowerHexDigit (by omega) (by omega),
    ← compare_mul_add (Nat.mod_lt _ (by decide)) (Nat.mod_lt _ (by decide)), Nat.div_add_mod',
    Nat.div_add_mod', compare_toNat]

namespace HexString

theorem compare_lowerDigits {as bs : List UInt8} (hlen : as.length = bs.length) :
    compare (lowerDigits as) (lowerDigits bs) = compare as bs := by
  induction as generalizing bs with
  | nil =>
    rw [List.length_eq_zero_iff.mp hlen.symm]
    rfl
  | cons a as ih =>
    cases bs with
    | nil => cases hlen
    | cons b bs =>
      have hcons (c : UInt8) (cs : List UInt8) : lowerDigits (c :: cs) =
          lowerHexDigit (c.toNat / 16) :: lowerHexDigit (c.toNat % 16) :: lowerDigits cs := rfl
      rw [hcons, hcons, List.compare_cons_cons, List.compare_cons_cons, ih (Nat.succ.inj hlen),
        ← Ordering.then_assoc, compare_digits, List.compare_cons_cons]

/-- **Hex strings of one length are ordered by their values**: what is written of two buffers, with
or without the zeros in front of them, compares as the numbers that the buffers spell. -/
theorem cmp_fromBytes {buf buf' : List UInt8} {len : ℕ} {isizeMax : Option ℕ} {h h' : HexString}
    (hok : fromBytes buf len isizeMax = .ok h) (hok' : fromBytes buf' len isizeMax = .ok h') :
    h.cmp h' = compare (beValue buf) (beValue buf') := by
  obtain ⟨padded, rfl, hlen, hvalue⟩ := fromBytes_eq_ok hok
  obtain ⟨padded', rfl, hlen', hvalue'⟩ := fromBytes_eq_ok hok'
  have hlength := hlen.trans hlen'.symm
  rw [← hvalue, ← hvalue', compare_beValue hlength, ← compare_lowerDigits hlength]
  rfl

/-- Of buffers of different lengths. -/
theorem cmp_fromBytes_padded :
    ∃ h h', fromBytes [0, 0, 0x9f] 2 = .ok h ∧ fromBytes [0xa0] 2 = .ok h' ∧ h.cmp h' = .lt := by
  have h : fromBytes [0, 0, 0x9f] 2 = .ok _ := rfl
  have h' : fromBytes [0xa0] 2 = .ok _ := rfl
  exact ⟨_, _, h, h', cmp_fromBytes h h'⟩

end HexString

end Echonet
