import EchonetBridge.Connectors.Collection

/-!
# Connectors/Netmasks — records without a netmask

The operating system reports the address and the netmask of a record apart.  A record without an
address is skipped, but the netmask is unwrapped, so that a record without one of its family ends
initialisation in a panic (`initialise_ne_panic_iff`), unless an unknown interface has ended it
before that.
-/

namespace Echonet

open Outcome

variable {config : AppNetworkConfiguration} {ifNametoindex : IfNametoindex}
  {ifaddrs : List InterfaceAddress} {ifaddr : InterfaceAddress}

/-! ## One record -/

/-- Looking up an index returns, with the index or with an error. -/
def IfNametoindex.Returns (ifNametoindex : IfNametoindex) : Prop :=
  ∀ i interfaceName, ifNametoindex i interfaceName ≠ .panic

/-- **One pass** skips a record that is not listened on; else it fails without an index, saves a
socket with an index and a netmask, and panics with an index alone. -/
theorem collect_cases (hreturns : ifNametoindex.Returns) (ilas : List InterfaceListenAddresses)
    (entry : InterfaceAddress × ℕ) :
    (¬ Listened config entry.1 ∧ IsOk (collect config ifNametoindex ilas entry)) ∨
    Listened config entry.1 ∧
      ((∃ e, ifNametoindex entry.2 entry.1.interfaceName = .err e ∧
        collect config ifNametoindex ilas entry = .err e) ∨
      IsOk (ifNametoindex entry.2 entry.1.interfaceName) ∧
        (HasMask entry.1 ∧ IsOk (collect config ifNametoindex ilas entry) ∨
          ¬ HasMask entry.1 ∧ collect config ifNametoindex ilas entry = .panic)) := by
  obtain ⟨ifaddr, i⟩ := entry
  by_cases h : Listened config ifaddr
  · obtain ⟨address, hstdnet, -⟩ := h.address
    refine Or.inr ⟨h, ?_⟩
    rw [collect_of_listened h hstdnet]
    cases hindex : ifNametoindex i ifaddr.interfaceName with
    | ok interfaceIndex =>
      refine Or.inr ⟨isOk_ok interfaceIndex, ?_⟩
      rw [ok_bind]
      by_cases hmask : HasMask ifaddr
      · obtain ⟨is, his, -⟩ := interfaceSocket_of_hasMask hmask hstdnet
        rw [his]
        exact Or.inl ⟨hmask, isOk_ok _⟩
      · rw [interfaceSocket_of_not_hasMask hmask hstdnet]
        exact Or.inr ⟨hmask, rfl⟩
    | err e => exact Or.inl ⟨e, rfl, rfl⟩
    | panic => exact absurd hindex (hreturns i ifaddr.interfaceName)
  · rw [collect_of_not_listened h]
    exact Or.inl ⟨h, isOk_ok ilas⟩

/-- A pass returns when the record is not listened on, or has an index and a netmask. -/
theorem isOk_collect_iff (hreturns : ifNametoindex.Returns)
    (ilas : List InterfaceListenAddresses) (entry : InterfaceAddress × ℕ) :
    IsOk (collect config ifNametoindex ilas entry) ↔
      (Listened config entry.1 →
        IsOk (ifNametoindex entry.2 entry.1.interfaceName) ∧ HasMask entry.1) := by
  rcases collect_cases hreturns ilas entry with
    ⟨h, hok⟩ | ⟨h, ⟨e, hindex, herr⟩ | ⟨hindex, ⟨hmask, hok⟩ | ⟨hmask, hpanic⟩⟩⟩
  · exact iff_of_true hok fun h' => absurd h' h
  · rw [herr, hindex]
    exact iff_of_false (not_isOk_err e) fun hboth => not_isOk_err e (hboth h).1
  · exact iff_of_true hok fun _ => ⟨hindex, hmask⟩
  · rw [hpanic]
    exact iff_of_false not_isOk_panic fun hboth => hmask (hboth h).2

/-- A pass panics when the record is listened on and has an index, but no netmask. -/
theorem collect_eq_panic_iff (hreturns : ifNametoindex.Returns)
    (ilas : List InterfaceListenAddresses) (entry : InterfaceAddress × ℕ) :
    collect config ifNametoindex ilas entry = .panic ↔
      Listened config entry.1 ∧ IsOk (ifNametoindex entry.2 entry.1.interfaceName) ∧
        ¬ HasMask entry.1 := by
  rcases collect_cases hreturns ilas entry with
    ⟨h, hok⟩ | ⟨h, ⟨e, hindex, herr⟩ | ⟨hindex, ⟨hmask, hok⟩ | ⟨hmask, hpanic⟩⟩⟩
  · exact iff_of_false hok.ne_panic fun hall => h hall.1
  · rw [herr, hindex]
    exact iff_of_false (fun hpanic => by cases hpanic) fun hall => not_isOk_err e hall.2.1
  · exact iff_of_false hok.ne_panic fun hall => hall.2.2 hmask
  · exact iff_of_true hpanic ⟨h, hindex, hmask⟩

/-! ## All records -/

theorem getElem?_zipIdx_eq_some_iff {α : Type} {l : List α} {i : ℕ} {entry : α × ℕ} :
    l.zipIdx[i]? = some entry ↔ l[i]? = some entry.1 ∧ entry.2 = i := by
  rw [List.getElem?_zipIdx, Option.map_eq_some_iff, Nat.zero_add]
  constructor
  · rintro ⟨a, ha, rfl⟩
    exact ⟨ha, rfl⟩
  · rintro ⟨ha, hi⟩
    exact ⟨entry.1, ha, by rw [← hi]⟩

theorem initialise_fst_eq_panic_iff (order : HashOrder InterfaceListenAddresses) (self : Network) :
    (Network.initialise config ifaddrs ifNametoindex order self).1 = .panic ↔
      ifaddrs.zipIdx.foldlM (collect config ifNametoindex) [] = .panic := by
  rw [Network.initialise]
  cases ifaddrs.zipIdx.foldlM (collect config ifNametoindex) [] with
  | ok ilas => exact iff_of_false (fun h => by cases h) fun h => by cases h
  | err e => exact iff_of_false (fun h => by cases h) fun h => by cases h
  | panic => exact iff_of_true rfl rfl

/-- Initialisation panics at the first record that is not saved, if its interface is known. -/
theorem initialise_eq_panic_iff (hreturns : ifNametoindex.Returns)
    (order : HashOrder InterfaceListenAddresses) (self : Network) :
    (Network.initialise config ifaddrs ifNametoindex order self).1 = .panic ↔
      ∃ i r, ifaddrs[i]? = some r ∧
        (Listened config r ∧ IsOk (ifNametoindex i r.interfaceName) ∧ ¬ HasMask r) ∧
        ∀ j < i, ∀ r', ifaddrs[j]? = some r' → Listened config r' →
          IsOk (ifNametoindex j r'.interfaceName) ∧ HasMask r' := by
  rw [initialise_fst_eq_panic_iff,
    foldlM_eq_panic_iff (isOk_collect_iff hreturns) (collect_eq_panic_iff hreturns)]
  constructor
  · rintro ⟨i, entry, hentry, hfails, hbefore⟩
    obtain ⟨hr, rfl⟩ := getElem?_zipIdx_eq_some_iff.mp hentry
    refine ⟨entry.2, entry.1, hr, hfails, fun j hj r' hr' => ?_⟩
    exact hbefore j hj (r', j) (getElem?_zipIdx_eq_some_iff.mpr ⟨hr', rfl⟩)
  · rintro ⟨i, r, hr, hfails, hbefore⟩
    refine ⟨i, (r, i), getElem?_zipIdx_eq_some_iff.mpr ⟨hr, rfl⟩, hfails, ?_⟩
    intro j hj entry hentry
    obtain ⟨hr', rfl⟩ := getElem?_zipIdx_eq_some_iff.mp hentry
    exact hbefore entry.2 hj entry.1 hr'

/-- The records that are listened on, up to an index, are those of known interfaces. -/
def KnownUpTo (config : AppNetworkConfiguration) (ifNametoindex : IfNametoindex)
    (ifaddrs : List InterfaceAddress) (i : ℕ) : Prop :=
  ∀ j ≤ i, ∀ r, ifaddrs[j]? = some r → Listened config r →
    IsOk (ifNametoindex j r.interfaceName)

/-- **Initialisation does not panic exactly when netmasks are there**: the records that are
listened on have a netmask of their family, as far as their interfaces are known. -/
theorem initialise_ne_panic_iff (hreturns : ifNametoindex.Returns)
    (order : HashOrder InterfaceListenAddresses) (self : Network) :
    (Network.initialise config ifaddrs ifNametoindex order self).1 ≠ .panic ↔
      ∀ i r, ifaddrs[i]? = some r → Listened config r →
        KnownUpTo config ifNametoindex ifaddrs i → HasMask r := by
  rw [ne_eq, initialise_eq_panic_iff hreturns]
  constructor
  · intro h i
    -- Below a record without a netmask there is a first one.
    induction i using Nat.strong_induction_on with
    | _ i ih =>
      intro r hr hlistened hknown
      by_contra hmask
      refine h ⟨i, r, hr, ⟨hlistened, hknown i le_rfl r hr hlistened, hmask⟩, ?_⟩
      intro j hj r' hr' hlistened'
      exact ⟨hknown j hj.le r' hr' hlistened',
        ih j hj r' hr' hlistened' fun k hk => hknown k (hk.trans hj.le)⟩
  · rintro h ⟨i, r, hr, ⟨hlistened, hindex, hmask⟩, hbefore⟩
    refine hmask (h i r hr hlistened fun j hj r' hr' hlistened' => ?_)
    rcases hj.lt_or_eq with hlt | rfl
    · exact (hbefore j hlt r' hr' hlistened').1
    · cases hr.symm.trans hr'
      exact hindex

theorem initialise_ne_panic_iff_interleaved :
    (Network.initialise ⟨none, false⟩ interleavedRecords
        (fun _ name => .ok (interleavedIndex name)) ⟨id, .refl⟩ ⟨none⟩).1 ≠ .panic ↔
      ∀ i r, interleavedRecords[i]? = some r → Listened ⟨none, false⟩ r →
        KnownUpTo ⟨none, false⟩ (fun _ name => .ok (interleavedIndex name)) interleavedRecords i →
          HasMask r :=
  initialise_ne_panic_iff (fun _ _ h => by cases h) _ _

/-- **One record without a netmask is enough.** -/
theorem initialise_unmasked_panic :
    (Network.initialise ⟨none, false⟩
      ((interleavedRecords.take 1).map fun r => { r with netmask := none })
      (fun _ name => .ok (interleavedIndex name)) ⟨id, .refl⟩ ⟨none⟩).1 = .panic := by
  rfl

end Echonet
