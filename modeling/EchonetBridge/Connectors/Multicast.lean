import EchonetBridge.Connectors.Collection
import EchonetBridge.Foundations.Selection
import Mathlib.Data.Prod.Lex

/-!
# Connectors/Multicast — the multicast address of each family

One number carries the index of a socket and the weight of its class, so a socket that is far down
the list loses to one of a worse class near its front.  The best socket is selected exactly when
none outruns it (`selectsBest_iff`), as on an interface of at most a thousand sockets.
-/

namespace Echonet

open Selection

/-! ## Classes of addresses -/

inductive Family where
  | v4
  | v6
  deriving DecidableEq

def IpAddr.family : IpAddr → Family
  | v4 _ => .v4
  | v6 _ => .v6

/-- What an address is good for, from the best down. -/
inductive AddressClass where
  | linkLocal
  /-- A private or a unique local address. -/
  | internal
  | globalish
  | other
  deriving DecidableEq

namespace AddressClass

def rank : AddressClass → ℕ
  | linkLocal => 0
  | internal => 1
  | globalish => 2
  | other => 3

/-- What is added to the index of a socket. -/
def weight : AddressClass → ℕ
  | linkLocal => 1000
  | internal => 2000
  | globalish => 3000
  | other => 5000

theorem rank_injective : Function.Injective rank := fun c d h => by
  cases c <;> cases d <;> first | rfl | cases h

/-- A worse class weighs a thousand more at least. -/
theorem weight_add_le {c d : AddressClass} (h : c.rank < d.rank) : c.weight + 1000 ≤ d.weight := by
  revert h
  cases c <;> cases d <;> decide

theorem weight_le (c : AddressClass) : c.weight ≤ 5000 := by
  cases c <;> decide

end AddressClass

def addressClass : IpAddr → AddressClass
  | .v4 ip =>
    if ip.isLinkLocal then .linkLocal else if ip.isPrivate then .internal
    else if isGlobalish4 ip then .globalish else .other
  | .v6 ip =>
    if ip.isUnicastLinkLocal then .linkLocal else if ip.isUniqueLocal then .internal
    else if isGlobalish6 ip then .globalish else .other

def InterfaceSocket.addressClass (e : InterfaceSocket) : AddressClass :=
  Echonet.addressClass e.address.ip

/-! ## The best socket -/

/-- A socket may be selected for a family. -/
structure Candidate (f : Family) (sockets : List InterfaceSocket) (i : ℕ) (e : InterfaceSocket) :
    Prop where
  get : sockets[i]? = some e
  family : e.address.ip.family = f
  capable : e.multicastCapable = true

/-- The earliest of the sockets of the best class. -/
structure IsBest (f : Family) (sockets : List InterfaceSocket) (b : ℕ) (e : InterfaceSocket) :
    Prop where
  candidate : Candidate f sockets b e
  best : ∀ j e', Candidate f sockets j e' → e.addressClass.rank ≤ e'.addressClass.rank
  earliest : ∀ j e', Candidate f sockets j e' → e'.addressClass = e.addressClass → b ≤ j

/-- One socket of a family is selected at most, and the best one if there is a candidate. -/
structure SelectsBest (f : Family) (sockets : List InterfaceSocket) : Prop where
  at_most_one : ∀ (i j : ℕ) (e e' : InterfaceSocket), sockets[i]? = some e →
    sockets[j]? = some e' → e.address.ip.family = f → e'.address.ip.family = f →
    e.multicastSelected = true → e'.multicastSelected = true → i = j
  best : (∃ i e, Candidate f sockets i e) →
    ∃ b e, IsBest f sockets b e ∧ e.multicastSelected = true

/-- The best socket is not so far down the list that it is excluded, or that one of a worse class
is preferred. -/
def NotOutrun (f : Family) (sockets : List InterfaceSocket) : Prop :=
  ∀ b e, IsBest f sockets b e → b + e.addressClass.weight < 1000000 ∧
    ∀ j e', Candidate f sockets j e' → e.addressClass.rank < e'.addressClass.rank →
      b + e.addressClass.weight < j + e'.addressClass.weight

/-- **A thousand sockets are not too many.** -/
theorem notOutrun_of_length {sockets : List InterfaceSocket} (h : sockets.length ≤ 1000)
    (f : Family) : NotOutrun f sockets := by
  intro b e hbest
  have hb : b < sockets.length := (List.getElem?_eq_some_iff.mp hbest.candidate.get).1
  refine ⟨?_, fun j e' _ hrank => ?_⟩
  · have := e.addressClass.weight_le
    omega
  · have := AddressClass.weight_add_le hrank
    omega

/-! ## The first candidate -/

section First

variable {measure : ℕ → AddressClass → ℕ} {f : Family} {sockets : List InterfaceSocket} {i j : ℕ}
  {e e' : InterfaceSocket}

/-- The candidate of the smallest measure, which is the earliest of them. -/
structure IsFirst (measure : ℕ → AddressClass → ℕ) (f : Family) (sockets : List InterfaceSocket)
    (i : ℕ) (e : InterfaceSocket) : Prop where
  candidate : Candidate f sockets i e
  first : ∀ j e', Candidate f sockets j e' →
    measure i e.addressClass < measure j e'.addressClass ∨
      measure i e.addressClass = measure j e'.addressClass ∧ i ≤ j

theorem IsFirst.unique (h : IsFirst measure f sockets i e) (h' : IsFirst measure f sockets j e') :
    i = j ∧ e = e' := by
  have hij : i = j := by
    have hle := h.first j e' h'.candidate
    have hge := h'.first i e h.candidate
    omega
  subst hij
  exact ⟨rfl, Option.some.inj (h.candidate.get.symm.trans h'.candidate.get)⟩

theorem exists_isFirst (measure : ℕ → AddressClass → ℕ) (h : Candidate f sockets i e) :
    ∃ b e', IsFirst measure f sockets b e' := by
  obtain ⟨_, ⟨b, e', hcandidate, rfl⟩, hmin⟩ := WellFounded.has_min
    (wellFounded_lt (α := ℕ ×ₗ ℕ))
    {k | ∃ j e', Candidate f sockets j e' ∧ k = toLex (measure j e'.addressClass, j)}
    ⟨_, i, e, h, rfl⟩
  refine ⟨b, e', hcandidate, fun j e'' hj => ?_⟩
  have hle := not_lt.mp (hmin _ ⟨j, e'', hj, rfl⟩)
  exact Prod.Lex.toLex_le_toLex.mp hle

/-- The best candidate is the first one by class. -/
theorem isBest_iff : IsBest f sockets i e ↔ IsFirst (fun _ c => c.rank) f sockets i e := by
  constructor
  · rintro ⟨hcandidate, hbest, hearliest⟩
    refine ⟨hcandidate, fun j e' hj => ?_⟩
    rcases (hbest j e' hj).lt_or_eq with hlt | heq
    · exact Or.inl hlt
    · exact Or.inr ⟨heq, hearliest j e' hj (AddressClass.rank_injective heq.symm)⟩
  · rintro ⟨hcandidate, hfirst⟩
    refine ⟨hcandidate, fun j e' hj => ?_, fun j e' hj hclass => ?_⟩
    · rcases hfirst j e' hj with hlt | ⟨heq, -⟩
      · exact hlt.le
      · exact heq.le
    · rcases hfirst j e' hj with hlt | ⟨-, hle⟩
      · rw [hclass] at hlt
        exact absurd hlt (lt_irrefl _)
      · exact hle

/-- The number that the candidates are sorted by. -/
def preference (i : ℕ) (c : AddressClass) : ℕ := i + c.weight

/-- The best candidate is the first one by preference exactly when none of a worse class is. -/
theorem IsBest.isFirst_iff (h : IsBest f sockets i e) :
    IsFirst preference f sockets i e ↔
      ∀ j e', Candidate f sockets j e' → e.addressClass.rank < e'.addressClass.rank →
        preference i e.addressClass < preference j e'.addressClass := by
  constructor
  · intro hfirst j e' hj hrank
    have hweight := AddressClass.weight_add_le hrank
    have hpref := hfirst.first j e' hj
    simp only [preference] at hpref ⊢
    omega
  · intro hworse
    refine ⟨h.candidate, fun j e' hj => ?_⟩
    rcases (h.best j e' hj).lt_or_eq with hlt | heq
    · exact Or.inl (hworse j e' hj hlt)
    · have hclass := AddressClass.rank_injective heq
      have hij := h.earliest j e' hj hclass.symm
      rw [hclass]
      simp only [preference]
      omega

end First

/-! ## The preferred socket -/

section Preferred

variable {f : Family} {sockets : List InterfaceSocket} {i : ℕ} {e : InterfaceSocket}

/-- The weight of a socket among those of a family. -/
def weightOf : Family → InterfaceSocket → ℕ
  | .v4 => weight4
  | .v6 => weight6

theorem weight_addressClass_v4 (ip : Ipv4Addr) :
    (addressClass (.v4 ip)).weight =
      if ip.isLinkLocal then 1000 else if ip.isPrivate then 2000
      else if isGlobalish4 ip then 3000 else 5000 := by
  rw [addressClass]
  split_ifs <;> rfl

theorem weight_addressClass_v6 (ip : Ipv6Addr) :
    (addressClass (.v6 ip)).weight =
      if ip.isUnicastLinkLocal then 1000 else if ip.isUniqueLocal then 2000
      else if isGlobalish6 ip then 3000 else 5000 := by
  rw [addressClass]
  split_ifs <;> rfl

theorem weightOf_eq (f : Family) (e : InterfaceSocket) :
    weightOf f e = if e.address.ip.family = f ∧ e.multicastCapable = true
      then e.addressClass.weight else 1000000 := by
  cases hip : e.address.ip with
  | v4 ip =>
    cases f <;>
      simp [weightOf, weight4, weight6, InterfaceSocket.addressClass, hip, IpAddr.family,
        weight_addressClass_v4]
  | v6 ip =>
    cases f <;>
      simp [weightOf, weight4, weight6, InterfaceSocket.addressClass, hip, IpAddr.family,
        weight_addressClass_v6]

theorem Candidate.weightOf (h : Candidate f sockets i e) :
    weightOf f e = e.addressClass.weight := by
  rw [weightOf_eq, if_pos ⟨h.family, h.capable⟩]

/-- A socket that is not excluded is a candidate. -/
theorem candidate_of_weightOf_lt (hget : sockets[i]? = some e) (h : weightOf f e < 1000000) :
    Candidate f sockets i e := by
  rw [weightOf_eq] at h
  split_ifs at h with hcandidate
  · exact ⟨hget, hcandidate.1, hcandidate.2⟩
  · exact absurd h (lt_irrefl _)

theorem mem_socketIndexes {weight : InterfaceSocket → ℕ} {p : ℕ} :
    (i, p) ∈ socketIndexes weight sockets ↔
      ∃ e, sockets[i]? = some e ∧ i + weight e = p ∧ p < 1000000 := by
  rw [socketIndexes, List.mem_filter, List.mem_map]
  constructor
  · rintro ⟨⟨⟨e, j⟩, hmem, heq⟩, hlt⟩
    cases heq
    exact ⟨e, List.mem_zipIdx_iff_getElem?.mp hmem, rfl, of_decide_eq_true hlt⟩
  · rintro ⟨e, hget, rfl, hlt⟩
    exact ⟨⟨(e, i), List.mem_zipIdx_iff_getElem?.mpr hget, rfl⟩, decide_eq_true hlt⟩

theorem pairwise_socketIndexes (weight : InterfaceSocket → ℕ) (sockets : List InterfaceSocket) :
    (socketIndexes weight sockets).Pairwise fun a b => a.1 < b.1 := by
  refine List.Pairwise.filter _ (List.pairwise_map.mpr ?_)
  have hsnd : (sockets.zipIdx.map Prod.snd).Pairwise (· < ·) := by
    rw [List.zipIdx_map_snd]
    exact List.pairwise_lt_range'
  exact List.pairwise_map.mp hsnd

/-- The index of the socket that is selected for a family. -/
def preferred (f : Family) (sockets : List InterfaceSocket) : Option ℕ :=
  ((socketIndexes (weightOf f) sockets).mergeSort fun a b => a.2 ≤ b.2).head?.map Prod.fst

/-- **What is preferred**: the first candidate by preference, if it is not excluded. -/
theorem preferred_eq_some_iff :
    preferred f sockets = some i ↔
      ∃ e, IsFirst preference f sockets i e ∧ preference i e.addressClass < 1000000 := by
  rw [preferred, Option.map_eq_some_iff]
  constructor
  · rintro ⟨⟨j, p⟩, hhead, rfl⟩
    obtain ⟨hmem, hmin⟩ := (isFirstMin_iff_of_increasing (pairwise_socketIndexes _ _)).mp
      (head?_mergeSort_iff.mp hhead)
    obtain ⟨e, hget, rfl, hlt⟩ := mem_socketIndexes.mp hmem
    have hcandidate : Candidate f sockets j e := candidate_of_weightOf_lt hget (by omega)
    rw [hcandidate.weightOf] at hlt hmin
    refine ⟨e, ⟨hcandidate, fun k e' hk => ?_⟩, hlt⟩
    by_cases hincluded : k + weightOf f e' < 1000000
    · have hle := hmin (k, k + weightOf f e') (mem_socketIndexes.mpr ⟨e', hk.get, rfl, hincluded⟩)
      rwa [hk.weightOf] at hle
    · rw [hk.weightOf] at hincluded
      exact Or.inl (hlt.trans_le (not_lt.mp hincluded))
  · rintro ⟨e, hfirst, hlt⟩
    refine ⟨(i, i + weightOf f e), head?_mergeSort_iff.mpr
      ((isFirstMin_iff_of_increasing (pairwise_socketIndexes _ _)).mpr ⟨?_, ?_⟩), rfl⟩
    · exact mem_socketIndexes.mpr
        ⟨e, hfirst.candidate.get, rfl, by rwa [hfirst.candidate.weightOf]⟩
    · rintro ⟨k, p⟩ hmem
      obtain ⟨e', hget, rfl, hincluded⟩ := mem_socketIndexes.mp hmem
      have hk : Candidate f sockets k e' := candidate_of_weightOf_lt hget (by omega)
      have hle := hfirst.first k e' hk
      rwa [preference, preference, ← hfirst.candidate.weightOf, ← hk.weightOf] at hle

end Preferred

/-! ## The selection -/

/-- A change of sockets that leaves the addresses and the capabilities. -/
structure Marks (mark : ℕ → InterfaceSocket → InterfaceSocket) : Prop where
  address : ∀ i e, (mark i e).address = e.address
  capable : ∀ i e, (mark i e).multicastCapable = e.multicastCapable

section Marks

variable {mark : ℕ → InterfaceSocket → InterfaceSocket} {f : Family}
  {sockets : List InterfaceSocket} {i : ℕ} {e e' : InterfaceSocket}

theorem getElem?_mapIdx_eq_some_iff :
    (sockets.mapIdx mark)[i]? = some e' ↔ ∃ e, sockets[i]? = some e ∧ mark i e = e' := by
  rw [List.getElem?_mapIdx, Option.map_eq_some_iff]

theorem Marks.addressClass (h : Marks mark) (i : ℕ) (e : InterfaceSocket) :
    (mark i e).addressClass = e.addressClass := by
  rw [InterfaceSocket.addressClass, h.address, InterfaceSocket.addressClass]

theorem Marks.candidate_iff (h : Marks mark) :
    Candidate f (sockets.mapIdx mark) i e' ↔ ∃ e, Candidate f sockets i e ∧ mark i e = e' := by
  constructor
  · rintro ⟨hget, hfamily, hcapable⟩
    obtain ⟨e, he, rfl⟩ := getElem?_mapIdx_eq_some_iff.mp hget
    rw [h.address] at hfamily
    rw [h.capable] at hcapable
    exact ⟨e, ⟨he, hfamily, hcapable⟩, rfl⟩
  · rintro ⟨e, hcandidate, rfl⟩
    refine ⟨getElem?_mapIdx_eq_some_iff.mpr ⟨e, hcandidate.get, rfl⟩, ?_, ?_⟩
    · rw [h.address]
      exact hcandidate.family
    · rw [h.capable]
      exact hcandidate.capable

theorem Marks.isFirst_iff (h : Marks mark) {measure : ℕ → AddressClass → ℕ} :
    IsFirst measure f (sockets.mapIdx mark) i e' ↔
      ∃ e, IsFirst measure f sockets i e ∧ mark i e = e' := by
  constructor
  · rintro ⟨hcandidate, hfirst⟩
    obtain ⟨e, he, rfl⟩ := h.candidate_iff.mp hcandidate
    refine ⟨e, ⟨he, fun j e' hj => ?_⟩, rfl⟩
    have hle := hfirst j (mark j e') (h.candidate_iff.mpr ⟨e', hj, rfl⟩)
    rwa [h.addressClass, h.addressClass] at hle
  · rintro ⟨e, ⟨hcandidate, hfirst⟩, rfl⟩
    refine ⟨h.candidate_iff.mpr ⟨e, hcandidate, rfl⟩, fun j e' hj => ?_⟩
    obtain ⟨e', he', rfl⟩ := h.candidate_iff.mp hj
    rw [h.addressClass, h.addressClass]
    exact hfirst j e' he'

theorem Marks.preferred (h : Marks mark) (f : Family) (sockets : List InterfaceSocket) :
    preferred f (sockets.mapIdx mark) = preferred f sockets := by
  ext i
  rw [preferred_eq_some_iff, preferred_eq_some_iff]
  constructor
  · rintro ⟨e', hfirst, hlt⟩
    obtain ⟨e, he, rfl⟩ := h.isFirst_iff.mp hfirst
    rw [h.addressClass] at hlt
    exact ⟨e, he, hlt⟩
  · rintro ⟨e, hfirst, hlt⟩
    refine ⟨mark i e, h.isFirst_iff.mpr ⟨e, hfirst, rfl⟩, ?_⟩
    rwa [h.addressClass]

end Marks

section Select

variable {f : Family} {sockets : List InterfaceSocket} {i b : ℕ} {e : InterfaceSocket}

/-- Select the sockets whose indexes satisfy a condition. -/
def selectIf (p : ℕ → Prop) [DecidablePred p] (i : ℕ) (e : InterfaceSocket) : InterfaceSocket :=
  if p i then e.select else e

theorem marks_selectIf (p : ℕ → Prop) [DecidablePred p] : Marks (selectIf p) where
  address i e := by
    rw [selectIf]
    split <;> rfl
  capable i e := by
    rw [selectIf]
    split <;> rfl

theorem selectPreferred_eq (f : Family) (sockets : List InterfaceSocket) :
    selectPreferred (weightOf f) sockets
      = sockets.mapIdx (selectIf fun i => preferred f sockets = some i) := by
  refine List.ext_getElem? fun i => ?_
  rw [selectPreferred, List.getElem?_mapIdx, preferred]
  cases hhead : ((socketIndexes (weightOf f) sockets).mergeSort fun a b => a.2 ≤ b.2).head? with
  | none => cases sockets[i]? <;> simp [selectIf]
  | some entry =>
    rw [List.getElem?_modify]
    cases sockets[i]? <;> simp [selectIf]

/-- Select the sockets that are preferred, of both families. -/
def selectBoth (sockets : List InterfaceSocket) : ℕ → InterfaceSocket → InterfaceSocket :=
  selectIf fun i => preferred .v4 sockets = some i ∨ preferred .v6 sockets = some i

theorem marks_selectBoth (sockets : List InterfaceSocket) : Marks (selectBoth sockets) :=
  marks_selectIf _

/-- The two passes together. -/
theorem selectMulticast_eq (sockets : List InterfaceSocket) :
    selectMulticast sockets = sockets.mapIdx (selectBoth sockets) := by
  have hv4 : selectPreferred weight4 sockets = _ := selectPreferred_eq .v4 sockets
  have hv6 : selectPreferred weight6 (selectPreferred weight4 sockets) = _ :=
    selectPreferred_eq .v6 (selectPreferred weight4 sockets)
  rw [selectMulticast, hv6, hv4, (marks_selectIf _).preferred, List.mapIdx_mapIdx]
  congr 1
  funext i e
  by_cases h4 : preferred .v4 sockets = some i
  · by_cases h6 : preferred .v6 sockets = some i
    · simp [selectBoth, selectIf, h4, h6, InterfaceSocket.select]
    · simp [selectBoth, selectIf, h4, h6]
  · simp [selectBoth, selectIf, h4]

theorem family_of_preferred (h : preferred f sockets = some i) (hget : sockets[i]? = some e) :
    e.address.ip.family = f := by
  obtain ⟨e', hfirst, -⟩ := preferred_eq_some_iff.mp h
  have heq : e = e' := Option.some.inj (hget.symm.trans hfirst.candidate.get)
  rw [heq]
  exact hfirst.candidate.family

/-- A socket of a family is selected exactly when it is the one that the family prefers. -/
theorem selected_iff (hunselected : ∀ e ∈ sockets, e.multicastSelected = false)
    (hget : sockets[i]? = some e) (hfamily : e.address.ip.family = f) :
    (selectBoth sockets i e).multicastSelected = true ↔ preferred f sockets = some i := by
  have hfalse := hunselected e (List.mem_of_getElem? hget)
  have hiff : (preferred .v4 sockets = some i ∨ preferred .v6 sockets = some i) ↔
      preferred f sockets = some i := by
    constructor
    · rintro (h | h)
      · rwa [← hfamily, family_of_preferred h hget]
      · rwa [← hfamily, family_of_preferred h hget]
    · intro h
      cases f with
      | v4 => exact Or.inl h
      | v6 => exact Or.inr h
  rw [selectBoth, selectIf, ← hiff]
  split_ifs with h
  · exact iff_of_true rfl h
  · exact iff_of_false (by rw [hfalse]; exact Bool.false_ne_true) h

theorem preferred_of_isBest (h : IsBest f sockets b e) :
    preferred f sockets = some b ↔
      b + e.addressClass.weight < 1000000 ∧
        ∀ j e', Candidate f sockets j e' → e.addressClass.rank < e'.addressClass.rank →
          b + e.addressClass.weight < j + e'.addressClass.weight := by
  have hfirst := h.isFirst_iff
  simp only [preference] at hfirst
  rw [preferred_eq_some_iff, ← hfirst]
  constructor
  · rintro ⟨e', he', hlt⟩
    have heq : e' = e := Option.some.inj (he'.candidate.get.symm.trans h.candidate.get)
    rw [heq] at he' hlt
    exact ⟨hlt, he'⟩
  · rintro ⟨hlt, he⟩
    exact ⟨e, he, hlt⟩

/-- One socket of a family is selected at most. -/
theorem selected_at_most_one (hunselected : ∀ e ∈ sockets, e.multicastSelected = false)
    {e' : InterfaceSocket} {j : ℕ} (hi : (selectMulticast sockets)[i]? = some e)
    (hj : (selectMulticast sockets)[j]? = some e') (hfi : e.address.ip.family = f)
    (hfj : e'.address.ip.family = f) (hsi : e.multicastSelected = true)
    (hsj : e'.multicastSelected = true) : i = j := by
  rw [selectMulticast_eq] at hi hj
  obtain ⟨a, ha, rfl⟩ := getElem?_mapIdx_eq_some_iff.mp hi
  obtain ⟨b, hb, rfl⟩ := getElem?_mapIdx_eq_some_iff.mp hj
  rw [(marks_selectBoth sockets).address] at hfi hfj
  have hpi := (selected_iff hunselected ha hfi).mp hsi
  have hpj := (selected_iff hunselected hb hfj).mp hsj
  exact Option.some.inj (hpi.symm.trans hpj)

/-- The best socket stays the best one. -/
theorem isBest_selectMulticast {e' : InterfaceSocket} :
    IsBest f (selectMulticast sockets) b e' ↔
      ∃ e, IsBest f sockets b e ∧ selectBoth sockets b e = e' := by
  rw [selectMulticast_eq, isBest_iff, (marks_selectBoth sockets).isFirst_iff]
  simp only [isBest_iff]

/-- **The best socket is selected exactly when none outruns it.** -/
theorem selectsBest_iff (hunselected : ∀ e ∈ sockets, e.multicastSelected = false) (f : Family) :
    SelectsBest f (selectMulticast sockets) ↔ NotOutrun f sockets := by
  have hcandidates : (∃ i e, Candidate f (selectMulticast sockets) i e) ↔
      ∃ b e, IsBest f sockets b e := by
    rw [selectMulticast_eq]
    constructor
    · rintro ⟨i, _, hi⟩
      obtain ⟨e, he, -⟩ := (marks_selectBoth sockets).candidate_iff.mp hi
      obtain ⟨b, e', hfirst⟩ := exists_isFirst (fun _ c => c.rank) he
      exact ⟨b, e', isBest_iff.mpr hfirst⟩
    · rintro ⟨b, e, hbest⟩
      exact ⟨b, _, (marks_selectBoth sockets).candidate_iff.mpr ⟨e, hbest.candidate, rfl⟩⟩
  have hselected : ∀ {b e}, IsBest f sockets b e →
      ((selectBoth sockets b e).multicastSelected = true ↔ preferred f sockets = some b) :=
    fun hbest => selected_iff hunselected hbest.candidate.get hbest.candidate.family
  constructor
  · intro h b e hbest
    obtain ⟨b', _, hbest', hsel⟩ := h.best (hcandidates.mpr ⟨b, e, hbest⟩)
    obtain ⟨e', he', rfl⟩ := isBest_selectMulticast.mp hbest'
    obtain ⟨rfl, rfl⟩ := (isBest_iff.mp he').unique (isBest_iff.mp hbest)
    exact (preferred_of_isBest hbest).mp ((hselected hbest).mp hsel)
  · intro h
    refine ⟨fun i j e e' => selected_at_most_one hunselected, fun hcandidate => ?_⟩
    obtain ⟨b, e, hbest⟩ := hcandidates.mp hcandidate
    exact ⟨b, _, isBest_selectMulticast.mpr ⟨e, hbest, rfl⟩,
      (hselected hbest).mpr ((preferred_of_isBest hbest).mpr (h b e hbest))⟩

end Select

/-! ## After initialisation -/

section Initialised

variable {config : AppNetworkConfiguration} {ifNametoindex : IfNametoindex}

/-- No socket of an interface is selected yet. -/
def InterfaceListenAddresses.Unselected (ila : InterfaceListenAddresses) : Prop :=
  ∀ e ∈ ila.sockets, e.multicastSelected = false

theorem unselected_of_loop {ifaddrs : List InterfaceAddress}
    {groups : List InterfaceListenAddresses}
    (h : ifaddrs.zipIdx.foldlM (collect config ifNametoindex) [] = .ok groups) :
    ∀ ila ∈ groups, ila.Unselected :=
  forall_sockets_of_loop (fun hsocket => (of_interfaceSocket hsocket).1) h

/-- **The multicast address of each family**: on every interface that initialisation leaves, the
best socket is selected exactly when none outran it among the collected ones. -/
theorem initialise_selectsBest_iff {ifaddrs : List InterfaceAddress}
    (order : HashOrder InterfaceListenAddresses) (self : Network)
    {ilas : List InterfaceListenAddresses}
    (h : Network.initialise config ifaddrs ifNametoindex order self = (.ok (), ⟨some ilas⟩)) :
    ∃ groups, ifaddrs.zipIdx.foldlM (collect config ifNametoindex) [] = .ok groups ∧
      ilas = (order.list groups).map InterfaceListenAddresses.selectMulticast ∧
      ∀ ila ∈ groups, ∀ f,
        SelectsBest f ila.selectMulticast.sockets ↔ NotOutrun f ila.sockets := by
  obtain ⟨groups, hloop, hnetwork⟩ := initialise_eq_ok_iff.mp h
  cases hnetwork
  exact ⟨groups, hloop, rfl, fun ila hila => selectsBest_iff (unselected_of_loop hloop ila hila)⟩

theorem initialise_selectsBest_iff_interleaved :
    ∃ groups, interleavedRecords.zipIdx.foldlM
        (collect ⟨none, false⟩ fun _ name => .ok (interleavedIndex name)) [] = .ok groups ∧
      (collected ⟨none, false⟩ interleavedIndex interleavedRecords).reverse.map
          InterfaceListenAddresses.selectMulticast
        = groups.reverse.map InterfaceListenAddresses.selectMulticast ∧
      ∀ ila ∈ groups, ∀ f,
        SelectsBest f ila.selectMulticast.sockets ↔ NotOutrun f ila.sockets :=
  initialise_selectsBest_iff ⟨List.reverse, List.reverse_perm⟩ ⟨none⟩
    (initialise_eq hasMask_interleavedRecords (fun _ _ => rfl) _ _)

end Initialised

/-! ## A socket that is outrun -/

/-- A thousand private addresses, and then a link-local one. -/
def crowdedAddress (n : ℕ) : Ipv4Addr :=
  if n < 1000 then ⟨#v[10, 0, .ofNat ((n + 1) / 256), .ofNat (n + 1)]⟩ else ⟨#v[169, 254, 0, 1]⟩

def crowdedRecord (n : ℕ) : InterfaceAddress :=
  ipv4Record "eth0" noNul_eth0 (crowdedAddress n) netmask16

def crowdedRecords : List InterfaceAddress := (List.range 1001).map crowdedRecord

theorem addressClass_crowded (n : ℕ) :
    addressClass (.v4 (crowdedAddress n)) = if n < 1000 then .internal else .linkLocal := by
  rw [crowdedAddress]
  split <;> rfl

theorem listened_crowded (n : ℕ) : Listened ⟨none, false⟩ (crowdedRecord n) where
  up := rfl
  running := rfl
  not_loopback := rfl
  not_skipped h := by cases h
  named _ h := by cases h
  address := by
    refine ⟨_, rfl, ?_, fun _ h => by cases h⟩
    change (crowdedAddress n).isLoopback = false
    rw [crowdedAddress]
    split <;> rfl

theorem ListensOn.crowded {n : ℕ} {is : InterfaceSocket}
    (h : ListensOn ⟨none, false⟩ (crowdedRecord n) is) :
    is.address.ip = .v4 (crowdedAddress n) ∧ is.multicastCapable = true := by
  refine ⟨?_, h.capable⟩
  rw [← Option.some.inj h.address]
  rfl

theorem outrun_crowded {sockets : List InterfaceSocket}
    (h : List.Forall₂ (fun n is => ListensOn ⟨none, false⟩ (crowdedRecord n) is)
      (List.range 1001) sockets) : ¬ NotOutrun .v4 sockets := by
  have hlen : sockets.length = 1001 := by rw [← h.length_eq, List.length_range]
  have hget : ∀ (i : ℕ) (e : InterfaceSocket), sockets[i]? = some e →
      e.address.ip = .v4 (crowdedAddress i) ∧ e.multicastCapable = true := fun i e he => by
    obtain ⟨hi, rfl⟩ := List.getElem?_eq_some_iff.mp he
    have hlistens := (List.forall₂_iff_get.mp h).2 i (by simpa [hlen] using hi) hi
    rw [List.get_eq_getElem, List.getElem_range] at hlistens
    exact hlistens.crowded
  have hcandidate : ∀ i, i < 1001 → ∃ e, Candidate .v4 sockets i e := fun i hi => by
    have he : sockets[i]? = some (sockets[i]) := List.getElem?_eq_getElem (by omega)
    have hip := hget i _ he
    exact ⟨_, he, by rw [hip.1]; rfl, hip.2⟩
  have hclass : ∀ {i e}, Candidate .v4 sockets i e →
      e.addressClass = if i < 1000 then .internal else .linkLocal := fun {i e} he => by
    rw [InterfaceSocket.addressClass, (hget i e he.get).1, addressClass_crowded]
  obtain ⟨near, hnear⟩ := hcandidate 0 (by omega)
  obtain ⟨far, hfar⟩ := hcandidate 1000 (by omega)
  have hnearClass : near.addressClass = .internal := (hclass hnear).trans (if_pos (by omega))
  have hfarClass : far.addressClass = .linkLocal := (hclass hfar).trans (if_neg (by omega))
  have hbest : IsBest .v4 sockets 1000 far := by
    refine ⟨hfar, fun j e _ => ?_, fun j e hj hsame => ?_⟩
    · rw [hfarClass]
      exact Nat.zero_le _
    · rw [hclass hj, hfarClass] at hsame
      by_contra hlt
      rw [if_pos (by omega)] at hsame
      cases hsame
  intro h
  have houtrun := (h 1000 far hbest).2 0 near hnear
  rw [hnearClass, hfarClass] at houtrun
  exact absurd (houtrun (by decide)) (by decide)

/-- **A socket may be outrun**: the link-local address at index 1000 ties with the private one at
index 0, which is selected. -/
theorem crowded_linkLocal_outrun :
    ∃ ilas, Network.initialise ⟨none, false⟩ crowdedRecords (fun _ _ => .ok 2) ⟨id, .refl⟩ ⟨none⟩
        = (.ok (), ⟨some ilas⟩) ∧
      ∃ ila ∈ ilas, ¬ SelectsBest .v4 ila.sockets := by
  have hmask : ∀ r ∈ crowdedRecords, HasMask r := by
    simp [crowdedRecords, crowdedRecord, hasMask_ipv4Record]
  have hindex : ∀ i name, (fun _ _ => .ok 2 : IfNametoindex) i name = .ok ((fun _ => 2) name) :=
    fun _ _ => rfl
  have hall : recordsOf ⟨none, false⟩ (fun _ => 2) 2 crowdedRecords = crowdedRecords := by
    refine List.filter_eq_self.mpr fun r hr => ?_
    obtain ⟨n, -, rfl⟩ := List.mem_map.mp hr
    exact decide_eq_true ⟨listened_crowded n, rfl⟩
  obtain ⟨-, hindexes, hgroups⟩ := collected_groups ⟨none, false⟩ (fun _ => 2) hmask
  have hfirst : crowdedRecord 0 ∈ crowdedRecords :=
    List.mem_map_of_mem (List.mem_range.mpr (by omega))
  obtain ⟨ila, hila, hk⟩ := (hindexes 2).mpr ⟨_, hfirst, listened_crowded 0, rfl⟩
  have hsockets := hgroups ila hila
  rw [hk, hall, crowdedRecords, List.forall₂_map_left_iff] at hsockets
  have hunselected := unselected_of_loop (foldlM_collect hmask hindex) ila hila
  refine ⟨_, initialise_eq hmask hindex _ _, ila.selectMulticast,
    List.mem_map_of_mem ((HashOrder.perm _ _).mem_iff.mpr hila), ?_⟩
  rw [InterfaceListenAddresses.selectMulticast, selectsBest_iff hunselected]
  exact outrun_crowded (hsockets.imp fun _ _ h => h.1)

end Echonet
