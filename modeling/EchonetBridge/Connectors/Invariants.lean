import EchonetBridge.Connectors.Memberships
import EchonetBridge.Connectors.Multicast

/-!
# Connectors/Invariants — what holds of the network at all times

The network may be initialised, connected and disconnected in any order, with any configuration and
whatever the operating system reports and answers.  It is well formed throughout
(`wellFormed_run`): a multicast group is never joined twice on one interface.
-/

namespace Echonet

open Outcome Visit

/-! ## Well-formed networks -/

/-- The network of a socket is that of its address, which is not a loopback address, and it is
selected only if it is capable. -/
structure InterfaceSocket.WellFormed (is : InterfaceSocket) : Prop where
  network : toNetwork is.address is.netmask = .ok is.network
  not_loopback : is.address.ip.isLoopback = false
  capable : is.multicastSelected = true → is.multicastCapable = true

def InterfaceSocket.family (is : InterfaceSocket) : Family := is.address.ip.family

def Membership.family : Membership → Family
  | v4 _ _ => .v4
  | v6 _ _ => .v6

/-- An interface has sockets, of which one of each family is selected at most. -/
structure InterfaceListenAddresses.WellFormed (ila : InterfaceListenAddresses) : Prop where
  listened : ila.sockets ≠ []
  sockets : ∀ is ∈ ila.sockets, is.WellFormed
  once : ((ila.sockets.filter (·.multicastSelected)).map InterfaceSocket.family).Nodup

/-- There is one entry for an interface. -/
structure Network.WellFormed (network : Network) : Prop where
  distinct : Grouping.Distinct (·.interfaceIndex) (network.ilas.getD [])
  interfaces : ∀ ila ∈ network.ilas.getD [], ila.WellFormed

/-! ## What is collected -/

/-- An interface while its addresses are collected: none is selected yet. -/
structure InterfaceListenAddresses.Collected (ila : InterfaceListenAddresses) : Prop where
  listened : ila.sockets ≠ []
  sockets : ∀ is ∈ ila.sockets, is.WellFormed ∧ is.multicastSelected = false

theorem wellFormed_interfaceSocket {config : AppNetworkConfiguration} {ifaddr : InterfaceAddress}
    {address : SocketAddr} {is : InterfaceSocket}
    (haddress : listenAddress config ifaddr = some address)
    (h : interfaceSocket ifaddr address = .ok is) :
    is.WellFormed ∧ is.multicastSelected = false := by
  have hunselected := (of_interfaceSocket h).1
  rw [interfaceSocket, bind_eq_ok] at h
  obtain ⟨netmask, -, h⟩ := h
  split at h
  · next network hnetwork =>
    cases h
    obtain ⟨hlistened, hsame⟩ := (listenAddress_eq_some_iff _ _ _).mp haddress
    obtain ⟨address', haddress', hloopback, -⟩ := hlistened.address
    obtain rfl := Option.some.inj (hsame.symm.trans haddress')
    exact ⟨⟨hnetwork, hloopback, fun h => absurd h Bool.false_ne_true⟩, rfl⟩
  · cases h

/-- One pass of the loop collects sockets that are well formed. -/
theorem collected_collect {config : AppNetworkConfiguration} {ifNametoindex : IfNametoindex}
    {ilas ilas' : List InterfaceListenAddresses} {entry : InterfaceAddress × ℕ}
    (hilas : Grouping.Distinct (·.interfaceIndex) ilas ∧ ∀ ila ∈ ilas, ila.Collected)
    (h : collect config ifNametoindex ilas entry = .ok ilas') :
    Grouping.Distinct (·.interfaceIndex) ilas' ∧ ∀ ila ∈ ilas', ila.Collected := by
  obtain ⟨hdistinct, hcollected⟩ := hilas
  rw [collect] at h
  split at h
  · cases h
    exact ⟨hdistinct, hcollected⟩
  · next address haddress =>
    obtain ⟨interfaceName, -, h⟩ := bind_eq_ok.mp h
    obtain ⟨interfaceIndex, -, h⟩ := bind_eq_ok.mp h
    obtain ⟨saved, hsaved, h⟩ := bind_eq_ok.mp h
    cases h
    refine ⟨hdistinct.update _ _, Grouping.forall_mem_update_of hcollected fun ila hila => ?_⟩
    refine ⟨List.append_ne_nil_of_right_ne_nil _ (List.cons_ne_nil _ _), fun is his => ?_⟩
    rcases List.mem_append.mp his with his | his
    · rcases hila with rfl | hila
      · cases his
      · exact hila.sockets is his
    · rw [List.mem_singleton.mp his]
      exact wellFormed_interfaceSocket haddress hsaved

/-- The loop collects sockets that are well formed. -/
theorem collected_loop {config : AppNetworkConfiguration} {ifNametoindex : IfNametoindex}
    {ifaddrs : List InterfaceAddress} {groups : List InterfaceListenAddresses}
    (h : ifaddrs.zipIdx.foldlM (collect config ifNametoindex) [] = .ok groups) :
    Grouping.Distinct (·.interfaceIndex) groups ∧ ∀ ila ∈ groups, ila.Collected := by
  refine foldlM_preserves (fun _ _ _ => collected_collect) ?_ h
  exact ⟨List.nodup_nil, fun _ hila => absurd hila List.not_mem_nil⟩

/-! ## What is selected -/

section Select

variable {sockets : List InterfaceSocket}

/-- Selecting changes nothing but whether a socket is selected. -/
theorem network_selectBoth (sockets : List InterfaceSocket) (i : ℕ) (e : InterfaceSocket) :
    (selectBoth sockets i e).network = e.network ∧
      (selectBoth sockets i e).netmask = e.netmask := by
  rw [selectBoth, selectIf]
  split
  · exact ⟨rfl, rfl⟩
  · exact ⟨rfl, rfl⟩

theorem wellFormed_selectMulticast
    (h : ∀ is ∈ sockets, is.WellFormed ∧ is.multicastSelected = false) :
    ∀ is ∈ selectMulticast sockets, is.WellFormed := by
  intro is' his'
  rw [selectMulticast_eq] at his'
  obtain ⟨i, hi⟩ := List.mem_iff_getElem?.mp his'
  obtain ⟨is, his, rfl⟩ := getElem?_mapIdx_eq_some_iff.mp hi
  have hmark := marks_selectBoth sockets
  obtain ⟨hnetwork, hnetmask⟩ := network_selectBoth sockets i is
  obtain ⟨hformed, -⟩ := h is (List.mem_of_getElem? his)
  refine ⟨?_, ?_, fun hselected => ?_⟩
  · rw [hmark.address, hnetmask, hnetwork]
    exact hformed.network
  · rw [hmark.address]
    exact hformed.not_loopback
  · obtain ⟨e, hfirst, -⟩ := preferred_eq_some_iff.mp <|
      (selected_iff (fun e he => (h e he).2) his rfl).mp hselected
    obtain rfl := Option.some.inj (his.symm.trans hfirst.candidate.get)
    rw [hmark.capable]
    exact hfirst.candidate.capable

/-- The selected sockets are of different families. -/
theorem once_selectMulticast (h : ∀ is ∈ sockets, is.multicastSelected = false) :
    (((selectMulticast sockets).filter (·.multicastSelected)).map
      InterfaceSocket.family).Nodup := by
  rw [List.Nodup, List.pairwise_map, List.pairwise_filter, List.pairwise_iff_getElem]
  intro i j hi hj hlt hselected hselected' hfamily
  have hsame := selected_at_most_one h (List.getElem?_eq_getElem hi) (List.getElem?_eq_getElem hj)
    hfamily rfl hselected hselected'
  exact absurd hsame (Nat.ne_of_lt hlt)

end Select

theorem InterfaceListenAddresses.Collected.select {ila : InterfaceListenAddresses}
    (h : ila.Collected) : ila.selectMulticast.WellFormed where
  listened := by
    rw [InterfaceListenAddresses.selectMulticast, selectMulticast_eq, ne_eq,
      List.mapIdx_eq_nil_iff]
    exact h.listened
  sockets := wellFormed_selectMulticast h.sockets
  once := once_selectMulticast fun is his => (h.sockets is his).2

namespace Network

/-! ## Operations -/

/-- An operation on the network, with what the operating system reports and answers. -/
inductive Op where
  | initialise (config : AppNetworkConfiguration) (ifaddrs : List InterfaceAddress)
      (ifNametoindex : IfNametoindex) (order : HashOrder InterfaceListenAddresses)
  | connect (os : SocketCalls)
  | disconnect (os : SocketCalls)

/-- The network after an operation, whether that returned or not. -/
def step (self : Network) : Op → Network
  | .initialise config ifaddrs ifNametoindex order =>
    (initialise config ifaddrs ifNametoindex order self).2
  | .connect os => (self.connect os).2
  | .disconnect os => (self.disconnect os).2

/-- The network after some operations. -/
def run (self : Network) (ops : List Op) : Network := ops.foldl step self

variable {self network : Network}

theorem wellFormed_new : new.WellFormed :=
  ⟨List.nodup_nil, fun _ hila => absurd hila List.not_mem_nil⟩

theorem wellFormed_initialise {config : AppNetworkConfiguration} {ifaddrs : List InterfaceAddress}
    {ifNametoindex : IfNametoindex} {order : HashOrder InterfaceListenAddresses}
    (h : initialise config ifaddrs ifNametoindex order self = (.ok (), network)) :
    network.WellFormed := by
  obtain ⟨groups, hloop, rfl⟩ := initialise_eq_ok_iff.mp h
  obtain ⟨hdistinct, hcollected⟩ := collected_loop hloop
  have hperm := order.perm groups
  constructor
  · rw [Option.getD_some, Grouping.Distinct, List.map_map]
    exact (hperm.map _).nodup_iff.mpr hdistinct
  · intro ila hila
    obtain ⟨group, hgroup, rfl⟩ := List.mem_map.mp hila
    exact (hcollected group (hperm.mem_iff.mp hgroup)).select

/-- When initialisation fails, nothing is saved. -/
theorem initialise_of_not_ok {config : AppNetworkConfiguration} {ifaddrs : List InterfaceAddress}
    {ifNametoindex : IfNametoindex} {order : HashOrder InterfaceListenAddresses}
    (h : (initialise config ifaddrs ifNametoindex order self).1 ≠ .ok ()) :
    (initialise config ifaddrs ifNametoindex order self).2 = self := by
  rw [initialise] at h ⊢
  split at h
  · exact absurd rfl h
  · rfl
  · rfl

/-! ## Open or closed -/

theorem wellFormed_close_ila (ila : InterfaceListenAddresses) :
    ila.close.WellFormed ↔ ila.WellFormed := by
  have hsockets : (∀ is ∈ ila.close.sockets, is.WellFormed) ↔
      ∀ is ∈ ila.sockets, is.WellFormed := by
    rw [InterfaceListenAddresses.close, List.forall_mem_map]
    exact forall₂_congr fun is _ => ⟨fun h => ⟨h.network, h.not_loopback, h.capable⟩,
      fun h => ⟨h.network, h.not_loopback, h.capable⟩⟩
  have honce : ((ila.close.sockets.filter (·.multicastSelected)).map InterfaceSocket.family)
      = (ila.sockets.filter (·.multicastSelected)).map InterfaceSocket.family := by
    rw [InterfaceListenAddresses.close, List.filter_map, List.map_map]
    rfl
  have hlistened : ila.close.sockets ≠ [] ↔ ila.sockets ≠ [] := by
    rw [InterfaceListenAddresses.close, ne_eq, List.map_eq_nil_iff]
  constructor
  · intro h
    exact ⟨hlistened.mp h.listened, hsockets.mp h.sockets, honce ▸ h.once⟩
  · intro h
    exact ⟨hlistened.mpr h.listened, hsockets.mpr h.sockets, honce.symm ▸ h.once⟩

/-- Whether sockets are open does not matter. -/
theorem wellFormed_close_iff : self.close.WellFormed ↔ self.WellFormed := by
  have hilas : self.close.ilas.getD []
      = (self.ilas.getD []).map InterfaceListenAddresses.close := by
    cases hilas : self.ilas <;> simp [close, hilas]
  constructor
  · rintro ⟨hdistinct, hinterfaces⟩
    rw [hilas, Grouping.Distinct, List.map_map] at hdistinct
    rw [hilas, List.forall_mem_map] at hinterfaces
    exact ⟨hdistinct, fun ila hila => (wellFormed_close_ila ila).mp (hinterfaces ila hila)⟩
  · rintro ⟨hdistinct, hinterfaces⟩
    constructor
    · rw [hilas, Grouping.Distinct, List.map_map]
      exact hdistinct
    · rw [hilas, List.forall_mem_map]
      exact fun ila hila => (wellFormed_close_ila ila).mpr (hinterfaces ila hila)

/-- **Every operation** leaves a well-formed network well formed. -/
theorem wellFormed_step (h : self.WellFormed) (op : Op) : (self.step op).WellFormed := by
  cases op with
  | initialise config ifaddrs ifNametoindex order =>
    by_cases hok : (initialise config ifaddrs ifNametoindex order self).1 = .ok ()
    · exact wellFormed_initialise (Prod.ext hok rfl)
    · rw [step, initialise_of_not_ok hok]
      exact h
  | connect os =>
    have hclose : (self.connect os).2.close = self.close := close_forEachSocket keeps_connectSocket
    rw [step, ← wellFormed_close_iff, hclose, wellFormed_close_iff]
    exact h
  | disconnect os =>
    have hclose : (self.disconnect os).2.close = self.close :=
      close_forEachSocket keeps_disconnectSocket
    rw [step, ← wellFormed_close_iff, hclose, wellFormed_close_iff]
    exact h

theorem wellFormed_foldl (ops : List Op) (h : self.WellFormed) : (self.run ops).WellFormed := by
  induction ops generalizing self with
  | nil => exact h
  | cons op ops ih => exact ih (wellFormed_step h op)

/-! ## The groups that are joined -/

/-- Where a socket joins a group, and of which family that is. -/
def joinedBy (interfaceIndex : UInt32) (is : InterfaceSocket) : Option (UInt32 × Family) :=
  (is.membership interfaceIndex).map fun membership => (interfaceIndex, membership.family)

/-- The interfaces on which groups are joined, with the families of the groups. -/
def joined (self : Network) : List (UInt32 × Family) :=
  (self.ilas.getD []).flatMap fun ila => ila.sockets.filterMap (joinedBy ila.interfaceIndex)

theorem joinedBy_eq (interfaceIndex : UInt32) (is : InterfaceSocket) :
    joinedBy interfaceIndex is
      = if is.multicastSelected then some (interfaceIndex, is.family) else none := by
  rw [joinedBy, InterfaceSocket.membership, InterfaceSocket.family]
  cases is.multicastSelected with
  | false => rfl
  | true => cases is.address.ip <;> rfl

theorem joined_sockets (interfaceIndex : UInt32) (sockets : List InterfaceSocket) :
    sockets.filterMap (joinedBy interfaceIndex)
      = ((sockets.filter (·.multicastSelected)).map InterfaceSocket.family).map
          fun family => (interfaceIndex, family) := by
  rw [List.map_map, ← List.filterMap_eq_map, List.filterMap_filter]
  exact List.filterMap_congr fun is _ => joinedBy_eq interfaceIndex is

/-- No family is joined twice on one interface. -/
theorem WellFormed.nodup_joined (h : self.WellFormed) : self.joined.Nodup := by
  rw [joined, List.nodup_flatMap]
  constructor
  · intro ila hila
    rw [joined_sockets]
    exact (h.interfaces ila hila).once.map fun _ _ hpair => congrArg Prod.snd hpair
  · refine (List.pairwise_map.mp h.distinct).imp fun {ila ila'} hne => ?_
    rw [Function.onFun, joined_sockets, joined_sockets, List.disjoint_left]
    intro key hkey hkey'
    obtain ⟨family, -, rfl⟩ := List.mem_map.mp hkey
    obtain ⟨family', -, hpair⟩ := List.mem_map.mp hkey'
    exact hne (congrArg Prod.fst hpair).symm

/-- The network of an address is in itself. -/
theorem toNetwork_idem {address netmask network : SocketAddr}
    (h : toNetwork address netmask = .ok network) : toNetwork network netmask = .ok network := by
  have hoctets {n : ℕ} (a m : Vector UInt8 n) :
      Vector.zipWith (· &&& ·) (Vector.zipWith (· &&& ·) a m) m = Vector.zipWith (· &&& ·) a m := by
    ext i hi
    simp only [Vector.getElem_zipWith]
    rw [UInt8.and_assoc, UInt8.and_self]
  cases address with
  | v4 a port =>
    cases netmask with
    | v4 m _ =>
      cases h
      rw [toNetwork, hoctets]
    | v6 m _ _ _ => cases h
  | v6 a port flowinfo scopeId =>
    cases netmask with
    | v4 m _ => cases h
    | v6 m _ _ _ =>
      cases h
      rw [toNetwork, hoctets]

/-- **The network is well formed at all times**: after any operations there is one entry for an
interface, with sockets of which each is in its own network, and no address is a loopback one.  A
group is joined at most once on an interface, and only where that is supported. -/
theorem wellFormed_run (ops : List Op) :
    (new.run ops).WellFormed ∧ (new.run ops).joined.Nodup ∧
      ∀ is ∈ (new.run ops).interfaceSockets, toNetwork is.network is.netmask = .ok is.network := by
  have h := wellFormed_foldl ops wellFormed_new
  refine ⟨h, h.nodup_joined, fun is his => ?_⟩
  obtain ⟨ila, hila, hmem⟩ := List.mem_flatMap.mp his
  exact toNetwork_idem ((h.interfaces ila hila).sockets is hmem).network

end Network

end Echonet
