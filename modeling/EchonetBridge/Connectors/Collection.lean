import EchonetBridge.Connectors.Interfaces

/-!
# Connectors/Collection — every address on its interface

The addresses that pass the filters are distributed over the interfaces: none is dropped, doubled,
moved or reordered (`initialise_groups`).  This takes a netmask of its own family for every address,
and an index for every name.
-/

namespace Echonet

open Outcome

/-! ## The filters -/

/-- The configuration that applies to an interface, if any does. -/
def AppNetworkConfiguration.of (config : AppNetworkConfiguration) (interfaceName : String) :
    Option AppInterfaceConfiguration :=
  config.onlyInterfaces.bind fun interfaces => interfaceConfig interfaces interfaceName

/-- The port that is listened on. -/
def AppNetworkConfiguration.port (config : AppNetworkConfiguration) (interfaceName : String) :
    UInt16 := ((config.of interfaceName).map fun e => e.port).getD defaultPort

/-- A configuration enables the family of an address. -/
def AppInterfaceConfiguration.Enables (ic : AppInterfaceConfiguration) : IpAddr → Prop
  | .v4 _ => ic.ipv4 = true
  | .v6 _ => ic.ipv6 = true

/-- A record passes all filters. -/
structure Listened (config : AppNetworkConfiguration) (ifaddr : InterfaceAddress) : Prop where
  up : ifaddr.flags.up = true
  running : ifaddr.flags.running = true
  not_loopback : ifaddr.flags.loopback = false
  not_skipped : config.skipPtp = true → ifaddr.flags.pointopoint = false
  named : ∀ interfaces, config.interfaces = some interfaces → interfaces ≠ [] →
    ∃ x ∈ interfaces, x.name = ifaddr.interfaceName
  address : ∃ address, sockaddrNixToStdnet ifaddr.address (config.port ifaddr.interfaceName)
      = some address ∧ address.ip.isLoopback = false ∧
    ∀ ic, config.of ifaddr.interfaceName = some ic → ic.Enables address.ip

theorem not_skipped_iff (config : AppNetworkConfiguration) (interfaceName : String) :
    ¬ (config.onlyInterfaces.any fun interfaces =>
        !(interfaces.any fun x => x.name == interfaceName)) = true ↔
      ∀ interfaces, config.interfaces = some interfaces → interfaces ≠ [] →
        ∃ x ∈ interfaces, x.name = interfaceName := by
  rw [AppNetworkConfiguration.onlyInterfaces]
  cases config.interfaces with
  | none => simp
  | some interfaces =>
    by_cases hempty : interfaces = []
    · simp [hempty]
    · have hpos : 0 < interfaces.length := List.length_pos_iff.mpr hempty
      simp [hempty, hpos]

theorem familyEnabled_iff (maybeConfig : Option AppInterfaceConfiguration) (address : SocketAddr) :
    (maybeConfig.map fun ic => match address with
        | .v4 _ _ => ic.ipv4
        | .v6 _ _ _ _ => ic.ipv6).getD true = true ↔
      ∀ ic, maybeConfig = some ic → ic.Enables address.ip := by
  cases maybeConfig with
  | none => simp
  | some ic => cases address <;> simp [AppInterfaceConfiguration.Enables, SocketAddr.ip]

/-- **A record is listened on exactly when it passes all filters.** -/
theorem listenAddress_eq_some_iff (config : AppNetworkConfiguration) (ifaddr : InterfaceAddress)
    (address : SocketAddr) :
    listenAddress config ifaddr = some address ↔
      Listened config ifaddr ∧
        sockaddrNixToStdnet ifaddr.address (config.port ifaddr.interfaceName) = some address := by
  have hflags : ¬ (ifaddr.address.isNone || !ifaddr.flags.up || !ifaddr.flags.running ||
      ifaddr.flags.loopback) = true ↔ ifaddr.address.isNone = false ∧ ifaddr.flags.up = true ∧
        ifaddr.flags.running = true ∧ ifaddr.flags.loopback = false := by
    cases ifaddr.address <;> simp [and_assoc]
  have hptp : ¬ (config.skipPtp && ifaddr.flags.pointopoint) = true ↔
      (config.skipPtp = true → ifaddr.flags.pointopoint = false) := by simp
  have hlast (address : SocketAddr) : ¬ (address.ip.isLoopback || !((config.of
      ifaddr.interfaceName).map fun ic => match address with
        | .v4 _ _ => ic.ipv4
        | .v6 _ _ _ _ => ic.ipv6).getD true) = true ↔ address.ip.isLoopback = false ∧
          ∀ ic, config.of ifaddr.interfaceName = some ic → ic.Enables address.ip := by
    rw [← familyEnabled_iff]
    simp
  have hnames := not_skipped_iff config ifaddr.interfaceName
  rw [listenAddress, Option.ite_none_left_eq_some, Option.ite_none_left_eq_some,
    Option.ite_none_left_eq_some, Option.bind_eq_some_iff, hflags, hptp, hnames]
  constructor
  · rintro ⟨⟨-, hup, hrunning, hloopback⟩, hskip, hnamed, address', haddress, hrest⟩
    obtain ⟨hfilter, heq⟩ := Option.ite_none_left_eq_some.mp hrest
    cases heq
    have hok := (hlast address).mp hfilter
    exact ⟨⟨hup, hrunning, hloopback, hskip, hnamed, address, haddress, hok.1, hok.2⟩, haddress⟩
  · rintro ⟨h, haddress⟩
    obtain ⟨address', haddress', hok⟩ := h.address
    rw [haddress] at haddress'
    cases haddress'
    have hsome : ifaddr.address.isNone = false := by
      cases hnone : ifaddr.address with
      | none =>
        rw [hnone] at haddress
        cases haddress
      | some storage => rfl
    exact ⟨⟨hsome, h.up, h.running, h.not_loopback⟩, h.not_skipped, h.named, address, haddress,
      Option.ite_none_left_eq_some.mpr ⟨(hlast address).mpr hok, rfl⟩⟩

instance (config : AppNetworkConfiguration) (ifaddr : InterfaceAddress) :
    Decidable (Listened config ifaddr) :=
  decidable_of_iff ((listenAddress config ifaddr).isSome = true) <| by
    rw [Option.isSome_iff_exists]
    constructor
    · rintro ⟨address, h⟩
      exact ((listenAddress_eq_some_iff config ifaddr address).mp h).1
    · intro h
      obtain ⟨address, haddress, -⟩ := h.address
      exact ⟨address, (listenAddress_eq_some_iff config ifaddr address).mpr ⟨h, haddress⟩⟩

/-! ## The sockets -/

/-- An address that is IPv4 or IPv6 has a netmask of the same family. -/
structure HasMask (ifaddr : InterfaceAddress) : Prop where
  v4 : ∀ ip, ifaddr.address = some (.sockaddrIn ip) →
    ∃ mask, ifaddr.netmask = some (.sockaddrIn mask)
  v6 : ∀ ip flowinfo scopeId, ifaddr.address = some (.sockaddrIn6 ip flowinfo scopeId) →
    ∃ mask flowinfo scopeId, ifaddr.netmask = some (.sockaddrIn6 mask flowinfo scopeId)

/-- A socket is the one of a record, whether it is selected for multicast or not. -/
structure ListensOn (config : AppNetworkConfiguration) (ifaddr : InterfaceAddress)
    (is : InterfaceSocket) : Prop where
  address : sockaddrNixToStdnet ifaddr.address (config.port ifaddr.interfaceName) = some is.address
  netmask : sockaddrNixToStdnet ifaddr.netmask 0 = some is.netmask
  network : toNetwork is.address is.netmask = .ok is.network
  capable : is.multicastCapable = ifaddr.flags.multicast
  closed : is.socket = none

theorem ListensOn.select {config : AppNetworkConfiguration} {ifaddr : InterfaceAddress}
    {is : InterfaceSocket} (h : ListensOn config ifaddr is) : ListensOn config ifaddr is.select :=
  ⟨h.address, h.netmask, h.network, h.capable, h.closed⟩

/-- An address has a netmask of its family exactly when it has a network. -/
theorem hasMask_iff {ifaddr : InterfaceAddress} {port : UInt16} {address : SocketAddr}
    (h : sockaddrNixToStdnet ifaddr.address port = some address) :
    HasMask ifaddr ↔ ∃ netmask, sockaddrNixToStdnet ifaddr.netmask 0 = some netmask ∧
      IsOk (toNetwork address netmask) := by
  cases address with
  | v4 ip port' =>
    have haddress := (sockaddrNixToStdnet_eq_v4.mp h).1
    constructor
    · intro hmask
      obtain ⟨mask, hnetmask⟩ := hmask.v4 ip haddress
      exact ⟨_, sockaddrNixToStdnet_eq_v4.mpr ⟨hnetmask, rfl⟩, _, rfl⟩
    · rintro ⟨netmask, hnetmask, network, hnetwork⟩
      cases netmask with
      | v4 mask _ =>
        refine ⟨fun _ _ => ⟨mask, (sockaddrNixToStdnet_eq_v4.mp hnetmask).1⟩, ?_⟩
        intro _ _ _ h6
        cases haddress.symm.trans h6
      | v6 mask _ flowinfo scopeId => cases hnetwork
  | v6 ip port' flowinfo scopeId =>
    have haddress := (sockaddrNixToStdnet_eq_v6.mp h).1
    constructor
    · intro hmask
      obtain ⟨mask, _, _, hnetmask⟩ := hmask.v6 ip flowinfo scopeId haddress
      exact ⟨_, sockaddrNixToStdnet_eq_v6.mpr ⟨hnetmask, rfl⟩, _, rfl⟩
    · rintro ⟨netmask, hnetmask, network, hnetwork⟩
      cases netmask with
      | v4 mask _ => cases hnetwork
      | v6 mask _ flowinfo' scopeId' =>
        refine ⟨?_, fun _ _ _ _ =>
          ⟨mask, flowinfo', scopeId', (sockaddrNixToStdnet_eq_v6.mp hnetmask).1⟩⟩
        intro _ h4
        cases haddress.symm.trans h4

/-- A socket can be made of every address that has a netmask of its family. -/
theorem interfaceSocket_of_hasMask {config : AppNetworkConfiguration} {ifaddr : InterfaceAddress}
    (hmask : HasMask ifaddr) {address : SocketAddr}
    (h : sockaddrNixToStdnet ifaddr.address (config.port ifaddr.interfaceName) = some address) :
    ∃ is, interfaceSocket ifaddr address = .ok is ∧ ListensOn config ifaddr is ∧
      is.multicastSelected = false := by
  obtain ⟨netmask, hnetmask, network, hnetwork⟩ := (hasMask_iff h).mp hmask
  rw [interfaceSocket, hnetmask, unwrap_some, ok_bind, hnetwork]
  exact ⟨_, rfl, ⟨h, hnetmask, hnetwork, rfl, rfl⟩, rfl⟩

/-- Without a netmask of the family of the address, there is no socket. -/
theorem interfaceSocket_of_not_hasMask {ifaddr : InterfaceAddress} (hmask : ¬ HasMask ifaddr)
    {port : UInt16} {address : SocketAddr}
    (h : sockaddrNixToStdnet ifaddr.address port = some address) :
    interfaceSocket ifaddr address = .panic := by
  rw [interfaceSocket]
  cases hnetmask : sockaddrNixToStdnet ifaddr.netmask 0 with
  | none => rfl
  | some netmask =>
    rw [unwrap_some, ok_bind]
    cases hnetwork : toNetwork address netmask with
    | ok network => exact absurd ((hasMask_iff h).mpr ⟨netmask, hnetmask, network, hnetwork⟩) hmask
    | err e => rfl
    | panic => rfl

/-! ## The loop -/

/-- What a record adds to the interfaces: a socket, and the name of its interface. -/
def listing (config : AppNetworkConfiguration) (ifaddr : InterfaceAddress) :
    Option (String × InterfaceSocket) :=
  (listenAddress config ifaddr).bind fun address =>
    match interfaceSocket ifaddr address with
    | .ok is => some (ifaddr.interfaceName, is)
    | _ => none

/-- An interface without sockets, for the first of them. -/
def freshInterface (index : String → UInt32) (item : String × InterfaceSocket) :
    InterfaceListenAddresses := ⟨index item.1, item.1, []⟩

/-- Put a socket on its interface. -/
def place (index : String → UInt32) (ilas : List InterfaceListenAddresses)
    (item : String × InterfaceSocket) : List InterfaceListenAddresses :=
  Grouping.update (·.interfaceIndex) (freshInterface index item) (fun ila => ila.push item.2) ilas

/-- The interfaces that are collected, when nothing fails. -/
def collected (config : AppNetworkConfiguration) (index : String → UInt32)
    (ifaddrs : List InterfaceAddress) : List InterfaceListenAddresses :=
  Grouping.distribute (·.interfaceIndex) (freshInterface index) (fun item ila => ila.push item.2)
    (ifaddrs.filterMap (listing config))

theorem cString_interfaceName (ifaddr : InterfaceAddress) :
    cString ifaddr.interfaceName = .ok ifaddr.interfaceName := if_neg ifaddr.noNul

section Loop

variable {config : AppNetworkConfiguration} {ifNametoindex : IfNametoindex}
  {index : String → UInt32} {ifaddr : InterfaceAddress}

theorem listing_of_listened (hmask : HasMask ifaddr) (h : Listened config ifaddr) :
    ∃ is, listing config ifaddr = some (ifaddr.interfaceName, is) ∧
      ListensOn config ifaddr is ∧ is.multicastSelected = false := by
  obtain ⟨address, haddress, -⟩ := h.address
  obtain ⟨is, his, hlistens, hselected⟩ := interfaceSocket_of_hasMask hmask haddress
  refine ⟨is, ?_, hlistens, hselected⟩
  rw [listing, (listenAddress_eq_some_iff config ifaddr address).mpr ⟨h, haddress⟩,
    Option.bind_some, his]

theorem listenAddress_of_not_listened (h : ¬ Listened config ifaddr) :
    listenAddress config ifaddr = none := by
  cases haddress : listenAddress config ifaddr with
  | none => rfl
  | some address => exact absurd ((listenAddress_eq_some_iff _ _ _).mp haddress).1 h

theorem listing_of_not_listened (h : ¬ Listened config ifaddr) :
    listing config ifaddr = none := by
  rw [listing, listenAddress_of_not_listened h, Option.bind_none]

theorem collect_of_not_listened (h : ¬ Listened config ifaddr)
    (ilas : List InterfaceListenAddresses) (i : ℕ) :
    collect config ifNametoindex ilas (ifaddr, i) = .ok ilas := by
  rw [collect, listenAddress_of_not_listened h]

/-- A record that is listened on takes an index first, and then a socket, which is put on the
interface of the index. -/
theorem collect_of_listened (h : Listened config ifaddr) {address : SocketAddr}
    (haddress : sockaddrNixToStdnet ifaddr.address (config.port ifaddr.interfaceName)
      = some address) (ilas : List InterfaceListenAddresses) (i : ℕ) :
    collect config ifNametoindex ilas (ifaddr, i) = (do
      let interfaceIndex ← ifNametoindex i ifaddr.interfaceName
      let is ← interfaceSocket ifaddr address
      pure (place (fun _ => interfaceIndex) ilas (ifaddr.interfaceName, is))) := by
  rw [collect, (listenAddress_eq_some_iff config ifaddr address).mpr ⟨h, haddress⟩]
  dsimp only
  rw [cString_interfaceName, ok_bind]
  rfl

/-- One pass puts the socket of a record on its interface. -/
theorem collect_eq (hmask : HasMask ifaddr)
    (hindex : ∀ i name, ifNametoindex i name = .ok (index name))
    (ilas : List InterfaceListenAddresses) (i : ℕ) :
    collect config ifNametoindex ilas (ifaddr, i)
      = .ok ((listing config ifaddr).elim ilas (place index ilas)) := by
  by_cases h : Listened config ifaddr
  · obtain ⟨address, haddress, -⟩ := h.address
    obtain ⟨is, his, -⟩ := interfaceSocket_of_hasMask hmask haddress
    rw [collect_of_listened h haddress, hindex, ok_bind, his, ok_bind, pure_eq, listing,
      (listenAddress_eq_some_iff config ifaddr address).mpr ⟨h, haddress⟩, Option.bind_some, his]
    rfl
  · rw [collect_of_not_listened h, listing_of_not_listened h]
    rfl

/-- **The loop collects the sockets** of all records that pass the filters. -/
theorem foldlM_collect {ifaddrs : List InterfaceAddress} (hmask : ∀ r ∈ ifaddrs, HasMask r)
    (hindex : ∀ i name, ifNametoindex i name = .ok (index name)) :
    ifaddrs.zipIdx.foldlM (collect config ifNametoindex) []
      = .ok (collected config index ifaddrs) := by
  have hpass : ∀ ilas, ∀ entry ∈ ifaddrs.zipIdx, collect config ifNametoindex ilas entry
      = .ok ((listing config entry.1).elim ilas (place index ilas)) := fun ilas entry hentry => by
    have hmem : entry.1 ∈ ifaddrs := List.fst_mem_of_mem_zipIdx hentry
    exact collect_eq (hmask _ hmem) hindex ilas entry.2
  have hplaces : ∀ (ifaddrs : List InterfaceAddress) (n : ℕ) ilas,
      (ifaddrs.zipIdx n).foldl
          (fun ilas entry => (listing config entry.1).elim ilas (place index ilas)) ilas
        = (ifaddrs.filterMap (listing config)).foldl (place index) ilas := by
    intro ifaddrs
    induction ifaddrs with
    | nil => exact fun _ _ => rfl
    | cons ifaddr ifaddrs ih =>
      intro n ilas
      rw [List.zipIdx_cons, List.foldl_cons, ih, List.filterMap_cons]
      cases listing config ifaddr <;> rfl
  rw [foldlM_eq_foldl _ _ hpass, hplaces]
  rfl

/-- A socket of a record is neither selected nor open. -/
theorem of_interfaceSocket {address : SocketAddr} {is : InterfaceSocket}
    (h : interfaceSocket ifaddr address = .ok is) :
    is.multicastSelected = false ∧ is.socket = none := by
  rw [interfaceSocket, bind_eq_ok] at h
  obtain ⟨netmask, -, h⟩ := h
  split at h
  · cases h
    exact ⟨rfl, rfl⟩
  · cases h

section Sockets

variable {P : InterfaceSocket → Prop}
  (hP : ∀ {ifaddr address is}, interfaceSocket ifaddr address = .ok is → P is)
include hP

/-- One pass keeps what holds of the sockets, if it holds of the sockets of records. -/
theorem forall_sockets_collect {ilas ilas' : List InterfaceListenAddresses}
    {entry : InterfaceAddress × ℕ} (hilas : ∀ ila ∈ ilas, ∀ is ∈ ila.sockets, P is)
    (h : collect config ifNametoindex ilas entry = .ok ilas') :
    ∀ ila ∈ ilas', ∀ is ∈ ila.sockets, P is := by
  rw [collect] at h
  split at h
  · cases h
    exact hilas
  · obtain ⟨interfaceName, -, h⟩ := bind_eq_ok.mp h
    obtain ⟨interfaceIndex, -, h⟩ := bind_eq_ok.mp h
    obtain ⟨saved, hsaved, h⟩ := bind_eq_ok.mp h
    cases h
    refine Grouping.forall_mem_update hilas (fun is his => ?_) fun ila hila is his => ?_
    · cases his
    · rcases List.mem_append.mp his with his | his
      · exact hila is his
      · rw [List.mem_singleton.mp his]
        exact hP hsaved

/-- What holds of the sockets of records holds of all that are collected. -/
theorem forall_sockets_of_loop {ifaddrs : List InterfaceAddress}
    {groups : List InterfaceListenAddresses}
    (h : ifaddrs.zipIdx.foldlM (collect config ifNametoindex) [] = .ok groups) :
    ∀ ila ∈ groups, ∀ is ∈ ila.sockets, P is :=
  foldlM_preserves (fun _ _ _ => forall_sockets_collect hP) (by simp) h

end Sockets

end Loop

/-! ## What is collected -/

section Groups

variable {config : AppNetworkConfiguration} {index : String → UInt32}

/-- The records that belong on an interface. -/
def recordsOf (config : AppNetworkConfiguration) (index : String → UInt32) (k : UInt32)
    (ifaddrs : List InterfaceAddress) : List InterfaceAddress :=
  ifaddrs.filter fun r => Listened config r ∧ index r.interfaceName = k

/-- The sockets that go to an interface are those of its records, in their order. -/
theorem forall₂_listensOn {ifaddrs : List InterfaceAddress} (hmask : ∀ r ∈ ifaddrs, HasMask r)
    (k : UInt32) :
    List.Forall₂ (fun r is => ListensOn config r is ∧ is.multicastSelected = false)
      (recordsOf config index k ifaddrs)
      (Grouping.valuesOf (·.interfaceIndex) (freshInterface index) Prod.snd k
        (ifaddrs.filterMap (listing config))) := by
  induction ifaddrs with
  | nil => exact .nil
  | cons r ifaddrs ih =>
    have ih := ih fun r' hr' => hmask r' (List.mem_cons_of_mem r hr')
    rw [recordsOf] at ih ⊢
    by_cases h : Listened config r
    · obtain ⟨is, his, hlistens⟩ :=
        listing_of_listened (hmask r List.mem_cons_self) h
      rw [List.filterMap_cons_some his, Grouping.valuesOf]
      by_cases hk : index r.interfaceName = k
      · rw [List.filter_cons_of_pos (by simp [h, hk]),
          List.filter_cons_of_pos (by simp [freshInterface, hk]), List.map_cons]
        exact .cons hlistens ih
      · rw [List.filter_cons_of_neg (by simp [hk]),
          List.filter_cons_of_neg (by simp [freshInterface, hk])]
        exact ih
    · rw [List.filterMap_cons_none (listing_of_not_listened h),
        List.filter_cons_of_neg (by simp [h])]
      exact ih

/-- **What is collected**: one group for every interface that is listened on, which holds the
sockets of its records. -/
theorem collected_groups (config : AppNetworkConfiguration) (index : String → UInt32)
    {ifaddrs : List InterfaceAddress} (hmask : ∀ r ∈ ifaddrs, HasMask r) :
    Grouping.Distinct (·.interfaceIndex) (collected config index ifaddrs) ∧
      (∀ k, (∃ ila ∈ collected config index ifaddrs, ila.interfaceIndex = k) ↔
        ∃ r ∈ ifaddrs, Listened config r ∧ index r.interfaceName = k) ∧
      ∀ ila ∈ collected config index ifaddrs,
        List.Forall₂ (fun r is => ListensOn config r is ∧ is.multicastSelected = false)
          (recordsOf config index ila.interfaceIndex ifaddrs) ila.sockets := by
  have hdistinct : Grouping.Distinct (·.interfaceIndex) (collected config index ifaddrs) :=
    Grouping.distinct_distribute _
  have hkey : ∀ (item : String × InterfaceSocket) (ila : InterfaceListenAddresses),
      (ila.push item.2).interfaceIndex = ila.interfaceIndex := fun _ _ => rfl
  have hfresh : ∀ item, (freshInterface index item).sockets = [] := fun _ => rfl
  have hpush : ∀ (item : String × InterfaceSocket) (ila : InterfaceListenAddresses),
      (ila.push item.2).sockets = ila.sockets ++ [item.2] := fun _ _ => rfl
  refine ⟨hdistinct, fun k => ?_, fun ila hila => ?_⟩
  · rw [← Grouping.lookup_isSome_iff, collected, Grouping.lookup_distribute_isSome hkey]
    constructor
    · rintro ⟨item, hitem, hk⟩
      obtain ⟨r, hr, hlisting⟩ := List.mem_filterMap.mp hitem
      by_cases h : Listened config r
      · obtain ⟨is, his, -⟩ := listing_of_listened (hmask r hr) h
        rw [his] at hlisting
        cases hlisting
        exact ⟨r, hr, h, hk⟩
      · rw [listing_of_not_listened h] at hlisting
        cases hlisting
    · rintro ⟨r, hr, h, hk⟩
      obtain ⟨is, his, -⟩ := listing_of_listened (hmask r hr) h
      exact ⟨_, List.mem_filterMap.mpr ⟨r, hr, his⟩, hk⟩
  · have hsockets := Grouping.values_distribute hkey hfresh hpush
      (ifaddrs.filterMap (listing config)) ila.interfaceIndex
    rw [← collected, Grouping.lookup_of_mem hdistinct hila, Option.map_some,
      Option.getD_some] at hsockets
    rw [hsockets]
    exact forall₂_listensOn hmask ila.interfaceIndex

end Groups

/-! ## What is initialised -/

/-- A change of one element keeps what holds of all elements, if it does of the one. -/
theorem forall₂_modify {α β : Type} {R : α → β → Prop} {f : β → β}
    (hf : ∀ a b, R a b → R a (f b)) {l : List α} {l' : List β} (h : List.Forall₂ R l l') (i : ℕ) :
    List.Forall₂ R l (l'.modify i f) := by
  induction h generalizing i with
  | nil =>
    rw [List.modify_nil]
    exact .nil
  | cons hab h ih =>
    cases i with
    | zero => exact .cons (hf _ _ hab) h
    | succ i => exact .cons hab (ih i)

section Selected

variable {config : AppNetworkConfiguration} {ifaddrs : List InterfaceAddress}
  {sockets : List InterfaceSocket}

theorem forall₂_selectPreferred (h : List.Forall₂ (ListensOn config) ifaddrs sockets)
    (weight : InterfaceSocket → ℕ) :
    List.Forall₂ (ListensOn config) ifaddrs (selectPreferred weight sockets) := by
  rw [selectPreferred]
  split
  · exact forall₂_modify (fun _ _ => ListensOn.select) h _
  · exact h

/-- A selection leaves the sockets on their records. -/
theorem forall₂_selectMulticast (h : List.Forall₂ (ListensOn config) ifaddrs sockets) :
    List.Forall₂ (ListensOn config) ifaddrs (selectMulticast sockets) :=
  forall₂_selectPreferred (forall₂_selectPreferred h weight4) weight6

end Selected

/-- Initialisation returns when the loop does, and leaves what the loop has collected. -/
theorem initialise_eq_ok_iff {config : AppNetworkConfiguration} {ifaddrs : List InterfaceAddress}
    {ifNametoindex : IfNametoindex} {order : HashOrder InterfaceListenAddresses}
    {self network : Network} :
    Network.initialise config ifaddrs ifNametoindex order self = (.ok (), network) ↔
      ∃ groups, ifaddrs.zipIdx.foldlM (collect config ifNametoindex) [] = .ok groups ∧
        ⟨some ((order.list groups).map InterfaceListenAddresses.selectMulticast)⟩ = network := by
  rw [Network.initialise]
  cases ifaddrs.zipIdx.foldlM (collect config ifNametoindex) [] with
  | ok groups => simp
  | err e => simp
  | panic => simp

/-- Initialisation selects the multicast addresses of what the loop collects. -/
theorem initialise_eq {config : AppNetworkConfiguration} {ifaddrs : List InterfaceAddress}
    (hmask : ∀ r ∈ ifaddrs, HasMask r) {ifNametoindex : IfNametoindex} {index : String → UInt32}
    (hindex : ∀ i name, ifNametoindex i name = .ok (index name))
    (order : HashOrder InterfaceListenAddresses) (self : Network) :
    Network.initialise config ifaddrs ifNametoindex order self =
      (.ok (), ⟨some ((order.list (collected config index ifaddrs)).map
        InterfaceListenAddresses.selectMulticast)⟩) := by
  rw [initialise_eq_ok_iff]
  exact ⟨_, foldlM_collect hmask hindex, rfl⟩

/-- **Every address on its interface**: the groups are those of the interfaces that are listened on,
each once, and hold one socket for every record of the interface that passes all filters, in the
order of the records. -/
theorem initialise_groups (config : AppNetworkConfiguration) {ifaddrs : List InterfaceAddress}
    (hmask : ∀ r ∈ ifaddrs, HasMask r) {ifNametoindex : IfNametoindex} {index : String → UInt32}
    (hindex : ∀ i name, ifNametoindex i name = .ok (index name))
    (order : HashOrder InterfaceListenAddresses) (self : Network) :
    ∃ ilas, Network.initialise config ifaddrs ifNametoindex order self = (.ok (), ⟨some ilas⟩) ∧
      (ilas.map (·.interfaceIndex)).Nodup ∧
      (∀ k, (∃ ila ∈ ilas, ila.interfaceIndex = k) ↔
        ∃ r ∈ ifaddrs, Listened config r ∧ index r.interfaceName = k) ∧
      ∀ ila ∈ ilas, List.Forall₂ (ListensOn config)
        (recordsOf config index ila.interfaceIndex ifaddrs) ila.sockets := by
  obtain ⟨hdistinct, hindexes, hsockets⟩ := collected_groups config index hmask
  have hperm := order.perm (collected config index ifaddrs)
  have hkeys : (((order.list (collected config index ifaddrs)).map
      InterfaceListenAddresses.selectMulticast).map (·.interfaceIndex)).Perm
        ((collected config index ifaddrs).map (·.interfaceIndex)) := by
    rw [List.map_map]
    exact hperm.map (·.interfaceIndex)
  refine ⟨_, initialise_eq hmask hindex order self, hkeys.nodup_iff.mpr hdistinct, fun k => ?_,
    fun ila hila => ?_⟩
  · rw [← hindexes k, ← List.mem_map, hkeys.mem_iff, List.mem_map]
  · obtain ⟨group, hgroup, rfl⟩ := List.mem_map.mp hila
    exact forall₂_selectMulticast <|
      (hsockets group (hperm.mem_iff.mp hgroup)).imp fun _ _ hr => hr.1

/-- The record of an IPv4 address on a running interface. -/
def ipv4Record (interfaceName : String) (noNul : '\x00' ∉ interfaceName.toList)
    (address netmask : Ipv4Addr) : InterfaceAddress where
  interfaceName := interfaceName
  noNul := noNul
  flags := ⟨true, true, false, false, true⟩
  address := some (.sockaddrIn address)
  netmask := some (.sockaddrIn netmask)

theorem hasMask_ipv4Record (interfaceName : String) (noNul : '\x00' ∉ interfaceName.toList)
    (address netmask : Ipv4Addr) : HasMask (ipv4Record interfaceName noNul address netmask) :=
  ⟨fun _ _ => ⟨netmask, rfl⟩, fun _ _ _ h => by cases h⟩

theorem noNul_eth0 : '\x00' ∉ "eth0".toList := by decide

/-- The netmask of a prefix of sixteen bits. -/
def netmask16 : Ipv4Addr := ⟨#v[255, 255, 0, 0]⟩

/-- Three records, in which the addresses of one interface are around that of another. -/
def interleavedRecords : List InterfaceAddress :=
  [ipv4Record "eth0" noNul_eth0 ⟨#v[192, 168, 1, 10]⟩ ⟨#v[255, 255, 255, 0]⟩,
    ipv4Record "eth1" (by decide) ⟨#v[10, 0, 0, 5]⟩ ⟨#v[255, 0, 0, 0]⟩,
    ipv4Record "eth0" noNul_eth0 ⟨#v[169, 254, 3, 4]⟩ netmask16]

theorem hasMask_interleavedRecords : ∀ r ∈ interleavedRecords, HasMask r := by
  simp [interleavedRecords, hasMask_ipv4Record]

def interleavedIndex (interfaceName : String) : UInt32 := if interfaceName = "eth0" then 2 else 3

theorem initialise_groups_interleaved :
    ∃ ilas, Network.initialise ⟨none, false⟩ interleavedRecords
        (fun _ name => .ok (interleavedIndex name)) ⟨List.reverse, List.reverse_perm⟩ ⟨none⟩
          = (.ok (), ⟨some ilas⟩) ∧
      (ilas.map (·.interfaceIndex)).Nodup ∧
      (∀ k, (∃ ila ∈ ilas, ila.interfaceIndex = k) ↔
        ∃ r ∈ interleavedRecords,
          Listened ⟨none, false⟩ r ∧ interleavedIndex r.interfaceName = k) ∧
      ∀ ila ∈ ilas, List.Forall₂ (ListensOn ⟨none, false⟩)
        (recordsOf ⟨none, false⟩ interleavedIndex ila.interfaceIndex interleavedRecords)
          ila.sockets :=
  initialise_groups ⟨none, false⟩ hasMask_interleavedRecords (fun _ _ => rfl) _ _

end Echonet
