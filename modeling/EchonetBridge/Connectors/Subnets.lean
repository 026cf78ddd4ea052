import EchonetBridge.Connectors.Invariants
import EchonetBridge.Connectors.Registry

/-!
# Connectors/Subnets — the networks of the sockets

Under the netmask of a prefix, the network of a socket is a block of addresses (`onNetwork_iff`),
so that the networks of two sockets are apart, or one of them is inside of the other
(`networks_nested_run`).
-/

namespace Echonet

open BigEndian Blocks Outcome

/-! ## Addresses as numbers -/

theorem value_bytes (bytes : List UInt8) : value 8 (bytes.map UInt8.toNat) = beValue bytes := by
  induction bytes with
  | nil => rfl
  | cons b bytes ih =>
    rw [List.map_cons, value_cons, List.length_map, ih, beValue_cons, Nat.pow_mul]

/-- Octets are masked one by one. -/
theorem beValue_and {n : ℕ} (a m : Vector UInt8 n) :
    beValue (Vector.zipWith (· &&& ·) a m).toList = beValue a.toList &&& beValue m.toList := by
  have hlength : (a.toList.map UInt8.toNat).length = (m.toList.map UInt8.toNat).length := by
    rw [List.length_map, List.length_map, Vector.length_toList, Vector.length_toList]
  rw [← value_bytes, ← value_bytes, ← value_bytes, Vector.toList_zipWith, List.map_zipWith,
    ← value_zipWith_and (lt_of_mem_bytes _) (lt_of_mem_bytes _) hlength, List.zipWith_map]
  rfl

theorem Ipv4Addr.number_eq (ip : Ipv4Addr) : ip.number = beValue ip.octets.toList :=
  value_bytes ip.octets.toList

theorem Ipv6Addr.number_eq (ip : Ipv6Addr) : ip.number = beValue ip.octets.toList :=
  ip.toBits_eq.symm

theorem beValue_inj {n : ℕ} {a b : Vector UInt8 n} :
    beValue a.toList = beValue b.toList ↔ a = b := by
  refine ⟨fun h => ?_, fun h => h ▸ rfl⟩
  have hlength : a.toList.length = b.toList.length := by
    rw [Vector.length_toList, Vector.length_toList]
  exact Vector.toList_inj.mp (eq_of_beValue_eq hlength h)

namespace IpAddr

/-- How many bits the address has. -/
def width : IpAddr → ℕ
  | v4 _ => 32
  | v6 _ => 128

/-- The address as a number. -/
def number : IpAddr → ℕ
  | v4 ip => ip.number
  | v6 ip => ip.number

theorem number_lt (ip : IpAddr) : ip.number < 2 ^ ip.width := by
  have hlt {n : ℕ} (octets : Vector UInt8 n) : beValue octets.toList < 256 ^ n := by
    have hlt := beValue_lt octets.toList
    rwa [Vector.length_toList] at hlt
  cases ip with
  | v4 ip =>
    rw [number, ip.number_eq]
    exact hlt ip.octets
  | v6 ip =>
    rw [number, ip.number_eq]
    exact hlt ip.octets

/-- An address is its number in its family. -/
theorem eq_iff {ip ip' : IpAddr} : ip = ip' ↔ ip.family = ip'.family ∧ ip.number = ip'.number := by
  refine ⟨fun h => h ▸ ⟨rfl, rfl⟩, fun ⟨hfamily, hnumber⟩ => ?_⟩
  cases ip with
  | v4 ip =>
    cases ip' with
    | v4 ip' =>
      rw [number, number, ip.number_eq, ip'.number_eq, beValue_inj] at hnumber
      obtain ⟨octets⟩ := ip
      exact congrArg (fun octets => v4 ⟨octets⟩) hnumber
    | v6 ip' => cases hfamily
  | v6 ip =>
    cases ip' with
    | v4 ip' => cases hfamily
    | v6 ip' =>
      rw [number, number, ip.number_eq, ip'.number_eq, beValue_inj] at hnumber
      obtain ⟨octets⟩ := ip
      exact congrArg (fun octets => v6 ⟨octets⟩) hnumber

theorem width_of_family {ip ip' : IpAddr} (h : ip.family = ip'.family) : ip.width = ip'.width := by
  cases ip <;> cases ip' <;> first | rfl | cases h

end IpAddr

/-! ## Networks -/

/-- The network of an address is there when the netmask is of its family, and is what the netmask
leaves of it. -/
theorem toNetwork_cases (address netmask : SocketAddr) :
    (address.ip.family = netmask.ip.family ∧ ∃ network, toNetwork address netmask = .ok network ∧
      network.ip.family = address.ip.family ∧
      network.ip.number = address.ip.number &&& netmask.ip.number) ∨
    (address.ip.family ≠ netmask.ip.family ∧
      toNetwork address netmask = .err .mismatchedTypes) := by
  cases address with
  | v4 a port =>
    cases netmask with
    | v4 n _ =>
      refine Or.inl ⟨rfl, _, rfl, rfl, ?_⟩
      simp only [SocketAddr.ip, IpAddr.number, Ipv4Addr.number_eq, beValue_and]
    | v6 n _ _ _ => exact Or.inr ⟨Family.noConfusion, rfl⟩
  | v6 a port flowinfo scopeId =>
    cases netmask with
    | v4 n _ => exact Or.inr ⟨Family.noConfusion, rfl⟩
    | v6 n _ _ _ =>
      refine Or.inl ⟨rfl, _, rfl, rfl, ?_⟩
      simp only [SocketAddr.ip, IpAddr.number, Ipv6Addr.number_eq, beValue_and]

/-- The netmask has its first `len` bits set. -/
def SocketAddr.IsPrefix (netmask : SocketAddr) (len : ℕ) : Prop :=
  netmask.ip.number = mask netmask.ip.width len

instance (netmask : SocketAddr) (len : ℕ) : Decidable (netmask.IsPrefix len) :=
  inferInstanceAs (Decidable (_ = _))

namespace InterfaceSocket

variable {is is' : InterfaceSocket} {len len' : ℕ} {address : SocketAddr}

/-- The address has the network of the socket under the netmask of the socket. -/
def OnNetwork (is : InterfaceSocket) (address : SocketAddr) : Prop :=
  ∃ network, toNetwork address is.netmask = .ok network ∧ network.ip = is.network.ip

/-- The addresses on the network are those that begin with the same bits. -/
theorem onNetwork_iff (h : is.WellFormed) (hmask : is.netmask.IsPrefix len) :
    is.OnNetwork address ↔ address.ip.family = is.address.ip.family ∧
      Agree is.address.ip.width len address.ip.number is.address.ip.number := by
  rcases toNetwork_cases is.address is.netmask with
    ⟨hfamily, network, hnetwork, hsame, hnumber⟩ | ⟨-, herr⟩
  · obtain rfl : network = is.network := by
      rw [h.network] at hnetwork
      exact (Outcome.ok.inj hnetwork).symm
    have hwidth := IpAddr.width_of_family hfamily
    rw [SocketAddr.IsPrefix, ← hwidth] at hmask
    rcases toNetwork_cases address is.netmask with
      ⟨hfamily', network', hnetwork', hsame', hnumber'⟩ | ⟨hne, herr⟩
    · have hfamilies : address.ip.family = is.address.ip.family := hfamily'.trans hfamily.symm
      have hlt := address.ip.number_lt
      rw [IpAddr.width_of_family hfamilies] at hlt
      rw [and_iff_right hfamilies, ← and_mask_eq_iff hlt is.address.ip.number_lt, ← hmask,
        ← hnumber, ← hnumber', OnNetwork, hnetwork']
      constructor
      · rintro ⟨_, hok, hip⟩
        cases hok
        rw [hip]
      · intro heq
        exact ⟨network', rfl, IpAddr.eq_iff.mpr ⟨hsame'.trans (hfamilies.trans hsame.symm), heq⟩⟩
    · refine iff_of_false ?_ fun hboth => hne (hboth.1.trans hfamily)
      rintro ⟨_, hok, -⟩
      cases herr.symm.trans hok
  · cases h.network.symm.trans herr

/-- Networks that meet are nested. -/
theorem OnNetwork.of_meet {common : SocketAddr} (h : is.WellFormed) (h' : is'.WellFormed)
    (hmask : is.netmask.IsPrefix len) (hmask' : is'.netmask.IsPrefix len') (hle : len ≤ len')
    (hcommon : is.OnNetwork common) (hcommon' : is'.OnNetwork common)
    (haddress : is'.OnNetwork address) : is.OnNetwork address := by
  rw [onNetwork_iff h hmask] at hcommon ⊢
  rw [onNetwork_iff h' hmask'] at hcommon' haddress
  obtain ⟨hfamily, hagree⟩ := hcommon
  have hfamilies : is'.address.ip.family = is.address.ip.family := hcommon'.1.symm.trans hfamily
  rw [IpAddr.width_of_family hfamilies] at hcommon' haddress
  exact ⟨haddress.1.trans hfamilies,
    ((haddress.2.trans hcommon'.2.symm).mono hle).trans hagree⟩

end InterfaceSocket

namespace Network

/-- **The networks are nested or apart**: after any operations, the addresses on the network of a
socket are those that begin as its own address does, and of two networks that meet, the one with the
longer prefix is inside of the other. -/
theorem networks_nested_run (ops : List Op) {is is' : InterfaceSocket} {len len' : ℕ}
    (his : is ∈ (new.run ops).interfaceSockets) (his' : is' ∈ (new.run ops).interfaceSockets)
    (hmask : is.netmask.IsPrefix len) (hmask' : is'.netmask.IsPrefix len') (hle : len ≤ len') :
    (∀ address, is.OnNetwork address ↔ address.ip.family = is.address.ip.family ∧
      Agree is.address.ip.width len address.ip.number is.address.ip.number) ∧
    ((∃ address, is.OnNetwork address ∧ is'.OnNetwork address) →
      ∀ address, is'.OnNetwork address → is.OnNetwork address) := by
  have hformed {is : InterfaceSocket} (his : is ∈ (new.run ops).interfaceSockets) :
      is.WellFormed := by
    obtain ⟨ila, hila, hmem⟩ := List.mem_flatMap.mp his
    exact ((wellFormed_foldl ops wellFormed_new).interfaces ila hila).sockets is hmem
  refine ⟨fun address => InterfaceSocket.onNetwork_iff (hformed his) hmask, ?_⟩
  rintro ⟨common, hcommon, hcommon'⟩ address haddress
  exact .of_meet (hformed his) (hformed his') hmask hmask' hle hcommon hcommon' haddress

/-- The netmasks of the sockets. -/
def netmasks (self : Network) : List SocketAddr := self.interfaceSockets.map (·.netmask)

/-- Selecting leaves the netmasks as they were collected. -/
theorem netmasks_select (groups : List InterfaceListenAddresses) :
    netmasks ⟨some (groups.map InterfaceListenAddresses.selectMulticast)⟩
      = netmasks ⟨some groups⟩ := by
  have hsockets (ila : InterfaceListenAddresses) :
      ila.selectMulticast.sockets.map (·.netmask) = ila.sockets.map (·.netmask) := by
    rw [InterfaceListenAddresses.selectMulticast, selectMulticast_eq, List.mapIdx_eq_zipIdx_map,
      List.map_map]
    have hsame := fun (e : InterfaceSocket × ℕ) (_ : e ∈ ila.sockets.zipIdx) =>
      (network_selectBoth ila.sockets e.2 e.1).2
    refine (List.map_congr_left hsame).trans ?_
    conv_rhs => rw [← List.zipIdx_map_fst 0 ila.sockets, List.map_map]
    rfl
  rw [netmasks, netmasks, interfaceSockets, interfaceSockets, Option.getD_some, Option.getD_some,
    List.map_flatMap, List.map_flatMap, List.flatMap_map]
  exact List.flatMap_congr fun ila _ => hsockets ila

/-- One initialisation, which finds three records. -/
def interleavedOps : List Op :=
  [.initialise ⟨none, false⟩ interleavedRecords (fun _ name => .ok (interleavedIndex name))
    ⟨id, .refl⟩]

theorem networks_nested_run_interleaved :
    ∃ is ∈ (new.run interleavedOps).interfaceSockets,
      ∃ is' ∈ (new.run interleavedOps).interfaceSockets,
      is.netmask.IsPrefix 8 ∧ is'.netmask.IsPrefix 24 ∧
      (∀ address, is.OnNetwork address ↔ address.ip.family = is.address.ip.family ∧
        Agree is.address.ip.width 8 address.ip.number is.address.ip.number) ∧
      ((∃ address, is.OnNetwork address ∧ is'.OnNetwork address) →
        ∀ address, is'.OnNetwork address → is.OnNetwork address) := by
  have hrun : new.run interleavedOps = ⟨some ((collected ⟨none, false⟩ interleavedIndex
      interleavedRecords).map InterfaceListenAddresses.selectMulticast)⟩ :=
    congrArg Prod.snd (initialise_eq hasMask_interleavedRecords (fun _ _ => rfl) _ _)
  have hmasks : ∃ m ∈ (new.run interleavedOps).netmasks, m.IsPrefix 8 := by
    rw [hrun, netmasks_select]
    decide
  have hmasks' : ∃ m ∈ (new.run interleavedOps).netmasks, m.IsPrefix 24 := by
    rw [hrun, netmasks_select]
    decide
  obtain ⟨_, hm, hmask⟩ := hmasks
  obtain ⟨_, hm', hmask'⟩ := hmasks'
  obtain ⟨is, his, rfl⟩ := List.mem_map.mp hm
  obtain ⟨is', his', rfl⟩ := List.mem_map.mp hm'
  exact ⟨is, his, is', his', hmask, hmask',
    networks_nested_run interleavedOps his his' hmask hmask' (by decide)⟩

end Network

end Echonet
