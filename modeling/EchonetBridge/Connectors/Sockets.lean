import EchonetBridge.Connectors.Collection
import EchonetBridge.Foundations.Visit

/-!
# Connectors/Sockets — opening and closing the sockets

Connecting opens the sockets one by one, and disconnecting closes them.  A call that fails ends
either, so that disconnecting closes everything exactly when every multicast group is left
(`allClosed_disconnect_iff`).
-/

namespace Echonet

open Outcome Visit

/-! ## Multicast groups -/

/-- `224.0.23.0`. -/
def multicastIpv4 : Ipv4Addr := ⟨#v[224, 0, 23, 0]⟩

/-- `ff02::1`. -/
def multicastIpv6 : Ipv6Addr := ⟨#v[0xff, 0x02, 0, 0, 0, 0, 0, 0, 0, 0, 0, 0, 0, 0, 0, 1]⟩

/-- A multicast group on an interface, which is given by its address or by its index. -/
inductive Membership where
  | v4 (multiaddr interface : Ipv4Addr)
  | v6 (multiaddr : Ipv6Addr) (interface : UInt32)
  deriving DecidableEq

/-- The multicast group of a socket, if it is selected for one. -/
def InterfaceSocket.membership (interfaceIndex : UInt32) (is : InterfaceSocket) :
    Option Membership :=
  if is.multicastSelected then
    some <| match is.address.ip with
      | .v4 ip => .v4 multicastIpv4 ip
      | .v6 _ => .v6 multicastIpv6 interfaceIndex
  else none

/-- What the calls on sockets return, call by call. -/
structure SocketCalls where
  bind : ℕ → SocketAddr → Outcome ConnectorError UdpSocket
  joinMulticast : ℕ → Membership → Outcome ConnectorError Unit
  leaveMulticast : ℕ → Membership → Outcome ConnectorError Unit

/-- Join or leave a multicast group, if there is one. -/
def changeGroup (call : ℕ → Membership → Outcome ConnectorError Unit) (n : ℕ) :
    Option Membership → Outcome ConnectorError ℕ
  | some membership => do
    call n membership
    pure (n + 1)
  | none => pure n

theorem changeGroup_eq_ok_iff {call : ℕ → Membership → Outcome ConnectorError Unit} {n n' : ℕ}
    {group : Option Membership} :
    changeGroup call n group = .ok n' ↔
      (∀ membership ∈ group, IsOk (call n membership)) ∧ n' = n + group.toList.length := by
  cases group with
  | none => simp [changeGroup, eq_comm]
  | some membership =>
    rw [changeGroup, bind_eq_ok]
    constructor
    · rintro ⟨u, hcall, hn⟩
      cases hn
      refine ⟨fun m hm => ?_, rfl⟩
      cases hm
      exact ⟨u, hcall⟩
    · rintro ⟨hcall, rfl⟩
      obtain ⟨u, hu⟩ := hcall membership rfl
      exact ⟨u, hu, rfl⟩

/-! ## One socket -/

/-- Create the socket, enable multicast, and save. -/
def connectSocket (os : SocketCalls) (interfaceIndex : UInt32) :
    Pass ConnectorError InterfaceSocket :=
  attempt fun n is => do
    let socket ← os.bind n is.address
    let n ← changeGroup os.joinMulticast (n + 1) (is.membership interfaceIndex)
    pure (n, { is with socket := some socket })

/-- The multicast group that an open socket is in. -/
def InterfaceSocket.leaving (interfaceIndex : UInt32) (is : InterfaceSocket) : Option Membership :=
  is.socket.bind fun _ => is.membership interfaceIndex

def InterfaceSocket.close (is : InterfaceSocket) : InterfaceSocket := { is with socket := none }

/-- Disable multicast, release and close. -/
def disconnectSocket (os : SocketCalls) (interfaceIndex : UInt32) :
    Pass ConnectorError InterfaceSocket :=
  attempt fun n is => do
    let n ← changeGroup os.leaveMulticast n (is.leaving interfaceIndex)
    pure (n, is.close)

/-! ## The network -/

/-- A pass over the sockets of all interfaces. -/
def eachSocket (f : UInt32 → Pass ConnectorError InterfaceSocket) :
    Pass ConnectorError (List InterfaceListenAddresses) :=
  visit <| within (·.sockets) (fun sockets ila => { ila with sockets := sockets }) fun ila =>
    visit (f ila.interfaceIndex)

/-- Go through all sockets, if there are any yet. -/
def Network.forEachSocket (f : UInt32 → Pass ConnectorError InterfaceSocket) (self : Network) :
    Outcome ConnectorError Unit × Network :=
  match self.ilas with
  | none => (.ok (), self)
  | some ilas =>
    ((eachSocket f 0 ilas).1 >>= fun _ => pure (), ⟨some (eachSocket f 0 ilas).2⟩)

/-- Open all of the network connections. -/
def Network.connect (os : SocketCalls) : Network → Outcome ConnectorError Unit × Network :=
  Network.forEachSocket (connectSocket os)

/-- Close all sockets. -/
def Network.disconnect (os : SocketCalls) : Network → Outcome ConnectorError Unit × Network :=
  Network.forEachSocket (disconnectSocket os)

/-! ## The calls -/

/-- What a pass over one socket asks for. -/
inductive SocketCall where
  | bind (address : SocketAddr)
  | joinMulticast (membership : Membership)
  | leaveMulticast (membership : Membership)

/-- A call succeeds. -/
def SocketCalls.Answers (os : SocketCalls) (n : ℕ) : SocketCall → Prop
  | .bind address => IsOk (os.bind n address)
  | .joinMulticast membership => IsOk (os.joinMulticast n membership)
  | .leaveMulticast membership => IsOk (os.leaveMulticast n membership)

def InterfaceSocket.connectCalls (interfaceIndex : UInt32) (is : InterfaceSocket) :
    List SocketCall :=
  .bind is.address :: (is.membership interfaceIndex).toList.map .joinMulticast

def InterfaceSocket.disconnectCalls (interfaceIndex : UInt32) (is : InterfaceSocket) :
    List SocketCall :=
  (is.leaving interfaceIndex).toList.map .leaveMulticast

/-- The calls of a pass over all sockets. -/
def Network.calls (f : UInt32 → InterfaceSocket → List SocketCall) (self : Network) :
    List SocketCall :=
  (self.ilas.getD []).flatMap fun ila => ila.sockets.flatMap (f ila.interfaceIndex)

section Calls

variable (os : SocketCalls) (interfaceIndex : UInt32)

theorem succeed_toList_map_iff {answers : ℕ → SocketCall → Prop} {n : ℕ}
    {group : Option Membership} {call : Membership → SocketCall} :
    Succeed answers n (group.toList.map call) ↔
      ∀ membership ∈ group, answers n (call membership) := by
  cases group with
  | none => simp
  | some membership => simp [succeed_cons]

/-- A socket is opened when its calls succeed. -/
theorem connectSocket_of_succeed {n : ℕ} {is : InterfaceSocket}
    (hcalls : Succeed os.Answers n (is.connectCalls interfaceIndex)) :
    ∃ socket, connectSocket os interfaceIndex n is
      = (.ok (n + (is.connectCalls interfaceIndex).length), { is with socket := some socket }) := by
  have hsteps := hcalls
  rw [InterfaceSocket.connectCalls, succeed_cons, succeed_toList_map_iff] at hsteps
  obtain ⟨⟨socket, hbind⟩, hjoin⟩ := hsteps
  refine ⟨socket, ?_⟩
  rw [connectSocket, attempt, hbind, ok_bind, changeGroup_eq_ok_iff.mpr ⟨hjoin, rfl⟩, ok_bind,
    pure_eq, InterfaceSocket.connectCalls, List.length_cons, List.length_map, Nat.add_assoc,
    Nat.add_comm 1]

/-- When one of its calls fails, it is left as it was. -/
theorem connectSocket_of_not_succeed {n : ℕ} {is : InterfaceSocket}
    (hcalls : ¬ Succeed os.Answers n (is.connectCalls interfaceIndex)) :
    ¬ IsOk (connectSocket os interfaceIndex n is).1 ∧
      (connectSocket os interfaceIndex n is).2 = is := by
  rw [connectSocket, attempt]
  split
  · next n' is' hok =>
    obtain ⟨socket, hbind, hrest⟩ := bind_eq_ok.mp hok
    obtain ⟨m, hjoin, -⟩ := bind_eq_ok.mp hrest
    rw [InterfaceSocket.connectCalls, succeed_cons, succeed_toList_map_iff] at hcalls
    exact absurd ⟨⟨socket, hbind⟩, (changeGroup_eq_ok_iff.mp hjoin).1⟩ hcalls
  · next e _ => exact ⟨not_isOk_err e, rfl⟩
  · exact ⟨not_isOk_panic, rfl⟩

/-- Connecting opens a socket that is closed, or leaves it closed. -/
theorem visits_connectSocket :
    Visits os.Answers (fun is => is.socket = none) (connectSocket os interfaceIndex)
      (InterfaceSocket.connectCalls interfaceIndex) (fun is => is.socket ≠ none)
      fun is => is.socket = none where
  returns n is _ hcalls := by
    obtain ⟨socket, hpass⟩ := connectSocket_of_succeed os interfaceIndex hcalls
    rw [hpass]
    exact ⟨rfl, Option.some_ne_none socket⟩
  fails n is hclosed hcalls := by
    obtain ⟨hnot, hsame⟩ := connectSocket_of_not_succeed os interfaceIndex hcalls
    rw [hsame]
    exact ⟨hnot, hclosed⟩

/-- Disconnecting closes a socket, or leaves it open. -/
theorem visits_disconnectSocket :
    Visits os.Answers (fun _ => True) (disconnectSocket os interfaceIndex)
      (InterfaceSocket.disconnectCalls interfaceIndex) (fun is => is.socket = none)
      fun is => is.socket ≠ none := by
  refine (Visits.attempt (fun n is _ hcalls => ?_) fun n is _ hcalls => ?_).weaken
    fun is hfailed hclosed => hfailed.2 ?_
  · rw [InterfaceSocket.disconnectCalls, succeed_toList_map_iff] at hcalls
    refine ⟨is.close, ?_, rfl⟩
    rw [changeGroup_eq_ok_iff.mpr ⟨hcalls, rfl⟩, ok_bind, pure_eq,
      InterfaceSocket.disconnectCalls, List.length_map]
  · rintro ⟨value, hok⟩
    obtain ⟨n', hleave, -⟩ := bind_eq_ok.mp hok
    rw [InterfaceSocket.disconnectCalls, succeed_toList_map_iff] at hcalls
    exact hcalls (changeGroup_eq_ok_iff.mp hleave).1
  · rw [InterfaceSocket.disconnectCalls, InterfaceSocket.leaving, hclosed]
    rfl

/-- The rule of a pass over the sockets of all interfaces. -/
theorem visits_eachSocket {answers : ℕ → SocketCall → Prop}
    {f : UInt32 → Pass ConnectorError InterfaceSocket}
    {calls : UInt32 → InterfaceSocket → List SocketCall}
    {Before After Failed : InterfaceSocket → Prop}
    (h : ∀ interfaceIndex,
      Visits answers Before (f interfaceIndex) (calls interfaceIndex) After Failed) :
    Visits answers (fun ilas => ∀ ila ∈ ilas, ∀ is ∈ ila.sockets, Before is) (eachSocket f)
      (fun ilas => ilas.flatMap fun ila => ila.sockets.flatMap (calls ila.interfaceIndex))
      (fun ilas => ∀ ila ∈ ilas, ∀ is ∈ ila.sockets, After is)
      fun ilas => ∃ ila ∈ ilas, ∃ is ∈ ila.sockets, Failed is :=
  (Visits.within (fun _ _ => rfl) fun ila : InterfaceListenAddresses =>
    (h ila.interfaceIndex).visit).visit

end Calls

/-! ## Connecting and disconnecting -/

/-- The sockets of all interfaces. -/
def Network.interfaceSockets (self : Network) : List InterfaceSocket :=
  (self.ilas.getD []).flatMap (·.sockets)

/-- No socket is open. -/
def Network.AllClosed (self : Network) : Prop := ∀ is ∈ self.interfaceSockets, is.socket = none

/-- Every socket is open. -/
def Network.AllOpen (self : Network) : Prop := ∀ is ∈ self.interfaceSockets, is.socket ≠ none

theorem Network.forall_interfaceSockets {P : InterfaceSocket → Prop}
    {ilas : List InterfaceListenAddresses} :
    (∀ is ∈ (Network.mk (some ilas)).interfaceSockets, P is) ↔
      ∀ ila ∈ ilas, ∀ is ∈ ila.sockets, P is := List.forall_mem_flatMap

section Network

variable {os : SocketCalls} {self : Network}

theorem isOk_forEachSocket_some {f : UInt32 → Pass ConnectorError InterfaceSocket}
    {ilas : List InterfaceListenAddresses} :
    (Network.forEachSocket f ⟨some ilas⟩).1 = .ok () ↔ IsOk (eachSocket f 0 ilas).1 := by
  change ((eachSocket f 0 ilas).1 >>= fun _ => pure ()) = .ok () ↔ _
  rw [bind_eq_ok]
  constructor
  · rintro ⟨n, hn, -⟩
    exact ⟨n, hn⟩
  · rintro ⟨n, hn⟩
    exact ⟨n, hn, rfl⟩

/-- Connecting a network that is closed returns when all of its calls succeed. -/
theorem connect_eq_ok_iff (hclosed : self.AllClosed) :
    (self.connect os).1 = .ok () ↔
      Succeed os.Answers 0 (self.calls InterfaceSocket.connectCalls) := by
  obtain ⟨_ | ilas⟩ := self
  · exact iff_of_true rfl (succeed_nil 0)
  · rw [Network.AllClosed, Network.forall_interfaceSockets] at hclosed
    rw [Network.connect, isOk_forEachSocket_some]
    exact (visits_eachSocket (visits_connectSocket os)).isOk_iff hclosed

/-- **Connecting opens everything** when it returns. -/
theorem allOpen_connect (hclosed : self.AllClosed) (hok : (self.connect os).1 = .ok ()) :
    (self.connect os).2.AllOpen := by
  have hcalls := (connect_eq_ok_iff hclosed).mp hok
  obtain ⟨_ | ilas⟩ := self
  · exact fun is h => absurd h List.not_mem_nil
  · rw [Network.AllClosed, Network.forall_interfaceSockets] at hclosed
    rw [Network.AllOpen, Network.connect, Network.forEachSocket, Network.forall_interfaceSockets]
    exact ((visits_eachSocket (visits_connectSocket os)).returns 0 ilas hclosed hcalls).2

/-- Disconnecting returns when every multicast group is left. -/
theorem disconnect_eq_ok_iff :
    (self.disconnect os).1 = .ok () ↔
      Succeed os.Answers 0 (self.calls InterfaceSocket.disconnectCalls) := by
  obtain ⟨_ | ilas⟩ := self
  · exact iff_of_true rfl (succeed_nil 0)
  · rw [Network.disconnect, isOk_forEachSocket_some]
    exact (visits_eachSocket (visits_disconnectSocket os)).isOk_iff fun _ _ _ _ => trivial

/-- **Disconnecting closes everything exactly when every multicast group is left**, in the order
of the sockets. -/
theorem allClosed_disconnect_iff :
    (self.disconnect os).2.AllClosed ↔
      Succeed os.Answers 0 (self.calls InterfaceSocket.disconnectCalls) := by
  obtain ⟨_ | ilas⟩ := self
  · exact iff_of_true (fun is h => absurd h List.not_mem_nil) (succeed_nil 0)
  · rw [Network.AllClosed, Network.disconnect, Network.forEachSocket,
      Network.forall_interfaceSockets]
    refine (visits_eachSocket (visits_disconnectSocket os)).after_iff ?_
      fun _ _ _ _ => trivial
    rintro ilas ⟨ila, hila, is, his, hopen⟩ hclosed
    exact hopen (hclosed ila hila is his)

/-! ## How far disconnecting comes -/

/-- Once its group is left, a socket is closed. -/
theorem eq_close_of_left {group : Outcome ConnectorError ℕ} {is is' : InterfaceSocket} {n' : ℕ}
    (h : (do let n ← group; pure (n, is.close)) = .ok (n', is')) : is' = is.close := by
  obtain ⟨n, -, hclose⟩ := bind_eq_ok.mp h
  cases hclose
  rfl

theorem sweeps_disconnectSocket (os : SocketCalls) (interfaceIndex : UInt32) :
    Sweeps (fun is => [is]) InterfaceSocket.close (disconnectSocket os interfaceIndex) :=
  Sweeps.attempt fun _ _ _ _ => eq_close_of_left

/-- **Disconnecting closes the sockets in their order**, as far as the first multicast group that
is not left: the sockets from there on are as they were. -/
theorem advances_disconnect :
    Advances InterfaceSocket.close self.interfaceSockets
      (self.disconnect os).2.interfaceSockets ((self.disconnect os).1 = .ok ()) := by
  obtain ⟨_ | ilas⟩ := self
  · exact ⟨0, le_rfl, rfl, iff_of_true rfl rfl⟩
  · have hsweeps : Sweeps (fun ilas => ilas.flatMap (·.sockets)) InterfaceSocket.close
        (eachSocket (disconnectSocket os)) := by
      have hsockets := fun ila : InterfaceListenAddresses =>
        (sweeps_disconnectSocket os ila.interfaceIndex).visit
      simp only [List.flatMap_singleton'] at hsockets
      exact (Sweeps.within (fun _ _ => rfl) hsockets).visit
    rw [Network.disconnect, isOk_forEachSocket_some]
    exact hsweeps 0 ilas

/-! ## What stays -/

def InterfaceListenAddresses.close (ila : InterfaceListenAddresses) : InterfaceListenAddresses :=
  { ila with sockets := ila.sockets.map InterfaceSocket.close }

/-- The network with all sockets closed. -/
def Network.close (self : Network) : Network :=
  ⟨self.ilas.map (List.map InterfaceListenAddresses.close)⟩

theorem InterfaceSocket.close_eq {is : InterfaceSocket} (h : is.socket = none) :
    is.close = is := by
  rw [close, ← h]

theorem InterfaceListenAddresses.close_eq {ila : InterfaceListenAddresses}
    (h : ∀ is ∈ ila.sockets, is.socket = none) : ila.close = ila := by
  rw [close, List.map_congr_left fun is his => InterfaceSocket.close_eq (h is his),
    List.map_id']

theorem Network.close_eq_of_allClosed (h : self.AllClosed) : self.close = self := by
  obtain ⟨_ | ilas⟩ := self
  · rfl
  · rw [AllClosed, forall_interfaceSockets] at h
    rw [close, Option.map_some,
      List.map_congr_left fun ila hila => InterfaceListenAddresses.close_eq (h ila hila),
      List.map_id']

/-- A pass over all sockets changes nothing but whether they are open, if none over one does. -/
theorem close_forEachSocket {f : UInt32 → Pass ConnectorError InterfaceSocket}
    (h : ∀ interfaceIndex, Keeps InterfaceSocket.close (f interfaceIndex)) :
    (self.forEachSocket f).2.close = self.close := by
  have heach : Keeps (List.map InterfaceListenAddresses.close) (eachSocket f) := by
    refine Keeps.visit (Keeps.within (fun sockets ila hsockets => ?_) fun ila =>
      (h ila.interfaceIndex).visit)
    rw [InterfaceListenAddresses.close, hsockets, InterfaceListenAddresses.close]
  obtain ⟨_ | ilas⟩ := self
  · rfl
  · exact congrArg (fun ilas => Network.mk (some ilas)) (heach 0 ilas)

theorem keeps_connectSocket (interfaceIndex : UInt32) :
    Keeps InterfaceSocket.close (connectSocket os interfaceIndex) := by
  refine Keeps.attempt fun n is n' is' hok => ?_
  obtain ⟨socket, -, hrest⟩ := bind_eq_ok.mp hok
  obtain ⟨m, -, hsave⟩ := bind_eq_ok.mp hrest
  cases hsave
  rfl

theorem keeps_disconnectSocket (interfaceIndex : UInt32) :
    Keeps InterfaceSocket.close (disconnectSocket os interfaceIndex) := by
  refine Keeps.attempt fun n is n' is' hok => ?_
  rw [eq_close_of_left hok]
  rfl

/-- **Disconnecting undoes connecting**, whatever became of it, when every multicast group is
left. -/
theorem disconnect_connect {os' : SocketCalls} (hclosed : self.AllClosed)
    (hok : ((self.connect os).2.disconnect os').1 = .ok ()) :
    ((self.connect os).2.disconnect os').2 = self := by
  have hall := allClosed_disconnect_iff.mpr (disconnect_eq_ok_iff.mp hok)
  calc ((self.connect os).2.disconnect os').2
      = ((self.connect os).2.disconnect os').2.close := (Network.close_eq_of_allClosed hall).symm
    _ = (self.connect os).2.close := close_forEachSocket keeps_disconnectSocket
    _ = self.close := close_forEachSocket keeps_connectSocket
    _ = self := Network.close_eq_of_allClosed hclosed

end Network

/-! ## From initialisation on -/

theorem closed_selectPreferred (weight : InterfaceSocket → ℕ) {sockets : List InterfaceSocket}
    (h : ∀ is ∈ sockets, is.socket = none) :
    ∀ is ∈ selectPreferred weight sockets, is.socket = none := by
  rw [selectPreferred]
  split
  · intro is his
    obtain ⟨i, hi⟩ := List.mem_iff_getElem?.mp his
    rw [List.getElem?_modify] at hi
    obtain ⟨e, he, rfl⟩ := Option.map_eq_some_iff.mp hi
    split
    · exact h e (List.mem_of_getElem? he)
    · exact h e (List.mem_of_getElem? he)
  · exact h

/-- Initialisation opens no socket. -/
theorem allClosed_initialise {config : AppNetworkConfiguration}
    {ifaddrs : List InterfaceAddress} {ifNametoindex : IfNametoindex}
    {order : HashOrder InterfaceListenAddresses} {self network : Network}
    (h : Network.initialise config ifaddrs ifNametoindex order self = (.ok (), network)) :
    network.AllClosed := by
  obtain ⟨groups, hloop, rfl⟩ := initialise_eq_ok_iff.mp h
  rw [Network.AllClosed, Network.forall_interfaceSockets]
  intro ila hila
  obtain ⟨group, hgroup, rfl⟩ := List.mem_map.mp hila
  have hclosed := forall_sockets_of_loop (fun hsocket => (of_interfaceSocket hsocket).2) hloop
    group ((order.perm groups).mem_iff.mp hgroup)
  exact closed_selectPreferred weight6 (closed_selectPreferred weight4 hclosed)

/-! ## A group that is not left -/

/-- A socket that is open and selected. -/
def openSocket (ip network : Ipv4Addr) : InterfaceSocket where
  address := .v4 ip defaultPort
  network := .v4 network defaultPort
  netmask := .v4 netmask16 0
  multicastCapable := true
  multicastSelected := true
  socket := some ⟨.v4 ip defaultPort⟩

/-- The socket of a private address. -/
def privateSocket : InterfaceSocket := openSocket ⟨#v[192, 168, 7, 10]⟩ ⟨#v[192, 168, 0, 0]⟩

/-- The socket of a link-local address. -/
def linkLocalSocket : InterfaceSocket := openSocket ⟨#v[169, 254, 7, 10]⟩ ⟨#v[169, 254, 0, 0]⟩

/-- Two interfaces with an open socket each. -/
def openNetwork : Network where
  ilas := some [⟨2, "eth0", [privateSocket]⟩, ⟨3, "eth1", [linkLocalSocket]⟩]

/-- Every call succeeds but the first one. -/
def secondCalls : SocketCalls where
  bind _ address := .ok ⟨address⟩
  joinMulticast _ _ := .ok ()
  leaveMulticast n _ := if n = 0 then .err (.ioError "Cannot assign requested address") else .ok ()

/-- **A failure to leave a group leaves the rest open**: no socket of the two is closed. -/
theorem disconnect_openNetwork :
    openNetwork.disconnect secondCalls
      = (.err (.ioError "Cannot assign requested address"), openNetwork) ∧
    ¬ (openNetwork.disconnect secondCalls).2.AllClosed := by
  have hfails : openNetwork.disconnect secondCalls
      = (.err (.ioError "Cannot assign requested address"), openNetwork) := rfl
  refine ⟨hfails, fun hclosed => ?_⟩
  rw [hfails] at hclosed
  cases hclosed privateSocket List.mem_cons_self

end Echonet
