import EchonetBridge.Connectors.Sockets

/-!
# Connectors/Memberships — the multicast groups that are joined and left

Connecting opens the sockets in their order, as far as the first call that fails.  Whatever it has
opened, disconnecting asks to leave exactly the groups of the opened sockets, and when they are all
left the network is what it was (`connect_cleanup`).
-/

namespace Echonet

open Outcome Visit

/-! ## How sockets are seen -/

/-- What matters of a socket: its interface, what it is apart from being open, and if it is. -/
structure SocketView where
  interfaceIndex : UInt32
  closed : InterfaceSocket
  isOpen : Bool
  deriving DecidableEq

namespace SocketView

/-- The multicast group of the socket, if it is selected for one. -/
def membership (v : SocketView) : Option Membership := v.closed.membership v.interfaceIndex

/-- The address that opening the socket binds, and the group that it joins. -/
def joins (v : SocketView) : List SocketCall :=
  .bind v.closed.address :: v.membership.toList.map .joinMulticast

/-- The group that closing the socket leaves. -/
def leaves (v : SocketView) : List SocketCall :=
  if v.isOpen then v.membership.toList.map .leaveMulticast else []

def opened (v : SocketView) : SocketView := { v with isOpen := true }

@[simp] theorem leaves_opened (v : SocketView) :
    v.opened.leaves = v.membership.toList.map .leaveMulticast := rfl

theorem leaves_of_closed {v : SocketView} (h : v.isOpen = false) : v.leaves = [] := by
  rw [leaves, h]
  rfl

/-- The groups of some sockets, in their order. -/
def memberships (views : List SocketView) : List Membership := views.filterMap membership

/-- Opened sockets are left. -/
theorem flatMap_leaves_opened (views : List SocketView) :
    (views.map opened).flatMap leaves = (memberships views).map .leaveMulticast := by
  rw [List.flatMap_map, memberships]
  induction views with
  | nil => rfl
  | cons v views ih =>
    rw [List.flatMap_cons, ih, leaves_opened, List.filterMap_cons]
    cases v.membership <;> rfl

end SocketView

def InterfaceSocket.view (interfaceIndex : UInt32) (is : InterfaceSocket) : SocketView :=
  ⟨interfaceIndex, is.close, is.socket.isSome⟩

theorem InterfaceSocket.leaves_view (interfaceIndex : UInt32) (is : InterfaceSocket) :
    (is.view interfaceIndex).leaves = is.disconnectCalls interfaceIndex := by
  rw [disconnectCalls, leaving, SocketView.leaves, view]
  cases is.socket <;> rfl

namespace Network

/-- The sockets of all interfaces, as they are seen. -/
def views (self : Network) : List SocketView :=
  (self.ilas.getD []).flatMap fun ila => ila.sockets.map (InterfaceSocket.view ila.interfaceIndex)

theorem closed_of_mem_views {self : Network} (h : self.AllClosed) :
    ∀ v ∈ self.views, v.isOpen = false := by
  intro v hv
  obtain ⟨ila, hila, hmem⟩ := List.mem_flatMap.mp hv
  obtain ⟨is, his, rfl⟩ := List.mem_map.mp hmem
  have hsocket : is.socket = none := h is (List.mem_flatMap.mpr ⟨ila, hila, his⟩)
  rw [InterfaceSocket.view, hsocket]
  rfl

/-- The calls of a pass over all sockets are those that their views ask for. -/
theorem calls_eq_views {f : UInt32 → InterfaceSocket → List SocketCall}
    {g : SocketView → List SocketCall} (h : ∀ interfaceIndex is,
      g (is.view interfaceIndex) = f interfaceIndex is) (self : Network) :
    self.calls f = self.views.flatMap g := by
  rw [calls, views, List.flatMap_assoc]
  refine List.flatMap_congr fun ila _ => ?_
  rw [List.flatMap_map]
  exact List.flatMap_congr fun is _ => (h ila.interfaceIndex is).symm

theorem disconnectCalls_eq (self : Network) :
    self.calls InterfaceSocket.disconnectCalls = self.views.flatMap SocketView.leaves :=
  self.calls_eq_views fun interfaceIndex is => is.leaves_view interfaceIndex

end Network

/-! ## How far connecting comes -/

section Connect

variable {os : SocketCalls} {self : Network}

theorem reaches_connectSocket (os : SocketCalls) (interfaceIndex : UInt32) :
    Reaches os.Answers (fun is => [is.view interfaceIndex]) SocketView.joins SocketView.opened
      (connectSocket os interfaceIndex) := by
  refine Reaches.single (fun n is (hcalls : Succeed _ n (is.connectCalls interfaceIndex)) => ?_)
    fun n is (hcalls : ¬ Succeed _ n (is.connectCalls interfaceIndex)) => ?_
  · obtain ⟨socket, hpass⟩ := connectSocket_of_succeed os interfaceIndex hcalls
    rw [hpass]
    exact ⟨rfl, rfl⟩
  · obtain ⟨hnot, hsame⟩ := connectSocket_of_not_succeed os interfaceIndex hcalls
    rw [hsame]
    exact ⟨hnot, rfl⟩

/-- **Connecting opens the sockets in their order**, as far as the first one with a call that
fails. -/
theorem reached_connect (os : SocketCalls) (ilas : List InterfaceListenAddresses) :
    Reached os.Answers SocketView.joins SocketView.opened 0 (Network.mk (some ilas)).views
      ((Network.mk (some ilas)).connect os).2.views (eachSocket (connectSocket os) 0 ilas).1 := by
  have hsockets (ila : InterfaceListenAddresses) :
      Reaches os.Answers (List.map (InterfaceSocket.view ila.interfaceIndex)) SocketView.joins
        SocketView.opened (visit (connectSocket os ila.interfaceIndex)) := by
    have hvisit := (reaches_connectSocket os ila.interfaceIndex).visit
    simp only [← List.map_eq_flatMap] at hvisit
    exact hvisit
  have hparts (sockets : List InterfaceSocket) (ila : InterfaceListenAddresses) :
      List.map (InterfaceSocket.view { ila with sockets := sockets }.interfaceIndex)
        = List.map (InterfaceSocket.view ila.interfaceIndex) := rfl
  exact (Reaches.within (fun _ _ => rfl) hparts hsockets).visit 0 ilas

/-- The sockets of a network after connecting, with the calls that succeeded. -/
theorem views_connect (os : SocketCalls) (self : Network) :
    ∃ opened rest, self.views = opened ++ rest ∧
      (self.connect os).2.views = opened.map SocketView.opened ++ rest ∧
      Succeed os.Answers 0 (opened.flatMap SocketView.joins) ∧
      (∀ v ∈ rest.head?, ¬ Succeed os.Answers 0 ((opened ++ [v]).flatMap SocketView.joins)) ∧
      ((self.connect os).1 = .ok () ↔ rest = []) := by
  obtain ⟨_ | ilas⟩ := self
  · exact ⟨[], [], rfl, rfl, succeed_nil 0, nofun, iff_of_true rfl rfl⟩
  · obtain ⟨opened, rest, hviews, hafter, hopened, hstop, hall, -⟩ := reached_connect os ilas
    exact ⟨opened, rest, hviews, hafter, hopened, hstop, isOk_forEachSocket_some.trans hall⟩

/-- A connected network leaves the groups of all of its sockets. -/
theorem leaves_connect (hok : (self.connect os).1 = .ok ()) :
    (self.connect os).2.calls InterfaceSocket.disconnectCalls
      = (SocketView.memberships self.views).map .leaveMulticast := by
  obtain ⟨opened, rest, hviews, hafter, -, -, hall⟩ := views_connect os self
  rw [hall.mp hok, List.append_nil] at hviews hafter
  rw [Network.disconnectCalls_eq, hafter, SocketView.flatMap_leaves_opened, hviews]

/-- **Connecting can be undone, however far it came.**  It opens the sockets of a closed network in
their order, as far as the first one with a call that fails, and changes nothing else.
Disconnecting then asks to leave the groups of the sockets that were opened, each once, in order;
it returns exactly when they are all left, and then the network is what it was. -/
theorem connect_cleanup (os os' : SocketCalls) (hclosed : self.AllClosed) :
    ∃ opened rest, self.views = opened ++ rest ∧
      Succeed os.Answers 0 (opened.flatMap SocketView.joins) ∧
      (∀ v ∈ rest.head?, ¬ Succeed os.Answers 0 ((opened ++ [v]).flatMap SocketView.joins)) ∧
      ((self.connect os).1 = .ok () ↔ rest = []) ∧
      (self.connect os).2.views = opened.map SocketView.opened ++ rest ∧
      (((self.connect os).2.disconnect os').1 = .ok () ↔
        Succeed os'.Answers 0 ((SocketView.memberships opened).map .leaveMulticast)) ∧
      (((self.connect os).2.disconnect os').1 = .ok () →
        ((self.connect os).2.disconnect os').2 = self) := by
  obtain ⟨opened, rest, hviews, hafter, hopened, hstop, hall⟩ := views_connect os self
  refine ⟨opened, rest, hviews, hopened, hstop, hall, hafter, ?_, disconnect_connect hclosed⟩
  have hrest : rest.flatMap SocketView.leaves = [] :=
    List.flatMap_eq_nil_iff.mpr fun v hv => SocketView.leaves_of_closed <|
      Network.closed_of_mem_views hclosed v (hviews ▸ List.mem_append_right _ hv)
  rw [disconnect_eq_ok_iff, Network.disconnectCalls_eq, hafter, List.flatMap_append, hrest,
    List.append_nil, SocketView.flatMap_leaves_opened]

end Connect

/-- Every call succeeds but the binding of the second of two sockets. -/
def firstCalls : SocketCalls where
  bind n address := if n = 2 then .err (.ioError "Address already in use") else .ok ⟨address⟩
  joinMulticast _ _ := .ok ()
  leaveMulticast _ _ := .ok ()

theorem connect_cleanup_first :
    (openNetwork.close.connect firstCalls).1 = .err (.ioError "Address already in use") ∧
      (openNetwork.close.connect firstCalls).2 ≠ openNetwork.close ∧
      ((openNetwork.close.connect firstCalls).2.disconnect firstCalls).2 = openNetwork.close := by
  have hclosed : openNetwork.close.AllClosed := by
    simp [Network.AllClosed, Network.interfaceSockets, Network.close, openNetwork,
      InterfaceListenAddresses.close, InterfaceSocket.close]
  obtain ⟨_, _, -, -, -, -, -, -, hrestored⟩ := connect_cleanup firstCalls firstCalls hclosed
  refine ⟨rfl, fun h => ?_, hrestored rfl⟩
  have hopen := congrArg (fun network => network.interfaceSockets.map (·.socket.isSome)) h
  exact absurd hopen (by decide)

end Echonet
