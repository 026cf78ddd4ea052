import EchonetBridge.Connectors.Address
import EchonetBridge.Foundations.Buffer
import EchonetBridge.Foundations.Grouping
import Mathlib.Data.List.Sort

/-!
# Connectors/Interfaces — the interfaces and addresses to listen on

`initialise` filters the addresses that the operating system reports, groups them by interface and
selects one multicast address of each family on every interface.  The interfaces are kept in a hash
set, which returns them in an order of its own (`HashOrder`).
-/

namespace Echonet

open Outcome

/-! ## Configuration -/

/-- Interface configuration. -/
structure AppInterfaceConfiguration where
  name : String
  port : UInt16
  ipv4 : Bool
  ipv6 : Bool

structure AppNetworkConfiguration where
  interfaces : Option (List AppInterfaceConfiguration)
  skipPtp : Bool

/-- The interfaces to filter by, unless all of them are wanted. -/
def AppNetworkConfiguration.onlyInterfaces (config : AppNetworkConfiguration) :
    Option (List AppInterfaceConfiguration) :=
  config.interfaces.filter fun interfaces => interfaces.length > 0

/-- The configuration of an interface: the last one of its name. -/
def interfaceConfig (interfaces : List AppInterfaceConfiguration) (interfaceName : String) :
    Option AppInterfaceConfiguration :=
  interfaces.reverse.find? fun x => x.name == interfaceName

def defaultPort : UInt16 := 3610

/-! ## What the operating system reports -/

structure InterfaceFlags where
  up : Bool
  running : Bool
  loopback : Bool
  pointopoint : Bool
  multicast : Bool
  deriving DecidableEq

/-- An address of an interface.  The name was read from a string that ends at its first null. -/
structure InterfaceAddress where
  interfaceName : String
  noNul : '\x00' ∉ interfaceName.toList
  flags : InterfaceFlags
  address : Option SockaddrStorage
  netmask : Option SockaddrStorage

/-- A C string, which has no null characters. -/
def cString (value : String) : Outcome ConnectorError String :=
  if '\x00' ∈ value.toList then .panic else .ok value

/-- What looking up the index of an interface returns, call by call. -/
abbrev IfNametoindex := ℕ → String → Outcome ConnectorError UInt32

/-! ## The interfaces that are listened on -/

/-- A bound socket. -/
structure UdpSocket where
  localAddress : SocketAddr
  deriving DecidableEq

/-- Keep track of the open sockets. -/
structure InterfaceSocket where
  address : SocketAddr
  network : SocketAddr
  netmask : SocketAddr
  /-- True if multicast is supported on this interface address. -/
  multicastCapable : Bool
  /-- True if multicast is selected for this interface address. -/
  multicastSelected : Bool
  /-- The bound socket. -/
  socket : Option UdpSocket
  deriving DecidableEq

/-- To keep track of the listen addresses and open sockets. -/
structure InterfaceListenAddresses where
  /-- The OS interface index. -/
  interfaceIndex : UInt32
  /-- The interface that this is referring to. -/
  interfaceName : String
  /-- The list of interface sockets. -/
  sockets : List InterfaceSocket
  deriving DecidableEq

/-- Network based communication: the addresses and sockets, once they are known. -/
structure Network where
  ilas : Option (List InterfaceListenAddresses)

/-- Nothing is known of the network yet. -/
def Network.new : Network := ⟨none⟩

/-- The order in which a hash set returns its elements. -/
structure HashOrder (α : Type) where
  list : List α → List α
  perm : ∀ l, (list l).Perm l

/-! ## Collecting the addresses -/

/-- The address of a record that is listened on: there is one, the interface is up and none to skip,
and its family is enabled. -/
def listenAddress (config : AppNetworkConfiguration) (ifaddr : InterfaceAddress) :
    Option SocketAddr :=
  if ifaddr.address.isNone || !ifaddr.flags.up || !ifaddr.flags.running ||
      ifaddr.flags.loopback then none
  else if config.skipPtp && ifaddr.flags.pointopoint then none
  else if config.onlyInterfaces.any fun interfaces =>
      !(interfaces.any fun x => x.name == ifaddr.interfaceName) then none
  else
    let maybeInterfaceConfig := config.onlyInterfaces.bind fun interfaces =>
      interfaceConfig interfaces ifaddr.interfaceName
    let port := (maybeInterfaceConfig.map fun e => e.port).getD defaultPort
    (sockaddrNixToStdnet ifaddr.address port).bind fun address =>
      let familyEnabled := (maybeInterfaceConfig.map fun ic =>
        match address with
        | .v4 _ _ => ic.ipv4
        | .v6 _ _ _ _ => ic.ipv6).getD true
      if address.ip.isLoopback || !familyEnabled then none else some address

/-- The socket of a record.  The netmask must be there, and of the family of the address. -/
def interfaceSocket (ifaddr : InterfaceAddress) (address : SocketAddr) :
    Outcome ConnectorError InterfaceSocket := do
  let netmask ← unwrap (sockaddrNixToStdnet ifaddr.netmask 0)
  match toNetwork address netmask with
  | .ok network =>
    pure {
      address := address
      network := network
      netmask := netmask
      multicastCapable := ifaddr.flags.multicast
      multicastSelected := false
      socket := none }
  | _ => .panic

/-- Save a socket. -/
def InterfaceListenAddresses.push (is : InterfaceSocket) (ila : InterfaceListenAddresses) :
    InterfaceListenAddresses := { ila with sockets := ila.sockets ++ [is] }

/-- One pass of the loop over the addresses: find the interface, save the socket and re-insert. -/
def collect (config : AppNetworkConfiguration) (ifNametoindex : IfNametoindex)
    (ilas : List InterfaceListenAddresses) (entry : InterfaceAddress × ℕ) :
    Outcome ConnectorError (List InterfaceListenAddresses) :=
  match listenAddress config entry.1 with
  | none => .ok ilas
  | some address => do
    let interfaceName ← cString entry.1.interfaceName
    let interfaceIndex ← ifNametoindex entry.2 interfaceName
    let tempIla : InterfaceListenAddresses := ⟨interfaceIndex, entry.1.interfaceName, []⟩
    let (found, ilas) := Grouping.take (·.interfaceIndex) tempIla.interfaceIndex ilas
    let ila := found.getD tempIla
    let is ← interfaceSocket entry.1 address
    pure (Grouping.insert (·.interfaceIndex) (ila.push is) ilas)

/-! ## Selecting the multicast addresses -/

/-- The weight of a socket among the IPv4 sockets; the largest excludes it. -/
def weight4 (e : InterfaceSocket) : ℕ :=
  match e.address.ip with
  | .v4 ip =>
    if e.multicastCapable then
      1 * (if ip.isLinkLocal then 1000 else if ip.isPrivate then 2000
        else if isGlobalish4 ip then 3000 else 5000)
    else 1000000
  | .v6 _ => 1000000

/-- The weight of a socket among the IPv6 sockets; the largest excludes it. -/
def weight6 (e : InterfaceSocket) : ℕ :=
  match e.address.ip with
  | .v6 ip =>
    if e.multicastCapable then
      1 * (if ip.isUnicastLinkLocal then 1000 else if ip.isUniqueLocal then 2000
        else if isGlobalish6 ip then 3000 else 5000)
    else 1000000
  | .v4 _ => 1000000

/-- The indexes of the sockets that are not excluded, with their preferences. -/
def socketIndexes (weight : InterfaceSocket → ℕ) (sockets : List InterfaceSocket) : List (ℕ × ℕ) :=
  (sockets.zipIdx.map fun (e, index) => (index, index + weight e)).filter
    fun (_, pref) => pref < 1000000

def InterfaceSocket.select (is : InterfaceSocket) : InterfaceSocket :=
  { is with multicastSelected := true }

/-- Select the first of the sockets that are preferred. -/
def selectPreferred (weight : InterfaceSocket → ℕ) (sockets : List InterfaceSocket) :
    List InterfaceSocket :=
  match ((socketIndexes weight sockets).mergeSort fun a b => a.2 ≤ b.2).head? with
  | some (index, _) => sockets.modify index InterfaceSocket.select
  | none => sockets

/-- Find the IPv4 multicast address, and then the IPv6 multicast address. -/
def selectMulticast (sockets : List InterfaceSocket) : List InterfaceSocket :=
  selectPreferred weight6 (selectPreferred weight4 sockets)

/-! ## Initialisation -/

def InterfaceListenAddresses.selectMulticast (ila : InterfaceListenAddresses) :
    InterfaceListenAddresses := { ila with sockets := Echonet.selectMulticast ila.sockets }

/-- Get a list of addresses and interfaces to bind to.  Nothing is saved unless all goes well. -/
def Network.initialise (config : AppNetworkConfiguration) (ifaddrs : List InterfaceAddress)
    (ifNametoindex : IfNametoindex) (order : HashOrder InterfaceListenAddresses)
    (self : Network) : Outcome ConnectorError Unit × Network :=
  match ifaddrs.zipIdx.foldlM (collect config ifNametoindex) [] with
  | .ok ilas =>
    (.ok (), ⟨some ((order.list ilas).map InterfaceListenAddresses.selectMulticast)⟩)
  | .err e => (.err e, self)
  | .panic => (.panic, self)

end Echonet
