import EchonetBridge.Connectors.Network
import EchonetBridge.Foundations.BigEndian

/-!
# Connectors/Address — socket addresses

IPv4 and IPv6 addresses with the blocks they may belong to, the socket addresses made of them, and
the conversions from what the operating system reports.
-/

namespace Echonet

open BigEndian Outcome

/-! ## IPv4 -/

structure Ipv4Addr where
  octets : Vector UInt8 4
  deriving DecidableEq

namespace Ipv4Addr

variable (ip : Ipv4Addr)

/-- The octet at an index below four. -/
def octet (i : ℕ) : UInt8 := ip.octets.toList.getD i 0

/-- The octets begin with these. -/
def startsWith (start : List UInt8) : Bool := start.isPrefixOf ip.octets.toList

/-- `10.0.0.0/8`, `172.16.0.0/12` and `192.168.0.0/16`. -/
def isPrivate : Bool :=
  ip.startsWith [10] || (ip.startsWith [172] && ip.octet 1 ≥ 16 && ip.octet 1 ≤ 31) ||
    ip.startsWith [192, 168]

/-- `127.0.0.0/8`. -/
def isLoopback : Bool := ip.startsWith [127]

/-- `169.254.0.0/16`. -/
def isLinkLocal : Bool := ip.startsWith [169, 254]

/-- `192.0.2.0/24`, `198.51.100.0/24` and `203.0.113.0/24`. -/
def isDocumentation : Bool :=
  ip.startsWith [192, 0, 2] || ip.startsWith [198, 51, 100] || ip.startsWith [203, 0, 113]

def isBroadcast : Bool := ip.startsWith [255, 255, 255, 255]

end Ipv4Addr

/-- Copied until `is_global` is stable. -/
def isGlobalish4 (obj : Ipv4Addr) : Bool :=
  !(obj.octet 0 == 0 || obj.isPrivate || obj.isLoopback || obj.isLinkLocal ||
    (obj.octet 0 == 192 && obj.octet 1 == 0 && obj.octet 2 == 0 && obj.octet 3 != 9 &&
      obj.octet 3 != 10) ||
    obj.isDocumentation || obj.isBroadcast)

/-! ## IPv6 -/

structure Ipv6Addr where
  octets : Vector UInt8 16
  deriving DecidableEq

namespace Ipv6Addr

variable (ip : Ipv6Addr)

/-- The eight words of the address. -/
def segments : Vector UInt16 8 :=
  .ofFn fun i => fromBeBytes₁₆ #v[ip.octets[2 * i.val], ip.octets[2 * i.val + 1]]

/-- The address as a number. -/
def toBits : ℕ := beValue ip.octets.toList

/-- The segments begin with these. -/
def startsWith (start : List UInt16) : Bool := start.isPrefixOf ip.segments.toList

def isUnspecified : Bool := ip.toBits == 0

def isLoopback : Bool := ip.toBits == 1

/-- `fc00::/7`. -/
def isUniqueLocal : Bool := ip.segments[0] &&& 0xfe00 == 0xfc00

/-- `fe80::/10`. -/
def isUnicastLinkLocal : Bool := ip.segments[0] &&& 0xffc0 == 0xfe80

end Ipv6Addr

/-- Copied until `is_global` is stable. -/
def isGlobalish6 (obj : Ipv6Addr) : Bool :=
  !(obj.isUnspecified || obj.isLoopback || obj.startsWith [0, 0, 0, 0, 0, 0xffff] ||
    obj.startsWith [0x64, 0xff9b, 1] || obj.startsWith [0x100, 0, 0, 0] ||
    ((obj.startsWith [0x2001] && obj.segments[1] < 0x200) &&
      !(obj.toBits == 0x20010001000000000000000000000001 ||
        obj.toBits == 0x20010001000000000000000000000002 || obj.startsWith [0x2001, 3] ||
        obj.startsWith [0x2001, 4, 0x112] ||
        (obj.startsWith [0x2001] && obj.segments[1] ≥ 0x20 && obj.segments[1] ≤ 0x3f))) ||
    obj.startsWith [0x2002] || obj.startsWith [0x5f00] || obj.isUniqueLocal ||
    obj.isUnicastLinkLocal)

/-! ## Socket addresses -/

inductive IpAddr where
  | v4 (ip : Ipv4Addr)
  | v6 (ip : Ipv6Addr)
  deriving DecidableEq

def IpAddr.isLoopback : IpAddr → Bool
  | v4 ip => ip.isLoopback
  | v6 ip => ip.isLoopback

inductive SocketAddr where
  | v4 (ip : Ipv4Addr) (port : UInt16)
  | v6 (ip : Ipv6Addr) (port : UInt16) (flowinfo scopeId : UInt32)
  deriving DecidableEq

def SocketAddr.ip : SocketAddr → IpAddr
  | v4 ip _ => .v4 ip
  | v6 ip _ _ _ => .v6 ip

/-- Convert an address and a netmask to a network address. -/
def toNetwork (address netmask : SocketAddr) : Outcome ConnectorError SocketAddr :=
  match address, netmask with
  | .v4 a port, .v4 n _ => .ok (.v4 ⟨Vector.zipWith (· &&& ·) a.octets n.octets⟩ port)
  | .v6 a port flowinfo scopeId, .v6 n _ _ _ =>
    .ok (.v6 ⟨Vector.zipWith (· &&& ·) a.octets n.octets⟩ port flowinfo scopeId)
  | _, _ => .err .mismatchedTypes

/-- An address as the operating system reports it. -/
inductive SockaddrStorage where
  | sockaddrIn (ip : Ipv4Addr)
  | sockaddrIn6 (ip : Ipv6Addr) (flowinfo scopeId : UInt32)
  /-- An address of another family. -/
  | other
  deriving DecidableEq

/-- Convert from what is reported to a socket address. -/
def sockaddrNixToStdnet (maybeStorage : Option SockaddrStorage) (port : UInt16) :
    Option SocketAddr :=
  maybeStorage.bind fun
    | .sockaddrIn ip => some (.v4 ip port)
    | .sockaddrIn6 ip flowinfo scopeId => some (.v6 ip port flowinfo scopeId)
    | .other => none

theorem sockaddrNixToStdnet_eq_v4 {maybeStorage : Option SockaddrStorage} {port port' : UInt16}
    {ip : Ipv4Addr} :
    sockaddrNixToStdnet maybeStorage port = some (.v4 ip port') ↔
      maybeStorage = some (.sockaddrIn ip) ∧ port' = port := by
  rcases maybeStorage with _ | _ | _ | _ <;> simp [sockaddrNixToStdnet, eq_comm]

theorem sockaddrNixToStdnet_eq_v6 {maybeStorage : Option SockaddrStorage} {port port' : UInt16}
    {ip : Ipv6Addr} {flowinfo scopeId : UInt32} :
    sockaddrNixToStdnet maybeStorage port = some (.v6 ip port' flowinfo scopeId) ↔
      maybeStorage = some (.sockaddrIn6 ip flowinfo scopeId) ∧ port' = port := by
  rcases maybeStorage with _ | _ | _ | _ <;>
    simp [sockaddrNixToStdnet, eq_comm, and_assoc, and_comm]

end Echonet
