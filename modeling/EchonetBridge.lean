import EchonetBridge.Foundations.Machine
import EchonetBridge.Api.FaultDescription
import EchonetBridge.Api.HexStringText
import EchonetBridge.Api.PropertyMapSet
import EchonetBridge.Api.PropertyMapRoundTrip
import EchonetBridge.Epc.StoredBuffer
import EchonetBridge.Epc.Readback
import EchonetBridge.Epc.FaultContent
import EchonetBridge.Epc.Locations
import EchonetBridge.Epc.ManufacturerFault
import EchonetBridge.Epc.ObjectLists
import EchonetBridge.Epc.AsciiStrings
import EchonetBridge.Epc.PropertyMaps
import EchonetBridge.Epc.Booleans
import EchonetBridge.Epc.Versions
import EchonetBridge.Epc.Durations
import EchonetBridge.Epc.Dates
import EchonetBridge.Epc.Integers
import EchonetBridge.Epc.PackedDecimals
import EchonetBridge.Middleware.Profile
import EchonetBridge.Connectors.Multicast
import EchonetBridge.Connectors.Netmasks
import EchonetBridge.Connectors.Sockets
import EchonetBridge.Connectors.Wire
import EchonetBridge.Main.Blocking
import EchonetBridge.Main.Flush
import EchonetBridge.Connectors.Memberships
import EchonetBridge.Connectors.Invariants
import EchonetBridge.Connectors.Configuration
import EchonetBridge.Main.Progress
import EchonetBridge.Main.Program
import EchonetBridge.Epc.Acceptance
import EchonetBridge.Api.PropertyMapCanonical
import EchonetBridge.Epc.Times
import EchonetBridge.Epc.HexStrings
import EchonetBridge.Epc.Flags
import EchonetBridge.Epc.WriteBack
import EchonetBridge.Connectors.Subnets
import EchonetBridge.Connectors.Dump
import EchonetBridge.Api.HexStringOrder
import EchonetBridge.Epc.Identifiers
import EchonetBridge.Api.Texts
import EchonetBridge.Middleware.Texts
