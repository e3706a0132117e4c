import NdnRiot.Lib.Run
import NdnRiot.Lib.Medium
import NdnRiot.Lib.Ownership
import NdnRiot.Lib.Reassembly
import NdnRiot.Lib.SinglePlace
import NdnRiot.Lib.Stream
import NdnRiot.Lib.Cable
import NdnRiot.Lib.Contention
import NdnRiot.Lib.Tlv
import NdnRiot.Model.Types
import NdnRiot.Model.Platform
import NdnRiot.Model.L2
import NdnRiot.Model.Thread
import NdnRiot.Model.Netface
import NdnRiot.Model.Udp
import NdnRiot.Model.System
import NdnRiot.Model.Link
import NdnRiot.Model.UdpNetwork
import NdnRiot.Model.Duplex
import NdnRiot.Model.Nightlight
import NdnRiot.Model.Bootstrap
import NdnRiot.Model.SignOn
import NdnRiot.Model.Sensors
import NdnRiot.Model.Control
import NdnRiot.Model.Household
import NdnRiot.Logic.Receive
import NdnRiot.Logic.Send
import NdnRiot.Logic.Handlers
import NdnRiot.Logic.Link
import NdnRiot.Logic.Pending
import NdnRiot.Logic.Construct
import NdnRiot.Logic.Lifecycle
import NdnRiot.Logic.Nightlight
import NdnRiot.Logic.Sensors
import NdnRiot.Theorems.RoundTrip
import NdnRiot.Theorems.NetfaceLedger
import NdnRiot.Theorems.NetfacePump
import NdnRiot.Theorems.NetfaceTable
import NdnRiot.Theorems.Attribution
import NdnRiot.Theorems.Coexistence
import NdnRiot.Theorems.CommandOnce
import NdnRiot.Theorems.Contention
import NdnRiot.Theorems.FaceState
import NdnRiot.Theorems.ReassemblySafety
import NdnRiot.Theorems.Recovery
import NdnRiot.Theorems.HubMirror
import NdnRiot.Theorems.HouseholdSafety
import NdnRiot.Theorems.LightAgreement
import NdnRiot.Theorems.LinkIntegrity
import NdnRiot.Theorems.Limits
import NdnRiot.Theorems.LossyLink
import NdnRiot.Theorems.OrderedDatagrams
import NdnRiot.Theorems.OrderedDelivery
import NdnRiot.Theorems.FragmentGuard
import NdnRiot.Theorems.FrameBounds
import NdnRiot.Theorems.SendFailures
import NdnRiot.Theorems.SwitchOff
import NdnRiot.Theorems.SwitchOn
import NdnRiot.Theorems.UdpFailures
import NdnRiot.Theorems.UdpPump
import NdnRiot.Theorems.UdpRegistry
import NdnRiot.Theorems.UdpIngress
import NdnRiot.Theorems.UdpIntegrity
import NdnRiot.Theorems.BootstrapContent
import NdnRiot.Theorems.SignOn
import NdnRiot.Theorems.SensorContract
import NdnRiot.Theorems.SensorReports
