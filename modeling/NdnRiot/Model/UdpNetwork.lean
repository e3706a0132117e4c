import NdnRiot.Lib.Medium
import NdnRiot.Model.System

/-!
# Devices that exchange datagrams

Any number of devices with a UDP face, over a network that may lose, duplicate, delay
and reorder datagrams (`Lib.Medium`). What a device puts on the network is what
`ndn_udp_face_send` dispatched. A datagram reaches the devices its address leads to;
there it becomes a message where the `netreg` entry of the face is registered for its
port. The faces can be constructed again and again.
-/

namespace NdnRiot

structure Datagram where
  dst : BitVec 128
  srcPort : UInt16
  dstPort : UInt16
  payload : List UInt8
  deriving DecidableEq, Repr

/-- What a device with a UDP face does: an action of its thread, a send, or a
construction of the face. -/
inductive UdpAction
  | inside (a : Action)
  | send (netif : Option Pid) (packet : List UInt8) (riot : Riot)
  | construct (localPort : UInt16) (remoteAddr : BitVec 128) (remotePort : UInt16)
      (registeredAs : Option Nat)

/-- RIOT hands datagrams for the port to the thread. -/
def Thread.ListensOn (t : Thread) (port : UInt16) : Prop :=
  .udpMeReg ∈ t.netreg .udp ∧ t.udpMeReg.targetPid = some t.pid ∧
    t.udpMeReg.demuxCtx = .port port

instance (t : Thread) (port : UInt16) : Decidable (t.ListensOn port) :=
  inferInstanceAs (Decidable (_ ∧ _ ∧ _))

/-- What happens on the network. -/
abbrev UdpEvent (ν : Type*) := Medium.Event ν Datagram UdpAction (Pid × Nat)

end NdnRiot
