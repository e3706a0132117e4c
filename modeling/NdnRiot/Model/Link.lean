import NdnRiot.Lib.Medium
import NdnRiot.Model.System

/-!
# Devices on a link

Any number of devices, each with a thread as in `Model.System`, share links that
may lose, duplicate, delay and reorder frames (`Lib.Medium`). What a device puts
on a link is what `ndn_netface_send` hands to an interface; a frame that reaches
a device arrives as an RCV message with a snip of type NDN, on any interface.
-/

namespace NdnRiot

/-- One call of `ndn_netface_send`: the MTU of the netface, the packet, the number
`ndn_rng` draws next, and the frames that were handed to the interface. -/
structure Transmission where
  mtu : UInt16
  packet : List UInt8
  identifier : UInt16
  frames : List (List UInt8)
  deriving DecidableEq, Repr

/-- How a frame of a transmission is received: the interface it arrives on, and the
address of its snip. -/
structure Reception where
  frame : List UInt8
  pid : Pid
  handle : Nat
  deriving DecidableEq, Repr

/-- The message a received frame becomes. -/
def Reception.msg (how : Reception) : Msg := ⟨how.pid, .rcv, some ⟨how.handle, .ndn, how.frame⟩⟩

/-- A send, as what it puts on the link. -/
def transmit (P : Platform) (face : Netface) (packet : List UInt8) (riot : Riot) :
    Option Transmission :=
  (ndnNetfaceSend P face packet riot).map fun (_, riot') =>
    { mtu := face.mtu
      packet
      identifier := riot.random riot.draws
      frames := (sentFrames riot'.log).drop (sentFrames riot.log).length }

/-- The devices: a send puts its frames on the link, the other actions stay inside
the device. -/
def linkProgram (P : Platform) (ν : Type*) :
    Medium.Program ν Thread Transmission Action Reception where
  act _ a t :=
    match a with
    | .netfaceSend i packet riot =>
        t.netfaceTable[i]?.bind fun face =>
          (transmit P face packet riot).map fun tx => (t, [tx])
    | a => (t.step P a).map (·, [])
  receive _ how tx t :=
    if how.frame ∈ tx.frames then (t.step P (.arrive how.msg)).map (·, []) else none

/-- The devices and the link. -/
abbrev LinkNet (ν : Type*) := Medium.Net ν Thread Transmission

/-- What happens on a link. -/
abbrev LinkEvent (ν : Type*) := Medium.Event ν Transmission Action Reception

end NdnRiot
