import NdnRiot.Model.L2

/-!
# The thread that runs the adaptation

One RIOT thread runs ndn-lite with both adaptations. Its state is the static
data of `netface.c` and `udp.c`, the thread's message queue, the receive events
pending in ndn-lite's own queue, and the `netreg` lists. Handlers run to
completion, so a thread state is always one between two handlers.

`history` keeps, for each dispatched event, the message it popped and the calls
it made; the source has no such variable, properties read it. The queue is not
bounded: what RIOT drops in front of a full queue does not arrive.
-/

namespace NdnRiot

/-- The demultiplexing context of a `netreg` entry. -/
inductive DemuxCtx
  | unset
  | all
  | port (number : UInt16)
  deriving DecidableEq, Repr

/-- `gnrc_netreg_entry_t`: a `targetPid` of `none` is `KERNEL_PID_UNDEF`. -/
structure NetregEntry where
  demuxCtx : DemuxCtx
  targetPid : Option Pid
  deriving DecidableEq, Repr

/-- `ndn_udp_face_t`, with the fields of `ndn_face_intf_t` that are used. -/
structure UdpFace where
  state : FaceState
  faceId : Option Nat
  localPort : UInt16
  remotePort : UInt16
  remoteAddr : BitVec 128
  deriving DecidableEq, Repr

/-- One dispatched receive event. `stale` is what the handler's local message
holds at its start, `msg` what `msg_try_receive` popped. -/
structure Dispatch where
  self : FaceRef
  stale : Msg
  msg : Option Msg
  calls : List Call
  deriving DecidableEq, Repr

/-- The state of the thread. `netfaceTable` is `_netface_table`, `events` the
pending receive events, each under the face it was posted for. -/
structure Thread where
  pid : Pid
  netfaceTable : List Netface
  netfaceMeReg : NetregEntry
  udpFace : UdpFace
  udpMeReg : NetregEntry
  netreg : Nettype → List RegEntry
  msgQueue : List Msg
  events : List FaceRef
  history : List Dispatch

/-- The thread at boot, on a device with `netifNumof` interfaces: zeroed memory,
nothing pending. -/
def Thread.boot (pid : Pid) (netifNumof : Nat) : Thread where
  pid := pid
  netfaceTable := List.replicate netifNumof .zeroed
  netfaceMeReg := ⟨.unset, none⟩
  udpFace := ⟨.down, some 0, 0, 0, 0⟩
  udpMeReg := ⟨.unset, none⟩
  netreg _ := []
  msgQueue := []
  events := []
  history := []

/-- `msg_init_queue`: the queue starts empty. -/
def Thread.msgInitQueue (t : Thread) : Thread := { t with msgQueue := [] }

/-- `gnrc_netreg_register(type, entry)`. -/
def Thread.gnrcNetregRegister (P : Platform) (t : Thread) (type : Nettype)
    (entry : RegEntry) : Thread :=
  { t with netreg := fun ty =>
      if ty = type then P.netregRegister (t.netreg ty) entry else t.netreg ty }

/-- `gnrc_netreg_unregister(type, entry)`. -/
def Thread.gnrcNetregUnregister (P : Platform) (t : Thread) (type : Nettype)
    (entry : RegEntry) : Thread :=
  { t with netreg := fun ty =>
      if ty = type then P.netregUnregister (t.netreg ty) entry else t.netreg ty }

/-- `ndn_msgqueue_post`. -/
def Thread.ndnMsgqueuePost (t : Thread) (self : FaceRef) : Thread :=
  { t with events := t.events ++ [self] }

/-- `msg_try_receive`: the head of the queue, or nothing. -/
def msgTryReceive : List Msg → Option (Msg × List Msg)
  | [] => none
  | m :: rest => some (m, rest)

/-- `ndn_face_up` on a face in `state` whose interface has this `up`. -/
def ndnFaceUp {σ : Type} (P : Platform) (state : FaceState) (up : σ → Int × σ)
    (s : σ) : Int × σ :=
  if P.faceUpCalls state then up s else (ndnSuccess, s)

/-- `ndn_face_down` on a face in `state` whose interface has this `down`. -/
def ndnFaceDown {σ : Type} (P : Platform) (state : FaceState) (down : σ → Int × σ)
    (s : σ) : Int × σ :=
  if P.faceDownCalls state then down s else (ndnSuccess, s)

end NdnRiot
