import NdnRiot.Model.Thread

/-!
# `udp.c`: the NDN-over-UDP face

The receive handler, the life cycle, the send function and the construction of
the static face `udp_face`.
-/

namespace NdnRiot

/-- `ndn_udp_face_recv`: the queue it leaves and its calls. The result of
`msg_try_receive` is not looked at, so on an empty queue the handler goes on
with whatever the local `msg` holds, which is `stale`. -/
def ndnUdpFaceRecv (self : FaceRef) (stale : Msg) (msgQueue : List Msg) :
    Except Fault (List Msg × List Call) := do
  let (msg, msgQueue) := (msgTryReceive msgQueue).getD (stale, msgQueue)
  match msg.type with
  | .rcv =>
      let pkt ← deref msg.ptr
      -- a snip of type NDN is logged as discarded, and goes on like any other
      return (msgQueue, [.ndnForwarderReceive self (pkt.data.take pkt.size),
        .gnrcPktbufRelease pkt, .ndnMsgqueuePost self])
  | .get | .set =>
      return (msgQueue, [.msgReply msg .ack .enotsup, .ndnMsgqueuePost self])
  | .snd | .ack | .other _ => return (msgQueue, [.ndnMsgqueuePost self])

/-- `ndn_udp_face_up`. -/
def ndnUdpFaceUp (t : Thread) : Int × Thread :=
  let t := t.ndnMsgqueuePost .udp
  (ndnSuccess, { t with udpFace := { t.udpFace with state := .up } })

/-- `ndn_udp_face_down`. -/
def ndnUdpFaceDown (t : Thread) : Int × Thread :=
  (ndnSuccess, { t with udpFace := { t.udpFace with state := .down } })

/-- `ndn_udp_face_destroy`. -/
def ndnUdpFaceDestroy (P : Platform) (t : Thread) : Thread × List Call :=
  let t := t.gnrcNetregUnregister P .udp .udpMeReg
  let t := { t with udpMeReg := { t.udpMeReg with targetPid := none } }
  let (_, t) := ndnFaceDown P t.udpFace.state ndnUdpFaceDown t
  (t, [.ndnForwarderUnregisterFace .udp])

/-! ## Sending -/

/-- A snip of an outgoing datagram. A packet is the list of its snips, the head
of the chain first. -/
inductive UdpSnip
  | payload (handle : Nat) (type : Nettype) (data : List UInt8)
  | udpHdr (handle : Nat) (src dst : UInt16)
  | ipv6Hdr (handle : Nat) (dst : BitVec 128)
  | netifHdr (handle : Nat) (ifPid : Pid)
  deriving DecidableEq, Repr

/-- What happened to packet buffers. A dispatch is one that found a receiver. -/
inductive UdpCall
  | gnrcPktbufAdd (snip : UdpSnip)
  | gnrcUdpHdrBuild (snip : UdpSnip)
  | gnrcIpv6HdrBuild (snip : UdpSnip)
  | gnrcNetifHdrBuild (handle : Nat)
  | gnrcNetapiDispatchSend (type : Nettype) (pkt : List UdpSnip)
  | gnrcPktbufRelease (pkt : List UdpSnip)
  deriving DecidableEq, Repr

/-- A call that allocates a snip: its handle, or `NULL`. -/
def Riot.alloc (r : Riot) : Option Nat × Riot :=
  if r.ok then (some r.nextHandle, r.tick.fresh) else (none, r.tick)

/-- The end of `ndn_udp_face_send`. The function ends without a `return`. -/
def udpDispatchSend (ip : List UdpSnip) (calls : List UdpCall) (r : Riot) :
    Option Int × Riot × List UdpCall :=
  if r.ok then (none, r.tick, calls ++ [.gnrcNetapiDispatchSend .udp ip])
  else (none, r.tick, calls ++ [.gnrcPktbufRelease ip])

/-- `ndn_udp_face_send`: its result, which is `none` where it returns without a
value, and its calls. `netif` is what `gnrc_netif_iter(NULL)` found. -/
def ndnUdpFaceSend (face : UdpFace) (netif : Option Pid) (packet : List UInt8) (r : Riot) :
    Except Fault (Option Int × Riot × List UdpCall) :=
  match r.alloc with
  | (none, r) => .ok (none, r, [])
  | (some handle, r) =>
      let payload := [.payload handle .undef packet]
      let calls := [.gnrcPktbufAdd (.payload handle .undef packet)]
      match r.alloc with
      | (none, r) => .ok (none, r, calls ++ [.gnrcPktbufRelease payload])
      | (some handle, r) =>
          let hdr := .udpHdr handle face.localPort face.remotePort
          let udp := hdr :: payload
          let calls := calls ++ [.gnrcUdpHdrBuild hdr]
          match r.alloc with
          | (none, r) => .ok (none, r, calls ++ [.gnrcPktbufRelease udp])
          | (some handle, r) =>
              let hdr := .ipv6Hdr handle face.remoteAddr
              let ip := hdr :: udp
              let calls := calls ++ [.gnrcIpv6HdrBuild hdr]
              match netif with
              | none => .ok (udpDispatchSend ip calls r)
              | some pid =>
                  match r.alloc with
                  -- the interface is written into the header without a test for `NULL`
                  | (none, _) => .error .nullDereference
                  | (some handle, r) =>
                      .ok (udpDispatchSend (.netifHdr handle pid :: ip)
                        (calls ++ [.gnrcNetifHdrBuild handle]) r)

/-! ## Construction -/

/-- `ndn_udp_face_construct`: whether it returned the face (it returns `NULL`
otherwise), and the thread. `registeredAs` is the face id the forwarder gives,
`none` when it refuses the face. -/
def ndnUdpFaceConstruct (P : Platform) (localPort : UInt16) (remoteAddr : BitVec 128)
    (remotePort : UInt16) (registeredAs : Option Nat) (t : Thread) : Bool × Thread :=
  let t := { t with udpFace := { t.udpFace with localPort, remoteAddr, remotePort } }
  let t := t.msgInitQueue
  let t := { t with udpMeReg := { demuxCtx := .port localPort, targetPid := some t.pid } }
  let t := t.gnrcNetregRegister P .udp .udpMeReg
  let t := { t with udpFace := { t.udpFace with faceId := none } }
  match registeredAs with
  | none => (false, t)
  | some id =>
      let t := { t with udpFace := { t.udpFace with faceId := some id, state := .down } }
      let (_, t) := ndnFaceUp P t.udpFace.state ndnUdpFaceUp t
      (true, t)

end NdnRiot
