import NdnRiot.Model.Thread

/-!
# `netface.c`: link-layer faces

The life cycle of a netface, its send and receive functions, and the
construction of the netface table.
-/

namespace NdnRiot

/-- `ndn_netface_up`. -/
def ndnNetfaceUp (self : Netface) : Int × Netface := (0, { self with state := .up })

/-- `ndn_netface_destroy`. -/
def ndnNetfaceDestroy (self : Netface) : Netface := { self with state := .destroyed }

/-- `ndn_netface_down`. -/
def ndnNetfaceDown (self : Netface) : Int × Netface := (0, { self with state := .down })

/-- `ndn_netface_send`. The test of `phyface` for `NULL` comes after its `pid`
was read and only logs; `self` is a valid pointer. -/
def ndnNetfaceSend (P : Platform) (self : Netface) (packet : List UInt8) (r : Riot) :
    Option (Int × Riot) :=
  if self.mtu.toNat < packet.length then
    ndnL2SendFragments P self.pid packet self.mtu r
  else
    match r.gnrcPktbufAdd packet .ndn with
    | (none, r) => some (-1, r)
    | (some pkt, r) => some (ndnL2SendPacket self.pid [pkt] r)

/-- What one `ndn_netface_send` did: its result, and the frames handed to the
interface. -/
structure Sent where
  ret : Int
  frames : List (List UInt8)
  deriving DecidableEq, Repr

/-- `ndn_netface_send` on one packet after the other. -/
def sendAll (P : Platform) (self : Netface) :
    List (List UInt8) → Riot → Option (List Sent × Riot)
  | [], r => some ([], r)
  | packet :: rest, r => do
      let (ret, r₁) ← ndnNetfaceSend P self packet r
      let (sends, r₂) ← sendAll P self rest r₁
      return (⟨ret, (sentFrames r₁.log).drop (sentFrames r.log).length⟩ :: sends, r₂)

/-- `ndn_netface_receive`: the netface and the queue it leaves, and its calls. -/
def ndnNetfaceReceive (P : Platform) (self : FaceRef) (face : Netface)
    (msgQueue : List Msg) : Except Fault (Netface × List Msg × List Call) :=
  match msgTryReceive msgQueue with
  | none => .ok (face, msgQueue, [.ndnMsgqueuePost self])
  | some (msg, msgQueue) =>
      match msg.type with
      | .rcv => do
          let (_, face, calls) ← ndnL2ProcessPacket P self face msg.ptr
          return (face, msgQueue, calls ++ [.ndnMsgqueuePost self])
      | .get | .set =>
          .ok (face, msgQueue, [.msgReply msg .ack .enotsup, .ndnMsgqueuePost self])
      | .snd | .ack | .other _ => .ok (face, msgQueue, [.ndnMsgqueuePost self])

/-! ## Construction -/

/-- An interface as the construction loop meets it: its pid, its answer to the
`NETOPT_MAX_PACKET_SIZE` query (`none` is an error), its answer to the
`NETOPT_PROTO` query (`none` where the option is not supported), and the face
id the forwarder gives to its netface (`none` when it refuses it). -/
structure NetifInfo where
  pid : Pid
  maxPacketSize : Option UInt16
  proto : Option Nettype
  registeredAs : Option Nat
  deriving DecidableEq, Repr

/-- The body of the loop in `ndn_netface_auto_construct`, for table entry `i`. -/
def constructEntry (P : Platform) (i : Nat) (netif : NetifInfo) (entry : Netface) :
    Netface × List Call :=
  match netif.maxPacketSize with
  | none => (entry, [])
  | some mtu =>
      let protoCalls :=
        match netif.proto with
        | some proto =>
            if proto ≠ .ndn then [.gnrcNetapiSetProto netif.pid .ndn] else []
        | none => []
      let entry := { entry with mtu, state := .down, faceId := none, pid := netif.pid }
      -- the result of the registration is not looked at
      let entry := { entry with faceId := netif.registeredAs }
      let (_, entry) := ndnFaceUp P entry.state ndnNetfaceUp entry
      (entry.initAssembler P, protoCalls ++ [.ndnMsgqueuePost (.netface i)])

/-- The loop over the interfaces, from table entry `i` on. RIOT has at most
`GNRC_NETIF_NUMOF` interfaces, so the table does not run out. -/
def constructLoop (P : Platform) : Nat → List NetifInfo → List Netface →
    List Netface × List Call
  | _, [], table => (table, [])
  | _, _ :: _, [] => ([], [])
  | i, netif :: netifs, entry :: table =>
      let (entry, calls) := constructEntry P i netif entry
      let (table, rest) := constructLoop P (i + 1) netifs table
      (entry :: table, calls ++ rest)

/-- `UINT32_MAX`. -/
def uint32Max : Nat := 4294967295

/-- `ndn_netface_auto_construct`: the return value as `uint32_t`, the thread
and the calls. -/
def ndnNetfaceAutoConstruct (P : Platform) (netifs : List NetifInfo) (t : Thread) :
    Nat × Thread × List Call :=
  let t := t.msgInitQueue
  let t := { t with netfaceMeReg := { demuxCtx := .all, targetPid := some t.pid } }
  let t := t.gnrcNetregRegister P .ndn .netfaceMeReg
  let table := t.netfaceTable.map fun entry => { entry with faceId := none }
  if netifs.length = 0 then
    -- `return -1` from an unsigned function
    (uint32Max, { t with netfaceTable := table }, [])
  else
    let (table, calls) := constructLoop P 0 netifs table
    (netifs.length,
      { t with netfaceTable := table, events := t.events ++ posts calls }, calls)

/-- `ndn_lite_startup`, as far as the thread is concerned; the rest of it
initialises ndn-lite. -/
def ndnLiteStartup (P : Platform) (netifs : List NetifInfo) (t : Thread) : Thread :=
  (ndnNetfaceAutoConstruct P netifs t).2.1

end NdnRiot
