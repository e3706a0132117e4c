import NdnRiot.Model.Platform

/-!
# `l2.c`: sending and receiving frames on a link

Sending talks to RIOT through calls that can fail. `Riot` is the state of that
conversation: which of the calls to come succeed, the random numbers to come,
and the log of what was done with the packet buffer. Receiving is a function of
the netface and the snip; what it calls is returned as a list.
-/

namespace NdnRiot

/-! ## The send side of RIOT -/

/-- A snip of an outgoing packet. A packet is the list of its snips, the head
of the chain first. -/
inductive OutSnip
  | payload (handle : Nat) (type : Nettype) (data : List UInt8)
  | netifHdr (handle : Nat) (broadcast : Bool) (ifPid : Pid)
  deriving DecidableEq, Repr

/-- What happened to packet buffers. -/
inductive PktCall
  | gnrcPktbufAdd (snip : OutSnip)
  | gnrcNetifHdrBuild (handle : Nat)
  | gnrcNetapiSend (pid : Pid) (pkt : List OutSnip)
  | gnrcPktbufRelease (pkt : List OutSnip)
  deriving DecidableEq, Repr

/-- RIOT as a sender meets it. `succeeds n` is the outcome of the `n`-th
fallible call, `random n` the `n`-th draw of `ndn_rng`, and `uninit` what an
uninitialised buffer happens to hold. -/
structure Riot where
  succeeds : Nat → Bool
  random : Nat → UInt16
  uninit : Nat → UInt8
  calls : Nat
  draws : Nat
  nextHandle : Nat
  log : List PktCall

namespace Riot

/-- RIOT at the start, where no call fails. -/
def calm (random : Nat → UInt16) : Riot where
  succeeds _ := true
  random := random
  uninit _ := 0
  calls := 0
  draws := 0
  nextHandle := 0
  log := []

/-- Whether the next fallible call succeeds. -/
def ok (r : Riot) : Bool := r.succeeds r.calls

/-- A fallible call was made. -/
def tick (r : Riot) : Riot := { r with calls := r.calls + 1 }

/-- Log a call. -/
def note (r : Riot) (c : PktCall) : Riot := { r with log := r.log ++ [c] }

/-- A fresh snip handle. -/
def fresh (r : Riot) : Riot := { r with nextHandle := r.nextHandle + 1 }

/-- `gnrc_pktbuf_add(NULL, data, size, type)`. -/
def gnrcPktbufAdd (r : Riot) (data : List UInt8) (type : Nettype) :
    Option OutSnip × Riot :=
  if r.ok then
    let snip := OutSnip.payload r.nextHandle type data
    (some snip, (r.tick.fresh).note (.gnrcPktbufAdd snip))
  else (none, r.tick)

/-- `gnrc_netif_hdr_build(NULL, 0, NULL, 0)`: the handle of the new header. -/
def gnrcNetifHdrBuild (r : Riot) : Option Nat × Riot :=
  if r.ok then
    (some r.nextHandle, (r.tick.fresh).note (.gnrcNetifHdrBuild r.nextHandle))
  else (none, r.tick)

/-- `gnrc_netapi_send(pid, pkt)`: 1 when the interface took the packet. -/
def gnrcNetapiSend (r : Riot) (pid : Pid) (pkt : List OutSnip) : Int × Riot :=
  if r.ok then (1, r.tick.note (.gnrcNetapiSend pid pkt)) else (-1, r.tick)

/-- `gnrc_pktbuf_release(pkt)`: the whole chain. -/
def gnrcPktbufRelease (r : Riot) (pkt : List OutSnip) : Riot :=
  r.note (.gnrcPktbufRelease pkt)

/-- `ndn_rng((uint8_t*)&identifier, sizeof(identifier))`. -/
def ndnRng (r : Riot) : UInt16 × Riot := (r.random r.draws, { r with draws := r.draws + 1 })

end Riot

/-- The NDN frame a packet handed to an interface carries. -/
def frameOf : List OutSnip → List UInt8
  | [] => []
  | .payload _ .ndn data :: _ => data
  | _ :: rest => frameOf rest

/-- The frames handed to interfaces, in order. -/
def sentFrames (log : List PktCall) : List (List UInt8) :=
  log.filterMap fun
    | .gnrcNetapiSend _ pkt => some (frameOf pkt)
    | _ => none

/-! ## Sending -/

/-- `ndn_l2_send_packet`. -/
def ndnL2SendPacket (pid : Pid) (pkt : List OutSnip) (r : Riot) : Int × Riot :=
  match r.gnrcNetifHdrBuild with
  | (none, r) => (-1, r.gnrcPktbufRelease pkt)
  | (some hdr, r) =>
      -- LL_PREPEND, then the broadcast flag and the interface of the header
      let pkt := .netifHdr hdr true pid :: pkt
      match r.gnrcNetapiSend pid pkt with
      | (ret, r) => if ret < 1 then (-1, r.gnrcPktbufRelease pkt) else (0, r)

/-- `INT32_MAX`. -/
def int32Max : Nat := 2147483647

/-- The conversion of an `uint32_t` value to `int`. -/
def int32 (n : Nat) : Int := (BitVec.ofNat 32 n).toInt

/-- `int total_frags = data_size / (mtu - NDN_FRAG_HDR_LEN) + 1`. -/
def totalFrags (dataSize mtu : Nat) : Int :=
  int32 (dataSize / (mtu - ndnFragHdrLen) + 1)

/-- The loop of `ndn_l2_send_fragments`; `none` when it has not returned after
`fuel` iterations. -/
def sendFragmentsLoop (P : Platform) (pid : Pid) (mtu : Nat) :
    Nat → Fragmenter → List UInt8 → Riot → Option (Int × Riot)
  | 0, _, _, _ => none
  | fuel + 1, fragmenter, fragmented, r =>
      if fragmenter.counter < fragmenter.totalFragNum then
        let size :=
          if fragmenter.counter = fragmenter.totalFragNum - 1 then
            fragmenter.originalSize - fragmenter.offset + 3
          else mtu
        match P.fragmenterFragment fragmenter fragmented with
        | (fragmenter, fragmented) =>
            match r.gnrcPktbufAdd (fragmented.take size) .ndn with
            | (none, r) => some (-1, r)
            | (some pkt, r) =>
                match ndnL2SendPacket pid [pkt] r with
                | (ret, r) =>
                    if ret < 0 then some (-1, r)
                    else sendFragmentsLoop P pid mtu fuel fragmenter fragmented r
      else some (0, r)

/-- `ndn_l2_send_fragments`. The fuel is one iteration for each fragment
announced and one for the test that ends the loop. -/
def ndnL2SendFragments (P : Platform) (pid : Pid) (data : List UInt8) (mtu : UInt16)
    (r : Riot) : Option (Int × Riot) :=
  if mtu.toNat ≤ ndnFragHdrLen then some (-1, r)
  else if 32 < totalFrags data.length mtu.toNat then some (-1, r)
  else
    match r.ndnRng with
    | (identifier, r) =>
        let fragmenter := P.fragmenterInit data mtu.toNat identifier
        let fragmented := (List.range mtu.toNat).map r.uninit
        sendFragmentsLoop P pid mtu.toNat (fragmenter.totalFragNum + 1) fragmenter fragmented r

/-! ## Receiving -/

/-- `ndn_netface_t`, with the fields of `ndn_face_intf_t` that are used; a
`faceId` of `none` is `NDN_INVALID_ID`. -/
structure Netface where
  state : FaceState
  faceId : Option Nat
  mtu : UInt16
  fragBuffer : FragBuffer
  assembler : FragAssembler
  pid : Pid

/-- An entry of the static `_netface_table` at boot: zeroed memory. -/
def Netface.zeroed : Netface where
  state := .down
  faceId := some 0
  mtu := 0
  fragBuffer := Vector.replicate fragBufferSize 0
  assembler := ⟨0, false, 0, 0, 0⟩
  pid := 0

/-- `ndn_frag_assembler_init(&face->assembler, face->frag_buffer, sizeof(face->frag_buffer))`. -/
def Netface.initAssembler (P : Platform) (face : Netface) : Netface :=
  { face with assembler := P.assemblerInit fragBufferSize }

/-- `ndn_l2_process_packet`. The int result is `none` where the source returns
without a value; the only caller ignores it. -/
def ndnL2ProcessPacket (P : Platform) (self : FaceRef) (face : Netface)
    (pkt : Option Snip) : Except Fault (Option Int × Netface × List Call) := do
  -- `pkt->size` and `pkt->data` are read before the test for `NULL`
  let snip ← deref pkt
  let len := snip.size
  let buf := snip.data
  if snip.type ≠ .ndn then
    return (some (-1), face, [])
  let b0 ← readByte buf 0
  if b0 &&& ndnFragHbMask != 0 then
    let _b1 ← readByte buf 1
    let _b2 ← readByte buf 2
    -- the error result is dropped
    let (_, assembler, fragBuffer) :=
      P.assemblerAssembleFrag face.assembler face.fragBuffer (buf.take len)
    let face := { face with assembler, fragBuffer }
    if face.assembler.isFinished then
      return (none, face.initAssembler P,
        [.gnrcPktbufRelease snip,
          .ndnForwarderReceive self (face.fragBuffer.head face.assembler.offset)])
    else
      return (none, face, [.gnrcPktbufRelease snip])
  else
    return (none, face, [.ndnForwarderReceive self (buf.take len)])

end NdnRiot
