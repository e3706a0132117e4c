import NdnRiot.Logic.Send

/-!
# The link round trip

What `ndn_netface_send` hands to the interface, `ndn_l2_process_packet` of a
peer turns back into the packets sent. The two sides meet at `packetFrames`:
each packet is sent as its `packetFrames`, and an idle receiver delivers the
packet of these frames and is idle again.
-/

namespace NdnRiot

open Reassembly

/-- Every frame of a packet fits the MTU. -/
theorem length_packetFrames_le {mtu : Nat} {packet : List UInt8} {identifier : UInt16}
    (hmtu : ndnFragHdrLen < mtu) {f : List UInt8}
    (hf : f ∈ packetFrames mtu packet identifier) : f.length ≤ mtu := by
  unfold packetFrames at hf
  split at hf
  · obtain ⟨j, _, rfl⟩ := mem_trainFrames.mp hf
    exact length_fragFrame_le mtu packet identifier j hmtu
  · rw [List.mem_singleton.mp hf]
    omega

/-- Every frame of a packet can be read. -/
theorem readable_packetFrames {mtu : Nat} {packet : List UInt8} {identifier : UInt16}
    (hne : packet ≠ []) (hbit : headerBit packet = false) {f : List UInt8}
    (hf : f ∈ packetFrames mtu packet identifier) : Readable f := by
  unfold packetFrames at hf
  split at hf
  · obtain ⟨j, _, rfl⟩ := mem_trainFrames.mp hf
    exact readable_fragFrame mtu packet identifier j
  · rw [List.mem_singleton.mp hf]
    exact ⟨hne, by simp [hbit]⟩

/-- The sequence numbers of at most 32 fragments are pairwise distinct. -/
theorem nodup_seq_packetFrames {mtu : Nat} {packet : List UInt8} (identifier : UInt16)
    (hcount : fragCount packet.length mtu ≤ 32) :
    ((packetFrames mtu packet identifier).map fragSeq).Nodup := by
  unfold packetFrames
  split
  · have hseq : (trainFrames mtu packet identifier).map fragSeq =
        List.range (fragCount packet.length mtu) := by
      rw [trainFrames, List.map_map]
      refine (List.map_congr_left fun j hj => ?_).trans (List.map_id _)
      have hlt := List.mem_range.mp hj
      exact fragSeq_fragFrame mtu packet identifier j (by omega)
    rw [hseq]
    exact List.nodup_range
  · simp

/-- An idle receiver delivers the packet of its frames, and is idle again. -/
theorem linkReceiveAll_packetFrames {mtu : Nat} {packet : List UInt8} (identifier : UInt16)
    (hmtu : ndnFragHdrLen < mtu) (hne : packet ≠ [])
    (hbit : headerBit packet = false) (hcount : fragCount packet.length mtu ≤ 32)
    (hfits : packet.length ≤ fragBufferSize) :
    (linkReceiveAll .idle (packetFrames mtu packet identifier)).1 = .idle ∧
      (linkReceiveAll .idle (packetFrames mtu packet identifier)).2.flatten = [packet] := by
  unfold packetFrames
  split
  · have htrain := trainFrames_train identifier hmtu hne hcount hfits
    rw [(linkReceiveAll_reassemble _ _).1, linkReceiveAll_fragments htrain.frag,
      reassemble_train htrain]
    exact ⟨rfl, by rw [List.map_singleton, bytes_trainFrames packet identifier hmtu]⟩
  · simp [linkReceiveAll, linkReceive, hbit]

/-- A packet as the round trip takes it: one that starts with an NDN TLV type,
fits the reassembly buffer, and passes the guards of the sender. -/
structure Netface.Carries (face : Netface) (packet : List UInt8) : Prop where
  nonempty : packet ≠ []
  fits : packet.length ≤ fragBufferSize
  tlv : packet.getD 0 0 < ndnFragHbMask
  accepts : face.Accepts packet

/-- A packet the sender carries has at most 32 fragments, if it has any. -/
theorem Netface.Carries.fragCount_le {face : Netface} {packet : List UInt8}
    (h : face.Carries packet) (hmtu : ndnFragHdrLen < face.mtu.toNat) :
    fragCount packet.length face.mtu.toNat ≤ 32 := by
  have hfits := h.fits
  unfold fragBufferSize at hfits
  rcases Nat.lt_or_ge face.mtu.toNat packet.length with hsize | hsize
  · have hdiv := Nat.div_le_self packet.length (face.mtu.toNat - ndnFragHdrLen)
    exact fragCount_le_of_totalFrags_le hmtu (by unfold int32Max; omega) (h.accepts hsize).2
  · -- a packet within the MTU has at most `mtu ≤ 32 * (mtu - 3)` bytes
    refine fragCount_le_of_le hmtu ?_
    unfold ndnFragHdrLen at *
    omega

/-- The receiver delivers one packet after the other from their frames. -/
theorem linkReceiveAll_sends {face : Netface} (hmtu : ndnFragHdrLen < face.mtu.toNat)
    {packets : List (List UInt8)} {sends : List Sent}
    (hframes : List.Forall₂ face.SentAs packets sends)
    (hpackets : ∀ p ∈ packets, face.Carries p) :
    (linkReceiveAll .idle (sends.flatMap Sent.frames)).1 = .idle ∧
      (linkReceiveAll .idle (sends.flatMap Sent.frames)).2.flatten = packets := by
  induction hframes with
  | nil => exact ⟨rfl, rfl⟩
  | @cons packet sent rest sends hsent _ ih =>
      have hcarry := hpackets packet List.mem_cons_self
      obtain ⟨hrest, houts⟩ := ih fun p hp => hpackets p (List.mem_cons_of_mem _ hp)
      obtain ⟨_, identifier, hsent⟩ := hsent
      obtain ⟨hidle, hout⟩ := linkReceiveAll_packetFrames identifier hmtu hcarry.nonempty
        (headerBit_of_lt hcarry.tlv) (hcarry.fragCount_le hmtu) hcarry.fits
      rw [List.flatMap_cons, linkReceiveAll_append, hsent, hidle]
      exact ⟨hrest, by rw [List.flatten_append, hout, houts]; rfl⟩

/-- **Round trip.** The packets an accepting netface sends are delivered by an
idle peer, byte for byte, in order and once each, and the peer is idle again.
Every frame fits the MTU, and no train repeats a sequence number. -/
theorem netface_roundTrip {P : Platform} (hP : P.Documented) (face peer : Netface)
    (self : FaceRef) {packets : List (List UInt8)} {r : Riot} (hr : r.Reliable)
    (hmtu : ndnFragHdrLen < face.mtu.toNat) (hpackets : ∀ p ∈ packets, face.Carries p)
    (hidle : peer.Idle) :
    ∃ sends r', sendAll P face packets r = some (sends, r') ∧
      (∀ sent ∈ sends, sent.ret = 0 ∧ (∀ f ∈ sent.frames, f.length ≤ face.mtu.toNat) ∧
        (sent.frames.map fragSeq).Nodup) ∧
      ∀ snips : List Snip, (∀ s ∈ snips, s.type = .ndn) →
        snips.map Snip.data = sends.flatMap Sent.frames →
        ∃ peer' calls, receiveAll P self peer snips = .ok (peer', calls) ∧
          deliveries calls.flatten = packets.map (self, ·) ∧ peer'.Idle := by
  obtain ⟨sends, r', hsend, hframes⟩ :=
    sendAll_reliable hP face hr fun p hp => (hpackets p hp).accepts
  refine ⟨sends, r', hsend, ?_, ?_⟩
  · intro sent hsent
    obtain ⟨packet, hp, hret, identifier, hsf⟩ := exists_packet_of_sent hframes hsent
    rw [hsf]
    exact ⟨hret, fun f hf => length_packetFrames_le hmtu hf,
      nodup_seq_packetFrames identifier ((hpackets packet hp).fragCount_le hmtu)⟩
  · intro snips htypes hdata
    have hread : ∀ s ∈ snips, s.type = .ndn ∧ Readable s.data := by
      intro s hs
      have hmem : s.data ∈ sends.flatMap Sent.frames := by
        rw [← hdata]
        exact List.mem_map_of_mem hs
      obtain ⟨sent, hsent, hf⟩ := List.mem_flatMap.mp hmem
      obtain ⟨packet, hp, _, identifier, hsf⟩ := exists_packet_of_sent hframes hsent
      have hcarry := hpackets packet hp
      rw [hsf] at hf
      exact ⟨htypes s hs,
        readable_packetFrames hcarry.nonempty (headerBit_of_lt hcarry.tlv) hf⟩
    obtain ⟨peer', calls, hrecv, hold, _, hdel⟩ :=
      receiveAll_spec hP self (holds_idle_iff.mpr hidle) hread
    rw [hdata] at hold hdel
    obtain ⟨hend, hout⟩ := linkReceiveAll_sends hmtu hframes hpackets
    rw [hend] at hold
    refine ⟨peer', calls, hrecv, ?_, holds_idle_iff.mp hold⟩
    rw [deliveries_flatten, hdel, ← List.map_flatten, hout]

/-- The round trip of a fragmented packet and a whole one on a link of MTU 5. -/
theorem netface_roundTrip_mtu5 :
    ∃ sends r', sendAll reference { Netface.zeroed with mtu := 5 }
        [[6, 5, 1, 2, 3, 4, 5], [5, 1, 9]] (Riot.calm fun _ => 7) = some (sends, r') ∧
      (∀ sent ∈ sends, sent.ret = 0 ∧ (∀ f ∈ sent.frames, f.length ≤ 5) ∧
        (sent.frames.map fragSeq).Nodup) ∧
      ∀ snips : List Snip, (∀ s ∈ snips, s.type = .ndn) →
        snips.map Snip.data = sends.flatMap Sent.frames →
        ∃ peer' calls, receiveAll reference (.netface 0)
            (Netface.zeroed.initAssembler reference) snips = .ok (peer', calls) ∧
          deliveries calls.flatten =
            [(.netface 0, [6, 5, 1, 2, 3, 4, 5]), (.netface 0, [5, 1, 9])] ∧
          peer'.Idle :=
  netface_roundTrip reference_documented { Netface.zeroed with mtu := 5 }
    (Netface.zeroed.initAssembler reference) (.netface 0) (fun _ => rfl) (by decide)
    (by
      intro p hp
      rcases List.mem_cons.mp hp with rfl | hp
      · exact ⟨by decide, by decide, by decide, fun _ => by decide⟩
      · rw [List.mem_singleton.mp hp]
        exact ⟨by decide, by decide, by decide, fun _ => by decide⟩)
    ⟨rfl, rfl, rfl, rfl⟩

end NdnRiot
