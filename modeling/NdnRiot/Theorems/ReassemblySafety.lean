import NdnRiot.Logic.Send

/-!
# Reassembly safety

Whatever frames a netface receives, from however many senders and in whatever
order, what it delivers from fragments are complete trains, each picked from a
stretch of the received frames of its own. Where the packets in flight have
distinct identifiers these are the packets sent.
-/

namespace NdnRiot

open Reassembly

/-- What comes out of the fragments among the received frames is what the
reassembler makes of all of them. -/
theorem fragmentOutputs_receiveAll {P : Platform} (hP : P.Documented) (self : FaceRef)
    {face₀ : Netface} (hidle : face₀.Idle) {snips : List Snip} (harr : Arrivals snips) :
    ∃ face log, receiveAll P self face₀ snips = .ok (face, log) ∧
      face.Holds (reassemble .idle (snips.map Snip.data)).1 ∧
      fragmentOutputs (snips.map Snip.data) (log.map deliveries) =
        (reassemble (.idle : Rx) (snips.map Snip.data)).2.map (self, fragView.bytes ·) := by
  obtain ⟨face, log, hrun, hold, _, hdel⟩ :=
    receiveAll_spec hP self (holds_idle_iff.mpr hidle) harr
  obtain ⟨hstate, hout⟩ := linkReceiveAll_reassemble (snips.map Snip.data) .idle
  refine ⟨face, log, hrun, by rwa [← hstate], ?_⟩
  rw [hdel, fragmentOutputs_map, hout, List.map_map]
  rfl

/-- **Safety.** After any frames the assembler is unfinished and within its
buffer; a frame with the header bit clear is delivered unchanged and leaves the
netface as it is; the received frames split into episodes, one for each
delivery from fragments, and each delivery is the payload of a complete train
picked from the window of its episode. When the packets in flight during the
window have distinct identifiers, the train is one of those sent. -/
theorem reassembly_safe {P : Platform} (hP : P.Documented) (self : FaceRef)
    {face₀ : Netface} (hidle : face₀.Idle) {snips : List Snip} (harr : Arrivals snips) :
    ∃ face log, receiveAll P self face₀ snips = .ok (face, log) ∧
      face.assembler.isFinished = false ∧ face.assembler.offset ≤ fragBufferSize ∧
      (∀ snip : Snip, snip.type = .ndn → snip.data ≠ [] → headerBit snip.data = false →
        ndnL2ProcessPacket P self face (some snip) =
          .ok (none, face, [.ndnForwarderReceive self snip.data])) ∧
      ∃ (episodes : List (Episode (List UInt8))) (rest : List (List UInt8)),
        snips.map Snip.data = episodes.flatMap Episode.input ++ rest ∧
        fragmentOutputs (snips.map Snip.data) (log.map deliveries) =
          episodes.map (fun e => (self, fragView.bytes e.train)) ∧
        ∀ e ∈ episodes, e.Ok fragView fragBufferSize ∧
          ∀ sent, fragView.InFlightDistinct sent e.window → e.train ∈ sent := by
  obtain ⟨face, log, hrun, hold, hout⟩ := fragmentOutputs_receiveAll hP self hidle harr
  have hsplits : Splits (snips.map Snip.data)
      (reassemble (.idle : Rx) (snips.map Snip.data)).1
      (reassemble (.idle : Rx) (snips.map Snip.data)).2 := reassemble_splits _
  obtain ⟨episodes, gap, window, hsplit, htrains, hok, _⟩ := hsplits
  refine ⟨face, log, hrun, hold.unfinished, hold.offset_le, ?_, episodes, gap ++ window,
    hsplit, ?_, fun e he => ⟨hok e he, fun sent hsent => (hok e he).train_mem_sent hsent⟩⟩
  · intro snip htype hne hbit
    exact ndnL2ProcessPacket_whole P self face htype hne hbit
  · rw [hout, htrains, List.map_map]
    rfl

/-- Safety for two interleaved trains of two senders and a whole packet. -/
theorem reassembly_safe_interleaved :
    let snips := [⟨0, .ndn, [0xA0, 0, 1, 6, 6]⟩, ⟨1, .ndn, [0xA0, 0, 2, 5, 6]⟩,
      ⟨2, .ndn, [5, 1, 9]⟩, ⟨3, .ndn, [0x81, 0, 1, 7, 7]⟩, ⟨4, .ndn, [0x81, 0, 2, 7, 7]⟩]
    ∃ face log,
      receiveAll reference (.netface 0) (Netface.zeroed.initAssembler reference) snips =
        .ok (face, log) ∧
      face.assembler.isFinished = false ∧ face.assembler.offset ≤ fragBufferSize ∧
      (∀ snip : Snip, snip.type = .ndn → snip.data ≠ [] → headerBit snip.data = false →
        ndnL2ProcessPacket reference (.netface 0) face (some snip) =
          .ok (none, face, [.ndnForwarderReceive (.netface 0) snip.data])) ∧
      ∃ (episodes : List (Episode (List UInt8))) (rest : List (List UInt8)),
        snips.map Snip.data = episodes.flatMap Episode.input ++ rest ∧
        fragmentOutputs (snips.map Snip.data) (log.map deliveries) =
          episodes.map (fun e => (.netface 0, fragView.bytes e.train)) ∧
        ∀ e ∈ episodes, e.Ok fragView fragBufferSize ∧
          ∀ sent, fragView.InFlightDistinct sent e.window → e.train ∈ sent :=
  reassembly_safe reference_documented (.netface 0) ⟨rfl, rfl, rfl, rfl⟩
    (by unfold Arrivals; decide)

end NdnRiot
