import NdnRiot.Logic.Send
import NdnRiot.Model.Link

/-!
# What a send puts on a link

`Transmission.Sound` is what a send of an NDN packet puts on the link, whichever RIOT
calls fail (`sound_transmit`): the first frames of the packet. A fragment among them
is part of a train that a receiver can put together, and any other frame is the packet.
-/

namespace NdnRiot

open Reassembly

/-- What a send with an NDN packet puts on the link: the first frames of the packet,
and fragments only if the guards let it pass. -/
structure Transmission.Sound (tx : Transmission) : Prop where
  nonempty : tx.packet ≠ []
  tlv : headerBit tx.packet = false
  size : tx.packet.length < int32Max
  frames : tx.frames <+: packetFrames tx.mtu.toNat tx.packet tx.identifier
  guards : tx.frames ≠ [] → tx.mtu.toNat < tx.packet.length →
    ndnFragHdrLen < tx.mtu.toNat ∧ totalFrags tx.packet.length tx.mtu.toNat ≤ 32

/-- What a send puts on the link is sound. -/
theorem sound_transmit {P : Platform} (hP : P.Documented) {face : Netface}
    {packet : List UInt8} {riot : Riot} {tx : Transmission} (hne : packet ≠ [])
    (htlv : headerBit packet = false) (hsize : packet.length < int32Max)
    (h : transmit P face packet riot = some tx) : tx.Sound ∧ tx.packet = packet := by
  obtain ⟨⟨ret, riot'⟩, hsend, rfl⟩ := Option.map_eq_some_iff.mp h
  refine ⟨?_, rfl⟩
  by_cases haccepts : face.Accepts packet
  · -- the frames handed over are the first ones of the packet, or all of them
    have hframes : ∃ frames, sentFrames riot'.log = sentFrames riot.log ++ frames ∧
        frames <+: packetFrames face.mtu.toNat packet (riot.random riot.draws) := by
      rcases ndnNetfaceSend_spec hP face packet riot haccepts with
        ⟨r', hspec, hr'⟩ | ⟨r', k, hspec, _, hr', _⟩
      · rw [hsend] at hspec
        cases hspec
        exact ⟨_, hr'.sentFrames_eq, List.prefix_refl _⟩
      · rw [hsend] at hspec
        cases hspec
        exact ⟨_, hr'.sentFrames_eq, List.take_prefix _ _⟩
    obtain ⟨frames, hlog, hfirst⟩ := hframes
    refine ⟨hne, htlv, hsize, ?_, fun _ => haccepts⟩
    show (sentFrames riot'.log).drop (sentFrames riot.log).length <+: _
    rw [hlog, List.drop_left]
    exact hfirst
  · have hrefused := ndnNetfaceSend_of_not_accepts P riot haccepts
    rw [hsend] at hrefused
    cases hrefused
    refine ⟨hne, htlv, hsize, ?_, ?_⟩
    · simp [List.drop_length]
    · intro hframes
      simp [List.drop_length] at hframes

/-- A fragment among the frames belongs to the train of the packet, which a receiver
can put together. -/
theorem Transmission.Sound.fragment {tx : Transmission} (h : tx.Sound) {f : List UInt8}
    (hf : f ∈ tx.frames) (hbit : headerBit f = true) :
    f ∈ trainFrames tx.mtu.toNat tx.packet tx.identifier ∧ ndnFragHdrLen < tx.mtu.toNat ∧
      fragCount tx.packet.length tx.mtu.toNat ≤ 32 ∧ fragIdent f = tx.identifier.toNat := by
  have hframe := h.frames.mem hf
  unfold packetFrames at hframe
  split at hframe
  next hlarge =>
    obtain ⟨hmtu, hguard⟩ := h.guards (List.ne_nil_of_mem hf) hlarge
    have hsize := h.size
    have hdiv := Nat.div_le_self tx.packet.length (tx.mtu.toNat - ndnFragHdrLen)
    obtain ⟨j, _, rfl⟩ := mem_trainFrames.mp hframe
    exact ⟨hframe, hmtu, fragCount_le_of_totalFrags_le hmtu (by omega) hguard,
      fragIdent_fragFrame _ _ _ _⟩
  next =>
    rw [List.mem_singleton.mp hframe, h.tlv] at hbit
    cases hbit

/-- Any other frame is the packet. -/
theorem Transmission.Sound.whole {tx : Transmission} (h : tx.Sound) {f : List UInt8}
    (hf : f ∈ tx.frames) (hbit : headerBit f = false) : f = tx.packet := by
  have hframe := h.frames.mem hf
  unfold packetFrames at hframe
  split at hframe
  · obtain ⟨j, _, rfl⟩ := mem_trainFrames.mp hframe
    simp at hbit
  · exact List.mem_singleton.mp hframe

end NdnRiot
