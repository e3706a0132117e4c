import NdnRiot.Logic.Send

/-!
# The limits of the sender and of the receiver

The sender bounds the number of fragments, the receiver has a buffer of 500
bytes. The sender reports packets as sent that no peer can put together; they
are the packets over 500 bytes that its two guards let pass.
-/

namespace NdnRiot

open Reassembly

/-- What a packet reported as sent in fragments promises: the reassembly buffer
of a peer has room for it. -/
def Netface.LimitsAgree (P : Platform) (face : Netface) (packet : List UInt8) (r : Riot) :
    Prop :=
  ∀ r', ndnNetfaceSend P face packet r = some (0, r') → face.mtu.toNat < packet.length →
    packet.length ≤ fragBufferSize

/-- No receiver, whatever it holds, delivers more than its buffer from
fragments. -/
theorem length_linkReceiveAll_le {fs : List (List UInt8)} :
    ∀ {p : Rx}, (∀ f ∈ fs, headerBit f = true) →
      ∀ packet ∈ (linkReceiveAll p fs).2.flatten, packet.length ≤ fragBufferSize := by
  induction fs with
  | nil => intro p _ packet hp; simp at hp
  | cons f rest ih =>
      intro p hbits packet hp
      have hbit := hbits f List.mem_cons_self
      simp only [linkReceiveAll, linkReceive, hbit, if_true, List.flatten_cons,
        List.mem_append] at hp
      rcases hp with hp | hp
      · -- what `f` completes is a train, and a train fits the buffer
        rcases offer_cases p f with ⟨_, hoff⟩ | ⟨_, _, _, hnone⟩ | ⟨hcont, _, hoff⟩
        · simp [hoff] at hp
        · simp [hnone] at hp
        · obtain rfl : packet = fragView.bytes (p.parts ++ [f]) := by simpa [hoff] using hp
          exact hcont.inOrder.fits
      · exact ih (fun f' hf' => hbits f' (List.mem_cons_of_mem _ hf')) packet hp

/-- A peer that starts out idle never delivers more than its buffer from
fragments: the packets behind `LimitsAgree` are lost for every peer. -/
theorem length_delivered_le {P : Platform} (hP : P.Documented) (self : FaceRef)
    {peer peer' : Netface} (hidle : peer.Idle) {snips : List Snip} (harr : Arrivals snips)
    (hbits : ∀ s ∈ snips, headerBit s.data = true) {calls : List (List Call)}
    (h : receiveAll P self peer snips = .ok (peer', calls)) :
    ∀ x ∈ deliveries calls.flatten, x.2.length ≤ fragBufferSize := by
  obtain ⟨peer₁, calls₁, hrun, _, _, hdel⟩ :=
    receiveAll_spec hP self (holds_idle_iff.mpr hidle) harr
  rw [h] at hrun
  cases hrun
  rw [deliveries_flatten, hdel, ← List.map_flatten]
  intro x hx
  obtain ⟨packet, hpacket, rfl⟩ := List.mem_map.mp hx
  refine length_linkReceiveAll_le ?_ packet hpacket
  intro f hf
  obtain ⟨s, hs, rfl⟩ := List.mem_map.mp hf
  exact hbits s hs

/-- **Limits.** The limits agree exactly on the packets that are sent whole,
that fit the buffer, or that a guard of the sender refuses; and no peer delivers
a packet over the buffer from any fragments. -/
theorem limitsAgree_iff {P : Platform} (hP : P.Documented) (face : Netface)
    (packet : List UInt8) {r : Riot} (hr : r.Reliable) (hsize : packet.length ≤ uint32Max) :
    (face.LimitsAgree P packet r ↔
      packet.length ≤ face.mtu.toNat ∨ packet.length ≤ fragBufferSize ∨
        face.mtu.toNat ≤ ndnFragHdrLen ∨
        32 ≤ packet.length / (face.mtu.toNat - ndnFragHdrLen) ∧
          packet.length / (face.mtu.toNat - ndnFragHdrLen) < int32Max) ∧
    (fragBufferSize < packet.length → ∀ (self : FaceRef) (peer : Netface), peer.Idle →
      ∀ snips : List Snip, Arrivals snips → (∀ s ∈ snips, headerBit s.data = true) →
        ∀ peer' calls, receiveAll P self peer snips = .ok (peer', calls) →
          ∀ x ∈ deliveries calls.flatten, x.2 ≠ packet) := by
  rw [← lt_totalFrags_iff hsize]
  constructor
  · constructor
    · intro hagree
      by_cases hguard : face.mtu.toNat ≤ ndnFragHdrLen ∨
          32 < totalFrags packet.length face.mtu.toNat
      · exact .inr (.inr hguard)
      · -- the guards let the packet pass, so it is sent, and the limits speak of it
        obtain ⟨hmtu, hfrags⟩ := not_or.mp hguard
        obtain ⟨r', hsend, _⟩ := ndnNetfaceSend_reliable hP face packet hr
          fun _ => ⟨Nat.lt_of_not_le hmtu, Int.not_lt.mp hfrags⟩
        rcases Nat.lt_or_ge face.mtu.toNat packet.length with hlarge | hlarge
        · exact .inr (.inl (hagree r' hsend hlarge))
        · exact .inl hlarge
    · rintro (hwhole | hfits | hguard) r' hsend hlarge
      · omega
      · exact hfits
      · rw [ndnNetfaceSend_refused P r hlarge hguard] at hsend
        simp at hsend
  · intro hover self peer hidle snips harr hbits peer' calls hrecv x hx hpacket
    have hle := length_delivered_le hP self hidle harr hbits hrecv x hx
    rw [hpacket] at hle
    omega

/-- The limits agree on a packet of 600 bytes on a link of MTU 20, which is
refused. -/
theorem limitsAgree_refused :
    Netface.LimitsAgree reference { Netface.zeroed with mtu := 20 } (List.replicate 600 6)
        (Riot.calm fun _ => 7) ↔
      600 ≤ 20 ∨ 600 ≤ 500 ∨ 20 ≤ 3 ∨ 32 ≤ 600 / 17 ∧ 600 / 17 < int32Max := by
  have h := (limitsAgree_iff reference_documented { Netface.zeroed with mtu := 20 }
    (List.replicate 600 6) (r := Riot.calm fun _ => 7) (fun _ => rfl)
    (by rw [List.length_replicate]; decide)).1
  rwa [List.length_replicate] at h

/-- A packet of 504 bytes is sent in six fragments on a link of MTU 102. -/
theorem limits_disagree :
    ¬ Netface.LimitsAgree reference { Netface.zeroed with mtu := 102 } (List.replicate 504 6)
        (Riot.calm fun _ => 7) := by
  intro hagree
  obtain ⟨r', hsend, _⟩ := ndnNetfaceSend_reliable reference_documented
    { Netface.zeroed with mtu := 102 } (List.replicate 504 6)
    (r := Riot.calm fun _ => 7) (fun _ => rfl)
    fun _ => by rw [List.length_replicate]; decide
  have hle := hagree r' hsend (by rw [List.length_replicate]; decide)
  rw [List.length_replicate] at hle
  exact absurd hle (by decide)

end NdnRiot
