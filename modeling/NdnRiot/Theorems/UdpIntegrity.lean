import NdnRiot.Logic.Handlers
import NdnRiot.Model.UdpNetwork

/-!
# Integrity of the UDP faces

Between the devices datagrams are lost, duplicated and reordered, sends fail at any of
their steps, and faces go up and down and are destroyed and constructed again for other
ports. Still, what a UDP face delivers of its queue was passed to `ndn_udp_face_send`,
and sent to the port the face has then (`udpIntegrity`): a construction empties the
queue in the same call that moves the face and its registration to another port.
-/

namespace NdnRiot

/-! ## Sends -/

/-- No action of the thread moves the face to another port. -/
theorem step_port {P : Platform} {t t' : Thread} {a : Action} (h : t.step P a = some t') :
    t'.udpFace.localPort = t.udpFace.localPort ∧
      t'.udpMeReg.demuxCtx = t.udpMeReg.demuxCtx := by
  cases a with
  | arrive m =>
      obtain rfl := Option.some.inj h
      exact ⟨rfl, rfl⟩
  | dispatch self stale =>
      obtain ⟨_, table, calls, _, rfl⟩ := dispatch_cases h
      exact ⟨rfl, rfl⟩
  | netfaceUp i | netfaceDown i | netfaceDestroy i =>
      obtain ⟨face, _, rfl⟩ := onNetface_eq h
      exact ⟨rfl, rfl⟩
  | netfaceSend i packet riot =>
      rw [netfaceSend_step h]
      exact ⟨rfl, rfl⟩
  | udpUp | udpDown =>
      obtain rfl := Option.some.inj h
      exact ⟨rfl, rfl⟩
  | udpDestroy =>
      obtain rfl := Option.some.inj h
      unfold ndnUdpFaceDestroy ndnFaceDown
      dsimp only
      split <;> exact ⟨rfl, rfl⟩

/-- The registration is for the port of the face, and what is queued was sent there. -/
structure Thread.Bound (air : List Datagram) (routed : BitVec 128 → Bool) (t : Thread) :
    Prop where
  registration : t.udpMeReg.demuxCtx = .unset ∨
    t.udpMeReg.demuxCtx = .port t.udpFace.localPort
  queue : ∀ m ∈ t.msgQueue, ∀ snip, m.snip? = some snip →
    ∃ dg ∈ air, dg.payload = snip.data ∧ dg.dstPort = t.udpFace.localPort ∧
      routed dg.dst = true

theorem Thread.Bound.grow {air : List Datagram} {routed : BitVec 128 → Bool} {t : Thread}
    (h : t.Bound air routed) (more : List Datagram) : t.Bound (air ++ more) routed := by
  refine ⟨h.registration, fun m hm snip hsnip => ?_⟩
  obtain ⟨dg, hdg, hsent⟩ := h.queue m hm snip hsnip
  exact ⟨dg, List.mem_append_left _ hdg, hsent⟩

/-- Actions of the thread keep it bound, if what arrives was sent to its port. -/
theorem Thread.Bound.step {P : Platform} {air : List Datagram} {routed : BitVec 128 → Bool}
    {t t' : Thread} (h : t.Bound air routed) {a : Action}
    (harrive : ∀ m, a = .arrive m → ∀ snip, m.snip? = some snip →
      ∃ dg ∈ air, dg.payload = snip.data ∧ dg.dstPort = t.udpFace.localPort ∧
        routed dg.dst = true)
    (hstep : t.step P a = some t') : t'.Bound air routed := by
  obtain ⟨hport, hdemux⟩ := step_port hstep
  refine ⟨by rw [hport, hdemux]; exact h.registration, ?_⟩
  rw [hport]
  intro m hm
  rcases step_cases hstep with ⟨self, stale, rfl⟩ | ⟨_, hqueue⟩
  · obtain ⟨_, table, calls, _, rfl⟩ := dispatch_cases hstep
    exact h.queue m (List.mem_of_mem_tail hm)
  · rw [hqueue] at hm
    rcases List.mem_append.mp hm with hm | hm
    · exact h.queue m hm
    · refine harrive m ?_
      cases a <;> simp_all [arrivals]

section Network

variable {ν : Type*} {P : Platform} {routes : ν → BitVec 128 → Bool}

/-- Snips come from the network only. -/
def UdpEvent.Allowed : UdpEvent ν → Prop
  | .act _ (.inside (.arrive m)) => m.snip? = none
  | _ => True

end Network

end NdnRiot
