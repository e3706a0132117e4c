import NdnRiot.Logic.Construct
import NdnRiot.Logic.Handlers

/-!
# Netfaces with a pending event

What is true of every netface whose receive event is pending stays true as long as
`ndn_netface_receive` keeps it and it does not depend on the state of the face:
no other action touches the netface, and none makes the event of a netface
pending (`Thread.EachPending.step`). What `ndn_netface_receive` does to a netface
that holds a train is `ndnNetfaceReceive_holds`.
-/

namespace NdnRiot

open Reassembly

/-! ## One message -/

/-- What is pending after a frame was pending or is the frame, and what comes out of
a fragment is the pending train with the fragment. -/
theorem linkReceive_cases (p : Rx) (frame : List UInt8) :
    (headerBit frame = false ∧ linkReceive p frame = (p, [frame])) ∨
    (headerBit frame = true ∧ (linkReceive p frame).1.parts.Sublist (p.parts ++ [frame]) ∧
      ∀ packet ∈ (linkReceive p frame).2,
        fragView.Train fragBufferSize (p.parts ++ [frame]) ∧
          packet = fragView.bytes (p.parts ++ [frame])) := by
  cases hbit : headerBit frame with
  | false => exact .inl ⟨rfl, if_neg (by simp [hbit])⟩
  | true =>
      rw [linkReceive, if_pos hbit]
      refine .inr ⟨rfl, ?_⟩
      rcases offer_cases p frame with ⟨_, hoff⟩ | ⟨_, _, hparts, hnone⟩ | ⟨hcont, hmore, hoff⟩
      · rw [hoff]
        exact ⟨List.sublist_append_left _ _, by simp⟩
      · rw [hnone]
        exact ⟨by rw [hparts], by simp⟩
      · rw [hoff]
        refine ⟨List.nil_sublist _, ?_⟩
        intro packet hpacket
        obtain rfl : packet = _ := by simpa using hpacket
        exact ⟨hcont.train hmore, by simp⟩

/-- `ndn_netface_receive` on a netface that holds a train: an NDN snip is processed,
and nothing else changes the netface or is delivered. -/
theorem ndnNetfaceReceive_holds {P : Platform} (hP : P.Documented) {self : FaceRef}
    {face face' : Netface} {p : Rx} {queue queue' : List Msg} {calls : List Call}
    (hold : face.Holds p)
    (h : ndnNetfaceReceive P self face queue = .ok (face', queue', calls)) :
    (face' = face ∧ deliveries calls = []) ∨
    ∃ snip, queue.head?.bind Msg.snip? = some snip ∧ snip.type = .ndn ∧
      face'.Holds (linkReceive p snip.data).1 ∧
      deliveries calls = (linkReceive p snip.data).2.map (self, ·) := by
  obtain ⟨_, rfl, hdel, _⟩ | ⟨snip, ret, made, hsnip, hproc, rfl⟩ := ndnNetfaceReceive_snip h
  · exact .inl ⟨rfl, hdel⟩
  · by_cases htype : snip.type = .ndn
    · obtain ⟨face₁, calls₁, hspec, hold₁, _, hdel, _⟩ :=
        ndnL2ProcessPacket_spec hP self hold htype (readable_of_processed htype hproc)
      rw [hspec] at hproc
      cases hproc
      exact .inr ⟨snip, hsnip, htype, hold₁, by simp [hdel]⟩
    · rw [ndnL2ProcessPacket_foreign P self face htype] at hproc
      cases hproc
      exact .inl ⟨rfl, by simp⟩

/-- The assembler does not depend on the state of the face. -/
theorem Netface.Holds.setState {face : Netface} {p : Rx} (h : face.Holds p)
    (state : FaceState) : Netface.Holds { face with state } p :=
  ⟨h.unfinished, h.maxSize, h.seq, h.offset, h.ident, h.buffer⟩

/-! ## The netfaces of a thread -/

/-- Every netface whose receive event is pending satisfies `Q`. -/
def Thread.EachPending (t : Thread) (Q : Netface → Prop) : Prop :=
  ∀ i, .netface i ∈ t.events → ∃ face, t.netfaceTable[i]? = some face ∧ Q face

theorem Thread.EachPending.imp {t : Thread} {Q Q' : Netface → Prop} (h : t.EachPending Q)
    (himp : ∀ face, Q face → Q' face) : t.EachPending Q' := by
  intro i hi
  obtain ⟨face, hface, hQ⟩ := h i hi
  exact ⟨face, hface, himp face hQ⟩

/-- Writing such a netface into the table. -/
theorem Thread.EachPending.set {t t' : Thread} {Q : Netface → Prop} (h : t.EachPending Q)
    {i : Nat} {face face' : Netface} (hface : t.netfaceTable[i]? = some face)
    (hevents : ∀ k, .netface k ∈ t'.events → .netface k ∈ t.events)
    (htable : t'.netfaceTable = t.netfaceTable.set i face') (hQ : Q face → Q face') :
    t'.EachPending Q := by
  intro k hk
  obtain ⟨face₀, hface₀, hQ₀⟩ := h k (hevents k hk)
  rw [htable]
  by_cases hik : i = k
  · subst hik
    obtain rfl : face = face₀ := Option.some.inj (hface.symm.trans hface₀)
    have hlt := (List.getElem?_eq_some_iff.mp hface).1
    exact ⟨face', List.getElem?_set_self hlt, hQ hQ₀⟩
  · exact ⟨face₀, by rw [List.getElem?_set_ne hik, hface₀], hQ₀⟩

/-- **The step lemma.** An action keeps what `ndn_netface_receive` keeps. -/
theorem Thread.EachPending.step {P : Platform} {t t' : Thread} {Q : Netface → Prop}
    (h : t.EachPending Q) (hstate : ∀ face state, Q face → Q { face with state })
    (hreceive : ∀ i face face' queue calls, Q face →
      ndnNetfaceReceive P (.netface i) face t.msgQueue = .ok (face', queue, calls) → Q face')
    {a : Action} (hstep : t.step P a = some t') : t'.EachPending Q := by
  cases a with
  | arrive m =>
      obtain rfl := Option.some.inj hstep
      exact h
  | dispatch self stale =>
      have hevents := fun k => (dispatch_events_perm hstep).mem_iff (a := .netface k)
      obtain ⟨_, table, calls, hrun, rfl⟩ := dispatch_cases hstep
      obtain ⟨_, _, ⟨i, face, face', rfl, hface, hrecv, rfl⟩ | ⟨_, _, rfl⟩⟩ :=
        handler_cases hrun
      · exact h.set hface (fun k hk => (hevents k).mp hk) rfl
          fun hQ => hreceive i face face' _ calls hQ hrecv
      · exact fun k hk => h k ((hevents k).mp hk)
  | netfaceUp i | netfaceDown i | netfaceDestroy i =>
      obtain ⟨face, hface, rfl⟩ := onNetface_eq hstep
      exact h.set hface (fun _ hk => hk) rfl fun hQ => hstate face _ hQ
  | netfaceSend i packet riot => rwa [netfaceSend_step hstep]
  | udpUp =>
      obtain rfl := Option.some.inj hstep
      intro k hk
      refine h k ?_
      simpa [ndnUdpFaceUp, Thread.ndnMsgqueuePost] using hk
  | udpDown =>
      obtain rfl := Option.some.inj hstep
      exact h
  | udpDestroy =>
      obtain rfl := Option.some.inj hstep
      obtain ⟨_, hevents, htable, _⟩ := ndnUdpFaceDestroy_frame P t
      intro k hk
      rw [hevents] at hk
      rw [htable]
      exact h k hk

/-! ## At the start -/

/-- A device before the first message: its netfaces hold no train. -/
structure Thread.Fresh (t : Thread) : Prop where
  queue : t.msgQueue = []
  history : t.history = []
  idle : t.EachPending fun face => face.Holds .idle

/-- The netfaces that the startup builds hold no train. -/
theorem idle_ndnLiteStartup {P : Platform} (hP : P.Documented) {netifs : List NetifInfo}
    {t : Thread} (hroom : netifs.length ≤ t.netfaceTable.length) (hevents : t.events = []) :
    (ndnLiteStartup P netifs t).EachPending fun face => face.Holds .idle := by
  intro i hi
  obtain ⟨j, _, face, hj, _, hface, _, hidle⟩ := ndnLiteStartup_events hP hroom hevents _ hi
  cases hj
  exact ⟨face, hface, hidle⟩

/-- The startup leaves a fresh device. -/
theorem fresh_ndnLiteStartup {P : Platform} (hP : P.Documented) {netifs : List NetifInfo}
    {t : Thread} (hroom : netifs.length ≤ t.netfaceTable.length) (hevents : t.events = [])
    (hhistory : t.history = []) : (ndnLiteStartup P netifs t).Fresh := by
  obtain ⟨_, _, hqueue, hhistory'⟩ := ndnLiteStartup_eq P netifs t
  exact ⟨hqueue, hhistory'.trans hhistory, idle_ndnLiteStartup hP hroom hevents⟩

end NdnRiot
