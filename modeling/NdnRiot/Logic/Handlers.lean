import NdnRiot.Logic.Receive
import NdnRiot.Model.System

/-!
# What the receive handlers do

One inversion lemma for each handler says what it does with the message at the
head of the queue. `Thread.dispatch_cases` lifts them to a step of the thread:
every dispatch takes at most the head of the queue, and posts its own event
again. What a dispatch does to the pending events and to the queue does not
depend on the face. No other action takes from the queue (`step_cases`), so over
a run what was popped and what is queued is what arrived (`dequeued_run`).
-/

namespace NdnRiot

/-! ## The link-layer handler -/

/-- A snip with a fragment of an NDN packet. -/
def Snip.isFragment (s : Snip) : Bool := s.type = .ndn && headerBit s.data

/-- What `ndn_l2_process_packet` does with a snip, in three cases. -/
theorem ndnL2ProcessPacket_cases {P : Platform} {self : FaceRef} {face face' : Netface}
    {pkt : Option Snip} {ret : Option Int} {calls : List Call}
    (h : ndnL2ProcessPacket P self face pkt = .ok (ret, face', calls)) :
    ∃ snip, pkt = some snip ∧
      ((snip.type ≠ .ndn ∧ face' = face ∧ calls = []) ∨
       (snip.type = .ndn ∧ headerBit snip.data = false ∧ face' = face ∧
          calls = [.ndnForwarderReceive self snip.data]) ∨
       (snip.isFragment = true ∧ face.SameLink face' ∧ ∃ packets : List (List UInt8),
          calls = .gnrcPktbufRelease snip :: packets.map (.ndnForwarderReceive self))) := by
  cases pkt with
  | none => simp [ndnL2ProcessPacket, bind, Except.bind] at h
  | some snip =>
      refine ⟨snip, rfl, ?_⟩
      by_cases htype : snip.type = .ndn
      · have hread := readable_of_processed htype h
        cases hbit : headerBit snip.data with
        | false =>
            rw [ndnL2ProcessPacket_whole P self face htype hread.1 hbit] at h
            cases h
            exact .inr (.inl ⟨htype, rfl, rfl, rfl⟩)
        | true =>
            rw [ndnL2ProcessPacket_fragment P self face htype hbit (hread.2 hbit) rfl] at h
            refine .inr (.inr ⟨by simp [Snip.isFragment, htype, hbit], ?_⟩)
            split at h <;> cases h
            · exact ⟨rfl, [_], rfl⟩
            · exact ⟨rfl, [], rfl⟩
      · rw [ndnL2ProcessPacket_foreign P self face htype] at h
        cases h
        exact .inl ⟨htype, rfl, rfl⟩

/-- `ndn_l2_process_packet` posts no event. -/
theorem posts_ndnL2ProcessPacket {P : Platform} {self : FaceRef} {face face' : Netface}
    {pkt : Option Snip} {ret : Option Int} {calls : List Call}
    (h : ndnL2ProcessPacket P self face pkt = .ok (ret, face', calls)) : posts calls = [] := by
  obtain ⟨snip, _, ⟨_, _, rfl⟩ | ⟨_, _, _, rfl⟩ | ⟨_, _, packets, rfl⟩⟩ :=
    ndnL2ProcessPacket_cases h <;> simp

/-- What `ndn_netface_receive` does with the head of the queue, in four cases. -/
theorem ndnNetfaceReceive_cases {P : Platform} {self : FaceRef} {face face' : Netface}
    {queue queue' : List Msg} {calls : List Call}
    (h : ndnNetfaceReceive P self face queue = .ok (face', queue', calls)) :
    queue' = queue.tail ∧
      ((queue = [] ∧ face' = face ∧ calls = [.ndnMsgqueuePost self]) ∨
       (∃ m ret made, queue.head? = some m ∧ m.type = .rcv ∧
          ndnL2ProcessPacket P self face m.ptr = .ok (ret, face', made) ∧
          calls = made ++ [.ndnMsgqueuePost self]) ∨
       (∃ m, queue.head? = some m ∧ (m.type = .get ∨ m.type = .set) ∧ face' = face ∧
          calls = [.msgReply m .ack .enotsup, .ndnMsgqueuePost self]) ∨
       (∃ m, queue.head? = some m ∧ m.type ∉ [.rcv, .get, .set] ∧ face' = face ∧
          calls = [.ndnMsgqueuePost self])) := by
  cases queue with
  | nil =>
      cases h
      exact ⟨rfl, .inl ⟨rfl, rfl, rfl⟩⟩
  | cons m rest =>
      simp only [ndnNetfaceReceive, msgTryReceive] at h
      cases htype : m.type with
      | rcv =>
          rw [htype] at h
          cases hproc : ndnL2ProcessPacket P self face m.ptr with
          | error fault => simp [hproc, bind, Except.bind] at h
          | ok result =>
              obtain ⟨ret, face₁, made⟩ := result
              simp only [hproc, bind, Except.bind] at h
              cases h
              exact ⟨rfl, .inr (.inl ⟨m, ret, made, rfl, htype, hproc, rfl⟩)⟩
      | get =>
          rw [htype] at h
          cases h
          exact ⟨rfl, .inr (.inr (.inl ⟨m, rfl, .inl htype, rfl, rfl⟩))⟩
      | set =>
          rw [htype] at h
          cases h
          exact ⟨rfl, .inr (.inr (.inl ⟨m, rfl, .inr htype, rfl, rfl⟩))⟩
      | snd | ack | other code =>
          rw [htype] at h
          cases h
          exact ⟨rfl, .inr (.inr (.inr ⟨m, rfl, by simp [htype], rfl, rfl⟩))⟩

/-- `ndn_netface_receive` comes to an end where an RCV message at the head carries a snip
of another type, or one whose header can be read. -/
theorem ndnNetfaceReceive_isOk (P : Platform) (self : FaceRef) (face : Netface)
    {queue : List Msg} (hhead : ∀ m, queue.head? = some m → m.type = .rcv →
      ∃ snip, m.ptr = some snip ∧ (snip.type ≠ .ndn ∨ Readable snip.data)) :
    ∃ result, ndnNetfaceReceive P self face queue = .ok result := by
  cases queue with
  | nil => exact ⟨_, rfl⟩
  | cons m rest =>
      simp only [ndnNetfaceReceive, msgTryReceive]
      cases htype : m.type with
      | rcv =>
          obtain ⟨snip, hptr, hread⟩ := hhead m rfl htype
          obtain ⟨⟨ret, face', made⟩, hproc⟩ := ndnL2ProcessPacket_total P self face hread
          exact ⟨_, by simp only [hptr, hproc, bind, Except.bind]; rfl⟩
      | get | set | snd | ack | other code => exact ⟨_, rfl⟩

/-- What `ndn_netface_receive` does with the snip it takes over, if it takes one. -/
theorem ndnNetfaceReceive_snip {P : Platform} {self : FaceRef} {face face' : Netface}
    {queue queue' : List Msg} {calls : List Call}
    (h : ndnNetfaceReceive P self face queue = .ok (face', queue', calls)) :
    (queue.head?.bind Msg.snip? = none ∧ face' = face ∧ deliveries calls = [] ∧
      releases calls = []) ∨
    (∃ snip ret made, queue.head?.bind Msg.snip? = some snip ∧
      ndnL2ProcessPacket P self face (some snip) = .ok (ret, face', made) ∧
      calls = made ++ [.ndnMsgqueuePost self]) := by
  obtain ⟨_, ⟨rfl, hface, rfl⟩ | ⟨m, ret, made, hhead, htype, hproc, rfl⟩ |
    ⟨m, hhead, htype, hface, rfl⟩ | ⟨m, hhead, htype, hface, rfl⟩⟩ := ndnNetfaceReceive_cases h
  · exact .inl ⟨rfl, hface, rfl, rfl⟩
  · obtain ⟨snip, hptr, _⟩ := ndnL2ProcessPacket_cases hproc
    rw [hptr] at hproc
    exact .inr ⟨snip, ret, made, by simp [hhead, Msg.snip?, htype, hptr], hproc, rfl⟩
  · have hsnip : m.snip? = none := by
      rcases htype with htype | htype <;> simp [Msg.snip?, htype]
    exact .inl ⟨by rw [hhead, Option.bind_some, hsnip], hface, rfl, rfl⟩
  · have hsnip : m.snip? = none := if_neg fun hrcv => htype (by simp [hrcv])
    exact .inl ⟨by rw [hhead, Option.bind_some, hsnip], hface, rfl, rfl⟩

/-- `ndn_netface_receive` changes the reassembly state of the netface at most. -/
theorem sameLink_ndnNetfaceReceive {P : Platform} {self : FaceRef} {face face' : Netface}
    {queue queue' : List Msg} {calls : List Call}
    (h : ndnNetfaceReceive P self face queue = .ok (face', queue', calls)) :
    face.SameLink face' := by
  obtain ⟨_, rfl, _⟩ | ⟨snip, ret, made, _, hproc, _⟩ := ndnNetfaceReceive_snip h
  · exact .refl _
  · obtain ⟨_, _, ⟨_, rfl, _⟩ | ⟨_, _, rfl, _⟩ | ⟨_, hsame, _⟩⟩ :=
      ndnL2ProcessPacket_cases hproc
    · exact .refl _
    · exact .refl _
    · exact hsame

/-- What a netface delivers: on its own face only, nothing of a snip of another
type, and a whole packet as it is. -/
theorem deliveries_ndnNetfaceReceive {P : Platform} {self : FaceRef} {face face' : Netface}
    {queue queue' : List Msg} {calls : List Call}
    (h : ndnNetfaceReceive P self face queue = .ok (face', queue', calls)) :
    (∀ x ∈ deliveries calls, x.1 = self) ∧
      ∀ snip, queue.head?.bind Msg.snip? = some snip →
        (snip.type ≠ .ndn → deliveries calls = []) ∧
        (snip.type = .ndn → headerBit snip.data = false →
          deliveries calls = [(self, snip.data)]) := by
  obtain ⟨hnone, _, hdel, _⟩ | ⟨snip, ret, made, hsnip, hproc, rfl⟩ := ndnNetfaceReceive_snip h
  · simp [hnone, hdel]
  · rw [hsnip]
    obtain ⟨_, hptr, hcases⟩ := ndnL2ProcessPacket_cases hproc
    cases hptr
    rcases hcases with ⟨hforeign, _, rfl⟩ | ⟨hndn, hbit, _, rfl⟩ | ⟨hfrag, _, packets, rfl⟩
    · simp [hforeign]
    · simp [hndn]
    · simp only [Snip.isFragment, Bool.and_eq_true, decide_eq_true_eq] at hfrag
      simp [hfrag]

/-- What a netface releases: the snip it takes, if it is a fragment. -/
theorem releases_ndnNetfaceReceive {P : Platform} {self : FaceRef} {face face' : Netface}
    {queue queue' : List Msg} {calls : List Call}
    (h : ndnNetfaceReceive P self face queue = .ok (face', queue', calls)) :
    releases calls = (queue.head?.bind Msg.snip?).toList.filter Snip.isFragment := by
  obtain ⟨hnone, _, _, hrel⟩ | ⟨snip, ret, made, hsnip, hproc, rfl⟩ := ndnNetfaceReceive_snip h
  · simp [hnone, hrel]
  · rw [hsnip]
    obtain ⟨_, hptr, hcases⟩ := ndnL2ProcessPacket_cases hproc
    cases hptr
    rcases hcases with ⟨hforeign, _, rfl⟩ | ⟨_, hbit, _, rfl⟩ | ⟨hfrag, _, packets, rfl⟩
    · simp [Snip.isFragment, hforeign]
    · simp [Snip.isFragment, hbit]
    · simp [hfrag]

/-! ## The UDP handler -/

/-- The message `ndn_udp_face_recv` acts on: the head of the queue, or what the
local variable held before. -/
def handled (queue : List Msg) (stale : Msg) : Msg := queue.head?.getD stale

@[simp] theorem handled_nil (stale : Msg) : handled [] stale = stale := rfl

@[simp] theorem handled_cons (m : Msg) (rest : List Msg) (stale : Msg) :
    handled (m :: rest) stale = m := rfl

theorem msgTryReceive_getD (queue : List Msg) (stale : Msg) :
    (msgTryReceive queue).getD (stale, queue) = (handled queue stale, queue.tail) := by
  cases queue <;> rfl

/-- What `ndn_udp_face_recv` does, in three cases. -/
theorem ndnUdpFaceRecv_cases {self : FaceRef} {stale : Msg} {queue queue' : List Msg}
    {calls : List Call} (h : ndnUdpFaceRecv self stale queue = .ok (queue', calls)) :
    queue' = queue.tail ∧
      ((∃ snip, (handled queue stale).snip? = some snip ∧
          calls = [.ndnForwarderReceive self snip.data, .gnrcPktbufRelease snip,
            .ndnMsgqueuePost self]) ∨
       (((handled queue stale).type = .get ∨ (handled queue stale).type = .set) ∧
          calls = [.msgReply (handled queue stale) .ack .enotsup, .ndnMsgqueuePost self]) ∨
       ((handled queue stale).type ∉ [.rcv, .get, .set] ∧
          calls = [.ndnMsgqueuePost self])) := by
  unfold ndnUdpFaceRecv at h
  rw [msgTryReceive_getD] at h
  cases htype : (handled queue stale).type with
  | rcv =>
      simp only [htype] at h
      cases hptr : (handled queue stale).ptr with
      | none => simp [hptr, bind, Except.bind] at h
      | some snip =>
          simp only [hptr, deref_some, bind, Except.bind, Snip.size, List.take_length] at h
          cases h
          exact ⟨rfl, .inl ⟨snip, by simp [Msg.snip?, htype, hptr], rfl⟩⟩
  | get =>
      simp only [htype] at h
      cases h
      exact ⟨rfl, .inr (.inl ⟨.inl rfl, rfl⟩)⟩
  | set =>
      simp only [htype] at h
      cases h
      exact ⟨rfl, .inr (.inl ⟨.inr rfl, rfl⟩)⟩
  | snd | ack | other code =>
      simp only [htype] at h
      cases h
      exact ⟨rfl, .inr (.inr ⟨by simp, rfl⟩)⟩

/-- The message asks for a reply. -/
def Msg.asks (m : Msg) : Bool := m.type = .get || m.type = .set

/-- What the handler does with the message it acts on. -/
theorem ndnUdpFaceRecv_calls {self : FaceRef} {stale : Msg} {queue queue' : List Msg}
    {calls : List Call} (h : ndnUdpFaceRecv self stale queue = .ok (queue', calls)) :
    deliveries calls = (handled queue stale).snip?.toList.map (fun s => (self, s.data)) ∧
      releases calls = (handled queue stale).snip?.toList ∧
      replies calls =
        ([handled queue stale].filter Msg.asks).map (·, .ack, .enotsup) := by
  have hnone : (handled queue stale).type ≠ .rcv → (handled queue stale).snip? = none :=
    fun htype => if_neg htype
  obtain ⟨_, ⟨snip, hsnip, rfl⟩ | ⟨htype, rfl⟩ | ⟨htype, rfl⟩⟩ := ndnUdpFaceRecv_cases h
  · have hrcv : (handled queue stale).type = .rcv := by
      by_contra hne
      rw [hnone hne] at hsnip
      cases hsnip
    simp [hsnip, Msg.asks, hrcv]
  · rw [hnone (by rcases htype with h | h <;> simp [h])]
    rcases htype with h | h <;> simp [Msg.asks, h]
  · simp only [List.mem_cons, List.not_mem_nil, or_false, not_or] at htype
    rw [hnone htype.1]
    simp [Msg.asks, htype]

/-- An RCV message carries a snip. -/
def Msg.HasSnip (m : Msg) : Prop := m.type = .rcv → m.ptr.isSome = true

/-- `ndn_udp_face_recv` comes to an end on a message that carries its snip. -/
theorem ndnUdpFaceRecv_total (self : FaceRef) {stale : Msg} {queue : List Msg}
    (h : (handled queue stale).HasSnip) :
    ∃ result, ndnUdpFaceRecv self stale queue = .ok result := by
  unfold ndnUdpFaceRecv
  rw [msgTryReceive_getD]
  cases htype : (handled queue stale).type with
  | rcv =>
      obtain ⟨snip, hptr⟩ := Option.isSome_iff_exists.mp (h htype)
      simp only [htype, hptr, deref_some, bind, Except.bind]
      exact ⟨_, rfl⟩
  | get | set | snd | ack | other code =>
      simp only [htype]
      exact ⟨_, rfl⟩

/-! ## One dispatch -/

/-- Every handler takes at most the head of the queue and posts its own event
again, as the last thing it does. -/
theorem handler_cases {P : Platform} {t : Thread} {self : FaceRef} {stale : Msg}
    {table : List Netface} {queue : List Msg} {calls : List Call}
    (h : t.handler P self stale = .ok (table, queue, calls)) :
    queue = t.msgQueue.tail ∧ posts calls = [self] ∧
      ((∃ i face face', self = .netface i ∧ t.netfaceTable[i]? = some face ∧
          ndnNetfaceReceive P self face t.msgQueue = .ok (face', queue, calls) ∧
          table = t.netfaceTable.set i face') ∨
       (self = .udp ∧ ndnUdpFaceRecv .udp stale t.msgQueue = .ok (queue, calls) ∧
          table = t.netfaceTable)) := by
  cases self with
  | netface i =>
      cases hface : t.netfaceTable[i]? with
      | none => simp [Thread.handler, hface] at h
      | some face =>
          cases hrecv : ndnNetfaceReceive P (.netface i) face t.msgQueue with
          | error fault => simp [Thread.handler, hface, hrecv, bind, Except.bind] at h
          | ok result =>
              obtain ⟨face', queue', calls'⟩ := result
              simp only [Thread.handler, hface, hrecv, bind, Except.bind] at h
              cases h
              obtain ⟨hqueue, hcases⟩ := ndnNetfaceReceive_cases hrecv
              refine ⟨hqueue, ?_, .inl ⟨i, face, face', rfl, hface, hrecv, rfl⟩⟩
              rcases hcases with ⟨_, _, rfl⟩ | ⟨m, ret, made, _, _, hproc, rfl⟩ |
                ⟨m, _, _, _, rfl⟩ | ⟨m, _, _, _, rfl⟩
              · simp
              · simp [posts_ndnL2ProcessPacket hproc]
              · simp
              · simp
  | udp =>
      cases hrecv : ndnUdpFaceRecv .udp stale t.msgQueue with
      | error fault => simp [Thread.handler, hrecv, bind, Except.bind] at h
      | ok result =>
          obtain ⟨queue', calls'⟩ := result
          simp only [Thread.handler, hrecv, bind, Except.bind] at h
          cases h
          obtain ⟨hqueue, hcases⟩ := ndnUdpFaceRecv_cases hrecv
          refine ⟨hqueue, ?_, .inr ⟨rfl, rfl, rfl⟩⟩
          rcases hcases with ⟨snip, _, rfl⟩ | ⟨_, rfl⟩ | ⟨_, rfl⟩ <;> simp

/-- The record a dispatch leaves in the history. -/
def Thread.record (t : Thread) (self : FaceRef) (stale : Msg) (calls : List Call) :
    Dispatch := ⟨self, stale, t.msgQueue.head?, calls⟩

section Record

variable (t : Thread) (self : FaceRef) (stale : Msg) (calls : List Call)

@[simp] theorem record_msg : (t.record self stale calls).msg = t.msgQueue.head? := rfl
@[simp] theorem record_calls : (t.record self stale calls).calls = calls := rfl

end Record

/-- What a dispatch does to the thread. -/
theorem dispatch_cases {P : Platform} {t t' : Thread} {self : FaceRef} {stale : Msg}
    (h : t.step P (.dispatch self stale) = some t') :
    self ∈ t.events ∧ ∃ table calls,
      t.handler P self stale = .ok (table, t.msgQueue.tail, calls) ∧
      t' = { t with
        netfaceTable := table
        msgQueue := t.msgQueue.tail
        events := t.events.erase self ++ [self]
        history := t.history ++ [t.record self stale calls] } := by
  simp only [Thread.step, Thread.dispatch] at h
  split at h
  next hevent =>
    cases hrun : t.handler P self stale with
    | error fault => simp [hrun] at h
    | ok result =>
        obtain ⟨table, queue, calls⟩ := result
        obtain ⟨rfl, hposts, _⟩ := handler_cases hrun
        simp only [hrun, hposts] at h
        exact ⟨hevent, table, calls, rfl, (Option.some.inj h).symm⟩
  · cases h

/-- A dispatch leaves the same events pending. -/
theorem dispatch_events_perm {P : Platform} {t t' : Thread} {self : FaceRef} {stale : Msg}
    (h : t.step P (.dispatch self stale) = some t') : t'.events.Perm t.events := by
  obtain ⟨hevent, table, calls, _, rfl⟩ := dispatch_cases h
  exact (List.perm_append_singleton self _).trans (List.perm_cons_erase hevent).symm

/-! ## Traffic -/

/-- Messages arrive and events are dispatched, and nothing else happens. -/
def Action.Traffic (arrives : Msg → Prop) (serves : FaceRef → Prop) : Action → Prop
  | .arrive m => arrives m
  | .dispatch self _ => serves self
  | _ => False

/-- The two kinds of action in traffic. -/
theorem Action.Traffic.cases {arrives : Msg → Prop} {serves : FaceRef → Prop} {a : Action}
    (h : a.Traffic arrives serves) :
    (∃ m, a = .arrive m ∧ arrives m) ∨
      ∃ self stale, a = .dispatch self stale ∧ serves self := by
  cases a with
  | arrive m => exact .inl ⟨m, rfl, h⟩
  | dispatch self stale => exact .inr ⟨self, stale, rfl, h⟩
  | netfaceUp _ | netfaceDown _ | netfaceDestroy _ | netfaceSend _ _ _ | udpUp | udpDown
  | udpDestroy => exact absurd h id

/-- Only messages that arrived are in the queue. -/
theorem traffic_queue {P : Platform} {arrives : Msg → Prop} {serves : FaceRef → Prop}
    {t t' : Thread} {a : Action} (ha : a.Traffic arrives serves)
    (hqueue : ∀ m ∈ t.msgQueue, arrives m) (h : t.step P a = some t') :
    ∀ m ∈ t'.msgQueue, arrives m := by
  rcases ha.cases with ⟨m, rfl, hm⟩ | ⟨self, stale, rfl, _⟩
  · obtain rfl := Option.some.inj h
    intro m' hm'
    rcases List.mem_append.mp hm' with hm' | hm'
    · exact hqueue m' hm'
    · rwa [List.mem_singleton.mp hm']
  · obtain ⟨_, table, calls, _, rfl⟩ := dispatch_cases h
    exact fun m' hm' => hqueue m' (List.mem_of_mem_tail hm')

theorem traffic_queue_run {P : Platform} {arrives : Msg → Prop} {serves : FaceRef → Prop}
    {acts : List Action} {t t' : Thread} (hacts : ∀ a ∈ acts, a.Traffic arrives serves)
    (hqueue : ∀ m ∈ t.msgQueue, arrives m) (h : t.run P acts = some t') :
    ∀ m ∈ t'.msgQueue, arrives m := by
  refine Runs.run_invariant_of_every (I := fun s => ∀ m ∈ s.msgQueue, arrives m) ?_ hqueue
    (Runs.every_of_forall hacts) h
  exact fun s a s' hq hstep ha => traffic_queue ha hq hstep

/-- The messages that arrive, in order. -/
def arrivals (acts : List Action) : List Msg :=
  acts.filterMap fun
    | .arrive m => some m
    | _ => none

/-- The messages popped so far, in order. -/
def Thread.dequeued (t : Thread) : List Msg := t.history.filterMap Dispatch.msg

/-- What the life cycle functions of a netface do to the thread. -/
theorem onNetface_eq {t t' : Thread} {i : Nat} {f : Netface → Netface}
    (h : t.onNetface i f = some t') :
    ∃ face, t.netfaceTable[i]? = some face ∧
      t' = { t with netfaceTable := t.netfaceTable.set i (f face) } := by
  obtain ⟨face, hface, rfl⟩ := Option.map_eq_some_iff.mp h
  exact ⟨face, hface, rfl⟩

/-- Sending leaves the thread as it is. -/
theorem netfaceSend_step {P : Platform} {t t' : Thread} {i : Nat} {packet : List UInt8}
    {riot : Riot} (h : t.step P (.netfaceSend i packet riot) = some t') : t' = t := by
  obtain ⟨face, _, hsend⟩ := Option.bind_eq_some_iff.mp h
  obtain ⟨_, _, rfl⟩ := Option.map_eq_some_iff.mp hsend
  rfl

/-- Destroying the UDP face keeps the queue, the events and the history. -/
theorem ndnUdpFaceDestroy_frame (P : Platform) (t : Thread) :
    (ndnUdpFaceDestroy P t).1.msgQueue = t.msgQueue ∧
      (ndnUdpFaceDestroy P t).1.events = t.events ∧
      (ndnUdpFaceDestroy P t).1.netfaceTable = t.netfaceTable ∧
      (ndnUdpFaceDestroy P t).1.history = t.history := by
  unfold ndnUdpFaceDestroy ndnFaceDown
  dsimp only
  split <;> exact ⟨rfl, rfl, rfl, rfl⟩

/-- Only a dispatch takes messages from the queue and adds to the history. -/
theorem step_cases {P : Platform} {t t' : Thread} {a : Action} (h : t.step P a = some t') :
    (∃ self stale, a = .dispatch self stale) ∨
      (t'.history = t.history ∧ t'.msgQueue = t.msgQueue ++ arrivals [a]) := by
  cases a with
  | arrive m =>
      obtain rfl := Option.some.inj h
      exact .inr ⟨rfl, rfl⟩
  | dispatch self stale => exact .inl ⟨self, stale, rfl⟩
  | netfaceUp i | netfaceDown i | netfaceDestroy i =>
      obtain ⟨face, _, rfl⟩ := onNetface_eq h
      exact .inr ⟨rfl, (List.append_nil _).symm⟩
  | netfaceSend i packet riot =>
      rw [netfaceSend_step h]
      exact .inr ⟨rfl, (List.append_nil _).symm⟩
  | udpUp | udpDown =>
      obtain rfl := Option.some.inj h
      exact .inr ⟨rfl, (List.append_nil _).symm⟩
  | udpDestroy =>
      obtain rfl := Option.some.inj h
      obtain ⟨hqueue, _, _, hhistory⟩ := ndnUdpFaceDestroy_frame P t
      exact .inr ⟨hhistory, hqueue.trans (List.append_nil _).symm⟩

/-- One step loses no message. -/
theorem dequeued_step {P : Platform} {t t' : Thread} {a : Action}
    (h : t.step P a = some t') :
    t'.dequeued ++ t'.msgQueue = t.dequeued ++ t.msgQueue ++ arrivals [a] := by
  rcases step_cases h with ⟨self, stale, rfl⟩ | ⟨hhistory, hqueue⟩
  · obtain ⟨_, table, calls, _, rfl⟩ := dispatch_cases h
    cases hqueue : t.msgQueue <;> simp [arrivals, Thread.dequeued, hqueue]
  · rw [Thread.dequeued, hhistory, hqueue, List.append_assoc]
    rfl

/-- **First in, first out.** The messages popped and those still in the queue
are the messages that arrived, in order. -/
theorem dequeued_run {P : Platform} {acts : List Action} {t t' : Thread}
    (h : t.run P acts = some t') :
    t'.dequeued ++ t'.msgQueue = t.dequeued ++ t.msgQueue ++ arrivals acts := by
  induction acts generalizing t with
  | nil =>
      obtain rfl : t = t' := by simpa using h
      simp [arrivals]
  | cons a rest ih =>
      obtain ⟨s, hstep, hrest⟩ := (Runs.run_cons_eq_some _).mp h
      rw [ih hrest, dequeued_step hstep, List.append_assoc]
      simp [arrivals, List.filterMap_cons]
      cases a <;> rfl

/-- The snip a dispatch took over. -/
def Dispatch.taken (d : Dispatch) : Option Snip := d.msg.bind Msg.snip?

@[simp] theorem record_taken (t : Thread) (self : FaceRef) (stale : Msg) (calls : List Call) :
    (t.record self stale calls).taken = t.msgQueue.head?.bind Msg.snip? := rfl

/-- The snips taken over so far. -/
def Thread.taken (t : Thread) : List Snip := t.history.filterMap Dispatch.taken

/-- The snips released so far. -/
def Thread.released (t : Thread) : List Snip := t.history.flatMap fun d => releases d.calls

end NdnRiot
