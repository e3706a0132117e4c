import NdnRiot.Logic.Construct
import NdnRiot.Logic.Handlers

/-!
# The receive pumps of the netfaces

Every path through `ndn_netface_receive` posts the event of the netface again,
so the startup's one event for each netface is pending between any two handlers.
The netfaces together pop the queue from its head, and serve each message they
pop once.
-/

namespace NdnRiot

/-- What can happen on a thread that runs netfaces only. -/
def Action.OnNetfaces : Action → Prop
  | .udpUp | .udpDown | .udpDestroy => False
  | _ => True

/-- The service a netface owes the message it popped: an RCV message goes through
`ndn_l2_process_packet`, a GET or SET is refused, and nothing else has an effect. -/
def Netface.serve (P : Platform) (self : FaceRef) (face : Netface) :
    Option Msg → Except Fault (Netface × List Call)
  | none => .ok (face, [])
  | some m =>
      match m.type with
      | .rcv => (ndnL2ProcessPacket P self face m.ptr).map fun (_, face, calls) => (face, calls)
      | .get | .set => .ok (face, [.msgReply m .ack .enotsup])
      | .snd | .ack | .other _ => .ok (face, [])

/-- The step is a dispatch that serves the head of the queue once, takes it from
the queue and posts its event again; or it dispatches nothing. -/
def Thread.ServesOnce (P : Platform) (t : Thread) (a : Action) (t' : Thread) : Prop :=
  match a with
  | .dispatch self stale => ∃ i face face' made, self = .netface i ∧
      t.netfaceTable[i]? = some face ∧
      face.serve P self t.msgQueue.head? = .ok (face', made) ∧
      t' = { t with
        netfaceTable := t.netfaceTable.set i face'
        msgQueue := t.msgQueue.tail
        events := t.events.erase self ++ [self]
        history := t.history ++ [t.record self stale (made ++ [.ndnMsgqueuePost self])] }
  | _ => t'.history = t.history

/-- `ndn_netface_receive` serves the head of the queue. -/
theorem ndnNetfaceReceive_serve {P : Platform} {self : FaceRef} {face face' : Netface}
    {queue queue' : List Msg} {calls : List Call}
    (h : ndnNetfaceReceive P self face queue = .ok (face', queue', calls)) :
    ∃ made, face.serve P self queue.head? = .ok (face', made) ∧
      calls = made ++ [.ndnMsgqueuePost self] := by
  obtain ⟨_, ⟨rfl, rfl, rfl⟩ | ⟨m, ret, made, hhead, htype, hproc, rfl⟩ |
    ⟨m, hhead, htype, rfl, rfl⟩ | ⟨m, hhead, htype, rfl, rfl⟩⟩ := ndnNetfaceReceive_cases h
  · exact ⟨[], rfl, rfl⟩
  · exact ⟨made, by simp [hhead, Netface.serve, htype, hproc, Except.map], rfl⟩
  · refine ⟨[.msgReply m .ack .enotsup], ?_, rfl⟩
    rcases htype with htype | htype <;> simp [hhead, Netface.serve, htype]
  · refine ⟨[], ?_, rfl⟩
    simp only [hhead, Netface.serve]
    split <;> simp_all

/-- The replies of one service. -/
theorem replies_serve {P : Platform} {self : FaceRef} {face face' : Netface}
    {popped : Option Msg} {made : List Call}
    (h : face.serve P self popped = .ok (face', made)) :
    replies made = (popped.toList.filter Msg.asks).map (·, .ack, .enotsup) := by
  cases popped with
  | none =>
      cases h
      rfl
  | some m =>
      unfold Netface.serve at h
      cases htype : m.type with
      | rcv =>
          simp only [htype] at h
          cases hproc : ndnL2ProcessPacket P self face m.ptr with
          | error fault => simp [hproc, Except.map] at h
          | ok result =>
              obtain ⟨ret, face₁, calls⟩ := result
              simp only [hproc, Except.map] at h
              cases h
              obtain ⟨snip, _, ⟨_, _, rfl⟩ | ⟨_, _, _, rfl⟩ | ⟨_, _, packets, rfl⟩⟩ :=
                ndnL2ProcessPacket_cases hproc <;> simp [Msg.asks, htype]
      | get | set | snd | ack | other code =>
          simp only [htype] at h
          cases h
          simp [Msg.asks, htype]

/-- What every action on netfaces preserves: each of the `n` netfaces has one
pending event and an entry in the table, and the GET and SET messages popped so
far, and no others, were replied to. -/
structure Thread.PumpInv (n : Nat) (t : Thread) : Prop where
  events : t.events.Perm ((List.range n).map .netface)
  table : n ≤ t.netfaceTable.length
  replied : t.history.flatMap (fun d => replies d.calls) =
    (t.dequeued.filter Msg.asks).map (·, .ack, .enotsup)

theorem Thread.PumpInv.netface_of_mem {n : Nat} {t : Thread} (hinv : t.PumpInv n)
    {self : FaceRef} (hself : self ∈ t.events) : ∃ i < n, self = .netface i := by
  obtain ⟨i, hi, rfl⟩ := List.mem_map.mp (hinv.events.mem_iff.mp hself)
  exact ⟨i, List.mem_range.mp hi, rfl⟩

/-- A dispatch serves the head of the queue once. -/
theorem Thread.PumpInv.serves {P : Platform} {n : Nat} {t t' : Thread} (hinv : t.PumpInv n)
    {a : Action} (h : t.step P a = some t') : t.ServesOnce P a t' := by
  rcases step_cases h with ⟨self, stale, rfl⟩ | ⟨hhistory, _⟩
  · obtain ⟨hevent, table, calls, hrun, rfl⟩ := dispatch_cases h
    obtain ⟨i, _, rfl⟩ := hinv.netface_of_mem hevent
    obtain ⟨_, _, ⟨j, face, face', hself, hface, hrecv, rfl⟩ | ⟨hudp, _⟩⟩ := handler_cases hrun
    · cases hself
      obtain ⟨made, hserve, rfl⟩ := ndnNetfaceReceive_serve hrecv
      exact ⟨i, face, face', made, rfl, hface, hserve, rfl⟩
    · cases hudp
  · cases a with
    | dispatch self stale =>
        obtain ⟨_, table, calls, _, rfl⟩ := dispatch_cases h
        simp at hhistory
    | _ => exact hhistory

/-- **The step lemma.** -/
theorem Thread.PumpInv.step {P : Platform} {n : Nat} {t t' : Thread} (hinv : t.PumpInv n)
    {a : Action} (ha : a.OnNetfaces) (h : t.step P a = some t') : t'.PumpInv n := by
  cases a with
  | arrive m =>
      obtain rfl := Option.some.inj h
      exact ⟨hinv.events, hinv.table, hinv.replied⟩
  | dispatch self stale =>
      have hevents := dispatch_events_perm h
      obtain ⟨i, face, face', made, rfl, hface, hserve, rfl⟩ := hinv.serves h
      refine ⟨hevents.trans hinv.events, by simpa using hinv.table, ?_⟩
      rw [List.flatMap_append, hinv.replied]
      simp only [List.flatMap_singleton, record_calls, replies_append, replies_serve hserve,
        Thread.dequeued, List.filterMap_append, List.filterMap_cons, List.filterMap_nil,
        record_msg, List.filter_append, List.map_append]
      cases t.msgQueue.head? <;> simp
  | netfaceUp i | netfaceDown i | netfaceDestroy i =>
      obtain ⟨face, _, rfl⟩ := onNetface_eq h
      exact ⟨hinv.events, by simpa using hinv.table, hinv.replied⟩
  | netfaceSend i packet riot => rwa [netfaceSend_step h]
  | udpUp | udpDown | udpDestroy => exact absurd ha id

/-- An RCV message that can be processed: it carries a snip, and the header of an
NDN snip can be read. -/
def Msg.Sound (m : Msg) : Prop :=
  m.type = .rcv → ∃ snip, m.ptr = some snip ∧ (snip.type ≠ .ndn ∨ Readable snip.data)

/-- Every pending event can be dispatched in front of a sound message. -/
theorem Thread.PumpInv.dispatch_isSome (P : Platform) {n : Nat} {t : Thread}
    (hinv : t.PumpInv n) {self : FaceRef} (hself : self ∈ t.events) (stale : Msg)
    (hsound : ∀ m, t.msgQueue.head? = some m → m.Sound) :
    (t.step P (.dispatch self stale)).isSome = true := by
  obtain ⟨i, hi, rfl⟩ := hinv.netface_of_mem hself
  obtain ⟨face, hface⟩ : ∃ face, t.netfaceTable[i]? = some face :=
    ⟨_, List.getElem?_eq_getElem (Nat.lt_of_lt_of_le hi hinv.table)⟩
  obtain ⟨⟨face', queue, calls⟩, hrecv⟩ :=
    ndnNetfaceReceive_isOk P (.netface i) face hsound
  simp [Thread.step, Thread.dispatch, Thread.handler, hself, hface, hrecv, bind, Except.bind,
    pure, Except.pure]

/-- The startup on interfaces that all answer posts one event for each. -/
theorem pumpInv_ndnLiteStartup {P : Platform} (hP : P.Documented) {netifs : List NetifInfo}
    {t : Thread} (hroom : netifs.length ≤ t.netfaceTable.length)
    (hanswer : ∀ netif ∈ netifs, netif.maxPacketSize.isSome = true) (hevents : t.events = [])
    (hhistory : t.history = []) : (ndnLiteStartup P netifs t).PumpInv netifs.length := by
  obtain ⟨htable, hposted, _, hhistory'⟩ := ndnLiteStartup_eq P netifs t
  obtain ⟨hloop, hposts⟩ := startupLoop_spec hP hroom
  refine ⟨?_, ?_, ?_⟩
  · rw [hposted, hevents, hposts, answering_all hanswer, List.nil_append, List.range_eq_range']
  · rw [htable, hloop, List.length_mapIdx, List.length_map]
    exact hroom
  · simp [Thread.dequeued, hhistory', hhistory]

/-- **Conservation.** In every run on the netfaces of interfaces that all answered,
each netface has exactly one pending receive event; what was popped and what is
queued is what arrived; every GET and SET popped was refused once, and nothing
else replied to; every dispatch serves the message it pops once; and a pending
event can be dispatched in front of any sound message. -/
theorem netfacePump_conserved {P : Platform} (hP : P.Documented) {netifs : List NetifInfo}
    {t₀ t₁ t : Thread} {num : Nat} {made : List Call}
    (hroom : netifs.length ≤ t₀.netfaceTable.length) (hevents : t₀.events = [])
    (hfresh : t₀.history = []) (hanswer : ∀ netif ∈ netifs, netif.maxPacketSize.isSome = true)
    (hcons : ndnNetfaceAutoConstruct P netifs t₀ = (num, t₁, made)) {acts : List Action}
    (hacts : ∀ a ∈ acts, a.OnNetfaces) (hrun : t₁.run P acts = some t) :
    t.events.Perm ((List.range netifs.length).map .netface) ∧
    t.dequeued ++ t.msgQueue = arrivals acts ∧
    t.history.flatMap (fun d => replies d.calls) =
      (t.dequeued.filter Msg.asks).map (·, .ack, .enotsup) ∧
    Runs.Every (Thread.step P) (Thread.ServesOnce P) t₁ acts ∧
    ∀ self ∈ t.events, ∀ stale, (∀ m, t.msgQueue.head? = some m → m.Sound) →
      (t.step P (.dispatch self stale)).isSome = true := by
  have hstartup : ndnLiteStartup P netifs t₀ = t₁ := by
    rw [ndnLiteStartup, hcons]
  obtain ⟨_, _, hqueue, hhistory⟩ := ndnLiteStartup_eq P netifs t₀
  have hstart := pumpInv_ndnLiteStartup hP hroom hanswer hevents hfresh
  rw [hstartup] at hqueue hhistory hstart
  have hpreserved : ∀ (s : Thread) (a : Action) (s' : Thread), s.PumpInv netifs.length →
      a.OnNetfaces → s.step P a = some s' → s'.PumpInv netifs.length :=
    fun s a s' hinv ha h => hinv.step ha h
  have hinv : t.PumpInv netifs.length :=
    Runs.run_invariant_of_every (fun s a s' hI h ha => hpreserved s a s' hI ha h) hstart
      (Runs.every_of_forall hacts) hrun
  refine ⟨hinv.events, ?_, hinv.replied, ?_,
    fun self hself stale hsound => hinv.dispatch_isSome P hself stale hsound⟩
  · rw [dequeued_run hrun]
    simp [Thread.dequeued, hhistory, hfresh, hqueue]
  · exact Runs.every_of_invariant (I := fun s => s.PumpInv netifs.length)
      (fun s a s' hI _ h => hI.serves h) hpreserved hstart hacts

/-- Two netfaces, a GET message and a frame. -/
theorem netfacePump_two :
    let netifs : List NetifInfo :=
      [⟨7, some 102, none, some 1⟩, ⟨8, some 102, some .ipv6, some 2⟩]
    let t₁ := (ndnNetfaceAutoConstruct reference netifs (Thread.boot 3 2)).2.1
    let acts := [.arrive ⟨4, .get, none⟩, .arrive ⟨8, .rcv, some ⟨0, .ndn, [5, 1, 9]⟩⟩,
      .dispatch (.netface 1) ⟨0, .snd, none⟩, .netfaceDown 0,
      .dispatch (.netface 0) ⟨0, .snd, none⟩, .dispatch (.netface 1) ⟨0, .snd, none⟩]
    ∃ t, t₁.run reference acts = some t ∧
      t.events.Perm ((List.range 2).map .netface) ∧
      t.dequeued ++ t.msgQueue = arrivals acts ∧
      t.history.flatMap (fun d => replies d.calls) =
        (t.dequeued.filter Msg.asks).map (·, .ack, .enotsup) ∧
      Runs.Every (Thread.step reference) (Thread.ServesOnce reference) t₁ acts ∧
      ∀ self ∈ t.events, ∀ stale, (∀ m, t.msgQueue.head? = some m → m.Sound) →
        (t.step reference (.dispatch self stale)).isSome = true := by
  intro netifs t₁ acts
  obtain ⟨t, hrun⟩ := Option.isSome_iff_exists.mp
    (show (t₁.run reference acts).isSome = true by decide)
  have hcons : ndnNetfaceAutoConstruct reference netifs (Thread.boot 3 2) = (2, t₁, _) := rfl
  refine ⟨t, hrun, netfacePump_conserved reference_documented (by decide) rfl rfl (by decide)
    hcons ?_ hrun⟩
  intro a ha
  simp only [acts, List.mem_cons, List.not_mem_nil, or_false] at ha
  rcases ha with rfl | rfl | rfl | rfl | rfl | rfl <;> trivial

end NdnRiot
