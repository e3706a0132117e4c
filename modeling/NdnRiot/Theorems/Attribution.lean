import NdnRiot.Logic.Construct
import NdnRiot.Logic.Handlers
import NdnRiot.Logic.Pending

/-!
# Ingress attribution with several interfaces

The netfaces of a thread drain one message queue, each processing whatever is
at its head under its own `self`. As long as every netface meets frames of its
own interface, its deliveries are those of a receiver that got exactly the
frames of that interface, whatever else was interleaved with them, and each
packet delivered is traced back to the dispatches that took its frames.
-/

namespace NdnRiot

open Reassembly

/-! ## What happened to the frames of one interface -/

/-- The frames among the popped messages that arrived on the interface, in
order. -/
def framesFrom (pid : Pid) (history : List Dispatch) : List (List UInt8) :=
  history.filterMap fun d => d.msg.bind fun m =>
    if m.senderPid = pid then m.snip?.map Snip.data else none

/-- The packets delivered on the face, in order. -/
def deliveredOn (self : FaceRef) (history : List Dispatch) : List (List UInt8) :=
  history.flatMap fun d => ((deliveries d.calls).filter (·.1 = self)).map Prod.snd

theorem framesFrom_append (pid : Pid) (first second : List Dispatch) :
    framesFrom pid (first ++ second) = framesFrom pid first ++ framesFrom pid second := by
  simp [framesFrom]

theorem deliveredOn_append (self : FaceRef) (first second : List Dispatch) :
    deliveredOn self (first ++ second) =
      deliveredOn self first ++ deliveredOn self second := by
  simp [deliveredOn]

/-- The interface of a face. -/
def Thread.pidOf (t : Thread) : FaceRef → Option Pid
  | .netface i => t.netfaceTable[i]?.map Netface.pid
  | .udp => none

/-- Writing back a netface with the same link keeps the interfaces of the faces. -/
theorem pid_set {table : List Netface} {i : Nat} {face face' : Netface}
    (hface : table[i]? = some face) (hsame : face.SameLink face') (k : Nat) :
    (table.set i face')[k]?.map Netface.pid = table[k]?.map Netface.pid := by
  rw [List.getElem?_set]
  split
  · next hik =>
      subst hik
      obtain ⟨hlt, rfl⟩ := List.getElem?_eq_some_iff.mp hface
      simp [hlt, hsame.pid]
  · rfl

/-- A dispatch keeps the interfaces of the faces. -/
theorem Thread.pidOf_dispatch {P : Platform} {t t' : Thread} {self : FaceRef} {stale : Msg}
    (h : t.step P (.dispatch self stale) = some t') (x : FaceRef) : t'.pidOf x = t.pidOf x := by
  obtain ⟨_, table, calls, hrun, rfl⟩ := dispatch_cases h
  obtain ⟨_, _, ⟨i, face, face', _, hface, hrecv, rfl⟩ | ⟨_, _, rfl⟩⟩ := handler_cases hrun
  · cases x with
    | netface k => exact pid_set hface (sameLink_ndnNetfaceReceive hrecv) k
    | udp => rfl
  · cases x <;> rfl

/-- The dispatch is of the face, and the message it popped arrived on the interface. -/
def Dispatch.PopsFrom (d : Dispatch) (self : FaceRef) (pid : Pid) : Prop :=
  d.self = self ∧ ∃ m, d.msg = some m ∧ m.senderPid = pid

/-- The packet is the frame of the last dispatch `d`, or the train of the frames of
some dispatches before it and of `d`; all of them are dispatches of the face, and
popped frames that arrived on the interface of the face. -/
def Thread.TracedTo (t : Thread) (self : FaceRef) (packet : List UInt8)
    (before : List Dispatch) (d : Dispatch) : Prop :=
  ∃ pid taken, t.pidOf self = some pid ∧ taken.Sublist before ∧
    (∀ e ∈ taken ++ [d], e.PopsFrom self pid) ∧
    (framesFrom pid (taken ++ [d]) = [packet] ∨
      fragView.Train fragBufferSize (framesFrom pid (taken ++ [d])) ∧
        fragView.bytes (framesFrom pid (taken ++ [d])) = packet)

/-- Every delivery is made on the face of the interface that all its frames came
from, and a complete train of at most `fragBufferSize` bytes that an interface
received in order while its assembler was idle is delivered intact by the netface of
this interface, in its place among the frames of the interface. -/
structure Thread.Attributed (t : Thread) : Prop where
  face : ∀ before d after, t.history = before ++ d :: after →
    ∀ x ∈ deliveries d.calls, t.TracedTo x.1 x.2 before d
  trains : ∀ self ∈ t.events, ∀ pid, t.pidOf self = some pid →
    ∀ before train after, framesFrom pid t.history = before ++ train ++ after →
      (linkReceiveAll .idle before).1 = .idle → fragView.Train fragBufferSize train →
      ∃ late, deliveredOn self t.history =
        (linkReceiveAll .idle before).2.flatten ++ [fragView.bytes train] ++ late

/-- An RCV message with an NDN frame whose header can be read. -/
def Msg.NdnFrame (m : Msg) : Prop :=
  m.type = .rcv ∧ ∃ snip, m.ptr = some snip ∧ snip.type = .ndn ∧ Readable snip.data

/-- The message at the head of the queue arrived on the interface of the face that
is dispatched. -/
def Thread.OwnHead (t : Thread) : Action → Prop
  | .dispatch self _ => ∀ m, t.msgQueue.head? = some m → t.pidOf self = some m.senderPid
  | _ => True

instance (t : Thread) : DecidablePred t.OwnHead
  | .dispatch self _ =>
      inferInstanceAs (Decidable (∀ m ∈ t.msgQueue.head?, t.pidOf self = some m.senderPid))
  | .arrive _ | .netfaceUp _ | .netfaceDown _ | .netfaceDestroy _ | .netfaceSend .. | .udpUp
  | .udpDown | .udpDestroy => isTrue trivial

/-! ## The invariant -/

/-- Dispatches of the face took the fragments, which arrived on the interface. -/
def TakenFrom (self : FaceRef) (pid : Pid) (history : List Dispatch)
    (parts : List (List UInt8)) : Prop :=
  ∃ taken : List Dispatch, taken.Sublist history ∧ (∀ e ∈ taken, e.PopsFrom self pid) ∧
    framesFrom pid taken = parts

/-- The netface has processed the frames of its interface, and nothing else. -/
structure Thread.Follows (t : Thread) (i : Nat) (face : Netface) : Prop where
  holds : face.Holds (linkReceiveAll .idle (framesFrom face.pid t.history)).1
  delivered : deliveredOn (.netface i) t.history =
    (linkReceiveAll .idle (framesFrom face.pid t.history)).2.flatten
  pending : TakenFrom (.netface i) face.pid t.history
    (linkReceiveAll .idle (framesFrom face.pid t.history)).1.parts

/-- What the steps that meet `OwnHead` preserve. -/
structure Thread.Separate (t : Thread) : Prop where
  frames : ∀ m ∈ t.msgQueue, m.NdnFrame
  follows : ∀ self ∈ t.events, ∃ i face, self = .netface i ∧
    t.netfaceTable[i]? = some face ∧ t.Follows i face
  distinct : ∀ self ∈ t.events, ∀ other ∈ t.events, t.pidOf self = t.pidOf other →
    self = other
  traced : ∀ before d after, t.history = before ++ d :: after →
    ∀ x ∈ deliveries d.calls, t.TracedTo x.1 x.2 before d

/-- A complete train among the frames of an interface is delivered intact. -/
theorem Thread.Follows.train {t : Thread} {i : Nat} {face : Netface}
    (h : t.Follows i face) {before train after : List (List UInt8)}
    (hsplit : framesFrom face.pid t.history = before ++ train ++ after)
    (hidle : (linkReceiveAll .idle before).1 = .idle)
    (htrain : fragView.Train fragBufferSize train) :
    ∃ late, deliveredOn (.netface i) t.history =
      (linkReceiveAll .idle before).2.flatten ++ [fragView.bytes train] ++ late := by
  refine ⟨(linkReceiveAll (linkReceiveAll .idle (before ++ train)).1 after).2.flatten, ?_⟩
  rw [h.delivered, hsplit, linkReceiveAll_append, linkReceiveAll_append, hidle,
    List.flatten_append, List.flatten_append, linkReceiveAll_fragments htrain.frag,
    reassemble_train htrain]
  simp

/-- Separate netfaces attribute what they deliver. -/
theorem Thread.Separate.attributed {t : Thread} (h : t.Separate) : t.Attributed := by
  refine ⟨h.traced, ?_⟩
  intro self hevent pid hpid before train after hsplit hidle htrain
  obtain ⟨i, face, rfl, hface, hfollows⟩ := h.follows self hevent
  obtain rfl : face.pid = pid := by simpa [Thread.pidOf, hface] using hpid
  exact hfollows.train hsplit hidle htrain

/-- A netface that meets a frame of its own interface processes it as the next
frame of this interface. -/
theorem ndnNetfaceReceive_own {P : Platform} (hP : P.Documented) {self : FaceRef}
    {face face' : Netface} {p : Rx} {queue queue' : List Msg} {calls : List Call}
    (hold : face.Holds p) (hframes : ∀ m ∈ queue, m.NdnFrame)
    (hown : ∀ m, queue.head? = some m → face.pid = m.senderPid)
    (h : ndnNetfaceReceive P self face queue = .ok (face', queue', calls)) {d : Dispatch}
    (hd : d.msg = queue.head?) :
    face'.Holds (linkReceiveAll p (framesFrom face.pid [d])).1 ∧ face.SameLink face' ∧
      deliveries calls =
        (linkReceiveAll p (framesFrom face.pid [d])).2.flatten.map (self, ·) := by
  cases queue with
  | nil =>
      cases h
      simp [framesFrom, hd, hold, Netface.SameLink.refl]
  | cons m rest =>
      obtain ⟨hrcv, snip, hptr, htype, hread⟩ := hframes m List.mem_cons_self
      have hpid := hown m rfl
      have hframe : framesFrom face.pid [d] = [snip.data] := by
        simp [framesFrom, hd, hpid, Msg.snip?, hrcv, hptr]
      obtain ⟨face₁, made, hproc, hold₁, hsame, hdel, _⟩ :=
        ndnL2ProcessPacket_spec hP self hold htype hread
      simp only [ndnNetfaceReceive, msgTryReceive, hrcv, hptr, hproc, bind, Except.bind] at h
      cases h
      rw [hframe]
      exact ⟨hold₁, hsame, by simp [linkReceiveAll, hdel]⟩

/-- A frame of another interface is not among the frames of this one. -/
theorem framesFrom_other {pid : Pid} {d : Dispatch}
    (h : ∀ m, d.msg = some m → m.senderPid ≠ pid) : framesFrom pid [d] = [] := by
  cases hmsg : d.msg with
  | none => simp [framesFrom, hmsg]
  | some m => simp [framesFrom, hmsg, h m hmsg]

/-- What is delivered on one face is not delivered on another. -/
theorem deliveredOn_other {self other : FaceRef} (hne : self ≠ other) {d : Dispatch}
    {packets : List (List UInt8)} (h : deliveries d.calls = packets.map (self, ·)) :
    deliveredOn other [d] = [] := by
  simp [deliveredOn, h, hne]

/-- All that is delivered on the face of a dispatch. -/
theorem deliveredOn_self {self : FaceRef} {d : Dispatch} {packets : List (List UInt8)}
    (h : deliveries d.calls = packets.map (self, ·)) : deliveredOn self [d] = packets := by
  simp [deliveredOn, h, List.filter_map, Function.comp_def]

/-- The frame of one dispatch, if it is from the interface. -/
theorem framesFrom_singleton (pid : Pid) (d : Dispatch) :
    framesFrom pid [d] = [] ∨
      (∃ m, d.msg = some m ∧ m.senderPid = pid) ∧ ∃ frame, framesFrom pid [d] = [frame] := by
  cases hmsg : d.msg with
  | none => exact .inl (framesFrom_other (by simp [hmsg]))
  | some m =>
      by_cases hpid : m.senderPid = pid
      · cases hsnip : m.snip? with
        | none => exact .inl (by simp [framesFrom, hmsg, hsnip])
        | some snip =>
            exact .inr ⟨⟨m, rfl, hpid⟩, snip.data, by simp [framesFrom, hmsg, hpid, hsnip]⟩
      · refine .inl (framesFrom_other ?_)
        intro m' hm'
        obtain rfl : m = m' := Option.some.inj (hmsg.symm.trans hm')
        exact hpid

theorem popsFrom_append {self : FaceRef} {pid : Pid} {taken : List Dispatch} {d : Dispatch}
    (htaken : ∀ e ∈ taken, e.PopsFrom self pid) (hd : d.PopsFrom self pid) :
    ∀ e ∈ taken ++ [d], e.PopsFrom self pid := by
  intro e he
  rcases List.mem_append.mp he with he | he
  · exact htaken e he
  · rw [List.mem_singleton.mp he]
    exact hd

theorem TakenFrom.grow {self : FaceRef} {pid : Pid} {history : List Dispatch}
    {parts : List (List UInt8)} (h : TakenFrom self pid history parts) (d : Dispatch) :
    TakenFrom self pid (history ++ [d]) parts := by
  obtain ⟨taken, hsub, hpops, hparts⟩ := h
  exact ⟨taken, hsub.trans (List.sublist_append_left _ _), hpops, hparts⟩

/-- The pending fragments after a dispatch of the face are taken from the interface. -/
theorem TakenFrom.step {self : FaceRef} {pid : Pid} {history : List Dispatch} {p : Rx}
    (h : TakenFrom self pid history p.parts) {d : Dispatch} (hself : d.self = self) :
    TakenFrom self pid (history ++ [d])
      (linkReceiveAll p (framesFrom pid [d])).1.parts := by
  rcases framesFrom_singleton pid d with hnone | ⟨hpop, frame, hframe⟩
  · rw [hnone]
    exact h.grow d
  · rcases linkReceive_cases p frame with ⟨_, hsame⟩ | ⟨_, hgrown, _⟩
    · simpa [hframe, linkReceiveAll, hsame] using h.grow d
    · obtain ⟨taken, hsub, hpops, hparts⟩ := h
      -- what is pending now is a part of what was pending and of the frame
      rw [← hparts, ← hframe, ← framesFrom_append] at hgrown
      obtain ⟨kept, hkept, heq⟩ := List.sublist_filterMap_iff.mp hgrown
      refine ⟨kept, hkept.trans (hsub.append_right [d]), ?_, ?_⟩
      · exact fun e he => popsFrom_append hpops ⟨hself, hpop⟩ e (hkept.subset he)
      · rw [hframe]
        exact heq.symm

/-- What a dispatch of the face delivers is traced to the frames it took. -/
theorem TakenFrom.traced {t : Thread} {self : FaceRef} {pid : Pid} {history : List Dispatch}
    {p : Rx} (h : TakenFrom self pid history p.parts) (hpid : t.pidOf self = some pid)
    {d : Dispatch} (hself : d.self = self) {packet : List UInt8}
    (hpacket : packet ∈ (linkReceiveAll p (framesFrom pid [d])).2.flatten) :
    t.TracedTo self packet history d := by
  rcases framesFrom_singleton pid d with hnone | ⟨hpop, frame, hframe⟩
  · simp [hnone] at hpacket
  · have hout : packet ∈ (linkReceive p frame).2 := by
      simpa [hframe, linkReceiveAll] using hpacket
    rcases linkReceive_cases p frame with ⟨_, hsame⟩ | ⟨_, _, houts⟩
    · obtain rfl : packet = frame := by simpa [hsame] using hout
      exact ⟨pid, [], hpid, List.nil_sublist _, popsFrom_append (by simp) ⟨hself, hpop⟩,
        .inl hframe⟩
    · obtain ⟨taken, hsub, hpops, hparts⟩ := h
      obtain ⟨htrain, rfl⟩ := houts packet hout
      refine ⟨pid, taken, hpid, hsub, popsFrom_append hpops ⟨hself, hpop⟩, .inr ?_⟩
      rw [framesFrom_append, hparts, hframe]
      exact ⟨htrain, rfl⟩

/-- The dispatched netface goes on with the frames of its interface. -/
theorem Thread.Follows.own {t t' : Thread} {i : Nat} {face face' : Netface} {d : Dispatch}
    (h : t.Follows i face) (hhistory : t'.history = t.history ++ [d])
    (hself : d.self = .netface i) (hsame : face.SameLink face')
    (hholds : face'.Holds (linkReceiveAll
      (linkReceiveAll .idle (framesFrom face.pid t.history)).1 (framesFrom face.pid [d])).1)
    (hdel : deliveries d.calls = (linkReceiveAll
      (linkReceiveAll .idle (framesFrom face.pid t.history)).1
      (framesFrom face.pid [d])).2.flatten.map (.netface i, ·)) :
    t'.Follows i face' := by
  refine ⟨?_, ?_, ?_⟩
  · rw [hsame.pid, hhistory, framesFrom_append, linkReceiveAll_append]
    exact hholds
  · rw [hsame.pid, hhistory, framesFrom_append, linkReceiveAll_append, deliveredOn_append,
      deliveredOn_self hdel, h.delivered, List.flatten_append]
  · rw [hsame.pid, hhistory, framesFrom_append, linkReceiveAll_append]
    exact h.pending.step hself

/-- The other netfaces are not concerned. -/
theorem Thread.Follows.other {t t' : Thread} {k : Nat} {face : Netface} {d : Dispatch}
    (h : t.Follows k face) (hhistory : t'.history = t.history ++ [d])
    (hfrom : framesFrom face.pid [d] = []) (hon : deliveredOn (.netface k) [d] = []) :
    t'.Follows k face := by
  refine ⟨?_, ?_, ?_⟩
  · rw [hhistory, framesFrom_append, hfrom, List.append_nil]
    exact h.holds
  · rw [hhistory, framesFrom_append, hfrom, deliveredOn_append, hon, List.append_nil,
      List.append_nil]
    exact h.delivered
  · rw [hhistory, framesFrom_append, hfrom, List.append_nil]
    exact h.pending.grow d

/-- A dispatch of a longer history is the new one, or one of the history. -/
theorem split_concat {history before after : List Dispatch} {d e : Dispatch}
    (h : history ++ [d] = before ++ e :: after) :
    (before = history ∧ e = d) ∨ ∃ after', history = before ++ e :: after' := by
  rcases List.eq_nil_or_concat after with rfl | ⟨after', last, rfl⟩
  · obtain ⟨rfl, heq⟩ := List.append_inj' h rfl
    exact .inl ⟨rfl, (List.singleton_inj.mp heq).symm⟩
  · refine .inr ⟨after', ?_⟩
    rw [List.concat_eq_append, ← List.cons_append, ← List.append_assoc] at h
    exact (List.append_inj' h rfl).1

/-- What is traced stays traced while the faces keep their interfaces. -/
theorem Thread.TracedTo.congr {t t' : Thread} {self : FaceRef} {packet : List UInt8}
    {before : List Dispatch} {d : Dispatch} (h : t.TracedTo self packet before d)
    (hpid : t'.pidOf self = t.pidOf self) : t'.TracedTo self packet before d := by
  obtain ⟨pid, taken, hself, hrest⟩ := h
  exact ⟨pid, taken, hpid.trans hself, hrest⟩

/-- **The step lemma.** A dispatch that meets a frame of its own interface keeps
the netfaces separate. -/
theorem Thread.Separate.dispatch {P : Platform} (hP : P.Documented) {t t' : Thread}
    (hinv : t.Separate) {self : FaceRef} {stale : Msg}
    (hown : t.OwnHead (.dispatch self stale))
    (h : t.step P (.dispatch self stale) = some t') : t'.Separate := by
  have htraffic : Action.Traffic Msg.NdnFrame (fun _ => True) (.dispatch self stale) := trivial
  have hqueue := traffic_queue htraffic hinv.frames h
  have hevents := fun x => (dispatch_events_perm h).mem_iff (a := x)
  have hpids := pidOf_dispatch h
  obtain ⟨hevent, table, calls, hrun, rfl⟩ := dispatch_cases h
  obtain ⟨i, face, rfl, hface, hfollows⟩ := hinv.follows self hevent
  obtain ⟨_, _, ⟨j, face₁, face', hself, hface₁, hrecv, rfl⟩ | ⟨hself, _⟩⟩ :=
    handler_cases hrun
  · cases hself
    obtain rfl : face = face₁ := Option.some.inj (hface.symm.trans hface₁)
    have hpid : t.pidOf (.netface i) = some face.pid := by simp [pidOf, hface]
    have hhead : ∀ m, t.msgQueue.head? = some m → face.pid = m.senderPid := by
      intro m hm
      exact Option.some.inj (hpid.symm.trans (hown m hm))
    obtain ⟨hholds, hsame, hdel⟩ := ndnNetfaceReceive_own hP hfollows.holds hinv.frames hhead
      hrecv (record_msg t (.netface i) stale calls)
    refine ⟨hqueue, ?_, ?_, ?_⟩
    · intro x hx
      obtain ⟨k, g, rfl, hg, hfollows'⟩ := hinv.follows x ((hevents x).mp hx)
      by_cases hik : i = k
      · subst hik
        obtain rfl : face = g := Option.some.inj (hface.symm.trans hg)
        have hlt := (List.getElem?_eq_some_iff.mp hface).1
        exact ⟨i, face', rfl, List.getElem?_set_self hlt,
          hfollows.own rfl rfl hsame hholds hdel⟩
      · -- the frame is not from the interface of `k`, and not delivered on `k`
        refine ⟨k, g, rfl, by rw [← hg]; exact List.getElem?_set_ne hik,
          hfollows'.other rfl (framesFrom_other ?_) (deliveredOn_other ?_ hdel)⟩
        · intro m hm hsender
          have hk : t.pidOf (.netface k) = some g.pid := by simp [pidOf, hg]
          have heq := hinv.distinct _ hevent _ ((hevents _).mp hx)
            (by rw [hpid, hk, hhead m hm, hsender])
          exact hik (FaceRef.netface.inj heq)
        · exact fun heq => hik (FaceRef.netface.inj heq)
    · intro x hx y hy hxy
      rw [hpids, hpids] at hxy
      exact hinv.distinct x ((hevents x).mp hx) y ((hevents y).mp hy) hxy
    · intro before d after hsplit x hx
      refine Thread.TracedTo.congr ?_ (hpids x.1)
      rcases split_concat hsplit with ⟨rfl, rfl⟩ | ⟨after', hsplit⟩
      · rw [record_calls, hdel] at hx
        obtain ⟨packet, hpacket, rfl⟩ := List.mem_map.mp hx
        exact hfollows.pending.traced hpid rfl hpacket
      · exact hinv.traced before d after' hsplit x hx
  · cases hself

/-- An arrival keeps the netfaces separate. -/
theorem Thread.Separate.arrive {t : Thread} (hinv : t.Separate) {m : Msg}
    (hm : m.NdnFrame) : Thread.Separate { t with msgQueue := t.msgQueue ++ [m] } := by
  refine ⟨?_, ?_, hinv.distinct, hinv.traced⟩
  · intro m' hm'
    rcases List.mem_append.mp hm' with hm' | hm'
    · exact hinv.frames m' hm'
    · rwa [List.mem_singleton.mp hm']
  · intro self hself
    obtain ⟨i, face, rfl, hface, hfollows⟩ := hinv.follows self hself
    exact ⟨i, face, rfl, hface, hfollows.holds, hfollows.delivered, hfollows.pending⟩

theorem Thread.Separate.step {P : Platform} (hP : P.Documented) {t t' : Thread}
    (hinv : t.Separate) {a : Action} (ha : a.Traffic Msg.NdnFrame fun _ => True)
    (hown : t.OwnHead a) (h : t.step P a = some t') : t'.Separate := by
  rcases ha.cases with ⟨m, rfl, hm⟩ | ⟨self, stale, rfl, _⟩
  · obtain rfl := Option.some.inj h
    exact hinv.arrive hm
  · exact hinv.dispatch hP hown h

/-- The netfaces that the startup leaves are separate. -/
theorem separate_ndnLiteStartup {P : Platform} (hP : P.Documented) {netifs : List NetifInfo}
    {t : Thread} (hroom : netifs.length ≤ t.netfaceTable.length)
    (hpids : (netifs.map NetifInfo.pid).Nodup) (hevents : t.events = [])
    (hhistory : t.history = []) : (ndnLiteStartup P netifs t).Separate := by
  obtain ⟨_, _, hqueue, hhistory'⟩ := ndnLiteStartup_eq P netifs t
  rw [hhistory] at hhistory'
  have hposted := ndnLiteStartup_events hP hroom hevents
  refine ⟨by simp [hqueue], ?_, ?_, by simp [hhistory']⟩
  · intro self hself
    obtain ⟨i, netif, face, rfl, _, hface, _, hidle⟩ := hposted self hself
    refine ⟨i, face, rfl, hface, ?_, ?_, ?_⟩
    · rw [hhistory']
      exact hidle
    · rw [hhistory']
      rfl
    · rw [hhistory']
      exact ⟨[], List.nil_sublist _, by simp, rfl⟩
  · intro self hself other hother heq
    obtain ⟨i, netif, face, rfl, hnetif, hface, hpid, _⟩ := hposted self hself
    obtain ⟨j, netif', face', rfl, hnetif', hface', hpid', _⟩ := hposted other hother
    simp only [Thread.pidOf, hface, hface', Option.map_some, Option.some.injEq, hpid,
      hpid'] at heq
    -- the pids of the interfaces are distinct
    have hi : (netifs.map NetifInfo.pid)[i]? = some netif.pid := by simp [hnetif]
    have hj : (netifs.map NetifInfo.pid)[j]? = some netif.pid := by simp [hnetif', heq]
    have hlt := (List.getElem?_eq_some_iff.mp hi).1
    rw [(List.getElem?_inj hlt hpids).mp (hi.trans hj.symm)]

/-- **Attribution.** After the startup on interfaces with distinct pids, in every
run of NDN frames in which each netface that meets a frame meets one of its own
interface, all that is delivered is attributed. -/
theorem attributed_of_ownHead {P : Platform} (hP : P.Documented) {netifs : List NetifInfo}
    {t₀ t : Thread} (hroom : netifs.length ≤ t₀.netfaceTable.length)
    (hpids : (netifs.map NetifInfo.pid).Nodup) (hevents : t₀.events = [])
    (hhistory : t₀.history = []) {acts : List Action}
    (hacts : ∀ a ∈ acts, a.Traffic Msg.NdnFrame fun _ => True)
    (hown : Runs.Every (Thread.step P) (fun s a _ => s.OwnHead a) (ndnLiteStartup P netifs t₀)
      acts)
    (hrun : (ndnLiteStartup P netifs t₀).run P acts = some t) : t.Attributed := by
  have hstart := separate_ndnLiteStartup hP hroom hpids hevents hhistory
  have hguard := Runs.every_and (Runs.every_of_forall hacts) hown
  refine (Runs.run_invariant_of_every ?_ hstart hguard hrun).attributed
  intro s a s' hinv hstep ha
  exact hinv.step hP ha.1 ha.2 hstep

/-- All messages and all pending faces are of one interface. -/
structure Thread.Single (t : Thread) (pid : Pid) : Prop where
  queue : ∀ m ∈ t.msgQueue, m.senderPid = pid
  events : ∀ self ∈ t.events, t.pidOf self = some pid

theorem Thread.Single.step {P : Platform} {pid : Pid} {t t' : Thread} (hinv : t.Single pid)
    {a : Action} (ha : a.Traffic (·.senderPid = pid) fun _ => True)
    (h : t.step P a = some t') : t'.Single pid := by
  refine ⟨traffic_queue ha hinv.queue h, ?_⟩
  rcases ha.cases with ⟨m, rfl, _⟩ | ⟨self, stale, rfl, _⟩
  · obtain rfl := Option.some.inj h
    exact fun x hx => hinv.events x hx
  · intro x hx
    rw [pidOf_dispatch h]
    exact hinv.events x ((dispatch_events_perm h).mem_iff.mp hx)

/-- **A single interface.** There every netface meets frames of its own. -/
theorem ownHead_of_single {P : Platform} (hP : P.Documented) {netif : NetifInfo}
    {t₀ : Thread} (hroom : 1 ≤ t₀.netfaceTable.length) (hevents : t₀.events = [])
    {acts : List Action}
    (hacts : ∀ a ∈ acts, a.Traffic (·.senderPid = netif.pid) fun _ => True) :
    Runs.Every (Thread.step P) (fun s a _ => s.OwnHead a) (ndnLiteStartup P [netif] t₀)
      acts := by
  have hstart : (ndnLiteStartup P [netif] t₀).Single netif.pid := by
    obtain ⟨_, _, hqueue, _⟩ := ndnLiteStartup_eq P [netif] t₀
    have hposted : ∀ self ∈ (ndnLiteStartup P [netif] t₀).events, _ :=
      ndnLiteStartup_events hP hroom hevents
    refine ⟨by simp [hqueue], ?_⟩
    intro self hself
    obtain ⟨i, netif', face, rfl, hnetif, hface, hpid, _⟩ := hposted self hself
    obtain rfl : netif' = netif := List.mem_singleton.mp (List.mem_of_getElem? hnetif)
    simp [Thread.pidOf, hface, hpid]
  refine Runs.every_of_invariant (I := fun s => s.Single netif.pid) ?_
    (fun s a s' hinv ha h => hinv.step ha h) hstart hacts
  intro s a s' hinv _ hstep
  cases a with
  | dispatch self stale =>
      intro m hm
      obtain ⟨hevent, _⟩ := dispatch_cases hstep
      rw [hinv.events self hevent, hinv.queue m (List.mem_of_mem_head? hm)]
  | _ => trivial

/-- A device with two interfaces. -/
def twoNetfaces : Thread :=
  ndnLiteStartup reference [⟨7, some 102, none, some 1⟩, ⟨8, some 102, none, some 2⟩]
    (Thread.boot 3 2)

/-- A train of two fragments of the second interface, with the two fragments of a
train of the first interface between and after them. -/
def interleavedTrains : List Action :=
  [.arrive ⟨8, .rcv, some ⟨0, .ndn, [0xA0, 0, 2, 6]⟩⟩,
    .arrive ⟨7, .rcv, some ⟨1, .ndn, [0xA0, 0, 1, 5]⟩⟩,
    .arrive ⟨8, .rcv, some ⟨2, .ndn, [0x81, 0, 2, 0]⟩⟩,
    .arrive ⟨7, .rcv, some ⟨3, .ndn, [0x81, 0, 1, 0]⟩⟩,
    .dispatch (.netface 1) ⟨0, .snd, none⟩, .dispatch (.netface 0) ⟨0, .snd, none⟩,
    .dispatch (.netface 1) ⟨0, .snd, none⟩, .dispatch (.netface 0) ⟨0, .snd, none⟩]

/-- The trains of two interfaces, fragment by fragment in turn. -/
theorem attributed_second :
    ∃ t, twoNetfaces.run reference interleavedTrains = some t ∧ t.Attributed := by
  obtain ⟨t, hrun⟩ := Option.isSome_iff_exists.mp
    (show (twoNetfaces.run reference interleavedTrains).isSome = true by decide)
  refine ⟨t, hrun, attributed_of_ownHead reference_documented (by decide) (by decide) rfl rfl
    ?_ (by decide) hrun⟩
  have hframe : ∀ pid handle frame, Readable frame →
      Msg.NdnFrame ⟨pid, .rcv, some ⟨handle, .ndn, frame⟩⟩ :=
    fun _ _ _ hread => ⟨rfl, _, rfl, rfl, hread⟩
  simpa [interleavedTrains, Action.Traffic] using
    ⟨hframe 8 0 _ (by decide), hframe 7 1 _ (by decide), hframe 8 2 _ (by decide),
      hframe 7 3 _ (by decide)⟩

/-- A frame of the second interface, met by the first netface, is delivered as a
frame of the first interface. -/
theorem misattributed_second :
    ∃ t, twoNetfaces.run reference
        [.arrive ⟨8, .rcv, some ⟨0, .ndn, [5, 1, 9]⟩⟩,
          .dispatch (.netface 0) ⟨0, .snd, none⟩] = some t ∧ ¬ t.Attributed := by
  refine ⟨_, rfl, ?_⟩
  intro hattr
  obtain ⟨pid, taken, hpid, _, hpops, _⟩ := hattr.face [] _ [] rfl (.netface 0, [5, 1, 9])
    (by decide)
  obtain ⟨_, m, hm, hsender⟩ := hpops _ (List.mem_append_right _ List.mem_cons_self)
  obtain rfl : (7 : Pid) = pid := Option.some.inj hpid
  cases hm
  exact absurd hsender (by decide)

end NdnRiot
