import Mathlib.Data.List.Flatten
import NdnRiot.Logic.Handlers

/-!
# UDP ingress

`ndn_udp_face_recv` does not look at the result of `msg_try_receive`, which
`ndn_netface_receive` does, and it goes on with the NDN snips it logs as
discarded. Every dispatch handles its message once, and nothing else, exactly
as long as no NDN snip is popped and the local message holds nothing to act on
when the queue is empty.
-/

namespace NdnRiot

/-- The dispatch delivered the snip it took over unless it is an NDN snip,
released it, and replied to the message it popped if that asks for a reply. -/
structure Dispatch.ProcessedOnce (d : Dispatch) : Prop where
  delivered : deliveries d.calls =
    (d.taken.toList.filter (·.type ≠ .ndn)).map fun s => (.udp, s.data)
  released : releases d.calls = d.taken.toList
  replied : replies d.calls = (d.msg.toList.filter Msg.asks).map (·, .ack, .enotsup)

/-- The dispatch pops no NDN snip, and finds nothing to act on in the local
message when the queue is empty. -/
def Thread.CleanIngress (t : Thread) : Action → Prop
  | .dispatch _ stale =>
      match t.msgQueue.head? with
      | some m => ∀ snip, m.snip? = some snip → snip.type ≠ .ndn
      | none => stale.type ∉ [.rcv, .get, .set]
  | _ => True

/-- A dispatch that finds a message handles it once unless it is an NDN snip. -/
theorem processedOnce_iff_of_cons {t : Thread} {stale m : Msg} {rest queue : List Msg}
    {calls : List Call} (hqueue : t.msgQueue = m :: rest)
    (h : ndnUdpFaceRecv .udp stale t.msgQueue = .ok (queue, calls)) :
    (t.record .udp stale calls).ProcessedOnce ↔
      ∀ snip, m.snip? = some snip → snip.type ≠ .ndn := by
  obtain ⟨hdel, hrel, hrep⟩ := ndnUdpFaceRecv_calls h
  rw [hqueue, handled_cons] at hdel hrel hrep
  constructor
  · intro honce snip hsnip htype
    have hdelivered := honce.delivered
    simp [hqueue, hdel, hsnip, htype] at hdelivered
  · intro hforeign
    refine ⟨?_, by simpa [hqueue] using hrel, by simpa [hqueue] using hrep⟩
    rw [record_calls, record_taken, hqueue, hdel, List.head?_cons, Option.bind_some,
      List.filter_eq_self.mpr]
    intro snip hsnip
    simpa using hforeign snip (Option.mem_toList.mp hsnip)

/-- A dispatch that finds the queue empty does nothing unless the local message
holds something to act on. -/
theorem processedOnce_iff_of_nil {t : Thread} {stale : Msg} {queue : List Msg}
    {calls : List Call} (hqueue : t.msgQueue = [])
    (h : ndnUdpFaceRecv .udp stale t.msgQueue = .ok (queue, calls)) :
    (t.record .udp stale calls).ProcessedOnce ↔ stale.type ∉ [.rcv, .get, .set] := by
  obtain ⟨_, hcases⟩ := ndnUdpFaceRecv_cases h
  rw [hqueue, handled_nil] at hcases
  rcases hcases with ⟨snip, hsnip, rfl⟩ | ⟨htype, rfl⟩ | ⟨htype, rfl⟩
  · have hrcv : stale.type = .rcv := by
      by_contra hne
      simp [Msg.snip?, hne] at hsnip
    refine iff_of_false (fun honce => ?_) (by simp [hrcv])
    have hreleased := honce.released
    simp [hqueue] at hreleased
  · refine iff_of_false (fun honce => ?_) (by rcases htype with h | h <;> simp [h])
    have hreplied := honce.replied
    simp [hqueue] at hreplied
  · exact iff_of_true ⟨by simp [hqueue], by simp [hqueue], by simp [hqueue]⟩ htype

/-- One dispatch handles its message once exactly when it is clean. -/
theorem processedOnce_iff {t : Thread} {stale : Msg} {calls : List Call} {queue : List Msg}
    (h : ndnUdpFaceRecv .udp stale t.msgQueue = .ok (queue, calls)) :
    (t.record .udp stale calls).ProcessedOnce ↔ t.CleanIngress (.dispatch .udp stale) := by
  unfold Thread.CleanIngress
  cases hqueue : t.msgQueue with
  | nil => exact processedOnce_iff_of_nil hqueue h
  | cons m rest => exact processedOnce_iff_of_cons hqueue h

/-- A clean dispatch comes to an end. -/
theorem dispatch_isSome_of_clean (P : Platform) {t : Thread} {stale : Msg}
    (hqueue : ∀ m ∈ t.msgQueue, m.HasSnip) (hevent : .udp ∈ t.events)
    (hclean : t.CleanIngress (.dispatch .udp stale)) :
    (t.step P (.dispatch .udp stale)).isSome = true := by
  have hsnip : (handled t.msgQueue stale).HasSnip := by
    cases hq : t.msgQueue with
    | nil =>
        intro hrcv
        simp only [Thread.CleanIngress, hq, List.head?_nil] at hclean
        exact absurd (by simp [show stale.type = .rcv from hrcv]) hclean
    | cons m rest => exact hqueue m (by simp [hq])
  obtain ⟨⟨queue, calls⟩, hrecv⟩ := ndnUdpFaceRecv_total .udp hsnip
  simp [Thread.step, Thread.dispatch, Thread.handler, hevent, hrecv, bind, Except.bind, pure,
    Except.pure]

/-- What came out of the dispatches is what was popped: the payloads of the
snips that are not NDN, all snips, and the messages that ask for a reply. -/
structure Thread.IngressExact (t : Thread) : Prop where
  delivered : t.history.flatMap (fun d => deliveries d.calls) =
    (t.taken.filter (·.type ≠ .ndn)).map fun s => (.udp, s.data)
  released : t.released = t.taken
  replied : t.history.flatMap (fun d => replies d.calls) =
    (t.dequeued.filter Msg.asks).map (·, .ack, .enotsup)
  idle : ∀ d ∈ t.history, d.msg = none →
    deliveries d.calls = [] ∧ releases d.calls = [] ∧ replies d.calls = []

/-- Dispatches that handle their messages once add up. -/
theorem ingressExact_of_processedOnce {t : Thread}
    (h : ∀ d ∈ t.history, d.ProcessedOnce) : t.IngressExact where
  delivered := by
    rw [Thread.taken, List.filterMap_eq_flatMap_toList, List.filter_flatMap, List.map_flatMap]
    exact List.flatMap_congr fun d hd => (h d hd).delivered
  released := by
    rw [Thread.taken, List.filterMap_eq_flatMap_toList]
    exact List.flatMap_congr fun d hd => (h d hd).released
  replied := by
    rw [Thread.dequeued, List.filterMap_eq_flatMap_toList, List.filter_flatMap,
      List.map_flatMap]
    exact List.flatMap_congr fun d hd => (h d hd).replied
  idle d hd hmsg := by
    have htaken : d.taken = none := by simp [Dispatch.taken, hmsg]
    obtain ⟨hdel, hrel, hrep⟩ := h d hd
    rw [htaken] at hdel hrel
    rw [hmsg] at hrep
    exact ⟨hdel, hrel, hrep⟩

/-- The dispatch did no less than its message asks for. -/
structure Dispatch.NothingMissed (d : Dispatch) : Prop where
  delivered : ((d.taken.toList.filter (·.type ≠ .ndn)).map fun s => (.udp, s.data)).Sublist
    (deliveries d.calls)
  released : d.taken.toList.Sublist (releases d.calls)
  replied : ((d.msg.toList.filter Msg.asks).map (·, .ack, .enotsup)).Sublist
    (replies d.calls)

/-- The handler errs by doing too much, never by doing too little. -/
theorem nothingMissed_ndnUdpFaceRecv {t : Thread} {stale : Msg} {queue : List Msg}
    {calls : List Call} (h : ndnUdpFaceRecv .udp stale t.msgQueue = .ok (queue, calls)) :
    (t.record .udp stale calls).NothingMissed := by
  obtain ⟨hdel, hrel, hrep⟩ := ndnUdpFaceRecv_calls h
  cases hqueue : t.msgQueue with
  | nil => constructor <;> simp [hqueue]
  | cons m rest =>
      rw [hqueue, handled_cons] at hdel hrel hrep
      refine ⟨?_, ?_, ?_⟩
      · rw [record_taken, record_calls, hqueue, hdel]
        exact List.filter_sublist.map _
      · rw [record_taken, record_calls, hqueue, hrel]
        exact List.Sublist.refl _
      · rw [record_msg, record_calls, hqueue, hrep]
        exact List.Sublist.refl _

/-- Where every part of one concatenation is a sublist of the matching part of
another, equal concatenations have equal parts. -/
theorem eq_of_flatMap_eq {α β : Type} {l : List α} {f g : α → List β}
    (hsub : ∀ x ∈ l, (g x).Sublist (f x)) (h : l.flatMap f = l.flatMap g) :
    ∀ x ∈ l, f x = g x := by
  induction l with
  | nil => intro x hx; cases hx
  | cons a rest ih =>
      have hsubRest := fun x hx => hsub x (List.mem_cons_of_mem a hx)
      have hhead := (hsub a List.mem_cons_self).length_le
      have htail := (List.Sublist.flatMap_right rest hsubRest).length_le
      rw [List.flatMap_cons, List.flatMap_cons] at h
      -- both parts are no longer, and together as long
      have hlen := congrArg List.length h
      rw [List.length_append, List.length_append] at hlen
      obtain ⟨heq, hrest⟩ := List.append_inj h (by omega)
      intro x hx
      rcases List.mem_cons.mp hx with rfl | hx
      · exact heq
      · exact ih hsubRest hrest x hx

/-- What came out of the dispatches is what was popped only if every one of them
handled its message once. -/
theorem processedOnce_of_ingressExact {t : Thread} (hexact : t.IngressExact)
    (hmissed : ∀ d ∈ t.history, d.NothingMissed) : ∀ d ∈ t.history, d.ProcessedOnce := by
  have hdelivered := hexact.delivered
  have hreleased := hexact.released
  have hreplied := hexact.replied
  rw [Thread.taken, List.filterMap_eq_flatMap_toList, List.filter_flatMap, List.map_flatMap]
    at hdelivered
  rw [Thread.taken, List.filterMap_eq_flatMap_toList] at hreleased
  rw [Thread.dequeued, List.filterMap_eq_flatMap_toList, List.filter_flatMap,
    List.map_flatMap] at hreplied
  intro d hd
  exact ⟨eq_of_flatMap_eq (fun d hd => (hmissed d hd).delivered) hdelivered d hd,
    eq_of_flatMap_eq (fun d hd => (hmissed d hd).released) hreleased d hd,
    eq_of_flatMap_eq (fun d hd => (hmissed d hd).replied) hreplied d hd⟩

/-- One step of UDP traffic misses nothing. -/
theorem nothingMissed_step {P : Platform} {t t' : Thread} {a : Action}
    (hmissed : ∀ d ∈ t.history, d.NothingMissed)
    (ha : a.Traffic Msg.HasSnip (· = .udp)) (h : t.step P a = some t') :
    ∀ d ∈ t'.history, d.NothingMissed := by
  rcases ha.cases with ⟨m, rfl, _⟩ | ⟨self, stale, rfl, rfl⟩
  · obtain rfl := Option.some.inj h
    exact hmissed
  · obtain ⟨_, table, calls, hrun, rfl⟩ := dispatch_cases h
    obtain ⟨_, _, ⟨j, face, face', hself, _⟩ | ⟨_, hrecv, _⟩⟩ := handler_cases hrun
    · cases hself
    · intro d hd
      rcases List.mem_append.mp hd with hd | hd
      · exact hmissed d hd
      · rw [List.mem_singleton.mp hd]
        exact nothingMissed_ndnUdpFaceRecv hrecv

/-- One step of UDP traffic handles its message once exactly when it is clean. -/
theorem processedOnce_step {P : Platform} {t t' : Thread} {a : Action}
    (ha : a.Traffic Msg.HasSnip (· = .udp)) (h : t.step P a = some t') :
    (∀ d ∈ t'.history, d.ProcessedOnce) ↔
      (∀ d ∈ t.history, d.ProcessedOnce) ∧ t.CleanIngress a := by
  rcases ha.cases with ⟨m, rfl, _⟩ | ⟨self, stale, rfl, rfl⟩
  · obtain rfl := Option.some.inj h
    exact (and_iff_left trivial).symm
  · obtain ⟨_, table, calls, hrun, rfl⟩ := dispatch_cases h
    obtain ⟨_, _, ⟨j, face, face', hself, _⟩ | ⟨_, hrecv, _⟩⟩ := handler_cases hrun
    · cases hself
    · rw [← processedOnce_iff hrecv]
      simp [or_imp, forall_and]

/-- **Ingress.** In every run of the UDP handler what came out is what was popped
if and only if every dispatch is clean, which is if each handled its message
once. What was popped and what is queued is what arrived; and a clean dispatch
can always be made. -/
theorem udpIngress_iff (P : Platform) {t t' : Thread} (hqueue : ∀ m ∈ t.msgQueue, m.HasSnip)
    (hfresh : t.history = []) {acts : List Action}
    (hacts : ∀ a ∈ acts, a.Traffic Msg.HasSnip (· = .udp)) (hrun : t.run P acts = some t') :
    (t'.IngressExact ↔
      Runs.Every (Thread.step P) (fun s a _ => s.CleanIngress a) t acts) ∧
    (t'.IngressExact ↔ ∀ d ∈ t'.history, d.ProcessedOnce) ∧
    t'.dequeued ++ t'.msgQueue = t.msgQueue ++ arrivals acts ∧
    ∀ stale, .udp ∈ t'.events → t'.CleanIngress (.dispatch .udp stale) →
      (t'.step P (.dispatch .udp stale)).isSome = true := by
  have hqueue' := traffic_queue_run hacts hqueue hrun
  have hstart : ∀ d ∈ t.history, d.NothingMissed := by simp [hfresh]
  have hmissed : ∀ d ∈ t'.history, d.NothingMissed := by
    refine Runs.run_invariant_of_every (I := fun s => ∀ d ∈ s.history, d.NothingMissed) ?_
      hstart (Runs.every_of_forall hacts) hrun
    exact fun _ _ _ hI h ha => nothingMissed_step hI ha h
  have hexact : t'.IngressExact ↔ ∀ d ∈ t'.history, d.ProcessedOnce :=
    ⟨fun h => processedOnce_of_ingressExact h hmissed, ingressExact_of_processedOnce⟩
  have hclean := Runs.run_iff_every (I := fun _ => True)
    (Q := fun s => ∀ d ∈ s.history, d.ProcessedOnce)
    (fun s a s' _ ha h => processedOnce_step ha h) (fun _ _ _ _ _ _ => trivial) trivial
    hacts hrun
  rw [and_iff_right (by simp [hfresh])] at hclean
  refine ⟨hexact.trans hclean, hexact, ?_,
    fun stale hevent hclean => dispatch_isSome_of_clean P hqueue' hevent hclean⟩
  rw [dequeued_run hrun]
  simp [Thread.dequeued, hfresh]

/-- A device that runs the UDP face only. -/
def oneUdpFace : Thread :=
  (ndnUdpFaceConstruct reference 6363 1 6363 (some 1) (Thread.boot 3 1)).2

/-- A payload, and a dispatch that finds the queue empty. -/
theorem udpIngress_payload :
    let acts := [.arrive ⟨5, .rcv, some ⟨0, .undef, [5, 1, 9]⟩⟩, .dispatch .udp ⟨0, .snd, none⟩,
      .dispatch .udp ⟨0, .snd, none⟩]
    ∃ t', oneUdpFace.run reference acts = some t' ∧
      (t'.IngressExact ↔
        Runs.Every (Thread.step reference) (fun s a _ => s.CleanIngress a) oneUdpFace acts) ∧
      (t'.IngressExact ↔ ∀ d ∈ t'.history, d.ProcessedOnce) ∧
      t'.dequeued ++ t'.msgQueue = oneUdpFace.msgQueue ++ arrivals acts ∧
      ∀ stale, .udp ∈ t'.events → t'.CleanIngress (.dispatch .udp stale) →
        (t'.step reference (.dispatch .udp stale)).isSome = true := by
  intro acts
  obtain ⟨t', hrun⟩ := Option.isSome_iff_exists.mp
    (show (oneUdpFace.run reference acts).isSome = true by decide)
  refine ⟨t', hrun, udpIngress_iff reference (by intro m hm; cases hm) rfl ?_ hrun⟩
  intro a ha
  simp only [acts, List.mem_cons, List.not_mem_nil, or_false] at ha
  rcases ha with rfl | rfl | rfl
  · exact fun _ => rfl
  · rfl
  · rfl

/-- A dispatch that finds the queue empty delivers and releases the payload of
the dispatch before it once more. -/
theorem udpIngress_twice :
    ∃ t', oneUdpFace.run reference
        [.arrive ⟨5, .rcv, some ⟨0, .undef, [5, 1, 9]⟩⟩, .dispatch .udp ⟨0, .snd, none⟩,
          .dispatch .udp ⟨5, .rcv, some ⟨0, .undef, [5, 1, 9]⟩⟩] = some t' ∧
      ¬ t'.IngressExact := by
  refine ⟨_, rfl, ?_⟩
  intro hexact
  exact absurd hexact.released (by decide)

end NdnRiot
