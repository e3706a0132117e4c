import NdnRiot.Logic.Construct
import NdnRiot.Logic.Handlers

/-!
# Netfaces and the UDP face on one thread

Both kinds of handler drain the one message queue of the thread, and each takes
whatever is at its head. A netface drops a UDP payload, and the UDP face
delivers an NDN frame it logs as discarded; so every message is served exactly
as long as each handler meets messages of its own kind.
-/

namespace NdnRiot

/-- A whole NDN frame is delivered on a netface and never on the UDP face, and a
UDP payload on the UDP face. -/
structure Dispatch.Served (d : Dispatch) : Prop where
  notOnUdp : ∀ snip, (d.msg.getD d.stale).snip? = some snip → snip.type = .ndn →
    headerBit snip.data = false → ∀ x ∈ deliveries d.calls, x.1 ≠ .udp
  whole : ∀ snip, d.taken = some snip → snip.type = .ndn → headerBit snip.data = false →
    ∃ i, deliveries d.calls = [(.netface i, snip.data)]
  payload : ∀ snip, d.taken = some snip → snip.type ≠ .ndn →
    deliveries d.calls = [(.udp, snip.data)]

/-- A netface meets an NDN snip at the head of the queue, and the UDP face does
not act on a whole NDN frame. -/
def Thread.OwnKind (t : Thread) : Action → Prop
  | .dispatch (.netface _) _ =>
      ∀ snip, t.msgQueue.head?.bind Msg.snip? = some snip → snip.type = .ndn
  | .dispatch .udp stale =>
      ∀ snip, (handled t.msgQueue stale).snip? = some snip → snip.type = .ndn →
        headerBit snip.data = true
  | _ => True

/-- A netface serves NDN snips, and no others. -/
theorem served_netface_iff {P : Platform} {t : Thread} {i : Nat} {stale : Msg}
    {face face' : Netface} {queue : List Msg} {calls : List Call}
    (h : ndnNetfaceReceive P (.netface i) face t.msgQueue = .ok (face', queue, calls)) :
    (t.record (.netface i) stale calls).Served ↔ t.OwnKind (.dispatch (.netface i) stale) := by
  obtain ⟨hself, hdel⟩ := deliveries_ndnNetfaceReceive h
  constructor
  · intro hserved snip hsnip
    by_contra htype
    -- a snip of another type is dropped, not delivered
    have hpayload := hserved.payload snip hsnip htype
    rw [record_calls, (hdel snip hsnip).1 htype] at hpayload
    cases hpayload
  · intro hown
    refine ⟨?_, ?_, ?_⟩
    · intro snip _ _ _ x hx hudp
      rw [hself x hx] at hudp
      cases hudp
    · intro snip hsnip htype hbit
      exact ⟨i, (hdel snip hsnip).2 htype hbit⟩
    · intro snip hsnip htype
      exact absurd (hown snip hsnip) htype

/-- The UDP face serves everything but whole NDN frames. -/
theorem served_udp_iff {t : Thread} {stale : Msg} {queue : List Msg} {calls : List Call}
    (h : ndnUdpFaceRecv .udp stale t.msgQueue = .ok (queue, calls)) :
    (t.record .udp stale calls).Served ↔ t.OwnKind (.dispatch .udp stale) := by
  obtain ⟨hdel, _, _⟩ := ndnUdpFaceRecv_calls h
  have htaken : ∀ snip, t.msgQueue.head?.bind Msg.snip? = some snip →
      (handled t.msgQueue stale).snip? = some snip := by
    intro snip hsnip
    obtain ⟨m, hm, hmsnip⟩ := Option.bind_eq_some_iff.mp hsnip
    simp [handled, hm, hmsnip]
  constructor
  · intro hserved snip hsnip htype
    by_contra hbit
    refine hserved.notOnUdp snip hsnip htype (by simpa using hbit) (.udp, snip.data) ?_ rfl
    simp [hdel, hsnip]
  · intro hown
    refine ⟨?_, ?_, ?_⟩
    · intro snip hsnip htype hbit
      exact absurd (hown snip hsnip htype) (by simp [hbit])
    · intro snip hsnip htype hbit
      exact absurd (hown snip (htaken snip hsnip) htype) (by simp [hbit])
    · intro snip hsnip _
      simp [hdel, htaken snip hsnip]

/-- An RCV message with a snip, whose header can be read if it is an NDN snip. -/
def Msg.Carried (m : Msg) : Prop :=
  m.type = .rcv ∧ ∃ snip, m.ptr = some snip ∧ (snip.type = .ndn → Readable snip.data)

/-- One step serves its message exactly when it is of the handler's own kind. -/
theorem served_step {P : Platform} {t t' : Thread} {a : Action}
    (ha : a.Traffic Msg.Carried fun _ => True) (h : t.step P a = some t') :
    (∀ d ∈ t'.history, d.Served) ↔ (∀ d ∈ t.history, d.Served) ∧ t.OwnKind a := by
  rcases ha.cases with ⟨m, rfl, _⟩ | ⟨self, stale, rfl, _⟩
  · obtain rfl := Option.some.inj h
    exact (and_iff_left trivial).symm
  · obtain ⟨_, table, calls, hrun, rfl⟩ := dispatch_cases h
    obtain ⟨_, _, ⟨i, face, face', rfl, _, hrecv, _⟩ | ⟨rfl, hrecv, _⟩⟩ := handler_cases hrun
    · rw [← served_netface_iff hrecv]
      simp [or_imp, forall_and]
    · rw [← served_udp_iff hrecv]
      simp [or_imp, forall_and]

/-- Construction of the UDP face empties the queue and keeps the history. -/
theorem ndnUdpFaceConstruct_queue {P : Platform} (hP : P.Documented) (localPort : UInt16)
    (remoteAddr : BitVec 128) (remotePort : UInt16) (registeredAs : Option Nat) (t : Thread) :
    (ndnUdpFaceConstruct P localPort remoteAddr remotePort registeredAs t).2.msgQueue = [] ∧
    (ndnUdpFaceConstruct P localPort remoteAddr remotePort registeredAs t).2.history =
      t.history := by
  cases registeredAs with
  | none => exact ⟨rfl, rfl⟩
  | some id =>
      simp only [ndnUdpFaceConstruct, ndnFaceUp, hP.faceUp, if_true]
      exact ⟨rfl, rfl⟩

/-- **Coexistence.** In every run after the startup and the construction of the
UDP face, every message is served if and only if every handler met messages of
its own kind; and what was popped and what is queued is what arrived. -/
theorem coexistence_iff {P : Platform} (hP : P.Documented) {netifs : List NetifInfo}
    {localPort : UInt16} {remoteAddr : BitVec 128} {remotePort : UInt16}
    {registeredAs : Option Nat} {t₀ t₁ t : Thread} (hfresh : t₀.history = [])
    (hcons : ndnUdpFaceConstruct P localPort remoteAddr remotePort registeredAs
      (ndnLiteStartup P netifs t₀) = (true, t₁))
    {acts : List Action} (hacts : ∀ a ∈ acts, a.Traffic Msg.Carried fun _ => True)
    (hrun : t₁.run P acts = some t) :
    ((∀ d ∈ t.history, d.Served) ↔
      Runs.Every (Thread.step P) (fun s a _ => s.OwnKind a) t₁ acts) ∧
    t.dequeued ++ t.msgQueue = arrivals acts := by
  obtain ⟨hqueue, hhistory⟩ : t₁.msgQueue = [] ∧ t₁.history = [] := by
    have h := ndnUdpFaceConstruct_queue hP localPort remoteAddr remotePort registeredAs
      (ndnLiteStartup P netifs t₀)
    obtain ⟨_, _, _, hkept⟩ := ndnLiteStartup_eq P netifs t₀
    rwa [hcons, hkept, hfresh] at h
  refine ⟨?_, ?_⟩
  · have hiff := Runs.run_iff_every (I := fun _ => True)
      (Q := fun s => ∀ d ∈ s.history, d.Served)
      (fun s a s' _ ha h => served_step ha h) (fun _ _ _ _ _ _ => trivial) trivial hacts hrun
    rwa [and_iff_right (by simp [hhistory])] at hiff
  · rw [dequeued_run hrun]
    simp [Thread.dequeued, hhistory, hqueue]

/-- A device with one interface and the UDP face, as `udp-test` sets it up. -/
def bothFaces : Bool × Thread :=
  ndnUdpFaceConstruct reference 6363 1 6363 (some 2)
    (ndnLiteStartup reference [⟨7, some 102, none, some 1⟩] (Thread.boot 3 1))

/-- An NDN frame met by the netface and a payload met by the UDP face. -/
theorem coexistence_ownKind :
    let acts := [.arrive ⟨7, .rcv, some ⟨0, .ndn, [5, 1, 9]⟩⟩,
      .arrive ⟨5, .rcv, some ⟨1, .undef, [5, 1, 8]⟩⟩,
      .dispatch (.netface 0) ⟨0, .snd, none⟩, .dispatch .udp ⟨0, .snd, none⟩]
    ∃ t, bothFaces.2.run reference acts = some t ∧
      ((∀ d ∈ t.history, d.Served) ↔
        Runs.Every (Thread.step reference) (fun s a _ => s.OwnKind a) bothFaces.2 acts) ∧
      t.dequeued ++ t.msgQueue = arrivals acts := by
  intro acts
  obtain ⟨t, hrun⟩ := Option.isSome_iff_exists.mp
    (show (bothFaces.2.run reference acts).isSome = true by decide)
  have hcons : bothFaces = (true, bothFaces.2) := rfl
  refine ⟨t, hrun, coexistence_iff reference_documented rfl hcons ?_ hrun⟩
  intro a ha
  simp only [acts, List.mem_cons, List.not_mem_nil, or_false] at ha
  rcases ha with rfl | rfl | rfl | rfl
  · exact ⟨rfl, _, rfl, fun _ => by decide⟩
  · exact ⟨rfl, _, rfl, fun h => by cases h⟩
  · trivial
  · trivial

/-- The netface drops a UDP payload it meets. -/
theorem coexistence_lost :
    bothFaces.1 = true ∧
      ∃ t, bothFaces.2.run reference
          [.arrive ⟨5, .rcv, some ⟨1, .undef, [5, 1, 8]⟩⟩,
            .dispatch (.netface 0) ⟨0, .snd, none⟩] = some t ∧
        ¬ ∀ d ∈ t.history, d.Served := by
  refine ⟨rfl, _, rfl, ?_⟩
  intro hserved
  have hpayload := (hserved _ List.mem_cons_self).payload ⟨1, .undef, [5, 1, 8]⟩ rfl (by decide)
  exact absurd hpayload (by decide)

end NdnRiot
