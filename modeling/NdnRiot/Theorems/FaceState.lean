import NdnRiot.Logic.Lifecycle

/-!
# Deliveries and the state of a face

The life cycle functions write the state of a face, `ndn_udp_face_destroy` in
order to unregister the UDP event; neither receive handler reads it, and no
function takes a pending receive event back. A face that is down or destroyed
delivers whatever its next event finds.
-/

namespace NdnRiot

open Reassembly

/-- The state of a face. -/
def Thread.stateOf (t : Thread) : FaceRef → Option FaceState
  | .netface i => t.netfaceTable[i]?.map Netface.state
  | .udp => some t.udpFace.state

/-- The face an action destroys. -/
def Action.destroys : Action → Option FaceRef
  | .netfaceDestroy i => some (.netface i)
  | .udpDestroy => some .udp
  | _ => none

/-- The thread, with the faces that were destroyed since their construction. -/
structure Lifetime where
  thread : Thread
  destroyed : List FaceRef

namespace Lifetime

/-- One action. -/
def step (P : Platform) (s : Lifetime) (a : Action) : Option Lifetime :=
  (s.thread.step P a).map fun t => ⟨t, a.destroys.toList ++ s.destroyed⟩

/-- The face is up, and was not destroyed. -/
def Active (s : Lifetime) (self : FaceRef) : Prop :=
  s.thread.stateOf self = some .up ∧ self ∉ s.destroyed

/-- What the step delivers, it delivers on active faces. -/
def DeliversActive (s s' : Lifetime) : Prop :=
  ∀ d, s'.thread.history = s.thread.history ++ [d] → ∀ x ∈ deliveries d.calls, s.Active x.1

end Lifetime

/-- The event of the face finds something to deliver: for a netface a whole
packet or the fragment that completes the pending train at the head of the
queue, for the UDP face any snip. -/
def Thread.Deliverable (t : Thread) : FaceRef → Msg → Prop
  | .netface i, _ => ∃ snip face, t.msgQueue.head?.bind Msg.snip? = some snip ∧
      snip.type = .ndn ∧ t.netfaceTable[i]? = some face ∧
      (headerBit snip.data = false ∨
        face.assembler.Expects snip.data ∧ moreFragments snip.data = false)
  | .udp, stale => (handled t.msgQueue stale).snip?.isSome = true

/-- A dispatched event is of an active face, or finds nothing to deliver. -/
def Lifetime.Quiet (s : Lifetime) : Action → Prop
  | .dispatch self stale => s.Active self ∨ ¬ s.thread.Deliverable self stale
  | _ => True

/-- What an idle or pending receiver makes of a fragment. -/
theorem linkReceive_ne_nil_iff {face : Netface} {p : Rx} (hold : face.Holds p)
    (frame : List UInt8) :
    (linkReceive p frame).2 ≠ [] ↔ headerBit frame = false ∨
      face.assembler.Expects frame ∧ moreFragments frame = false := by
  cases hbit : headerBit frame with
  | false => simp [linkReceive, hbit]
  | true =>
      rw [hold.expects_iff hbit]
      rcases offer_cases p frame with ⟨hno, hoff⟩ | ⟨_, hmore, _, hnone⟩ | ⟨hcont, hmore, hoff⟩
      · simp [linkReceive, hbit, hoff, hno]
      · have hmore : moreFragments frame = true := hmore
        simp [linkReceive, hbit, hnone, hmore]
      · have hmore : moreFragments frame = false := hmore
        simp [linkReceive, hbit, hoff, hcont, hmore]

/-- What a netface delivers from the head of the queue. -/
theorem deliveries_netface {P : Platform} (hP : P.Documented) {t : Thread} {i : Nat}
    {stale : Msg} {face face' : Netface} {p : Rx} {queue : List Msg} {calls : List Call}
    (hface : t.netfaceTable[i]? = some face) (hold : face.Holds p)
    (h : ndnNetfaceReceive P (.netface i) face t.msgQueue = .ok (face', queue, calls)) :
    (∀ x ∈ deliveries calls, x.1 = .netface i) ∧
      (deliveries calls ≠ [] ↔ t.Deliverable (.netface i) stale) := by
  refine ⟨(deliveries_ndnNetfaceReceive h).1, ?_⟩
  simp only [Thread.Deliverable, hface]
  obtain ⟨hnone, _, hdel, _⟩ | ⟨snip, ret, made, hsnip, hproc, rfl⟩ := ndnNetfaceReceive_snip h
  · simp [hnone, hdel]
  · by_cases htype : snip.type = .ndn
    · obtain ⟨face₁, calls₁, hspec, _, _, hdel, _⟩ :=
        ndnL2ProcessPacket_spec hP (.netface i) hold htype (readable_of_processed htype hproc)
      rw [hspec] at hproc
      cases hproc
      have hiff := linkReceive_ne_nil_iff hold snip.data
      simp only [deliveries_append, hdel, hsnip]
      constructor
      · intro hne
        refine ⟨snip, face, rfl, htype, rfl, hiff.mp ?_⟩
        intro hnil
        simp [hnil] at hne
      · rintro ⟨snip', face', hsnip', _, hface', hcase⟩
        cases hsnip'
        cases hface'
        have hne := hiff.mpr hcase
        simpa using hne
    · rw [ndnL2ProcessPacket_foreign P _ face htype] at hproc
      cases hproc
      simp [hsnip, htype]

/-- What the UDP face delivers. -/
theorem deliveries_udp {t : Thread} {stale : Msg} {queue : List Msg} {calls : List Call}
    (h : ndnUdpFaceRecv .udp stale t.msgQueue = .ok (queue, calls)) :
    (∀ x ∈ deliveries calls, x.1 = .udp) ∧
      (deliveries calls ≠ [] ↔ t.Deliverable .udp stale) := by
  obtain ⟨hdel, _, _⟩ := ndnUdpFaceRecv_calls h
  rw [hdel]
  unfold Thread.Deliverable
  cases hsnip : (handled t.msgQueue stale).snip? <;> simp [hsnip]

/-- **One dispatch.** It delivers on the face it is for, and it delivers
something exactly when it finds something to deliver. -/
theorem deliveries_dispatch {P : Platform} (hP : P.Documented) {t t' : Thread}
    (harmed : t.Armed) {self : FaceRef} {stale : Msg}
    (h : t.step P (.dispatch self stale) = some t') :
    ∃ d, t'.history = t.history ++ [d] ∧ (∀ x ∈ deliveries d.calls, x.1 = self) ∧
      (deliveries d.calls ≠ [] ↔ t.Deliverable self stale) := by
  obtain ⟨hevent, table, calls, hrun, rfl⟩ := dispatch_cases h
  refine ⟨t.record self stale calls, rfl, ?_⟩
  rw [record_calls]
  obtain ⟨_, _, ⟨i, face, face', rfl, hface, hrecv, _⟩ | ⟨rfl, hrecv, _⟩⟩ := handler_cases hrun
  · obtain ⟨face₀, hface₀, p, hold⟩ := harmed i hevent
    obtain rfl : face = face₀ := Option.some.inj (hface.symm.trans hface₀)
    exact deliveries_netface hP hface hold hrecv
  · exact deliveries_udp hrecv

/-- One action delivers on active faces exactly when it is quiet. -/
theorem Lifetime.step_agree {P : Platform} (hP : P.Documented) {s s' : Lifetime} {a : Action}
    (harmed : s.thread.Armed) (h : s.step P a = some s') :
    s.DeliversActive s' ↔ s.Quiet a := by
  obtain ⟨t', hstep, rfl⟩ := Option.map_eq_some_iff.mp h
  rcases step_cases hstep with ⟨self, stale, rfl⟩ | ⟨hsame, _⟩
  · obtain ⟨d, hhistory, hself, hdel⟩ := deliveries_dispatch hP harmed hstep
    have hlast : ∀ d', t'.history = s.thread.history ++ [d'] ↔ d = d' := by
      intro d'
      rw [hhistory]
      simp
    simp only [DeliversActive, Quiet, hlast, forall_eq', ← hdel]
    constructor
    · intro hactive
      cases hcalls : deliveries d.calls with
      | nil => exact .inr (by simp)
      | cons x rest =>
          have hx : x ∈ deliveries d.calls := by rw [hcalls]; exact List.mem_cons_self
          exact .inl (hself x hx ▸ hactive x hx)
    · rintro (hactive | hnone) x hx
      · rw [hself x hx]
        exact hactive
      · rw [not_not.mp hnone] at hx
        cases hx
  · -- no event was dispatched, and nothing was delivered
    refine iff_of_true ?_ ?_
    · intro d hd
      rw [hsame] at hd
      simp at hd
    · cases a with
      | dispatch self stale =>
          obtain ⟨d, hhistory, _⟩ := deliveries_dispatch hP harmed hstep
          rw [hsame] at hhistory
          simp at hhistory
      | _ => trivial

/-- The threads on which faces were built, with no event pending before. -/
inductive Thread.BuiltFrom (P : Platform) (t₀ : Thread) : Thread → Prop
  | netfaces (netifs : List NetifInfo) (hroom : netifs.length ≤ t₀.netfaceTable.length) :
      Thread.BuiltFrom P t₀ (ndnLiteStartup P netifs t₀)
  | udpFace {t : Thread} (built : Thread.BuiltFrom P t₀ t) (localPort : UInt16)
      (remoteAddr : BitVec 128) (remotePort : UInt16) (registeredAs : Option Nat) :
      Thread.BuiltFrom P t₀
        (ndnUdpFaceConstruct P localPort remoteAddr remotePort registeredAs t).2

theorem Thread.BuiltFrom.armed {P : Platform} (hP : P.Documented) {t₀ t : Thread}
    (hbuilt : Thread.BuiltFrom P t₀ t) (hfresh : t₀.events = []) : t.Armed := by
  induction hbuilt with
  | netfaces netifs hroom => exact armed_ndnLiteStartup hP hroom hfresh
  | udpFace _ localPort remoteAddr remotePort registeredAs ih =>
      exact ih.ndnUdpFaceConstruct localPort remoteAddr remotePort registeredAs

/-- **Deliveries and states.** In every run after the construction, all that is
delivered is delivered on faces that are up and were not destroyed, if and only
if no event of another face finds something to deliver. -/
theorem deliversActive_iff {P : Platform} (hP : P.Documented) {t₀ t : Thread}
    (hbuilt : Thread.BuiltFrom P t₀ t) (hfresh : t₀.events = []) (acts : List Action) :
    Runs.Every (Lifetime.step P) (fun s _ s' => s.DeliversActive s') ⟨t, []⟩ acts ↔
      Runs.Every (Lifetime.step P) (fun s a _ => s.Quiet a) ⟨t, []⟩ acts := by
  refine Runs.every_congr (I := fun s : Lifetime => s.thread.Armed) ?_ ?_
    (hbuilt.armed hP hfresh)
  · exact fun s a s' harmed h => Lifetime.step_agree hP harmed h
  · intro s a s' harmed h _
    obtain ⟨t', hstep, rfl⟩ := Option.map_eq_some_iff.mp h
    exact harmed.step hP hstep

/-- Deliveries while a netface is up, and an event that finds nothing after it
was taken down. -/
theorem deliversActive_down :
    let t := ndnLiteStartup reference [⟨7, some 102, none, some 1⟩] (Thread.boot 3 1)
    let acts := [.arrive ⟨7, .rcv, some ⟨0, .ndn, [5, 1, 9]⟩⟩,
      .dispatch (.netface 0) ⟨0, .snd, none⟩, .netfaceDown 0,
      .dispatch (.netface 0) ⟨0, .snd, none⟩]
    Runs.Every (Lifetime.step reference) (fun s _ s' => s.DeliversActive s') ⟨t, []⟩ acts ↔
      Runs.Every (Lifetime.step reference) (fun s a _ => s.Quiet a) ⟨t, []⟩ acts :=
  deliversActive_iff reference_documented
    (.netfaces [⟨7, some 102, none, some 1⟩] (by decide)) rfl _

/-- The event of a destroyed UDP face delivers the payload it finds. -/
theorem delivers_destroyed :
    let t := (ndnUdpFaceConstruct reference 6363 1 6363 (some 1)
      (ndnLiteStartup reference [] (Thread.boot 3 1))).2
    ¬ Runs.Every (Lifetime.step reference) (fun s _ s' => s.DeliversActive s') ⟨t, []⟩
      [.arrive ⟨5, .rcv, some ⟨0, .undef, [5, 1, 9]⟩⟩, .udpDestroy,
        .dispatch .udp ⟨0, .snd, none⟩] := by
  intro t hevery
  obtain ⟨_, hevery⟩ := hevery _ rfl
  obtain ⟨_, hevery⟩ := hevery _ rfl
  obtain ⟨hactive, _⟩ := hevery _ rfl
  have hface := hactive _ rfl (.udp, [5, 1, 9]) (by decide)
  exact hface.2 (by decide)

end NdnRiot
