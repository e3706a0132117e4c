import NdnRiot.Logic.Handlers

/-!
# The receive pump of the UDP face

`ndn_udp_face_recv` posts itself again whenever it ran, and `ndn_udp_face_up`
posts it once more. The number of pending receive events is therefore one more
than the number of times the face was brought up after its construction;
`ndn_netface_up`, which posts nothing, has no such effect.
-/

namespace NdnRiot

/-- A call of `ndn_udp_face_up`. -/
def Action.isUdpUp : Action → Bool
  | .udpUp => true
  | _ => false

/-- One receive event at most, and exactly one while the face is up. -/
def Thread.SinglePump (t : Thread) : Prop :=
  t.events.count .udp ≤ 1 ∧ (t.udpFace.state = .up → t.events.count .udp = 1)

/-- The receive events pending after a step. -/
theorem events_count_step {P : Platform} {t t' : Thread} {a : Action}
    (h : t.step P a = some t') :
    t'.events.count .udp = t.events.count .udp + if a.isUdpUp then 1 else 0 := by
  cases a with
  | arrive m =>
      obtain rfl := Option.some.inj h
      rfl
  | dispatch self stale => exact (dispatch_events_perm h).count_eq _
  | netfaceUp i | netfaceDown i | netfaceDestroy i =>
      obtain ⟨face, _, rfl⟩ := Option.map_eq_some_iff.mp h
      rfl
  | netfaceSend i packet riot =>
      obtain ⟨face, _, hsend⟩ := Option.bind_eq_some_iff.mp h
      obtain ⟨result, _, rfl⟩ := Option.map_eq_some_iff.mp hsend
      rfl
  | udpUp =>
      obtain rfl := Option.some.inj h
      simp [ndnUdpFaceUp, Thread.ndnMsgqueuePost, Action.isUdpUp]
  | udpDown =>
      obtain rfl := Option.some.inj h
      rfl
  | udpDestroy =>
      obtain rfl := Option.some.inj h
      rw [(ndnUdpFaceDestroy_frame P t).2.1]
      rfl

/-- The receive events pending after a run. -/
theorem events_count_run {P : Platform} {acts : List Action} {t t' : Thread}
    (h : t.run P acts = some t') :
    t'.events.count .udp = t.events.count .udp + acts.countP Action.isUdpUp := by
  induction acts generalizing t with
  | nil =>
      obtain rfl : t = t' := by simpa using h
      rfl
  | cons a rest ih =>
      obtain ⟨s, hstep, hrest⟩ := (Runs.run_cons_eq_some _).mp h
      rw [ih hrest, events_count_step hstep, List.countP_cons]
      omega

/-- A successful construction posts the receive event once. -/
theorem ndnUdpFaceConstruct_events {P : Platform} (hP : P.Documented) {localPort : UInt16}
    {remoteAddr : BitVec 128} {remotePort : UInt16} {registeredAs : Option Nat}
    {t t' : Thread}
    (h : ndnUdpFaceConstruct P localPort remoteAddr remotePort registeredAs t = (true, t')) :
    t'.events = t.events ++ [.udp] := by
  cases registeredAs with
  | none => simp [ndnUdpFaceConstruct] at h
  | some id =>
      simp only [ndnUdpFaceConstruct, ndnFaceUp, hP.faceUp, if_true] at h
      obtain ⟨_, rfl⟩ := Prod.mk.inj h
      rfl

/-- **The pump.** In every run after a successful construction there is a
single pump if and only if the face was not brought up again. -/
theorem singlePump_iff {P : Platform} (hP : P.Documented) {localPort : UInt16}
    {remoteAddr : BitVec 128} {remotePort : UInt16} {registeredAs : Option Nat}
    {t₀ t₁ t : Thread} (hfresh : t₀.events.count .udp = 0)
    (hcons : ndnUdpFaceConstruct P localPort remoteAddr remotePort registeredAs t₀ =
      (true, t₁)) {acts : List Action} (hrun : t₁.run P acts = some t) :
    t.SinglePump ↔ ∀ a ∈ acts, a.isUdpUp = false := by
  have hcount : t.events.count .udp = 1 + acts.countP Action.isUdpUp := by
    rw [events_count_run hrun, ndnUdpFaceConstruct_events hP hcons, List.count_append, hfresh]
    rfl
  have hnone : acts.countP Action.isUdpUp = 0 ↔ ∀ a ∈ acts, a.isUdpUp = false := by
    simp [List.countP_eq_zero]
  rw [← hnone]
  unfold Thread.SinglePump
  constructor
  · rintro ⟨hle, _⟩
    omega
  · intro hzero
    exact ⟨by omega, fun _ => by omega⟩

/-- A face that is taken down keeps its pump. -/
theorem singlePump_down :
    let made := ndnUdpFaceConstruct reference 6363 1 6363 (some 1) (Thread.boot 3 1)
    let acts := [.udpDown, .dispatch .udp ⟨0, .snd, none⟩]
    ∃ t, made.2.run reference acts = some t ∧
      (t.SinglePump ↔ ∀ a ∈ acts, a.isUdpUp = false) := by
  intro made acts
  have hcons : ndnUdpFaceConstruct reference 6363 1 6363 (some 1) (Thread.boot 3 1) =
    (true, made.2) := rfl
  obtain ⟨t, hrun⟩ := Option.isSome_iff_exists.mp
    (show (made.2.run reference acts).isSome = true by decide)
  exact ⟨t, hrun, singlePump_iff reference_documented rfl hcons hrun⟩

/-- A face that is taken down and brought up again has two pumps. -/
theorem doublePump_down_up :
    let made := ndnUdpFaceConstruct reference 6363 1 6363 (some 1) (Thread.boot 3 1)
    made.1 = true ∧
      ∃ t, made.2.run reference [.udpDown, .udpUp] = some t ∧ ¬ t.SinglePump := by
  intro made
  obtain ⟨t, hrun⟩ := Option.isSome_iff_exists.mp
    (show (made.2.run reference [.udpDown, .udpUp]).isSome = true by decide)
  refine ⟨rfl, t, hrun, ?_⟩
  rintro ⟨hle, _⟩
  rw [events_count_run hrun] at hle
  exact absurd hle (by decide)

end NdnRiot
