import NdnRiot.Lib.Run
import NdnRiot.Model.Udp

/-!
# The registration of the UDP face

Construction and destruction of the UDP face, in any order, and the static
entry in the `netreg` list of UDP. The entry is inserted before the forwarder
registers the face, without a look at whether it is there already, and nothing
takes it out again when the registration fails.
-/

namespace NdnRiot

/-- The life of the UDP face: `live` when some construction returned the face
and no destruction followed it. -/
structure UdpLife where
  thread : Thread
  live : Bool

/-- The calls that make the life of the face. `registeredAs` is the face id the
forwarder gives, `none` when it refuses the face. -/
inductive LifeAction
  | construct (localPort : UInt16) (remoteAddr : BitVec 128) (remotePort : UInt16)
      (registeredAs : Option Nat)
  | destroy

namespace UdpLife

/-- One call. -/
def step (P : Platform) (s : UdpLife) : LifeAction → Option UdpLife
  | .construct localPort remoteAddr remotePort registeredAs =>
      let made := ndnUdpFaceConstruct P localPort remoteAddr remotePort registeredAs s.thread
      some ⟨made.2, made.1 || s.live⟩
  | .destroy => some ⟨(ndnUdpFaceDestroy P s.thread).1, false⟩

/-- The entry is in the registry at most once, and exactly while the face is
live. -/
structure Consistent (s : UdpLife) : Prop where
  once : (s.thread.netreg .udp).count .udpMeReg ≤ 1
  live : .udpMeReg ∈ s.thread.netreg .udp ↔ s.live = true

/-- A construction that returned `NULL` left the registry, and the ports and the
address of a live face, as they were. -/
def FailureAtomic (P : Platform) (s : UdpLife) (a : LifeAction) (s' : UdpLife) : Prop :=
  match a with
  | .construct localPort remoteAddr remotePort registeredAs =>
      (ndnUdpFaceConstruct P localPort remoteAddr remotePort registeredAs s.thread).1 = false →
        s'.thread.netreg .udp = s.thread.netreg .udp ∧
        (s.live = true →
          s'.thread.udpFace.localPort = s.thread.udpFace.localPort ∧
          s'.thread.udpFace.remoteAddr = s.thread.udpFace.remoteAddr ∧
          s'.thread.udpFace.remotePort = s.thread.udpFace.remotePort)
  | .destroy => True

/-- The face is constructed only while it is not live, and the forwarder
registers it. -/
def Proper (s : UdpLife) : LifeAction → Prop
  | .construct _ _ _ registeredAs => s.live = false ∧ registeredAs.isSome = true
  | .destroy => True

end UdpLife

/-- Construction inserts the entry, whatever it returns. -/
theorem ndnUdpFaceConstruct_netreg {P : Platform} (hP : P.Documented) (localPort : UInt16)
    (remoteAddr : BitVec 128) (remotePort : UInt16) (registeredAs : Option Nat) (t : Thread) :
    (ndnUdpFaceConstruct P localPort remoteAddr remotePort registeredAs t).2.netreg .udp =
      .udpMeReg :: t.netreg .udp := by
  cases registeredAs with
  | none => simp [ndnUdpFaceConstruct, Thread.gnrcNetregRegister, Thread.msgInitQueue,
      hP.netregRegister]
  | some id =>
      simp only [ndnUdpFaceConstruct, ndnFaceUp, hP.faceUp, if_true]
      simp [ndnUdpFaceUp, Thread.ndnMsgqueuePost, Thread.gnrcNetregRegister,
        Thread.msgInitQueue, hP.netregRegister]

/-- Construction returns the face when the forwarder registers it. -/
theorem ndnUdpFaceConstruct_made (P : Platform) (localPort : UInt16)
    (remoteAddr : BitVec 128) (remotePort : UInt16) (registeredAs : Option Nat) (t : Thread) :
    (ndnUdpFaceConstruct P localPort remoteAddr remotePort registeredAs t).1 =
      registeredAs.isSome := by
  cases registeredAs <;> rfl

/-- Destruction takes the entry out. -/
theorem ndnUdpFaceDestroy_netreg {P : Platform} (hP : P.Documented) {t : Thread}
    (h : (t.netreg .udp).count .udpMeReg ≤ 1) :
    (ndnUdpFaceDestroy P t).1.netreg .udp = (t.netreg .udp).erase .udpMeReg := by
  rw [← hP.netregUnregister _ _ h]
  unfold ndnUdpFaceDestroy ndnFaceDown
  dsimp only
  split <;> rfl

/-- What a construction does to the registry and to the life of the face. -/
theorem UdpLife.step_construct {P : Platform} (hP : P.Documented) {s s' : UdpLife}
    {localPort : UInt16} {remoteAddr : BitVec 128} {remotePort : UInt16}
    {registeredAs : Option Nat}
    (h : s.step P (.construct localPort remoteAddr remotePort registeredAs) = some s') :
    s'.thread.netreg .udp = .udpMeReg :: s.thread.netreg .udp ∧
      s'.live = (registeredAs.isSome || s.live) := by
  have hs' := Option.some.inj h
  refine ⟨?_, ?_⟩
  · rw [← hs']
    exact ndnUdpFaceConstruct_netreg hP localPort remoteAddr remotePort registeredAs s.thread
  · rw [← hs', ndnUdpFaceConstruct_made]

/-- One construction from a consistent state. -/
theorem UdpLife.construct_agree {P : Platform} (hP : P.Documented) {s s' : UdpLife}
    (hs : s.Consistent) {localPort : UInt16} {remoteAddr : BitVec 128} {remotePort : UInt16}
    {registeredAs : Option Nat}
    (hstep : s.step P (.construct localPort remoteAddr remotePort registeredAs) = some s') :
    (s'.Consistent ∧
        s.FailureAtomic P (.construct localPort remoteAddr remotePort registeredAs) s') ↔
      s.Proper (.construct localPort remoteAddr remotePort registeredAs) := by
  obtain ⟨hnetreg, hlive'⟩ := step_construct hP hstep
  have hmade := ndnUdpFaceConstruct_made P localPort remoteAddr remotePort registeredAs
    s.thread
  have hcount : (s.thread.netreg .udp).count .udpMeReg = 0 ↔ s.live = false := by
    rw [List.count_eq_zero, hs.live, Bool.not_eq_true]
  constructor
  · rintro ⟨hcons, hatomic⟩
    have honce := hcons.once
    rw [hnetreg, List.count_cons_self] at honce
    refine ⟨hcount.mp (by omega), ?_⟩
    -- a failure would leave the entry behind
    by_contra hnone
    have hsame := (hatomic (by rw [hmade]; exact Bool.not_eq_true _ ▸ hnone)).1
    rw [hnetreg] at hsame
    exact List.cons_ne_self _ _ hsame
  · rintro ⟨hlive, hsome⟩
    have hzero := hcount.mpr hlive
    refine ⟨⟨?_, ?_⟩, fun hnull => ?_⟩
    · rw [hnetreg, List.count_cons_self]
      omega
    · rw [hnetreg, hlive', hsome]
      simp
    · rw [hmade, hsome] at hnull
      cases hnull

/-- Destruction keeps a consistent state consistent. -/
theorem UdpLife.destroy_consistent {P : Platform} (hP : P.Documented) {s s' : UdpLife}
    (hs : s.Consistent) (hstep : s.step P .destroy = some s') : s'.Consistent := by
  have honce := hs.once
  have hcount : ((s.thread.netreg .udp).erase .udpMeReg).count .udpMeReg = 0 := by
    rw [List.count_erase_self]
    omega
  have hnetreg : s'.thread.netreg .udp = (s.thread.netreg .udp).erase .udpMeReg := by
    rw [← Option.some.inj hstep]
    exact ndnUdpFaceDestroy_netreg hP honce
  have hlive : s'.live = false := by rw [← Option.some.inj hstep]
  refine ⟨?_, ?_⟩
  · rw [hnetreg]
    omega
  · rw [hnetreg, hlive]
    simpa using List.count_eq_zero.mp hcount

/-- One step from a consistent state keeps the registration in order if and
only if it is proper. -/
theorem UdpLife.step_agree {P : Platform} (hP : P.Documented) (s : UdpLife) (a : LifeAction)
    (s' : UdpLife) (hs : s.Consistent) (hstep : s.step P a = some s') :
    (s'.Consistent ∧ FailureAtomic P s a s') ↔ s.Proper a := by
  cases a with
  | construct localPort remoteAddr remotePort registeredAs =>
      exact construct_agree hP hs hstep
  | destroy => exact ⟨fun _ => trivial, fun _ => ⟨destroy_consistent hP hs hstep, trivial⟩⟩

/-- **Registration.** From a consistent state, a run keeps the registry
consistent and its failed constructions atomic in every step if and only if
every construction in it is of a face that is not live and that the forwarder
registers. -/
theorem udpRegistry_iff {P : Platform} (hP : P.Documented) {s : UdpLife} (hs : s.Consistent)
    (acts : List LifeAction) :
    Runs.Every (UdpLife.step P) (fun s a s' => s'.Consistent ∧ s.FailureAtomic P a s') s acts ↔
      Runs.Every (UdpLife.step P) (fun s a _ => s.Proper a) s acts :=
  Runs.every_congr (fun s a s' hs hstep => UdpLife.step_agree hP s a s' hs hstep)
    (fun s a s' hs hstep hproper => ((UdpLife.step_agree hP s a s' hs hstep).mpr hproper).1) hs

/-- A face constructed, destroyed and constructed again. -/
theorem udpRegistry_again :
    let s : UdpLife := ⟨Thread.boot 3 1, false⟩
    let acts : List LifeAction := [.construct 6363 1 6363 (some 1), .destroy,
      .construct 6363 1 6363 (some 2)]
    Runs.Every (UdpLife.step reference)
        (fun s a s' => s'.Consistent ∧ s.FailureAtomic reference a s') s acts ↔
      Runs.Every (UdpLife.step reference) (fun s a _ => s.Proper a) s acts :=
  udpRegistry_iff reference_documented ⟨by decide, by decide⟩ _

/-- A construction that fails while the face is live leaves the entry in the
registry twice, and the face with another port. -/
theorem udpRegistry_broken :
    let s : UdpLife := ⟨Thread.boot 3 1, false⟩
    ∃ s', Runs.run (UdpLife.step reference) s
        [.construct 6363 1 6363 (some 1), .construct 7000 1 7000 none] = some s' ∧
      s'.live = true ∧ s'.thread.udpFace.localPort = 7000 ∧ ¬ s'.Consistent := by
  intro s
  refine ⟨_, rfl, rfl, rfl, ?_⟩
  intro hcons
  exact absurd hcons.once (by decide)

end NdnRiot
