import NdnRiot.Logic.Pending

/-!
# The life of the faces

A netface whose receive event is pending keeps an assembler that waits for some
fragment (`Thread.Armed`), whatever is done to its state.
-/

namespace NdnRiot

/-- Every netface whose receive event is pending holds some pending train. -/
def Thread.Armed (t : Thread) : Prop := t.EachPending fun face => ∃ p, face.Holds p

/-- **The step lemma.** Every action of the thread keeps it armed. -/
theorem Thread.Armed.step {P : Platform} (hP : P.Documented) {t t' : Thread}
    (harmed : t.Armed) {a : Action} (h : t.step P a = some t') : t'.Armed := by
  refine Thread.EachPending.step harmed ?_ ?_ h
  · rintro face state ⟨p, hold⟩
    exact ⟨p, hold.setState state⟩
  · rintro i face face' queue calls ⟨p, hold⟩ hrecv
    rcases ndnNetfaceReceive_holds hP hold hrecv with ⟨rfl, _⟩ | ⟨_, _, _, hold', _⟩
    · exact ⟨p, hold⟩
    · exact ⟨_, hold'⟩

/-- The startup arms the netfaces it builds. -/
theorem armed_ndnLiteStartup {P : Platform} (hP : P.Documented) {netifs : List NetifInfo}
    {t : Thread} (hroom : netifs.length ≤ t.netfaceTable.length) (hfresh : t.events = []) :
    (ndnLiteStartup P netifs t).Armed :=
  (idle_ndnLiteStartup hP hroom hfresh).imp fun _ hidle => ⟨.idle, hidle⟩

/-- Construction of the UDP face keeps the thread armed. -/
theorem Thread.Armed.ndnUdpFaceConstruct {P : Platform} {t : Thread} (harmed : t.Armed)
    (localPort : UInt16) (remoteAddr : BitVec 128) (remotePort : UInt16)
    (registeredAs : Option Nat) :
    (ndnUdpFaceConstruct P localPort remoteAddr remotePort registeredAs t).2.Armed := by
  cases registeredAs with
  | none => exact harmed
  | some id =>
      unfold NdnRiot.ndnUdpFaceConstruct ndnFaceUp
      dsimp only
      split
      · intro k hk
        refine harmed k ?_
        simpa [ndnUdpFaceUp, Thread.ndnMsgqueuePost, Thread.gnrcNetregRegister,
          Thread.msgInitQueue] using hk
      · exact harmed

end NdnRiot
