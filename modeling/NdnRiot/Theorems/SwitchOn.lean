import NdnRiot.Logic.Nightlight

/-!
# The switch-on rule of the nightlight

The light is to go on only when it is dark and motion is detected. The motion
handler does not look at the illuminance, and the illuminance handler takes a
stop time of 0 for motion, which it also is before the first motion reading.
`switchOn_iff` says which events break the rule for that.
-/

namespace NdnRiot

/-! ## The latest readings -/

def Reading.motion? : Reading → Option UInt32
  | .motion value => some value
  | .illuminance _ => none

def Reading.illuminance? : Reading → Option UInt32
  | .illuminance value => some value
  | .motion _ => none

/-- The latest motion reading. -/
def latestMotion (history : List Handled) : Option UInt32 :=
  (history.filterMap (·.event.reading.motion?)).getLast?

/-- The latest illuminance reading. -/
def latestIlluminance (history : List Handled) : Option UInt32 :=
  (history.filterMap (·.event.reading.illuminance?)).getLast?

section Latest

variable (history : List Handled) {e : HubEvent} (commands : List LedCommand) {value : UInt32}

theorem latest_motion (h : e.reading = .motion value) :
    latestMotion (history ++ [⟨e, commands⟩]) = some value ∧
      latestIlluminance (history ++ [⟨e, commands⟩]) = latestIlluminance history := by
  constructor
  · simp [latestMotion, List.filterMap_append, h, Reading.motion?]
  · simp [latestIlluminance, List.filterMap_append, h, Reading.illuminance?]

theorem latest_illuminance (h : e.reading = .illuminance value) :
    latestMotion (history ++ [⟨e, commands⟩]) = latestMotion history ∧
      latestIlluminance (history ++ [⟨e, commands⟩]) = some value := by
  constructor
  · simp [latestMotion, List.filterMap_append, h, Reading.motion?]
  · simp [latestIlluminance, List.filterMap_append, h, Reading.illuminance?]

end Latest

/-! ## The rule and its guard -/

/-- It is dark and motion is detected, by readings that were received. -/
def DarkAndMotion (history : List Handled) : Prop :=
  (∃ motion, latestMotion history = some motion ∧ 50 < motion) ∧
    ∃ illuminance, latestIlluminance history = some illuminance ∧ illuminance < 30

/-- The rule: a switch-on is published only where it is dark and motion is
detected. -/
def Hub.SwitchOnRule (hub' : Hub) : Prop :=
  ∀ c ∈ hub'.published, c.commandId = 111 → DarkAndMotion hub'.history

/-- What an event must meet. An active motion reading comes when it is dark; a dark
illuminance reading that finds the light off comes when motion is active or a stop
time is set. -/
def Hub.OnGuard (hub : Hub) (e : HubEvent) : Prop :=
  match e.reading with
  | .motion value => 50 < value →
      ∃ illuminance, latestIlluminance hub.history = some illuminance ∧ illuminance < 30
  | .illuminance value => value < 30 → hub.state.lastStatus = 0 →
      hub.state.motionStopTime ≠ 0 ∨
        ∃ motion, latestMotion hub.history = some motion ∧ 50 < motion

/-- One event keeps the rule exactly when it meets the guard. -/
theorem Hub.switchOn_agree {delayMinutes : UInt32} {hub hub' : Hub} {e : HubEvent}
    (hmirrors : hub.Mirrors) (h : hub.step delayMinutes e = some hub') :
    hub'.SwitchOnRule ↔ hub.OnGuard e := by
  obtain ⟨_, _, status, commands, rfl, hout⟩ := Hub.step_cases h
  have hrule : Hub.SwitchOnRule ⟨⟨status, hub.state.stopTime e⟩, e.later,
      hub.history ++ [⟨e, commands⟩]⟩ ↔
        (hub.state.SwitchesOn e → DarkAndMotion (hub.history ++ [⟨e, commands⟩])) := by
    rw [← hout.published_on_iff]
    simp only [Hub.SwitchOnRule, Hub.published_append]
    constructor
    · rintro hall ⟨c, hc, hid⟩
      exact hall c hc hid
    · intro hall c hc hid
      exact hall ⟨c, hc, hid⟩
  rw [hrule]
  unfold Hub.OnGuard
  cases hreading : e.reading with
  | motion value =>
      obtain ⟨hmotion, hilluminance⟩ := latest_motion hub.history commands hreading
      simp only [HubState.SwitchesOn, hreading, DarkAndMotion, hmotion, hilluminance]
      constructor
      · intro hall hactive
        exact (hall hactive).2
      · intro hall hactive
        exact ⟨⟨value, rfl, hactive⟩, hall hactive⟩
  | illuminance value =>
      obtain ⟨hmotion, hilluminance⟩ := latest_illuminance hub.history commands hreading
      have hdark : hub.state.lastStatus ≠ 1 ↔ hub.state.lastStatus = 0 := by
        rcases hmirrors.status with hstatus | hstatus <;> rw [hstatus] <;> decide
      simp only [HubState.SwitchesOn, hreading, DarkAndMotion, hmotion, hilluminance, hdark]
      constructor
      · intro hall hvalue hoff
        by_cases hstop : hub.state.motionStopTime = 0
        · exact .inr (hall ⟨hoff, hstop, hvalue⟩).1
        · exact .inl hstop
      · rintro hall ⟨hoff, hstop, hvalue⟩
        rcases hall hvalue hoff with hset | hactive
        · exact absurd hstop hset
        · exact ⟨hactive, value, rfl, hvalue⟩

/-- **Switch-on.** The runs that keep the rule are those all of whose events meet the
guard. -/
theorem switchOn_iff (delayMinutes : UInt32) (events : List HubEvent) :
    Runs.Every (Hub.step delayMinutes) (fun _ _ hub' => hub'.SwitchOnRule) Hub.initial events ↔
      Runs.Every (Hub.step delayMinutes) (fun hub e _ => hub.OnGuard e) Hub.initial events := by
  refine Runs.every_congr (I := Hub.Mirrors) ?_ ?_ Hub.mirrors_initial
  · intro hub e hub' hmirrors h
    exact Hub.switchOn_agree hmirrors h
  · intro hub e hub' hmirrors h _
    exact hmirrors.step h

/-- Motion in broad daylight: the light goes on. -/
theorem switchOn_daylight :
    ¬ Runs.Every (Hub.step 0) (fun _ _ hub' => hub'.SwitchOnRule) Hub.initial
      [⟨.illuminance 100, 1, 1⟩, ⟨.motion 60, 2, 2⟩] := by
  intro hrule
  have hstep₁ : Hub.step 0 Hub.initial ⟨.illuminance 100, 1, 1⟩ = some
      ⟨⟨0, 0⟩, 1, [⟨⟨.illuminance 100, 1, 1⟩, [⟨112, [112]⟩]⟩]⟩ := by decide
  have hstep₂ : Hub.step 0 ⟨⟨0, 0⟩, 1, [⟨⟨.illuminance 100, 1, 1⟩, [⟨112, [112]⟩]⟩]⟩
      ⟨.motion 60, 2, 2⟩ = some
        ⟨⟨1, 0⟩, 2, [⟨⟨.illuminance 100, 1, 1⟩, [⟨112, [112]⟩]⟩,
          ⟨⟨.motion 60, 2, 2⟩, [⟨111, [60, 0, 0, 0]⟩]⟩]⟩ := by
    decide
  obtain ⟨_, illuminance, hlatest, hdark⟩ :=
    ((hrule _ hstep₁).2 _ hstep₂).1 ⟨111, [60, 0, 0, 0]⟩ (by decide) rfl
  have hbright : illuminance = 100 := by
    simpa [latestIlluminance, Reading.illuminance?] using hlatest.symm
  rw [hbright] at hdark
  exact absurd hdark (by decide)

end NdnRiot
