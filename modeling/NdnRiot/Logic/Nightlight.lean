import NdnRiot.Model.Nightlight

/-!
# What the hub makes of a reading

The two handlers publish in five places. `HubState.SwitchesOff` and
`HubState.SwitchesOn` say when, as conditions on the state and the event;
`Hub.step_cases` is the step of the hub in these terms, and the only lemma that
looks into the handlers. `Hub.Mirrors` relates the status to the commands
published so far.
-/

namespace NdnRiot

namespace HubState

variable (delayMinutes : UInt32) (state : HubState) (e : HubEvent)

/-- The event makes the hub publish a switch-off. -/
def SwitchesOff : Prop :=
  state.lastStatus ≠ 0 ∧
    match e.reading with
    | .motion value => value ≤ 50 ∧ delayMinutes = 0 ∧ e.now ≠ 0 ∧ e.now < e.later
    | .illuminance value =>
        50 < value ∨
          state.motionStopTime ≠ 0 ∧ delayMs delayMinutes < e.now - state.motionStopTime

/-- The event makes the hub publish a switch-on. -/
def SwitchesOn : Prop :=
  match e.reading with
  | .motion value => 50 < value
  | .illuminance value =>
      state.lastStatus ≠ 1 ∧ state.motionStopTime = 0 ∧ value < 30

/-- The stop time after the event. -/
def stopTime : UInt64 :=
  match e.reading with
  | .motion value => if 50 < value then 0 else e.now
  | .illuminance _ => state.motionStopTime

/-- The switch-on a reading leads to. -/
def switchOn (reading : Reading) : LedCommand :=
  match reading with
  | .motion value => ⟨111, uint32Bytes value⟩
  | .illuminance _ => publishId 111

@[simp] theorem switchOn_commandId (reading : Reading) : (switchOn reading).commandId = 111 := by
  cases reading <;> rfl

/-- The status after the event, and the commands published. -/
inductive Outcome : UInt8 → List LedCommand → Prop
  | off (h : state.SwitchesOff delayMinutes e) : Outcome 0 [publishId 112]
  | on (h : state.SwitchesOn e) : Outcome 1 [switchOn e.reading]
  | none (hoff : ¬ state.SwitchesOff delayMinutes e) (hon : ¬ state.SwitchesOn e) :
      Outcome state.lastStatus []

variable {delayMinutes state e}

/-- No event does both. -/
theorem SwitchesOn.not_off (hon : state.SwitchesOn e) : ¬ state.SwitchesOff delayMinutes e := by
  rintro ⟨_, hcase⟩
  unfold SwitchesOn at hon
  cases hreading : e.reading with
  | motion value =>
      simp only [hreading] at hcase hon
      exact absurd hon (UInt32.not_lt.mpr hcase.1)
  | illuminance value =>
      simp only [hreading] at hcase hon
      rcases hcase with hbright | ⟨hset, _⟩
      · have := UInt32.lt_trans hon.2.2 (UInt32.lt_trans (by decide) hbright)
        exact absurd this (UInt32.lt_irrefl value)
      · exact hset hon.2.1

/-- A switch-on is published exactly when the event switches on. -/
theorem Outcome.published_on_iff {status : UInt8} {commands : List LedCommand}
    (hout : state.Outcome delayMinutes e status commands) :
    (∃ c ∈ commands, c.commandId = 111) ↔ state.SwitchesOn e := by
  cases hout with
  | off hoff => exact iff_of_false (by decide) fun hon => hon.not_off hoff
  | on hon =>
      exact iff_of_true ⟨_, List.mem_singleton.mpr rfl, switchOn_commandId e.reading⟩ hon
  | none _ hno => exact iff_of_false (by simp) hno

end HubState

/-- With no delay the light goes off as soon as the clock has moved on. -/
theorem delayMs_zero_lt_iff {now later : UInt64} (h : now ≤ later) :
    delayMs 0 < later - now ↔ now < later := by
  have hzero : (delayMs 0).toNat = 0 := by simp [delayMs]
  rw [UInt64.lt_iff_toNat_lt, UInt64.lt_iff_toNat_lt, UInt64.toNat_sub_of_le _ _ h, hzero]
  exact Nat.sub_pos_iff_lt

section Handlers

variable (delayMinutes : UInt32) (state : HubState) {e : HubEvent}

/-- `on_motion_publish`. -/
theorem onMotionPublish_spec {value : UInt32} (hreading : e.reading = .motion value)
    (htime : e.now ≤ e.later) :
    ∃ status commands,
      onMotionPublish delayMinutes (uint32Bytes value) e.now e.later state =
        .ok (⟨status, state.stopTime e⟩, commands) ∧
      state.Outcome delayMinutes e status commands := by
  unfold onMotionPublish
  rw [readUint32_bind]
  simp only [HubState.stopTime, hreading, gt_iff_lt]
  by_cases hactive : 50 < value
  · have hon : state.SwitchesOn e := by
      simp only [HubState.SwitchesOn, hreading]
      exact hactive
    refine ⟨1, _, ?_, .on hon⟩
    simp only [if_pos hactive, HubState.switchOn, hreading]
    rfl
  · have hon : ¬ state.SwitchesOn e := by
      simp only [HubState.SwitchesOn, hreading]
      exact hactive
    have hoff : state.SwitchesOff delayMinutes e ↔
        state.lastStatus ≠ 0 ∧ delayMinutes = 0 ∧ e.now ≠ 0 ∧ e.now < e.later := by
      simp only [HubState.SwitchesOff, hreading, UInt32.not_lt.mp hactive, true_and]
    simp only [if_neg hactive]
    by_cases hdelay : delayMinutes = 0
    · subst hdelay
      rw [if_neg (not_not_intro rfl)]
      unfold turnOffMotion
      by_cases hlit : e.now ≠ 0 ∧ state.lastStatus ≠ 0
      · rw [if_pos hlit]
        simp only [gt_iff_lt, delayMs_zero_lt_iff htime]
        by_cases hmoved : e.now < e.later
        · rw [if_pos hmoved]
          exact ⟨0, _, rfl, .off (hoff.mpr ⟨hlit.2, rfl, hlit.1, hmoved⟩)⟩
        · rw [if_neg hmoved]
          exact ⟨_, _, rfl, .none (fun h => hmoved (hoff.mp h).2.2.2) hon⟩
      · rw [if_neg hlit]
        exact ⟨_, _, rfl, .none (fun h => hlit ⟨(hoff.mp h).2.2.1, (hoff.mp h).1⟩) hon⟩
    · rw [if_pos hdelay]
      exact ⟨_, _, rfl, .none (fun h => hdelay (hoff.mp h).2.1) hon⟩

/-- `on_illuminance_publish`. -/
theorem onIlluminancePublish_spec {value : UInt32} (hreading : e.reading = .illuminance value) :
    ∃ status commands,
      onIlluminancePublish delayMinutes (uint32Bytes value) e.now state =
        .ok (⟨status, state.stopTime e⟩, commands) ∧
      state.Outcome delayMinutes e status commands := by
  have hoff : state.SwitchesOff delayMinutes e ↔ state.lastStatus ≠ 0 ∧ (50 < value ∨
      state.motionStopTime ≠ 0 ∧ delayMs delayMinutes < e.now - state.motionStopTime) := by
    simp only [HubState.SwitchesOff, hreading]
  have hon : state.SwitchesOn e ↔
      state.lastStatus ≠ 1 ∧ state.motionStopTime = 0 ∧ value < 30 := by
    simp only [HubState.SwitchesOn, hreading]
  unfold onIlluminancePublish
  rw [readUint32_bind]
  simp only [HubState.stopTime, hreading, gt_iff_lt]
  by_cases hlight : state.lastStatus ≠ 0 ∧ 50 < value
  · rw [if_pos hlight]
    exact ⟨0, _, rfl, .off (hoff.mpr ⟨hlight.1, .inl hlight.2⟩)⟩
  rw [if_neg hlight]
  by_cases hstop : state.motionStopTime ≠ 0
  · have hno : ¬ state.SwitchesOn e := fun h => hstop (hon.mp h).2.1
    rw [if_pos hstop]
    by_cases hlit : state.lastStatus ≠ 0
    · rw [if_pos hlit]
      by_cases helapsed : delayMs delayMinutes < e.now - state.motionStopTime
      · rw [if_pos helapsed]
        exact ⟨0, _, rfl, .off (hoff.mpr ⟨hlit, .inr ⟨hstop, helapsed⟩⟩)⟩
      · rw [if_neg helapsed]
        refine ⟨_, _, rfl, .none ?_ hno⟩
        intro h
        rcases (hoff.mp h).2 with hbright | ⟨_, hlong⟩
        · exact hlight ⟨hlit, hbright⟩
        · exact helapsed hlong
    · rw [if_neg hlit]
      exact ⟨_, _, rfl, .none (fun h => hlit (hoff.mp h).1) hno⟩
  · have hno : ¬ state.SwitchesOff delayMinutes e := by
      intro h
      rcases (hoff.mp h).2 with hbright | ⟨hset, _⟩
      · exact hlight ⟨(hoff.mp h).1, hbright⟩
      · exact hstop hset
    rw [if_neg hstop]
    by_cases hdark : state.lastStatus ≠ 1 ∧ value < 30
    · have hyes := hon.mpr ⟨hdark.1, not_not.mp hstop, hdark.2⟩
      rw [if_pos hdark]
      refine ⟨1, _, ?_, .on hyes⟩
      simp only [HubState.switchOn, hreading]
      rfl
    · rw [if_neg hdark]
      exact ⟨_, _, rfl, .none hno fun h => hdark ⟨(hon.mp h).1, (hon.mp h).2.2⟩⟩

/-- **Handlers.** A reading is always handled. -/
theorem HubState.handle_spec (htime : e.now ≤ e.later) :
    ∃ status commands,
      state.handle delayMinutes e = .ok (⟨status, state.stopTime e⟩, commands) ∧
        state.Outcome delayMinutes e status commands := by
  unfold HubState.handle
  split
  next value hreading => exact onMotionPublish_spec delayMinutes state hreading htime
  next value hreading => exact onIlluminancePublish_spec delayMinutes state hreading

end Handlers

/-! ## The step of the hub -/

variable {delayMinutes : UInt32}

/-- **Steps.** What one event does. -/
theorem Hub.step_cases {hub hub' : Hub} {e : HubEvent}
    (h : hub.step delayMinutes e = some hub') :
    hub.clock ≤ e.now ∧ e.now ≤ e.later ∧ ∃ status commands,
      hub' = ⟨⟨status, hub.state.stopTime e⟩, e.later, hub.history ++ [⟨e, commands⟩]⟩ ∧
        hub.state.Outcome delayMinutes e status commands := by
  unfold Hub.step at h
  split at h
  next htime =>
    obtain ⟨status, commands, hrun, hout⟩ := hub.state.handle_spec delayMinutes htime.2
    rw [hrun] at h
    cases h
    exact ⟨htime.1, htime.2, status, commands, rfl, hout⟩
  next => simp at h

/-- Events that are not in the past are handled. -/
theorem Hub.step_isSome (delayMinutes : UInt32) {hub : Hub} {e : HubEvent} (hclock : hub.clock ≤ e.now)
    (htime : e.now ≤ e.later) :
    ∃ hub', hub.step delayMinutes e = some hub' ∧ hub'.clock = e.later := by
  obtain ⟨status, commands, hrun, _⟩ := hub.state.handle_spec delayMinutes htime
  unfold Hub.step
  rw [if_pos ⟨hclock, htime⟩, hrun]
  exact ⟨_, rfl, rfl⟩

/-- The clock readings of the events do not go back. -/
def Timed : UInt64 → List HubEvent → Prop
  | _, [] => True
  | clock, e :: rest => clock ≤ e.now ∧ e.now ≤ e.later ∧ Timed e.later rest

/-- Such events are handled, all of them. -/
theorem Hub.run_isSome {events : List HubEvent} :
    ∀ {hub : Hub}, Timed hub.clock events →
      ∃ hub', Runs.run (Hub.step delayMinutes) hub events = some hub' := by
  induction events with
  | nil => intro hub _; exact ⟨hub, rfl⟩
  | cons e rest ih =>
      rintro hub ⟨hclock, htime, hrest⟩
      obtain ⟨hub₁, hstep, hclock₁⟩ := Hub.step_isSome delayMinutes hclock htime
      rw [← hclock₁] at hrest
      obtain ⟨hub', hrun⟩ := ih hrest
      exact ⟨hub', (Runs.run_cons_eq_some _).mpr ⟨hub₁, hstep, hrun⟩⟩

@[simp] theorem Hub.published_append (state : HubState) (clock : UInt64)
    (history : List Handled) (e : HubEvent) (commands : List LedCommand) :
    Hub.published ⟨state, clock, history ++ [⟨e, commands⟩]⟩ = commands := by
  simp [Hub.published]

/-! ## The status and the last command -/

/-- The id of the last command published. -/
def lastCommand (history : List Handled) : Option UInt8 :=
  (history.flatMap (·.commands)).getLast?.map (·.commandId)

@[simp] theorem lastCommand_quiet (history : List Handled) (e : HubEvent) :
    lastCommand (history ++ [⟨e, []⟩]) = lastCommand history := by
  simp [lastCommand]

@[simp] theorem lastCommand_publish (history : List Handled) (e : HubEvent) (c : LedCommand) :
    lastCommand (history ++ [⟨e, [c]⟩]) = some c.commandId := by
  simp [lastCommand]

/-- The status is the one the last command asks for. -/
def Hub.Mirrors (hub : Hub) : Prop :=
  hub.state.lastStatus = 1 ∧ (lastCommand hub.history = none ∨ lastCommand hub.history = some 111) ∨
    hub.state.lastStatus = 0 ∧ lastCommand hub.history = some 112

theorem Hub.mirrors_initial : Hub.initial.Mirrors := .inl ⟨rfl, .inl rfl⟩

/-- One event keeps the status and the last command together. -/
theorem Hub.Mirrors.step {hub hub' : Hub} {e : HubEvent} (hmirrors : hub.Mirrors)
    (h : hub.step delayMinutes e = some hub') : hub'.Mirrors := by
  obtain ⟨_, _, status, commands, rfl, hout⟩ := Hub.step_cases h
  cases hout with
  | off _ => exact .inr ⟨rfl, lastCommand_publish _ _ _⟩
  | on _ =>
      refine .inl ⟨rfl, .inr ?_⟩
      rw [lastCommand_publish, HubState.switchOn_commandId]
  | none _ _ =>
      unfold Hub.Mirrors
      rw [lastCommand_quiet]
      exact hmirrors

theorem Hub.Mirrors.status {hub : Hub} (h : hub.Mirrors) :
    hub.state.lastStatus = 0 ∨ hub.state.lastStatus = 1 := by
  rcases h with ⟨h, _⟩ | ⟨h, _⟩
  · exact .inr h
  · exact .inl h

end NdnRiot
