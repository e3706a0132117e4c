import NdnRiot.Logic.Nightlight

/-!
# The light and the commands of the hub

The hub sends a command id of one byte in four of its five places, and the motion
value in the fifth. The light reads four bytes and sets itself to the opposite of
what it reads. `lightAgrees_iff`: the two agree in a run exactly when no event
leads to a content of one byte and no motion value is 111.
-/

namespace NdnRiot

/-- After an event the light is what the hub commanded, and is on exactly when the
hub takes it to be. -/
def Home.LightAgrees (home' : Home) : Prop :=
  ∃ light, home'.light = .ok light ∧
    (∀ c ∈ home'.hub.published, light.lastSwitch = c.commandId.toUInt32) ∧
    (light.lastSwitch = 111 ↔ home'.hub.state.lastStatus = 1)

/-- What an event must meet, with the light on: it leads to no command, but for an
active motion reading other than 111. -/
def Home.LightGuard (delayMinutes : UInt32) (home : Home) (e : HubEvent) : Prop :=
  match e.reading with
  | .motion value =>
      if 50 < value then value ≠ 111
      else ¬ (delayMinutes = 0 ∧ e.now ≠ 0 ∧ e.now < e.later)
  | .illuminance value =>
      value ≤ 50 ∧ ¬ (home.hub.state.motionStopTime ≠ 0 ∧
        delayMs delayMinutes < e.now - home.hub.state.motionStopTime)

/-- The hub takes the light to be on, and it is. -/
def Home.Lit (home : Home) : Prop :=
  home.hub.state.lastStatus = 1 ∧ ∃ light, home.light = .ok light ∧ light.lastSwitch = 111

theorem Home.lit_initial : Home.initial.Lit := ⟨rfl, .initial, rfl, rfl⟩

/-! ## Deliveries -/

/-- A content of one byte is read behind its end. -/
theorem deliver_publishId (commandId : UInt8) (light : LightState) :
    deliver (.ok light) [publishId commandId] = .error (.readBeyond 1 1) := rfl

/-- The light is set to the opposite of the content. -/
theorem deliver_value (value : UInt32) (light : LightState) :
    deliver (.ok light) [⟨111, uint32Bytes value⟩] =
      .ok { light with lastSwitch := if value = 111 then 112 else 111 } := by
  show (do return (← onSwitichCommand (uint32Bytes value) light).1 : Except Fault LightState) = _
  unfold onSwitichCommand
  rw [readUint32_bind]
  rfl

section Step

variable {delayMinutes : UInt32} {home home' : Home} {e : HubEvent}

/-- One event at the hub and at the light. -/
theorem Home.step_cases (h : home.step delayMinutes e = some home') :
    ∃ status commands,
      home'.hub = ⟨⟨status, home.hub.state.stopTime e⟩, e.later,
        home.hub.history ++ [⟨e, commands⟩]⟩ ∧
      home'.light = deliver home.light commands ∧
      home.hub.state.Outcome delayMinutes e status commands := by
  obtain ⟨hub', hstep, rfl⟩ := Option.map_eq_some_iff.mp h
  obtain ⟨_, _, status, commands, rfl, hout⟩ := Hub.step_cases hstep
  exact ⟨status, commands, rfl, by rw [Hub.published_append], hout⟩

/-- With the light on, the guard leaves two kinds of events: those that lead to no
command, and motion values other than 111. -/
theorem Home.lightGuard_iff (hlit : home.hub.state.lastStatus = 1) :
    home.LightGuard delayMinutes e ↔
      ¬ home.hub.state.SwitchesOff delayMinutes e ∧
        (home.hub.state.SwitchesOn e → ∃ value, e.reading = .motion value ∧ value ≠ 111) := by
  have hne : (1 : UInt8) ≠ 0 := by decide
  unfold Home.LightGuard HubState.SwitchesOff HubState.SwitchesOn
  cases hreading : e.reading with
  | motion value =>
      by_cases hactive : 50 < value
      · simp [hlit, hactive, UInt32.not_le.mpr hactive]
      · simp [hlit, hactive, UInt32.not_lt.mp hactive]
  | illuminance value =>
      simp [hlit, not_or, UInt32.not_lt]

/-- One event keeps the agreement exactly when it meets the guard. -/
theorem Home.lightAgrees_step (hlit : home.Lit) (h : home.step delayMinutes e = some home') :
    home'.LightAgrees ↔ home.LightGuard delayMinutes e := by
  obtain ⟨status, commands, hhub, hlight, hout⟩ := Home.step_cases h
  obtain ⟨hstatus, light, hbefore, hswitch⟩ := hlit
  rw [Home.lightGuard_iff hstatus]
  unfold Home.LightAgrees
  rw [hhub, hlight, hbefore, Hub.published_append]
  cases hout with
  | off hoff =>
      refine iff_of_false ?_ fun hguard => hguard.1 hoff
      rintro ⟨light', hlight', -, -⟩
      rw [deliver_publishId] at hlight'
      cases hlight'
  | on hon =>
      cases hreading : e.reading with
      | motion value =>
          simp only [HubState.switchOn, deliver_value, Except.ok.injEq]
          constructor
          · rintro ⟨light', rfl, hcommand, -⟩
            refine ⟨hon.not_off, fun _ => ⟨value, rfl, ?_⟩⟩
            rintro rfl
            exact absurd (hcommand _ List.mem_cons_self) (by simp)
          · rintro ⟨-, hvalue⟩
            obtain ⟨value', hvalue', hne⟩ := hvalue hon
            cases hvalue'
            exact ⟨_, rfl, by simp [hne], by simp [hne]⟩
      | illuminance value =>
          refine iff_of_false ?_ ?_
          · rintro ⟨light', hlight', -, -⟩
            rw [HubState.switchOn, deliver_publishId] at hlight'
            cases hlight'
          · rintro ⟨-, hvalue⟩
            obtain ⟨value', hvalue', -⟩ := hvalue hon
            cases hvalue'
  | none hoff hon =>
      refine iff_of_true ⟨light, rfl, by simp, ?_⟩ ⟨hoff, fun h => absurd h hon⟩
      exact iff_of_true hswitch hstatus

/-- An event that meets the guard leaves the light on. -/
theorem Home.Lit.step (hlit : home.Lit) (h : home.step delayMinutes e = some home')
    (hguard : home.LightGuard delayMinutes e) : home'.Lit := by
  obtain ⟨light, hlight, -, hiff⟩ := (Home.lightAgrees_step hlit h).mpr hguard
  have hstatus : home'.hub.state.lastStatus = 1 := by
    obtain ⟨status, commands, hhub, -, hout⟩ := Home.step_cases h
    rw [hhub]
    cases hout with
    | off hoff => exact absurd hoff ((Home.lightGuard_iff hlit.1).mp hguard).1
    | on _ => rfl
    | none _ _ => exact hlit.1
  exact ⟨hstatus, light, hlight, hiff.mpr hstatus⟩

end Step

/-- **Agreement.** The runs in which the light agrees with the hub are those all of
whose events meet the guard. -/
theorem lightAgrees_iff (delayMinutes : UInt32) (events : List HubEvent) :
    Runs.Every (Home.step delayMinutes) (fun _ _ home' => home'.LightAgrees)
        Home.initial events ↔
      Runs.Every (Home.step delayMinutes) (fun home e _ => home.LightGuard delayMinutes e)
        Home.initial events := by
  refine Runs.every_congr (I := Home.Lit) ?_ ?_ Home.lit_initial
  · intro home e home' hlit h
    exact Home.lightAgrees_step hlit h
  · intro home e home' hlit h hguard
    exact hlit.step h hguard

/-- It becomes light: the light reads three bytes behind the switch-off. -/
theorem lightAgrees_overread :
    ¬ Runs.Every (Home.step 0) (fun _ _ home' => home'.LightAgrees) Home.initial
      [⟨.illuminance 100, 1, 1⟩] := by
  intro hrule
  have hhub : Hub.step 0 Hub.initial ⟨.illuminance 100, 1, 1⟩ = some
      ⟨⟨0, 0⟩, 1, [⟨⟨.illuminance 100, 1, 1⟩, [⟨112, [112]⟩]⟩]⟩ := by decide
  have hstep : Home.step 0 Home.initial ⟨.illuminance 100, 1, 1⟩ = some
      ⟨⟨⟨0, 0⟩, 1, [⟨⟨.illuminance 100, 1, 1⟩, [⟨112, [112]⟩]⟩]⟩, .error (.readBeyond 1 1)⟩ :=
    congrArg _ hhub
  obtain ⟨light, hlight, -, -⟩ := (hrule _ hstep).1
  cases hlight

end NdnRiot
