import NdnRiot.Logic.Nightlight

/-!
# The switch-off rule of the nightlight

The light goes off when motion has been inactive for the delay, counted from the
first inactive reading. The hub keeps the time of the last inactive reading
instead, compares with `>`, takes 0 for no time, and with a delay looks at the
time only when the illuminance is read. `switchOff_iff` says which events break
the rule for that; what the rule says about the switch-off commands always holds.
-/

namespace NdnRiot

/-! ## Since when motion is inactive -/

/-- The first reading of an uninterrupted row of inactive motion readings, before
and after a reading at `now`. -/
def Reading.inactiveSince (now : UInt64) (since : Option UInt64) : Reading → Option UInt64
  | .motion value => if 50 < value then none else some (since.getD now)
  | .illuminance _ => since

/-- The time of the first inactive reading after the last active one. -/
def inactiveSince (history : List Handled) : Option UInt64 :=
  history.foldl (fun since h => h.event.reading.inactiveSince h.event.now since) none

@[simp] theorem inactiveSince_nil : inactiveSince [] = none := rfl

@[simp] theorem inactiveSince_append (history : List Handled) (e : HubEvent)
    (commands : List LedCommand) :
    inactiveSince (history ++ [⟨e, commands⟩]) =
      e.reading.inactiveSince e.now (inactiveSince history) := by
  simp [inactiveSince, List.foldl_append]

/-! ## The rule and its guard -/

/-- With this event, motion has been inactive for the delay. -/
def Hub.OffDue (delayMinutes : UInt32) (hub : Hub) (e : HubEvent) : Prop :=
  ∃ since, e.reading.inactiveSince e.now (inactiveSince hub.history) = some since ∧
    since.toNat + delayMinutes.toNat * 60000 ≤ e.now.toNat

/-- The rule: a light that is due is off after the event, and the hub switches it
off only then or when the event says that it is light. -/
structure Hub.SwitchOffRule (delayMinutes : UInt32) (hub : Hub) (e : HubEvent) (hub' : Hub) :
    Prop where
  off : hub.OffDue delayMinutes e → hub'.state.lastStatus = 0
  published : ∀ c ∈ hub'.published, c.commandId = 112 →
    hub.OffDue delayMinutes e ∨ ∃ value, e.reading = .illuminance value ∧ 50 < value

/-- What an event that is due must meet. A motion reading finds the light off, or
there is no delay and the clock, which is past 0, moves on while it is handled. An
illuminance reading that finds the light on is bright, or comes later than the
delay after the last inactive reading; one that finds it off is not dark, unless
the stop time is set. -/
def Hub.OffGuard (delayMinutes : UInt32) (hub : Hub) (e : HubEvent) : Prop :=
  hub.OffDue delayMinutes e →
    match e.reading with
    | .motion _ => hub.state.lastStatus = 0 ∨
        delayMinutes = 0 ∧ e.now ≠ 0 ∧ e.now < e.later
    | .illuminance value =>
        if hub.state.lastStatus = 0 then hub.state.motionStopTime ≠ 0 ∨ 30 ≤ value
        else 50 < value ∨ hub.state.motionStopTime ≠ 0 ∧
          delayMs delayMinutes < e.now - hub.state.motionStopTime

/-! ## The stop time -/

/-- The stop time is that of a reading since motion is inactive, and not set while
it is active. -/
structure Hub.StopKept (hub : Hub) : Prop where
  active : inactiveSince hub.history = none → hub.state.motionStopTime = 0
  inactive : ∀ since, inactiveSince hub.history = some since →
    since ≤ hub.state.motionStopTime ∧ hub.state.motionStopTime ≤ hub.clock

theorem Hub.stopKept_initial : Hub.initial.StopKept where
  active _ := rfl
  inactive since h := by simp [Hub.initial] at h

section Step

variable {delayMinutes : UInt32} {hub hub' : Hub} {e : HubEvent}

theorem Hub.StopKept.step (hkept : hub.StopKept) (h : hub.step delayMinutes e = some hub') :
    hub'.StopKept := by
  obtain ⟨hclock, htime, status, commands, rfl, _⟩ := Hub.step_cases h
  cases hreading : e.reading with
  | motion value =>
      by_cases hactive : 50 < value
      · exact ⟨fun _ => by simp [HubState.stopTime, hreading, hactive],
          fun since hsince => by simp [Reading.inactiveSince, hreading, hactive] at hsince⟩
      · refine ⟨fun hnone => by simp [Reading.inactiveSince, hreading, hactive] at hnone, ?_⟩
        intro since hsince
        have hstop : hub.state.stopTime e = e.now := by
          simp [HubState.stopTime, hreading, hactive]
        have hsince : (inactiveSince hub.history).getD e.now = since := by
          simpa [Reading.inactiveSince, hreading, hactive] using hsince
        show since ≤ hub.state.stopTime e ∧ hub.state.stopTime e ≤ e.later
        rw [hstop]
        refine ⟨?_, htime⟩
        cases hbefore : inactiveSince hub.history with
        | none =>
            rw [hbefore] at hsince
            rw [← hsince]
            exact UInt64.le_refl _
        | some first =>
            rw [hbefore] at hsince
            obtain ⟨hle, hstopped⟩ := hkept.inactive first hbefore
            rw [← hsince]
            exact UInt64.le_trans hle (UInt64.le_trans hstopped hclock)
  | illuminance value =>
      have hsame : e.reading.inactiveSince e.now (inactiveSince hub.history) =
          inactiveSince hub.history := by rw [hreading]; rfl
      have hstop : hub.state.stopTime e = hub.state.motionStopTime := by
        simp [HubState.stopTime, hreading]
      constructor
      · intro hnone
        rw [inactiveSince_append, hsame] at hnone
        exact hstop.trans (hkept.active hnone)
      · intro since hsince
        rw [inactiveSince_append, hsame] at hsince
        obtain ⟨hle, hstopped⟩ := hkept.inactive since hsince
        show since ≤ hub.state.stopTime e ∧ hub.state.stopTime e ≤ e.later
        rw [hstop]
        exact ⟨hle, UInt64.le_trans hstopped (UInt64.le_trans hclock htime)⟩

/-! ## One event -/

theorem toNat_delayMs (delayMinutes : UInt32) :
    (delayMs delayMinutes).toNat = delayMinutes.toNat * 60000 := by
  have hlt := delayMinutes.toNat_lt
  simp only [delayMs, UInt64.toNat_mul, UInt32.toNat_toUInt64]
  show delayMinutes.toNat * 60000 % _ = _
  omega

/-- The hub switches off only what is due, or when it is light. -/
theorem Hub.StopKept.due_of_switchesOff (hkept : hub.StopKept) (hclock : hub.clock ≤ e.now)
    (h : hub.state.SwitchesOff delayMinutes e) :
    hub.OffDue delayMinutes e ∨ ∃ value, e.reading = .illuminance value ∧ 50 < value := by
  obtain ⟨_, hcase⟩ := h
  cases hreading : e.reading with
  | motion value =>
      simp only [hreading] at hcase
      obtain ⟨hinactive, rfl, _, _⟩ := hcase
      -- with no delay any inactive reading is due
      refine .inl ⟨(inactiveSince hub.history).getD e.now, ?_, ?_⟩
      · simp [Reading.inactiveSince, hreading, UInt32.not_lt.mpr hinactive]
      · cases hbefore : inactiveSince hub.history with
        | none => simp
        | some since =>
            obtain ⟨hle, hstopped⟩ := hkept.inactive since hbefore
            have := UInt64.le_iff_toNat_le.mp
              (UInt64.le_trans hle (UInt64.le_trans hstopped hclock))
            simpa using this
  | illuminance value =>
      simp only [hreading] at hcase
      rcases hcase with hbright | ⟨hset, hlong⟩
      · exact .inr ⟨value, rfl, hbright⟩
      · cases hbefore : inactiveSince hub.history with
        | none => exact absurd (hkept.active hbefore) hset
        | some since =>
            -- the first inactive reading is not later than the last one
            obtain ⟨hle, hstopped⟩ := hkept.inactive since hbefore
            have hpast := UInt64.le_trans hstopped hclock
            refine .inl ⟨since, by simp [Reading.inactiveSince, hreading, hbefore], ?_⟩
            rw [UInt64.lt_iff_toNat_lt, UInt64.toNat_sub_of_le _ _ hpast, toNat_delayMs] at hlong
            have := UInt64.le_iff_toNat_le.mp hle
            omega

/-- The light is off after an event that switched it off, or found it off and did
not switch it on. -/
theorem HubState.Outcome.off_iff {state : HubState} {status : UInt8}
    {commands : List LedCommand} (hout : state.Outcome delayMinutes e status commands) :
    status = 0 ↔
      state.SwitchesOff delayMinutes e ∨ state.lastStatus = 0 ∧ ¬ state.SwitchesOn e := by
  cases hout with
  | off hoff => exact iff_of_true rfl (.inl hoff)
  | on hon =>
      refine iff_of_false (by decide) ?_
      rintro (hoff | ⟨_, hno⟩)
      · exact hon.not_off hoff
      · exact hno hon
  | none hoff hon =>
      constructor
      · intro hdark
        exact .inr ⟨hdark, hon⟩
      · rintro (h | ⟨hdark, _⟩)
        · exact absurd h hoff
        · exact hdark

/-- An event that is due leaves the light off exactly when it meets the guard. -/
theorem Hub.off_iff_guard (hmirrors : hub.Mirrors) (hdue : hub.OffDue delayMinutes e) :
    (hub.state.SwitchesOff delayMinutes e ∨
        hub.state.lastStatus = 0 ∧ ¬ hub.state.SwitchesOn e) ↔
      hub.OffGuard delayMinutes e := by
  simp only [Hub.OffGuard, forall_prop_of_true hdue]
  cases hreading : e.reading with
  | motion value =>
      have hinactive : value ≤ 50 := by
        obtain ⟨since, hsince, _⟩ := hdue
        apply UInt32.not_lt.mp
        intro hactive
        simp [Reading.inactiveSince, hreading, hactive] at hsince
      simp only [HubState.SwitchesOff, HubState.SwitchesOn, hreading,
        UInt32.not_lt.mpr hinactive, not_false_eq_true, and_true, hinactive, true_and]
      tauto
  | illuminance value =>
      simp only [HubState.SwitchesOff, HubState.SwitchesOn, hreading]
      rcases hmirrors.status with hstatus | hstatus
      · have hne : (0 : UInt8) ≠ 1 := by decide
        simp only [hstatus, ne_eq, not_true_eq_false, false_and, false_or, if_true, hne,
          not_false_eq_true, true_and, not_and_or, UInt32.not_lt]
      · have hne : (1 : UInt8) ≠ 0 := by decide
        simp only [hstatus, ne_eq, hne, not_false_eq_true, true_and, false_and, or_false,
          if_false]

/-- One event keeps the rule exactly when it meets the guard. -/
theorem Hub.switchOff_agree (hmirrors : hub.Mirrors) (hkept : hub.StopKept)
    (h : hub.step delayMinutes e = some hub') :
    hub.SwitchOffRule delayMinutes e hub' ↔ hub.OffGuard delayMinutes e := by
  obtain ⟨hclock, _, status, commands, rfl, hout⟩ := Hub.step_cases h
  constructor
  · intro hrule hdue
    exact (Hub.off_iff_guard hmirrors hdue).mp (hout.off_iff.mp (hrule.off hdue)) hdue
  · intro hguard
    refine ⟨fun hdue => hout.off_iff.mpr ((Hub.off_iff_guard hmirrors hdue).mpr hguard), ?_⟩
    intro c hc hid
    rw [Hub.published_append] at hc
    cases hout with
    | off hoff => exact hkept.due_of_switchesOff hclock hoff
    | on _ =>
        rw [List.mem_singleton.mp hc, HubState.switchOn_commandId] at hid
        exact absurd hid (by decide)
    | none _ _ => simp at hc

end Step

/-- **Switch-off.** The runs that keep the rule are those all of whose events meet
the guard. -/
theorem switchOff_iff (delayMinutes : UInt32) (events : List HubEvent) :
    Runs.Every (Hub.step delayMinutes) (Hub.SwitchOffRule delayMinutes) Hub.initial events ↔
      Runs.Every (Hub.step delayMinutes) (fun hub e _ => hub.OffGuard delayMinutes e)
        Hub.initial events := by
  refine Runs.every_congr (I := fun hub => hub.Mirrors ∧ hub.StopKept) ?_ ?_
    ⟨Hub.mirrors_initial, Hub.stopKept_initial⟩
  · rintro hub e hub' ⟨hmirrors, hkept⟩ h
    exact Hub.switchOff_agree hmirrors hkept h
  · rintro hub e hub' ⟨hmirrors, hkept⟩ h _
    exact ⟨hmirrors.step h, hkept.step h⟩

/-- No delay, and motion ceases at time 5: the light stays on. -/
theorem switchOff_late :
    ¬ Runs.Every (Hub.step 0) (Hub.SwitchOffRule 0) Hub.initial
      [⟨.motion 60, 1, 1⟩, ⟨.motion 10, 5, 5⟩] := by
  intro hrule
  have hstep₁ : Hub.step 0 Hub.initial ⟨.motion 60, 1, 1⟩ = some
      ⟨⟨1, 0⟩, 1, [⟨⟨.motion 60, 1, 1⟩, [⟨111, [60, 0, 0, 0]⟩]⟩]⟩ := by decide
  have hstep₂ : Hub.step 0 ⟨⟨1, 0⟩, 1, [⟨⟨.motion 60, 1, 1⟩, [⟨111, [60, 0, 0, 0]⟩]⟩]⟩
      ⟨.motion 10, 5, 5⟩ = some
        ⟨⟨1, 5⟩, 5, [⟨⟨.motion 60, 1, 1⟩, [⟨111, [60, 0, 0, 0]⟩]⟩, ⟨⟨.motion 10, 5, 5⟩, []⟩]⟩ := by
    decide
  have hoff := ((hrule _ hstep₁).2 _ hstep₂).1.off ⟨5, by decide, by decide⟩
  exact absurd hoff (by decide)

end NdnRiot
