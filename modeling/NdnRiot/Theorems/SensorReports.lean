import NdnRiot.Theorems.SensorContract

/-!
# What a sensor reports in a whole run

The battery levels fall from report to report, so a run has at most 100 of them. The
level is computed from the time of the report before it, not from the start: the k-th
report is at least k units of 600 ms behind the one before, and k reports take at
least 600 · (1 + … + k) ms (`battery_reports`).

The values are those of a filter on the random bytes. For the illuminance it lets
through every fall and every rise by more than 10, for the motion every value above 10
(`value_reports`).
-/

namespace NdnRiot

/-- The values published to a service. -/
def reports (service : SensorService) (history : List SensorContent) : List UInt32 :=
  history.filterMap (SensorContent.value? service)

namespace SensorProgram

variable {σ : Type} {program : SensorProgram σ}

/-- A call adds the battery level that passes its test. -/
theorem Filters.reports_battery (hprogram : program.Filters) (sensor : Sensor σ)
    (call : SensorCall) :
    reports .battery (sensor.history ++ program.published sensor call) =
      reports .battery sensor.history ++
        if program.Drops sensor.state call then [program.level sensor.state call] else [] := by
  have hservice := hprogram.service
  unfold reports
  rw [SensorProgram.published, hprogram.published, List.filterMap_append, List.filterMap_append]
  split_ifs <;> simp [value?_psPublishContent, hservice]

/-- A call adds the value that passes its test. -/
theorem Filters.reports_value (hprogram : program.Filters) (sensor : Sensor σ)
    (call : SensorCall) :
    reports program.service (sensor.history ++ program.published sensor call) =
      reports program.service sensor.history ++
        if program.Rises sensor.state call then [diceValue call.dice] else [] := by
  have hservice := hprogram.service
  unfold reports
  rw [SensorProgram.published, hprogram.published, List.filterMap_append, List.filterMap_append]
  split_ifs <;> simp [value?_psPublishContent, hservice.symm]

/-! ## The battery -/

/-- The battery reports of a sensor whose loop started at `clock`. -/
structure BatteryReports (clock : UInt64) (sensor : Sensor σ) : Prop where
  falling : (reports .battery sensor.history).Pairwise (· > ·)
  level : ∀ value ∈ reports .battery sensor.history, value.toNat < 100
  number : (reports .battery sensor.history).length ≤ 100
  time : 300 * ((reports .battery sensor.history).length *
    ((reports .battery sensor.history).length + 1)) ≤ sensor.clock.toNat - clock.toNat

/-- The invariant behind it: the last level is the lowest, with one percent less for each
report, and the time of the last report is far enough from the start. -/
structure Draining (program : SensorProgram σ) (clock : UInt64) (sensor : Sensor σ) : Prop where
  sound : program.Sound sensor
  falling : (reports .battery sensor.history).Pairwise (· > ·)
  lowest : ∀ value ∈ reports .battery sensor.history,
    program.lastBattery sensor.state ≤ value.toNat ∧ value.toNat < 100
  number : program.lastBattery sensor.state + (reports .battery sensor.history).length ≤ 100
  time : clock.toNat + 300 * ((reports .battery sensor.history).length *
    ((reports .battery sensor.history).length + 1)) ≤ (program.timestamp sensor.state).toNat

theorem Filters.draining_start (hprogram : program.Filters) (clock : UInt64) :
    program.Draining clock (program.start clock) where
  sound := hprogram.sound_start clock
  falling := .nil
  lowest := by
    intro value hmem
    cases hmem
  number := Nat.le_of_eq (hprogram.initialBattery clock)
  time := by
    show clock.toNat + 300 * (0 * (0 + 1)) ≤ (program.timestamp (program.initial clock)).toNat
    rw [hprogram.initialTime]
    omega

/-- A report takes a unit more than there were reports before it. -/
theorem Draining.late {clock : UInt64} {sensor : Sensor σ} {call : SensorCall}
    (h : program.Draining clock sensor) (hclock : sensor.clock ≤ call.now)
    (hdrops : program.Drops sensor.state call) :
    (program.timestamp sensor.state).toNat +
      600 * ((reports .battery sensor.history).length + 1) ≤ call.now.toNat := by
  have hle := UInt64.le_trans h.sound.timestamp hclock
  obtain ⟨_, hfar⟩ := (batteryLevel_lt_iff hle h.sound.level).mp hdrops
  have hnumber := h.number
  have hwrapped := Nat.mod_le (units (program.timestamp sensor.state) call.now) UInt32.size
  -- the level lost more percent than there were reports
  have hunits : (reports .battery sensor.history).length + 1 ≤
      units (program.timestamp sensor.state) call.now := by omega
  unfold units at hunits
  omega

/-- One report more, a unit more behind it than there were reports. -/
theorem time_succ {start last now k : Nat} (hlast : start + 300 * (k * (k + 1)) ≤ last)
    (hnow : last + 600 * (k + 1) ≤ now) : start + 300 * ((k + 1) * (k + 1 + 1)) ≤ now := by
  have hsum : (k + 1) * (k + 1 + 1) = k * (k + 1) + 2 * (k + 1) := by
    rw [← Nat.add_mul, Nat.mul_comm]
  calc start + 300 * ((k + 1) * (k + 1 + 1))
      = start + 300 * (k * (k + 1)) + 600 * (k + 1) := by
        rw [hsum, Nat.mul_add, ← Nat.mul_assoc 300 2, Nat.add_assoc]
    _ ≤ last + 600 * (k + 1) := Nat.add_le_add_right hlast _
    _ ≤ now := hnow

/-- **The step lemma.** -/
theorem Draining.step (hprogram : program.Filters) {clock : UInt64} {sensor sensor' : Sensor σ}
    {call : SensorCall} (h : program.Draining clock sensor)
    (hstep : program.step sensor call = some sensor') : program.Draining clock sensor' := by
  have hsound := h.sound.step hprogram hstep
  obtain ⟨hclock, rfl⟩ := SensorProgram.step_eq_some hstep
  have hreports := hprogram.reports_battery sensor call
  have hlast := hprogram.lastBattery sensor.state call
  have htime := hprogram.timestamp sensor.state call
  by_cases hdrops : program.Drops sensor.state call
  · rw [if_pos hdrops] at hreports hlast htime
    have hlower : (program.level sensor.state call).toNat < program.lastBattery sensor.state :=
      hdrops
    have hnumber := h.number
    have hlate := h.late hclock hdrops
    refine ⟨hsound, ?_, ?_, ?_, ?_⟩
    · rw [hreports]
      refine List.pairwise_append.mpr ⟨h.falling, List.pairwise_singleton _ _, ?_⟩
      intro value hmem value' hmem'
      rw [List.mem_singleton.mp hmem']
      exact UInt32.lt_iff_toNat_lt.mpr (Nat.lt_of_lt_of_le hlower (h.lowest value hmem).1)
    · rw [hreports, hlast]
      intro value hmem
      rcases List.mem_append.mp hmem with hmem | hmem
      · have hlow := h.lowest value hmem
        omega
      · rw [List.mem_singleton.mp hmem]
        omega
    · rw [hreports, hlast, List.length_append, List.length_singleton]
      omega
    · rw [hreports, htime, List.length_append, List.length_singleton]
      exact time_succ h.time hlate
  · rw [if_neg hdrops] at hreports hlast htime
    rw [List.append_nil] at hreports
    refine ⟨hsound, ?_, ?_, ?_, ?_⟩
    · rw [hreports]
      exact h.falling
    · rw [hreports, hlast]
      exact h.lowest
    · rw [hreports, hlast]
      exact h.number
    · rw [hreports, htime]
      exact h.time

theorem Draining.reports {clock : UInt64} {sensor : Sensor σ}
    (h : program.Draining clock sensor) : BatteryReports clock sensor where
  falling := h.falling
  level value hmem := (h.lowest value hmem).2
  number := by
    have hnumber := h.number
    omega
  time := by
    have hlate := UInt64.le_iff_toNat_le.mp h.sound.timestamp
    have htime := h.time
    omega

/-- **The run lemma.** -/
theorem Filters.batteryReports (hprogram : program.Filters) {clock : UInt64}
    {calls : List SensorCall} {sensor : Sensor σ}
    (hrun : Runs.run program.step (program.start clock) calls = some sensor) :
    BatteryReports clock sensor :=
  (Runs.run_invariant_of_every (I := program.Draining clock) (G := fun _ _ _ => True)
    (fun _ _ _ h hstep _ => h.step hprogram hstep) (hprogram.draining_start clock)
    (Runs.every_of_forall fun _ _ => trivial) hrun).reports

end SensorProgram

/-- **Battery reports.** In every run of either sensor, whenever its calls come, the
levels it reported fall and are below 100, so there are at most 100 of them, and k of
them took at least 600 · (1 + … + k) ms. -/
theorem battery_reports (clock : UInt64) (calls : List SensorCall) :
    (∀ sensor, Runs.run illuminanceSensor.step (illuminanceSensor.start clock) calls =
        some sensor → SensorProgram.BatteryReports clock sensor) ∧
      ∀ sensor, Runs.run motionSensor.step (motionSensor.start clock) calls = some sensor →
        SensorProgram.BatteryReports clock sensor :=
  ⟨fun _ => illuminance_filters.batteryReports, fun _ => motion_filters.batteryReports⟩

/-- Calls that report as early as possible. -/
def earliestCalls : List SensorCall := [⟨600, 30⟩, ⟨1800, 240⟩, ⟨3600, 90⟩]

/-- Three reports after 3600 ms. -/
theorem battery_reports_earliest :
    ∃ sensor, Runs.run motionSensor.step (motionSensor.start 0) earliestCalls = some sensor ∧
      reports .battery sensor.history = [99, 98, 97] ∧
      sensor.clock.toNat = 300 * (3 * (3 + 1)) ∧ SensorProgram.BatteryReports 0 sensor :=
  ⟨_, rfl, by decide, by decide, (battery_reports 0 earliestCalls).2 _ rfl⟩

/-! ## The values -/

/-- A filter that lets through what fell, or rose by more than 10, since what it let
through last. -/
def changes : Nat → List Nat → List Nat
  | _, [] => []
  | last, value :: rest =>
      if value < last ∨ last + 10 < value then value :: changes value rest
      else changes last rest

/-- The values the calls of a run measure. -/
def measured (calls : List SensorCall) : List Nat := calls.map fun call => call.dice.toNat / 3

/-- What the illuminance sensor goes on to report. -/
theorem illuminance_reports {calls : List SensorCall} :
    ∀ {sensor sensor' : Sensor IlluminanceState}, IlluminanceSound sensor →
      Runs.run illuminanceSensor.step sensor calls = some sensor' →
      (reports .illuminance sensor'.history).map UInt32.toNat =
        (reports .illuminance sensor.history).map UInt32.toNat ++
          changes sensor.state.lastIlluminance.toNat (measured calls) := by
  induction calls with
  | nil =>
      intro sensor sensor' _ hrun
      obtain rfl : sensor = sensor' := by simpa using hrun
      exact (List.append_nil _).symm
  | cons call rest ih =>
      intro sensor sensor' hsound hrun
      obtain ⟨sensor₁, hstep, hrest⟩ := (Runs.run_cons_eq_some _).mp hrun
      rw [ih (hsound.step hstep) hrest]
      obtain ⟨_, rfl⟩ := SensorProgram.step_eq_some hstep
      have hreports : reports .illuminance _ = _ :=
        illuminance_filters.reports_value sensor call
      have hrises : illuminanceSensor.Rises sensor.state call ↔
          call.dice.toNat / 3 < sensor.state.lastIlluminance.toNat ∨
            sensor.state.lastIlluminance.toNat + 10 < call.dice.toNat / 3 := by
        rw [← diceValue_toNat]
        exact riseTest_iff (diceValue_le call.dice) hsound.value_le
      have hlast : (sensor.state.serviceDataPublishing call.now call.dice).1.lastIlluminance =
          if illuminanceSensor.Rises sensor.state call then diceValue call.dice
          else sensor.state.lastIlluminance := by
        rw [illuminance_call]
      show (reports .illuminance (sensor.history ++
          illuminanceSensor.published sensor call)).map _ ++
        changes (sensor.state.serviceDataPublishing call.now call.dice).1.lastIlluminance.toNat _ = _
      rw [hreports, hlast, List.map_append, List.append_assoc]
      congr 1
      by_cases hrise : illuminanceSensor.Rises sensor.state call
      · rw [if_pos hrise, if_pos hrise, diceValue_toNat]
        show [(diceValue call.dice).toNat] ++ _ = changes _ (call.dice.toNat / 3 :: measured rest)
        rw [changes, if_pos (hrises.mp hrise), diceValue_toNat]
        rfl
      · rw [if_neg hrise, if_neg hrise]
        show _ = changes _ (call.dice.toNat / 3 :: measured rest)
        rw [changes, if_neg (fun h => hrise (hrises.mpr h))]
        rfl

/-- What the motion sensor goes on to report. -/
theorem motion_reports {calls : List SensorCall} :
    ∀ {sensor sensor' : Sensor MotionState}, MotionSound sensor →
      Runs.run motionSensor.step sensor calls = some sensor' →
      (reports .motion sensor'.history).map UInt32.toNat =
        (reports .motion sensor.history).map UInt32.toNat ++
          (measured calls).filter (10 < ·) := by
  induction calls with
  | nil =>
      intro sensor sensor' _ hrun
      obtain rfl : sensor = sensor' := by simpa using hrun
      exact (List.append_nil _).symm
  | cons call rest ih =>
      intro sensor sensor' hsound hrun
      obtain ⟨sensor₁, hstep, hrest⟩ := (Runs.run_cons_eq_some _).mp hrun
      rw [ih (hsound.step hstep) hrest]
      obtain ⟨_, rfl⟩ := SensorProgram.step_eq_some hstep
      have hreports : reports .motion _ = _ := motion_filters.reports_value sensor call
      have hlast : motionSensor.lastValue sensor.state = 0 := hsound.value
      have hrises : motionSensor.Rises sensor.state call ↔ 10 < call.dice.toNat / 3 := by
        have hiff : motionSensor.Rises sensor.state call ↔ _ :=
          riseTest_iff (diceValue_le call.dice) (by rw [hlast]; decide)
        rw [hiff, hlast, diceValue_toNat]
        show _ < 0 ∨ 0 + 10 < _ ↔ _
        omega
      show (reports .motion (sensor.history ++ motionSensor.published sensor call)).map _ ++ _ = _
      rw [hreports, List.map_append, List.append_assoc]
      congr 1
      show _ = List.filter _ (call.dice.toNat / 3 :: measured rest)
      by_cases hrise : motionSensor.Rises sensor.state call
      · rw [if_pos hrise, List.filter_cons_of_pos (by simpa using hrises.mp hrise)]
        show [(diceValue call.dice).toNat] ++ _ = _
        rw [diceValue_toNat]
        rfl
      · rw [if_neg hrise, List.filter_cons_of_neg (by simpa using fun h => hrise (hrises.mpr h))]
        rfl

/-- **Value reports.** In every run the illuminance sensor reports the changes of the
values it measures, and the motion sensor those above 10, in order. -/
theorem value_reports (clock : UInt64) (calls : List SensorCall) :
    (∀ sensor, Runs.run illuminanceSensor.step (illuminanceSensor.start clock) calls =
        some sensor →
      (reports .illuminance sensor.history).map UInt32.toNat = changes 0 (measured calls)) ∧
    ∀ sensor, Runs.run motionSensor.step (motionSensor.start clock) calls = some sensor →
      (reports .motion sensor.history).map UInt32.toNat =
        (measured calls).filter (10 < ·) :=
  ⟨fun _ => illuminance_reports (.start clock), fun _ => motion_reports (.start clock)⟩

/-- Values of 10, 80 and 30, of which the motion sensor leaves out the first. -/
theorem value_reports_earliest :
    ∃ sensor, Runs.run motionSensor.step (motionSensor.start 0) earliestCalls = some sensor ∧
      (reports .motion sensor.history).map UInt32.toNat = [80, 30] ∧
      (reports .motion sensor.history).map UInt32.toNat =
        (measured earliestCalls).filter (10 < ·) :=
  ⟨_, rfl, by decide, (value_reports 0 earliestCalls).2 _ rfl⟩

end NdnRiot
