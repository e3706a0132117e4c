import NdnRiot.Logic.Sensors

/-!
# The contract of the sensors

The comments of both sensors promise battery levels from 1 to 100, published only when
the level drops, and values published only when they rose by more than 10.

The level that is published is a true one while less than 100 units of 600 ms pass
between two publications; the hundredth publishes 0, and 2^32 units later a wrapped
level passes the test. The illuminance sensor publishes a value that fell, whose
difference wraps. The motion sensor never updates its last value, so it measures every
rise from 0.
-/

namespace NdnRiot

namespace SensorProgram

variable {σ : Type} (program : SensorProgram σ) (sensor : Sensor σ) (call : SensorCall)

/-- The units of 600 ms since the battery level was published last. -/
def drained : Nat := units (program.timestamp sensor.state) call.now

/-- What a call may publish: a battery level from 1 to 100, below the one published last
and not wrapped, and a value that exceeds the one published last by more than 10. -/
structure KeepsContract : Prop where
  battery : ∀ level, psPublishContent .battery level ∈ program.published sensor call →
    1 ≤ level.toNat ∧ level.toNat ≤ 100 ∧
      level < lastPublished .battery 100 sensor.history ∧
      (level.toNat : Int) = 100 - program.drained sensor call
  value : ∀ value, psPublishContent program.service value ∈ program.published sensor call →
    (value.toNat : Int) - (lastPublished program.service 0 sensor.history).toNat > 10

/-- Less than 100 units have passed, or their number modulo 2^32 is outside the window
in which the level is below the last one. -/
def BatteryGuard : Prop :=
  program.drained sensor call < 100 ∨ 100 < program.drained sensor call % UInt32.size ∨
    program.drained sensor call % UInt32.size + program.lastBattery sensor.state ≤ 100

variable {program sensor call}

/-- The part of the contract about the battery. -/
theorem batteryGuard_iff (hprogram : program.Filters) (hsound : program.Sound sensor)
    (hclock : sensor.clock ≤ call.now) :
    program.BatteryGuard sensor call ↔
      ∀ level, psPublishContent .battery level ∈ program.published sensor call →
        1 ≤ level.toNat ∧ level.toNat ≤ 100 ∧
          level < lastPublished .battery 100 sensor.history ∧
          (level.toNat : Int) = 100 - program.drained sensor call := by
  have hle := UInt64.le_trans hsound.timestamp hclock
  have hlevel : (program.level sensor.state call).toNat = _ := batteryLevel_toNat hle
  have hdrops : program.Drops sensor.state call ↔ _ := batteryLevel_lt_iff hle hsound.level
  have hlast := hsound.level
  simp only [hprogram.mem_battery_iff, and_imp, forall_eq_apply_imp_iff, hlevel,
    ← hsound.drops_iff]
  -- a level that passes its test is 100 less the units modulo 2^32
  unfold BatteryGuard drained
  rw [hdrops]
  unfold UInt32.size
  omega

/-- The contract of a call, with the test on the value as a statement on integers. -/
theorem keepsContract_iff (hprogram : program.Filters) (hsound : program.Sound sensor)
    (hclock : sensor.clock ≤ call.now) (hvalue : (program.lastValue sensor.state).toNat ≤ 85) :
    program.KeepsContract sensor call ↔ program.BatteryGuard sensor call ∧
      (call.dice.toNat / 3 < (program.lastValue sensor.state).toNat ∨
          (program.lastValue sensor.state).toNat + 10 < call.dice.toNat / 3 →
        (lastPublished program.service 0 sensor.history).toNat + 10 < call.dice.toNat / 3) := by
  have hrises : program.Rises sensor.state call ↔ _ := riseTest_iff (diceValue_le call.dice) hvalue
  rw [diceValue_toNat] at hrises
  rw [batteryGuard_iff hprogram hsound hclock, ← hrises]
  constructor
  · rintro ⟨hbattery, hpublished⟩
    refine ⟨hbattery, fun hrise => ?_⟩
    have hgap := hpublished _ (hprogram.mem_value_iff.mpr ⟨hrise, rfl⟩)
    rw [diceValue_toNat] at hgap
    omega
  · rintro ⟨hbattery, hgap⟩
    refine ⟨hbattery, fun value hmem => ?_⟩
    obtain ⟨hrise, rfl⟩ := hprogram.mem_value_iff.mp hmem
    have hlt := hgap hrise
    rw [diceValue_toNat]
    omega

end SensorProgram

/-! ## The illuminance sensor -/

/-- The illuminance sensor knows the value it published last. -/
structure IlluminanceSound (sensor : Sensor IlluminanceState) : Prop where
  sound : illuminanceSensor.Sound sensor
  value : sensor.state.lastIlluminance = lastPublished .illuminance 0 sensor.history
  value_le : sensor.state.lastIlluminance.toNat ≤ 85

/-- What a call must meet: the illuminance is not below the one published last. -/
def IlluminanceGuard (sensor : Sensor IlluminanceState) (call : SensorCall) : Prop :=
  illuminanceSensor.BatteryGuard sensor call ∧
    sensor.state.lastIlluminance.toNat ≤ call.dice.toNat / 3

theorem IlluminanceSound.start (clock : UInt64) :
    IlluminanceSound (illuminanceSensor.start clock) :=
  ⟨illuminance_filters.sound_start clock, rfl, Nat.zero_le 85⟩

section

variable {sensor sensor' : Sensor IlluminanceState} {call : SensorCall}

theorem IlluminanceSound.step (hsound : IlluminanceSound sensor)
    (h : illuminanceSensor.step sensor call = some sensor') : IlluminanceSound sensor' := by
  obtain ⟨sound, value, value_le⟩ := hsound
  have hsound' := sound.step illuminance_filters h
  obtain ⟨_, rfl⟩ := SensorProgram.step_eq_some h
  have hlast : (sensor.state.serviceDataPublishing call.now call.dice).1.lastIlluminance =
      if illuminanceSensor.Rises sensor.state call then diceValue call.dice
      else sensor.state.lastIlluminance := by
    rw [illuminance_call]
  refine ⟨hsound', ?_, ?_⟩
  · exact hlast.trans (by rw [value]; exact illuminance_filters.lastPublished_value.symm)
  · show (sensor.state.serviceDataPublishing call.now call.dice).1.lastIlluminance.toNat ≤ 85
    rw [hlast]
    split_ifs
    · exact diceValue_le call.dice
    · exact value_le

/-- A call keeps the contract exactly when it meets the guard. -/
theorem illuminance_keeps_iff (hsound : IlluminanceSound sensor)
    (h : illuminanceSensor.step sensor call = some sensor') :
    illuminanceSensor.KeepsContract sensor call ↔ IlluminanceGuard sensor call := by
  obtain ⟨hclock, _⟩ := SensorProgram.step_eq_some h
  rw [SensorProgram.keepsContract_iff illuminance_filters hsound.sound hclock hsound.value_le]
  show _ ∧ (_ < sensor.state.lastIlluminance.toNat ∨ _ →
    (lastPublished .illuminance 0 sensor.history).toNat + 10 < _) ↔ _
  unfold IlluminanceGuard
  rw [← hsound.value]
  apply and_congr_right
  intro _
  show (_ ∨ sensor.state.lastIlluminance.toNat + 10 < _ → _) ↔ _
  omega

end

/-! ## The motion sensor -/

/-- The motion sensor keeps its last value at 0. -/
structure MotionSound (sensor : Sensor MotionState) : Prop where
  sound : motionSensor.Sound sensor
  value : sensor.state.lastMotion = 0

/-- What a call must meet: a motion value over 10 exceeds the one published last by more
than 10. -/
def MotionGuard (sensor : Sensor MotionState) (call : SensorCall) : Prop :=
  motionSensor.BatteryGuard sensor call ∧
    (call.dice.toNat / 3 ≤ 10 ∨
      (lastPublished .motion 0 sensor.history).toNat + 10 < call.dice.toNat / 3)

theorem MotionSound.start (clock : UInt64) : MotionSound (motionSensor.start clock) :=
  ⟨motion_filters.sound_start clock, rfl⟩

section

variable {sensor sensor' : Sensor MotionState} {call : SensorCall}

theorem MotionSound.step (hsound : MotionSound sensor)
    (h : motionSensor.step sensor call = some sensor') : MotionSound sensor' := by
  have hsound' := hsound.sound.step motion_filters h
  obtain ⟨_, rfl⟩ := SensorProgram.step_eq_some h
  refine ⟨hsound', ?_⟩
  show (sensor.state.serviceDataPublishing call.now call.dice).1.lastMotion = 0
  rw [motion_call]
  exact hsound.value

/-- A call keeps the contract exactly when it meets the guard. -/
theorem motion_keeps_iff (hsound : MotionSound sensor)
    (h : motionSensor.step sensor call = some sensor') :
    motionSensor.KeepsContract sensor call ↔ MotionGuard sensor call := by
  obtain ⟨hclock, _⟩ := SensorProgram.step_eq_some h
  have hvalue : motionSensor.lastValue sensor.state = 0 := hsound.value
  rw [SensorProgram.keepsContract_iff motion_filters hsound.sound hclock (by rw [hvalue]; decide),
    hvalue]
  unfold MotionGuard
  apply and_congr_right
  intro _
  show (_ < 0 ∨ 0 + 10 < _ → (lastPublished .motion 0 sensor.history).toNat + 10 < _) ↔ _
  omega

end

/-! ## Every run -/

/-- **The contract** is kept by every call of a run exactly when every call meets the
guard of its sensor. -/
theorem sensors_keep_iff (clock : UInt64) (calls : List SensorCall) :
    (Runs.Every illuminanceSensor.step
        (fun sensor call _ => illuminanceSensor.KeepsContract sensor call)
        (illuminanceSensor.start clock) calls ↔
      Runs.Every illuminanceSensor.step (fun sensor call _ => IlluminanceGuard sensor call)
        (illuminanceSensor.start clock) calls) ∧
    (Runs.Every motionSensor.step
        (fun sensor call _ => motionSensor.KeepsContract sensor call)
        (motionSensor.start clock) calls ↔
      Runs.Every motionSensor.step (fun sensor call _ => MotionGuard sensor call)
        (motionSensor.start clock) calls) := by
  constructor
  · apply Runs.every_congr (I := IlluminanceSound)
    · exact fun _ _ _ hsound h => illuminance_keeps_iff hsound h
    · exact fun _ _ _ hsound h _ => hsound.step h
    · exact IlluminanceSound.start clock
  · apply Runs.every_congr (I := MotionSound)
    · exact fun _ _ _ hsound h => motion_keeps_iff hsound h
    · exact fun _ _ _ hsound h _ => hsound.step h
    · exact MotionSound.start clock

/-- An illuminance of 20 and then of 10, and a motion of 30 twice, are all published; a
gap of a minute publishes a battery level of 0. -/
theorem sensors_break_contract :
    ¬ Runs.Every illuminanceSensor.step
        (fun sensor call _ => illuminanceSensor.KeepsContract sensor call)
        (illuminanceSensor.start 0) [⟨1000, 60⟩, ⟨1100, 30⟩] ∧
    ¬ Runs.Every motionSensor.step
        (fun sensor call _ => motionSensor.KeepsContract sensor call)
        (motionSensor.start 0) [⟨1000, 90⟩, ⟨1100, 90⟩] ∧
    ¬ Runs.Every motionSensor.step
        (fun sensor call _ => motionSensor.KeepsContract sensor call)
        (motionSensor.start 0) [⟨60000, 0⟩] := by
  refine ⟨?_, ?_, ?_⟩
  · intro hevery
    obtain ⟨_, hrest⟩ := hevery _ rfl
    obtain ⟨hkeeps, _⟩ := hrest _ rfl
    exact absurd (hkeeps.value 10 (by decide)) (by decide)
  · intro hevery
    obtain ⟨_, hrest⟩ := hevery _ rfl
    obtain ⟨hkeeps, _⟩ := hrest _ rfl
    exact absurd (hkeeps.value 30 (by decide)) (by decide)
  · intro hevery
    obtain ⟨hkeeps, _⟩ := hevery _ rfl
    exact absurd (hkeeps.battery 0 (by decide)).1 (by decide)

end NdnRiot
