import NdnRiot.Lib.Run
import NdnRiot.Model.Sensors

/-!
# What a call of a sensor publishes

`SensorProgram.Filters` is a call of either sensor in terms of its two tests, on the
battery level and on the value; only the two proofs of it look into the programs.
`batteryLevel_lt_iff` and `riseTest_iff` are the tests as statements on integers, where
the unsigned differences wrap. `Sensor.Sound` relates the state of a sensor to what it
published.
-/

namespace NdnRiot

/-! ## The unsigned differences -/

/-- The units of 600 ms between two times. -/
def units (since now : UInt64) : Nat := (now.toNat - since.toNat) / 600

/-- The battery level, where the difference of 64 bits is cut to 32. -/
theorem batteryLevel_toNat {since now : UInt64} (h : since ≤ now) :
    (batteryLevel (now - since)).toNat =
      (100 + (UInt32.size - units since now % UInt32.size)) % UInt32.size := by
  have hlt := now.toNat_lt
  have hunits : ((now - since) / 600).toNat = units since now := by
    rw [UInt64.toNat_div, UInt64.toNat_sub_of_le _ _ h]
    rfl
  have hsmall : units since now < 2 ^ 64 := by
    unfold units
    omega
  unfold batteryLevel
  rw [UInt64.toNat_toUInt32, UInt64.toNat_sub, hunits]
  show (2 ^ 64 - units since now + 100) % 2 ^ 64 % 2 ^ 32 = _
  unfold UInt32.size
  omega

/-- The level is below `last` in a window of the units, which comes back every 2^32
of them. -/
theorem batteryLevel_lt_iff {since now : UInt64} (h : since ≤ now) {last : Nat}
    (hlast : last ≤ 100) : (batteryLevel (now - since)).toNat < last ↔
      units since now % UInt32.size ≤ 100 ∧ 100 < units since now % UInt32.size + last := by
  rw [batteryLevel_toNat h]
  unfold UInt32.size
  omega

/-- A value passes its test when it fell, or rose by more than 10. -/
theorem riseTest_iff {value last : UInt32} (hvalue : value.toNat ≤ 85)
    (hlast : last.toNat ≤ 85) :
    value - last > 10 ↔ value.toNat < last.toNat ∨ last.toNat + 10 < value.toNat := by
  show 10 < value - last ↔ _
  rw [UInt32.lt_iff_toNat_lt, UInt32.toNat_sub]
  show 10 < (2 ^ 32 - last.toNat + value.toNat) % 2 ^ 32 ↔ _
  omega

theorem diceValue_toNat (dice : UInt8) : (diceValue dice).toNat = dice.toNat / 3 := by
  simp [diceValue]

theorem diceValue_le (dice : UInt8) : (diceValue dice).toNat ≤ 85 := by
  have hlt := dice.toNat_lt
  rw [diceValue_toNat]
  omega

/-! ## One call -/

namespace SensorProgram

variable {σ : Type} (program : SensorProgram σ) (state : σ) (call : SensorCall)

/-- The level of the battery at the call. -/
def level : UInt32 := batteryLevel (call.now - program.timestamp state)

/-- The battery level passes its test. -/
def Drops : Prop := (program.level state call).toNat < program.lastBattery state

/-- The value passes its test. -/
def Rises : Prop := diceValue call.dice - program.lastValue state > 10

instance : Decidable (program.Drops state call) := inferInstanceAs (Decidable (_ < _))
instance : Decidable (program.Rises state call) := inferInstanceAs (Decidable (_ > _))

/-- A call publishes the level and the value that pass their tests, and remembers the
level and its time. -/
structure Filters : Prop where
  service : program.service ≠ .battery
  initialBattery : ∀ clock, program.lastBattery (program.initial clock) = 100
  initialValue : ∀ clock, program.lastValue (program.initial clock) = 0
  initialTime : ∀ clock, program.timestamp (program.initial clock) = clock
  published : ∀ state call,
    (program.serviceDataPublishing call.now call.dice state).2 =
      (if program.Drops state call then [psPublishContent .battery (program.level state call)]
        else []) ++
      if program.Rises state call then
        [psPublishContent program.service (diceValue call.dice)]
      else []
  lastBattery : ∀ state call,
    program.lastBattery (program.serviceDataPublishing call.now call.dice state).1 =
      if program.Drops state call then (program.level state call).toNat
      else program.lastBattery state
  timestamp : ∀ state call,
    program.timestamp (program.serviceDataPublishing call.now call.dice state).1 =
      if program.Drops state call then call.now else program.timestamp state

end SensorProgram

/-! ## The two sensors -/

/-- `service_data_publishing` of the illuminance sensor. -/
theorem illuminance_call (state : IlluminanceState) (call : SensorCall) :
    state.serviceDataPublishing call.now call.dice =
      (⟨if illuminanceSensor.Drops state call then illuminanceSensor.level state call
          else state.lastBattery,
        if illuminanceSensor.Rises state call then diceValue call.dice
          else state.lastIlluminance,
        if illuminanceSensor.Drops state call then call.now else state.timestamp⟩,
      (if illuminanceSensor.Drops state call then
          [psPublishContent .battery (illuminanceSensor.level state call)] else []) ++
        if illuminanceSensor.Rises state call then
          [psPublishContent .illuminance (diceValue call.dice)] else []) := by
  have hdrops : illuminanceSensor.Drops state call ↔
      batteryLevel (call.now - state.timestamp) < state.lastBattery :=
    UInt32.lt_iff_toNat_lt.symm
  have hrises : illuminanceSensor.Rises state call ↔
      diceValue call.dice - state.lastIlluminance > 10 := Iff.rfl
  have hlevel : illuminanceSensor.level state call =
      batteryLevel (call.now - state.timestamp) := rfl
  unfold IlluminanceState.serviceDataPublishing
  rw [hlevel]
  by_cases hdrop : batteryLevel (call.now - state.timestamp) < state.lastBattery <;>
    by_cases hrise : diceValue call.dice - state.lastIlluminance > 10 <;>
    simp [hdrops, hrises, hdrop, hrise]

/-- `service_data_publishing` of the motion sensor. -/
theorem motion_call (state : MotionState) (call : SensorCall) :
    state.serviceDataPublishing call.now call.dice =
      (⟨if motionSensor.Drops state call then (motionSensor.level state call).toUInt64
          else state.lastBattery,
        state.lastMotion,
        if motionSensor.Drops state call then call.now else state.timestamp⟩,
      (if motionSensor.Drops state call then
          [psPublishContent .battery (motionSensor.level state call)] else []) ++
        if motionSensor.Rises state call then
          [psPublishContent .motion (diceValue call.dice)] else []) := by
  have hdrops : motionSensor.Drops state call ↔
      (batteryLevel (call.now - state.timestamp)).toUInt64 < state.lastBattery := by
    rw [UInt64.lt_iff_toNat_lt, UInt32.toNat_toUInt64]
    rfl
  have hrises : motionSensor.Rises state call ↔
      diceValue call.dice - state.lastMotion > 10 := Iff.rfl
  have hlevel : motionSensor.level state call = batteryLevel (call.now - state.timestamp) := rfl
  unfold MotionState.serviceDataPublishing
  rw [hlevel]
  by_cases hdrop : (batteryLevel (call.now - state.timestamp)).toUInt64 < state.lastBattery <;>
    by_cases hrise : diceValue call.dice - state.lastMotion > 10 <;>
    simp [hdrops, hrises, hdrop, hrise]

theorem illuminance_filters : illuminanceSensor.Filters where
  service := by decide
  initialBattery _ := rfl
  initialValue _ := rfl
  initialTime _ := rfl
  published state call := congrArg Prod.snd (illuminance_call state call)
  lastBattery state call := by
    show (state.serviceDataPublishing call.now call.dice).1.lastBattery.toNat = _
    rw [illuminance_call, apply_ite UInt32.toNat]
    rfl
  timestamp state call := by
    show (state.serviceDataPublishing call.now call.dice).1.timestamp = _
    rw [illuminance_call]
    rfl

theorem motion_filters : motionSensor.Filters where
  service := by decide
  initialBattery _ := rfl
  initialValue _ := rfl
  initialTime _ := rfl
  published state call := congrArg Prod.snd (motion_call state call)
  lastBattery state call := by
    show (state.serviceDataPublishing call.now call.dice).1.lastBattery.toNat = _
    rw [motion_call, apply_ite UInt64.toNat, UInt32.toNat_toUInt64]
    rfl
  timestamp state call := by
    show (state.serviceDataPublishing call.now call.dice).1.timestamp = _
    rw [motion_call]
    rfl

/-! ## What was published -/

/-- The value of a content published to the service. -/
def SensorContent.value? (service : SensorService) (c : SensorContent) : Option UInt32 :=
  if c.service = service then (readUint32 c.content).toOption else none

/-- The value published last to a service; `before` where there is none. -/
def lastPublished (service : SensorService) (before : UInt32) (history : List SensorContent) :
    UInt32 :=
  (history.filterMap (SensorContent.value? service)).getLast?.getD before

theorem value?_psPublishContent (service service' : SensorService) (value : UInt32) :
    (psPublishContent service' value).value? service =
      if service' = service then some value else none := by
  show (if service' = service then (readUint32 (uint32Bytes value)).toOption else none) = _
  rw [readUint32_uint32Bytes]
  rfl

theorem psPublishContent_inj {service service' : SensorService} {value value' : UInt32} :
    psPublishContent service value = psPublishContent service' value' ↔
      service = service' ∧ value = value' := by
  constructor
  · intro heq
    have hservice : service = service' := congrArg SensorContent.service heq
    have hvalue := congrArg (SensorContent.value? service) heq
    rw [value?_psPublishContent, value?_psPublishContent, if_pos rfl, if_pos hservice.symm]
      at hvalue
    exact ⟨hservice, Option.some.inj hvalue⟩
  · rintro ⟨rfl, rfl⟩
    rfl

namespace SensorProgram.Filters

variable {σ : Type} {program : SensorProgram σ} (hprogram : program.Filters)
  {sensor : Sensor σ} {call : SensorCall}

include hprogram

/-- The battery level is published when it passes its test. -/
theorem mem_battery_iff {value : UInt32} :
    psPublishContent .battery value ∈ program.published sensor call ↔
      program.Drops sensor.state call ∧ value = program.level sensor.state call := by
  have hservice := hprogram.service
  rw [SensorProgram.published, hprogram.published, List.mem_append]
  constructor
  · rintro (hmem | hmem) <;> split_ifs at hmem with htest
    · exact ⟨htest, (psPublishContent_inj.mp (List.mem_singleton.mp hmem)).2⟩
    · cases hmem
    · exact absurd (psPublishContent_inj.mp (List.mem_singleton.mp hmem)).1.symm hservice
    · cases hmem
  · rintro ⟨htest, rfl⟩
    exact .inl (by rw [if_pos htest]; exact List.mem_cons_self)

/-- The value is published when it passes its test. -/
theorem mem_value_iff {value : UInt32} :
    psPublishContent program.service value ∈ program.published sensor call ↔
      program.Rises sensor.state call ∧ value = diceValue call.dice := by
  have hservice := hprogram.service
  rw [SensorProgram.published, hprogram.published, List.mem_append]
  constructor
  · rintro (hmem | hmem) <;> split_ifs at hmem with htest
    · exact absurd (psPublishContent_inj.mp (List.mem_singleton.mp hmem)).1 hservice
    · cases hmem
    · exact ⟨htest, (psPublishContent_inj.mp (List.mem_singleton.mp hmem)).2⟩
    · cases hmem
  · rintro ⟨htest, rfl⟩
    exact .inr (by rw [if_pos htest]; exact List.mem_cons_self)

/-- The battery level published last, after a call. -/
theorem lastPublished_battery :
    lastPublished .battery 100 (sensor.history ++ program.published sensor call) =
      if program.Drops sensor.state call then program.level sensor.state call
      else lastPublished .battery 100 sensor.history := by
  have hservice := hprogram.service
  unfold lastPublished
  rw [SensorProgram.published, hprogram.published, List.filterMap_append, List.filterMap_append]
  split_ifs <;> simp [value?_psPublishContent, hservice]

/-- The value published last, after a call. -/
theorem lastPublished_value :
    lastPublished program.service 0 (sensor.history ++ program.published sensor call) =
      if program.Rises sensor.state call then diceValue call.dice
      else lastPublished program.service 0 sensor.history := by
  have hservice := hprogram.service
  unfold lastPublished
  rw [SensorProgram.published, hprogram.published, List.filterMap_append, List.filterMap_append]
  split_ifs <;> simp [value?_psPublishContent, hservice.symm]

end SensorProgram.Filters

/-! ## The state and the publications -/

/-- The sensor knows the battery level it published last, and its time. -/
structure SensorProgram.Sound {σ : Type} (program : SensorProgram σ) (sensor : Sensor σ) :
    Prop where
  timestamp : program.timestamp sensor.state ≤ sensor.clock
  battery : program.lastBattery sensor.state =
    (lastPublished .battery 100 sensor.history).toNat
  level : program.lastBattery sensor.state ≤ 100

/-- The level passes its test when it is below the one published last. -/
theorem SensorProgram.Sound.drops_iff {σ : Type} {program : SensorProgram σ}
    {sensor : Sensor σ} (hsound : program.Sound sensor) (call : SensorCall) :
    program.Drops sensor.state call ↔
      program.level sensor.state call < lastPublished .battery 100 sensor.history := by
  rw [UInt32.lt_iff_toNat_lt, ← hsound.battery]
  rfl

theorem SensorProgram.Filters.sound_start {σ : Type} {program : SensorProgram σ}
    (hprogram : program.Filters) (clock : UInt64) : program.Sound (program.start clock) := by
  have hbattery := hprogram.initialBattery clock
  exact ⟨UInt64.le_of_eq (hprogram.initialTime clock), hbattery, Nat.le_of_eq hbattery⟩

theorem SensorProgram.step_eq_some {σ : Type} {program : SensorProgram σ}
    {sensor sensor' : Sensor σ} {call : SensorCall}
    (h : program.step sensor call = some sensor') : sensor.clock ≤ call.now ∧ sensor' =
      ⟨(program.serviceDataPublishing call.now call.dice sensor.state).1, call.now,
        sensor.history ++ program.published sensor call⟩ := by
  unfold SensorProgram.step at h
  split_ifs at h with hclock
  exact ⟨hclock, (Option.some.inj h).symm⟩

/-- A call keeps that. -/
theorem SensorProgram.Sound.step {σ : Type} {program : SensorProgram σ}
    (hprogram : program.Filters) {sensor sensor' : Sensor σ} {call : SensorCall}
    (hsound : program.Sound sensor) (h : program.step sensor call = some sensor') :
    program.Sound sensor' := by
  obtain ⟨hclock, rfl⟩ := SensorProgram.step_eq_some h
  refine ⟨?_, ?_, ?_⟩
  · show program.timestamp _ ≤ call.now
    rw [hprogram.timestamp]
    split_ifs
    · exact UInt64.le_refl _
    · exact UInt64.le_trans hsound.timestamp hclock
  · rw [hprogram.lastBattery, hprogram.lastPublished_battery, apply_ite UInt32.toNat,
      hsound.battery]
  · rw [hprogram.lastBattery]
    split_ifs with hdrops
    · exact Nat.le_trans (Nat.le_of_lt hdrops) hsound.level
    · exact hsound.level

end NdnRiot
