import NdnRiot.Model.Nightlight

/-!
# The sensors of the nightlight: `device-illuminance.c` and `device-motion.c`

Each sensor simulates a battery, which is drained by one percent in 600 ms, and a
measured value, a third of a random byte. `service_data_publishing` is called again
and again; it publishes the battery level when it is below the last one, and the
value when it rose by more than 10 since the last one. The comment at the head of
both files promises levels from 1 to 100.

All the arithmetic is unsigned. The clock, in milliseconds, never goes back.
-/

namespace NdnRiot

/-- The services a sensor publishes on, `NDN_SD_BATTERY`, `NDN_SD_ILLUMINANCE` and
`NDN_SD_MOTION`. -/
inductive SensorService
  | battery
  | illuminance
  | motion
  deriving DecidableEq, Repr

/-- A content published by a sensor. -/
structure SensorContent where
  service : SensorService
  identifier : String
  content : List UInt8
  deriving DecidableEq, Repr

/-- `ps_publish_content` of an `uint32_t` value under `"content-id"`. -/
def psPublishContent (service : SensorService) (value : UInt32) : SensorContent :=
  ⟨service, "content-id", uint32Bytes value⟩

/-- `100 - elapsed / 600`, a difference of 64 bits cut to an `uint32_t`. -/
def batteryLevel (elapsed : UInt64) : UInt32 := (100 - elapsed / 600).toUInt32

/-- `dice / 3`. -/
def diceValue (dice : UInt8) : UInt32 := (dice / 3).toUInt32

/-! ## `device-illuminance.c` -/

/-- `state_t` of the illuminance sensor. -/
structure IlluminanceState where
  lastBattery : UInt32
  lastIlluminance : UInt32
  timestamp : UInt64
  deriving DecidableEq, Repr

/-- `state_t state = {100, 0}`, with the timestamp `main` sets before its loop. -/
def IlluminanceState.initial (start : UInt64) : IlluminanceState := ⟨100, 0, start⟩

/-- `service_data_publishing` of the illuminance sensor. -/
def IlluminanceState.serviceDataPublishing (now : UInt64) (dice : UInt8)
    (state : IlluminanceState) : IlluminanceState × List SensorContent :=
  let elapsed := now - state.timestamp
  let battery := batteryLevel elapsed
  let (state, published) :=
    if battery < state.lastBattery then
      ({ state with lastBattery := battery, timestamp := now },
        [psPublishContent .battery battery])
    else (state, [])
  let illuminance := diceValue dice
  if illuminance - state.lastIlluminance > 10 then
    ({ state with lastIlluminance := illuminance },
      published ++ [psPublishContent .illuminance illuminance])
  else (state, published)

/-! ## `device-motion.c` -/

/-- `state_t` of the motion sensor. -/
structure MotionState where
  lastBattery : UInt64
  lastMotion : UInt32
  timestamp : UInt64
  deriving DecidableEq, Repr

/-- `state_t state = {100, 0, 0}`, with the timestamp `main` sets before its loop. -/
def MotionState.initial (start : UInt64) : MotionState := ⟨100, 0, start⟩

/-- `service_data_publishing` of the motion sensor. -/
def MotionState.serviceDataPublishing (now : UInt64) (dice : UInt8) (state : MotionState) :
    MotionState × List SensorContent :=
  let elapsed := now - state.timestamp
  let battery := batteryLevel elapsed
  let (state, published) :=
    if battery.toUInt64 < state.lastBattery then
      ({ state with lastBattery := battery.toUInt64, timestamp := now },
        [psPublishContent .battery battery])
    else (state, [])
  let motion := diceValue dice
  if motion - state.lastMotion > 10 then
    -- the last motion value keeps what it was
    (state, published ++ [psPublishContent .motion motion])
  else (state, published)

/-! ## A sensor at work -/

/-- A sensor program, with what the other one has too. -/
structure SensorProgram (σ : Type) where
  service : SensorService
  initial : UInt64 → σ
  serviceDataPublishing : UInt64 → UInt8 → σ → σ × List SensorContent
  lastBattery : σ → Nat
  lastValue : σ → UInt32
  timestamp : σ → UInt64

def illuminanceSensor : SensorProgram IlluminanceState where
  service := .illuminance
  initial := .initial
  serviceDataPublishing := IlluminanceState.serviceDataPublishing
  lastBattery state := state.lastBattery.toNat
  lastValue state := state.lastIlluminance
  timestamp state := state.timestamp

def motionSensor : SensorProgram MotionState where
  service := .motion
  initial := .initial
  serviceDataPublishing := MotionState.serviceDataPublishing
  lastBattery state := state.lastBattery.toNat
  lastValue state := state.lastMotion
  timestamp state := state.timestamp

/-- One call of `service_data_publishing`: the clock it reads, and its random byte. -/
structure SensorCall where
  now : UInt64
  dice : UInt8
  deriving DecidableEq, Repr

/-- The sensor in its loop. The source keeps no `clock` and no `history`; properties
read them. -/
structure Sensor (σ : Type) where
  state : σ
  clock : UInt64
  history : List SensorContent

namespace SensorProgram

variable {σ : Type} (program : SensorProgram σ)

/-- The sensor when its loop starts. -/
def start (clock : UInt64) : Sensor σ := ⟨program.initial clock, clock, []⟩

/-- What a call publishes. -/
def published (sensor : Sensor σ) (call : SensorCall) : List SensorContent :=
  (program.serviceDataPublishing call.now call.dice sensor.state).2

/-- One call, at a time that is not in the past. -/
def step (sensor : Sensor σ) (call : SensorCall) : Option (Sensor σ) :=
  if sensor.clock ≤ call.now then
    some
      { state := (program.serviceDataPublishing call.now call.dice sensor.state).1
        clock := call.now
        history := sensor.history ++ program.published sensor call }
  else none

end SensorProgram

end NdnRiot
