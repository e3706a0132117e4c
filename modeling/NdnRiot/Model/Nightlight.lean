import NdnRiot.Lib.Run
import NdnRiot.Model.Types

/-!
# The smart nightlight: `smart-nightlight-hub.c` and `device-light.c`

The hub subscribes to a motion and an illuminance sensor and commands the light;
the light derives its switch state from the content of a command. `Hub.step`
handles one reading, `Home.step` also hands the commands published to the light.

A handler reads the clock up to twice, so an event has two times. The clock never
goes back.
-/

namespace NdnRiot

/-! ## `uint32_t` contents -/

/-- The bytes of an `uint32_t` in memory, low byte first. -/
def uint32Bytes (value : UInt32) : List UInt8 :=
  [UInt8.ofNat (value.toNat % 256), UInt8.ofNat (value.toNat / 256 % 256),
    UInt8.ofNat (value.toNat / 65536 % 256), UInt8.ofNat (value.toNat / 16777216)]

/-- `*(uint32_t*)content`. -/
def readUint32 (content : List UInt8) : Except Fault UInt32 := do
  let b0 ← readByte content 0
  let b1 ← readByte content 1
  let b2 ← readByte content 2
  let b3 ← readByte content 3
  return UInt32.ofNat
    (b0.toNat + b1.toNat * 256 + b2.toNat * 65536 + b3.toNat * 16777216)

theorem readUint32_uint32Bytes (value : UInt32) :
    readUint32 (uint32Bytes value) = .ok value := by
  have hlt := value.toNat_lt
  simp only [readUint32, uint32Bytes, readByte, List.getElem?_cons_zero,
    List.getElem?_cons_succ, bind, Except.bind, pure, Except.pure, Except.ok.injEq]
  apply UInt32.toNat_inj.mp
  simp only [UInt32.toNat_ofNat', UInt8.toNat_ofNat']
  omega

theorem readUint32_bind {α : Type} (value : UInt32) (f : UInt32 → Except Fault α) :
    (readUint32 (uint32Bytes value) >>= f) = f value := by
  rw [readUint32_uint32Bytes]
  rfl

/-! ## The hub -/

/-- `state_t` of the hub. -/
structure HubState where
  lastStatus : UInt8
  motionStopTime : UInt64
  deriving DecidableEq, Repr

/-- `state_t state = {1, 0}`. -/
def HubState.initial : HubState := ⟨1, 0⟩

/-- A command published to `NDN_SD_LED`: its id and its content. -/
structure LedCommand where
  commandId : UInt8
  content : List UInt8
  deriving DecidableEq, Repr

/-- `ps_publish_command` with the command id as content. -/
def publishId (commandId : UInt8) : LedCommand := ⟨commandId, [commandId]⟩

/-- `delayMinutes * 60000L`. -/
def delayMs (delayMinutes : UInt32) : UInt64 := delayMinutes.toUInt64 * 60000

/-- `on_illuminance_publish`; the clock is read at `now`, where it is read. -/
def onIlluminancePublish (delayMinutes : UInt32) (content : List UInt8) (now : UInt64)
    (state : HubState) : Except Fault (HubState × List LedCommand) := do
  let illuminance ← readUint32 content
  if state.lastStatus ≠ 0 ∧ illuminance > 50 then
    return ({ state with lastStatus := 0 }, [publishId 112])
  else if state.motionStopTime ≠ 0 then
    if state.lastStatus ≠ 0 then
      let elapsed := now - state.motionStopTime
      if elapsed > delayMs delayMinutes then
        return ({ state with lastStatus := 0 }, [publishId 112])
      else return (state, [])
    else return (state, [])
  else if state.lastStatus ≠ 1 ∧ illuminance < 30 then
    return ({ state with lastStatus := 1 }, [publishId 111])
  else return (state, [])

/-- `turnOffMotion`. -/
def turnOffMotion (delayMinutes : UInt32) (now : UInt64) (state : HubState) :
    HubState × List LedCommand :=
  if state.motionStopTime ≠ 0 ∧ state.lastStatus ≠ 0 then
    let elapsed := now - state.motionStopTime
    if elapsed > delayMs delayMinutes then
      ({ state with lastStatus := 0 }, [publishId 112])
    else (state, [])
  else (state, [])

/-- `on_motion_publish`. The clock is read at `now`, and by `turnOffMotion` at
`later`. -/
def onMotionPublish (delayMinutes : UInt32) (content : List UInt8) (now later : UInt64)
    (state : HubState) : Except Fault (HubState × List LedCommand) := do
  let threshold : UInt32 := 50
  let value ← readUint32 content
  if value > threshold then
    -- the content is the motion value
    return ({ lastStatus := 1, motionStopTime := 0 }, [⟨111, uint32Bytes value⟩])
  else
    let state := { state with motionStopTime := now }
    -- a delay would need a scheduler, which is absent
    if delayMinutes ≠ 0 then return (state, [])
    else return turnOffMotion delayMinutes later state

/-- What a sensor publishes. -/
inductive Reading
  | motion (value : UInt32)
  | illuminance (value : UInt32)
  deriving DecidableEq, Repr

/-- A reading as the hub handles it: the clock when the handler starts, and when it
reads the clock for the last time. -/
structure HubEvent where
  reading : Reading
  now : UInt64
  later : UInt64
  deriving DecidableEq, Repr

/-- The handler of a reading. -/
def HubState.handle (delayMinutes : UInt32) (state : HubState) (e : HubEvent) :
    Except Fault (HubState × List LedCommand) :=
  match e.reading with
  | .motion value => onMotionPublish delayMinutes (uint32Bytes value) e.now e.later state
  | .illuminance value => onIlluminancePublish delayMinutes (uint32Bytes value) e.now state

/-- An event handled, with the commands it made the hub publish. -/
structure Handled where
  event : HubEvent
  commands : List LedCommand
  deriving DecidableEq, Repr

/-- The hub at work. The source keeps no `clock` and no `history`; properties read
them. -/
structure Hub where
  state : HubState
  clock : UInt64
  history : List Handled
  deriving DecidableEq, Repr

def Hub.initial : Hub := ⟨.initial, 0, []⟩

/-- Handle one event, which is not in the past. -/
def Hub.step (delayMinutes : UInt32) (hub : Hub) (e : HubEvent) : Option Hub :=
  if hub.clock ≤ e.now ∧ e.now ≤ e.later then
    match hub.state.handle delayMinutes e with
    | .error _ => none
    | .ok (state, commands) =>
        some { state, clock := e.later, history := hub.history ++ [⟨e, commands⟩] }
  else none

/-! ## The light -/

/-- `state_t` of the light. The source spells the first field `last_switich` where
it declares it and `last_switch` where it uses it. -/
structure LightState where
  lastSwitch : UInt32
  lastColor : UInt32
  deriving DecidableEq, Repr

/-- `state_t state = {111, 201}`. -/
def LightState.initial : LightState := ⟨111, 201⟩

/-- The services the light publishes on, `NDN_SD_LED` and `NDN_SD_COLOR`. -/
inductive LightService
  | led
  | color
  deriving DecidableEq, Repr

/-- A content published by the light. -/
structure LightContent where
  service : LightService
  identifier : String
  content : List UInt8
  deriving DecidableEq, Repr

/-- `service_data_publishing`. -/
def serviceDataPublishing (state : LightState) : List LightContent :=
  [⟨.led, "state", uint32Bytes state.lastSwitch⟩,
    ⟨.color, "state", uint32Bytes state.lastColor⟩]

/-- `on_switich_command`. -/
def onSwitichCommand (content : List UInt8) (state : LightState) :
    Except Fault (LightState × List LightContent) := do
  let value ← readUint32 content
  let state := { state with lastSwitch := if value = 111 then 112 else 111 }
  return (state, serviceDataPublishing state)

/-! ## The hub and the light -/

/-- The hub and the light it commands; the light ends with the first fault. -/
structure Home where
  hub : Hub
  light : Except Fault LightState

def Home.initial : Home := ⟨.initial, .ok .initial⟩

/-- Hand commands to the light, in order. -/
def deliver (light : Except Fault LightState) (commands : List LedCommand) :
    Except Fault LightState :=
  commands.foldl (fun light c => do return (← onSwitichCommand c.content (← light)).1) light

/-- The commands of the last event. -/
def Hub.published (hub : Hub) : List LedCommand :=
  (hub.history.getLast?.map (·.commands)).getD []

/-- One event at the hub, and the delivery of what it publishes. -/
def Home.step (delayMinutes : UInt32) (home : Home) (e : HubEvent) : Option Home :=
  (home.hub.step delayMinutes e).map fun hub =>
    { hub, light := deliver home.light hub.published }

end NdnRiot
