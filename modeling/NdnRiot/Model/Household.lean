import NdnRiot.Lib.Medium
import NdnRiot.Model.Sensors

/-!
# The nightlight in a household

Any number of the four programs, each on a device of its own, share a pub-sub service
that may lose, duplicate, delay and reorder what they publish (`Lib.Medium`). Sensors
call their `service_data_publishing` in their loop, and so does a light; a hub handles
the contents of the two services it subscribes to. `on_switich_command` of a light is
written for the commands to `NDN_SD_LED`, but nothing in `device-light.c` subscribes it; a
light is here with and without the subscription.

A light that reads beyond a command goes on with what it finds there.
-/

namespace NdnRiot

/-- What the programs publish. -/
inductive Publication
  | sensor (c : SensorContent)
  | command (c : LedCommand)
  | light (c : LightContent)
  deriving DecidableEq, Repr

/-- A program at work. A hub ends with its first fault, a light where its memory ends.
`subscribed` tells whether the commands to `NDN_SD_LED` get to `on_switich_command`. -/
inductive Appliance
  | motionSensor (sensor : Sensor MotionState)
  | illuminanceSensor (sensor : Sensor IlluminanceState)
  | hub (delayMinutes : UInt32) (state : Except Fault HubState)
  | light (subscribed : Bool) (state : Except Fault LightState)

/-- What a handler finds: the clock when it starts, and when it reads the clock for the
last time, and the memory behind the content. -/
structure HandlerRun where
  now : UInt64
  later : UInt64
  behind : List UInt8
  deriving DecidableEq, Repr

/-- Run a handler: the appliance it leaves, and what it publishes. After a fault nothing
runs any more. -/
def runHandler {σ β : Type} (appliance : Except Fault σ → Appliance)
    (publication : β → Publication) (state : Except Fault σ)
    (handler : σ → Except Fault (σ × List β)) : Appliance × List Publication :=
  match state with
  | .error fault => (appliance (.error fault), [])
  | .ok s =>
      match handler s with
      | .error fault => (appliance (.error fault), [])
      | .ok (s, published) => (appliance (.ok s), published.map publication)

namespace Appliance

/-- One iteration of the loop of a program, as far as it publishes. The loop of a hub
only handles what is received. -/
def loop (call : SensorCall) : Appliance → Option (Appliance × List Publication)
  | motionSensor sensor =>
      (NdnRiot.motionSensor.step sensor call).map fun next =>
        (motionSensor next, (NdnRiot.motionSensor.published sensor call).map .sensor)
  | illuminanceSensor sensor =>
      (NdnRiot.illuminanceSensor.step sensor call).map fun next =>
        (illuminanceSensor next, (NdnRiot.illuminanceSensor.published sensor call).map .sensor)
  | hub _ _ => none
  | light subscribed state =>
      some (runHandler (light subscribed) .light state fun s => .ok (s, serviceDataPublishing s))

/-- A publication is received where there is a subscription to it. -/
def receive (run : HandlerRun) (m : Publication) : Appliance → Option (Appliance × List Publication)
  | hub delayMinutes state =>
      match m with
      | .sensor c =>
          if run.now ≤ run.later then
            match c.service with
            | .motion =>
                some (runHandler (hub delayMinutes) .command state
                  (onMotionPublish delayMinutes c.content run.now run.later))
            | .illuminance =>
                some (runHandler (hub delayMinutes) .command state
                  (onIlluminancePublish delayMinutes c.content run.now))
            | .battery => none
          else none
      | .command _ | .light _ => none
  | light subscribed state =>
      match m with
      | .command c =>
          if subscribed then
            some (runHandler (light subscribed) .light state
              (onSwitichCommand (c.content ++ run.behind)))
          else none
      | .sensor _ | .light _ => none
  | motionSensor _ | illuminanceSensor _ => none

/-- A program before the first iteration of its loop. -/
def Initial : Appliance → Prop
  | motionSensor sensor => ∃ clock, sensor = NdnRiot.motionSensor.start clock
  | illuminanceSensor sensor => ∃ clock, sensor = NdnRiot.illuminanceSensor.start clock
  | hub _ state => state = .ok .initial
  | light _ state => state = .ok .initial

end Appliance

/-- The programs and the pub-sub service. -/
def householdProgram (ν : Type*) :
    Medium.Program ν Appliance Publication SensorCall HandlerRun where
  act _ call appliance := appliance.loop call
  receive _ run m appliance := appliance.receive run m

/-- The devices of a household, and what they published. -/
abbrev Household (ν : Type*) := Medium.Net ν Appliance Publication

/-- What happens in a household. -/
abbrev HouseholdEvent (ν : Type*) := Medium.Event ν Publication SensorCall HandlerRun

end NdnRiot
