import NdnRiot.Lib.Run
import NdnRiot.Model.Types

/-!
# The control program

`control.c` publishes one command to a motion sensor: its loop waits for a second after
the start, and a flag keeps it from publishing again. `state.timestamp` has 32 bits, the
clock of microseconds has 64.
-/

namespace NdnRiot

/-- What `ps_publish_command` is called with. -/
structure ServiceCommand where
  service : UInt8
  commandId : List UInt8
  identifiers : List String
  content : List UInt8
  deriving DecidableEq, Repr

/-- The command that the loop of `main` publishes: `NDN_SD_MOTION` is 20. -/
def motionCommand : ServiceCommand :=
  let commandId : UInt8 := 112
  ⟨20, [commandId], ["living", "motion_sensor9"], [commandId]⟩

/-- `state.timestamp`, and the local `cmd_generation` of `main`. The program uses no
other field of `state`. -/
structure ControlState where
  timestamp : UInt32
  cmdGeneration : Bool
  deriving DecidableEq, Repr

/-- What `main` sets before its loop. The assignment keeps 32 bits of the clock. -/
def ControlState.initial (start : UInt64) : ControlState := ⟨start.toUInt32, true⟩

/-- One pass of the loop: the timestamp is extended for the subtraction. -/
def ControlState.pass (now : UInt64) (state : ControlState) :
    ControlState × List ServiceCommand :=
  if now - state.timestamp.toUInt64 > 1000000 ∧ state.cmdGeneration then
    ({ state with cmdGeneration := false }, [motionCommand])
  else (state, [])

/-- The program in its loop. The source keeps no `clock` and no `published`; properties
read them. -/
structure Control where
  state : ControlState
  clock : UInt64
  published : List (UInt64 × ServiceCommand)

/-- The program when its loop starts. -/
def Control.start (clock : UInt64) : Control := ⟨.initial clock, clock, []⟩

/-- One pass, at a time that is not in the past. -/
def Control.step (control : Control) (now : UInt64) : Option Control :=
  if control.clock ≤ now then
    some
      { state := (control.state.pass now).1
        clock := now
        published := control.published ++ (control.state.pass now).2.map (now, ·) }
  else none

end NdnRiot
