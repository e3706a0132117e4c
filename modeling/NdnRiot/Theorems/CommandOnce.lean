import NdnRiot.Model.Control

/-!
# One command, and when

In every run `control.c` publishes its command at the first pass whose clock is more than
a second beyond the timestamp, and never again. The timestamp is the start only where the
start fits 32 bits: a program started after 2³² µs publishes at its first pass.
-/

namespace NdnRiot

open Runs

/-- The clock is more than a second beyond the timestamp. -/
def Late (timestamp : UInt32) (now : UInt64) : Bool :=
  timestamp.toNat + 1000000 < now.toNat

/-- The test of the loop, for a clock that is not before the timestamp. -/
theorem late_iff {timestamp : UInt32} {now : UInt64} (h : timestamp.toNat ≤ now.toNat) :
    now - timestamp.toUInt64 > 1000000 ↔ Late timestamp now := by
  have hle : timestamp.toUInt64 ≤ now := by
    rw [UInt64.le_iff_toNat_le, UInt32.toNat_toUInt64]
    exact h
  rw [gt_iff_lt, UInt64.lt_iff_toNat_lt, UInt64.toNat_sub_of_le _ _ hle, UInt32.toNat_toUInt64,
    show (1000000 : UInt64).toNat = 1000000 from rfl, Late, decide_eq_true_iff]
  omega

/-- What passes at these times publish. -/
def ControlState.due (state : ControlState) (times : List UInt64) :
    List (UInt64 × ServiceCommand) :=
  if state.cmdGeneration then
    ((times.find? (Late state.timestamp)).map (·, motionCommand)).toList
  else []

/-- One pass publishes what is due at it, and leaves the rest to the passes after it. -/
theorem ControlState.due_cons {state : ControlState} {now : UInt64}
    (h : state.timestamp.toNat ≤ now.toNat) (rest : List UInt64) :
    (state.pass now).1.timestamp = state.timestamp ∧
      state.due (now :: rest) =
        (state.pass now).2.map (now, ·) ++ (state.pass now).1.due rest := by
  unfold ControlState.pass
  split_ifs with hlate
  · obtain ⟨hlate, hgeneration⟩ := hlate
    refine ⟨rfl, ?_⟩
    show state.due (now :: rest) = [(now, motionCommand)] ++ []
    rw [ControlState.due, if_pos hgeneration, List.find?_cons_of_pos ((late_iff h).mp hlate)]
    rfl
  · refine ⟨rfl, ?_⟩
    show state.due (now :: rest) = [] ++ state.due rest
    unfold ControlState.due
    split_ifs with hgeneration
    · rw [List.find?_cons_of_neg fun hfound => hlate ⟨(late_iff h).mpr hfound, hgeneration⟩,
        List.nil_append]
    · rfl

/-- A run publishes what is due at its times. -/
theorem Control.run_published {control control' : Control} {times : List UInt64}
    (hstart : control.state.timestamp.toNat ≤ control.clock.toNat)
    (hrun : run Control.step control times = some control') :
    control'.published = control.published ++ control.state.due times := by
  induction times generalizing control with
  | nil =>
      obtain rfl : control = control' := Option.some.inj hrun
      have hnone : control.state.due [] = [] := by unfold ControlState.due; split_ifs <;> rfl
      rw [hnone, List.append_nil]
  | cons now rest ih =>
      obtain ⟨next, hstep, hrest⟩ := (run_cons_eq_some _).mp hrun
      unfold Control.step at hstep
      split_ifs at hstep with hclock
      obtain rfl := Option.some.inj hstep
      have hnow : control.state.timestamp.toNat ≤ now.toNat :=
        Nat.le_trans hstart (UInt64.le_iff_toNat_le.mp hclock)
      obtain ⟨hsame, hdue⟩ := ControlState.due_cons hnow rest
      have hpublished := ih (by show _ ≤ now.toNat; rw [hsame]; exact hnow) hrest
      rw [hpublished, hdue, List.append_assoc]

/-- A second passes before the command, in every run from this start. -/
def KeepsSecond (start : UInt64) : Prop :=
  ∀ times control, run Control.step (Control.start start) times = some control →
    ∀ published ∈ control.published, start.toNat + 1000000 < published.1.toNat

/-- The timestamp is what 32 bits keep of the start. -/
theorem initial_timestamp (start : UInt64) :
    (ControlState.initial start).timestamp.toNat = start.toNat % UInt32.size :=
  UInt64.toNat_toUInt32 start

/-- A run from a start publishes at its first late pass. -/
theorem Control.published_eq {start : UInt64} {times : List UInt64} {control : Control}
    (hrun : run Control.step (Control.start start) times = some control) :
    control.published =
      ((times.find? fun now => start.toNat % UInt32.size + 1000000 < now.toNat).map
        (·, motionCommand)).toList := by
  have hcut := initial_timestamp start
  have hle : (ControlState.initial start).timestamp.toNat ≤ start.toNat := by
    rw [hcut]
    exact Nat.mod_le _ _
  rw [Control.run_published hle hrun]
  show ((times.find? (Late (ControlState.initial start).timestamp)).map _).toList = _
  unfold Late
  rw [hcut]

/-- The first pass may come at the start itself. -/
theorem Control.pass_at_start (start : UInt64) :
    ∃ control, run Control.step (Control.start start) [start] = some control := by
  have hclock : (Control.start start).clock ≤ start := UInt64.le_refl start
  rw [run_cons, Control.step, if_pos hclock]
  exact ⟨_, rfl⟩

/-- The second is kept where the timestamp is the start. -/
theorem keepsSecond_iff (start : UInt64) : KeepsSecond start ↔ start.toNat < UInt32.size := by
  constructor
  · intro hkeeps
    by_contra hlarge
    -- the timestamp is 2³² or more before the start: the pass at the start is late
    have hlate : start.toNat % UInt32.size + 1000000 < start.toNat := by
      rw [show UInt32.size = 4294967296 from rfl] at hlarge ⊢
      omega
    obtain ⟨control, hrun⟩ := Control.pass_at_start start
    have hpublished : control.published = [(start, motionCommand)] := by
      rw [Control.published_eq hrun, List.find?_cons_of_pos (by exact decide_eq_true hlate)]
      rfl
    have hearly : start.toNat + 1000000 < start.toNat :=
      hkeeps _ _ hrun (start, motionCommand) (by rw [hpublished]; exact List.mem_cons_self)
    omega
  · intro hsmall times control hrun published hmem
    rw [Control.published_eq hrun, Nat.mod_eq_of_lt hsmall, Option.mem_toList,
      Option.map_eq_some_iff] at hmem
    obtain ⟨now, hfind, rfl⟩ := hmem
    have hlate := List.find?_some hfind
    exact of_decide_eq_true hlate

/-- **One command.** Whatever the times of its passes, the program publishes at the first
late one and at no other. Where the start fits 32 bits, and only there, that is more than
a second after the start in every run. -/
theorem command_once (start : UInt64) :
    (∀ times control, run Control.step (Control.start start) times = some control →
      control.published =
        ((times.find? fun now => start.toNat % UInt32.size + 1000000 < now.toNat).map
          (·, motionCommand)).toList) ∧
      (KeepsSecond start ↔ start.toNat < UInt32.size) :=
  ⟨fun _ _ hrun => Control.published_eq hrun, keepsSecond_iff start⟩

/-- Four passes around the end of the second, after a start that fits 32 bits, and one
pass at a start of 2³² µs. -/
theorem command_once_runs :
    (∃ control,
      run Control.step (Control.start 5000) [5000, 1005000, 1005001, 2000000] = some control ∧
        control.published = [(1005001, motionCommand)]) ∧
    ∃ control, run Control.step (Control.start 4294967296) [4294967296] = some control ∧
      control.published = [(4294967296, motionCommand)] := by
  constructor
  · obtain ⟨control, hrun⟩ := Option.isSome_iff_exists.mp
      (show (run Control.step (Control.start 5000)
        [5000, 1005000, 1005001, 2000000]).isSome = true by decide)
    refine ⟨control, hrun, ((command_once 5000).1 _ control hrun).trans ?_⟩
    simp [UInt32.size]
  · obtain ⟨control, hrun⟩ := Control.pass_at_start 4294967296
    refine ⟨control, hrun, ((command_once 4294967296).1 _ control hrun).trans ?_⟩
    simp [UInt32.size]

end NdnRiot
