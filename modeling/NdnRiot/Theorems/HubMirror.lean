import NdnRiot.Logic.Nightlight

/-!
# The status of the hub mirrors its commands

`lastStatus` is set next to each of the five places that publish.
`hubMirrors_every`: over every sequence of readings it is the status the last
command asks for, no switch-off follows another, and an event leads to at most
one command.
-/

namespace NdnRiot

/-- What one event leaves behind. -/
structure Hub.MirrorsAfter (hub : Hub) (e : HubEvent) (hub' : Hub) : Prop where
  status : hub'.state.lastStatus = 1 ↔
    lastCommand hub'.history = none ∨ lastCommand hub'.history = some 111
  binary : hub'.state.lastStatus = 0 ∨ hub'.state.lastStatus = 1
  /-- At most one command, and no switch-off right after another. -/
  published : ∃ commands, hub'.history = hub.history ++ [⟨e, commands⟩] ∧
    commands.length ≤ 1 ∧
    ∀ c ∈ commands, c.commandId = 112 → lastCommand hub.history ≠ some 112

theorem Hub.Mirrors.status_iff {hub : Hub} (h : hub.Mirrors) :
    hub.state.lastStatus = 1 ↔
      lastCommand hub.history = none ∨ lastCommand hub.history = some 111 := by
  rcases h with ⟨hstatus, hlast⟩ | ⟨hstatus, hlast⟩
  · exact iff_of_true hstatus hlast
  · rw [hstatus, hlast]
    decide

/-- A lit hub has not just published a switch-off. -/
theorem Hub.Mirrors.ne_off {hub : Hub} (h : hub.Mirrors) (hlit : hub.state.lastStatus ≠ 0) :
    lastCommand hub.history ≠ some 112 := by
  rcases h with ⟨_, hlast⟩ | ⟨hstatus, _⟩
  · intro hoff
    rw [hoff] at hlast
    exact absurd hlast (by decide)
  · exact absurd hstatus hlit

theorem Hub.Mirrors.after {delayMinutes : UInt32} {hub hub' : Hub} {e : HubEvent}
    (hmirrors : hub.Mirrors) (h : hub.step delayMinutes e = some hub') :
    hub.MirrorsAfter e hub' := by
  have hmirrors' := hmirrors.step h
  refine ⟨hmirrors'.status_iff, hmirrors'.status, ?_⟩
  obtain ⟨_, _, status, commands, rfl, hout⟩ := Hub.step_cases h
  refine ⟨commands, rfl, ?_⟩
  cases hout with
  | off hoff =>
      refine ⟨Nat.le_refl 1, ?_⟩
      intro c _ _
      exact hmirrors.ne_off hoff.1
  | on _ =>
      refine ⟨Nat.le_refl 1, ?_⟩
      intro c hc hid
      rw [List.mem_singleton.mp hc, HubState.switchOn_commandId] at hid
      exact absurd hid (by decide)
  | none _ _ => exact ⟨Nat.zero_le 1, by simp⟩

/-- **Mirror.** Whatever the delay and the readings, and however the clock moves on,
all of them are handled and the status mirrors the commands after each. -/
theorem hubMirrors_every (delayMinutes : UInt32) (events : List HubEvent) :
    Runs.Every (Hub.step delayMinutes) Hub.MirrorsAfter Hub.initial events ∧
      (Timed 0 events →
        ∃ hub, Runs.run (Hub.step delayMinutes) Hub.initial events = some hub) := by
  constructor
  · have hafter : ∀ (hub : Hub) (e : HubEvent) (hub' : Hub), hub.Mirrors → True →
        hub.step delayMinutes e = some hub' → hub.MirrorsAfter e hub' := by
      intro hub e hub' hmirrors _ h
      exact hmirrors.after h
    have hkept : ∀ (hub : Hub) (e : HubEvent) (hub' : Hub), hub.Mirrors → True →
        hub.step delayMinutes e = some hub' → hub'.Mirrors := by
      intro hub e hub' hmirrors _ h
      exact hmirrors.step h
    exact Runs.every_of_invariant hafter hkept Hub.mirrors_initial fun _ _ => trivial
  · intro htimed
    exact Hub.run_isSome htimed

end NdnRiot
