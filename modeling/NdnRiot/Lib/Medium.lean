import Mathlib.Logic.Function.Basic
import NdnRiot.Lib.Run

/-!
# Nodes over an unreliable medium

Nodes of a type `ν`, each in a state of type `σ`, take local actions, which may
put messages on a shared medium, and receive messages from it. The medium keeps
all that was ever put on it, and whatever it keeps may be received at any node,
at any time and any number of times. So it loses, duplicates, delays and
reorders messages as it likes, and every topology is a restriction of it.

* `Program.Keeps` — what a program has to show: the invariant of a node is about
  the state of this node and what is on the medium, each action and each
  reception keeps it, and more messages do not hurt it;
* `Program.Keeps.run` — then it holds at every node after every run.
-/

namespace Medium

/-- What the nodes run. An action gives the new state and the messages put on the
medium, and so does a reception; `ρ` is how a message is received, where there are
several ways. -/
structure Program (ν σ μ α ρ : Type*) where
  act : ν → α → σ → Option (σ × List μ)
  receive : ν → ρ → μ → σ → Option (σ × List μ)

/-- The states of the nodes, and all that was put on the medium. -/
structure Net (ν σ μ : Type*) where
  nodes : ν → σ
  air : List μ

/-- A local action, or the reception of a message. -/
inductive Event (ν μ α ρ : Type*)
  | act (n : ν) (a : α)
  | receive (n : ν) (how : ρ) (m : μ)

variable {ν σ μ α ρ : Type*}

/-- The node that an event is about. -/
def Event.node : Event ν μ α ρ → ν
  | act n _ => n
  | receive n _ _ => n

namespace Program

variable [DecidableEq μ] (p : Program ν σ μ α ρ)

/-- One event: what it makes of the state of its node, and what it puts on the
medium. Only messages on the medium can be received. -/
def effect (air : List μ) (s : σ) : Event ν μ α ρ → Option (σ × List μ)
  | .act n a => p.act n a s
  | .receive n how m => if m ∈ air then p.receive n how m s else none

/-! ## Invariants -/

/-- `good` is what the messages on the medium satisfy, and `I n air s` the invariant
of the node `n` in the state `s`. The events that `G` allows keep both. -/
structure Keeps (p : Program ν σ μ α ρ) (G : Event ν μ α ρ → Prop) (good : μ → Prop)
    (I : ν → List μ → σ → Prop) : Prop where
  grow : ∀ n air more s, I n air s → I n (air ++ more) s
  act : ∀ n a air s s' out, G (.act n a) → (∀ m ∈ air, good m) → I n air s →
    p.act n a s = some (s', out) → (∀ m ∈ out, good m) ∧ I n (air ++ out) s'
  receive : ∀ n how m air s s' out, G (.receive n how m) → (∀ m ∈ air, good m) →
    I n air s → m ∈ air → p.receive n how m s = some (s', out) →
      (∀ m ∈ out, good m) ∧ I n (air ++ out) s'

/-- The invariant of all nodes together. -/
def Invariant (good : μ → Prop) (I : ν → List μ → σ → Prop) (net : Net ν σ μ) : Prop :=
  (∀ m ∈ net.air, good m) ∧ ∀ n, I n net.air (net.nodes n)

variable {p} {G : Event ν μ α ρ → Prop} {good : μ → Prop} {I : ν → List μ → σ → Prop}

/-- What an event puts on the medium is good, and its node keeps the invariant. -/
theorem Keeps.effect (h : p.Keeps G good I) {e : Event ν μ α ρ} (hG : G e)
    {air out : List μ} {s s' : σ} (hgood : ∀ m ∈ air, good m) (hinv : I e.node air s)
    (heffect : p.effect air s e = some (s', out)) :
    (∀ m ∈ out, good m) ∧ I e.node (air ++ out) s' := by
  cases e with
  | act n a => exact h.act n a air s s' out hG hgood hinv heffect
  | receive n how m =>
      simp only [Program.effect] at heffect
      split at heffect
      next hair => exact h.receive n how m air s s' out hG hgood hinv hair heffect
      next => cases heffect

/-! ## The network -/

variable [DecidableEq ν] (p)

/-- One event in the network. -/
def step (net : Net ν σ μ) (e : Event ν μ α ρ) : Option (Net ν σ μ) :=
  (p.effect net.air (net.nodes e.node) e).map fun (s, out) =>
    { nodes := Function.update net.nodes e.node s, air := net.air ++ out }

/-- A run of the network. -/
abbrev run : Net ν σ μ → List (Event ν μ α ρ) → Option (Net ν σ μ) := Runs.run p.step

variable {p}

/-- What one event does to the network. -/
theorem step_eq_some {net net' : Net ν σ μ} {e : Event ν μ α ρ} :
    p.step net e = some net' ↔ ∃ s out,
      p.effect net.air (net.nodes e.node) e = some (s, out) ∧
        net' = { nodes := Function.update net.nodes e.node s, air := net.air ++ out } := by
  simp only [step, Option.map_eq_some_iff, Prod.exists]
  constructor <;> rintro ⟨s, out, heffect, heq⟩ <;> exact ⟨s, out, heffect, heq.symm⟩

/-- **The step rule.** One event keeps the invariant at its node, and at the others
only the medium has grown. -/
theorem Keeps.step (h : p.Keeps G good I) {net net' : Net ν σ μ} {e : Event ν μ α ρ}
    (hinv : Invariant good I net) (hstep : p.step net e = some net') (hG : G e) :
    Invariant good I net' := by
  obtain ⟨s, out, heffect, rfl⟩ := step_eq_some.mp hstep
  obtain ⟨hout, hnode⟩ := h.effect hG hinv.1 (hinv.2 e.node) heffect
  refine ⟨?_, ?_⟩
  · intro m hm
    rcases List.mem_append.mp hm with hm | hm
    · exact hinv.1 m hm
    · exact hout m hm
  · intro n
    by_cases hn : n = e.node
    · subst hn
      show I e.node _ (Function.update net.nodes e.node s e.node)
      rw [Function.update_self]
      exact hnode
    · show I n _ (Function.update net.nodes e.node s n)
      rw [Function.update_of_ne hn]
      exact h.grow n net.air out _ (hinv.2 n)

/-- **The run rule.** -/
theorem Keeps.run (h : p.Keeps G good I) {net net' : Net ν σ μ}
    {events : List (Event ν μ α ρ)} (hinv : Invariant good I net)
    (hG : ∀ e ∈ events, G e) (hrun : p.run net events = some net') :
    Invariant good I net' :=
  Runs.run_invariant_of_every (I := Invariant good I) (G := fun _ e _ => G e)
    (fun _ _ _ hs hstep he => h.step hs hstep he) hinv (Runs.every_of_forall hG) hrun

end Program

end Medium
