import Mathlib.Data.List.Basic

/-!
# Runs of a partial step function

A system is a state type `σ`, an action type `α` and a step function
`step : σ → α → Option σ` that is `none` where the action is not enabled. A
run is a list of actions. This module packages the inductions over runs that
every safety argument uses:

* `run_invariant_of_every` — what holds initially and is preserved by every step
  meeting a guard holds after every run all of whose steps meet it;
* `run_iff_every` — a property that steps keep exactly when they meet a guard
  holds after exactly the runs whose steps all meet it;
* `every_congr` — two step properties that agree in the presence of an
  invariant hold of the same runs. It turns "this step breaks the property
  exactly when it misses this guard" into "a run keeps the property exactly
  when all its steps meet the guard".
-/

namespace Runs

variable {σ α : Type*} (step : σ → α → Option σ)

/-- The state after the actions; `none` once one of them is not enabled. -/
def run : σ → List α → Option σ
  | s, [] => some s
  | s, a :: rest => (step s a).bind fun s' => run s' rest

/-- `Every Q s acts`: each step `s₁ -a→ s₂` the run takes satisfies `Q s₁ a s₂`. -/
def Every (Q : σ → α → σ → Prop) : σ → List α → Prop
  | _, [] => True
  | s, a :: rest => ∀ s', step s a = some s' → Q s a s' ∧ Every Q s' rest

@[simp] theorem run_nil (s : σ) : run step s [] = some s := rfl

theorem run_cons (s : σ) (a : α) (rest : List α) :
    run step s (a :: rest) = (step s a).bind fun s' => run step s' rest := rfl

theorem run_cons_eq_some {s t : σ} {a : α} {rest : List α} :
    run step s (a :: rest) = some t ↔
      ∃ s', step s a = some s' ∧ run step s' rest = some t := by
  simp [run_cons, Option.bind_eq_some_iff]

variable {step}

/-- Along a run, steps are taken one after the other and tested. -/
instance Every.decidable (Q : σ → α → σ → Prop) [∀ s a s', Decidable (Q s a s')] :
    ∀ (s : σ) (acts : List α), Decidable (Every step Q s acts)
  | _, [] => isTrue trivial
  | s, a :: rest =>
      match hstep : step s a with
      | none => isTrue fun s' hs' => absurd (hstep.symm.trans hs') (by simp)
      | some s₁ =>
          have : Decidable (Every step Q s₁ rest) := Every.decidable Q s₁ rest
          decidable_of_iff (Q s a s₁ ∧ Every step Q s₁ rest)
            ⟨fun h s' hs' => Option.some.inj (hstep.symm.trans hs') ▸ h, fun h => h s₁ hstep⟩

/-- **Guarded invariance.** An invariant that only the steps meeting a guard
preserve holds after every run all of whose steps meet it. -/
theorem run_invariant_of_every {I : σ → Prop} {G : σ → α → σ → Prop}
    (preserved : ∀ s a s', I s → step s a = some s' → G s a s' → I s') :
    ∀ {acts : List α} {s t : σ}, I s → Every step G s acts →
      run step s acts = some t → I t := by
  intro acts
  induction acts with
  | nil =>
      intro s t hI _ hrun
      obtain rfl : s = t := by simpa using hrun
      exact hI
  | cons a rest ih =>
      intro s t hI hguard hrun
      obtain ⟨s', hstep, hrest⟩ := (run_cons_eq_some step).mp hrun
      obtain ⟨hG, hGrest⟩ := hguard s' hstep
      exact ih (preserved s a s' hI hstep hG) hGrest hrest

/-- A property of the actions alone holds of every step. -/
theorem every_of_forall {G : α → Prop} :
    ∀ {acts : List α} {s : σ}, (∀ a ∈ acts, G a) → Every step (fun _ a _ => G a) s acts := by
  intro acts
  induction acts with
  | nil => intro s _; trivial
  | cons a rest ih =>
      intro s hall s' _
      exact ⟨hall a List.mem_cons_self, ih fun b hb => hall b (List.mem_cons_of_mem _ hb)⟩

/-- **Exactness.** Where an invariant makes `Q` and `G` agree on every step,
and the steps meeting `G` preserve the invariant, the runs all of whose steps
satisfy `Q` are the runs all of whose steps satisfy `G`. -/
theorem every_congr {I : σ → Prop} {Q G : σ → α → σ → Prop}
    (agree : ∀ s a s', I s → step s a = some s' → (Q s a s' ↔ G s a s'))
    (preserved : ∀ s a s', I s → step s a = some s' → G s a s' → I s') :
    ∀ {acts : List α} {s : σ}, I s →
      (Every step Q s acts ↔ Every step G s acts) := by
  intro acts
  induction acts with
  | nil => intro s _; exact Iff.rfl
  | cons a rest ih =>
      intro s hI
      refine forall₂_congr fun s' hstep => ?_
      have hag := agree s a s' hI hstep
      constructor
      · rintro ⟨hQ, hrest⟩
        have hG := hag.mp hQ
        exact ⟨hG, (ih (preserved s a s' hI hstep hG)).mp hrest⟩
      · rintro ⟨hG, hrest⟩
        exact ⟨hag.mpr hG, (ih (preserved s a s' hI hstep hG)).mpr hrest⟩

/-- **Accumulation.** `Q` holds after a step exactly where it held before and the
step met a guard. Then a run of actions in `A` ends in `Q` exactly when it
started there and all its steps met the guard. -/
theorem run_iff_every {I Q : σ → Prop} {A : α → Prop} {G : σ → α → σ → Prop}
    (grow : ∀ s a s', I s → A a → step s a = some s' → (Q s' ↔ Q s ∧ G s a s'))
    (preserved : ∀ s a s', I s → A a → step s a = some s' → I s') :
    ∀ {acts : List α} {s t : σ}, I s → (∀ a ∈ acts, A a) → run step s acts = some t →
      (Q t ↔ Q s ∧ Every step G s acts) := by
  intro acts
  induction acts with
  | nil =>
      intro s t _ _ hrun
      obtain rfl : s = t := by simpa using hrun
      simp [Every]
  | cons a rest ih =>
      intro s t hI hacts hrun
      obtain ⟨s', hstep, hrest⟩ := (run_cons_eq_some step).mp hrun
      have ha := hacts a List.mem_cons_self
      have hrec := ih (preserved s a s' hI ha hstep)
        (fun b hb => hacts b (List.mem_cons_of_mem _ hb)) hrest
      rw [hrec, grow s a s' hI ha hstep, and_assoc]
      refine and_congr_right fun _ => ⟨?_, fun hevery => hevery s' hstep⟩
      intro h s'' hstep'
      obtain rfl : s' = s'' := Option.some.inj (hstep.symm.trans hstep')
      exact h

/-- Two properties of every step. -/
theorem every_and {Q G : σ → α → σ → Prop} :
    ∀ {acts : List α} {s : σ}, Every step Q s acts → Every step G s acts →
      Every step (fun s a s' => Q s a s' ∧ G s a s') s acts := by
  intro acts
  induction acts with
  | nil => intro s _ _; trivial
  | cons a rest ih =>
      intro s hQ hG s' hstep
      exact ⟨⟨(hQ s' hstep).1, (hG s' hstep).1⟩, ih (hQ s' hstep).2 (hG s' hstep).2⟩

/-- Every step of a run of actions in `A` satisfies what an invariant gives for
such steps. -/
theorem every_of_invariant {I : σ → Prop} {A : α → Prop} {Q : σ → α → σ → Prop}
    (holds : ∀ s a s', I s → A a → step s a = some s' → Q s a s')
    (preserved : ∀ s a s', I s → A a → step s a = some s' → I s') :
    ∀ {acts : List α} {s : σ}, I s → (∀ a ∈ acts, A a) → Every step Q s acts := by
  intro acts
  induction acts with
  | nil => intro s _ _; trivial
  | cons a rest ih =>
      intro s hI hacts s' hstep
      have ha := hacts a List.mem_cons_self
      exact ⟨holds s a s' hI ha hstep, ih (preserved s a s' hI ha hstep)
        fun b hb => hacts b (List.mem_cons_of_mem _ hb)⟩

end Runs
