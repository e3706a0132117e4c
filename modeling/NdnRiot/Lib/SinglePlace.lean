import Mathlib.Data.List.Basic
import Mathlib.Logic.Function.Basic

/-!
# A server with a single place and no queue

Jobs come in pieces, numbered from zero. The server works on one job at a time: an
empty place takes the first piece of a job, and then only the next piece of this job,
until the job is done. Whatever else comes is lost. `direct` jobs need no place.

* `step`, `serve` — one piece, a list of pieces;
* `Rest` — the pieces still to come, where every job comes whole and in order;
* `serve_idle` — then the place is empty in the end, whatever the interleaving;
* `serve_nodup` — no job is served twice;
* `served_iff` — and a job is served exactly if it does not start between the first
  piece and the last one of a job that is served.
-/

namespace SinglePlace

variable {κ : Type*}

/-- Jobs: the number of pieces, whether a job needs no place, and which of its pieces
there is room for. A job that needs no place is of one piece. -/
structure Jobs (κ : Type*) where
  size : κ → Nat
  direct : κ → Bool
  room : κ → Nat → Bool
  size_direct : ∀ j, direct j = true → size j = 1

variable [DecidableEq κ] (J : Jobs κ)

/-- One piece: what is in the place then, a job and the number of its next piece, and
the job that is done. -/
def step (place : Option (κ × Nat)) (piece : κ × Nat) : Option (κ × Nat) × Option κ :=
  if J.direct piece.1 = true then (place, some piece.1)
  else if (place = none ∧ piece.2 = 0 ∨ place = some piece) ∧
      J.room piece.1 piece.2 = true then
    if piece.2 + 1 < J.size piece.1 then (some (piece.1, piece.2 + 1), none)
    else (none, some piece.1)
  else (place, none)

/-- A list of pieces: what is in the place in the end, and the jobs done. -/
def serve (place : Option (κ × Nat)) : List (κ × Nat) → Option (κ × Nat) × List κ
  | [] => (place, [])
  | piece :: rest =>
      ((serve (step J place piece).1 rest).1,
        (step J place piece).2.toList ++ (serve (step J place piece).1 rest).2)

@[simp] theorem serve_nil (place : Option (κ × Nat)) : serve J place [] = (place, []) := rfl

theorem serve_cons (place : Option (κ × Nat)) (piece : κ × Nat) (rest : List (κ × Nat)) :
    serve J place (piece :: rest) =
      ((serve J (step J place piece).1 rest).1,
        (step J place piece).2.toList ++ (serve J (step J place piece).1 rest).2) := rfl

theorem serve_append (place : Option (κ × Nat)) (xs ys : List (κ × Nat)) :
    serve J place (xs ++ ys) =
      ((serve J (serve J place xs).1 ys).1,
        (serve J place xs).2 ++ (serve J (serve J place xs).1 ys).2) := by
  induction xs generalizing place with
  | nil => simp
  | cons piece rest ih => simp only [List.cons_append, serve_cons, ih, List.append_assoc]

/-- Only a piece of it gets a job done. -/
theorem exists_of_mem_serve {place : Option (κ × Nat)} {pieces : List (κ × Nat)} {j : κ}
    (h : j ∈ (serve J place pieces).2) : ∃ k, (j, k) ∈ pieces := by
  induction pieces generalizing place with
  | nil => cases h
  | cons piece rest ih =>
      rw [serve_cons, List.mem_append] at h
      rcases h with h | h
      · refine ⟨piece.2, ?_⟩
        obtain rfl : piece.1 = j := by
          unfold step at h
          split_ifs at h <;> simp_all
        exact List.mem_cons_self
      · obtain ⟨k, hk⟩ := ih h
        exact ⟨k, List.mem_cons_of_mem _ hk⟩

/-- A job that needs no place is done. -/
theorem mem_serve_of_direct {place : Option (κ × Nat)} {pieces : List (κ × Nat)} {j : κ}
    (hdirect : J.direct j = true) {k : Nat} (h : (j, k) ∈ pieces) :
    j ∈ (serve J place pieces).2 := by
  induction pieces generalizing place with
  | nil => cases h
  | cons piece rest ih =>
      rw [serve_cons]
      rcases List.mem_cons.mp h with rfl | h
      · refine List.mem_append_left _ ?_
        rw [step, if_pos hdirect]
        exact List.mem_cons_self
      · exact List.mem_append_right _ (ih h)

/-! ## Jobs that come whole -/

/-- The job occurs among the pieces. -/
def Occurs (j : κ) (pieces : List (κ × Nat)) : Prop := ∃ k, (j, k) ∈ pieces

/-- What is still to come of jobs that come whole and in order, when `seen j` pieces of
the job `j` came before. -/
def Rest (seen : κ → Nat) (pieces : List (κ × Nat)) : Prop :=
  ∀ j, (0 < seen j ∨ Occurs j pieces) → seen j ≤ J.size j ∧
    pieces.filter (fun piece => piece.1 = j) =
      (List.range' (seen j) (J.size j - seen j)).map fun k => (j, k)

/-- What is in the place is a job that is under way. -/
def Working (seen : κ → Nat) : Option (κ × Nat) → Prop
  | none => True
  | some (j, k) => J.direct j = false ∧ 0 < k ∧ k = seen j ∧ k < J.size j

variable {J} {seen : κ → Nat} {place : Option (κ × Nat)} {pieces : List (κ × Nat)}

/-- The next piece of a job is the one after those seen. -/
theorem Rest.cons {j : κ} {k : Nat} (h : Rest J seen ((j, k) :: pieces)) :
    k = seen j ∧ k < J.size j ∧ Rest J (Function.update seen j (k + 1)) pieces := by
  obtain ⟨_, hj⟩ := h j (.inr ⟨k, List.mem_cons_self⟩)
  rw [List.filter_cons_of_pos (by simp)] at hj
  obtain ⟨n, hn⟩ : ∃ n, J.size j - seen j = n + 1 := by
    cases hleft : J.size j - seen j with
    | zero =>
        rw [hleft] at hj
        cases hj
    | succ n => exact ⟨n, rfl⟩
  rw [hn, List.range'_succ, List.map_cons] at hj
  obtain ⟨hfirst, hrest⟩ := List.cons.inj hj
  obtain rfl : k = seen j := (Prod.mk.inj hfirst).2
  refine ⟨rfl, by omega, ?_⟩
  intro i hi
  by_cases hij : i = j
  · subst hij
    rw [Function.update_self]
    refine ⟨by omega, ?_⟩
    rw [hrest, show J.size i - (seen i + 1) = n by omega]
  · rw [Function.update_of_ne hij] at hi ⊢
    have hskip : ((j, seen j) :: pieces).filter (fun piece => piece.1 = i) =
        pieces.filter fun piece => piece.1 = i :=
      List.filter_cons_of_neg (by simpa using fun heq => hij heq.symm)
    rw [← hskip]
    exact h i (hi.imp_right fun ⟨m, hm⟩ => ⟨m, List.mem_cons_of_mem _ hm⟩)

/-- A job of which all pieces were seen does not come again. -/
theorem Rest.not_occurs {j : κ} (h : Rest J seen pieces) (hseen : 0 < seen j)
    (hall : seen j = J.size j) : ¬ Occurs j pieces := by
  rintro ⟨k, hmem⟩
  obtain ⟨_, hj⟩ := h j (.inl hseen)
  rw [hall, Nat.sub_self] at hj
  have hin : (j, k) ∈ pieces.filter fun piece => piece.1 = j :=
    List.mem_filter.mpr ⟨hmem, by simp⟩
  rw [hj] at hin
  cases hin

/-- A job of which pieces are missing comes again. -/
theorem Rest.occurs {j : κ} (h : Rest J seen pieces) (hseen : 0 < seen j)
    (hleft : seen j < J.size j) : Occurs j pieces := by
  obtain ⟨_, hj⟩ := h j (.inl hseen)
  have hin : (j, seen j) ∈ (List.range' (seen j) (J.size j - seen j)).map fun k => (j, k) :=
    List.mem_map.mpr ⟨seen j, List.mem_range'_1.mpr ⟨Nat.le_refl _, by omega⟩, rfl⟩
  rw [← hj] at hin
  exact ⟨seen j, (List.mem_filter.mp hin).1⟩

section Whole

variable (hroom : ∀ j k, J.direct j = false → k < J.size j → J.room j k = true)

include hroom

/-- One piece of a job that comes whole: it is direct, it is taken, or it is lost while
another job is in the place or was not taken from its start. -/
theorem step_cases {j : κ} {k : Nat} (hrest : Rest J seen ((j, k) :: pieces))
    (hwork : Working J seen place) :
    (J.direct j = true ∧ step J place (j, k) = (place, some j)) ∨
    (J.direct j = false ∧ (place = none ∧ k = 0 ∨ place = some (j, k)) ∧
      ((k + 1 < J.size j ∧ step J place (j, k) = (some (j, k + 1), none)) ∨
        (k + 1 = J.size j ∧ step J place (j, k) = (none, some j)))) ∨
    (J.direct j = false ∧ step J place (j, k) = (place, none) ∧
      (place = none → 0 < k) ∧ ∀ i m, place = some (i, m) → i ≠ j) := by
  obtain ⟨hk, hsize, _⟩ := hrest.cons
  unfold step
  cases hdirect : J.direct j with
  | true => exact .inl ⟨rfl, if_pos rfl⟩
  | false =>
      right
      rw [if_neg (by simp)]
      by_cases htake : place = none ∧ k = 0 ∨ place = some (j, k)
      · refine .inl ⟨rfl, htake, ?_⟩
        rw [if_pos ⟨htake, hroom j k hdirect hsize⟩]
        by_cases hmore : k + 1 < J.size j
        · exact .inl ⟨hmore, if_pos hmore⟩
        · exact .inr ⟨by omega, if_neg hmore⟩
      · refine .inr ⟨rfl, if_neg fun h => htake h.1, ?_, ?_⟩
        · intro hnone
          by_contra hzero
          exact htake (.inl ⟨hnone, by omega⟩)
        · rintro i m rfl rfl
          obtain ⟨_, _, hm, _⟩ := hwork
          exact htake (.inr (by rw [hm, hk]))

/-- What is in the place stays a job under way. -/
theorem Working.step {j : κ} {k : Nat} (hrest : Rest J seen ((j, k) :: pieces))
    (hwork : Working J seen place) :
    Working J (Function.update seen j (k + 1)) (step J place (j, k)).1 := by
  obtain ⟨hk, hsize, _⟩ := hrest.cons
  have hother : (∀ i m, place = some (i, m) → i ≠ j) →
      Working J (Function.update seen j (k + 1)) place := by
    intro hne
    cases place with
    | none => trivial
    | some p =>
        obtain ⟨i, m⟩ := p
        show _ ∧ _ ∧ m = Function.update seen j (k + 1) i ∧ _
        rw [Function.update_of_ne (hne i m rfl)]
        exact hwork
  rcases step_cases hroom hrest hwork with
    ⟨hdirect, hstep⟩ | ⟨hdirect, _, ⟨hmore, hstep⟩ | ⟨_, hstep⟩⟩ | ⟨_, hstep, _, hne⟩
  · rw [hstep]
    refine hother ?_
    rintro i m rfl rfl
    rw [hwork.1] at hdirect
    cases hdirect
  · rw [hstep]
    exact ⟨hdirect, Nat.succ_pos k, by rw [Function.update_self], hmore⟩
  · rw [hstep]
    trivial
  · rw [hstep]
    exact hother hne

/-- **Progress.** The place is empty in the end, and the job that was in it is done. -/
theorem serve_idle (hrest : Rest J seen pieces) (hwork : Working J seen place) :
    (serve J place pieces).1 = none ∧
      ∀ i m, place = some (i, m) → i ∈ (serve J place pieces).2 := by
  induction pieces generalizing seen place with
  | nil =>
      cases place with
      | none => exact ⟨rfl, by simp⟩
      | some p =>
          obtain ⟨i, m⟩ := p
          obtain ⟨_, hpos, hm, hlt⟩ := hwork
          obtain ⟨_, hnil⟩ := hrest.occurs (by omega) (by omega : seen i < J.size i)
          cases hnil
  | cons piece rest ih =>
      obtain ⟨j, k⟩ := piece
      obtain ⟨hidle, hdone⟩ := ih hrest.cons.2.2 (hwork.step hroom hrest)
      rw [serve_cons]
      refine ⟨hidle, ?_⟩
      rintro i m rfl
      rcases step_cases hroom hrest hwork with
        ⟨_, hstep⟩ | ⟨_, htake, ⟨_, hstep⟩ | ⟨_, hstep⟩⟩ | ⟨_, hstep, _⟩
      · rw [hstep] at hdone ⊢
        exact List.mem_append_right _ (hdone i m rfl)
      · obtain ⟨rfl, rfl⟩ : i = j ∧ m = k := by simpa using htake
        rw [hstep] at hdone ⊢
        exact List.mem_append_right _ (hdone i (m + 1) rfl)
      · obtain ⟨rfl, rfl⟩ : i = j ∧ m = k := by simpa using htake
        rw [hstep]
        exact List.mem_append_left _ List.mem_cons_self
      · rw [hstep] at hdone ⊢
        exact List.mem_append_right _ (hdone i m rfl)

/-- **Loss.** A job that has started and is not in the place is not served any more. -/
theorem serve_missed {i : κ} (hrest : Rest J seen pieces) (hwork : Working J seen place)
    (hdirect : J.direct i = false) (hstarted : 0 < seen i) (hnot : ∀ m, place ≠ some (i, m)) :
    i ∉ (serve J place pieces).2 := by
  induction pieces generalizing seen place with
  | nil => simp
  | cons piece rest ih =>
      obtain ⟨j, k⟩ := piece
      obtain ⟨hk, _, hrest'⟩ := hrest.cons
      have hwork' := hwork.step hroom hrest
      have hstarted' : 0 < Function.update seen j (k + 1) i := by
        by_cases hij : i = j
        · subst hij
          rw [Function.update_self]
          exact Nat.succ_pos k
        · rwa [Function.update_of_ne hij]
      rw [serve_cons, List.mem_append]
      rcases step_cases hroom hrest hwork with
        ⟨hdirect', hstep⟩ | ⟨_, htake, htaken⟩ | ⟨_, hstep, _⟩
      · rw [hstep] at hwork' ⊢
        rintro (hmem | hmem)
        · obtain rfl : i = j := by simpa using hmem
          rw [hdirect] at hdirect'
          cases hdirect'
        · exact ih hrest' hwork' hstarted' hnot hmem
      · -- a job that is taken was not started, or was in the place
        have hij : i ≠ j := by
          rintro rfl
          rcases htake with ⟨_, hzero⟩ | hplace
          · omega
          · exact hnot k hplace
        rcases htaken with ⟨_, hstep⟩ | ⟨_, hstep⟩
        · rw [hstep] at hwork' ⊢
          rintro (hmem | hmem)
          · cases hmem
          · refine ih hrest' hwork' hstarted' ?_ hmem
            rintro m heq
            exact hij (Prod.mk.inj (Option.some.inj heq)).1.symm
        · rw [hstep] at hwork' ⊢
          rintro (hmem | hmem)
          · exact hij (by simpa using hmem)
          · exact ih hrest' hwork' hstarted' (by simp) hmem
      · rw [hstep] at hwork' ⊢
        rintro (hmem | hmem)
        · cases hmem
        · exact ih hrest' hwork' hstarted' hnot hmem

/-- **No repetition.** No job is done twice. -/
theorem serve_nodup (hrest : Rest J seen pieces) (hwork : Working J seen place) :
    (serve J place pieces).2.Nodup := by
  induction pieces generalizing seen place with
  | nil => exact List.nodup_nil
  | cons piece rest ih =>
      obtain ⟨j, k⟩ := piece
      obtain ⟨hk, hsize, hrest'⟩ := hrest.cons
      have hnodup := ih hrest' (hwork.step hroom hrest)
      -- a job that is done with this piece has no other
      have hlast : k + 1 = J.size j → ∀ place, j ∉ (serve J place rest).2 := by
        intro hall place hmem
        refine hrest'.not_occurs (j := j) ?_ ?_ (exists_of_mem_serve J hmem)
        · rw [Function.update_self]
          exact Nat.succ_pos k
        · rw [Function.update_self, hall]
      rw [serve_cons]
      rcases step_cases hroom hrest hwork with
        ⟨hdirect, hstep⟩ | ⟨_, _, ⟨_, hstep⟩ | ⟨hall, hstep⟩⟩ | ⟨_, hstep, _⟩
      · rw [hstep] at hnodup ⊢
        have hone := J.size_direct j hdirect
        exact List.nodup_cons.mpr ⟨hlast (by omega) _, hnodup⟩
      · rw [hstep] at hnodup ⊢
        exact hnodup
      · rw [hstep] at hnodup ⊢
        exact List.nodup_cons.mpr ⟨hlast hall _, hnodup⟩
      · rw [hstep] at hnodup ⊢
        exact hnodup

/-- After some of the pieces: what was seen, and that all of a job that is done was. -/
theorem serve_before {before after : List (κ × Nat)} (hrest : Rest J seen (before ++ after))
    (hwork : Working J seen place) :
    ∃ seen', Rest J seen' after ∧ Working J seen' (serve J place before).1 ∧
      (∀ i, 0 < seen' i ↔ 0 < seen i ∨ Occurs i before) ∧
      ∀ i ∈ (serve J place before).2, J.direct i = false → ¬ Occurs i after := by
  induction before generalizing seen place with
  | nil => exact ⟨seen, hrest, hwork, fun i => by simp [Occurs], by simp⟩
  | cons piece rest ih =>
      obtain ⟨j, k⟩ := piece
      rw [List.cons_append] at hrest
      obtain ⟨hk, hsize, hrest'⟩ := hrest.cons
      obtain ⟨seen', hafter, hwork', hseen, hdone⟩ := ih hrest' (hwork.step hroom hrest)
      refine ⟨seen', hafter, hwork', ?_, ?_⟩
      · intro i
        rw [hseen]
        by_cases hij : i = j
        · subst hij
          rw [Function.update_self]
          exact ⟨fun _ => .inr ⟨k, List.mem_cons_self⟩, fun _ => .inl (Nat.succ_pos k)⟩
        · rw [Function.update_of_ne hij]
          simp [Occurs, hij]
      · intro i hi hdirect
        rw [serve_cons, List.mem_append] at hi
        rcases hi with hi | hi
        · -- the job is done with this piece, the last one
          rcases step_cases hroom hrest hwork with
            ⟨hdirect', hstep⟩ | ⟨_, _, ⟨_, hstep⟩ | ⟨hlast, hstep⟩⟩ | ⟨_, hstep, _⟩
          · obtain rfl : i = j := by simpa [hstep] using hi
            rw [hdirect] at hdirect'
            cases hdirect'
          · rw [hstep] at hi
            cases hi
          · obtain rfl : i = j := by simpa [hstep] using hi
            have hnone := hrest'.not_occurs (j := i) (by rw [Function.update_self]; omega)
              (by rw [Function.update_self, hlast])
            exact fun ⟨m, hm⟩ => hnone ⟨m, List.mem_append_right _ hm⟩
          · rw [hstep] at hi
            cases hi
        · exact hdone i hi hdirect

/-- **Who is served.** A job is served exactly if no job that is served has pieces both
before its first piece and after it. -/
theorem served_iff {before after : List (κ × Nat)} {j : κ} (hdirect : J.direct j = false)
    (hwhole : Rest J (fun _ => 0) (before ++ (j, 0) :: after)) :
    j ∈ (serve J none (before ++ (j, 0) :: after)).2 ↔
      ¬ ∃ i ∈ (serve J none (before ++ (j, 0) :: after)).2, J.direct i = false ∧
        Occurs i before ∧ Occurs i after := by
  have hempty : Working J (fun _ => 0) none := trivial
  obtain ⟨seen, hrest, hwork, hseen, hdone⟩ := serve_before hroom hwhole hempty
  obtain ⟨hzero, hsize, hrest'⟩ := hrest.cons
  have hnew : ¬ Occurs j before := by
    intro hocc
    have hpos := (hseen j).mpr (.inr hocc)
    omega
  have hwork' := hwork.step hroom hrest
  rw [serve_append, serve_cons]
  cases hplace : (serve J none before).1 with
  | none =>
      rw [hplace] at hwork hwork'
      constructor
      · -- a job with pieces on both sides was done before, or is lost
        rintro - ⟨i, hi, hidirect, hbefore, hafter⟩
        have hij : i ≠ j := fun heq => hnew (heq ▸ hbefore)
        have hstarted : 0 < seen i := (hseen i).mpr (.inr hbefore)
        rcases List.mem_append.mp hi with hi | hi
        · obtain ⟨m, hm⟩ := hafter
          exact hdone i hi hidirect ⟨m, List.mem_cons_of_mem _ hm⟩
        · rw [← serve_cons] at hi
          exact serve_missed hroom hrest hwork hidirect hstarted (by simp) hi
      · intro _
        refine List.mem_append_right _ ?_
        rcases step_cases hroom hrest hwork with
          ⟨hdirect', _⟩ | ⟨_, _, ⟨_, hstep⟩ | ⟨_, hstep⟩⟩ | ⟨_, _, hpos, _⟩
        · rw [hdirect] at hdirect'
          cases hdirect'
        · rw [hstep] at hwork' ⊢
          exact List.mem_append_right _ ((serve_idle hroom hrest' hwork').2 j 1 rfl)
        · rw [hstep]
          exact List.mem_append_left _ List.mem_cons_self
        · exact absurd (hpos rfl) (Nat.lt_irrefl 0)
  | some p =>
      obtain ⟨i, m⟩ := p
      rw [hplace] at hwork hwork'
      obtain ⟨hidirect, hpos, hm, hlt⟩ := id hwork
      have hij : i ≠ j := by
        rintro rfl
        omega
      have hstep : step J (some (i, m)) (j, 0) = (some (i, m), none) := by
        rcases step_cases hroom hrest hwork with
          ⟨hdirect', _⟩ | ⟨_, htake, _⟩ | ⟨_, hstep, _⟩
        · rw [hdirect] at hdirect'
          cases hdirect'
        · simp [hij] at htake
        · exact hstep
      rw [hstep] at hwork' ⊢
      -- the job in the place is served, and has pieces on both sides
      have hserved := (serve_idle hroom hrest' hwork').2 i m rfl
      have hbefore : Occurs i before := by
        rcases (hseen i).mp (by omega) with hfalse | hocc
        · exact absurd hfalse (Nat.lt_irrefl 0)
        · exact hocc
      have hafter : Occurs i after :=
        hrest'.occurs (by rw [Function.update_of_ne hij]; omega)
          (by rw [Function.update_of_ne hij]; omega)
      constructor
      · intro hj
        exfalso
        rcases List.mem_append.mp hj with hj | hj
        · exact hdone j hj hdirect ⟨0, List.mem_cons_self⟩
        · refine serve_missed hroom hrest' hwork' hdirect
            (by rw [Function.update_self]; exact Nat.one_pos) ?_ hj
          rintro m' heq
          exact hij (Prod.mk.inj (Option.some.inj heq)).1
      · intro hnone
        exact absurd ⟨i, List.mem_append_right _ hserved, hidirect, hbefore, hafter⟩ hnone

end Whole

end SinglePlace
