import Mathlib.Data.List.Nodup
import Mathlib.Order.Basic

/-!
# Ledgers of owned resources

A function that acquires resources must pass each of them on: hand it to a new
owner or free it, and only one of the two. What it did is a log of entries.
`Settled` says that a log accounts for all it acquired; `Holding` is the
invariant on the way there, which also knows the resources still held. Names of
resources are given out in increasing order, so a bound on those in use is
enough to know that the next one is new.

* `Holding.acquire` — a new resource joins those held;
* `Holding.passOn`, with `Holding.hand` and `Holding.free` — all that is held goes
  on;
* `Holding.settled` — a log that holds nothing is settled;
* `Settled.once` — a settled log hands over or frees each resource, once.
-/

namespace Ownership

/-- An entry of a log: a resource came in, or a group of them went to a new
owner, or was freed. -/
inductive Own (α : Type*)
  | acquire (x : α)
  | hand (xs : List α)
  | free (xs : List α)

namespace Own

variable {α : Type*}

def acquired : Own α → List α
  | acquire x => [x]
  | hand _ => []
  | free _ => []

def handed : Own α → List α
  | hand xs => xs
  | acquire _ => []
  | free _ => []

def freed : Own α → List α
  | free xs => xs
  | acquire _ => []
  | hand _ => []

attribute [simp] acquired handed freed

end Own

variable {α : Type*}

/-- The resources a log acquires. -/
def acquired (log : List (Own α)) : List α := log.flatMap Own.acquired

/-- The resources a log hands over. -/
def handed (log : List (Own α)) : List α := log.flatMap Own.handed

/-- The resources a log frees. -/
def freed (log : List (Own α)) : List α := log.flatMap Own.freed

section Append

variable (log rest : List (Own α))

@[simp] theorem acquired_append :
    acquired (log ++ rest) = acquired log ++ acquired rest := List.flatMap_append

@[simp] theorem handed_append : handed (log ++ rest) = handed log ++ handed rest :=
  List.flatMap_append

@[simp] theorem freed_append : freed (log ++ rest) = freed log ++ freed rest :=
  List.flatMap_append

end Append

section Singleton

variable (e : Own α)

@[simp] theorem acquired_singleton : acquired [e] = e.acquired := List.flatMap_singleton _ _
@[simp] theorem handed_singleton : handed [e] = e.handed := List.flatMap_singleton _ _
@[simp] theorem freed_singleton : freed [e] = e.freed := List.flatMap_singleton _ _

end Singleton

/-- Every resource acquired went on, and nothing else did. -/
structure Settled (log : List (Own α)) : Prop where
  nodup : (acquired log).Nodup
  perm : (handed log ++ freed log).Perm (acquired log)

/-- **Once.** A resource of a settled log is handed over once and never freed, or
freed once and never handed over. -/
theorem Settled.once [DecidableEq α] {log : List (Own α)} (h : Settled log) {x : α}
    (hx : x ∈ acquired log) :
    ((handed log).count x = 1 ∧ x ∉ freed log) ∨
      (x ∉ handed log ∧ (freed log).count x = 1) := by
  have hsum : (handed log).count x + (freed log).count x = 1 := by
    rw [← List.count_append, h.perm.count_eq]
    exact List.count_eq_one_of_mem h.nodup hx
  rw [← List.count_eq_zero, ← List.count_eq_zero]
  omega

/-! ## The ledger while resources are held -/

variable [Preorder α]

/-- The log acquired names from `lo` on and below `hi`; those not handed over
and not freed are `held`. -/
structure Holding (lo hi : α) (log : List (Own α)) (held : List α) : Prop where
  le : lo ≤ hi
  fresh : ∀ x ∈ acquired log, lo ≤ x ∧ x < hi
  nodup : (acquired log).Nodup
  perm : (handed log ++ freed log ++ held).Perm (acquired log)

variable {lo hi hi' x : α} {log : List (Own α)} {held xs : List α}

theorem Holding.nil (lo : α) : Holding lo lo [] [] where
  le := le_refl lo
  fresh x hx := absurd hx (List.not_mem_nil (a := x))
  nodup := List.nodup_nil
  perm := .nil

/-- A name that was not in use joins the names held. -/
theorem Holding.acquire (h : Holding lo hi log held) (hx : hi ≤ x) (hx' : x < hi') :
    Holding lo hi' (log ++ [.acquire x]) (x :: held) where
  le := h.le.trans (hx.trans hx'.le)
  fresh y hy := by
    have hcases : y ∈ acquired log ∨ y = x := by simpa using hy
    rcases hcases with hy | rfl
    · exact ⟨(h.fresh y hy).1, ((h.fresh y hy).2.trans_le hx).trans hx'⟩
    · exact ⟨h.le.trans hx, hx'⟩
  nodup := by
    simp only [acquired_append, acquired_singleton, Own.acquired]
    refine List.nodup_append.mpr ⟨h.nodup, List.nodup_singleton x, ?_⟩
    rintro y hy z hz rfl
    obtain rfl := List.mem_singleton.mp hz
    exact absurd ((h.fresh y hy).2.trans_le hx) (lt_irrefl y)
  perm := by
    simp only [acquired_append, acquired_singleton, handed_append, handed_singleton,
      freed_append, freed_singleton, Own.acquired, Own.handed, Own.freed, List.append_nil]
    exact (List.perm_middle.trans (h.perm.cons x)).trans (List.perm_append_singleton x _).symm

/-- An entry that passes on all that is held, in one way or the other. -/
theorem Holding.passOn (h : Holding lo hi log held) {e : Own α} (hnone : e.acquired = [])
    (hall : (e.handed ++ e.freed).Perm held) : Holding lo hi (log ++ [e]) [] := by
  have hsame : acquired (log ++ [e]) = acquired log := by
    rw [acquired_append, acquired_singleton, hnone, List.append_nil]
  have hout : (handed (log ++ [e]) ++ freed (log ++ [e])).Perm
      (handed log ++ freed log ++ (e.handed ++ e.freed)) := by
    rw [handed_append, handed_singleton, freed_append, freed_singleton, List.append_assoc,
      List.append_assoc]
    exact (List.perm_append_comm_assoc _ _ _).append_left _
  refine ⟨h.le, ?_, ?_, ?_⟩
  · rw [hsame]
    exact h.fresh
  · rw [hsame]
    exact h.nodup
  · rw [hsame, List.append_nil]
    exact hout.trans ((hall.append_left _).trans h.perm)

/-- What is held can be handed over, as a whole. -/
theorem Holding.hand (h : Holding lo hi log held) (hxs : xs.Perm held) :
    Holding lo hi (log ++ [.hand xs]) [] :=
  h.passOn rfl (by simpa using hxs)

/-- What is held can be freed, as a whole. -/
theorem Holding.free (h : Holding lo hi log held) (hxs : xs.Perm held) :
    Holding lo hi (log ++ [.free xs]) [] :=
  h.passOn rfl hxs

theorem Holding.settled (h : Holding lo hi log []) : Settled log where
  nodup := h.nodup
  perm := by simpa using h.perm

end Ownership
