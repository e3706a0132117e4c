import NdnRiot.Lib.Reassembly
import NdnRiot.Lib.SinglePlace

/-!
# Several trains at one reassembler

Fragments of trains under distinct identifiers reach a reassembler, lost, repeated and
in any order. What it does is what a server with a single place does on the numbers of
the fragments (`Lib.SinglePlace`): the pending part is the part of the train in the
place (`Pending.Shows`).

* `continues_iff` — a fragment is taken exactly where the server takes its piece;
* `Pending.Shows.offer` — one fragment simulates one piece.
-/

namespace Reassembly

open SinglePlace

variable {φ ι β κ : Type*} {V : View φ ι β} {cap : Nat}

/-- The jobs are trains under distinct identifiers, as far as they need the place. -/
structure View.Trains (V : View φ ι β) (cap : Nat) (J : Jobs κ) (train : κ → List φ) :
    Prop where
  whole : ∀ j, J.direct j = false → ∃ cap', V.Train cap' (train j)
  size : ∀ j, J.direct j = false → J.size j = (train j).length
  room : ∀ j k, J.direct j = false →
    (J.room j k = true ↔ (V.bytes ((train j).take (k + 1))).length ≤ cap)
  distinct : ∀ i j, J.direct i = false → J.direct j = false → ∀ f ∈ train i, ∀ g ∈ train j,
    V.ident f = V.ident g → i = j

/-- What is pending is the part of the job in the place that was taken. -/
def Pending.Shows (p : Pending V cap) (J : Jobs κ) (train : κ → List φ) :
    Option (κ × Nat) → Prop
  | none => p.parts = []
  | some (j, k) => J.direct j = false ∧ 0 < k ∧ k < J.size j ∧ p.parts = (train j).take k

section Simulation

variable {J : Jobs κ} {train : κ → List φ} (h : V.Trains cap J train)
  {p : Pending V cap} {place : Option (κ × Nat)} (hshows : p.Shows J train place)
  {j : κ} {k : Nat} {f : φ} (hdirect : J.direct j = false) (hf : (train j)[k]? = some f)

include h hshows hdirect hf

/-- A fragment continues the pending part exactly where its piece is taken. -/
theorem continues_iff : p.Continues f ↔
    (place = none ∧ k = 0 ∨ place = some (j, k)) ∧ J.room j k = true := by
  obtain ⟨cap', htrain⟩ := h.whole j hdirect
  have hmem := List.mem_of_getElem? hf
  have hseq := htrain.seq k f hf
  have hbytes : V.bytes ((train j).take (k + 1)) =
      V.bytes ((train j).take k) ++ V.payload f := by
    rw [List.take_add_one, hf, V.bytes_append]
    simp
  rw [h.room j k hdirect, hbytes, List.length_append]
  unfold Pending.Continues
  rw [hseq]
  cases place with
  | none =>
      have hparts : p.parts = [] := hshows
      rw [hparts]
      constructor
      · rintro ⟨_, hzero, _, hfits⟩
        obtain rfl : k = 0 := hzero
        exact ⟨.inl ⟨rfl, rfl⟩, hfits⟩
      · rintro ⟨⟨_, rfl⟩ | hplace, hfits⟩
        · exact ⟨htrain.frag f hmem, rfl, by simp, hfits⟩
        · cases hplace
  | some q =>
      obtain ⟨i, m⟩ := q
      obtain ⟨hidirect, hpos, hlt, hparts⟩ := hshows
      rw [h.size i hidirect] at hlt
      have hlength : ((train i).take m).length = m := by
        rw [List.length_take]
        omega
      rw [hparts, hlength]
      constructor
      · rintro ⟨_, rfl, hident, hfits⟩
        -- the identifier tells the train
        obtain ⟨g, hg⟩ := List.exists_mem_of_length_pos (by rw [hlength]; exact hpos)
        obtain rfl := h.distinct i j hidirect hdirect g (List.mem_of_mem_take hg) f hmem
          (hident g hg)
        exact ⟨.inr rfl, hfits⟩
      · rintro ⟨⟨hnone, _⟩ | hplace, hfits⟩
        · cases hnone
        · obtain ⟨rfl, rfl⟩ := Prod.mk.inj (Option.some.inj hplace)
          exact ⟨htrain.frag f hmem, rfl,
            fun g hg => htrain.ident g (List.mem_of_mem_take hg) f hmem, hfits⟩

variable [DecidableEq ι] [DecidableEq κ]

/-- **One fragment.** -/
theorem Pending.Shows.offer :
    (offer p f).1.Shows J train (step J place (j, k)).1 ∧
      (offer p f).2 = (step J place (j, k)).2.map train := by
  obtain ⟨cap', htrain⟩ := h.whole j hdirect
  have htake := continues_iff h hshows hdirect hf
  have hmore : V.more f = true ↔ k + 1 < J.size j := by
    rw [h.size j hdirect]
    exact htrain.more k f hf
  -- what was pending together with the fragment
  have hgrown : p.Continues f → p.parts ++ [f] = (train j).take (k + 1) := by
    intro hcont
    rw [List.take_add_one, hf]
    rcases (htake.mp hcont).1 with ⟨rfl, rfl⟩ | rfl
    · rw [show p.parts = [] from hshows]
      rfl
    · rw [hshows.2.2.2]
      rfl
  unfold step
  rw [if_neg (by simp [hdirect])]
  rcases offer_cases p f with
    ⟨hno, hoff⟩ | ⟨hcont, hflag, hparts, hnone⟩ | ⟨hcont, hflag, hoff⟩
  · rw [if_neg fun hyes => hno (htake.mpr hyes), hoff]
    exact ⟨hshows, rfl⟩
  · rw [if_pos (htake.mp hcont), if_pos (hmore.mp hflag), hnone]
    exact ⟨⟨hdirect, Nat.succ_pos k, hmore.mp hflag, hparts.trans (hgrown hcont)⟩, rfl⟩
  · have hlast : ¬ k + 1 < J.size j := fun hlt => by simp [hmore.mpr hlt] at hflag
    rw [if_pos (htake.mp hcont), if_neg hlast, hoff, hgrown hcont]
    refine ⟨rfl, ?_⟩
    rw [List.take_of_length_le (by rw [← h.size j hdirect]; omega)]
    rfl

end Simulation

end Reassembly
