import Mathlib.Data.List.Induction

/-!
# In-order reassembly of fragment trains

A fragment carries an identifier, a sequence number, a more-fragments flag and
a payload; a *train* is a list of fragments numbered from zero, under one
identifier, whose flag is clear exactly on the last one. The reassembler keeps
the accepted part of one train and takes a fragment only where it continues
that part. The module provides

* `Pending` — the accepted part, with its well-formedness as a field, so every
  state the reassembler can be in is a prefix of a train that fits;
* `offer`, `reassemble` — one fragment, a list of fragments;
* `offer_continue`, `offer_last`, `offer_reject` — what one offer does;
* `reassemble_train` — a train offered to an idle reassembler comes out whole;
* `reassemble_foreign` — a pending train shuts out every other identifier;
* `reassemble_splits` — whatever is offered, each train that comes out is a
  subsequence of its own window of the input, and the windows are disjoint;
* `reassemble_lossy` — what becomes of a train that lost fragments on the way;
* `piece` — a packet in pieces of a given size, the sender's half.
-/

namespace Reassembly

variable {φ ι β : Type*}

/-- Reading a list with one element appended. -/
private theorem getElem?_concat_cases {xs : List φ} {x f : φ} {j : Nat}
    (h : (xs ++ [x])[j]? = some f) :
    (j < xs.length ∧ xs[j]? = some f) ∨ (j = xs.length ∧ f = x) := by
  rcases Nat.lt_or_ge j xs.length with hj | hj
  · rw [List.getElem?_append_left hj] at h
    exact .inl ⟨hj, h⟩
  · rw [List.getElem?_append_right hj, List.getElem?_singleton] at h
    split at h
    · exact .inr ⟨by omega, (Option.some.inj h).symm⟩
    · exact absurd h (by simp)

/-- How to read a fragment of type `φ`. Inputs for which `frag` is false are
not fragments at all and are never accepted. -/
structure View (φ ι β : Type*) where
  frag : φ → Bool
  ident : φ → ι
  seq : φ → Nat
  more : φ → Bool
  payload : φ → List β

namespace View

variable (V : View φ ι β)

/-- The bytes of a list of fragments, in order. -/
def bytes (parts : List φ) : List β := parts.flatMap V.payload

@[simp] theorem bytes_nil : V.bytes [] = [] := rfl

@[simp] theorem bytes_append (xs ys : List φ) :
    V.bytes (xs ++ ys) = V.bytes xs ++ V.bytes ys := by
  simp [bytes]

@[simp] theorem bytes_singleton (f : φ) : V.bytes [f] = V.payload f := by
  simp [bytes]

/-- Numbered from zero under one identifier, within the capacity. -/
structure InOrder (cap : Nat) (parts : List φ) : Prop where
  frag : ∀ f ∈ parts, V.frag f = true
  seq : ∀ j f, parts[j]? = some f → V.seq f = j
  ident : ∀ f ∈ parts, ∀ g ∈ parts, V.ident f = V.ident g
  fits : (V.bytes parts).length ≤ cap

/-- A complete train: in order, and the more-fragments flag is clear exactly
on the last fragment. -/
structure Train (cap : Nat) (parts : List φ) : Prop extends V.InOrder cap parts where
  nonempty : parts ≠ []
  more : ∀ j f, parts[j]? = some f → (V.more f = true ↔ j + 1 < parts.length)

variable {V}

/-- The fragment of a train that bears the number `j` stands at `j`. -/
theorem Train.getElem?_seq {cap : Nat} {parts : List φ} (h : V.Train cap parts) {f : φ}
    (hf : f ∈ parts) : parts[V.seq f]? = some f := by
  obtain ⟨i, hi⟩ := List.mem_iff_getElem?.mp hf
  rwa [h.seq i f hi]

/-- A train made of fragments of another train is that train. -/
theorem Train.eq_of_subset {cap cap' : Nat} {xs ys : List φ} (hx : V.Train cap xs)
    (hy : V.Train cap' ys) (hsub : ∀ f ∈ xs, f ∈ ys) : xs = ys := by
  have hat : ∀ (j : Nat) (f : φ), xs[j]? = some f → ys[j]? = some f := by
    intro j f hj
    have hf := hy.getElem?_seq (hsub f (List.mem_of_getElem? hj))
    rwa [hx.seq j f hj] at hf
  -- the last fragment of `xs` closes `ys` as well
  have hlen : xs.length = ys.length := by
    have hpos := List.length_pos_iff.mpr hx.nonempty
    have hlast : xs[xs.length - 1]? = some (xs.getLast hx.nonempty) := by
      rw [← List.getLast?_eq_getElem?, List.getLast?_eq_some_getLast]
    have hmore := (hx.more _ _ hlast).symm.trans (hy.more _ _ (hat _ _ hlast))
    have hin := (List.getElem?_eq_some_iff.mp (hat _ _ hlast)).1
    omega
  refine List.ext_getElem? fun j => ?_
  rcases Nat.lt_or_ge j xs.length with hj | hj
  · rw [hat j xs[j] (List.getElem?_eq_getElem hj), List.getElem?_eq_getElem hj]
  · rw [List.getElem?_eq_none hj, List.getElem?_eq_none (by omega)]

end View

/-- The accepted part of a train: in order, with more fragments to come. -/
structure Pending (V : View φ ι β) (cap : Nat) where
  parts : List φ
  inOrder : V.InOrder cap parts
  more : ∀ f ∈ parts, V.more f = true

namespace Pending

variable {V : View φ ι β} {cap : Nat}

/-- No train is pending. -/
def idle : Pending V cap where
  parts := []
  inOrder := ⟨by simp, by simp, by simp, by simp⟩
  more := by simp

@[simp] theorem idle_parts : (idle : Pending V cap).parts = [] := rfl

theorem eq_idle {p : Pending V cap} (h : p.parts = []) : p = idle := by
  cases p
  cases h
  rfl

/-- The fragment continues the pending train: it bears the next number and the
train's identifier, and there is room for it. -/
def Continues (p : Pending V cap) (f : φ) : Prop :=
  V.frag f = true ∧ V.seq f = p.parts.length ∧
    (∀ g ∈ p.parts, V.ident g = V.ident f) ∧
    (V.bytes p.parts).length + (V.payload f).length ≤ cap

instance [DecidableEq ι] (p : Pending V cap) (f : φ) : Decidable (p.Continues f) :=
  inferInstanceAs (Decidable (_ ∧ _ ∧ _ ∧ _))

/-- Appending a continuing fragment keeps the order. -/
theorem Continues.inOrder {p : Pending V cap} {f : φ} (h : p.Continues f) :
    V.InOrder cap (p.parts ++ [f]) := by
  obtain ⟨hfrag, hseq, hident, hfits⟩ := h
  refine ⟨?_, ?_, ?_, by simpa using hfits⟩
  · intro g hg
    rcases List.mem_append.mp hg with hg | hg
    · exact p.inOrder.frag g hg
    · rw [List.mem_singleton.mp hg]
      exact hfrag
  · intro j g hg
    rcases getElem?_concat_cases hg with ⟨_, hg⟩ | ⟨rfl, rfl⟩
    · exact p.inOrder.seq j g hg
    · exact hseq
  · intro g hg g' hg'
    rcases List.mem_append.mp hg with hg | hg <;>
      rcases List.mem_append.mp hg' with hg' | hg'
    · exact p.inOrder.ident g hg g' hg'
    · rw [List.mem_singleton.mp hg']
      exact hident g hg
    · rw [List.mem_singleton.mp hg]
      exact (hident g' hg').symm
    · rw [List.mem_singleton.mp hg, List.mem_singleton.mp hg']

/-- A continuing fragment that closes the pending part completes a train. -/
theorem Continues.train {p : Pending V cap} {f : φ} (h : p.Continues f)
    (hmore : V.more f = false) : V.Train cap (p.parts ++ [f]) := by
  refine ⟨h.inOrder, by simp, ?_⟩
  intro j g hg
  rcases getElem?_concat_cases hg with ⟨hj, hg⟩ | ⟨rfl, rfl⟩
  · simp [p.more g (List.mem_of_getElem? hg), hj]
  · simp [hmore]

/-- An idle reassembler starts a train with its first fragment only. -/
theorem continues_idle_iff {parts : List φ} {cap' : Nat} (htrain : V.Train cap' parts)
    {f : φ} (hf : f ∈ parts) : (idle : Pending V cap).Continues f ↔
      parts.head? = some f ∧ (V.payload f).length ≤ cap := by
  unfold Continues
  have hseq : V.seq f = 0 ↔ parts.head? = some f := by
    rw [List.head?_eq_getElem?]
    constructor
    · intro hzero
      rw [← hzero]
      exact htrain.getElem?_seq hf
    · exact htrain.seq 0 f
  simp [htrain.frag f hf, hseq]

end Pending

/-! ## Episodes: where a train that comes out was received -/

/-- One delivered train and the stretch of the input it was taken from: `gap`
holds what was refused while idle, `window` runs from the train's first
fragment to its last. -/
structure Episode (φ : Type*) where
  gap : List φ
  window : List φ
  train : List φ

/-- The train is complete, and was picked from its window in order; the window
runs from the train's first fragment to its last. -/
structure Episode.Ok (V : View φ ι β) (cap : Nat) (e : Episode φ) : Prop where
  train : V.Train cap e.train
  picked : e.train.Sublist e.window
  starts : e.window.head? = e.train.head?
  ends : e.window.getLast? = e.train.getLast?

/-- The stretch of input an episode covers. -/
def Episode.input (e : Episode φ) : List φ := e.gap ++ e.window

/-- The fragments of the window belong to trains that were sent, and those of
these trains that are in flight, having a fragment in the window, bear pairwise
distinct identifiers. -/
structure View.InFlightDistinct (V : View φ ι β) (sent : List (List φ)) (window : List φ) :
    Prop where
  trains : ∀ T ∈ sent, ∃ cap, V.Train cap T
  source : ∀ f ∈ window, V.frag f = true → ∃ T ∈ sent, f ∈ T
  distinct : ∀ T ∈ sent, ∀ T' ∈ sent, ∀ f ∈ window, ∀ f' ∈ window, f ∈ T → f' ∈ T' →
    V.ident f = V.ident f' → T = T'

/-- **No mixing.** What comes out of a window in which identifiers are distinct
is a train that was sent. -/
theorem Episode.Ok.train_mem_sent {V : View φ ι β} {cap : Nat} {e : Episode φ}
    (h : e.Ok V cap) {sent : List (List φ)} (hsent : V.InFlightDistinct sent e.window) :
    e.train ∈ sent := by
  obtain ⟨g, hg⟩ := List.exists_mem_of_ne_nil _ h.train.nonempty
  have hwindow : ∀ f ∈ e.train, f ∈ e.window := fun f hf => h.picked.subset hf
  obtain ⟨T, hT, hgT⟩ := hsent.source g (hwindow g hg) (h.train.frag g hg)
  have hall : ∀ f ∈ e.train, f ∈ T := by
    intro f hf
    obtain ⟨T', hT', hfT'⟩ := hsent.source f (hwindow f hf) (h.train.frag f hf)
    have hsame := hsent.distinct T' hT' T hT f (hwindow f hf) g (hwindow g hg) hfT' hgT
      (h.train.ident f hf g hg)
    rwa [← hsame]
  obtain ⟨cap', htrain⟩ := hsent.trains T hT
  rwa [h.train.eq_of_subset htrain hall]

/-! ## Offering fragments -/

section Offer

variable [DecidableEq ι] {V : View φ ι β} {cap : Nat}

/-- Offer one fragment: the new pending part, and the train it completes. -/
def offer (p : Pending V cap) (f : φ) : Pending V cap × Option (List φ) :=
  if h : p.Continues f then
    if hmore : V.more f = true then
      (⟨p.parts ++ [f], h.inOrder, by
        intro g hg
        rcases List.mem_append.mp hg with hg | hg
        · exact p.more g hg
        · rw [List.mem_singleton.mp hg]
          exact hmore⟩, none)
    else (.idle, some (p.parts ++ [f]))
  else (p, none)

theorem offer_reject {p : Pending V cap} {f : φ} (h : ¬ p.Continues f) :
    offer p f = (p, none) := dif_neg h

theorem offer_continue {p : Pending V cap} {f : φ} (h : p.Continues f)
    (hmore : V.more f = true) :
    (offer p f).1.parts = p.parts ++ [f] ∧ (offer p f).2 = none := by
  unfold offer
  rw [dif_pos h, dif_pos hmore]
  exact ⟨rfl, rfl⟩

theorem offer_last {p : Pending V cap} {f : φ} (h : p.Continues f)
    (hmore : V.more f = false) :
    offer p f = (.idle, some (p.parts ++ [f])) := by
  unfold offer
  rw [dif_pos h, dif_neg (by simp [hmore])]

/-- What an offer does, in three cases. -/
theorem offer_cases (p : Pending V cap) (f : φ) :
    (¬ p.Continues f ∧ offer p f = (p, none)) ∨
    (p.Continues f ∧ V.more f = true ∧
      (offer p f).1.parts = p.parts ++ [f] ∧ (offer p f).2 = none) ∨
    (p.Continues f ∧ V.more f = false ∧
      offer p f = (.idle, some (p.parts ++ [f]))) := by
  by_cases h : p.Continues f
  · cases hmore : V.more f with
    | true => exact .inr (.inl ⟨h, rfl, offer_continue h hmore⟩)
    | false => exact .inr (.inr ⟨h, rfl, offer_last h hmore⟩)
  · exact .inl ⟨h, offer_reject h⟩

/-- Offer a list of fragments: the pending part left, and the trains that came
out, oldest first. -/
def reassemble (p : Pending V cap) : List φ → Pending V cap × List (List φ)
  | [] => (p, [])
  | f :: rest =>
      let (p', done) := offer p f
      let (p'', trains) := reassemble p' rest
      (p'', done.toList ++ trains)

@[simp] theorem reassemble_nil (p : Pending V cap) : reassemble p [] = (p, []) := rfl

theorem reassemble_cons (p : Pending V cap) (f : φ) (rest : List φ) :
    reassemble p (f :: rest) =
      ((reassemble (offer p f).1 rest).1,
        (offer p f).2.toList ++ (reassemble (offer p f).1 rest).2) := rfl

theorem reassemble_append (p : Pending V cap) (fs gs : List φ) :
    reassemble p (fs ++ gs) =
      ((reassemble (reassemble p fs).1 gs).1,
        (reassemble p fs).2 ++ (reassemble (reassemble p fs).1 gs).2) := by
  induction fs generalizing p with
  | nil => simp
  | cons f rest ih =>
      simp only [List.cons_append, reassemble_cons, ih, List.append_assoc]

/-! ## A train offered to an idle reassembler -/

/-- A prefix of a train that stops short of its last fragment is pending. -/
private theorem reassemble_prefix {parts : List φ} (htrain : V.Train cap parts) :
    ∀ (rest : List φ) (p : Pending V cap), p.parts ++ rest = parts → rest ≠ [] →
      reassemble p rest = (.idle, [parts]) := by
  intro rest
  induction rest with
  | nil => intro p _ hne; exact absurd rfl hne
  | cons f rest ih =>
      intro p hsplit _
      have hget : parts[p.parts.length]? = some f := by
        rw [← hsplit]
        simp
      have hmem : f ∈ parts := List.mem_of_getElem? hget
      have hcont : p.Continues f := by
        refine ⟨htrain.frag f hmem, htrain.seq _ f hget, ?_, ?_⟩
        · intro g hg
          exact htrain.ident g (by rw [← hsplit]; exact List.mem_append_left _ hg) f hmem
        · have hfits := htrain.fits
          rw [← hsplit, List.append_cons, V.bytes_append, V.bytes_append] at hfits
          simp only [View.bytes_singleton, List.length_append] at hfits
          omega
      have hlast := htrain.more _ f hget
      rw [← hsplit, List.length_append, List.length_cons] at hlast
      rw [reassemble_cons]
      cases rest with
      | nil =>
          -- `f` is the last fragment: its flag is clear and the train comes out
          have hmore : V.more f = false := by
            cases hm : V.more f with
            | false => rfl
            | true =>
                have := hlast.mp hm
                simp at this
          rw [offer_last hcont hmore]
          simpa using hsplit
      | cons g rest =>
          have hmore : V.more f = true := hlast.mpr (by simp)
          obtain ⟨hparts, hnone⟩ := offer_continue hcont hmore
          rw [hnone, ih (offer p f).1 (by rw [hparts, ← hsplit]; simp) (by simp)]
          rfl

/-- **Completeness.** A train offered to an idle reassembler comes out whole
and leaves it idle. -/
theorem reassemble_train {parts : List φ} (htrain : V.Train cap parts) :
    reassemble (.idle : Pending V cap) parts = (.idle, [parts]) :=
  reassemble_prefix htrain parts .idle rfl htrain.nonempty

/-- **Deafness.** While a train is pending, fragments under any other
identifier are all refused. -/
theorem reassemble_foreign {p : Pending V cap} {g : φ} (hg : g ∈ p.parts) :
    ∀ {fs : List φ}, (∀ f ∈ fs, V.ident f ≠ V.ident g) → reassemble p fs = (p, []) := by
  intro fs
  induction fs with
  | nil => intro _; rfl
  | cons f rest ih =>
      intro hne
      have hreject : ¬ p.Continues f := by
        rintro ⟨_, _, hident, _⟩
        exact hne f List.mem_cons_self (hident g hg).symm
      rw [reassemble_cons, offer_reject hreject,
        ih fun f' hf' => hne f' (List.mem_cons_of_mem _ hf')]
      rfl

/-! ## Soundness -/

/-- The input `fs` split into episodes, one for each train of `trains`, and a
tail in which `p` is still pending. -/
def Splits (fs : List φ) (p : Pending V cap) (trains : List (List φ)) : Prop :=
  ∃ (es : List (Episode φ)) (gap window : List φ),
    fs = es.flatMap Episode.input ++ (gap ++ window) ∧
    trains = es.map Episode.train ∧ (∀ e ∈ es, e.Ok V cap) ∧
    p.parts.Sublist window ∧ window.head? = p.parts.head?

/-- One more input extends the split. -/
theorem Splits.snoc {fs : List φ} {p : Pending V cap} {trains : List (List φ)}
    (h : Splits fs p trains) (f : φ) :
    Splits (fs ++ [f]) (offer p f).1 (trains ++ (offer p f).2.toList) := by
  obtain ⟨es, gap, window, rfl, rfl, hes, hsub, hhead⟩ := h
  have hgrow : (window ++ [f]).head? = (p.parts ++ [f]).head? := by
    rw [List.head?_append, List.head?_append, hhead]
  have hpick : (p.parts ++ [f]).Sublist (window ++ [f]) :=
    List.Sublist.append hsub (List.Sublist.refl _)
  rcases offer_cases p f with ⟨_, hoff⟩ | ⟨_, _, hparts, hnone⟩ | ⟨hcont, hmore, hoff⟩
  · -- refused: the tail grows, in the gap while idle and in the window after
    rw [hoff]
    cases hp : p.parts with
    | nil =>
        rw [hp] at hhead
        obtain rfl : window = [] := by simpa using hhead
        exact ⟨es, gap ++ [f], [], by simp, by simp, hes, by simp [hp], by simp [hp]⟩
    | cons g gs =>
        refine ⟨es, gap, window ++ [f], by simp, by simp, hes,
          hsub.trans (List.sublist_append_left _ _), ?_⟩
        rw [List.head?_append, hhead, hp]
        rfl
  · rw [hnone]
    exact ⟨es, gap, window ++ [f], by simp, by simp, hes, by rwa [hparts], by rwa [hparts]⟩
  · -- completed: the tail becomes a new episode
    rw [hoff]
    refine ⟨es ++ [⟨gap, window ++ [f], p.parts ++ [f]⟩], [], [], ?_, ?_, ?_, ?_, ?_⟩
    · simp [Episode.input]
    · simp
    · intro e he
      rcases List.mem_append.mp he with he | he
      · exact hes e he
      · rw [List.mem_singleton.mp he]
        exact ⟨hcont.train hmore, hpick, hgrow, by simp⟩
    · exact List.Sublist.refl _
    · rfl

/-- **Soundness.** Whatever is offered to an idle reassembler, every train that
comes out is a complete train picked in order from a window of its own. -/
theorem reassemble_splits (fs : List φ) :
    Splits fs (reassemble (.idle : Pending V cap) fs).1
      (reassemble (.idle : Pending V cap) fs).2 := by
  induction fs using List.reverseRecOn with
  | nil => exact ⟨[], [], [], by simp⟩
  | append_singleton fs f ih =>
      rw [reassemble_append, reassemble_cons, reassemble_nil, List.append_nil]
      exact ih.snoc f

/-! ## A train that lost fragments -/

/-- As long as no train comes out, what is pending stays pending. -/
theorem parts_prefix_of_quiet {fs : List φ} :
    ∀ {p : Pending V cap}, (reassemble p fs).2 = [] → p.parts <+: (reassemble p fs).1.parts := by
  induction fs with
  | nil => intro p _; exact List.prefix_refl _
  | cons f rest ih =>
      intro p hquiet
      rw [reassemble_cons, List.append_eq_nil_iff] at hquiet
      rw [reassemble_cons]
      rcases offer_cases p f with ⟨_, hoff⟩ | ⟨_, _, hparts, _⟩ | ⟨_, _, hoff⟩
      · rw [hoff] at hquiet ⊢
        exact ih hquiet.2
      · have hrest := ih hquiet.2
        rw [hparts] at hrest
        exact (List.prefix_append _ _).trans hrest
      · rw [hoff] at hquiet
        simp at hquiet

/-- Fragments an idle reassembler refuses leave it idle. -/
theorem reassemble_idle {fs : List φ} (h : ∀ f ∈ fs, ¬ (.idle : Pending V cap).Continues f) :
    reassemble (.idle : Pending V cap) fs = (.idle, []) := by
  induction fs with
  | nil => rfl
  | cons f rest ih =>
      rw [reassemble_cons, offer_reject (h f List.mem_cons_self),
        ih fun f' hf' => h f' (List.mem_cons_of_mem _ hf')]
      rfl

/-- The reassembler takes the first fragment that is left of a train. -/
def View.Starts (V : View φ ι β) (cap : Nat) (train left : List φ) : Prop :=
  ∃ f, left.head? = some f ∧ train.head? = some f ∧ (V.payload f).length ≤ cap

/-- **Loss.** What is left of a train, offered in order to an idle reassembler: the
train comes out if nothing was lost and there is room for it. Otherwise nothing comes
out, and the reassembler is stuck with fragments of the train exactly where it took
the first one. -/
theorem reassemble_lossy (cap : Nat) {train left : List φ} {cap' : Nat}
    (htrain : V.Train cap' train) (hsub : left.Sublist train) :
    (left = train ∧ (V.bytes train).length ≤ cap ∧
      reassemble (.idle : Pending V cap) left = (.idle, [train])) ∨
    (¬ (left = train ∧ (V.bytes train).length ≤ cap) ∧
      (reassemble (.idle : Pending V cap) left).2 = [] ∧
      (∀ f ∈ (reassemble (.idle : Pending V cap) left).1.parts, f ∈ train) ∧
      ((reassemble (.idle : Pending V cap) left).1.parts ≠ [] ↔ V.Starts cap train left)) := by
  by_cases hwhole : left = train ∧ (V.bytes train).length ≤ cap
  · obtain ⟨rfl, hfits⟩ := hwhole
    have hcap : V.Train cap left := { htrain with fits := hfits }
    exact .inl ⟨rfl, hfits, reassemble_train hcap⟩
  refine .inr ⟨hwhole, ?_⟩
  have hsplits : Splits left (reassemble (.idle : Pending V cap) left).1
      (reassemble (.idle : Pending V cap) left).2 := reassemble_splits left
  obtain ⟨es, gap, window, hinput, houts, hes, hparts, _⟩ := hsplits
  -- a train that came out would be this one, with nothing lost
  have hquiet : (reassemble (.idle : Pending V cap) left).2 = [] := by
    rw [houts, List.map_eq_nil_iff, List.eq_nil_iff_forall_not_mem]
    intro e he
    have hwin : e.window.Sublist left := by
      rw [hinput]
      refine List.Sublist.trans ?_ (List.sublist_append_left _ _)
      exact (List.sublist_append_right e.gap e.window).trans
        (List.sublist_flatten_of_mem (List.mem_map_of_mem (f := Episode.input) he))
    have hpicked := (hes e he).picked.trans hwin
    have heq := (hes e he).train.eq_of_subset htrain (hpicked.trans hsub).subset
    rw [heq] at hpicked
    exact hwhole ⟨hsub.eq_of_length_le hpicked.length_le, heq ▸ (hes e he).train.fits⟩
  have hleft : (reassemble (.idle : Pending V cap) left).1.parts.Sublist left := by
    refine hparts.trans ?_
    conv_rhs => rw [hinput]
    exact ((List.sublist_append_right gap window).trans (List.sublist_append_right _ _))
  refine ⟨hquiet, fun f hf => hsub.subset (hleft.subset hf), ?_⟩
  constructor
  · -- the first fragment taken is the head of the train, and nothing stands before it
    intro hne
    by_contra hstart
    apply hne
    rw [reassemble_idle]
    · rfl
    · intro f hf hcont
      obtain ⟨hhead, hroom⟩ := (Pending.continues_idle_iff htrain (hsub.subset hf)).mp hcont
      apply hstart
      cases train with
      | nil => cases hhead
      | cons g rest =>
          obtain rfl := Option.some.inj hhead
          cases hsub with
          | cons _ hrest =>
              -- it would occur twice in the train
              obtain ⟨j, hj⟩ := List.mem_iff_getElem?.mp (hrest.subset hf)
              have hzero := htrain.seq 0 g rfl
              have hsucc := htrain.seq (j + 1) g hj
              omega
          | cons_cons _ hrest => exact ⟨g, rfl, rfl, hroom⟩
  · rintro ⟨f, hhead, hfirst, hroom⟩
    cases left with
    | nil => cases hhead
    | cons g rest =>
        obtain rfl := Option.some.inj hhead
        have hmem := hsub.subset (List.mem_cons_self (a := g) (l := rest))
        have hcont : (.idle : Pending V cap).Continues g :=
          (Pending.continues_idle_iff htrain hmem).mpr ⟨hfirst, hroom⟩
        rw [reassemble_cons, List.append_eq_nil_iff] at hquiet
        rw [reassemble_cons]
        rcases offer_cases (.idle : Pending V cap) g with
          ⟨hno, _⟩ | ⟨_, _, hgrown, _⟩ | ⟨_, _, hdone⟩
        · exact absurd hcont hno
        · have hkept := parts_prefix_of_quiet hquiet.2
          rw [hgrown] at hkept
          intro hnil
          rw [hnil] at hkept
          simp at hkept
        · rw [hdone] at hquiet
          simp at hquiet

end Offer

/-! ## Cutting a packet into pieces -/

/-- The `j`-th piece of size `k`. -/
def piece (k : Nat) (data : List β) (j : Nat) : List β := (data.drop (j * k)).take k

theorem piece_length_le (k : Nat) (data : List β) (j : Nat) :
    (piece k data j).length ≤ k := List.length_take_le _ _

/-- The first `n` pieces are the first `n * k` elements. -/
theorem flatMap_piece (k : Nat) (data : List β) (n : Nat) :
    (List.range n).flatMap (piece k data) = data.take (n * k) := by
  induction n with
  | zero => simp
  | succ n ih =>
      rw [List.range_succ, List.flatMap_append, ih, Nat.succ_mul, List.take_add]
      simp [piece]

/-- Enough pieces make up the packet. -/
theorem flatMap_piece_eq {k : Nat} {data : List β} {n : Nat} (h : data.length ≤ n * k) :
    (List.range n).flatMap (piece k data) = data := by
  rw [flatMap_piece, List.take_of_length_le h]

end Reassembly
