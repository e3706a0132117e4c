import NdnRiot.Lib.Contention
import NdnRiot.Theorems.LossyLink

/-!
# Several senders at one netface

Frames of any number of transmissions, under distinct identifiers, reach one netface in
any order, lost and repeated. The netface is a server with a single place: a packet
within the MTU is delivered at once, and a train only if all of it comes while no other
train is pending (`contention`).

If every transmission comes whole and in order, in whatever interleaving with the
others, the netface is idle in the end, and a train is lost exactly if its first
fragment comes between the first and the last one of a train that is delivered
(`contention_whole`). So without loss the netface never goes deaf, and only with a
single train at a time is everything delivered.
-/

namespace NdnRiot

open Reassembly SinglePlace

section Jobs

variable {κ : Type*}

/-- The train of a transmission. -/
def Transmission.train (tx : Transmission) : List (List UInt8) :=
  trainFrames tx.mtu.toNat tx.packet tx.identifier

/-- The transmissions as jobs: a packet within the MTU needs no place, and of a train
there is room for the fragments that fit the buffer. -/
def jobsOf (tx : κ → Transmission) : Jobs κ where
  size j :=
    if (tx j).packet.length ≤ (tx j).mtu.toNat then 1
    else fragCount (tx j).packet.length (tx j).mtu.toNat
  direct j := decide ((tx j).packet.length ≤ (tx j).mtu.toNat)
  room j k := decide ((fragView.bytes ((tx j).train.take (k + 1))).length ≤ fragBufferSize)
  size_direct _ h := if_pos (of_decide_eq_true h)

theorem jobsOf_direct {tx : κ → Transmission} {j : κ} :
    (jobsOf tx).direct j = false ↔ (tx j).mtu.toNat < (tx j).packet.length := by
  simp [jobsOf]

/-- Transmissions that put something on the link, under identifiers of their own. -/
structure OnLink (tx : κ → Transmission) : Prop where
  sound : ∀ j, (tx j).Sound
  frames : ∀ j, (tx j).frames ≠ []
  apart : ∀ i j, i ≠ j → Apart (tx i).frames (tx j).frames

variable {tx : κ → Transmission} (hlink : OnLink tx)

include hlink

/-- The first frame of a train is on the link. -/
theorem OnLink.fragment {j : κ} (hlarge : (tx j).mtu.toNat < (tx j).packet.length) :
    ndnFragHdrLen < (tx j).mtu.toNat ∧ fragView.Train (tx j).packet.length (tx j).train ∧
      ∃ f ∈ (tx j).frames, headerBit f = true ∧ fragIdent f = (tx j).identifier.toNat := by
  obtain ⟨f, hf⟩ := List.exists_mem_of_ne_nil _ (hlink.frames j)
  obtain ⟨hsub, hguards⟩ := (hlink.sound j).left (List.Sublist.refl _) hlarge
  obtain ⟨hmtu, htrain⟩ := hguards (hlink.frames j)
  have hbit := (hlink.sound j).left_bits (List.Sublist.refl _) hlarge f hf
  obtain ⟨_, _, _, hident⟩ := (hlink.sound j).fragment hf hbit
  exact ⟨hmtu, htrain, f, hf, hbit, hident⟩

/-- They are trains for the reassembler. -/
theorem OnLink.trains :
    fragView.Trains fragBufferSize (jobsOf tx) fun j => (tx j).train where
  whole j hdirect := by
    obtain ⟨_, htrain, _⟩ := hlink.fragment (jobsOf_direct.mp hdirect)
    exact ⟨_, htrain⟩
  size j hdirect := by
    have hlarge := jobsOf_direct.mp hdirect
    show (if _ then 1 else _) = _
    rw [if_neg (by omega), Transmission.train, length_trainFrames]
  room j k _ := decide_eq_true_iff
  distinct i j hi hj f hf g hg hident := by
    by_contra hne
    obtain ⟨_, _, f', hf', hbit, hident'⟩ := hlink.fragment (jobsOf_direct.mp hi)
    obtain ⟨_, _, g', hg', hbit', hident''⟩ := hlink.fragment (jobsOf_direct.mp hj)
    refine hlink.apart i j hne f' hf' g' hg' hbit hbit' ?_
    obtain ⟨_, _, rfl⟩ := mem_trainFrames.mp hf
    obtain ⟨_, _, rfl⟩ := mem_trainFrames.mp hg
    rw [hident', hident'']
    simpa using hident

variable [DecidableEq κ]

/-- **One frame.** -/
theorem OnLink.receive {p : Rx} {place : Option (κ × Nat)}
    (hshows : p.Shows (jobsOf tx) (fun j => (tx j).train) place) {j : κ} {k : Nat}
    {f : List UInt8} (hf : (tx j).frames[k]? = some f) :
    (linkReceive p f).1.Shows (jobsOf tx) (fun j => (tx j).train)
        (step (jobsOf tx) place (j, k)).1 ∧
      (linkReceive p f).2 =
        (step (jobsOf tx) place (j, k)).2.toList.map fun j => (tx j).packet := by
  have hmem := List.mem_of_getElem? hf
  by_cases hlarge : (tx j).mtu.toNat < (tx j).packet.length
  · have hdirect := jobsOf_direct.mpr hlarge
    obtain ⟨hmtu, _, _⟩ := hlink.fragment hlarge
    have hbit := (hlink.sound j).left_bits (List.Sublist.refl _) hlarge f hmem
    have htrain : (tx j).train[k]? = some f := by
      have hprefix := (hlink.sound j).frames
      rw [packetFrames, if_pos hlarge] at hprefix
      obtain ⟨rest, hrest⟩ := hprefix
      rw [Transmission.train, ← hrest,
        List.getElem?_append_left (List.getElem?_eq_some_iff.mp hf).1]
      exact hf
    obtain ⟨hstate, hout⟩ := hshows.offer hlink.trains hdirect htrain
    rw [linkReceive, if_pos hbit]
    refine ⟨hstate, ?_⟩
    rw [hout]
    cases hdone : (step (jobsOf tx) place (j, k)).2 with
    | none => rfl
    | some i =>
        -- only the job of the fragment can be done with it
        have hi : i = j := by
          unfold step at hdone
          split_ifs at hdone <;> simp_all
        rw [hi]
        show [fragView.bytes (tx j).train] = [(tx j).packet]
        rw [Transmission.train, bytes_trainFrames _ _ hmtu]
  · have hdirect : (jobsOf tx).direct j = true := decide_eq_true (Nat.le_of_not_lt hlarge)
    have hbit : headerBit f = false := by
      cases hbit : headerBit f with
      | false => rfl
      | true =>
          have hframe := (hlink.sound j).frames.mem hmem
          rw [packetFrames, if_neg hlarge, List.mem_singleton] at hframe
          rw [hframe, (hlink.sound j).tlv] at hbit
          cases hbit
    rw [linkReceive, hbit, (hlink.sound j).whole hmem hbit, step, if_pos hdirect]
    exact ⟨hshows, rfl⟩

/-- **Every list of frames.** -/
theorem OnLink.receiveAll {arrivals : List (κ × Nat)} {frames : List (List UInt8)}
    (harrive : List.Forall₂ (fun a f => (tx a.1).frames[a.2]? = some f) arrivals frames) :
    ∀ {p : Rx} {place : Option (κ × Nat)},
      p.Shows (jobsOf tx) (fun j => (tx j).train) place →
      (linkReceiveAll p frames).1.Shows (jobsOf tx) (fun j => (tx j).train)
          (serve (jobsOf tx) place arrivals).1 ∧
        (linkReceiveAll p frames).2.flatten =
          (serve (jobsOf tx) place arrivals).2.map fun j => (tx j).packet := by
  induction harrive with
  | nil => intro p place hshows; exact ⟨hshows, rfl⟩
  | cons hf _ ih =>
      intro p place hshows
      obtain ⟨hstate, hout⟩ := hlink.receive hshows hf
      obtain ⟨hend, hrest⟩ := ih hstate
      rw [serve_cons]
      refine ⟨hend, ?_⟩
      rw [linkReceiveAll, List.flatten_cons, hout, hrest, List.map_append]

/-- What a netface makes of the frames. -/
theorem OnLink.netface {P : Platform} (hP : P.Documented) {peer : Netface} (self : FaceRef)
    (hidle : peer.Idle) {arrivals : List (κ × Nat)} {snips : List Snip}
    (harrive : List.Forall₂ (fun a s => s.type = .ndn ∧ (tx a.1).frames[a.2]? = some s.data)
      arrivals snips) :
    ∃ peer' calls p, NdnRiot.receiveAll P self peer snips = .ok (peer', calls) ∧
      peer'.Holds p ∧
      p.Shows (jobsOf tx) (fun j => (tx j).train) (serve (jobsOf tx) none arrivals).1 ∧
      deliveries calls.flatten =
        (serve (jobsOf tx) none arrivals).2.map fun j => (self, (tx j).packet) := by
  have hframes : List.Forall₂ (fun a f => (tx a.1).frames[a.2]? = some f) arrivals
      (snips.map Snip.data) :=
    List.forall₂_map_right_iff.mpr (harrive.imp fun _ _ h => h.2)
  have hok : Arrivals snips := by
    intro s hs
    obtain ⟨i, hi, rfl⟩ := List.getElem_of_mem hs
    obtain ⟨htype, hframe⟩ := harrive.get (i := i) (by rw [harrive.length_eq]; exact hi) hi
    exact ⟨htype, (hlink.sound _).readable (List.mem_of_getElem? hframe)⟩
  obtain ⟨peer', calls, hrecv, hold, _, hdel⟩ :=
    receiveAll_spec hP self (holds_idle_iff.mpr hidle) hok
  have hnothing : (.idle : Rx).Shows (jobsOf tx) (fun j => (tx j).train) none := rfl
  obtain ⟨hstate, hout⟩ := hlink.receiveAll hframes hnothing
  refine ⟨peer', calls, _, hrecv, hold, hstate, ?_⟩
  rw [deliveries_flatten, hdel, ← List.map_flatten, hout, List.map_map]
  rfl

end Jobs

section Results

variable {κ : Type*} [DecidableEq κ] {P : Platform} (hP : P.Documented)
  {tx : κ → Transmission} (hlink : OnLink tx) {peer : Netface} (self : FaceRef)
  (hidle : peer.Idle) {arrivals : List (κ × Nat)} {snips : List Snip}
  (harrive : List.Forall₂ (fun a s => s.type = .ndn ∧ (tx a.1).frames[a.2]? = some s.data)
    arrivals snips)

include hP hlink hidle harrive

/-- **Contention.** Whichever frames of the transmissions arrive, in whatever order and
however often, an idle netface delivers what a server with a single place gets done. -/
theorem contention :
    ∃ peer' calls, receiveAll P self peer snips = .ok (peer', calls) ∧
      deliveries calls.flatten =
        (serve (jobsOf tx) none arrivals).2.map fun j => (self, (tx j).packet) := by
  obtain ⟨peer', calls, _, hrecv, _, _, hdel⟩ := hlink.netface hP self hidle harrive
  exact ⟨peer', calls, hrecv, hdel⟩

/-- **No loss on the link.** Where all transmissions that arrive do so whole and in order,
and packets fit the buffer, the netface is idle in the end, and has delivered each
packet once, but those of the trains that started while another one was received that
was delivered. -/
theorem contention_whole (hwhole : Rest (jobsOf tx) (fun _ => 0) arrivals)
    (hfits : ∀ j, (tx j).packet.length ≤ fragBufferSize) :
    ∃ peer' calls, ∃ served : List κ,
      receiveAll P self peer snips = .ok (peer', calls) ∧ peer'.Idle ∧
      deliveries calls.flatten = served.map (fun j => (self, (tx j).packet)) ∧
      served.Nodup ∧
      ∀ before j after, arrivals = before ++ (j, 0) :: after →
        (j ∈ served ↔ (tx j).packet.length ≤ (tx j).mtu.toNat ∨
          ¬ ∃ i ∈ served, (tx i).mtu.toNat < (tx i).packet.length ∧
            Occurs i before ∧ Occurs i after) := by
  have hroom : ∀ j k, (jobsOf tx).direct j = false → k < (jobsOf tx).size j →
      (jobsOf tx).room j k = true := by
    intro j k hdirect _
    obtain ⟨hmtu, _⟩ := hlink.fragment (jobsOf_direct.mp hdirect)
    have hbytes : (fragView.bytes (tx j).train).length ≤ fragBufferSize := by
      rw [Transmission.train, bytes_trainFrames _ _ hmtu]
      exact hfits j
    rw [← List.take_append_drop (k + 1) (tx j).train, fragView.bytes_append,
      List.length_append] at hbytes
    exact decide_eq_true (by omega)
  have hempty : Working (jobsOf tx) (fun _ => 0) none := trivial
  obtain ⟨peer', calls, p, hrecv, hold, hshows, hdel⟩ := hlink.netface hP self hidle harrive
  rw [(serve_idle hroom hwhole hempty).1] at hshows
  rw [Pending.eq_idle hshows] at hold
  refine ⟨peer', calls, (serve (jobsOf tx) none arrivals).2, hrecv, holds_idle_iff.mp hold,
    hdel, serve_nodup hroom hwhole hempty, ?_⟩
  rintro before j after rfl
  by_cases hsmall : (tx j).packet.length ≤ (tx j).mtu.toNat
  · have hdone : j ∈ (serve (jobsOf tx) none (before ++ (j, 0) :: after)).2 :=
      mem_serve_of_direct _ (decide_eq_true hsmall)
        (List.mem_append_right before List.mem_cons_self)
    exact ⟨fun _ => .inl hsmall, fun _ => hdone⟩
  · have hdirect := jobsOf_direct.mpr (Nat.lt_of_not_le hsmall)
    rw [served_iff hroom hdirect hwhole]
    simp [hsmall, jobsOf_direct]

end Results

/-- Three senders: two of a train, one of a packet within the MTU of 5. -/
inductive Sender
  | first
  | second
  | short
  deriving DecidableEq

/-- What they transmit. -/
def threeSenders : Sender → Transmission
  | .first => ⟨5, [6, 4, 1, 2, 3, 4], 7, trainFrames 5 [6, 4, 1, 2, 3, 4] 7⟩
  | .second => ⟨5, [6, 4, 5, 6, 7, 8], 8, trainFrames 5 [6, 4, 5, 6, 7, 8] 8⟩
  | .short => ⟨5, [5, 1, 9], 0, [[5, 1, 9]]⟩

theorem onLink_threeSenders : OnLink threeSenders where
  sound
    | .first | .second | .short => ⟨by decide, by decide, by decide, by decide, by decide⟩
  frames
    | .first | .second | .short => by decide
  apart i j := by cases i <;> cases j <;> decide

/-- The snips of the frames that arrive. -/
def snipsOf (arrivals : List (Sender × Nat)) : List Snip :=
  arrivals.map fun (j, k) => ⟨0, .ndn, (threeSenders j).frames.getD k []⟩

/-- The frames of the senders in turn. -/
def inTurn : List (Sender × Nat) := [(.first, 0), (.second, 0), (.first, 1), (.short, 0), (.second, 1), (.first, 2), (.second, 2)]

/-- The netface before the first frame. -/
def idlePeer : Netface := Netface.zeroed.initAssembler reference

/-- The second train loses its last frame, and the first one comes twice. -/
theorem contention_twice :
    let arrivals := [(.second, 0), (.first, 0), (.second, 1), (.first, 0), (.first, 1), (.short, 0), (.first, 2)]
    (serve (jobsOf threeSenders) none arrivals).2 = [.short] ∧
    ∃ peer' calls, receiveAll reference (.netface 0) idlePeer (snipsOf arrivals) =
        .ok (peer', calls) ∧
      deliveries calls.flatten = (serve (jobsOf threeSenders) none arrivals).2.map
        fun j => (.netface 0, (threeSenders j).packet) := by
  refine ⟨by decide, contention reference_documented onLink_threeSenders (.netface 0)
    ⟨rfl, rfl, rfl, rfl⟩ ?_⟩
  repeat' constructor

/-- Of two trains in turn the first one is delivered. -/
theorem contention_whole_inTurn :
    (serve (jobsOf threeSenders) none inTurn).2 = [.short, .first] ∧
    ∃ peer' calls, ∃ served : List (Sender),
      receiveAll reference (.netface 0) idlePeer (snipsOf inTurn) = .ok (peer', calls) ∧
      peer'.Idle ∧
      deliveries calls.flatten =
        served.map (fun j => (.netface 0, (threeSenders j).packet)) ∧
      served.Nodup ∧
      ∀ before j after, inTurn = before ++ (j, 0) :: after →
        (j ∈ served ↔ (threeSenders j).packet.length ≤ (threeSenders j).mtu.toNat ∨
          ¬ ∃ i ∈ served, (threeSenders i).mtu.toNat < (threeSenders i).packet.length ∧
            Occurs i before ∧ Occurs i after) := by
  have hwhole : Rest (jobsOf threeSenders) (fun _ => 0) inTurn
    | .first, _ | .second, _ | .short, _ => ⟨by decide, by decide⟩
  have hfits : ∀ j, (threeSenders j).packet.length ≤ fragBufferSize
    | .first | .second | .short => by decide
  refine ⟨by decide, contention_whole reference_documented onLink_threeSenders (.netface 0)
    ⟨rfl, rfl, rfl, rfl⟩ ?_ hwhole hfits⟩
  repeat' constructor

end NdnRiot
