import Mathlib.Data.List.Basic

/-!
# Packets on a stream of frames

A sender turns packets into frames, a channel keeps the frames in order, and a receiver,
which has a state, turns them back into packets. The state in between is messy: frames
are in flight, and the receiver may be in the middle of a packet. `Receiver.InStep` says
what holds of it all the same: what is in flight completes what was delivered to what was
sent. The rules are one for each thing that can happen, and what follows at any time.
-/

namespace Streams

variable {π φ ρ : Type*}

/-- A receiver: its state at rest, and what a frame makes of a state, with the packets
that come out. -/
structure Receiver (π φ ρ : Type*) where
  rest : ρ
  receive : ρ → φ → ρ × List π

namespace Receiver

variable (R : Receiver π φ ρ)

/-- One frame after the other. -/
def receiveAll : ρ → List φ → ρ × List π
  | s, [] => (s, [])
  | s, f :: frames =>
      ((receiveAll (R.receive s f).1 frames).1,
        (R.receive s f).2 ++ (receiveAll (R.receive s f).1 frames).2)

@[simp] theorem receiveAll_nil (s : ρ) : R.receiveAll s [] = (s, []) := rfl

theorem receiveAll_cons (s : ρ) (f : φ) (frames : List φ) :
    R.receiveAll s (f :: frames) =
      ((R.receiveAll (R.receive s f).1 frames).1,
        (R.receive s f).2 ++ (R.receiveAll (R.receive s f).1 frames).2) := rfl

theorem receiveAll_append (s : ρ) (frames more : List φ) :
    R.receiveAll s (frames ++ more) =
      ((R.receiveAll (R.receiveAll s frames).1 more).1,
        (R.receiveAll s frames).2 ++ (R.receiveAll (R.receiveAll s frames).1 more).2) := by
  induction frames generalizing s with
  | nil => rfl
  | cons f rest ih =>
      rw [List.cons_append, receiveAll_cons, ih, receiveAll_cons, List.append_assoc]

/-- A receiver at rest turns the frames into the packets, and rests again. -/
def Encodes (frames : List φ) (packets : List π) : Prop :=
  R.receiveAll R.rest frames = (R.rest, packets)

/-- What is in flight, the oldest frame first, completes what was delivered to what was
sent, and leaves the receiver at rest. -/
def InStep (sent : List π) (flight : List φ) (s : ρ) (delivered : List π) : Prop :=
  ∃ pending, R.receiveAll s flight = (R.rest, pending) ∧ sent = delivered ++ pending

variable {R} {sent delivered : List π} {flight : List φ} {s : ρ}

/-- Nothing was sent. -/
theorem InStep.start : R.InStep [] [] R.rest [] := ⟨[], rfl, rfl⟩

/-- Packets are sent: their frames come behind those in flight. -/
theorem InStep.send (h : R.InStep sent flight s delivered) {frames : List φ}
    {packets : List π} (hencodes : R.Encodes frames packets) :
    R.InStep (sent ++ packets) (flight ++ frames) s delivered := by
  obtain ⟨pending, hflight, rfl⟩ := h
  refine ⟨pending ++ packets, ?_, List.append_assoc _ _ _⟩
  rw [receiveAll_append, hflight, hencodes]

/-- The receiver takes frames, the oldest ones in flight. -/
theorem InStep.take {frames : List φ} (h : R.InStep sent (frames ++ flight) s delivered) :
    R.InStep sent flight (R.receiveAll s frames).1
      (delivered ++ (R.receiveAll s frames).2) := by
  obtain ⟨pending, hflight, rfl⟩ := h
  rw [receiveAll_append] at hflight
  obtain ⟨hrest, rfl⟩ := Prod.mk.inj hflight
  exact ⟨_, Prod.ext hrest rfl, (List.append_assoc _ _ _).symm⟩

/-- Where nothing is in flight, everything was delivered. -/
theorem InStep.drained (h : R.InStep sent [] s delivered) : delivered = sent := by
  obtain ⟨pending, hflight, rfl⟩ := h
  obtain ⟨_, rfl⟩ := Prod.mk.inj hflight
  exact (List.append_nil _).symm

end Receiver

end Streams
