import NdnRiot.Lib.Reassembly
import NdnRiot.Model.L2

/-!
# The receive path refines in-order reassembly

`fragView` reads the wire format as fragments of `Lib.Reassembly`, and
`Netface.Holds face p` says that the assembler and the buffer of the netface
hold exactly the pending train `p`. On a readable frame `ndn_l2_process_packet`
does to the netface what `Reassembly.offer` does to `p`, and delivers the trains
that come out (`ndnL2ProcessPacket_spec`); on lists of frames the same holds of
`receiveAll` and `linkReceiveAll` (`receiveAll_spec`).
-/

namespace NdnRiot

open Reassembly

/-- Frames as fragments. -/
def fragView : View (List UInt8) Nat UInt8 where
  frag := headerBit
  ident := fragIdent
  seq := fragSeq
  more := moreFragments
  payload := fragPayload

@[simp] theorem fragView_frag : fragView.frag = headerBit := rfl
@[simp] theorem fragView_ident : fragView.ident = fragIdent := rfl
@[simp] theorem fragView_seq : fragView.seq = fragSeq := rfl
@[simp] theorem fragView_more : fragView.more = moreFragments := rfl
@[simp] theorem fragView_payload : fragView.payload = fragPayload := rfl

/-- A frame whose header can be read: not empty, and three bytes long when its
header bit announces a fragment. -/
def Readable (frame : List UInt8) : Prop :=
  frame ≠ [] ∧ (headerBit frame = true → ndnFragHdrLen ≤ frame.length)

instance (frame : List UInt8) : Decidable (Readable frame) :=
  inferInstanceAs (Decidable (_ ∧ _))

theorem readable_of_length {frame : List UInt8} (h : ndnFragHdrLen ≤ frame.length) :
    Readable frame :=
  ⟨by rintro rfl; simp [ndnFragHdrLen] at h, fun _ => h⟩

/-- The reassembly state of a netface. -/
abbrev Rx := Pending fragView fragBufferSize

/-- The assembler and the buffer of the netface hold the pending train. -/
structure Netface.Holds (face : Netface) (p : Rx) : Prop where
  unfinished : face.assembler.isFinished = false
  maxSize : face.assembler.originalMaxSize = fragBufferSize
  seq : face.assembler.seq = p.parts.length
  offset : face.assembler.offset = (fragView.bytes p.parts).length
  ident : ∀ f ∈ p.parts, fragIdent f = face.assembler.fragIdentifier
  buffer : face.fragBuffer.head face.assembler.offset = fragView.bytes p.parts

/-- Between two packets the offset stays within the buffer. -/
theorem Netface.Holds.offset_le {face : Netface} {p : Rx} (h : face.Holds p) :
    face.assembler.offset ≤ fragBufferSize := by
  rw [h.offset]
  exact p.inOrder.fits

/-- An initialised assembler holds no train. -/
theorem holds_initAssembler {P : Platform} (hP : P.Documented) (face : Netface) :
    (face.initAssembler P).Holds .idle := by
  obtain ⟨hmax, hfin, hseq, hoff⟩ := hP.assemblerInit fragBufferSize
  refine ⟨hfin, hmax, hseq, hoff, by simp, ?_⟩
  show (face.fragBuffer).head (P.assemblerInit fragBufferSize).offset = _
  rw [hoff]
  rfl

/-- The assembler is armed and no train is pending. -/
structure Netface.Idle (face : Netface) : Prop where
  unfinished : face.assembler.isFinished = false
  maxSize : face.assembler.originalMaxSize = fragBufferSize
  seq : face.assembler.seq = 0
  offset : face.assembler.offset = 0

theorem holds_idle_iff {face : Netface} : face.Holds .idle ↔ face.Idle := by
  constructor
  · intro h
    exact ⟨h.unfinished, h.maxSize, h.seq, h.offset⟩
  · intro h
    refine ⟨h.unfinished, h.maxSize, h.seq, h.offset, by simp, ?_⟩
    rw [h.offset]
    rfl

/-- The assembler waits for the fragments that continue the pending train. -/
theorem Netface.Holds.expects_iff {face : Netface} {p : Rx} (h : face.Holds p)
    {frame : List UInt8} (hbit : headerBit frame = true) :
    face.assembler.Expects frame ↔ p.Continues frame := by
  have hids : (face.assembler.seq = 0 ∨ fragIdent frame = face.assembler.fragIdentifier) ↔
      ∀ g ∈ p.parts, fragIdent g = fragIdent frame := by
    rw [h.seq, List.length_eq_zero_iff]
    constructor
    · rintro (hnil | hid) g hg
      · rw [hnil] at hg
        exact absurd hg (List.not_mem_nil)
      · rw [hid]
        exact h.ident g hg
    · intro hall
      cases hp : p.parts with
      | nil => exact .inl rfl
      | cons g gs =>
          have hg : g ∈ p.parts := by rw [hp]; exact List.mem_cons_self
          exact .inr ((hall g hg).symm.trans (h.ident g hg))
  unfold FragAssembler.Expects Pending.Continues
  rw [hids, h.offset, h.maxSize, h.seq]
  exact ⟨fun hexp => ⟨hbit, hexp⟩, fun hcont => hcont.2⟩

/-! ## One frame -/

/-- What a link-layer receiver is for: packets pass, fragments are reassembled. -/
def linkReceive (p : Rx) (frame : List UInt8) : Rx × List (List UInt8) :=
  if headerBit frame then
    ((offer p frame).1, (offer p frame).2.toList.map fragView.bytes)
  else (p, [frame])

/-- The netfaces differ in the reassembly state at most. -/
def Netface.SameLink (face face' : Netface) : Prop :=
  face' = { face with assembler := face'.assembler, fragBuffer := face'.fragBuffer }

theorem Netface.SameLink.refl (face : Netface) : face.SameLink face := rfl

theorem Netface.SameLink.trans {f g h : Netface} (hfg : f.SameLink g) (hgh : g.SameLink h) :
    f.SameLink h := by
  unfold Netface.SameLink at hfg hgh ⊢
  rw [hgh, hfg]

theorem Netface.SameLink.pid {f g : Netface} (h : f.SameLink g) : g.pid = f.pid := by
  rw [show g = _ from h]

/-- A snip of another type is discarded. -/
theorem ndnL2ProcessPacket_foreign (P : Platform) (self : FaceRef) (face : Netface)
    {snip : Snip} (htype : snip.type ≠ .ndn) :
    ndnL2ProcessPacket P self face (some snip) = .ok (some (-1), face, []) := by
  simp only [ndnL2ProcessPacket, deref_some, bind, Except.bind, if_pos htype]
  rfl

/-- A frame with the header bit clear is delivered as it is, and the netface is
left alone. -/
theorem ndnL2ProcessPacket_whole (P : Platform) (self : FaceRef) (face : Netface)
    {snip : Snip} (htype : snip.type = .ndn) (hne : snip.data ≠ [])
    (hbit : headerBit snip.data = false) :
    ndnL2ProcessPacket P self face (some snip) =
      .ok (none, face, [.ndnForwarderReceive self snip.data]) := by
  have h0 := readByte_of_lt (List.length_pos_iff.mpr hne)
  simp only [headerBit] at hbit
  simp only [ndnL2ProcessPacket, deref_some, bind, Except.bind, h0, htype, hbit, Snip.size,
    List.take_length, ne_eq, not_true_eq_false, if_false, Bool.false_eq_true]
  rfl

/-- A fragment goes to the assembler. -/
theorem ndnL2ProcessPacket_fragment (P : Platform) (self : FaceRef) (face : Netface)
    {snip : Snip} (htype : snip.type = .ndn) (hbit : headerBit snip.data = true)
    (hlen : ndnFragHdrLen ≤ snip.data.length) {ret : Int} {assembler : FragAssembler}
    {fragBuffer : FragBuffer}
    (hasm : P.assemblerAssembleFrag face.assembler face.fragBuffer snip.data =
      (ret, assembler, fragBuffer)) :
    ndnL2ProcessPacket P self face (some snip) =
      if assembler.isFinished then
        .ok (none, { face with assembler := P.assemblerInit fragBufferSize, fragBuffer },
          [.gnrcPktbufRelease snip,
            .ndnForwarderReceive self (fragBuffer.head assembler.offset)])
      else .ok (none, { face with assembler, fragBuffer }, [.gnrcPktbufRelease snip]) := by
  have h0 : readByte snip.data 0 = _ := readByte_of_lt (by unfold ndnFragHdrLen at hlen; omega)
  have h1 : readByte snip.data 1 = _ := readByte_of_lt (by unfold ndnFragHdrLen at hlen; omega)
  have h2 : readByte snip.data 2 = _ := readByte_of_lt (by unfold ndnFragHdrLen at hlen; omega)
  simp only [headerBit] at hbit
  simp only [ndnL2ProcessPacket, deref_some, bind, Except.bind, h0, h1, h2, htype, hbit,
    Snip.size, List.take_length, hasm, ne_eq, not_true_eq_false, if_false, if_true]
  rfl

/-- A frame whose header cannot be read is a read right behind its end. -/
theorem ndnL2ProcessPacket_unreadable (P : Platform) (self : FaceRef) (face : Netface)
    {snip : Snip} (htype : snip.type = .ndn) (hread : ¬ Readable snip.data) :
    ndnL2ProcessPacket P self face (some snip) =
      .error (.readBeyond snip.data.length snip.data.length) := by
  rcases hdata : snip.data with _ | ⟨b0, rest⟩
  · simp [ndnL2ProcessPacket, bind, Except.bind, htype, hdata, readByte]
  · have hbit : b0 &&& ndnFragHbMask ≠ 0 := by
      intro hzero
      exact hread (by rw [hdata]; exact ⟨by simp, by simp [headerBit, hzero]⟩)
    rcases rest with _ | ⟨b1, _ | ⟨b2, rest⟩⟩
    · simp [ndnL2ProcessPacket, bind, Except.bind, htype, hdata, readByte, hbit]
    · simp [ndnL2ProcessPacket, bind, Except.bind, htype, hdata, readByte, hbit]
    · exact absurd (readable_of_length (by simp [hdata, ndnFragHdrLen])) hread

/-- What a netface can process it can read. -/
theorem readable_of_processed {P : Platform} {self : FaceRef} {face : Netface} {snip : Snip}
    {result : Option Int × Netface × List Call} (htype : snip.type = .ndn)
    (h : ndnL2ProcessPacket P self face (some snip) = .ok result) : Readable snip.data := by
  by_contra hread
  rw [ndnL2ProcessPacket_unreadable P self face htype hread] at h
  cases h

/-- On a snip of another type or a readable frame `ndn_l2_process_packet` comes
to an end. -/
theorem ndnL2ProcessPacket_total (P : Platform) (self : FaceRef) (face : Netface)
    {snip : Snip} (h : snip.type ≠ .ndn ∨ Readable snip.data) :
    ∃ result, ndnL2ProcessPacket P self face (some snip) = .ok result := by
  by_cases htype : snip.type = .ndn
  · have hread := h.resolve_left (not_not_intro htype)
    cases hbit : headerBit snip.data with
    | false => exact ⟨_, ndnL2ProcessPacket_whole P self face htype hread.1 hbit⟩
    | true =>
        rw [ndnL2ProcessPacket_fragment P self face htype hbit (hread.2 hbit) rfl]
        split <;> exact ⟨_, rfl⟩
  · exact ⟨_, ndnL2ProcessPacket_foreign P self face htype⟩

/-- **One frame.** On a readable frame the netface follows the pending train. -/
theorem ndnL2ProcessPacket_spec {P : Platform} (hP : P.Documented) (self : FaceRef)
    {face : Netface} {p : Rx} (hold : face.Holds p) {snip : Snip}
    (htype : snip.type = .ndn) (hread : Readable snip.data) :
    ∃ face' calls,
      ndnL2ProcessPacket P self face (some snip) = .ok (none, face', calls) ∧
      face'.Holds (linkReceive p snip.data).1 ∧ face.SameLink face' ∧
      deliveries calls = (linkReceive p snip.data).2.map (self, ·) ∧
      releases calls = if headerBit snip.data then [snip] else [] := by
  cases hbit : headerBit snip.data with
  | false =>
      refine ⟨face, _, ndnL2ProcessPacket_whole P self face htype hread.1 hbit, ?_,
        .refl face, ?_, ?_⟩ <;> simp [linkReceive, hbit, hold]
  | true =>
      have hlen := hread.2 hbit
      have hspec := ndnL2ProcessPacket_fragment P self face htype hbit hlen rfl
      rw [linkReceive, if_pos hbit]
      by_cases hexp : face.assembler.Expects snip.data
      · have hcont := (hold.expects_iff hbit).mp hexp
        obtain ⟨_, hasm, hbuf⟩ := hP.assembleAccept _ face.fragBuffer _ hold.unfinished hlen hexp
        have hbytes := hbuf (Nat.le_of_eq hold.maxSize)
        have hmax := hold.maxSize
        have hseq := hold.seq
        have hoff := hold.offset
        rw [hold.buffer] at hbytes
        simp only [hasm] at hspec
        cases hmore : moreFragments snip.data with
        | true =>
            -- the train goes on
            obtain ⟨hparts, hnone⟩ := offer_continue hcont hmore
            rw [if_neg (by simp [FragAssembler.advance, hmore])] at hspec
            refine ⟨_, _, hspec, ⟨?_, hmax, ?_, ?_, ?_, ?_⟩, rfl, by simp [hnone], by simp⟩
            · simp [FragAssembler.advance, hmore]
            · simp [FragAssembler.advance, hparts, hseq]
            · simp [FragAssembler.advance, hparts, hoff]
            · intro f hf
              rw [hparts] at hf
              rcases List.mem_append.mp hf with hf | hf
              · exact hcont.2.2.1 f hf
              · rw [List.mem_singleton.mp hf]
                rfl
            · rw [hparts]
              simpa using hbytes
        | false =>
            -- the last fragment: delivery, and a fresh assembler
            rw [offer_last hcont hmore]
            rw [if_pos (by simp [FragAssembler.advance, hmore])] at hspec
            let buffer := (P.assemblerAssembleFrag face.assembler face.fragBuffer snip.data).2.2
            exact ⟨_, _, hspec, holds_initAssembler hP { face with fragBuffer := buffer }, rfl,
              by simpa using hbytes, by simp⟩
      · obtain ⟨_, hasm⟩ := hP.assembleReject _ face.fragBuffer _ hold.unfinished hlen hexp
        simp only [hasm, hold.unfinished] at hspec
        rw [offer_reject (mt (hold.expects_iff hbit).mpr hexp)]
        exact ⟨face, _, hspec, hold, rfl, by simp, by simp⟩

/-! ## Lists of frames -/

/-- `ndn_l2_process_packet` on one snip after the other: the netface in the end
and the calls made for each. -/
def receiveAll (P : Platform) (self : FaceRef) :
    Netface → List Snip → Except Fault (Netface × List (List Call))
  | face, [] => .ok (face, [])
  | face, snip :: rest => do
      let (_, face, calls) ← ndnL2ProcessPacket P self face (some snip)
      let (face, more) ← receiveAll P self face rest
      return (face, calls :: more)

/-- The receiver on one frame after the other: the pending train in the end and
the packets that came out of each frame. -/
def linkReceiveAll (p : Rx) : List (List UInt8) → Rx × List (List (List UInt8))
  | [] => (p, [])
  | frame :: rest =>
      ((linkReceiveAll (linkReceive p frame).1 rest).1,
        (linkReceive p frame).2 :: (linkReceiveAll (linkReceive p frame).1 rest).2)

@[simp] theorem linkReceiveAll_nil (p : Rx) : linkReceiveAll p [] = (p, []) := rfl

theorem linkReceiveAll_append (p : Rx) (fs gs : List (List UInt8)) :
    linkReceiveAll p (fs ++ gs) =
      ((linkReceiveAll (linkReceiveAll p fs).1 gs).1,
        (linkReceiveAll p fs).2 ++ (linkReceiveAll (linkReceiveAll p fs).1 gs).2) := by
  induction fs generalizing p with
  | nil => simp
  | cons f rest ih => simp [linkReceiveAll, ih]

/-- Frames as they arrive: NDN snips whose headers can be read. -/
def Arrivals (snips : List Snip) : Prop := ∀ s ∈ snips, s.type = .ndn ∧ Readable s.data

/-- **Lists of frames.** -/
theorem receiveAll_spec {P : Platform} (hP : P.Documented) (self : FaceRef) :
    ∀ {snips : List Snip} {face : Netface} {p : Rx}, face.Holds p →
      Arrivals snips →
      ∃ face' calls, receiveAll P self face snips = .ok (face', calls) ∧
        face'.Holds (linkReceiveAll p (snips.map Snip.data)).1 ∧ face.SameLink face' ∧
        calls.map deliveries =
          (linkReceiveAll p (snips.map Snip.data)).2.map (List.map (self, ·)) := by
  intro snips
  induction snips with
  | nil => intro face p hold _; exact ⟨face, [], rfl, hold, .refl face, rfl⟩
  | cons s rest ih =>
      intro face p hold hok
      obtain ⟨htype, hread⟩ := hok s List.mem_cons_self
      obtain ⟨face₁, calls₁, hrun₁, hold₁, hsame₁, hdel₁, _⟩ :=
        ndnL2ProcessPacket_spec hP self hold htype hread
      obtain ⟨face₂, calls₂, hrun₂, hold₂, hsame₂, hdel₂⟩ :=
        ih hold₁ fun s' hs' => hok s' (List.mem_cons_of_mem _ hs')
      refine ⟨face₂, calls₁ :: calls₂, ?_, hold₂, hsame₁.trans hsame₂, ?_⟩
      · simp only [receiveAll, hrun₁, bind, Except.bind, hrun₂]
        rfl
      · simp [linkReceiveAll, hdel₁, hdel₂]

/-- What came out of the fragments among the frames; `outs` is what came out of
each frame. -/
def fragmentOutputs {α : Type} : List (List UInt8) → List (List α) → List α
  | f :: fs, out :: outs =>
      if headerBit f then out ++ fragmentOutputs fs outs else fragmentOutputs fs outs
  | _, _ => []

theorem fragmentOutputs_map {α β : Type} (g : α → β) :
    ∀ (fs : List (List UInt8)) (outs : List (List α)),
      fragmentOutputs fs (outs.map (List.map g)) = (fragmentOutputs fs outs).map g := by
  intro fs
  induction fs with
  | nil => intro outs; cases outs <;> rfl
  | cons f rest ih =>
      intro outs
      cases outs with
      | nil => rfl
      | cons out outs =>
          simp only [List.map_cons, fragmentOutputs, ih]
          split <;> simp

/-- Among any frames, the fragments are reassembled. -/
theorem linkReceiveAll_reassemble (fs : List (List UInt8)) (p : Rx) :
    (linkReceiveAll p fs).1 = (reassemble p fs).1 ∧
      fragmentOutputs fs (linkReceiveAll p fs).2 = (reassemble p fs).2.map fragView.bytes := by
  induction fs generalizing p with
  | nil => exact ⟨rfl, rfl⟩
  | cons f rest ih =>
      simp only [linkReceiveAll, linkReceive, reassemble_cons, fragmentOutputs]
      cases hbit : headerBit f with
      | true =>
          obtain ⟨hstate, hout⟩ := ih (offer p f).1
          simp only [if_true, hstate, hout, List.map_append, and_self]
      | false =>
          -- a whole packet is refused by the reassembler
          have hreject : ¬ p.Continues f := fun hcont => by
            simpa [hbit] using hcont.1
          obtain ⟨hstate, hout⟩ := ih p
          simp [offer_reject hreject, hstate, hout]

/-- Frames that are all fragments are just reassembled. -/
theorem linkReceiveAll_fragments {fs : List (List UInt8)} {p : Rx}
    (hbits : ∀ f ∈ fs, headerBit f = true) :
    (linkReceiveAll p fs).2.flatten = (reassemble p fs).2.map fragView.bytes := by
  rw [← (linkReceiveAll_reassemble fs p).2]
  induction fs generalizing p with
  | nil => rfl
  | cons f rest ih =>
      have hrest := ih (p := (linkReceive p f).1) fun f' hf' =>
        hbits f' (List.mem_cons_of_mem _ hf')
      simp [linkReceiveAll, fragmentOutputs, hbits f List.mem_cons_self, hrest]

end NdnRiot
