import NdnRiot.Logic.Receive

/-!
# Reading frames within their bounds

`ndn_l2_process_packet` takes whatever snip a message points to. It reads the
size before the test for `NULL`, and the header bytes without a look at the size.
`inBounds_iff` lists the snips it handles within bounds: those of another type,
and those that are as long as their first byte announces.
-/

namespace NdnRiot

/-- The snips to refuse: none at all, one of another type, and one too short for
the header it announces. -/
def Rejected (pkt : Option Snip) : Prop :=
  ∀ snip, pkt = some snip → snip.type = .ndn → ¬ Readable snip.data

/-- The assembler is called with whole headers only: what it would make of a
shorter fragment has no influence on what happens. -/
def AssemblesWholeHeaders (P : Platform) (self : FaceRef) (face : Netface)
    (pkt : Option Snip) : Prop :=
  ∀ f : FragAssembler → FragBuffer → List UInt8 → Int × FragAssembler × FragBuffer,
    (∀ assembler buffer frag, ndnFragHdrLen ≤ frag.length →
      f assembler buffer frag = P.assemblerAssembleFrag assembler buffer frag) →
    ndnL2ProcessPacket { P with assemblerAssembleFrag := f } self face pkt =
      ndnL2ProcessPacket P self face pkt

/-- The snip is handled without an access through `NULL` or behind the payload,
the assembler gets whole headers, and a snip to refuse changes nothing and is not
delivered. -/
def InBounds (P : Platform) (self : FaceRef) (face : Netface) (pkt : Option Snip) : Prop :=
  ∃ ret face' calls, ndnL2ProcessPacket P self face pkt = .ok (ret, face', calls) ∧
    AssemblesWholeHeaders P self face pkt ∧
    (Rejected pkt → face'.assembler = face.assembler ∧ face'.fragBuffer = face.fragBuffer ∧
      deliveries calls = [])

/-- Short fragments never reach the assembler: the reads of the header come
first. -/
theorem assemblesWholeHeaders (P : Platform) (self : FaceRef) (face : Netface)
    (pkt : Option Snip) : AssemblesWholeHeaders P self face pkt := by
  intro f hf
  cases pkt with
  | none => rfl
  | some snip =>
      by_cases htype : snip.type = .ndn
      swap
      · rw [ndnL2ProcessPacket_foreign _ self face htype,
          ndnL2ProcessPacket_foreign P self face htype]
      by_cases hread : Readable snip.data
      · cases hbit : headerBit snip.data with
        | false =>
            rw [ndnL2ProcessPacket_whole _ self face htype hread.1 hbit,
              ndnL2ProcessPacket_whole P self face htype hread.1 hbit]
        | true =>
            have hlen := hread.2 hbit
            rw [ndnL2ProcessPacket_fragment P self face htype hbit hlen rfl,
              ndnL2ProcessPacket_fragment _ self face htype hbit hlen
                (hf face.assembler face.fragBuffer snip.data hlen)]
      · rw [ndnL2ProcessPacket_unreadable _ self face htype hread,
          ndnL2ProcessPacket_unreadable P self face htype hread]

/-- **Bounds.** Within bounds are exactly the snips that exist and, where they
are of type NDN, are as long as their first byte announces. -/
theorem inBounds_iff (P : Platform) (self : FaceRef) (face : Netface) (pkt : Option Snip) :
    InBounds P self face pkt ↔
      ∃ snip, pkt = some snip ∧ (snip.type = .ndn → Readable snip.data) := by
  constructor
  · rintro ⟨ret, face', calls, hrun, -, -⟩
    cases pkt with
    | none => simp [ndnL2ProcessPacket, bind, Except.bind] at hrun
    | some snip => exact ⟨snip, rfl, fun htype => readable_of_processed htype hrun⟩
  · rintro ⟨snip, rfl, hread⟩
    by_cases htype : snip.type = .ndn
    · obtain ⟨⟨ret, face', calls⟩, hrun⟩ :=
        ndnL2ProcessPacket_total P self face (.inr (hread htype))
      refine ⟨ret, face', calls, hrun, assemblesWholeHeaders P self face _, ?_⟩
      intro hrejected
      exact absurd (hread htype) (hrejected snip rfl htype)
    · exact ⟨some (-1), face, [], ndnL2ProcessPacket_foreign P self face htype,
        assemblesWholeHeaders P self face _, fun _ => ⟨rfl, rfl, rfl⟩⟩

/-- The test for `NULL` comes after the first access, and a frame of one byte that
announces a fragment is read behind its end. -/
theorem outOfBounds_null_and_short :
    ¬ InBounds reference (.netface 0) (Netface.zeroed.initAssembler reference) none ∧
      ¬ InBounds reference (.netface 0) (Netface.zeroed.initAssembler reference)
        (some ⟨0, .ndn, [0x80]⟩) := by
  constructor
  · rintro ⟨ret, face', calls, hrun, -, -⟩
    simp [ndnL2ProcessPacket, bind, Except.bind] at hrun
  · rintro ⟨ret, face', calls, hrun, -, -⟩
    rw [ndnL2ProcessPacket_unreadable _ _ _ rfl (by decide)] at hrun
    cases hrun

end NdnRiot
