import NdnRiot.Model.Types

/-!
# What the adaptation takes from ndn-lite and RIOT

The fragmentation support, the face operations and the `netreg` lists are not
part of this repository. They enter the model as a `Platform`, an arbitrary
choice of the functions called; `Platform.Documented` is what the adaptation
relies on about them. A theorem about the adaptation holds of every documented
platform; `reference` is one, so that runs can be evaluated.

Fragments on the wire are `HB|0|MF|SEQ(5)` in the first byte, the identifier
in the next two, high byte first, and the payload behind them.
-/

namespace NdnRiot

/-- `NDN_FRAG_HDR_LEN`. -/
def ndnFragHdrLen : Nat := 3

/-- `NDN_FRAG_HB_MASK`. -/
def ndnFragHbMask : UInt8 := 0x80

/-- `NDN_FRAG_MF_MASK`. -/
def ndnFragMfMask : UInt8 := 0x20

/-- `NDN_FRAG_SEQ_MASK`. -/
def ndnFragSeqMask : UInt8 := 0x1F

/-! ## Reading a fragment -/

/-- The header bit: set on fragments, clear on NDN TLV packets. -/
def headerBit (frame : List UInt8) : Bool := frame.getD 0 0 &&& ndnFragHbMask != 0

/-- The types of NDN TLV packets, below 0x80, leave the header bit clear. -/
theorem headerBit_of_lt {frame : List UInt8} (h : frame.getD 0 0 < ndnFragHbMask) :
    headerBit frame = false := by
  have hbits : ∀ x : BitVec 8, x < 0x80#8 → x &&& 0x80#8 = 0#8 := by decide
  have hzero := hbits (frame.getD 0 0).toBitVec h
  simp only [headerBit, bne_eq_false_iff_eq]
  exact UInt8.toBitVec_inj.mp hzero

/-- The more-fragments bit. -/
def moreFragments (frame : List UInt8) : Bool := frame.getD 0 0 &&& ndnFragMfMask != 0

/-- The sequence number. -/
def fragSeq (frame : List UInt8) : Nat := (frame.getD 0 0 &&& ndnFragSeqMask).toNat

/-- The identifier. -/
def fragIdent (frame : List UInt8) : Nat :=
  (frame.getD 1 0).toNat * 256 + (frame.getD 2 0).toNat

/-- The payload. -/
def fragPayload (frame : List UInt8) : List UInt8 := frame.drop ndnFragHdrLen

/-- The header of fragment number `counter` out of `total`. -/
def fragHeader (counter total : Nat) (identifier : UInt16) : List UInt8 :=
  [ndnFragHbMask ||| (if counter + 1 < total then ndnFragMfMask else 0) |||
      (UInt8.ofNat counter &&& ndnFragSeqMask),
    UInt8.ofNat (identifier.toNat / 256), UInt8.ofNat (identifier.toNat % 256)]

@[simp] theorem fragHeader_length (counter total : Nat) (identifier : UInt16) :
    (fragHeader counter total identifier).length = ndnFragHdrLen := rfl

section FragHeader

variable (counter total : Nat) (identifier : UInt16) (payload : List UInt8)

private theorem header_bits :
    ∀ x : BitVec 8, ∀ more : Bool,
      ((0x80#8 ||| (if more then 0x20#8 else 0#8) ||| (x &&& 0x1F#8)) &&& 0x80#8 ≠ 0#8) ∧
      (((0x80#8 ||| (if more then 0x20#8 else 0#8) ||| (x &&& 0x1F#8)) &&& 0x20#8 ≠ 0#8) ↔
        more = true) ∧
      (0x80#8 ||| (if more then 0x20#8 else 0#8) ||| (x &&& 0x1F#8)) &&& 0x1F#8 =
        x &&& 0x1F#8 := by
  decide

private theorem first_byte_toBitVec :
    (ndnFragHbMask ||| (if counter + 1 < total then ndnFragMfMask else 0) |||
        (UInt8.ofNat counter &&& ndnFragSeqMask)).toBitVec =
      0x80#8 ||| (if decide (counter + 1 < total) then 0x20#8 else 0#8) |||
        (BitVec.ofNat 8 counter &&& 0x1F#8) := by
  by_cases h : counter + 1 < total <;>
    simp [h, ndnFragHbMask, ndnFragMfMask, ndnFragSeqMask] <;> rfl

@[simp] theorem headerBit_fragHeader :
    headerBit (fragHeader counter total identifier ++ payload) = true := by
  have h := (header_bits (BitVec.ofNat 8 counter) (decide (counter + 1 < total))).1
  rw [← first_byte_toBitVec] at h
  simp only [headerBit, fragHeader, bne_iff_ne, ne_eq]
  intro heq
  exact h (by simpa [ndnFragHbMask] using congrArg UInt8.toBitVec heq)

@[simp] theorem moreFragments_fragHeader :
    moreFragments (fragHeader counter total identifier ++ payload) =
      decide (counter + 1 < total) := by
  have h := (header_bits (BitVec.ofNat 8 counter) (decide (counter + 1 < total))).2.1
  rw [← first_byte_toBitVec] at h
  rw [Bool.eq_iff_iff, ← h]
  simp only [moreFragments, fragHeader, bne_iff_ne, ne_eq]
  exact not_congr ⟨fun heq => by simpa [ndnFragMfMask] using congrArg UInt8.toBitVec heq,
    fun heq => UInt8.toBitVec_inj.mp (by simpa [ndnFragMfMask] using heq)⟩

theorem fragSeq_fragHeader (h : counter < 32) :
    fragSeq (fragHeader counter total identifier ++ payload) = counter := by
  have hbits := (header_bits (BitVec.ofNat 8 counter) (decide (counter + 1 < total))).2.2
  rw [← first_byte_toBitVec] at hbits
  have hnat := congrArg BitVec.toNat hbits
  have hsmall : ∀ c < 32, (BitVec.ofNat 8 c &&& 0x1F#8).toNat = c := by decide
  rw [hsmall counter h] at hnat
  simpa [fragSeq, fragHeader, ndnFragSeqMask] using hnat

@[simp] theorem fragIdent_fragHeader :
    fragIdent (fragHeader counter total identifier ++ payload) = identifier.toNat := by
  have hlt := identifier.toNat_lt
  simp only [fragIdent, fragHeader, List.cons_append, List.nil_append, List.getD_cons_succ,
    List.getD_cons_zero, UInt8.toNat_ofNat']
  omega

@[simp] theorem fragPayload_fragHeader :
    fragPayload (fragHeader counter total identifier ++ payload) = payload := rfl

end FragHeader

/-! ## The fragmentation support of ndn-lite -/

/-- `ndn_fragmenter_t`. -/
structure Fragmenter where
  original : List UInt8
  originalSize : Nat
  fragSize : Nat
  counter : Nat
  totalFragNum : Nat
  fragIdentifier : UInt16
  offset : Nat

/-- `ndn_frag_assembler_t`. The buffer it points to is kept by the netface. -/
structure FragAssembler where
  originalMaxSize : Nat
  isFinished : Bool
  seq : Nat
  fragIdentifier : Nat
  offset : Nat
  deriving DecidableEq, Repr

/-- `sizeof(frag_buffer)`. -/
def fragBufferSize : Nat := 500

/-- `uint8_t frag_buffer[500]`. -/
abbrev FragBuffer := Vector UInt8 fragBufferSize

/-- The first `n` bytes of the buffer. -/
def FragBuffer.head (buffer : FragBuffer) (n : Nat) : List UInt8 := buffer.toList.take n

/-- The fragment is the one the assembler waits for: the next number, the
pending identifier unless it is the first of its train, and room for it. -/
def FragAssembler.Expects (a : FragAssembler) (frag : List UInt8) : Prop :=
  fragSeq frag = a.seq ∧ (a.seq = 0 ∨ fragIdent frag = a.fragIdentifier) ∧
    a.offset + (fragPayload frag).length ≤ a.originalMaxSize

instance (a : FragAssembler) (frag : List UInt8) : Decidable (a.Expects frag) :=
  inferInstanceAs (Decidable (_ ∧ _ ∧ _))

/-- The assembler after it took the fragment. -/
def FragAssembler.advance (a : FragAssembler) (frag : List UInt8) : FragAssembler :=
  { a with
    isFinished := !moreFragments frag
    seq := a.seq + 1
    fragIdentifier := fragIdent frag
    offset := a.offset + (fragPayload frag).length }

/-! ## The `netreg` lists of RIOT -/

/-- The addresses of `netreg` entries: the two static ones of this repository,
and those of other modules. -/
inductive RegEntry
  | netfaceMeReg
  | udpMeReg
  | foreign (address : Nat)
  deriving DecidableEq, Repr

/-! ## The platform -/

/-- The external functions whose results the adaptation computes with. -/
structure Platform where
  /-- `ndn_fragmenter_init(&fragmenter, data, size, frag_max_size, &identifier)`. -/
  fragmenterInit : List UInt8 → Nat → UInt16 → Fragmenter
  /-- `ndn_fragmenter_fragment(&fragmenter, fragmented)`: the new state, and the
  output buffer as it is left. -/
  fragmenterFragment : Fragmenter → List UInt8 → Fragmenter × List UInt8
  /-- `ndn_frag_assembler_init(&assembler, buffer, max_size)`. -/
  assemblerInit : Nat → FragAssembler
  /-- `ndn_frag_assembler_assemble_frag(&assembler, frag, size)`. -/
  assemblerAssembleFrag : FragAssembler → FragBuffer → List UInt8 →
    Int × FragAssembler × FragBuffer
  /-- Whether `ndn_face_up` calls the interface's `up` in a given state. -/
  faceUpCalls : FaceState → Bool
  /-- Whether `ndn_face_down` calls the interface's `down` in a given state. -/
  faceDownCalls : FaceState → Bool
  /-- `gnrc_netreg_register` on the list of a type. -/
  netregRegister : List RegEntry → RegEntry → List RegEntry
  /-- `gnrc_netreg_unregister` on the list of a type. -/
  netregUnregister : List RegEntry → RegEntry → List RegEntry

/-- What the adaptation relies on. -/
structure Platform.Documented (P : Platform) : Prop where
  /-- Counter and offset start at 0; the number of fragments is the packet size
  over the payload size, rounded up. -/
  fragmenterInit : ∀ data mtu identifier, ndnFragHdrLen < mtu →
    P.fragmenterInit data mtu identifier =
      { original := data
        originalSize := data.length
        fragSize := mtu
        counter := 0
        totalFragNum := (data.length + (mtu - ndnFragHdrLen) - 1) / (mtu - ndnFragHdrLen)
        fragIdentifier := identifier
        offset := 0 }
  /-- A fragment is the header and the next bytes of the packet, as many as the
  fragment size allows, written to the front of the output buffer. -/
  fragmenterFragment : ∀ f buffer, f.counter < f.totalFragNum →
    let payload := (f.original.drop f.offset).take (f.fragSize - ndnFragHdrLen)
    let frame := fragHeader f.counter f.totalFragNum f.fragIdentifier ++ payload
    P.fragmenterFragment f buffer =
      ({ f with counter := f.counter + 1, offset := f.offset + payload.length },
        frame ++ buffer.drop frame.length)
  assemblerInit : ∀ size, (P.assemblerInit size).originalMaxSize = size ∧
    (P.assemblerInit size).isFinished = false ∧ (P.assemblerInit size).seq = 0 ∧
    (P.assemblerInit size).offset = 0
  /-- The fragment waited for is copied behind what is there; it finishes the
  packet when its more-fragments bit is clear. -/
  assembleAccept : ∀ a buffer frag, a.isFinished = false → ndnFragHdrLen ≤ frag.length →
    a.Expects frag →
    (P.assemblerAssembleFrag a buffer frag).1 = 0 ∧
    (P.assemblerAssembleFrag a buffer frag).2.1 = a.advance frag ∧
    (a.originalMaxSize ≤ fragBufferSize →
      (P.assemblerAssembleFrag a buffer frag).2.2.head (a.advance frag).offset =
        buffer.head a.offset ++ fragPayload frag)
  /-- Any other fragment is an error and changes nothing. -/
  assembleReject : ∀ a buffer frag, a.isFinished = false → ndnFragHdrLen ≤ frag.length →
    ¬ a.Expects frag →
    (P.assemblerAssembleFrag a buffer frag).1 ≠ 0 ∧
    (P.assemblerAssembleFrag a buffer frag).2 = (a, buffer)
  faceUp : P.faceUpCalls .down = true
  faceDown : ∀ state, state ≠ .down → P.faceDownCalls state = true
  /-- The entry is prepended, with no look at the entries there. -/
  netregRegister : ∀ list entry, P.netregRegister list entry = entry :: list
  /-- An entry that is there once is removed, and no other. -/
  netregUnregister : ∀ list entry, list.count entry ≤ 1 →
    P.netregUnregister list entry = list.erase entry

/-! ## A documented platform -/

/-- `memcpy(buffer + offset, bytes, size)`, within the buffer. -/
def FragBuffer.write (buffer : FragBuffer) (offset : Nat) (bytes : List UInt8) :
    FragBuffer :=
  if h : offset + bytes.length ≤ fragBufferSize then
    ⟨(buffer.toList.take offset ++ bytes ++ buffer.toList.drop (offset + bytes.length)).toArray,
      by simp; omega⟩
  else buffer

theorem FragBuffer.head_write {buffer : FragBuffer} {offset : Nat} {bytes : List UInt8}
    (h : offset + bytes.length ≤ fragBufferSize) :
    (buffer.write offset bytes).head (offset + bytes.length) =
      buffer.head offset ++ bytes := by
  have hlen : (buffer.toList.take offset ++ bytes).length = offset + bytes.length := by
    simp; omega
  unfold FragBuffer.write FragBuffer.head
  rw [dif_pos h]
  simp only [Vector.toList, ← hlen, List.take_left']

/-- The documentation, read as code. -/
def reference : Platform where
  fragmenterInit data mtu identifier :=
    { original := data
      originalSize := data.length
      fragSize := mtu
      counter := 0
      totalFragNum := (data.length + (mtu - ndnFragHdrLen) - 1) / (mtu - ndnFragHdrLen)
      fragIdentifier := identifier
      offset := 0 }
  fragmenterFragment f buffer :=
    let payload := (f.original.drop f.offset).take (f.fragSize - ndnFragHdrLen)
    let frame := fragHeader f.counter f.totalFragNum f.fragIdentifier ++ payload
    ({ f with counter := f.counter + 1, offset := f.offset + payload.length },
      frame ++ buffer.drop frame.length)
  assemblerInit size := ⟨size, false, 0, 0, 0⟩
  assemblerAssembleFrag a buffer frag :=
    if a.Expects frag then (0, a.advance frag, buffer.write a.offset (fragPayload frag))
    else (-1, a, buffer)
  faceUpCalls state := state ≠ .up
  faceDownCalls state := state ≠ .down
  netregRegister list entry := entry :: list
  netregUnregister list entry := list.erase entry

theorem reference_documented : reference.Documented where
  fragmenterInit _ _ _ _ := rfl
  fragmenterFragment _ _ _ := rfl
  assemblerInit _ := ⟨rfl, rfl, rfl, rfl⟩
  assembleAccept a buffer frag _ _ hexp := by
    simp only [reference, if_pos hexp, true_and]
    intro hmax
    exact FragBuffer.head_write (Nat.le_trans hexp.2.2 hmax)
  assembleReject a buffer frag _ _ hexp := by simp [reference, if_neg hexp]
  faceUp := rfl
  faceDown state h := by simp [reference, h]
  netregRegister _ _ := rfl
  netregUnregister _ _ _ := rfl

end NdnRiot
