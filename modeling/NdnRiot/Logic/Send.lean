import Mathlib.Data.List.Forall2
import Mathlib.Data.Nat.Basic
import NdnRiot.Lib.Ownership
import NdnRiot.Logic.Receive
import NdnRiot.Model.Netface

/-!
# The send path cuts packets into trains

`packetFrames` is the list of frames a packet becomes on a link: the packet
itself where it fits the MTU, else its train of fragments. `Riot.Between` is what
a send has done so far: the frames it handed over and the snips it still holds.
Whichever RIOT calls fail, `ndn_netface_send` hands over these frames in order,
all of them or a proper prefix, and holds nothing at the end
(`ndnNetfaceSend_spec`). A train of at most 32 fragments is one a receiver can
put together (`trainFrames_train`).
-/

namespace NdnRiot

open Reassembly Ownership

/-! ## The frames of a packet -/

/-- The number of fragments of a packet, by the fragmenter's count. -/
def fragCount (size mtu : Nat) : Nat :=
  (size + (mtu - ndnFragHdrLen) - 1) / (mtu - ndnFragHdrLen)

/-- Fragment `j` of a packet. -/
def fragFrame (mtu : Nat) (packet : List UInt8) (identifier : UInt16) (j : Nat) :
    List UInt8 :=
  fragHeader j (fragCount packet.length mtu) identifier ++
    piece (mtu - ndnFragHdrLen) packet j

/-- The train of a packet. -/
def trainFrames (mtu : Nat) (packet : List UInt8) (identifier : UInt16) :
    List (List UInt8) :=
  (List.range (fragCount packet.length mtu)).map (fragFrame mtu packet identifier)

/-- The frames of a packet on a link. -/
def packetFrames (mtu : Nat) (packet : List UInt8) (identifier : UInt16) :
    List (List UInt8) :=
  if mtu < packet.length then trainFrames mtu packet identifier else [packet]

theorem lt_fragCount_iff {size mtu c : Nat} (hmtu : ndnFragHdrLen < mtu) :
    c < fragCount size mtu ↔ c * (mtu - ndnFragHdrLen) < size := by
  have hk : 0 < mtu - ndnFragHdrLen := Nat.sub_pos_of_lt hmtu
  unfold fragCount
  rw [Nat.lt_iff_add_one_le, Nat.le_div_iff_mul_le hk, Nat.succ_mul]
  omega

theorem le_fragCount_mul (size : Nat) {mtu : Nat} (hmtu : ndnFragHdrLen < mtu) :
    size ≤ fragCount size mtu * (mtu - ndnFragHdrLen) :=
  Nat.le_of_not_lt fun h => Nat.lt_irrefl _ ((lt_fragCount_iff hmtu).mpr h)

theorem fragCount_le_of_le {size mtu n : Nat} (hmtu : ndnFragHdrLen < mtu)
    (h : size ≤ n * (mtu - ndnFragHdrLen)) : fragCount size mtu ≤ n :=
  Nat.le_of_not_lt fun hlt => Nat.not_le_of_lt ((lt_fragCount_iff hmtu).mp hlt) h

@[simp] theorem length_trainFrames (mtu : Nat) (packet : List UInt8) (identifier : UInt16) :
    (trainFrames mtu packet identifier).length = fragCount packet.length mtu := by
  simp [trainFrames]

theorem getElem?_trainFrames {mtu : Nat} {packet : List UInt8} {identifier : UInt16}
    {j : Nat} {f : List UInt8} (h : (trainFrames mtu packet identifier)[j]? = some f) :
    j < fragCount packet.length mtu ∧ f = fragFrame mtu packet identifier j := by
  simp only [trainFrames, List.getElem?_map, Option.map_eq_some_iff] at h
  obtain ⟨i, hi, rfl⟩ := h
  obtain ⟨hlt, hij⟩ := List.getElem?_eq_some_iff.mp hi
  rw [List.getElem_range] at hij
  subst hij
  exact ⟨by simpa using hlt, rfl⟩

theorem mem_trainFrames {mtu : Nat} {packet : List UInt8} {identifier : UInt16}
    {f : List UInt8} :
    f ∈ trainFrames mtu packet identifier ↔
      ∃ j < fragCount packet.length mtu, fragFrame mtu packet identifier j = f := by
  simp [trainFrames]

section FragFrame

variable (mtu : Nat) (packet : List UInt8) (identifier : UInt16) (j : Nat)

@[simp] theorem headerBit_fragFrame :
    headerBit (fragFrame mtu packet identifier j) = true := headerBit_fragHeader _ _ _ _

@[simp] theorem moreFragments_fragFrame :
    moreFragments (fragFrame mtu packet identifier j) =
      decide (j + 1 < fragCount packet.length mtu) := moreFragments_fragHeader _ _ _ _

@[simp] theorem fragIdent_fragFrame :
    fragIdent (fragFrame mtu packet identifier j) = identifier.toNat :=
  fragIdent_fragHeader _ _ _ _

@[simp] theorem fragPayload_fragFrame :
    fragPayload (fragFrame mtu packet identifier j) = piece (mtu - ndnFragHdrLen) packet j :=
  rfl

theorem fragSeq_fragFrame (h : j < 32) : fragSeq (fragFrame mtu packet identifier j) = j :=
  fragSeq_fragHeader _ _ _ _ h

theorem readable_fragFrame : Readable (fragFrame mtu packet identifier j) :=
  readable_of_length (by simp [fragFrame])

theorem length_fragFrame_le (hmtu : ndnFragHdrLen < mtu) :
    (fragFrame mtu packet identifier j).length ≤ mtu := by
  have := piece_length_le (mtu - ndnFragHdrLen) packet j
  simp only [fragFrame, List.length_append, fragHeader_length]
  omega

end FragFrame

/-- The payloads of a train are the packet. -/
theorem bytes_trainFrames {mtu : Nat} (packet : List UInt8) (identifier : UInt16)
    (hmtu : ndnFragHdrLen < mtu) :
    fragView.bytes (trainFrames mtu packet identifier) = packet := by
  simp only [View.bytes, trainFrames, List.flatMap_map, fragView_payload,
    fragPayload_fragFrame]
  exact flatMap_piece_eq (le_fragCount_mul packet.length hmtu)

/-- The fragments of a packet, at most 32, are a train in the sense of a receiver
that has room for the packet. -/
theorem trainFrames_train {mtu cap : Nat} {packet : List UInt8} (identifier : UInt16)
    (hmtu : ndnFragHdrLen < mtu) (hne : packet ≠ [])
    (hcount : fragCount packet.length mtu ≤ 32) (hfits : packet.length ≤ cap) :
    fragView.Train cap (trainFrames mtu packet identifier) where
  frag f hf := by
    obtain ⟨j, _, rfl⟩ := mem_trainFrames.mp hf
    exact headerBit_fragFrame _ _ _ _
  seq j f hj := by
    obtain ⟨hlt, rfl⟩ := getElem?_trainFrames hj
    exact fragSeq_fragFrame _ _ _ _ (by omega)
  ident f hf g hg := by
    obtain ⟨i, _, rfl⟩ := mem_trainFrames.mp hf
    obtain ⟨j, _, rfl⟩ := mem_trainFrames.mp hg
    simp
  fits := by rwa [bytes_trainFrames packet identifier hmtu]
  nonempty h := by
    have hpos : 0 < fragCount packet.length mtu :=
      (lt_fragCount_iff hmtu).mpr (by simpa using List.length_pos_iff.mpr hne)
    rw [← length_trainFrames mtu packet identifier, h] at hpos
    exact absurd hpos (by simp)
  more j f hj := by
    obtain ⟨_, rfl⟩ := getElem?_trainFrames hj
    simp

/-! ## What a send does to packet buffers -/

/-- Every fallible call to come succeeds. -/
def Riot.Reliable (r : Riot) : Prop := ∀ n, r.succeeds n = true

@[simp] theorem sentFrames_append (first second : List PktCall) :
    sentFrames (first ++ second) = sentFrames first ++ sentFrames second := by
  simp [sentFrames]

def OutSnip.handle : OutSnip → Nat
  | .payload handle _ _ => handle
  | .netifHdr handle _ _ => handle

/-- A call as an entry of the ledger of snips. Handing a packet to an interface
or releasing it concerns the whole chain. -/
def PktCall.own : PktCall → Own Nat
  | .gnrcPktbufAdd snip => .acquire snip.handle
  | .gnrcNetifHdrBuild handle => .acquire handle
  | .gnrcNetapiSend _ pkt => .hand (pkt.map OutSnip.handle)
  | .gnrcPktbufRelease pkt => .free (pkt.map OutSnip.handle)

/-- Between two states of RIOT these frames were handed to the interface, and the
snips allocated on the way were handed over with them or released, except those
still held. -/
structure Riot.Between (start : Riot) (pid : Pid) (r : Riot) (frames : List (List UInt8))
    (held : List Nat) : Prop where
  succeeds : r.succeeds = start.succeeds
  made : ∃ made, r.log = start.log ++ made ∧ sentFrames made = frames ∧
    (∀ dest pkt, .gnrcNetapiSend dest pkt ∈ made → dest = pid) ∧
    Holding start.nextHandle r.nextHandle (made.map PktCall.own) held

namespace Riot.Between

variable {start r : Riot} {pid : Pid} {frames : List (List UInt8)} {held : List Nat}

theorem refl (pid : Pid) (r : Riot) : r.Between pid r [] [] :=
  ⟨rfl, [], (List.append_nil _).symm, rfl, by simp, .nil _⟩

theorem tick (h : start.Between pid r frames held) : start.Between pid r.tick frames held :=
  ⟨h.succeeds, h.made⟩

theorem ndnRng (h : start.Between pid r frames held) :
    start.Between pid r.ndnRng.2 frames held := ⟨h.succeeds, h.made⟩

/-- One more call, given what it does to the snips held. -/
theorem extend (h : start.Between pid r frames held) {r' : Riot} {c : PktCall}
    {held' : List Nat} (hsucceeds : r'.succeeds = r.succeeds) (hlog : r'.log = r.log ++ [c])
    (hdest : ∀ dest pkt, c = .gnrcNetapiSend dest pkt → dest = pid)
    (hheld : ∀ log, Holding start.nextHandle r.nextHandle log held →
      Holding start.nextHandle r'.nextHandle (log ++ [c.own]) held') :
    start.Between pid r' (frames ++ sentFrames [c]) held' := by
  obtain ⟨made, hmade, hsent, hdests, hholding⟩ := h.made
  refine ⟨hsucceeds.trans h.succeeds, made ++ [c], ?_, ?_, ?_, ?_⟩
  · rw [hlog, hmade, List.append_assoc]
  · rw [sentFrames_append, hsent]
  · intro dest pkt hmem
    rcases List.mem_append.mp hmem with hmem | hmem
    · exact hdests dest pkt hmem
    · exact hdest dest pkt (List.mem_singleton.mp hmem).symm
  · rw [List.map_append, List.map_singleton]
    exact hheld _ hholding

/-- An allocation adds its snip to those held. -/
theorem allocate (h : start.Between pid r frames held) {c : PktCall}
    (hc : c.own = .acquire r.nextHandle) :
    start.Between pid (r.tick.fresh.note c) frames (r.nextHandle :: held) := by
  have hquiet : frames ++ sentFrames [c] = frames := by
    cases c <;> simp_all [PktCall.own, sentFrames]
  rw [← hquiet]
  refine h.extend rfl rfl ?_ fun log hholding => ?_
  · rintro dest pkt rfl
    simp [PktCall.own] at hc
  · rw [hc]
    exact hholding.acquire (Nat.le_refl _) (Nat.lt_succ_self _)

/-- A packet of all snips held is handed to the interface. -/
theorem send {pkt : List OutSnip} (h : start.Between pid r frames (pkt.map OutSnip.handle)) :
    start.Between pid (r.tick.note (.gnrcNetapiSend pid pkt)) (frames ++ [frameOf pkt]) [] := by
  refine h.extend (c := .gnrcNetapiSend pid pkt) rfl rfl ?_
    fun log hholding => hholding.hand (.refl _)
  intro dest pkt' hcall
  cases hcall
  rfl

/-- A packet of all snips held is released. -/
theorem release {pkt : List OutSnip}
    (h : start.Between pid r frames (pkt.map OutSnip.handle)) :
    start.Between pid (r.gnrcPktbufRelease pkt) frames [] := by
  have hquiet : frames ++ sentFrames [.gnrcPktbufRelease pkt] = frames := List.append_nil _
  rw [← hquiet]
  refine h.extend (c := .gnrcPktbufRelease pkt) rfl rfl ?_
    fun log hholding => hholding.free (.refl _)
  intro dest pkt' hcall
  cases hcall

theorem not_reliable (h : start.Between pid r frames held) (hfail : ¬ r.ok = true) :
    ¬ start.Reliable := by
  intro hr
  apply hfail
  show r.succeeds r.calls = true
  rw [h.succeeds]
  exact hr r.calls

theorem reliable (h : start.Between pid r frames held) (hr : start.Reliable) : r.Reliable := by
  intro n
  rw [h.succeeds]
  exact hr n

theorem sentFrames_eq (h : start.Between pid r frames held) :
    sentFrames r.log = sentFrames start.log ++ frames := by
  obtain ⟨made, hlog, hsent, _⟩ := h.made
  rw [hlog, sentFrames_append, hsent]

end Riot.Between

/-- `gnrc_pktbuf_add` gives a snip that holds the data, or fails. -/
theorem gnrcPktbufAdd_spec {start r : Riot} {pid : Pid} {frames : List (List UInt8)}
    (h : start.Between pid r frames []) (data : List UInt8) (type : Nettype) :
    (∃ r', r.gnrcPktbufAdd data type = (some (.payload r.nextHandle type data), r') ∧
      start.Between pid r' frames [r.nextHandle]) ∨
    (∃ r', r.gnrcPktbufAdd data type = (none, r') ∧ start.Between pid r' frames [] ∧
      ¬ start.Reliable) := by
  by_cases hok : r.ok = true
  · exact .inl ⟨_, if_pos hok, h.allocate rfl⟩
  · exact .inr ⟨_, if_neg hok, h.tick, h.not_reliable hok⟩

/-- `ndn_l2_send_packet` hands the packet to the interface, behind a header, or
fails and releases what it was given, with the header where there is one. -/
theorem ndnL2SendPacket_spec {start r : Riot} {pid : Pid} {frames : List (List UInt8)}
    (pkt : List OutSnip) (h : start.Between pid r frames (pkt.map OutSnip.handle)) :
    (∃ r', ndnL2SendPacket pid pkt r = (0, r') ∧
      start.Between pid r' (frames ++ [frameOf pkt]) []) ∨
    (∃ r', ndnL2SendPacket pid pkt r = (-1, r') ∧ start.Between pid r' frames [] ∧
      ¬ start.Reliable) := by
  by_cases hbuild : r.ok = true
  · let built := r.tick.fresh.note (.gnrcNetifHdrBuild r.nextHandle)
    let whole := OutSnip.netifHdr r.nextHandle true pid :: pkt
    have hhdr : r.gnrcNetifHdrBuild = (some r.nextHandle, built) := if_pos hbuild
    have hbuilt : start.Between pid built frames (whole.map OutSnip.handle) := h.allocate rfl
    by_cases hsend : built.ok = true
    · have hret : built.gnrcNetapiSend pid whole =
          (1, built.tick.note (.gnrcNetapiSend pid whole)) := if_pos hsend
      refine .inl ⟨built.tick.note (.gnrcNetapiSend pid whole), ?_, hbuilt.send⟩
      simp only [ndnL2SendPacket, hhdr, whole] at hret ⊢
      rw [hret]
      rfl
    · have hret : built.gnrcNetapiSend pid whole = (-1, built.tick) := if_neg hsend
      refine .inr ⟨built.tick.gnrcPktbufRelease whole, ?_, hbuilt.tick.release,
        hbuilt.not_reliable hsend⟩
      simp only [ndnL2SendPacket, hhdr, whole] at hret ⊢
      rw [hret]
      rfl
  · have hhdr : r.gnrcNetifHdrBuild = (none, r.tick) := if_neg hbuild
    refine .inr ⟨r.tick.gnrcPktbufRelease pkt, ?_, h.tick.release, h.not_reliable hbuild⟩
    simp only [ndnL2SendPacket, hhdr]

/-! ## The train under arbitrary failures -/

/-- The fragmenter after `c` fragments. -/
def fragmenterAt (mtu : Nat) (packet : List UInt8) (identifier : UInt16) (c : Nat) :
    Fragmenter where
  original := packet
  originalSize := packet.length
  fragSize := mtu
  counter := c
  totalFragNum := fragCount packet.length mtu
  fragIdentifier := identifier
  offset := min (c * (mtu - ndnFragHdrLen)) packet.length

/-- The fragmenter starts at fragment 0. -/
theorem fragmenterInit_at {P : Platform} (hP : P.Documented) {mtu : Nat}
    (hmtu : ndnFragHdrLen < mtu) (packet : List UInt8) (identifier : UInt16) :
    P.fragmenterInit packet mtu identifier = fragmenterAt mtu packet identifier 0 := by
  rw [hP.fragmenterInit packet mtu identifier hmtu]
  simp [fragmenterAt, fragCount]

/-- One call of the fragmenter writes the next fragment of the train. -/
theorem fragmenterFragment_at {P : Platform} (hP : P.Documented) {mtu : Nat}
    (hmtu : ndnFragHdrLen < mtu) (packet : List UInt8) (identifier : UInt16) {c : Nat}
    (hc : c < fragCount packet.length mtu) (buffer : List UInt8) :
    P.fragmenterFragment (fragmenterAt mtu packet identifier c) buffer =
      (fragmenterAt mtu packet identifier (c + 1),
        fragFrame mtu packet identifier c ++
          buffer.drop (fragFrame mtu packet identifier c).length) := by
  have hoff : min (c * (mtu - ndnFragHdrLen)) packet.length = c * (mtu - ndnFragHdrLen) :=
    Nat.min_eq_left (Nat.le_of_lt ((lt_fragCount_iff hmtu).mp hc))
  have h := hP.fragmenterFragment (fragmenterAt mtu packet identifier c) buffer hc
  simp only [fragmenterAt, hoff] at h ⊢
  rw [h]
  simp only [fragFrame, piece, List.length_take, List.length_drop, Nat.succ_mul]
  congr 2
  omega

/-- The size `ndn_l2_send_fragments` computes is the size of the fragment. -/
theorem fragment_size {mtu : Nat} (hmtu : ndnFragHdrLen < mtu) (packet : List UInt8)
    (identifier : UInt16) {c : Nat} (hc : c < fragCount packet.length mtu) :
    (if (fragmenterAt mtu packet identifier c).counter =
        (fragmenterAt mtu packet identifier c).totalFragNum - 1 then
      (fragmenterAt mtu packet identifier c).originalSize -
        (fragmenterAt mtu packet identifier c).offset + 3
    else mtu) = (fragFrame mtu packet identifier c).length := by
  show (if c = fragCount packet.length mtu - 1 then
    packet.length - min (c * (mtu - ndnFragHdrLen)) packet.length + 3 else mtu) = _
  have hlt := (lt_fragCount_iff hmtu).mp hc
  have hle := le_fragCount_mul packet.length hmtu
  have hnext : c + 1 < fragCount packet.length mtu ↔ _ := lt_fragCount_iff hmtu
  rw [Nat.succ_mul] at hnext
  simp only [fragFrame, piece, List.length_append, fragHeader_length, List.length_take,
    List.length_drop, ndnFragHdrLen] at *
  split <;> omega

theorem take_succ_trainFrames {mtu : Nat} {packet : List UInt8} {identifier : UInt16}
    {c : Nat} (hc : c < fragCount packet.length mtu) :
    (trainFrames mtu packet identifier).take (c + 1) =
      (trainFrames mtu packet identifier).take c ++ [fragFrame mtu packet identifier c] := by
  rw [List.take_succ_eq_append_getElem (by simpa using hc)]
  simp [trainFrames]

/-- The loop goes on where the train was left: it returns 0 with the whole train
sent, or -1 after a proper prefix of it. -/
theorem sendFragmentsLoop_spec {P : Platform} (hP : P.Documented) {pid : Pid} {mtu : Nat}
    (hmtu : ndnFragHdrLen < mtu) (packet : List UInt8) (identifier : UInt16) {start : Riot} :
    ∀ (fuel c : Nat) (buffer : List UInt8) (r : Riot),
      c ≤ fragCount packet.length mtu → fragCount packet.length mtu < c + fuel →
      start.Between pid r ((trainFrames mtu packet identifier).take c) [] →
      (∃ r', sendFragmentsLoop P pid mtu fuel (fragmenterAt mtu packet identifier c) buffer r =
          some (0, r') ∧ start.Between pid r' (trainFrames mtu packet identifier) []) ∨
      (∃ r' k, sendFragmentsLoop P pid mtu fuel (fragmenterAt mtu packet identifier c) buffer r =
          some (-1, r') ∧ k < fragCount packet.length mtu ∧
          start.Between pid r' ((trainFrames mtu packet identifier).take k) [] ∧
          ¬ start.Reliable) := by
  intro fuel
  induction fuel with
  | zero => intro c buffer r hc hfuel; omega
  | succ fuel ih =>
      intro c buffer r hc hfuel hr
      unfold sendFragmentsLoop
      rcases Nat.lt_or_eq_of_le hc with hlt | rfl
      · have hcond : (fragmenterAt mtu packet identifier c).counter <
            (fragmenterAt mtu packet identifier c).totalFragNum := hlt
        rw [if_pos hcond]
        simp only [fragmenterFragment_at hP hmtu packet identifier hlt,
          fragment_size hmtu packet identifier hlt, List.take_left]
        rcases gnrcPktbufAdd_spec hr (fragFrame mtu packet identifier c) .ndn with
          ⟨r₁, hadd, hr₁⟩ | ⟨r₁, hadd, hr₁, hfail⟩
        · rw [hadd]
          -- the snip just allocated is the packet that is sent
          rcases ndnL2SendPacket_spec
            [.payload r.nextHandle .ndn (fragFrame mtu packet identifier c)] hr₁ with
            ⟨r₂, hsend, hr₂⟩ | ⟨r₂, hsend, hr₂, hfail⟩
          · simp only [hsend]
            refine ih (c + 1) _ r₂ hlt (by omega) ?_
            rw [take_succ_trainFrames hlt]
            exact hr₂
          · exact .inr ⟨r₂, c, by simp only [hsend]; rfl, hlt, hr₂, hfail⟩
        · exact .inr ⟨r₁, c, by rw [hadd], hlt, hr₁, hfail⟩
      · -- all fragments are sent
        rw [List.take_of_length_le (by simp)] at hr
        exact .inl ⟨r, if_neg (Nat.lt_irrefl _), hr⟩

/-- Past its two guards `ndn_l2_send_fragments` sends the train, or a proper
prefix of it and fails. -/
theorem ndnL2SendFragments_spec {P : Platform} (hP : P.Documented) (pid : Pid)
    (packet : List UInt8) (mtu : UInt16) (r : Riot) (hmtu : ndnFragHdrLen < mtu.toNat)
    (hguard : totalFrags packet.length mtu.toNat ≤ 32) :
    (∃ r', ndnL2SendFragments P pid packet mtu r = some (0, r') ∧
      r.Between pid r' (trainFrames mtu.toNat packet (r.random r.draws)) []) ∨
    (∃ r' k, ndnL2SendFragments P pid packet mtu r = some (-1, r') ∧
      k < fragCount packet.length mtu.toNat ∧
      r.Between pid r' ((trainFrames mtu.toNat packet (r.random r.draws)).take k) [] ∧
      ¬ r.Reliable) := by
  unfold ndnL2SendFragments
  rw [if_neg (Nat.not_le_of_lt hmtu), if_neg (Int.not_lt.mpr hguard)]
  simp only [Riot.ndnRng, fragmenterInit_at hP hmtu]
  exact sendFragmentsLoop_spec hP hmtu packet _ _ 0 _ _ (Nat.zero_le _) (by simp [fragmenterAt])
    (Riot.Between.refl pid r).ndnRng

/-- The send guards let the packet pass. -/
def Netface.Accepts (face : Netface) (packet : List UInt8) : Prop :=
  face.mtu.toNat < packet.length →
    ndnFragHdrLen < face.mtu.toNat ∧ totalFrags packet.length face.mtu.toNat ≤ 32

/-- Packets one of the guards refuses are not reported as sent, and nothing
is done for them. -/
theorem ndnNetfaceSend_refused (P : Platform) {face : Netface} {packet : List UInt8}
    (r : Riot) (hsize : face.mtu.toNat < packet.length)
    (hguard : face.mtu.toNat ≤ ndnFragHdrLen ∨ 32 < totalFrags packet.length face.mtu.toNat) :
    ndnNetfaceSend P face packet r = some (-1, r) := by
  unfold ndnNetfaceSend ndnL2SendFragments
  rw [if_pos hsize]
  rcases hguard with hmtu | hfrags
  · rw [if_pos hmtu]
  · rw [if_pos hfrags, ite_self]

/-- Every packet that the netface does not accept is one of them. -/
theorem ndnNetfaceSend_of_not_accepts (P : Platform) {face : Netface} {packet : List UInt8}
    (r : Riot) (h : ¬ face.Accepts packet) :
    ndnNetfaceSend P face packet r = some (-1, r) := by
  unfold Netface.Accepts at h
  obtain ⟨hsize, hguards⟩ := Classical.not_imp.mp h
  apply ndnNetfaceSend_refused P r hsize
  omega

/-- `ndn_netface_send` on a packet the guards let pass: it sends the frames of the
packet, or a proper prefix of them and fails. -/
theorem ndnNetfaceSend_spec {P : Platform} (hP : P.Documented) (face : Netface)
    (packet : List UInt8) (r : Riot) (hguard : face.Accepts packet) :
    (∃ r', ndnNetfaceSend P face packet r = some (0, r') ∧
      r.Between face.pid r' (packetFrames face.mtu.toNat packet (r.random r.draws)) []) ∨
    (∃ r' k, ndnNetfaceSend P face packet r = some (-1, r') ∧
      k < (packetFrames face.mtu.toNat packet (r.random r.draws)).length ∧
      r.Between face.pid r'
        ((packetFrames face.mtu.toNat packet (r.random r.draws)).take k) [] ∧
      ¬ r.Reliable) := by
  unfold ndnNetfaceSend packetFrames
  by_cases hsize : face.mtu.toNat < packet.length
  · obtain ⟨hmtu, hfrags⟩ := hguard hsize
    simp only [if_pos hsize, length_trainFrames]
    exact ndnL2SendFragments_spec hP face.pid packet face.mtu r hmtu hfrags
  · simp only [if_neg hsize]
    rcases gnrcPktbufAdd_spec (Riot.Between.refl face.pid r) packet .ndn with
      ⟨r₁, hadd, hr₁⟩ | ⟨r₁, hadd, hr₁, hfail⟩
    · rw [hadd]
      rcases ndnL2SendPacket_spec [.payload r.nextHandle .ndn packet] hr₁ with
        ⟨r₂, hsend, hr₂⟩ | ⟨r₂, hsend, hr₂, hfail⟩
      · exact .inl ⟨r₂, congrArg some hsend, hr₂⟩
      · exact .inr ⟨r₂, 0, congrArg some hsend, Nat.zero_lt_one, hr₂, hfail⟩
    · exact .inr ⟨r₁, 0, by rw [hadd], Nat.zero_lt_one, hr₁, hfail⟩

/-! ## The sender when every RIOT call succeeds -/

/-- **Fragments.** Past its two guards `ndn_l2_send_fragments` returns 0 and
hands the train of the packet to the interface. -/
theorem ndnL2SendFragments_reliable {P : Platform} (hP : P.Documented) (pid : Pid)
    (packet : List UInt8) (mtu : UInt16) {r : Riot} (hr : r.Reliable)
    (hmtu : ndnFragHdrLen < mtu.toNat) (hguard : totalFrags packet.length mtu.toNat ≤ 32) :
    ∃ r', ndnL2SendFragments P pid packet mtu r = some (0, r') ∧ r'.Reliable ∧
      sentFrames r'.log =
        sentFrames r.log ++ trainFrames mtu.toNat packet (r.random r.draws) := by
  rcases ndnL2SendFragments_spec hP pid packet mtu r hmtu hguard with
    ⟨r', hsend, hr'⟩ | ⟨_, _, _, _, _, hfail⟩
  · exact ⟨r', hsend, hr'.reliable hr, hr'.sentFrames_eq⟩
  · exact absurd hr hfail

/-- **Packets.** `ndn_netface_send` hands the frames of the packet to the
interface, unless the packet needs fragments and a guard refuses it. -/
theorem ndnNetfaceSend_reliable {P : Platform} (hP : P.Documented) (face : Netface)
    (packet : List UInt8) {r : Riot} (hr : r.Reliable)
    (hguard : face.Accepts packet) :
    ∃ r', ndnNetfaceSend P face packet r = some (0, r') ∧ r'.Reliable ∧
      sentFrames r'.log =
        sentFrames r.log ++ packetFrames face.mtu.toNat packet (r.random r.draws) := by
  rcases ndnNetfaceSend_spec hP face packet r hguard with
    ⟨r', hsend, hr'⟩ | ⟨_, _, _, _, _, hfail⟩
  · exact ⟨r', hsend, hr'.reliable hr, hr'.sentFrames_eq⟩
  · exact absurd hr hfail

/-- The send succeeded, with the frames of the packet. -/
def Netface.SentAs (face : Netface) (packet : List UInt8) (sent : Sent) : Prop :=
  sent.ret = 0 ∧ ∃ identifier, sent.frames = packetFrames face.mtu.toNat packet identifier

/-- **Lists of packets.** Every send succeeds, with the frames of its packet. -/
theorem sendAll_reliable {P : Platform} (hP : P.Documented) (face : Netface) :
    ∀ {packets : List (List UInt8)} {r : Riot}, r.Reliable →
      (∀ p ∈ packets, face.Accepts p) →
      ∃ sends r', sendAll P face packets r = some (sends, r') ∧
        List.Forall₂ face.SentAs packets sends := by
  intro packets
  induction packets with
  | nil => intro r _ _; exact ⟨[], r, rfl, .nil⟩
  | cons packet rest ih =>
      intro r hr hacc
      obtain ⟨r₁, hsend, hr₁, hsent⟩ :=
        ndnNetfaceSend_reliable hP face packet hr (hacc packet List.mem_cons_self)
      obtain ⟨sends, r₂, hrest, hframes⟩ :=
        ih hr₁ fun p hp => hacc p (List.mem_cons_of_mem _ hp)
      refine ⟨⟨0, (sentFrames r₁.log).drop (sentFrames r.log).length⟩ :: sends, r₂, ?_,
        .cons ⟨rfl, r.random r.draws, ?_⟩ hframes⟩
      · simp [sendAll, hsend, hrest]
      · show (sentFrames r₁.log).drop _ = _
        rw [hsent, List.drop_left]

/-- Every send is the send of one of the packets. -/
theorem exists_packet_of_sent {face : Netface} {packets : List (List UInt8)}
    {sends : List Sent} (h : List.Forall₂ face.SentAs packets sends) {sent : Sent}
    (hsent : sent ∈ sends) : ∃ packet ∈ packets, face.SentAs packet sent := by
  obtain ⟨i, hi, rfl⟩ := List.getElem_of_mem hsent
  have hi' : i < packets.length := by rw [h.length_eq]; exact hi
  exact ⟨packets[i], List.getElem_mem hi', h.get hi' hi⟩

/-! ## What a send that returns 0 did -/

/-- **Fragments.** When `ndn_l2_send_fragments` returns 0 its guards held and it
handed the train of the packet to the interface. -/
theorem ndnL2SendFragments_sent {P : Platform} (hP : P.Documented) {pid : Pid}
    {packet : List UInt8} {mtu : UInt16} {r r' : Riot}
    (h : ndnL2SendFragments P pid packet mtu r = some (0, r')) :
    ndnFragHdrLen < mtu.toNat ∧ totalFrags packet.length mtu.toNat ≤ 32 ∧
      sentFrames r'.log =
        sentFrames r.log ++ trainFrames mtu.toNat packet (r.random r.draws) := by
  by_cases hmtu : mtu.toNat ≤ ndnFragHdrLen
  · simp [ndnL2SendFragments, hmtu] at h
  by_cases hguard : 32 < totalFrags packet.length mtu.toNat
  · simp [ndnL2SendFragments, hmtu, hguard] at h
  refine ⟨Nat.lt_of_not_le hmtu, Int.not_lt.mp hguard, ?_⟩
  rcases ndnL2SendFragments_spec hP pid packet mtu r (Nat.lt_of_not_le hmtu)
    (Int.not_lt.mp hguard) with ⟨r₁, hsend, hr₁⟩ | ⟨r₁, _, hsend, _⟩
  · rw [h] at hsend
    cases hsend
    exact hr₁.sentFrames_eq
  · rw [h] at hsend
    simp at hsend

/-! ## The guard -/

/-- The guard of `ndn_l2_send_fragments` as long as the count does not overflow. -/
theorem totalFrags_eq {size mtu : Nat} (h : size / (mtu - ndnFragHdrLen) + 1 ≤ int32Max) :
    totalFrags size mtu = (size / (mtu - ndnFragHdrLen) + 1 : Nat) := by
  unfold int32Max at h
  unfold totalFrags int32
  rw [BitVec.toInt_eq_toNat_of_lt] <;> simp only [BitVec.toNat_ofNat] <;>
    rw [Nat.mod_eq_of_lt (by omega)]
  omega

/-- The sizes the guard refuses, among those of a `uint32_t`. From `INT32_MAX` on
the `int` is not positive, and the guard lets the packet pass. -/
theorem lt_totalFrags_iff {size mtu : Nat} (hsize : size ≤ uint32Max) :
    32 < totalFrags size mtu ↔
      32 ≤ size / (mtu - ndnFragHdrLen) ∧ size / (mtu - ndnFragHdrLen) < int32Max := by
  have hle : size / (mtu - ndnFragHdrLen) ≤ uint32Max :=
    Nat.le_trans (Nat.div_le_self _ _) hsize
  rcases Nat.lt_or_ge (size / (mtu - ndnFragHdrLen)) int32Max with hfits | hwraps
  · rw [totalFrags_eq hfits]
    omega
  · have hneg : totalFrags size mtu ≤ 0 := by
      unfold uint32Max at hle
      unfold int32Max at hwraps
      unfold totalFrags int32
      rw [BitVec.toInt_ofNat', Int.bmod_def]
      split <;> omega
    omega

/-- Packets the guard lets pass have at most 32 fragments. -/
theorem fragCount_le_of_totalFrags_le {size mtu : Nat} (hmtu : ndnFragHdrLen < mtu)
    (hsize : size / (mtu - ndnFragHdrLen) + 1 ≤ int32Max) (h : totalFrags size mtu ≤ 32) :
    fragCount size mtu ≤ 32 := by
  rw [totalFrags_eq hsize] at h
  have hk : 0 < mtu - ndnFragHdrLen := Nat.sub_pos_of_lt hmtu
  refine fragCount_le_of_le hmtu (Nat.le_of_lt ?_)
  exact (Nat.div_lt_iff_lt_mul hk).mp (by omega)

/-- What `ndn_l2_send_fragments` sends is a train, if the guard did not overflow. -/
theorem ndnL2SendFragments_train {P : Platform} (hP : P.Documented) {pid : Pid} {cap : Nat}
    {packet : List UInt8} {mtu : UInt16} {r r' : Riot}
    (h : ndnL2SendFragments P pid packet mtu r = some (0, r')) (hne : packet ≠ [])
    (hfits : packet.length ≤ cap) (hsize : packet.length < int32Max) :
    fragView.Train cap (trainFrames mtu.toNat packet (r.random r.draws)) := by
  obtain ⟨hmtu, hguard, _⟩ := ndnL2SendFragments_sent hP h
  have hdiv := Nat.div_le_self packet.length (mtu.toNat - ndnFragHdrLen)
  exact trainFrames_train _ hmtu hne
    (fragCount_le_of_totalFrags_le hmtu (by omega) hguard) hfits

end NdnRiot
