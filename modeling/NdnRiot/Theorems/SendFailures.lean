import NdnRiot.Logic.Send

/-!
# Sending on a netface while RIOT calls fail

Any of the calls of a send can fail, in any iteration of the fragment loop, and
two functions share the duty to release what is then left over.
`ndnNetfaceSend_transmits`: whatever fails, the result tells whether all frames
of the packet went out, the frames that did are the first ones in order, and
every snip allocated was handed to the interface or released, once.
-/

namespace NdnRiot

open Ownership

/-- The frame list of a packet: one frame where it fits the MTU, else its train.
An MTU without room for a payload leaves none. -/
def frameList (mtu : Nat) (packet : List UInt8) (identifier : UInt16) :
    Option (List (List UInt8)) :=
  if mtu < packet.length ∧ mtu ≤ ndnFragHdrLen then none
  else some (packetFrames mtu packet identifier)

/-- What one send did, by its result and the calls it made. -/
structure Netface.Transmits (face : Netface) (packet : List UInt8) (identifier : UInt16)
    (ret : Int) (made : List PktCall) : Prop where
  result : ret = 0 ∨ ret = -1
  /-- 0 means that all frames went out, in order and once. -/
  sent : ret = 0 ↔ frameList face.mtu.toNat packet identifier = some (sentFrames made)
  /-- -1 means that some of the first ones did. -/
  failed : ret = -1 → ∀ frames, frameList face.mtu.toNat packet identifier = some frames →
    sentFrames made <+: frames ∧ sentFrames made ≠ frames
  refused : ¬ face.Accepts packet → ret = -1 ∧ sentFrames made = []
  dest : ∀ dest pkt, .gnrcNetapiSend dest pkt ∈ made → dest = face.pid
  /-- Each snip was handed over in one send, or released once, and never both. -/
  once : ∀ handle ∈ acquired (made.map PktCall.own),
    ((handed (made.map PktCall.own)).count handle = 1 ∧
      handle ∉ freed (made.map PktCall.own)) ∨
    (handle ∉ handed (made.map PktCall.own) ∧
      (freed (made.map PktCall.own)).count handle = 1)
  settled : Settled (made.map PktCall.own)

section Transmits

variable {face : Netface} {packet : List UInt8}

theorem frameList_of_accepts (h : face.Accepts packet) (identifier : UInt16) :
    frameList face.mtu.toNat packet identifier =
      some (packetFrames face.mtu.toNat packet identifier) := by
  unfold frameList
  rw [if_neg]
  rintro ⟨hsize, hmtu⟩
  exact Nat.not_le_of_lt (h hsize).1 hmtu

/-- A packet a guard refuses has a frame, if the MTU leaves room for one. -/
theorem frameList_ne_nil (h : ¬ face.Accepts packet) (identifier : UInt16) :
    frameList face.mtu.toNat packet identifier ≠ some [] := by
  intro hnil
  apply h
  intro hsize
  exfalso
  unfold frameList at hnil
  split at hnil
  · simp at hnil
  next hroom =>
    have hmtu : ndnFragHdrLen < face.mtu.toNat := by
      apply Nat.lt_of_not_le
      intro hle
      exact hroom ⟨hsize, hle⟩
    have hpos : 0 < fragCount packet.length face.mtu.toNat :=
      (lt_fragCount_iff hmtu).mpr (by omega)
    have hlen := length_trainFrames face.mtu.toNat packet identifier
    simp only [packetFrames, if_pos hsize, Option.some.injEq] at hnil
    rw [hnil, List.length_nil] at hlen
    omega

/-- A refused packet leaves RIOT alone. -/
theorem Netface.Transmits.of_refused (h : ¬ face.Accepts packet) (identifier : UInt16) :
    face.Transmits packet identifier (-1) [] where
  result := .inr rfl
  sent := by
    constructor
    · intro hret
      simp at hret
    · intro hframes
      exact absurd hframes (frameList_ne_nil h identifier)
  failed _ frames hframes := by
    refine ⟨List.nil_prefix, ?_⟩
    rintro rfl
    exact frameList_ne_nil h identifier hframes
  refused _ := ⟨rfl, rfl⟩
  dest _ _ hmem := absurd hmem List.not_mem_nil
  once _ hmem := absurd hmem List.not_mem_nil
  settled := (Holding.nil (0 : Nat)).settled

/-- All frames went out. -/
theorem Netface.Transmits.of_sent {identifier : UInt16} {made : List PktCall}
    (h : face.Accepts packet)
    (hsent : sentFrames made = packetFrames face.mtu.toNat packet identifier)
    (hdest : ∀ dest pkt, .gnrcNetapiSend dest pkt ∈ made → dest = face.pid)
    (hsettled : Settled (made.map PktCall.own)) :
    face.Transmits packet identifier 0 made where
  result := .inl rfl
  sent := by
    rw [frameList_of_accepts h, hsent]
    simp
  failed hret := by simp at hret
  refused hnot := absurd h hnot
  dest := hdest
  once _ hmem := hsettled.once hmem
  settled := hsettled

/-- The first `k` frames went out. -/
theorem Netface.Transmits.of_failed {identifier : UInt16} {made : List PktCall} {k : Nat}
    (h : face.Accepts packet)
    (hk : k < (packetFrames face.mtu.toNat packet identifier).length)
    (hsent : sentFrames made = (packetFrames face.mtu.toNat packet identifier).take k)
    (hdest : ∀ dest pkt, .gnrcNetapiSend dest pkt ∈ made → dest = face.pid)
    (hsettled : Settled (made.map PktCall.own)) :
    face.Transmits packet identifier (-1) made := by
  have hne : sentFrames made ≠ packetFrames face.mtu.toNat packet identifier := by
    intro heq
    have hlen := congrArg List.length heq
    rw [hsent, List.length_take] at hlen
    omega
  exact {
    result := .inr rfl
    sent := by
      rw [frameList_of_accepts h, Option.some.injEq]
      constructor
      · intro hret
        simp at hret
      · intro heq
        exact absurd heq.symm hne
    failed := by
      intro _ frames hframes
      rw [frameList_of_accepts h, Option.some.injEq] at hframes
      subst hframes
      exact ⟨hsent ▸ List.take_prefix _ _, hne⟩
    refused := fun hnot => absurd h hnot
    dest := hdest
    once := fun _ hmem => hsettled.once hmem
    settled := hsettled }

end Transmits

/-- **Transmission under failures.** Whichever of the RIOT calls fail, a send
returns, and its result and its calls account for every frame and every snip. -/
theorem ndnNetfaceSend_transmits {P : Platform} (hP : P.Documented) (face : Netface)
    (packet : List UInt8) (r : Riot) :
    ∃ ret r' made, ndnNetfaceSend P face packet r = some (ret, r') ∧
      r'.log = r.log ++ made ∧ face.Transmits packet (r.random r.draws) ret made := by
  by_cases hguard : face.Accepts packet
  · rcases ndnNetfaceSend_spec hP face packet r hguard with
      ⟨r', hsend, hr'⟩ | ⟨r', k, hsend, hk, hr', _⟩
    · obtain ⟨made, hlog, hsent, hdest, hheld⟩ := hr'.made
      exact ⟨0, r', made, hsend, hlog, .of_sent hguard hsent hdest hheld.settled⟩
    · obtain ⟨made, hlog, hsent, hdest, hheld⟩ := hr'.made
      exact ⟨-1, r', made, hsend, hlog, .of_failed hguard hk hsent hdest hheld.settled⟩
  · exact ⟨-1, r, [], ndnNetfaceSend_of_not_accepts P r hguard, (List.append_nil _).symm,
      .of_refused hguard _⟩

-- the interface refuses the second of three fragments: the first one stays sent,
-- the second is released with its header, and the third is never made
example : (ndnNetfaceSend reference { Netface.zeroed with mtu := 6 } [6, 6, 1, 2, 3, 4, 5, 6]
    { Riot.calm fun _ => 7 with succeeds := (· != 5) }).map (fun s => (s.1, s.2.log)) =
      some (-1,
        [.gnrcPktbufAdd (.payload 0 .ndn [0xA0, 0, 7, 6, 6, 1]), .gnrcNetifHdrBuild 1,
          .gnrcNetapiSend 0 [.netifHdr 1 true 0, .payload 0 .ndn [0xA0, 0, 7, 6, 6, 1]],
          .gnrcPktbufAdd (.payload 2 .ndn [0xA1, 0, 7, 2, 3, 4]), .gnrcNetifHdrBuild 3,
          .gnrcPktbufRelease [.netifHdr 3 true 0, .payload 2 .ndn [0xA1, 0, 7, 2, 3, 4]]]) := by
  decide

/-- The result and the calls of this run agree. -/
theorem ndnNetfaceSend_transmits_midway :
    ∃ ret r' made,
      ndnNetfaceSend reference { Netface.zeroed with mtu := 6 } [6, 6, 1, 2, 3, 4, 5, 6]
          { Riot.calm fun _ => 7 with succeeds := (· != 5) } = some (ret, r') ∧
        r'.log = [] ++ made ∧
        Netface.Transmits { Netface.zeroed with mtu := 6 } [6, 6, 1, 2, 3, 4, 5, 6] 7 ret made :=
  ndnNetfaceSend_transmits reference_documented { Netface.zeroed with mtu := 6 }
    [6, 6, 1, 2, 3, 4, 5, 6] { Riot.calm fun _ => 7 with succeeds := (· != 5) }

end NdnRiot
