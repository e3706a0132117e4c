import NdnRiot.Logic.Send

/-!
# The fragment-count guard

`ndn_l2_send_fragments` refuses a packet when `data_size / (mtu - 3) + 1`, as an
`int`, exceeds 32. The fragmenter makes `data_size / (mtu - 3)` fragments,
rounded up. The two counts differ on exact multiples, and the `int` turns
negative for quotients from `INT32_MAX` on: `guardExact_iff` says that these are
the only sizes the guard gets wrong.
-/

namespace NdnRiot

/-- The guard refuses the packet, with nothing done, exactly when the packet
needs more than 32 fragments. -/
def GuardExact (P : Platform) (pid : Pid) (data : List UInt8) (mtu : UInt16) (r : Riot) :
    Prop :=
  ndnL2SendFragments P pid data mtu r = some (-1, r) ↔ 32 < fragCount data.length mtu.toNat

/-! ## What passes the guard draws an identifier -/

theorem draws_gnrcPktbufAdd (r : Riot) (data : List UInt8) (type : Nettype) :
    (r.gnrcPktbufAdd data type).2.draws = r.draws := by
  unfold Riot.gnrcPktbufAdd
  split <;> rfl

theorem draws_ndnL2SendPacket (pid : Pid) (pkt : List OutSnip) (r : Riot) :
    (ndnL2SendPacket pid pkt r).2.draws = r.draws := by
  unfold ndnL2SendPacket Riot.gnrcNetifHdrBuild
  by_cases hbuild : r.ok = true
  · rw [if_pos hbuild]
    simp only [Riot.gnrcNetapiSend]
    -- whether or not the interface takes the packet
    split <;> rfl
  · rw [if_neg hbuild]
    rfl

/-- The loop draws nothing. -/
theorem draws_sendFragmentsLoop (P : Platform) (pid : Pid) (mtu : Nat) :
    ∀ (fuel : Nat) (fragmenter : Fragmenter) (fragmented : List UInt8) (r : Riot) {ret r'},
      sendFragmentsLoop P pid mtu fuel fragmenter fragmented r = some (ret, r') →
        r'.draws = r.draws := by
  intro fuel
  induction fuel with
  | zero => intro fragmenter fragmented r ret r' h; simp [sendFragmentsLoop] at h
  | succ fuel ih =>
      intro fragmenter fragmented r ret r' h
      unfold sendFragmentsLoop at h
      by_cases hcond : fragmenter.counter < fragmenter.totalFragNum
      · rw [if_pos hcond] at h
        generalize (if fragmenter.counter = fragmenter.totalFragNum - 1 then
          fragmenter.originalSize - fragmenter.offset + 3 else mtu) = size at h
        rcases hfrag : P.fragmenterFragment fragmenter fragmented with ⟨fragmenter₁, fragmented₁⟩
        have hadd := draws_gnrcPktbufAdd r (fragmented₁.take size) .ndn
        rcases hout : r.gnrcPktbufAdd (fragmented₁.take size) .ndn with ⟨_ | pkt, r₁⟩
        · simp only [hfrag, hout, Option.some.injEq, Prod.mk.injEq] at h hadd
          rw [← h.2, hadd]
        · have hsend := draws_ndnL2SendPacket pid [pkt] r₁
          rcases hout₂ : ndnL2SendPacket pid [pkt] r₁ with ⟨ret₂, r₂⟩
          simp only [hfrag, hout, hout₂] at h hadd hsend
          split at h
          · cases h
            exact hsend.trans hadd
          · exact (ih fragmenter₁ fragmented₁ r₂ h).trans (hsend.trans hadd)
      · rw [if_neg hcond] at h
        cases h
        rfl

/-- **Refusals.** Over a large enough MTU the only call that returns at once is
the one the guard refuses. -/
theorem ndnL2SendFragments_refuses_iff (P : Platform) (pid : Pid) (data : List UInt8)
    {mtu : UInt16} (r : Riot) (hmtu : ndnFragHdrLen < mtu.toNat) :
    ndnL2SendFragments P pid data mtu r = some (-1, r) ↔
      32 < totalFrags data.length mtu.toNat := by
  unfold ndnL2SendFragments
  rw [if_neg (Nat.not_le_of_lt hmtu)]
  by_cases hguard : 32 < totalFrags data.length mtu.toNat
  · rw [if_pos hguard]
    exact ⟨fun _ => hguard, fun _ => rfl⟩
  · rw [if_neg hguard]
    constructor
    · intro hret
      have hdraws : r.draws = r.draws + 1 := draws_sendFragmentsLoop P pid _ _ _ _ _ hret
      omega
    · intro hlt
      exact absurd hlt hguard

/-- **The guard.** It is exact but for 32 full fragments, which it refuses, and
for quotients from `INT32_MAX` on, which it lets pass. -/
theorem guardExact_iff (P : Platform) (pid : Pid) (data : List UInt8) (mtu : UInt16) (r : Riot)
    (hsize : data.length ≤ uint32Max) (hmtu : ndnFragHdrLen < mtu.toNat) :
    GuardExact P pid data mtu r ↔
      data.length ≠ 32 * (mtu.toNat - ndnFragHdrLen) ∧
        data.length / (mtu.toNat - ndnFragHdrLen) < int32Max := by
  have hk : 0 < mtu.toNat - ndnFragHdrLen := Nat.sub_pos_of_lt hmtu
  have hquot : 32 ≤ data.length / (mtu.toNat - ndnFragHdrLen) ↔
      32 * (mtu.toNat - ndnFragHdrLen) ≤ data.length := Nat.le_div_iff_mul_le hk
  have hfull : data.length = 32 * (mtu.toNat - ndnFragHdrLen) →
      data.length / (mtu.toNat - ndnFragHdrLen) = 32 := by
    intro hlen
    rw [hlen, Nat.mul_div_cancel _ hk]
  have hbound : 32 < int32Max := by decide
  unfold GuardExact
  rw [ndnL2SendFragments_refuses_iff P pid data r hmtu, lt_totalFrags_iff hsize,
    lt_fragCount_iff hmtu]
  omega

/-- The guard is right about 33 fragments of one byte. -/
theorem guardExact_small :
    GuardExact reference 3 (List.replicate 33 6) 4 (Riot.calm fun _ => 7) ↔
      33 ≠ 32 * (4 - 3) ∧ 33 / (4 - 3) < int32Max :=
  guardExact_iff reference 3 (List.replicate 33 6) 4 (Riot.calm fun _ => 7) (by decide)
    (by decide)

/-- A packet of 3168 bytes fills 32 fragments on a link of MTU 102, and is
refused. -/
theorem guard_refuses_full :
    ¬ GuardExact reference 3 (List.replicate 3168 6) 102 (Riot.calm fun _ => 7) := by
  intro hexact
  have hrefused : ndnL2SendFragments reference 3 (List.replicate 3168 6) 102
      (Riot.calm fun _ => 7) = some (-1, Riot.calm fun _ => 7) := by
    apply (ndnL2SendFragments_refuses_iff reference 3 _ _ (by decide)).mpr
    rw [List.length_replicate]
    decide
  have hcount := hexact.mp hrefused
  rw [List.length_replicate] at hcount
  exact absurd hcount (by decide)

end NdnRiot
