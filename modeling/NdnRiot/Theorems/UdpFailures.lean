import Mathlib.Data.Nat.Basic
import NdnRiot.Lib.Ownership
import NdnRiot.Model.Udp

/-!
# Sending on the UDP face while RIOT calls fail

`ndn_udp_face_send` chains up to four snips, any of which can fail to be
allocated. The chain is accounted for on every exit, but no exit returns a value,
and one failure is not looked at: the interface header is written to before it is
known to exist. `ndnUdpFaceSend_never` says so for every packet and every pattern
of failures, and tells which pattern ends in the access through `NULL`.
-/

namespace NdnRiot

open Ownership

def UdpSnip.handle : UdpSnip → Nat
  | .payload handle _ _ => handle
  | .udpHdr handle _ _ => handle
  | .ipv6Hdr handle _ => handle
  | .netifHdr handle _ => handle

/-- A call as an entry of the ledger of snips. -/
def UdpCall.own : UdpCall → Own Nat
  | .gnrcPktbufAdd snip => .acquire snip.handle
  | .gnrcUdpHdrBuild snip => .acquire snip.handle
  | .gnrcIpv6HdrBuild snip => .acquire snip.handle
  | .gnrcNetifHdrBuild handle => .acquire handle
  | .gnrcNetapiDispatchSend _ pkt => .hand (pkt.map UdpSnip.handle)
  | .gnrcPktbufRelease pkt => .free (pkt.map UdpSnip.handle)

/-- The chains dispatched. -/
def dispatches (calls : List UdpCall) : List (List UdpSnip) :=
  calls.filterMap fun
    | .gnrcNetapiDispatchSend _ pkt => some pkt
    | _ => none

@[simp] theorem dispatches_append (calls rest : List UdpCall) :
    dispatches (calls ++ rest) = dispatches calls ++ dispatches rest := by
  simp [dispatches]

/-- What a send should do: return a value that tells whether the packet was
dispatched, dispatch at most one chain, and leave no snip behind. -/
def UdpFace.Transmits (face : UdpFace) (netif : Option Pid) (packet : List UInt8) (r : Riot) :
    Prop :=
  ∃ ret r' calls, ndnUdpFaceSend face netif packet r = .ok (some ret, r', calls) ∧
    (ret = ndnSuccess ↔ dispatches calls ≠ []) ∧ (dispatches calls).length ≤ 1 ∧
    Settled (calls.map UdpCall.own)

/-- The first three snips are allocated, there is an interface, and its header
cannot be allocated. -/
def HeaderFails (netif : Option Pid) (r : Riot) : Prop :=
  netif ≠ none ∧ r.succeeds r.calls = true ∧ r.succeeds (r.calls + 1) = true ∧
    r.succeeds (r.calls + 2) = true ∧ r.succeeds (r.calls + 3) = false

/-! ## The chain on its way -/

/-- Nothing is dispatched yet and the snips held are the chain. -/
structure UdpHolds (start r : Riot) (calls : List UdpCall) (chain : List UdpSnip) : Prop where
  undispatched : dispatches calls = []
  holding : Holding start.nextHandle r.nextHandle (calls.map UdpCall.own)
    (chain.map UdpSnip.handle)

/-- At most one chain was dispatched, and every snip is accounted for. -/
structure UdpAccounted (calls : List UdpCall) : Prop where
  once : (dispatches calls).length ≤ 1
  settled : Settled (calls.map UdpCall.own)

section Chain

variable {start r : Riot} {calls : List UdpCall} {chain : List UdpSnip}

theorem UdpHolds.nil (r : Riot) : UdpHolds r r [] [] := ⟨rfl, .nil _⟩

/-- An allocation puts its snip in front of the chain. -/
theorem UdpHolds.allocate (h : UdpHolds start r calls chain) (c : UdpCall) (snip : UdpSnip)
    (hc : c.own = .acquire snip.handle) (hsnip : snip.handle = r.nextHandle) :
    UdpHolds start r.tick.fresh (calls ++ [c]) (snip :: chain) where
  undispatched := by
    rw [dispatches_append, h.undispatched]
    cases c <;> simp [UdpCall.own, dispatches] at hc ⊢
  holding := by
    rw [List.map_append, List.map_singleton, hc, hsnip, List.map_cons, hsnip]
    exact h.holding.acquire (Nat.le_refl _) (Nat.lt_succ_self _)

/-- A call that passes the whole chain on. -/
theorem UdpHolds.finish (h : UdpHolds start r calls chain) {c : UdpCall}
    (hnone : c.own.acquired = [])
    (hall : (c.own.handed ++ c.own.freed).Perm (chain.map UdpSnip.handle)) :
    UdpAccounted (calls ++ [c]) where
  once := by
    rw [dispatches_append, h.undispatched]
    cases c <;> simp [dispatches]
  settled := by
    rw [List.map_append, List.map_singleton]
    exact (h.holding.passOn hnone hall).settled

theorem UdpHolds.release (h : UdpHolds start r calls chain) :
    UdpAccounted (calls ++ [.gnrcPktbufRelease chain]) := h.finish rfl (.refl _)

theorem UdpHolds.dispatch (h : UdpHolds start r calls chain) :
    UdpAccounted (calls ++ [.gnrcNetapiDispatchSend .udp chain]) :=
  h.finish rfl (by simp [UdpCall.own])

/-- The end of the function returns no value and accounts for the chain. -/
theorem udpDispatchSend_spec (h : UdpHolds start r calls chain) :
    ∃ r' made, udpDispatchSend chain calls r = (none, r', made) ∧ UdpAccounted made := by
  by_cases hok : r.ok = true
  · exact ⟨_, _, if_pos hok, h.dispatch⟩
  · exact ⟨_, _, if_neg hok, h.release⟩

end Chain

/-- **Exits.** The function ends with an access through `NULL` when the interface
header cannot be allocated; else without a value, with every snip accounted for. -/
theorem ndnUdpFaceSend_cases (face : UdpFace) (netif : Option Pid) (packet : List UInt8)
    (r : Riot) :
    (HeaderFails netif r ∧ ndnUdpFaceSend face netif packet r = .error .nullDereference) ∨
    (¬ HeaderFails netif r ∧ ∃ r' calls,
      ndnUdpFaceSend face netif packet r = .ok (none, r', calls) ∧ UdpAccounted calls) := by
  let r₁ := r.tick.fresh
  let r₂ := r₁.tick.fresh
  let r₃ := r₂.tick.fresh
  let payload := UdpSnip.payload r.nextHandle .undef packet
  let udp := UdpSnip.udpHdr r₁.nextHandle face.localPort face.remotePort
  let ip := UdpSnip.ipv6Hdr r₂.nextHandle face.remoteAddr
  unfold ndnUdpFaceSend
  by_cases hpayload : r.succeeds r.calls = true
  swap
  · -- no payload, and nothing to release
    have halloc : r.alloc = (none, r.tick) := if_neg hpayload
    refine .inr ⟨fun h => hpayload h.2.1, r.tick, [], by rw [halloc], ?_⟩
    exact ⟨Nat.zero_le 1, (Holding.nil (0 : Nat)).settled⟩
  have halloc : r.alloc = (some r.nextHandle, r₁) := if_pos hpayload
  have h₁ := (UdpHolds.nil r).allocate (.gnrcPktbufAdd payload) payload rfl rfl
  simp only [halloc]
  by_cases hudp : r.succeeds (r.calls + 1) = true
  swap
  · -- no UDP header: the payload is released
    have halloc₁ : r₁.alloc = (none, r₁.tick) := if_neg hudp
    exact .inr ⟨fun h => hudp h.2.2.1, r₁.tick, _, by rw [halloc₁]; rfl, h₁.release⟩
  have halloc₁ : r₁.alloc = (some r₁.nextHandle, r₂) := if_pos hudp
  have h₂ := h₁.allocate (.gnrcUdpHdrBuild udp) udp rfl rfl
  simp only [halloc₁]
  by_cases hip : r.succeeds (r.calls + 2) = true
  swap
  · -- no IPv6 header: the datagram is released
    have halloc₂ : r₂.alloc = (none, r₂.tick) := if_neg hip
    exact .inr ⟨fun h => hip h.2.2.2.1, r₂.tick, _, by rw [halloc₂]; rfl, h₂.release⟩
  have halloc₂ : r₂.alloc = (some r₂.nextHandle, r₃) := if_pos hip
  have h₃ := h₂.allocate (.gnrcIpv6HdrBuild ip) ip rfl rfl
  simp only [halloc₂]
  cases netif with
  | none =>
      obtain ⟨r', made, hsend, hmade⟩ := udpDispatchSend_spec h₃
      exact .inr ⟨fun h => h.1 rfl, r', made, congrArg _ hsend, hmade⟩
  | some pid =>
      by_cases hhdr : r.succeeds (r.calls + 3) = true
      · have halloc₃ : r₃.alloc = (some r₃.nextHandle, r₃.tick.fresh) := if_pos hhdr
        obtain ⟨r', made, hsend, hmade⟩ := udpDispatchSend_spec
          (h₃.allocate (.gnrcNetifHdrBuild r₃.nextHandle) (.netifHdr r₃.nextHandle pid) rfl rfl)
        refine .inr ⟨?_, r', made, ?_, hmade⟩
        · rintro ⟨_, _, _, _, hfails⟩
          rw [hhdr] at hfails
          simp at hfails
        · rw [halloc₃]
          exact congrArg _ hsend
      · have halloc₃ : r₃.alloc = (none, r₃.tick) := if_neg hhdr
        refine .inl ⟨⟨by simp, hpayload, hudp, hip, by simpa using hhdr⟩, ?_⟩
        rw [halloc₃]

/-- **Transmission on UDP.** No call meets its specification, because no exit
returns a value. The rest of it fails exactly where the interface header cannot
be allocated; elsewhere the packet is dispatched at most once and every snip is
part of what was dispatched or released, once. -/
theorem ndnUdpFaceSend_never (face : UdpFace) (netif : Option Pid) (packet : List UInt8)
    (r : Riot) :
    ¬ face.Transmits netif packet r ∧
      (ndnUdpFaceSend face netif packet r = .error .nullDereference ↔ HeaderFails netif r) ∧
      (¬ HeaderFails netif r → ∃ r' calls,
        ndnUdpFaceSend face netif packet r = .ok (none, r', calls) ∧
          (dispatches calls).length ≤ 1 ∧
          ∀ handle ∈ acquired (calls.map UdpCall.own),
            ((handed (calls.map UdpCall.own)).count handle = 1 ∧
              handle ∉ freed (calls.map UdpCall.own)) ∨
            (handle ∉ handed (calls.map UdpCall.own) ∧
              (freed (calls.map UdpCall.own)).count handle = 1)) := by
  rcases ndnUdpFaceSend_cases face netif packet r with ⟨hfails, hrun⟩ | ⟨hno, r', calls, hrun, h⟩
  · refine ⟨?_, iff_of_true hrun hfails, fun hno => absurd hfails hno⟩
    rintro ⟨ret, r', calls, hok, _⟩
    rw [hrun] at hok
    cases hok
  · refine ⟨?_, iff_of_false ?_ hno, fun _ => ⟨r', calls, hrun, h.once, ?_⟩⟩
    · rintro ⟨ret, r'', calls', hok, _⟩
      rw [hrun] at hok
      cases hok
    · rw [hrun]
      simp
    · intro handle hmem
      exact h.settled.once hmem

/-- The interface header cannot be allocated, and is written to. -/
theorem ndnUdpFaceSend_null :
    ¬ UdpFace.Transmits ⟨.up, some 1, 6363, 6363, 0⟩ (some 7) [5, 1, 8]
        { Riot.calm fun _ => 7 with succeeds := (· != 3) } := by
  rintro ⟨ret, r', calls, hok, _⟩
  have hrun : ndnUdpFaceSend ⟨.up, some 1, 6363, 6363, 0⟩ (some 7) [5, 1, 8]
      { Riot.calm fun _ => 7 with succeeds := (· != 3) } = .error .nullDereference := rfl
  rw [hrun] at hok
  cases hok

end NdnRiot
