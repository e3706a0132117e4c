import NdnRiot.Logic.Send

/-!
# Reassembly after a loss

A netface re-arms its assembler when a packet is finished and at no other time,
and it drops the error of a refused fragment. What a lossy history leaves in
the assembler therefore decides whether the next train is received: with no
train pending it is delivered, with one pending every fragment under another
identifier is refused.
-/

namespace NdnRiot

open Reassembly

/-- Every netface state reached from an idle one holds some pending train. -/
theorem exists_holds {P : Platform} (hP : P.Documented) {self : FaceRef}
    {face₀ face : Netface} {earlier : List Snip} {log : List (List Call)}
    (hidle : face₀.Idle) (hearlier : Arrivals earlier)
    (hreach : receiveAll P self face₀ earlier = .ok (face, log)) :
    ∃ p : Rx, face.Holds p := by
  obtain ⟨face', calls, hrun, hold, _⟩ :=
    receiveAll_spec hP self (holds_idle_iff.mpr hidle) hearlier
  rw [hreach] at hrun
  cases hrun
  exact ⟨_, hold⟩

/-- The frames, received one after the other, are delivered as the packet and
nothing else. -/
def Netface.Recovers (P : Platform) (self : FaceRef) (face : Netface)
    (frames : List (List UInt8)) (packet : List UInt8) : Prop :=
  ∀ snips : List Snip, (∀ s ∈ snips, s.type = .ndn) → snips.map Snip.data = frames →
    ∃ face' calls, receiveAll P self face snips = .ok (face', calls) ∧
      deliveries calls.flatten = [(self, packet)]

/-- The frames of a train are delivered as what the pending part makes of them. -/
theorem receiveAll_trainFrames {P : Platform} (hP : P.Documented) (self : FaceRef)
    {face : Netface} {p : Rx} (hold : face.Holds p) {mtu : Nat} {packet : List UInt8}
    {identifier : UInt16} {snips : List Snip} (htypes : ∀ s ∈ snips, s.type = .ndn)
    (hdata : snips.map Snip.data = trainFrames mtu packet identifier) :
    ∃ face' calls, receiveAll P self face snips = .ok (face', calls) ∧
      deliveries calls.flatten =
        (reassemble p (trainFrames mtu packet identifier)).2.map (self, fragView.bytes ·) := by
  have hframe : ∀ s ∈ snips, ∃ j, fragFrame mtu packet identifier j = s.data := by
    intro s hs
    have hmem : s.data ∈ trainFrames mtu packet identifier := by
      rw [← hdata]
      exact List.mem_map_of_mem hs
    obtain ⟨j, _, hj⟩ := mem_trainFrames.mp hmem
    exact ⟨j, hj⟩
  have hread : Arrivals snips := by
    intro s hs
    obtain ⟨j, hj⟩ := hframe s hs
    rw [← hj]
    exact ⟨htypes s hs, readable_fragFrame mtu packet identifier j⟩
  have hbits : ∀ f ∈ trainFrames mtu packet identifier, headerBit f = true := by
    intro f hf
    obtain ⟨j, _, rfl⟩ := mem_trainFrames.mp hf
    exact headerBit_fragFrame mtu packet identifier j
  obtain ⟨face', calls, hrun, _, _, hdel⟩ := receiveAll_spec hP self hold hread
  refine ⟨face', calls, hrun, ?_⟩
  rw [deliveries_flatten, hdel, ← List.map_flatten, hdata,
    linkReceiveAll_fragments hbits, List.map_map]
  rfl

/-- With no train pending, a train that fits the buffer is delivered. -/
theorem recovers_of_idle {P : Platform} (hP : P.Documented) (self : FaceRef)
    {face : Netface} (hidle : face.Holds .idle) {mtu : Nat} {packet : List UInt8}
    (identifier : UInt16) (htrain : fragView.Train fragBufferSize
      (trainFrames mtu packet identifier)) (hmtu : ndnFragHdrLen < mtu) :
    face.Recovers P self (trainFrames mtu packet identifier) packet := by
  intro snips htypes hdata
  obtain ⟨face', calls, hrun, hdel⟩ := receiveAll_trainFrames hP self hidle htypes hdata
  refine ⟨face', calls, hrun, ?_⟩
  rw [hdel, reassemble_train htrain]
  simp [bytes_trainFrames packet identifier hmtu]

/-- With a train pending, a train under another identifier is not delivered. -/
theorem not_recovers_of_pending {P : Platform} (hP : P.Documented) (self : FaceRef)
    {face : Netface} {p : Rx} (hold : face.Holds p) (hpending : p.parts ≠ []) {mtu : Nat}
    {packet : List UInt8} {identifier : UInt16}
    (hident : identifier.toNat ≠ face.assembler.fragIdentifier) :
    ¬ face.Recovers P self (trainFrames mtu packet identifier) packet := by
  intro hrec
  let snips := (trainFrames mtu packet identifier).map (Snip.mk 0 .ndn)
  have htypes : ∀ s ∈ snips, s.type = .ndn := by
    intro s hs
    obtain ⟨f, _, rfl⟩ := List.mem_map.mp hs
    rfl
  have hdata : snips.map Snip.data = trainFrames mtu packet identifier := by
    simp [snips, Function.comp_def]
  obtain ⟨face₁, calls₁, hrun₁, hdel₁⟩ := receiveAll_trainFrames hP self hold htypes hdata
  obtain ⟨face₂, calls₂, hrun₂, hdel₂⟩ := hrec snips htypes hdata
  rw [hrun₁] at hrun₂
  cases hrun₂
  obtain ⟨g, hg⟩ := List.exists_mem_of_ne_nil _ hpending
  have hforeign : ∀ f ∈ trainFrames mtu packet identifier,
      fragView.ident f ≠ fragView.ident g := by
    intro f hf
    obtain ⟨j, _, rfl⟩ := mem_trainFrames.mp hf
    simpa [hold.ident g hg] using hident
  rw [hdel₁, reassemble_foreign hg hforeign] at hdel₂
  simp at hdel₂

/-- **Recovery.** In every state a netface reaches, a packet that fits the
buffer and was sent in fragments, under an identifier other than the pending
one, is delivered if and only if no train is pending. -/
theorem recovers_iff {P : Platform} (hP : P.Documented) (self : FaceRef)
    {face₀ face : Netface} {earlier : List Snip} {log : List (List Call)}
    (hidle : face₀.Idle) (hearlier : Arrivals earlier)
    (hreach : receiveAll P self face₀ earlier = .ok (face, log))
    {pid : Pid} {packet : List UInt8} {mtu : UInt16} {r r' : Riot} (hne : packet ≠ [])
    (hfits : packet.length ≤ fragBufferSize)
    (hsend : ndnL2SendFragments P pid packet mtu r = some (0, r'))
    (hident : face.assembler.seq ≠ 0 →
      (r.random r.draws).toNat ≠ face.assembler.fragIdentifier) :
    face.Recovers P self ((sentFrames r'.log).drop (sentFrames r.log).length) packet ↔
      face.assembler.seq = 0 := by
  obtain ⟨p, hold⟩ := exists_holds hP hidle hearlier hreach
  obtain ⟨hmtu, _, hsent⟩ := ndnL2SendFragments_sent hP hsend
  have hpending : face.assembler.seq = 0 ↔ p.parts = [] := by
    rw [hold.seq, List.length_eq_zero_iff]
  rw [hsent, List.drop_left]
  constructor
  · intro hrec
    by_contra hseq
    exact not_recovers_of_pending hP self hold (mt hpending.mpr hseq) (hident hseq) hrec
  · intro hseq
    obtain rfl := Pending.eq_idle (hpending.mp hseq)
    have hsmall : packet.length < int32Max := by
      unfold fragBufferSize at hfits
      unfold int32Max
      omega
    exact recovers_of_idle hP self hold _
      (ndnL2SendFragments_train hP hsend hne hfits hsmall) hmtu

/-- The last fragment of a train whose first was lost, and a train under identifier 5
with a stray fragment of another train between its two. -/
def strayFrames : List Snip :=
  [⟨0, .ndn, [0x81, 0, 1, 7]⟩, ⟨0, .ndn, [0xA0, 0, 5, 6]⟩, ⟨0, .ndn, [0xA3, 0, 4, 8]⟩,
    ⟨0, .ndn, [0x81, 0, 5, 0]⟩]

/-- A netface that refused the stray fragments and finished the train between them
recovers a packet of eight bytes. -/
theorem recovers_eight_bytes :
    ∃ face log r',
      receiveAll reference (.netface 0) (Netface.zeroed.initAssembler reference)
        strayFrames = .ok (face, log) ∧
      ndnL2SendFragments reference 3 [6, 6, 1, 2, 3, 4, 5, 6] 7 (Riot.calm fun _ => 2) =
        some (0, r') ∧
      face.Recovers reference (.netface 0) ((sentFrames r'.log).drop 0)
        [6, 6, 1, 2, 3, 4, 5, 6] := by
  have hidle : (Netface.zeroed.initAssembler reference).Holds .idle :=
    holds_initAssembler reference_documented Netface.zeroed
  have hstray : Arrivals strayFrames := by unfold Arrivals; decide
  obtain ⟨face, log, hrun, hold, _⟩ := receiveAll_spec reference_documented (.netface 0)
    hidle hstray
  obtain ⟨r', hsend, _⟩ := ndnL2SendFragments_reliable reference_documented 3
    [6, 6, 1, 2, 3, 4, 5, 6] 7 (r := Riot.calm fun _ => 2) (fun _ => rfl) (by decide) (by decide)
  have hparts : (linkReceiveAll (.idle : Rx) (strayFrames.map Snip.data)).1.parts = [] := by
    decide
  have hseq : face.assembler.seq = 0 := by rw [hold.seq, hparts, List.length_nil]
  exact ⟨face, log, r', hrun, hsend, (recovers_iff reference_documented (.netface 0)
    (holds_idle_iff.mp hidle) hstray hrun (by decide) (by decide) hsend
    fun h => absurd hseq h).mpr hseq⟩

/-- The first fragment of a train whose second is lost makes the netface deaf to
a later packet of eight bytes. -/
theorem deaf_after_loss :
    ∃ face log r',
      receiveAll reference (.netface 0) (Netface.zeroed.initAssembler reference)
        [⟨0, .ndn, [0xA0, 0, 1, 6]⟩] = .ok (face, log) ∧
      ndnL2SendFragments reference 3 [6, 6, 1, 2, 3, 4, 5, 6] 7 (Riot.calm fun _ => 2) =
        some (0, r') ∧
      face.assembler.fragIdentifier = 1 ∧
      ¬ face.Recovers reference (.netface 0) ((sentFrames r'.log).drop 0)
        [6, 6, 1, 2, 3, 4, 5, 6] := by
  have hidle : (Netface.zeroed.initAssembler reference).Holds .idle :=
    holds_initAssembler reference_documented Netface.zeroed
  obtain ⟨face, log, hrun, hold, _⟩ := receiveAll_spec reference_documented (.netface 0)
    hidle (show Arrivals [⟨0, .ndn, [0xA0, 0, 1, 6]⟩] by unfold Arrivals; decide)
  obtain ⟨r', hsend, _, hsent⟩ := ndnL2SendFragments_reliable reference_documented 3
    [6, 6, 1, 2, 3, 4, 5, 6] 7 (r := Riot.calm fun _ => 2) (fun _ => rfl) (by decide) (by decide)
  have hparts : (linkReceiveAll (.idle : Rx) [[0xA0, 0, 1, 6]]).1.parts =
      [[0xA0, 0, 1, 6]] := by decide
  have hident : face.assembler.fragIdentifier = 1 :=
    (hold.ident [0xA0, 0, 1, 6] (by simp [hparts])).symm
  refine ⟨face, log, r', hrun, hsend, hident, ?_⟩
  rw [hsent]
  refine not_recovers_of_pending reference_documented (.netface 0) hold ?_ ?_
  · simp [hparts]
  · rw [hident]
    decide

end NdnRiot
