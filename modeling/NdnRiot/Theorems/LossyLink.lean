import NdnRiot.Logic.Link

/-!
# A link that loses frames

A netface sends one packet after the other, any RIOT call may fail, and of the
frames handed to the interface some get through to a peer, in order. `heard` says
which packets the peer then delivers: packets within the MTU that got through, and
fragmented ones of which everything got through, up to the first one of which the
peer took the first fragment and not all of them. From there on it is deaf to
fragments, because nothing resets the assembler (`lossyLink`).
-/

namespace NdnRiot

open Reassembly

/-! ## What a peer makes of it -/

/-- An idle assembler takes the first of the fragments received. -/
def startsTrain (received : List (List UInt8)) : Bool :=
  received.head?.any fun f => fragSeq f = 0 && (fragPayload f).length ≤ fragBufferSize

/-- The packets delivered by a peer that is `deaf` to fragments or not, given each
packet sent with the frames of it that were received. -/
def heard (mtu : Nat) : Bool → List (List UInt8 × List (List UInt8)) → List (List UInt8)
  | _, [] => []
  | deaf, (packet, received) :: rest =>
      if packet.length ≤ mtu then
        (if received = [] then [] else [packet]) ++ heard mtu deaf rest
      else if deaf then heard mtu true rest
      else if received ≠ [] ∧ received.length = fragCount packet.length mtu ∧
          packet.length ≤ fragBufferSize then
        packet :: heard mtu false rest
      else heard mtu (startsTrain received) rest

/-- No packet is made up, repeated or overtaken. -/
theorem heard_sublist (mtu : Nat) {sent : List (List UInt8 × List (List UInt8))} :
    ∀ {deaf : Bool}, (heard mtu deaf sent).Sublist (sent.map Prod.fst) := by
  induction sent with
  | nil => intro deaf; exact List.Sublist.refl _
  | cons c rest ih =>
      intro deaf
      simp only [heard, List.map_cons]
      split_ifs
      · exact ih.cons _
      · exact ih.cons_cons _
      · exact ih.cons _
      · exact ih.cons_cons _
      · exact ih.cons _

/-! ## One packet -/

section Crossing

variable {tx : Transmission} {received : List (List UInt8)}

/-- A packet within the MTU gets through as it is, or not at all. -/
theorem linkReceiveAll_whole (hsound : tx.Sound) (hreceived : received.Sublist tx.frames)
    (hsmall : tx.packet.length ≤ tx.mtu.toNat) (p : Rx) :
    (linkReceiveAll p received).1 = p ∧
      (linkReceiveAll p received).2.flatten = if received = [] then [] else [tx.packet] := by
  have hframes := hreceived.trans hsound.frames.sublist
  rw [packetFrames, if_neg (Nat.not_lt.mpr hsmall)] at hframes
  rcases List.sublist_singleton.mp hframes with rfl | rfl
  · exact ⟨rfl, rfl⟩
  · simp [linkReceiveAll, linkReceive, hsound.tlv]

/-- What is received of a fragmented packet is left of its train. -/
theorem Transmission.Sound.left (hsound : tx.Sound) (hreceived : received.Sublist tx.frames)
    (hlarge : tx.mtu.toNat < tx.packet.length) :
    received.Sublist (trainFrames tx.mtu.toNat tx.packet tx.identifier) ∧
      (received ≠ [] → ndnFragHdrLen < tx.mtu.toNat ∧
        fragView.Train tx.packet.length (trainFrames tx.mtu.toNat tx.packet tx.identifier)) := by
  have hframes := hreceived.trans hsound.frames.sublist
  rw [packetFrames, if_pos hlarge] at hframes
  refine ⟨hframes, ?_⟩
  intro hne
  obtain ⟨f, hf⟩ := List.exists_mem_of_ne_nil _ hne
  obtain ⟨j, _, rfl⟩ := mem_trainFrames.mp (hframes.subset hf)
  obtain ⟨_, hmtu, hcount, _⟩ :=
    hsound.fragment (hreceived.subset hf) (headerBit_fragFrame _ _ _ _)
  exact ⟨hmtu, trainFrames_train _ hmtu hsound.nonempty hcount (Nat.le_refl _)⟩

/-- The fragments received are fragments. -/
theorem Transmission.Sound.left_bits (hsound : tx.Sound)
    (hreceived : received.Sublist tx.frames) (hlarge : tx.mtu.toNat < tx.packet.length) :
    ∀ f ∈ received, headerBit f = true := by
  intro f hf
  obtain ⟨j, _, rfl⟩ := mem_trainFrames.mp ((hsound.left hreceived hlarge).1.subset hf)
  exact headerBit_fragFrame _ _ _ _

/-- A deaf receiver stays as it is. -/
theorem linkReceiveAll_deaf (hsound : tx.Sound) (hreceived : received.Sublist tx.frames)
    (hlarge : tx.mtu.toNat < tx.packet.length) {p : Rx} {g : List UInt8} (hg : g ∈ p.parts)
    (hforeign : ∀ f ∈ tx.frames, headerBit f = true → fragIdent f ≠ fragIdent g) :
    (linkReceiveAll p received).1 = p ∧ (linkReceiveAll p received).2.flatten = [] := by
  have hbits := hsound.left_bits hreceived hlarge
  have hrefused : reassemble p received = (p, []) :=
    reassemble_foreign hg fun f hf => hforeign f (hreceived.subset hf) (hbits f hf)
  rw [(linkReceiveAll_reassemble received p).1, linkReceiveAll_fragments hbits, hrefused]
  exact ⟨rfl, rfl⟩

/-- The assembler starts with the fragment that bears the number 0. -/
theorem starts_iff {cap : Nat} {train : List (List UInt8)} (htrain : fragView.Train cap train)
    (hsub : received.Sublist train) :
    fragView.Starts fragBufferSize train received ↔ startsTrain received = true := by
  unfold View.Starts startsTrain
  cases hhead : received.head? with
  | none => simp
  | some f =>
      have hmem := hsub.subset (List.mem_of_mem_head? hhead)
      have hzero : train.head? = some f ↔ fragSeq f = 0 := by
        rw [List.head?_eq_getElem?]
        constructor
        · exact htrain.seq 0 f
        · intro hseq
          have hat := htrain.getElem?_seq hmem
          rwa [show fragView.seq f = 0 from hseq] at hat
      simp [hzero]

/-- **One fragmented packet.** An idle receiver delivers it if everything was received and
it fits. Else it delivers nothing, and what it is left with are fragments of the packet
or nothing. -/
theorem linkReceiveAll_lossy (hsound : tx.Sound) (hreceived : received.Sublist tx.frames)
    (hlarge : tx.mtu.toNat < tx.packet.length) :
    (received ≠ [] ∧ received.length = fragCount tx.packet.length tx.mtu.toNat ∧
        tx.packet.length ≤ fragBufferSize ∧ (linkReceiveAll .idle received).1 = .idle ∧
        (linkReceiveAll .idle received).2.flatten = [tx.packet]) ∨
    (¬ (received ≠ [] ∧ received.length = fragCount tx.packet.length tx.mtu.toNat ∧
          tx.packet.length ≤ fragBufferSize) ∧
        (linkReceiveAll .idle received).2.flatten = [] ∧
        (startsTrain received = false → (linkReceiveAll .idle received).1 = .idle) ∧
        (startsTrain received = true → ∃ g ∈ (linkReceiveAll .idle received).1.parts,
          ∃ f ∈ tx.frames, headerBit f = true ∧ fragIdent g = fragIdent f)) := by
  by_cases hnil : received = []
  · subst hnil
    exact .inr ⟨by simp, rfl, fun _ => rfl, by simp [startsTrain]⟩
  obtain ⟨hsub, hguards⟩ := hsound.left hreceived hlarge
  obtain ⟨hmtu, htrain⟩ := hguards hnil
  have hbits := hsound.left_bits hreceived hlarge
  have hstate := (linkReceiveAll_reassemble received (.idle : Rx)).1
  have houts := linkReceiveAll_fragments (p := .idle) hbits
  have hlength : received = trainFrames tx.mtu.toNat tx.packet tx.identifier ↔
      received.length = fragCount tx.packet.length tx.mtu.toNat := by
    rw [← length_trainFrames tx.mtu.toNat tx.packet tx.identifier]
    exact ⟨fun heq => congrArg List.length heq, hsub.eq_of_length⟩
  have hbytes := bytes_trainFrames tx.packet tx.identifier hmtu
  rcases reassemble_lossy fragBufferSize htrain hsub with
    ⟨hwhole, hfits, hdone⟩ | ⟨hlost, hquiet, hparts, hstuck⟩
  · rw [hbytes] at hfits
    refine .inl ⟨hnil, hlength.mp hwhole, hfits, ?_, ?_⟩
    · rw [hstate, hdone]
    · rw [houts, hdone, List.map_singleton, hbytes]
  · rw [hbytes, hlength] at hlost
    rw [starts_iff htrain hsub] at hstuck
    refine .inr ⟨fun h => hlost h.2, by rw [houts, hquiet]; rfl, ?_, ?_⟩
    · intro hno
      rw [hstate]
      refine Pending.eq_idle ?_
      by_contra hne
      rw [hstuck.mp hne] at hno
      cases hno
    · intro hyes
      obtain ⟨g, hg⟩ := List.exists_mem_of_ne_nil _ (hstuck.mpr hyes)
      obtain ⟨f, hf⟩ := List.exists_mem_of_ne_nil _ hnil
      exact ⟨g, by rwa [hstate], f, hreceived.subset hf, hbits f hf,
        htrain.ident g (hparts g hg) f (hsub.subset hf)⟩

end Crossing

/-! ## One packet after the other -/

/-- Fragments of the two transmissions bear different identifiers. -/
def Apart (first second : List (List UInt8)) : Prop :=
  ∀ f ∈ first, ∀ g ∈ second, headerBit f = true → headerBit g = true →
    fragIdent f ≠ fragIdent g

instance (first second : List (List UInt8)) : Decidable (Apart first second) :=
  inferInstanceAs (Decidable (∀ f ∈ first, ∀ g ∈ second, _))

/-- The receiver is idle, or stuck with a fragment that none of those to come continues. -/
def HearsAs (p : Rx) (deaf : Bool) (crossings : List (Transmission × List (List UInt8))) :
    Prop :=
  deaf = false ∧ p = .idle ∨
    deaf = true ∧ ∃ g ∈ p.parts, ∀ c ∈ crossings, ∀ f ∈ c.1.frames, headerBit f = true →
      fragIdent f ≠ fragIdent g

theorem HearsAs.tail {p : Rx} {deaf : Bool} {c : Transmission × List (List UInt8)}
    {rest : List (Transmission × List (List UInt8))} (h : HearsAs p deaf (c :: rest)) :
    HearsAs p deaf rest := by
  rcases h with h | ⟨hdeaf, g, hg, hforeign⟩
  · exact .inl h
  · exact .inr ⟨hdeaf, g, hg, fun c' hc' => hforeign c' (List.mem_cons_of_mem _ hc')⟩

/-- **The receiver.** What it delivers is what is heard. -/
theorem linkReceiveAll_heard {mtu : UInt16}
    {crossings : List (Transmission × List (List UInt8))} :
    ∀ {p : Rx} {deaf : Bool},
      (∀ c ∈ crossings, c.1.Sound ∧ c.1.mtu = mtu ∧ c.2.Sublist c.1.frames) →
      crossings.Pairwise (fun a b => Apart a.1.frames b.1.frames) →
      HearsAs p deaf crossings →
      (linkReceiveAll p (crossings.flatMap Prod.snd)).2.flatten =
        heard mtu.toNat deaf (crossings.map fun c => (c.1.packet, c.2)) := by
  induction crossings with
  | nil => intro p deaf _ _ _; rfl
  | cons c rest ih =>
      intro p deaf hall hapart hears
      obtain ⟨hsound, rfl, hreceived⟩ := hall c List.mem_cons_self
      obtain ⟨hfirst, hrest⟩ := List.pairwise_cons.mp hapart
      have hrec := fun {p' : Rx} {deaf' : Bool} =>
        @ih p' deaf' (fun c' hc' => hall c' (List.mem_cons_of_mem _ hc')) hrest
      simp only [List.flatMap_cons, linkReceiveAll_append, List.flatten_append, List.map_cons,
        heard]
      by_cases hsmall : c.1.packet.length ≤ c.1.mtu.toNat
      · obtain ⟨hstate, hout⟩ := linkReceiveAll_whole hsound hreceived hsmall p
        rw [hstate, hout, if_pos hsmall, hrec hears.tail]
      rw [if_neg hsmall]
      have hlarge := Nat.lt_of_not_le hsmall
      rcases hears with ⟨rfl, rfl⟩ | ⟨rfl, g, hg, hforeign⟩
      · rw [if_neg (by simp)]
        rcases linkReceiveAll_lossy hsound hreceived hlarge with
          ⟨hne, hlength, hfits, hstate, hout⟩ | ⟨hlost, hout, hidle, hstuck⟩
        · rw [hstate, hout, if_pos ⟨hne, hlength, hfits⟩, hrec (.inl ⟨rfl, rfl⟩)]
          rfl
        · rw [hout, if_neg hlost, List.nil_append, hrec]
          cases hstart : startsTrain c.2 with
          | false => exact .inl ⟨rfl, hidle hstart⟩
          | true =>
              obtain ⟨g, hg, f, hf, hbit, hident⟩ := hstuck hstart
              refine .inr ⟨rfl, g, hg, ?_⟩
              intro c' hc' f' hf' hbit'
              rw [hident]
              exact (hfirst c' hc' f hf f' hf' hbit hbit').symm
      · obtain ⟨hstate, hout⟩ := linkReceiveAll_deaf hsound hreceived hlarge hg
          (hforeign c List.mem_cons_self)
        rw [if_pos rfl, hstate, hout, List.nil_append]
        exact hrec (HearsAs.tail (.inr ⟨rfl, g, hg, hforeign⟩))

/-! ## The sender -/

/-- A packet that starts with an NDN TLV type, of a size the guard can count. -/
structure NdnPacket (packet : List UInt8) : Prop where
  nonempty : packet ≠ []
  tlv : packet.getD 0 0 < ndnFragHbMask
  size : packet.length < int32Max

/-- The sends of a list of packets, as transmissions. -/
theorem transmissions_sendAll {P : Platform} (hP : P.Documented) {face : Netface}
    {packets : List (List UInt8)} :
    ∀ {r r' : Riot} {sends : List Sent}, sendAll P face packets r = some (sends, r') →
      (∀ packet ∈ packets, NdnPacket packet) →
      ∃ txs : List Transmission, txs.map Transmission.packet = packets ∧
        txs.map Transmission.frames = sends.map Sent.frames ∧
        ∀ tx ∈ txs, tx.Sound ∧ tx.mtu = face.mtu := by
  induction packets with
  | nil =>
      intro r r' sends h _
      cases h
      exact ⟨[], rfl, rfl, by simp⟩
  | cons packet rest ih =>
      intro r r' sends h hpackets
      obtain ⟨⟨ret, r₁⟩, hsend, hmore⟩ := Option.bind_eq_some_iff.mp h
      obtain ⟨⟨later, r₂⟩, hrest, heq⟩ := Option.bind_eq_some_iff.mp hmore
      cases heq
      have hpacket := hpackets packet List.mem_cons_self
      obtain ⟨tx, htx, hframe, hmtu⟩ : ∃ tx, transmit P face packet r = some tx ∧
          tx.frames = (sentFrames r₁.log).drop (sentFrames r.log).length ∧
          tx.mtu = face.mtu := by
        rw [transmit, hsend]
        exact ⟨_, rfl, rfl, rfl⟩
      obtain ⟨hsound, rfl⟩ := sound_transmit hP hpacket.nonempty (headerBit_of_lt hpacket.tlv)
        hpacket.size htx
      obtain ⟨txs, hpkts, hframes, htxs⟩ :=
        ih hrest fun p hp => hpackets p (List.mem_cons_of_mem _ hp)
      refine ⟨tx :: txs, ?_, ?_, ?_⟩
      · rw [List.map_cons, hpkts]
      · rw [List.map_cons, List.map_cons, hframe, hframes]
      · intro tx' hmem
        rcases List.mem_cons.mp hmem with rfl | hmem
        · exact ⟨hsound, hmtu⟩
        · exact htxs tx' hmem

/-- Frames of transmissions can be read. -/
theorem Transmission.Sound.readable {tx : Transmission} (h : tx.Sound) {f : List UInt8}
    (hf : f ∈ tx.frames) : Readable f := by
  have hframe := h.frames.mem hf
  unfold packetFrames at hframe
  split at hframe
  · obtain ⟨j, _, rfl⟩ := mem_trainFrames.mp hframe
    exact readable_fragFrame _ _ _ _
  · rw [List.mem_singleton.mp hframe]
    exact ⟨h.nonempty, by simp [h.tlv]⟩

/-- **A lossy link.** Whichever RIOT calls fail and whichever frames are lost, what an
idle peer delivers of the packets sent is exactly what `heard` says, if sends bear
different identifiers. So no packet is made up, repeated or overtaken. -/
theorem lossyLink {P : Platform} (hP : P.Documented) (face peer : Netface) (self : FaceRef)
    {packets : List (List UInt8)} {sends : List Sent} {r r' : Riot}
    (hsend : sendAll P face packets r = some (sends, r'))
    (hpackets : ∀ packet ∈ packets, NdnPacket packet)
    (hapart : sends.Pairwise fun a b => Apart a.frames b.frames) (hidle : peer.Idle)
    {received : List (List (List UInt8))}
    (hlossy : List.Forall₂ List.Sublist received (sends.map Sent.frames))
    {snips : List Snip} (htypes : ∀ s ∈ snips, s.type = .ndn)
    (hdata : snips.map Snip.data = received.flatten) :
    ∃ peer' calls, receiveAll P self peer snips = .ok (peer', calls) ∧
      deliveries calls.flatten =
        (heard face.mtu.toNat false (packets.zip received)).map (self, ·) ∧
      (heard face.mtu.toNat false (packets.zip received)).Sublist packets := by
  obtain ⟨txs, rfl, hframes, htxs⟩ := transmissions_sendAll hP hsend hpackets
  rw [← hframes] at hlossy
  have hlen : received.length = txs.length := by rw [hlossy.length_eq, List.length_map]
  -- each transmission with the frames of it that were received
  have hcrossings : ∀ c ∈ txs.zip received,
      c.1.Sound ∧ c.1.mtu = face.mtu ∧ c.2.Sublist c.1.frames := by
    intro c hc
    obtain ⟨hsound, hmtu⟩ := htxs c.1 (List.of_mem_zip (a := c.1) (b := c.2) hc).1
    refine ⟨hsound, hmtu, ?_⟩
    obtain ⟨i, hi, rfl⟩ := List.getElem_of_mem hc
    rw [List.length_zip] at hi
    have hat := hlossy.get (i := i) (by omega) (by rw [List.length_map]; omega)
    simpa using hat
  have hpair : (txs.zip received).Pairwise fun a b => Apart a.1.frames b.1.frames := by
    have hframesApart : (txs.map Transmission.frames).Pairwise Apart := by
      rw [hframes, List.pairwise_map]
      exact hapart
    rw [← List.pairwise_map (f := fun c : Transmission × List (List UInt8) => c.1.frames),
      show (fun c : Transmission × List (List UInt8) => c.1.frames) =
        Transmission.frames ∘ Prod.fst from rfl, ← List.map_map, List.map_fst_zip (by omega)]
    exact hframesApart
  have hflat : (txs.zip received).flatMap Prod.snd = received.flatten := by
    rw [List.flatMap_def, List.map_snd_zip (by omega)]
  have hsent : ((txs.zip received).map fun c => (c.1.packet, c.2)) =
      (txs.map Transmission.packet).zip received := by
    rw [List.zip_map_left]
    rfl
  have harrivals : Arrivals snips := by
    intro s hs
    have hmem : s.data ∈ (txs.zip received).flatMap Prod.snd := by
      rw [hflat, ← hdata]
      exact List.mem_map_of_mem hs
    obtain ⟨c, hc, hf⟩ := List.mem_flatMap.mp hmem
    obtain ⟨hsound, _, hsub⟩ := hcrossings c hc
    exact ⟨htypes s hs, hsound.readable (hsub.subset hf)⟩
  obtain ⟨peer', calls, hrecv, _, _, hdel⟩ :=
    receiveAll_spec hP self (holds_idle_iff.mpr hidle) harrivals
  refine ⟨peer', calls, hrecv, ?_, ?_⟩
  · have hheard := linkReceiveAll_heard (p := .idle) hcrossings hpair (.inl ⟨rfl, rfl⟩)
    rw [hflat, hsent] at hheard
    rw [deliveries_flatten, hdel, hdata, ← List.map_flatten, hheard]
  · refine (heard_sublist _).trans ?_
    rw [List.map_fst_zip (by rw [List.length_map]; omega)]

/-- Three packets on a link with an MTU of 5, two of them in three fragments. -/
def threePackets : List (List UInt8) := [[6, 4, 1, 2, 3, 4], [5, 1, 9], [6, 4, 5, 6, 7, 8]]

/-- What gets through when the second frame is lost. -/
def secondLost : List (List (List UInt8)) :=
  [[[0xA0, 0, 0, 6, 4], [0x82, 0, 0, 3, 4]], [[5, 1, 9]],
    [[0xA0, 0, 1, 6, 4], [0xA1, 0, 1, 5, 6], [0x82, 0, 1, 7, 8]]]

/-- The loss of one fragment costs the later packet that got through as well. -/
theorem lossyLink_secondLost :
    heard 5 false (threePackets.zip secondLost) = [[5, 1, 9]] ∧
    ∃ peer' calls, receiveAll reference (.netface 0) (Netface.zeroed.initAssembler reference)
        (secondLost.flatten.map fun f => ⟨0, .ndn, f⟩) = .ok (peer', calls) ∧
      deliveries calls.flatten =
        (heard 5 false (threePackets.zip secondLost)).map (.netface 0, ·) ∧
      (heard 5 false (threePackets.zip secondLost)).Sublist threePackets := by
  have hsend : ∃ r', sendAll reference { Netface.zeroed with mtu := 5 } threePackets
      (Riot.calm fun n => UInt16.ofNat n) =
        some ([⟨0, trainFrames 5 [6, 4, 1, 2, 3, 4] 0⟩, ⟨0, [[5, 1, 9]]⟩,
          ⟨0, trainFrames 5 [6, 4, 5, 6, 7, 8] 1⟩], r') := ⟨_, rfl⟩
  obtain ⟨r', hsend⟩ := hsend
  refine ⟨by decide, lossyLink reference_documented { Netface.zeroed with mtu := 5 }
    (Netface.zeroed.initAssembler reference) (.netface 0) hsend ?_ (by decide)
    ⟨rfl, rfl, rfl, rfl⟩ ?_ (by decide) (by decide)⟩
  · intro packet hpacket
    simp only [threePackets, List.mem_cons, List.not_mem_nil, or_false] at hpacket
    rcases hpacket with rfl | rfl | rfl <;> exact ⟨by decide, by decide, by decide⟩
  · exact .cons (by decide) (.cons (by decide) (.cons (by decide) .nil))

end NdnRiot
