import NdnRiot.Logic.Link
import NdnRiot.Logic.Pending

/-!
# Integrity of a shared link

Devices send with `ndn_netface_send`, any RIOT call may fail in the middle of a
train, and the link loses, duplicates and reorders frames between any number of
devices with any number of interfaces. As long as fragments with one identifier
come from sends of one packet, whatever a netface delivers is a packet that some
device sent (`linkIntegrity`).

A netface holds fragments that were put on the link, all under one identifier
(`Thread.Hears`). A train it completes is thus made of fragments of one packet, and
a train made of fragments of another is that one (`View.Train.eq_of_subset`).
-/

namespace NdnRiot

open Reassembly

/-! ## Fragments on the link -/

/-- A frame of one of the transmissions. -/
def OnAir (air : List Transmission) (frame : List UInt8) : Prop :=
  ∃ tx ∈ air, frame ∈ tx.frames

/-- Fragments under one identifier come from sends of one packet over one MTU. -/
def NoCollision (air : List Transmission) : Prop :=
  ∀ tx ∈ air, ∀ tx' ∈ air, ∀ f ∈ tx.frames, ∀ f' ∈ tx'.frames,
    headerBit f = true → headerBit f' = true → fragIdent f = fragIdent f' →
      tx.packet = tx'.packet ∧ tx.mtu = tx'.mtu

instance (air : List Transmission) : Decidable (NoCollision air) :=
  inferInstanceAs (Decidable (∀ tx ∈ air, _))

theorem OnAir.grow {air more : List Transmission} {frame : List UInt8} (h : OnAir air frame) :
    OnAir (air ++ more) frame := by
  obtain ⟨tx, htx, hf⟩ := h
  exact ⟨tx, List.mem_append_left _ htx, hf⟩

theorem NoCollision.of_append {air more : List Transmission} (h : NoCollision (air ++ more)) :
    NoCollision air := by
  intro tx htx tx' htx'
  exact h tx (List.mem_append_left _ htx) tx' (List.mem_append_left _ htx')

/-- **No mixing.** A train of fragments on the link is the train of one of the packets
sent. -/
theorem NoCollision.train {air : List Transmission} (hno : NoCollision air)
    (hsound : ∀ tx ∈ air, tx.Sound) {cap : Nat} {train : List (List UInt8)}
    (htrain : fragView.Train cap train) (hair : ∀ f ∈ train, OnAir air f) :
    ∃ tx ∈ air, fragView.bytes train = tx.packet := by
  obtain ⟨g, hg⟩ := List.exists_mem_of_ne_nil _ htrain.nonempty
  obtain ⟨tx, htx, hgtx⟩ := hair g hg
  obtain ⟨_, hmtu, hcount, hgid⟩ := (hsound tx htx).fragment hgtx (htrain.frag g hg)
  have hall : ∀ f ∈ train, f ∈ trainFrames tx.mtu.toNat tx.packet tx.identifier := by
    intro f hf
    obtain ⟨tx', htx', hftx'⟩ := hair f hf
    have hid := htrain.ident f hf g hg
    obtain ⟨hpacket, hmtu'⟩ := hno tx' htx' tx htx f hftx' g hgtx (htrain.frag f hf)
      (htrain.frag g hg) hid
    obtain ⟨hmem, _, _, hfid⟩ := (hsound tx' htx').fragment hftx' (htrain.frag f hf)
    have hident : tx'.identifier = tx.identifier :=
      UInt16.toNat_inj.mp (by rw [← hfid, ← hgid]; exact hid)
    rwa [hpacket, hmtu', hident] at hmem
  have hsent := trainFrames_train tx.identifier hmtu (hsound tx htx).nonempty hcount
    (Nat.le_refl _)
  refine ⟨tx, htx, ?_⟩
  rw [htrain.eq_of_subset hsent hall, bytes_trainFrames _ _ hmtu]

/-! ## The devices -/

/-- Everything about frames that a device knows comes from the link. -/
structure Thread.Hears (air : List Transmission) (t : Thread) : Prop where
  queue : ∀ m ∈ t.msgQueue, ∀ snip, m.snip? = some snip → snip.type = .ndn →
    OnAir air snip.data
  pending : t.EachPending fun face => ∃ p, face.Holds p ∧ ∀ f ∈ p.parts, OnAir air f
  delivered : NoCollision air → ∀ d ∈ t.history, ∀ i packet,
    (.netface i, packet) ∈ deliveries d.calls → ∃ tx ∈ air, packet = tx.packet

theorem Thread.Fresh.hears {t : Thread} (h : t.Fresh) (air : List Transmission) :
    t.Hears air := by
  refine ⟨by simp [h.queue], ?_, by simp [h.history]⟩
  exact h.idle.imp fun face hidle => ⟨.idle, hidle, by simp⟩

theorem Thread.Hears.grow {air : List Transmission} {t : Thread} (h : t.Hears air)
    (more : List Transmission) : t.Hears (air ++ more) := by
  refine ⟨fun m hm snip hsnip htype => (h.queue m hm snip hsnip htype).grow, ?_, ?_⟩
  · exact h.pending.imp fun face ⟨p, hold, hparts⟩ =>
      ⟨p, hold, fun f hf => (hparts f hf).grow⟩
  · intro hno d hd i packet hpacket
    obtain ⟨tx, htx, heq⟩ := h.delivered hno.of_append d hd i packet hpacket
    exact ⟨tx, List.mem_append_left _ htx, heq⟩

section Step

variable {P : Platform} {air : List Transmission} {t t' : Thread}

/-- The snip at the head of the queue is from the link. -/
theorem Thread.Hears.head (h : t.Hears air) {snip : Snip}
    (hsnip : t.msgQueue.head?.bind Msg.snip? = some snip) (htype : snip.type = .ndn) :
    OnAir air snip.data := by
  obtain ⟨m, hm, hmsnip⟩ := Option.bind_eq_some_iff.mp hsnip
  exact h.queue m (List.mem_of_mem_head? hm) snip hmsnip htype

/-- The netfaces go on holding fragments from the link. -/
theorem Thread.Hears.pending_step (hP : P.Documented) (h : t.Hears air) {a : Action}
    (hstep : t.step P a = some t') :
    t'.EachPending fun face => ∃ p, face.Holds p ∧ ∀ f ∈ p.parts, OnAir air f := by
  refine h.pending.step ?_ ?_ hstep
  · rintro face state ⟨p, hold, hparts⟩
    exact ⟨p, hold.setState state, hparts⟩
  · rintro i face face' queue calls ⟨p, hold, hparts⟩ hrecv
    rcases ndnNetfaceReceive_holds hP hold hrecv with
      ⟨rfl, _⟩ | ⟨snip, hsnip, htype, hold', _⟩
    · exact ⟨p, hold, hparts⟩
    · refine ⟨_, hold', ?_⟩
      rcases linkReceive_cases p snip.data with ⟨_, hsame⟩ | ⟨_, hgrown, _⟩
      · rwa [hsame]
      · intro f hf
        rcases List.mem_append.mp (hgrown.subset hf) with hf | hf
        · exact hparts f hf
        · rw [List.mem_singleton.mp hf]
          exact h.head hsnip htype

/-- What a dispatch delivers on a netface was sent. -/
theorem Thread.Hears.dispatched (hP : P.Documented) (hsound : ∀ tx ∈ air, tx.Sound)
    (h : t.Hears air) (hno : NoCollision air) {self : FaceRef} {stale : Msg}
    {table : List Netface} {queue : List Msg} {calls : List Call} (hevent : self ∈ t.events)
    (hrun : t.handler P self stale = .ok (table, queue, calls)) {i : Nat}
    {packet : List UInt8} (hpacket : (.netface i, packet) ∈ deliveries calls) :
    ∃ tx ∈ air, packet = tx.packet := by
  obtain ⟨_, _, ⟨j, face, face', rfl, hface, hrecv, _⟩ | ⟨_, hrecv, _⟩⟩ := handler_cases hrun
  · obtain ⟨face₀, hface₀, p, hold, hparts⟩ := h.pending j hevent
    obtain rfl : face = face₀ := Option.some.inj (hface.symm.trans hface₀)
    rcases ndnNetfaceReceive_holds hP hold hrecv with ⟨_, hdel⟩ | ⟨snip, hsnip, htype, _, hdel⟩
    · simp [hdel] at hpacket
    · have hair := h.head hsnip htype
      rw [hdel] at hpacket
      obtain ⟨out, hout, heq⟩ := List.mem_map.mp hpacket
      obtain rfl : out = packet := (Prod.mk.inj heq).2
      rcases linkReceive_cases p snip.data with ⟨hbit, hsame⟩ | ⟨_, _, houts⟩
      · -- a whole packet
        rw [hsame] at hout
        rw [List.mem_singleton.mp hout]
        obtain ⟨tx, htx, hf⟩ := hair
        exact ⟨tx, htx, (hsound tx htx).whole hf hbit⟩
      · -- the last fragment of a train
        obtain ⟨htrain, rfl⟩ := houts out hout
        refine hno.train hsound htrain ?_
        intro f hf
        rcases List.mem_append.mp hf with hf | hf
        · exact hparts f hf
        · rwa [List.mem_singleton.mp hf]
  · -- the UDP face delivers on itself
    rw [(ndnUdpFaceRecv_calls hrecv).1] at hpacket
    obtain ⟨snip, _, heq⟩ := List.mem_map.mp hpacket
    cases heq

/-- **The step lemma.** Every action keeps a device to what was sent, if what arrives
as an NDN frame is from the link. -/
theorem Thread.Hears.step (hP : P.Documented) (hsound : ∀ tx ∈ air, tx.Sound)
    (h : t.Hears air) {a : Action}
    (harrive : ∀ m, a = .arrive m → ∀ snip, m.snip? = some snip → snip.type = .ndn →
      OnAir air snip.data)
    (hstep : t.step P a = some t') : t'.Hears air := by
  have hpending := h.pending_step hP hstep
  rcases step_cases hstep with ⟨self, stale, rfl⟩ | ⟨hhistory, hqueue⟩
  · obtain ⟨hevent, table, calls, hrun, rfl⟩ := dispatch_cases hstep
    refine ⟨fun m hm => h.queue m (List.mem_of_mem_tail hm), hpending, ?_⟩
    intro hno d hd i packet hpacket
    rcases List.mem_append.mp hd with hd | hd
    · exact h.delivered hno d hd i packet hpacket
    · rw [List.mem_singleton.mp hd, record_calls] at hpacket
      exact h.dispatched hP hsound hno hevent hrun hpacket
  · refine ⟨?_, hpending, by rw [hhistory]; exact h.delivered⟩
    intro m hm
    rw [hqueue] at hm
    rcases List.mem_append.mp hm with hm | hm
    · exact h.queue m hm
    · refine harrive m ?_
      cases a <;> simp_all [arrivals]

end Step

/-! ## The network -/

section Network

variable {ν : Type*}

/-- Sends are of NDN packets, and NDN frames come from the link only. -/
def LinkEvent.Allowed : LinkEvent ν → Prop
  | .act _ (.netfaceSend _ packet _) =>
      packet ≠ [] ∧ packet.getD 0 0 < ndnFragHbMask ∧ packet.length < int32Max
  | .act _ (.arrive m) => ∀ snip, m.snip? = some snip → snip.type ≠ .ndn
  | _ => True

/-- An action of a device is a send, or stays inside the device. -/
theorem linkProgram_act {P : Platform} {n : ν} {a : Action} {t t' : Thread}
    {out : List Transmission} (h : (linkProgram P ν).act n a t = some (t', out)) :
    (∃ i packet riot face tx, a = .netfaceSend i packet riot ∧
      transmit P face packet riot = some tx ∧ t' = t ∧ out = [tx]) ∨
    (t.step P a = some t' ∧ out = []) := by
  have hinside : (t.step P a).map (·, []) = some (t', out) →
      t.step P a = some t' ∧ out = [] := by
    intro hmap
    obtain ⟨t₁, hstep, heq⟩ := Option.map_eq_some_iff.mp hmap
    cases heq
    exact ⟨hstep, rfl⟩
  cases a with
  | netfaceSend i packet riot =>
      obtain ⟨face, _, hsend⟩ := Option.bind_eq_some_iff.mp h
      obtain ⟨tx, htx, heq⟩ := Option.map_eq_some_iff.mp hsend
      cases heq
      exact .inl ⟨i, packet, riot, face, tx, rfl, htx, rfl, rfl⟩
  | arrive _ | dispatch _ _ | netfaceUp _ | netfaceDown _ | netfaceDestroy _ | udpUp | udpDown
  | udpDestroy => exact .inr (hinside h)

/-- The transmission is of a send among the events. -/
def Transmission.SentIn (events : List (LinkEvent ν)) (tx : Transmission) : Prop :=
  ∃ n i riot, .act n (.netfaceSend i tx.packet riot) ∈ events

/-- Devices that send NDN packets keep each other to what was sent. -/
theorem linkProgram_keeps {P : Platform} (hP : P.Documented) (events : List (LinkEvent ν)) :
    (linkProgram P ν).Keeps (fun e => e ∈ events ∧ LinkEvent.Allowed e)
      (fun tx => tx.Sound ∧ tx.SentIn events) (fun _ air t => t.Hears air) where
  grow _ _ more _ h := h.grow more
  act n a air t t' out hG hgood h hact := by
    obtain ⟨hmem, hallowed⟩ := hG
    have hsound := fun tx htx => (hgood tx htx).1
    rcases linkProgram_act hact with
      ⟨i, packet, riot, face, tx, rfl, htx, rfl, rfl⟩ | ⟨hstep, rfl⟩
    · obtain ⟨hne, htlv, hsize⟩ := hallowed
      obtain ⟨hnew, rfl⟩ := sound_transmit hP hne (headerBit_of_lt htlv) hsize htx
      refine ⟨?_, h.grow _⟩
      intro tx' htx'
      rw [List.mem_singleton.mp htx']
      exact ⟨hnew, n, i, riot, hmem⟩
    · refine ⟨by simp, ?_⟩
      rw [List.append_nil]
      refine h.step hP hsound ?_ hstep
      rintro m rfl snip hsnip htype
      exact absurd htype (hallowed snip hsnip)
  receive n how tx air t t' out _ hgood h htx hrecv := by
    have hsound := fun tx htx => (hgood tx htx).1
    simp only [linkProgram] at hrecv
    split at hrecv
    next hframe =>
      obtain ⟨t₁, hstep, heq⟩ := Option.map_eq_some_iff.mp hrecv
      cases heq
      refine ⟨by simp, ?_⟩
      rw [List.append_nil]
      refine h.step hP hsound ?_ hstep
      rintro m hm snip hsnip _
      obtain rfl := Action.arrive.inj hm
      obtain rfl := Option.some.inj hsnip
      exact ⟨tx, htx, hframe⟩
    next => cases hrecv

/-- **Link integrity.** In every run of any number of devices that start fresh and send
NDN packets, whatever is lost, duplicated, reordered or cut short, a packet delivered
on a netface was passed to `ndn_netface_send` in this run, if no two packets share a
fragment identifier. -/
theorem linkIntegrity [DecidableEq ν] {P : Platform} (hP : P.Documented)
    {net net' : LinkNet ν} {events : List (LinkEvent ν)} (hfresh : ∀ n, (net.nodes n).Fresh)
    (hquiet : net.air = []) (hallowed : ∀ e ∈ events, LinkEvent.Allowed e)
    (hrun : (linkProgram P ν).run net events = some net') (hno : NoCollision net'.air)
    (n : ν) :
    ∀ d ∈ (net'.nodes n).history, ∀ i packet, (.netface i, packet) ∈ deliveries d.calls →
      ∃ sender j riot, .act sender (.netfaceSend j packet riot) ∈ events := by
  have hstart : Medium.Program.Invariant (fun tx => tx.Sound ∧ tx.SentIn events)
      (fun _ air t => t.Hears air) net :=
    ⟨by simp [hquiet], fun n => (hfresh n).hears net.air⟩
  obtain ⟨hgood, hhears⟩ := (linkProgram_keeps hP events).run hstart
    (fun e he => ⟨he, hallowed e he⟩) hrun
  intro d hd i packet hpacket
  obtain ⟨tx, htx, rfl⟩ := (hhears n).delivered hno d hd i packet hpacket
  exact (hgood tx htx).2

end Network

/-- Two devices on a link with an MTU of 5. -/
def twoDevices : LinkNet Bool where
  nodes _ := ndnLiteStartup reference [⟨7, some 5, none, some 1⟩] (Thread.boot 3 1)
  air := []

/-- The send of a packet of three fragments under the identifier 7. -/
def threeFragments (packet : List UInt8) : Transmission :=
  ⟨5, packet, 7, trainFrames 5 packet 7⟩

/-- The first device sends the packet. -/
def sendsPacket (packet : List UInt8) : LinkEvent Bool :=
  .act false (.netfaceSend 0 packet (.calm fun _ => 7))

/-- The second device receives one of the frames, and its netface takes it. -/
def receivesFrame (packet frame : List UInt8) : List (LinkEvent Bool) :=
  [.receive true ⟨frame, 7, 0⟩ (threeFragments packet),
    .act true (.dispatch (.netface 0) ⟨0, .snd, none⟩)]

/-- A packet of three fragments, one of them received twice. -/
def trainEvents : List (LinkEvent Bool) :=
  [sendsPacket [6, 4, 1, 2, 3, 4]] ++ receivesFrame [6, 4, 1, 2, 3, 4] [0xA0, 0, 7, 6, 4] ++
    receivesFrame [6, 4, 1, 2, 3, 4] [0xA1, 0, 7, 1, 2] ++
    receivesFrame [6, 4, 1, 2, 3, 4] [0xA1, 0, 7, 1, 2] ++
    receivesFrame [6, 4, 1, 2, 3, 4] [0x82, 0, 7, 3, 4]

/-- The packets the netface of the second device delivered. -/
def deliveredAt (net : LinkNet Bool) : List (List UInt8) :=
  (deliveries ((net.nodes true).history.flatMap (·.calls))).map Prod.snd

/-- The packet is delivered, and it was sent. -/
theorem linkIntegrity_train :
    ∃ net', (linkProgram reference Bool).run twoDevices trainEvents = some net' ∧
      deliveredAt net' = [[6, 4, 1, 2, 3, 4]] ∧
      ∀ d ∈ (net'.nodes true).history, ∀ i packet, (.netface i, packet) ∈ deliveries d.calls →
        ∃ sender j riot, .act sender (.netfaceSend j packet riot) ∈ trainEvents := by
  have hfresh : ∀ n, (twoDevices.nodes n).Fresh := fun n =>
    fresh_ndnLiteStartup reference_documented (by decide) rfl rfl
  have hallowed : ∀ e ∈ trainEvents, LinkEvent.Allowed e := by
    intro e he
    simp only [trainEvents, receivesFrame, sendsPacket, List.mem_append, List.mem_cons,
      List.not_mem_nil, or_false] at he
    rcases he with (((rfl | rfl | rfl) | rfl | rfl) | rfl | rfl) | rfl | rfl <;>
      trivial
  exact ⟨_, rfl, by decide,
    linkIntegrity reference_documented hfresh rfl hallowed rfl (by decide) true⟩

-- under one identifier, two fragments of a packet and the last one of another make up
-- a packet that nobody sent
example : ((linkProgram reference Bool).run twoDevices
    ([sendsPacket [6, 4, 1, 2, 3, 4], sendsPacket [6, 4, 5, 6, 7, 8]] ++
      receivesFrame [6, 4, 1, 2, 3, 4] [0xA0, 0, 7, 6, 4] ++
      receivesFrame [6, 4, 1, 2, 3, 4] [0xA1, 0, 7, 1, 2] ++
      receivesFrame [6, 4, 5, 6, 7, 8] [0x82, 0, 7, 7, 8])).map deliveredAt =
    some [[6, 4, 1, 2, 7, 8]] := by
  decide

end NdnRiot
