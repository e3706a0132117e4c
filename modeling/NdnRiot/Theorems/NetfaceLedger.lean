import NdnRiot.Logic.Handlers

/-!
# The packet ledger of the netfaces

The handler of a netface takes over the snip of every RCV message it pops.
Fragments are released; whole packets and snips of other types are not, where
`ndn_udp_face_recv` releases what it delivered. What was released is thus the
fragments among what was taken.
-/

namespace NdnRiot

/-- Every snip taken was released, and as often. -/
def Thread.Balanced (t : Thread) : Prop := ∀ snip, t.released.count snip = t.taken.count snip

/-- An RCV message carries a snip of at least three bytes. -/
def Msg.Loaded (m : Msg) : Prop :=
  m.type = .rcv → ∃ snip, m.ptr = some snip ∧ ndnFragHdrLen ≤ snip.data.length

/-- A netface is the one an event is for. -/
def FaceRef.IsNetface (self : FaceRef) : Prop := self ≠ .udp

/-- The handler comes to an end on a queue whose messages are loaded. -/
theorem ndnNetfaceReceive_total (P : Platform) (self : FaceRef) (face : Netface)
    {queue : List Msg} (hqueue : ∀ m ∈ queue, m.Loaded) :
    ∃ result, ndnNetfaceReceive P self face queue = .ok result := by
  apply ndnNetfaceReceive_isOk
  intro m hm htype
  obtain ⟨snip, hptr, hlen⟩ := hqueue m (List.mem_of_head? hm) htype
  exact ⟨snip, hptr, .inr (readable_of_length hlen)⟩

/-- What every step of netface traffic preserves: the queue is loaded, pending
events have a netface, and the snips released are the fragments taken. -/
structure Thread.LedgerInv (t : Thread) : Prop where
  loaded : ∀ m ∈ t.msgQueue, m.Loaded
  table : ∀ i, .netface i ∈ t.events → i < t.netfaceTable.length
  released : t.released = t.taken.filter Snip.isFragment

/-- The step lemma of the ledger. -/
theorem Thread.LedgerInv.step {P : Platform} {t t' : Thread} {a : Action}
    (hinv : t.LedgerInv) (ha : a.Traffic Msg.Loaded FaceRef.IsNetface)
    (h : t.step P a = some t') : t'.LedgerInv := by
  have hloaded := traffic_queue ha hinv.loaded h
  rcases ha.cases with ⟨m, rfl, _⟩ | ⟨self, stale, rfl, hself⟩
  · obtain rfl := Option.some.inj h
    exact ⟨hloaded, hinv.table, hinv.released⟩
  · have hevents := dispatch_events_perm h
    obtain ⟨_, table, calls, hrun, rfl⟩ := dispatch_cases h
    obtain ⟨_, _, ⟨i, face, face', _, _, hrecv, rfl⟩ | ⟨hudp, _, _⟩⟩ := handler_cases hrun
    · refine ⟨hloaded, ?_, ?_⟩
      · intro k hk
        simpa using hinv.table k (hevents.mem_iff.mp hk)
      · have hreleases := releases_ndnNetfaceReceive hrecv
        have hold := hinv.released
        unfold Thread.released Thread.taken at hold ⊢
        rw [List.flatMap_append, hold, List.filterMap_append, List.filter_append]
        simp only [List.flatMap_singleton, record_calls, record_taken, hreleases,
          List.filterMap_cons, List.filterMap_nil]
        cases t.msgQueue.head?.bind Msg.snip? <;> rfl
    · exact absurd hudp hself

/-- With loaded messages in the queue a pending event can be dispatched. -/
theorem Thread.LedgerInv.dispatch_isSome (P : Platform) {t : Thread} (hinv : t.LedgerInv)
    {i : Nat} (hevent : .netface i ∈ t.events) (stale : Msg) :
    (t.step P (.dispatch (.netface i) stale)).isSome = true := by
  obtain ⟨face, hface⟩ : ∃ face, t.netfaceTable[i]? = some face :=
    ⟨_, List.getElem?_eq_getElem (hinv.table i hevent)⟩
  obtain ⟨⟨face', queue, calls⟩, hrecv⟩ :=
    ndnNetfaceReceive_total P (.netface i) face hinv.loaded
  simp [Thread.step, Thread.dispatch, Thread.handler, hevent, hface, hrecv, bind, Except.bind,
    pure, Except.pure]

/-- The ledger balances when all that was taken are fragments. -/
theorem Thread.LedgerInv.balanced_iff {t : Thread} (hinv : t.LedgerInv) :
    t.Balanced ↔ ∀ snip ∈ t.taken, snip.isFragment = true := by
  unfold Thread.Balanced
  rw [hinv.released]
  constructor
  · intro hbal snip hsnip
    have hpos := List.count_pos_iff.mpr hsnip
    rw [← hbal snip, List.count_pos_iff] at hpos
    exact (List.mem_filter.mp hpos).2
  · intro hall snip
    rw [List.filter_eq_self.mpr hall]

/-- **The ledger.** In every run of the netface handlers over loaded messages
the ledger balances if and only if every snip taken is a fragment of an NDN
packet; and every pending event can be dispatched. -/
theorem netfaceLedger_iff (P : Platform) {t t' : Thread} (hqueue : ∀ m ∈ t.msgQueue, m.Loaded)
    (htable : ∀ i, .netface i ∈ t.events → i < t.netfaceTable.length)
    (hfresh : t.history = []) {acts : List Action}
    (hacts : ∀ a ∈ acts, a.Traffic Msg.Loaded FaceRef.IsNetface)
    (hrun : t.run P acts = some t') :
    (t'.Balanced ↔ ∀ snip ∈ t'.taken, snip.isFragment = true) ∧
      ∀ i stale, .netface i ∈ t'.events →
        (t'.step P (.dispatch (.netface i) stale)).isSome = true := by
  have hstart : t.LedgerInv :=
    ⟨hqueue, htable, by simp [Thread.released, Thread.taken, hfresh]⟩
  have hinv : t'.LedgerInv :=
    Runs.run_invariant_of_every (fun _ _ _ hI h ha => hI.step ha h) hstart
      (Runs.every_of_forall hacts) hrun
  exact ⟨hinv.balanced_iff, fun i stale hevent => hinv.dispatch_isSome P hevent stale⟩

/-- A device with one interface that runs netfaces only. -/
def oneNetface : Thread :=
  ndnLiteStartup reference [⟨7, some 102, none, some 1⟩] (Thread.boot 3 1)

/-- A run over one fragment. -/
theorem netfaceLedger_fragment :
    let acts := [.arrive ⟨7, .rcv, some ⟨0, .ndn, [0xA0, 0, 1, 6]⟩⟩,
      .dispatch (.netface 0) ⟨0, .snd, none⟩]
    ∃ t', oneNetface.run reference acts = some t' ∧
      (t'.Balanced ↔ ∀ snip ∈ t'.taken, snip.isFragment = true) ∧
      ∀ i stale, .netface i ∈ t'.events →
        (t'.step reference (.dispatch (.netface i) stale)).isSome = true := by
  intro acts
  obtain ⟨t', hrun⟩ := Option.isSome_iff_exists.mp
    (show (oneNetface.run reference acts).isSome = true by decide)
  refine ⟨t', hrun, netfaceLedger_iff reference (by intro m hm; cases hm) ?_ rfl ?_ hrun⟩
  · intro i hi
    obtain rfl : i = 0 := by
      have hpending : FaceRef.netface i ∈ [FaceRef.netface 0] := hi
      simpa using hpending
    decide
  · intro a ha
    rcases List.mem_cons.mp ha with rfl | ha
    · exact fun _ => ⟨_, rfl, by decide⟩
    · rw [List.mem_singleton.mp ha]
      exact FaceRef.noConfusion

/-- A whole packet is delivered and never released. -/
theorem netfaceLedger_leak :
    ∃ t', oneNetface.run reference
        [.arrive ⟨7, .rcv, some ⟨0, .ndn, [5, 1, 9]⟩⟩,
          .dispatch (.netface 0) ⟨0, .snd, none⟩] = some t' ∧ ¬ t'.Balanced := by
  refine ⟨_, rfl, ?_⟩
  intro hbal
  exact absurd (hbal ⟨0, .ndn, [5, 1, 9]⟩) (by decide)

end NdnRiot
