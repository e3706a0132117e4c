import NdnRiot.Logic.Construct

/-!
# The netface table after construction

Under any pattern of failures, `ndn_netface_auto_construct` leaves a valid face
id exactly in the entries of the interfaces that answered and were registered.
The interface the forwarder refuses gets no face id, but it is brought up, armed
and has its receive event posted like the others, and the return value counts it
(`construct_entry`). So the table is what the return value says it is exactly
when there is an interface and no interface fails.
-/

namespace NdnRiot

/-- The interface answered the MTU query and its netface was registered. -/
def NetifInfo.Usable (netif : NetifInfo) : Prop :=
  netif.maxPacketSize.isSome = true ∧ netif.registeredAs.isSome = true

instance (netif : NetifInfo) : Decidable netif.Usable := inferInstanceAs (Decidable (_ ∧ _))

/-- No receive event of a netface is pending, and no entry behind the first `n` is
up. -/
structure Thread.Unconstructed (t : Thread) (n : Nat) : Prop where
  pending : ∀ i < t.netfaceTable.length, .netface i ∉ t.events
  down : ∀ i face, n ≤ i → t.netfaceTable[i]? = some face → face.state ≠ .up

/-- The thread starts that way. -/
theorem boot_unconstructed (pid : Pid) (netifNumof n : Nat) :
    (Thread.boot pid netifNumof).Unconstructed n where
  pending _ _ := List.not_mem_nil
  down i face _ hface := by
    obtain ⟨_, rfl⟩ := List.getElem?_eq_some_iff.mp hface
    simp [Thread.boot, Netface.zeroed]

/-- Entry `i` is the running netface of the interface: registered, with its pid and
its MTU, up, with an initialised assembler and one pending receive event. -/
structure Thread.NetfaceRunning (P : Platform) (t : Thread) (i : Nat) (netif : NetifInfo)
    (face : Netface) : Prop where
  faceId : face.faceId.isSome = true
  pid : face.pid = netif.pid
  mtu : netif.maxPacketSize = some face.mtu
  state : face.state = .up
  assembler : face.assembler = P.assemblerInit fragBufferSize
  pending : t.events.count (.netface i) = 1

/-- Entry `i` is not in use. -/
structure Thread.NetfaceUnused (t : Thread) (i : Nat) (face : Netface) : Prop where
  faceId : face.faceId = none
  state : face.state ≠ .up
  pending : t.events.count (.netface i) = 0

/-- The table holds the running netfaces of the usable interfaces, each at the
place of its interface, and nothing else; `num` is their number. -/
structure Thread.Constructed (P : Platform) (netifs : List NetifInfo) (num : Nat)
    (t : Thread) : Prop where
  usable : ∀ i netif, netifs[i]? = some netif → netif.Usable →
    ∃ face, t.netfaceTable[i]? = some face ∧ t.NetfaceRunning P i netif face
  others : ∀ i face, t.netfaceTable[i]? = some face →
    (∀ netif, netifs[i]? = some netif → ¬ netif.Usable) → t.NetfaceUnused i face
  num : num = netifs.countP fun netif => netif.Usable

/-! ## What holds under any pattern of failures -/

section

variable {P : Platform} (hP : P.Documented) {netifs : List NetifInfo} {t : Thread}
  (hroom : netifs.length ≤ t.netfaceTable.length) {i : Nat}

include hP hroom

/-- Construction posts one receive event for an interface that answers. -/
theorem construct_pending {netif : NetifInfo} (hnetif : netifs[i]? = some netif)
    (hanswer : netif.maxPacketSize.isSome = true) :
    (ndnLiteStartup P netifs t).events.count (.netface i) =
      t.events.count (.netface i) + 1 := by
  rw [(ndnLiteStartup_eq P netifs t).2.1, (startupLoop_spec hP hroom).2, List.count_append]
  congr 1
  apply List.count_eq_one_of_mem (answering_nodup netifs 0)
  exact mem_answering.mpr ⟨i, netif, by rw [Nat.zero_add], hnetif, hanswer⟩

/-- It posts none for an entry behind the interfaces, which only loses its face
id. -/
theorem construct_behind (hi : netifs.length ≤ i) :
    (ndnLiteStartup P netifs t).netfaceTable[i]? =
        t.netfaceTable[i]?.map (fun entry => { entry with faceId := none }) ∧
      (ndnLiteStartup P netifs t).events.count (.netface i) =
        t.events.count (.netface i) := by
  have hnone := List.getElem?_eq_none hi
  constructor
  · rw [ndnLiteStartup_entry hP hroom]
    simp only [fillAt, hnone]
  · rw [(ndnLiteStartup_eq P netifs t).2.1, (startupLoop_spec hP hroom).2, List.count_append,
      Nat.add_eq_left, List.count_eq_zero]
    intro hself
    obtain ⟨j, netif, heq, hnetif, _⟩ := mem_answering.mp hself
    obtain rfl : i = j := by simpa using heq
    rw [hnone] at hnetif
    cases hnetif

/-- **Under any pattern of failures.** The entry of an interface that answered bears
its pid and its MTU and is up and armed, registered or not; its face id is the one
the forwarder gave. The entry of one that did not answer only loses its face id. -/
theorem construct_entry {netif : NetifInfo} (hnetif : netifs[i]? = some netif) :
    ∃ entry face, t.netfaceTable[i]? = some entry ∧
      (ndnLiteStartup P netifs t).netfaceTable[i]? = some face ∧
      ((netif.maxPacketSize = none ∧ face = { entry with faceId := none }) ∨
        (netif.maxPacketSize = some face.mtu ∧ face.pid = netif.pid ∧ face.state = .up ∧
          face.assembler = P.assemblerInit fragBufferSize ∧
          face.faceId = netif.registeredAs)) := by
  have hi : i < t.netfaceTable.length :=
    Nat.lt_of_lt_of_le (List.getElem?_eq_some_iff.mp hnetif).1 hroom
  have hentry := List.getElem?_eq_getElem hi
  refine ⟨_, netif.fill P { t.netfaceTable[i] with faceId := none }, hentry, ?_, ?_⟩
  · rw [ndnLiteStartup_entry hP hroom, hentry, Option.map_some, fillAt, hnetif]
  · unfold NetifInfo.fill
    cases netif.maxPacketSize with
    | none => exact .inl ⟨rfl, rfl⟩
    | some mtu => exact .inr ⟨rfl, rfl, rfl, rfl, rfl⟩

end

/-! ## When the table is exact -/

/-- The return value is the number of usable interfaces only where there is one and
all are usable. -/
theorem construct_num {P : Platform} {netifs : List NetifInfo} {t : Thread} :
    (ndnNetfaceAutoConstruct P netifs t).1 = netifs.countP (fun netif => netif.Usable) ↔
      netifs ≠ [] ∧ ∀ netif ∈ netifs, netif.Usable := by
  cases netifs with
  | nil =>
      show uint32Max = 0 ↔ _
      simp [uint32Max]
  | cons netif rest =>
      show (netif :: rest).length = _ ↔ _
      rw [eq_comm, List.countP_eq_length]
      simp

/-- An exact table was built from one with no netface pending or up. -/
theorem Thread.Constructed.unconstructed {P : Platform} (hP : P.Documented)
    {netifs : List NetifInfo} {num : Nat} {t : Thread}
    (hroom : netifs.length ≤ t.netfaceTable.length)
    (hall : ∀ netif ∈ netifs, netif.Usable)
    (hexact : (ndnLiteStartup P netifs t).Constructed P netifs num) :
    t.Unconstructed netifs.length := by
  have hbehind : ∀ i face, netifs.length ≤ i → t.netfaceTable[i]? = some face →
      face.state ≠ .up ∧ t.events.count (.netface i) = 0 := by
    intro i face hi hface
    obtain ⟨hget, hcount⟩ := construct_behind hP hroom hi
    rw [hface, Option.map_some] at hget
    obtain ⟨_, hstate, hnone⟩ := hexact.others i _ hget fun netif hnetif => by
      rw [List.getElem?_eq_none hi] at hnetif
      cases hnetif
    exact ⟨hstate, by rw [← hcount, hnone]⟩
  refine ⟨?_, fun i face hi hface => (hbehind i face hi hface).1⟩
  intro i hi
  apply List.count_eq_zero.mp
  by_cases hnetif : i < netifs.length
  · -- the event posted is the only one
    have hget := List.getElem?_eq_getElem hnetif
    have husable := hall _ (List.getElem_mem hnetif)
    obtain ⟨_, _, hrunning⟩ := hexact.usable i _ hget husable
    have hcount := construct_pending hP hroom hget husable.1
    rw [hrunning.pending] at hcount
    omega
  · exact (hbehind i _ (Nat.le_of_not_lt hnetif) (List.getElem?_eq_getElem hi)).2

/-- Usable interfaces all have their running netface. -/
theorem Thread.Unconstructed.constructed {P : Platform} (hP : P.Documented)
    {netifs : List NetifInfo} {t : Thread} (hroom : netifs.length ≤ t.netfaceTable.length)
    (hall : ∀ netif ∈ netifs, netif.Usable) (hfresh : t.Unconstructed netifs.length) :
    (ndnLiteStartup P netifs t).Constructed P netifs
      (netifs.countP fun netif => netif.Usable) := by
  have hbefore : ∀ i < t.netfaceTable.length, t.events.count (.netface i) = 0 :=
    fun i hi => List.count_eq_zero.mpr (hfresh.pending i hi)
  refine ⟨?_, ?_, rfl⟩
  · intro i netif hnetif husable
    obtain ⟨entry, face, hentry, hface, hcase⟩ := construct_entry hP hroom hnetif
    have hi := (List.getElem?_eq_some_iff.mp hentry).1
    have hpending := construct_pending hP hroom hnetif husable.1
    rw [hbefore i hi] at hpending
    rcases hcase with ⟨hsilent, _⟩ | ⟨hmtu, hpid, hup, harmed, hid⟩
    · have hanswer := husable.1
      rw [hsilent] at hanswer
      cases hanswer
    · exact ⟨face, hface, by rw [hid]; exact husable.2, hpid, hmtu, hup, harmed, hpending⟩
  · intro i face hface hothers
    have hi : netifs.length ≤ i := by
      apply Nat.le_of_not_lt
      intro hlt
      exact hothers _ (List.getElem?_eq_getElem hlt) (hall _ (List.getElem_mem hlt))
    obtain ⟨hget, hcount⟩ := construct_behind hP hroom hi
    rw [hget] at hface
    obtain ⟨entry, hentry, rfl⟩ := Option.map_eq_some_iff.mp hface
    exact ⟨rfl, hfresh.down i entry hi hentry,
      hcount.trans (hbefore i (List.getElem?_eq_some_iff.mp hentry).1)⟩

/-- **The table is exact** when there is an interface and every interface answers and
is registered, and in no other case. -/
theorem construct_exact_iff {P : Platform} (hP : P.Documented) {netifs : List NetifInfo}
    {t t' : Thread} {num : Nat} {calls : List Call}
    (hroom : netifs.length ≤ t.netfaceTable.length)
    (hcons : ndnNetfaceAutoConstruct P netifs t = (num, t', calls)) :
    t'.Constructed P netifs num ↔
      (netifs ≠ [] ∧ ∀ netif ∈ netifs, netif.Usable) ∧ t.Unconstructed netifs.length := by
  have hnum : (ndnNetfaceAutoConstruct P netifs t).1 = num := by rw [hcons]
  obtain rfl : ndnLiteStartup P netifs t = t' := by rw [ndnLiteStartup, hcons]
  constructor
  · intro hexact
    have hall := construct_num.mp (hnum.trans hexact.num)
    exact ⟨hall, hexact.unconstructed hP hroom hall.2⟩
  · rintro ⟨hall, hfresh⟩
    rw [← hnum, construct_num.mpr hall]
    exact hfresh.constructed hP hroom hall.2

/-- Two interfaces that answer and are registered, on a device with three entries. -/
theorem construct_exact_two :
    let netifs : List NetifInfo :=
      [⟨7, some 102, none, some 1⟩, ⟨8, some 1280, some .ipv6, some 2⟩]
    let t' := (ndnNetfaceAutoConstruct reference netifs (Thread.boot 3 3)).2.1
    t'.Constructed reference netifs 2 := by
  intro netifs t'
  exact (construct_exact_iff reference_documented (by decide) rfl).mpr
    ⟨by decide, boot_unconstructed 3 3 2⟩

/-- One interface, which the forwarder refuses: no face id, but the netface is up
with a pending receive event, and the return value is 1. -/
theorem construct_refused :
    let netifs : List NetifInfo := [⟨7, some 102, none, none⟩]
    let made := ndnNetfaceAutoConstruct reference netifs (Thread.boot 3 1)
    (made.2.1.netfaceTable.map fun face => (face.faceId, face.state)) = [(none, .up)] ∧
      made.2.1.events = [.netface 0] ∧ made.1 = 1 ∧
      ¬ made.2.1.Constructed reference netifs made.1 := by
  refine ⟨by decide, by decide, rfl, ?_⟩
  intro hexact
  have hnum := hexact.num
  revert hnum
  decide

end NdnRiot
