import Mathlib.Data.List.Nodup
import NdnRiot.Logic.Receive
import NdnRiot.Model.Netface

/-!
# What the construction of the netfaces leaves

`ndn_netface_auto_construct` fills the table entry of each interface that answers
the MTU query, whether or not the forwarder registers it, and posts one receive
event for it (`constructLoop_spec`). The netface of such an event bears the pid
of its interface and an armed assembler.
-/

namespace NdnRiot

/-! ## One entry -/

/-- The table entry of an interface, as construction leaves it. -/
def NetifInfo.fill (P : Platform) (netif : NetifInfo) (entry : Netface) : Netface :=
  match netif.maxPacketSize with
  | none => entry
  | some mtu =>
      let filled := { entry with state := .up, faceId := netif.registeredAs, mtu, pid := netif.pid }
      filled.initAssembler P

theorem constructEntry_spec {P : Platform} (hP : P.Documented) (i : Nat) (netif : NetifInfo)
    (entry : Netface) :
    (constructEntry P i netif entry).1 = netif.fill P entry ∧
      posts (constructEntry P i netif entry).2 =
        if netif.maxPacketSize.isSome then [.netface i] else [] := by
  unfold constructEntry NetifInfo.fill
  cases netif.maxPacketSize with
  | none => exact ⟨rfl, rfl⟩
  | some mtu =>
      simp only [ndnFaceUp, hP.faceUp, if_true, ndnNetfaceUp, true_and]
      cases netif.proto with
      | none => rfl
      | some proto => by_cases hproto : proto = .ndn <;> simp [hproto]

/-- The netface of an interface that answers bears its pid, and no train is
pending on it. -/
theorem fill_holds {P : Platform} (hP : P.Documented) {netif : NetifInfo} (entry : Netface)
    (hanswer : netif.maxPacketSize.isSome = true) :
    (netif.fill P entry).pid = netif.pid ∧ (netif.fill P entry).Holds .idle := by
  obtain ⟨mtu, hmtu⟩ := Option.isSome_iff_exists.mp hanswer
  rw [NetifInfo.fill, hmtu]
  exact ⟨rfl, holds_initAssembler hP _⟩

/-! ## The loop -/

/-- Entry `j` of a table whose first entries belong to the interfaces. -/
def fillAt (P : Platform) (netifs : List NetifInfo) (j : Nat) (entry : Netface) : Netface :=
  match netifs[j]? with
  | some netif => netif.fill P entry
  | none => entry

/-- The netfaces of the interfaces that answer, the first of which has entry `i`. -/
def answering : List NetifInfo → Nat → List FaceRef
  | [], _ => []
  | netif :: netifs, i =>
      (if netif.maxPacketSize.isSome then [.netface i] else []) ++ answering netifs (i + 1)

theorem mem_answering {netifs : List NetifInfo} {i : Nat} {self : FaceRef} :
    self ∈ answering netifs i ↔ ∃ j netif, self = .netface (i + j) ∧
      netifs[j]? = some netif ∧ netif.maxPacketSize.isSome = true := by
  induction netifs generalizing i with
  | nil => simp [answering]
  | cons netif netifs ih =>
      rw [answering, List.mem_append, ih]
      constructor
      · rintro (hself | ⟨j, netif', rfl, hnetif, hanswer⟩)
        · by_cases hanswer : netif.maxPacketSize.isSome = true
          · rw [if_pos hanswer, List.mem_singleton] at hself
            exact ⟨0, netif, hself, rfl, hanswer⟩
          · simp [hanswer] at hself
        · exact ⟨j + 1, netif', by rw [Nat.add_assoc, Nat.add_comm 1], hnetif, hanswer⟩
      · rintro ⟨j, netif', rfl, hnetif, hanswer⟩
        cases j with
        | zero =>
            obtain rfl : netif = netif' := by simpa using hnetif
            exact .inl (by simp [hanswer])
        | succ j =>
            exact .inr ⟨j, netif', by rw [Nat.add_assoc, Nat.add_comm 1], hnetif, hanswer⟩

theorem answering_nodup (netifs : List NetifInfo) (i : Nat) : (answering netifs i).Nodup := by
  induction netifs generalizing i with
  | nil => exact List.nodup_nil
  | cons netif netifs ih =>
      rw [answering, List.nodup_append]
      refine ⟨by split <;> simp, ih (i + 1), ?_⟩
      intro a ha b hb
      obtain ⟨j, _, rfl, _, _⟩ := mem_answering.mp hb
      split at ha
      · rw [List.mem_singleton.mp ha]
        intro heq
        injection heq with heq
        omega
      · cases ha

/-- Where all interfaces answer, it is their entries in order. -/
theorem answering_all {netifs : List NetifInfo}
    (hanswer : ∀ netif ∈ netifs, netif.maxPacketSize.isSome = true) (i : Nat) :
    answering netifs i = (List.range' i netifs.length).map .netface := by
  induction netifs generalizing i with
  | nil => rfl
  | cons netif netifs ih =>
      rw [answering, if_pos (hanswer netif List.mem_cons_self),
        ih fun n hn => hanswer n (List.mem_cons_of_mem _ hn), List.length_cons, List.range'_succ]
      rfl

/-- The loop over the interfaces, from table entry `i` on. -/
theorem constructLoop_spec {P : Platform} (hP : P.Documented) :
    ∀ (netifs : List NetifInfo) (i : Nat) (table : List Netface),
      netifs.length ≤ table.length →
      (constructLoop P i netifs table).1 = table.mapIdx (fillAt P netifs) ∧
        posts (constructLoop P i netifs table).2 = answering netifs i := by
  intro netifs
  induction netifs with
  | nil =>
      intro i table _
      refine ⟨?_, rfl⟩
      show table = table.mapIdx fun _ entry => entry
      apply List.ext_getElem? fun j => ?_
      rw [List.getElem?_mapIdx, Option.map_id']
  | cons netif netifs ih =>
      intro i table hroom
      cases table with
      | nil => simp at hroom
      | cons entry table =>
          obtain ⟨hentry, hpost⟩ := constructEntry_spec hP i netif entry
          obtain ⟨htable, hposts⟩ := ih (i + 1) table (Nat.le_of_succ_le_succ hroom)
          simp only [constructLoop, hentry, htable, posts_append, hpost, hposts,
            List.mapIdx_cons]
          exact ⟨rfl, rfl⟩

/-! ## The startup -/

/-- The loop as the startup runs it. -/
def startupLoop (P : Platform) (netifs : List NetifInfo) (t : Thread) :
    List Netface × List Call :=
  constructLoop P 0 netifs (t.netfaceTable.map fun entry => { entry with faceId := none })

theorem startupLoop_spec {P : Platform} (hP : P.Documented) {netifs : List NetifInfo}
    {t : Thread} (hroom : netifs.length ≤ t.netfaceTable.length) :
    (startupLoop P netifs t).1 =
        (t.netfaceTable.map fun entry => { entry with faceId := none }).mapIdx
          (fillAt P netifs) ∧
      posts (startupLoop P netifs t).2 = answering netifs 0 :=
  constructLoop_spec hP netifs 0 _ (by rwa [List.length_map])

/-- The startup leaves the table of the loop, posts its events, and keeps the
history. -/
theorem ndnLiteStartup_eq (P : Platform) (netifs : List NetifInfo) (t : Thread) :
    (ndnLiteStartup P netifs t).netfaceTable = (startupLoop P netifs t).1 ∧
      (ndnLiteStartup P netifs t).events = t.events ++ posts (startupLoop P netifs t).2 ∧
      (ndnLiteStartup P netifs t).msgQueue = [] ∧
      (ndnLiteStartup P netifs t).history = t.history := by
  cases netifs with
  | nil => exact ⟨rfl, (List.append_nil _).symm, rfl, rfl⟩
  | cons netif rest => exact ⟨rfl, rfl, rfl, rfl⟩

/-- The entry of an interface after the startup. -/
theorem ndnLiteStartup_entry {P : Platform} (hP : P.Documented) {netifs : List NetifInfo}
    {t : Thread} (hroom : netifs.length ≤ t.netfaceTable.length) (i : Nat) :
    (ndnLiteStartup P netifs t).netfaceTable[i]? =
      t.netfaceTable[i]?.map fun entry => fillAt P netifs i { entry with faceId := none } := by
  rw [(ndnLiteStartup_eq P netifs t).1, (startupLoop_spec hP hroom).1, List.getElem?_mapIdx,
    List.getElem?_map, Option.map_map]
  rfl

/-- **Construction.** Every receive event posted is for a netface that bears the
pid of its interface and waits for the first fragment of a train. -/
theorem ndnLiteStartup_events {P : Platform} (hP : P.Documented) {netifs : List NetifInfo}
    {t : Thread} (hroom : netifs.length ≤ t.netfaceTable.length) (hfresh : t.events = []) :
    ∀ self ∈ (ndnLiteStartup P netifs t).events, ∃ i netif face, self = .netface i ∧
      netifs[i]? = some netif ∧ (ndnLiteStartup P netifs t).netfaceTable[i]? = some face ∧
      face.pid = netif.pid ∧ face.Holds .idle := by
  intro self hself
  rw [(ndnLiteStartup_eq P netifs t).2.1, hfresh, List.nil_append,
    (startupLoop_spec hP hroom).2] at hself
  obtain ⟨i, netif, rfl, hnetif, hanswer⟩ := mem_answering.mp hself
  have hi : i < t.netfaceTable.length :=
    Nat.lt_of_lt_of_le (List.getElem?_eq_some_iff.mp hnetif).1 hroom
  refine ⟨i, netif, netif.fill P { t.netfaceTable[i] with faceId := none },
    by rw [Nat.zero_add], hnetif, ?_, fill_holds hP _ hanswer⟩
  rw [ndnLiteStartup_entry hP hroom, List.getElem?_eq_getElem hi, Option.map_some, fillAt, hnetif]

end NdnRiot
