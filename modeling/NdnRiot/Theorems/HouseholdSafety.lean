import NdnRiot.Logic.Nightlight
import NdnRiot.Logic.Sensors
import NdnRiot.Model.Household

/-!
# What a household can do

Sensors publish four bytes each, and no value above 85, a third of a byte. So a hub
never reads beyond a content. Its commands carry the value of the motion, which is then
never 111, or the id of the command alone, which is shorter than what a light reads.
So whatever is lost or delivered twice, no content that a light is given makes it leave the
state it started in: it does so only where it reads beyond the id 111 and finds three zero
bytes there (`household_safe`).
-/

namespace NdnRiot

section Events

variable {ν : Type*} (events : List (HouseholdEvent ν))

/-- The light `n` read beyond the command 111, and found zeros. -/
def ReadZeros (n : ν) : Prop :=
  ∃ run rest, run.behind = 0 :: 0 :: 0 :: rest ∧
    .receive n run (.command (publishId 111)) ∈ events

/-- The light `n` read beyond the id of a command, and beyond the memory. -/
def ReadPastMemory (n : ν) : Prop :=
  ∃ run id, run.behind.length < 3 ∧ .receive n run (.command (publishId id)) ∈ events

/-- The state of a light that read 111. -/
def LightState.off : LightState := ⟨112, 201⟩

/-- What is published in a household. -/
def Publication.Expected : Publication → Prop
  | .sensor c => ∃ value, c.content = uint32Bytes value ∧
      (c.service ≠ .battery → value.toNat ≤ 85)
  | .command c => (∃ id, c = publishId id) ∨
      ∃ value, c = ⟨111, uint32Bytes value⟩ ∧ value.toNat ≤ 85
  | .light c => c ∈ serviceDataPublishing .initial ∨
      (∃ n, ReadZeros events n) ∧ c ∈ serviceDataPublishing .off

/-- The state of the light `n`, which leaves the initial one only by reading beyond a
command. -/
def LightWorks (n : ν) (state : Except Fault LightState) : Prop :=
  state = .ok .initial ∨ (ReadZeros events n ∧ state = .ok .off) ∨
    ReadPastMemory events n ∧ ∃ fault, state = .error fault

/-- What the appliance `n` is like in a household. -/
def Appliance.Works (n : ν) : Appliance → Prop
  | motionSensor _ | illuminanceSensor _ => True
  | hub _ state => ∃ s, state = .ok s ∧ (s.lastStatus = 0 ∨ s.lastStatus = 1)
  | light subscribed state => LightWorks events n state ∧ (subscribed = true ∨ state = .ok .initial)

end Events

section Household

variable {ν : Type*} {events : List (HouseholdEvent ν)}

theorem Appliance.Initial.works {appliance : Appliance} (h : appliance.Initial) (n : ν) :
    appliance.Works events n := by
  cases appliance with
  | motionSensor _ | illuminanceSensor _ => trivial
  | hub delayMinutes state => exact ⟨_, h, .inr rfl⟩
  | light subscribed state => exact ⟨.inl h, .inr h⟩

/-- What a sensor publishes is expected. -/
theorem SensorProgram.Filters.expected {σ : Type} {program : SensorProgram σ}
    (hprogram : program.Filters) {sensor : Sensor σ} {call : SensorCall} :
    ∀ m ∈ (program.published sensor call).map Publication.sensor, m.Expected events := by
  intro m hm
  obtain ⟨c, hc, rfl⟩ := List.mem_map.mp hm
  rw [SensorProgram.published, hprogram.published, List.mem_append] at hc
  rcases hc with hc | hc <;> split_ifs at hc
  · rw [List.mem_singleton.mp hc]
    exact ⟨_, rfl, fun hservice => absurd rfl hservice⟩
  · cases hc
  · rw [List.mem_singleton.mp hc]
    exact ⟨_, rfl, fun _ => diceValue_le call.dice⟩
  · cases hc

/-- What a hub makes of a reading. -/
theorem HubState.Outcome.expected {delayMinutes : UInt32} {state : HubState} {e : HubEvent}
    {status : UInt8} {commands : List LedCommand}
    (hout : state.Outcome delayMinutes e status commands)
    (hstatus : state.lastStatus = 0 ∨ state.lastStatus = 1)
    (hsmall : ∀ value, e.reading = .motion value → value.toNat ≤ 85) :
    (status = 0 ∨ status = 1) ∧ ∀ m ∈ commands.map Publication.command, m.Expected events := by
  cases hout with
  | off _ =>
      refine ⟨.inl rfl, fun m hm => ?_⟩
      rw [List.mem_singleton.mp hm]
      exact .inl ⟨112, rfl⟩
  | on _ =>
      refine ⟨.inr rfl, fun m hm => ?_⟩
      rw [List.mem_singleton.mp hm]
      cases hreading : e.reading with
      | motion value => exact .inr ⟨value, rfl, hsmall value hreading⟩
      | illuminance value => exact .inl ⟨111, rfl⟩
  | none _ _ => exact ⟨hstatus, by simp⟩

/-- A hub handles what a sensor published. -/
theorem hub_handles {delayMinutes : UInt32} {s : HubState} {e : HubEvent}
    (hstatus : s.lastStatus = 0 ∨ s.lastStatus = 1)
    (hsmall : ∀ value, e.reading = .motion value → value.toNat ≤ 85) (htime : e.now ≤ e.later)
    (n : ν) :
    ∀ appliance out, runHandler (.hub delayMinutes) .command (.ok s)
        (fun s => s.handle delayMinutes e) = (appliance, out) →
      (∀ m ∈ out, m.Expected events) ∧ appliance.Works events n := by
  intro appliance out h
  simp only [runHandler] at h
  obtain ⟨status, commands, hrun, hout⟩ := s.handle_spec delayMinutes htime
  obtain ⟨hnew, hexpected⟩ := hout.expected hstatus hsmall
  rw [hrun] at h
  cases h
  exact ⟨hexpected, _, rfl, hnew⟩

/-! ## The light -/

/-- The value that is read of a command that is an id alone. -/
theorem readUint32_publishId (id : UInt8) (behind : List UInt8) :
    (behind.length < 3 ∧ ∃ fault, readUint32 ((publishId id).content ++ behind) = .error fault) ∨
    ∃ b₁ b₂ b₃ rest value, behind = b₁ :: b₂ :: b₃ :: rest ∧
      readUint32 ((publishId id).content ++ behind) = .ok value ∧
      (value = 111 ↔ id = 111 ∧ b₁ = 0 ∧ b₂ = 0 ∧ b₃ = 0) := by
  match behind with
  | [] => exact .inl ⟨by decide, _, rfl⟩
  | [_] => exact .inl ⟨by simp, _, rfl⟩
  | [_, _] => exact .inl ⟨by simp, _, rfl⟩
  | b₁ :: b₂ :: b₃ :: rest =>
      refine .inr ⟨b₁, b₂, b₃, rest, _, rfl, rfl, ?_⟩
      have h₀ := id.toNat_lt
      have h₁ := b₁.toNat_lt
      have h₂ := b₂.toNat_lt
      have h₃ := b₃.toNat_lt
      simp only [← UInt32.toNat_inj, ← UInt8.toNat_inj, UInt32.toNat_ofNat']
      rw [show (111 : UInt32).toNat = 111 from rfl, show (111 : UInt8).toNat = 111 from rfl,
        show (0 : UInt8).toNat = 0 from rfl]
      omega

/-- What `on_switich_command` makes of a value. -/
theorem onSwitichCommand_of_read {content : List UInt8} {value : UInt32}
    (hread : readUint32 content = .ok value) (state : LightState) :
    onSwitichCommand content state =
      .ok ({ state with lastSwitch := if value = 111 then 112 else 111 },
        serviceDataPublishing { state with lastSwitch := if value = 111 then 112 else 111 }) := by
  unfold onSwitichCommand
  rw [hread]
  rfl

/-- What a light publishes in a state it can have is expected. -/
theorem light_expected {n : ν} {s : LightState} (h : LightWorks events n (.ok s)) :
    ∀ m ∈ (serviceDataPublishing s).map Publication.light, m.Expected events := by
  intro m hm
  obtain ⟨c, hc, rfl⟩ := List.mem_map.mp hm
  rcases h with h | ⟨hzeros, h⟩ | ⟨_, fault, h⟩
  · obtain rfl := Except.ok.inj h
    exact .inl hc
  · obtain rfl := Except.ok.inj h
    exact .inr ⟨⟨n, hzeros⟩, hc⟩
  · cases h

/-- The color of a light is never changed. -/
theorem LightWorks.lastColor {n : ν} {s : LightState} (h : LightWorks events n (.ok s)) :
    s.lastColor = 201 := by
  rcases h with h | ⟨_, h⟩ | ⟨_, fault, h⟩
  · rw [Except.ok.inj h]
    rfl
  · rw [Except.ok.inj h]
    rfl
  · cases h

/-- A light that gets an expected command goes on as one in a household. -/
theorem light_handles {c : LedCommand} (hexpected : (Publication.command c).Expected events)
    {n : ν} {run : HandlerRun} (hevent : .receive n run (.command c) ∈ events)
    {s : LightState} (h : LightWorks events n (.ok s)) :
    (∃ s', onSwitichCommand (c.content ++ run.behind) s = .ok (s', serviceDataPublishing s') ∧
      LightWorks events n (.ok s')) ∨
    ∃ fault, onSwitichCommand (c.content ++ run.behind) s = .error fault ∧
      LightWorks events n (.error fault) := by
  have hcolor := h.lastColor
  have hinitial : ({ s with lastSwitch := 111 } : LightState) = .initial := by
    rw [hcolor]
    rfl
  have hoff : ({ s with lastSwitch := 112 } : LightState) = .off := by
    rw [hcolor]
    rfl
  rcases hexpected with ⟨id, rfl⟩ | ⟨value, rfl, hsmall⟩
  · rcases readUint32_publishId id run.behind with
      ⟨hshort, fault, hread⟩ | ⟨b₁, b₂, b₃, rest, value, hbehind, hread, hvalue⟩
    · refine .inr ⟨fault, ?_, .inr (.inr ⟨⟨run, id, hshort, hevent⟩, fault, rfl⟩)⟩
      unfold onSwitichCommand
      rw [hread]
      rfl
    · refine .inl ⟨_, onSwitichCommand_of_read hread s, ?_⟩
      split_ifs with heq
      · obtain ⟨rfl, rfl, rfl, rfl⟩ := hvalue.mp heq
        rw [hoff]
        exact .inr (.inl ⟨⟨run, rest, hbehind, hevent⟩, rfl⟩)
      · rw [hinitial]
        exact .inl rfl
  · have hread : readUint32 (uint32Bytes value ++ run.behind) = .ok value :=
      readUint32_uint32Bytes value
    have hne : value ≠ 111 := by
      rintro rfl
      exact absurd hsmall (by decide)
    refine .inl ⟨_, onSwitichCommand_of_read hread s, ?_⟩
    rw [if_neg hne, hinitial]
    exact .inl rfl

/-- After any light ran a handler it is one as in a household. -/
theorem light_runs {n : ν} {state : Except Fault LightState} (h : LightWorks events n state)
    {handler : LightState → Except Fault (LightState × List LightContent)}
    (hhandler : ∀ s, LightWorks events n (.ok s) →
      (∃ s', handler s = .ok (s', serviceDataPublishing s') ∧ LightWorks events n (.ok s')) ∨
      ∃ fault, handler s = .error fault ∧ LightWorks events n (.error fault))
    {subscribed : Bool} {appliance : Appliance} {out : List Publication}
    (hrun : runHandler (.light subscribed) .light state handler = (appliance, out)) :
    (∀ m ∈ out, m.Expected events) ∧
      ∃ state', appliance = .light subscribed state' ∧ LightWorks events n state' := by
  cases state with
  | error fault =>
      obtain ⟨rfl, rfl⟩ := Prod.mk.inj hrun
      exact ⟨by simp, _, rfl, h⟩
  | ok s =>
      simp only [runHandler] at hrun
      rcases hhandler s h with ⟨s', hok, hworks⟩ | ⟨fault, herror, hworks⟩
      · rw [hok] at hrun
        obtain ⟨rfl, rfl⟩ := Prod.mk.inj hrun
        exact ⟨light_expected hworks, _, rfl, hworks⟩
      · rw [herror] at hrun
        obtain ⟨rfl, rfl⟩ := Prod.mk.inj hrun
        exact ⟨by simp, _, rfl, hworks⟩

/-- The programs keep to that. -/
theorem householdProgram_keeps (events : List (HouseholdEvent ν)) :
    (householdProgram ν).Keeps (· ∈ events) (Publication.Expected events)
      (fun n _ appliance => appliance.Works events n) where
  grow _ _ _ _ h := h
  act n call air appliance next out _ _ h hact := by
    cases appliance with
    | motionSensor sensor =>
        simp only [householdProgram, Appliance.loop] at hact
        obtain ⟨sensor', _, heq⟩ := Option.map_eq_some_iff.mp hact
        obtain ⟨rfl, rfl⟩ := Prod.mk.inj heq
        exact ⟨motion_filters.expected, trivial⟩
    | illuminanceSensor sensor =>
        simp only [householdProgram, Appliance.loop] at hact
        obtain ⟨sensor', _, heq⟩ := Option.map_eq_some_iff.mp hact
        obtain ⟨rfl, rfl⟩ := Prod.mk.inj heq
        exact ⟨illuminance_filters.expected, trivial⟩
    | hub delayMinutes state => cases hact
    | light subscribed state =>
        cases state with
        | ok s =>
            obtain ⟨rfl, rfl⟩ := Prod.mk.inj (Option.some.inj hact)
            exact ⟨light_expected h.1, h⟩
        | error fault =>
            obtain ⟨rfl, rfl⟩ := Prod.mk.inj (Option.some.inj hact)
            exact ⟨by simp, h⟩
  receive n run m air appliance next out hevent hgood h hair hrecv := by
    have hexpected := hgood m hair
    cases appliance with
    | motionSensor sensor => cases hrecv
    | illuminanceSensor sensor => cases hrecv
    | hub delayMinutes state =>
        obtain ⟨s, rfl, hstatus⟩ := h
        cases m with
        | sensor c =>
            obtain ⟨value, hcontent, hsmall⟩ := hexpected
            simp only [householdProgram, Appliance.receive] at hrecv
            split at hrecv
            next htime =>
              cases hservice : c.service with
              | motion =>
                  rw [hservice, hcontent] at hrecv
                  refine hub_handles (e := ⟨.motion value, run.now, run.later⟩) hstatus ?_ htime
                    n next out (Option.some.inj hrecv)
                  rintro v hv
                  cases hv
                  exact hsmall (by simp [hservice])
              | illuminance =>
                  rw [hservice, hcontent] at hrecv
                  refine hub_handles (e := ⟨.illuminance value, run.now, run.later⟩) hstatus
                    (fun v hv => ?_) htime n next out (Option.some.inj hrecv)
                  cases hv
              | battery =>
                  rw [hservice] at hrecv
                  cases hrecv
            next => cases hrecv
        | command c => cases hrecv
        | light c => cases hrecv
    | light subscribed state =>
        cases m with
        | command c =>
            simp only [householdProgram, Appliance.receive] at hrecv
            split at hrecv
            next hsubscribed =>
              obtain ⟨hout, state', rfl, hworks⟩ := light_runs h.1
                (fun s hs => light_handles hexpected hevent hs) (Option.some.inj hrecv)
              exact ⟨hout, hworks, .inl hsubscribed⟩
            next => cases hrecv
        | sensor c => cases hrecv
        | light c => cases hrecv

end Household

/-- **A household.** In every run of any number of sensors, hubs and lights, a hub reads
within the contents and has a status of 0 or 1. A light is in its initial state, always if
it is not subscribed to commands; or it read beyond the command 111 and found three zero
bytes, and is off; or it read beyond a command and the memory. What a light publishes says
that it is in its initial state, or that such a light is off. -/
theorem household_safe {ν : Type*} [DecidableEq ν] {net net' : Household ν}
    {events : List (HouseholdEvent ν)} (hinitial : ∀ n, (net.nodes n).Initial)
    (hquiet : net.air = []) (hrun : (householdProgram ν).run net events = some net') :
    (∀ n delayMinutes state, net'.nodes n = .hub delayMinutes state →
      ∃ s, state = .ok s ∧ (s.lastStatus = 0 ∨ s.lastStatus = 1)) ∧
    (∀ n subscribed state, net'.nodes n = .light subscribed state →
      (state = .ok .initial ∨ (ReadZeros events n ∧ state = .ok .off) ∨
        ReadPastMemory events n ∧ ∃ fault, state = .error fault) ∧
      (subscribed = true ∨ state = .ok .initial)) ∧
    ∀ c, .light c ∈ net'.air → c ∈ serviceDataPublishing .initial ∨
      (∃ n, ReadZeros events n) ∧ c ∈ serviceDataPublishing .off := by
  have hstart : Medium.Program.Invariant (Publication.Expected events)
      (fun n _ appliance => Appliance.Works events n appliance) net :=
    ⟨by simp [hquiet], fun n => (hinitial n).works n⟩
  obtain ⟨hexpected, hworks⟩ :=
    (householdProgram_keeps events).run hstart (fun _ he => he) hrun
  refine ⟨?_, ?_, fun c hc => hexpected _ hc⟩
  · intro n delayMinutes state hnode
    have h := hworks n
    rw [hnode] at h
    exact h
  · intro n subscribed state hnode
    have h := hworks n
    rw [hnode] at h
    exact h

/-- An illuminance sensor, a hub and two lights, one of which gets commands. -/
inductive Room
  | sensor
  | hub
  | lamp
  | spot
  deriving DecidableEq

/-- The devices of the room. -/
def smallHousehold : Household Room where
  nodes
    | .sensor => .illuminanceSensor (illuminanceSensor.start 0)
    | .hub => .hub 0 (.ok .initial)
    | .lamp => .light true (.ok .initial)
    | .spot => .light false (.ok .initial)
  air := []

/-- The sensor sees an illuminance of 60 and then of 20, so the hub publishes 112 and then
111. The first light finds three zeros behind either command: it takes the first one for
another value than 111, and the second one for 111. -/
def duskEvents : List (HouseholdEvent Room) :=
  [.act .sensor ⟨5, 180⟩,
    .receive .hub ⟨6, 6, []⟩ (.sensor (psPublishContent .illuminance 60)),
    .receive .lamp ⟨7, 7, [0, 0, 0]⟩ (.command (publishId 112)),
    .act .sensor ⟨10, 60⟩,
    .receive .hub ⟨11, 11, []⟩ (.sensor (psPublishContent .illuminance 20)),
    .receive .lamp ⟨12, 12, [0, 0, 0, 5]⟩ (.command (publishId 111)),
    .act .spot ⟨13, 0⟩]

/-- The light that was to be switched on is off. -/
theorem household_safe_dusk :
    ∃ net', (householdProgram Room).run smallHousehold duskEvents = some net' ∧
      net'.nodes .lamp = .light true (.ok .off) ∧
      ((∀ n delayMinutes state, net'.nodes n = .hub delayMinutes state →
        ∃ s, state = .ok s ∧ (s.lastStatus = 0 ∨ s.lastStatus = 1)) ∧
      (∀ n subscribed state, net'.nodes n = .light subscribed state →
        (state = .ok .initial ∨ (ReadZeros duskEvents n ∧ state = .ok .off) ∨
          ReadPastMemory duskEvents n ∧ ∃ fault, state = .error fault) ∧
        (subscribed = true ∨ state = .ok .initial)) ∧
      ∀ c, .light c ∈ net'.air → c ∈ serviceDataPublishing .initial ∨
        (∃ n, ReadZeros duskEvents n) ∧ c ∈ serviceDataPublishing .off) := by
  have hinitial : ∀ n, (smallHousehold.nodes n).Initial
    | .sensor => ⟨0, rfl⟩
    | .hub => rfl
    | .lamp => rfl
    | .spot => rfl
  have hrun : (householdProgram Room).run smallHousehold duskEvents = some _ := rfl
  exact ⟨_, hrun, rfl, household_safe hinitial rfl hrun⟩

end NdnRiot
