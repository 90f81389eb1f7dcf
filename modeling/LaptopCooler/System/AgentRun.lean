import LaptopCooler.Firmware.CommandHistory
import LaptopCooler.Firmware.SequenceEpoch
import LaptopCooler.System.Packets

/-! # An agent run at the cooler

An agent run delivers packets with consecutive sequence numbers. Once the firmware
has accepted one of them it accepts all later ones
(`LaptopCooler.System.InOrder.accepted_from`). Between deliveries the firmware is
polled for the duty; a poll sees the state that the deliveries before it have left
(`LaptopCooler.System.poll_between`), and the fan keeps running as long as the
remembered command does not grow older than the cooldown
(`LaptopCooler.System.Driven.minDuty_le`).
-/

namespace LaptopCooler.System

open Firmware EventRun

/-! ## Deliveries in order -/

/-- Authentic deliveries, numbered consecutively from a first sequence number. -/
structure InOrder (token : String) (first : UInt32) (deliveries : List Delivery) : Prop where
  authentic : Authentic token deliveries
  numbered : ∀ index delivery, deliveries[index]? = some delivery →
    delivery.command.sequence = sequenceAfter first index

/-- **Nothing is refused after an acceptance.** -/
theorem InOrder.accepted_from {token : String} {first : UInt32} {deliveries : List Delivery}
    (run : InOrder token first deliveries) {state : HostState} {index : ℕ}
    (accepted : AcceptedAt (outputs (deliver token) state deliveries) index) {later : ℕ}
    (after : index ≤ later) (inside : later < deliveries.length) :
    AcceptedAt (outputs (deliver token) state deliveries) later := by
  induction later, after using Nat.le_induction with
  | base => exact accepted
  | succ later _ ih =>
      have here := List.getElem?_eq_getElem (Nat.lt_of_succ_lt inside)
      have there := List.getElem?_eq_getElem inside
      have remembered := final_of_acceptedAt run.authentic here (ih (Nat.lt_of_succ_lt inside))
      rw [acceptedAt_iff run.authentic there, remembered, HostState.admits_remembering,
        run.numbered _ _ here, run.numbered _ _ there, sequenceAfter_succ, sequenceIsNewer_succ,
        Bool.or_true]

/-- A heartbeat of 40 degrees and 35 percent as the agent formats it. -/
def heartbeat (token : String) (sequence : UInt32) (millis : ℕ) : Delivery :=
  ⟨millis, Text.bytes (HostAgent.formatPacket token sequence 40000 35), ⟨sequence, 40000, 35⟩⟩

theorem heartbeat_carries {token : String} (shaped : HostAgent.WellFormedToken token)
    (sequence : UInt32) (millis : ℕ) :
    Carries token (heartbeat token sequence millis).bytes
      (heartbeat token sequence millis).command :=
  (carries_formatPacket_iff shaped (by decide) (by decide) _).mpr ⟨rfl, by decide, by decide⟩

/-! ## Deliveries among polls -/

/-- The packets of a list of events, with their times. -/
def packetsOf (events : List TimedEvent) : List (ℕ × List UInt8) :=
  events.filterMap fun timed =>
    match timed.event with
    | .packet bytes => some (timed.millis, bytes)
    | .poll => none

/-- The results of the packets among a list of answers. -/
def resultsOf (answers : List ControlAnswer) : List (Except SampleError ControlCommand) :=
  answers.filterMap fun answer =>
    match answer with
    | .result result => some result
    | .duty _ => none

/-- The packets of the events are the deliveries. -/
def Brings (events : List TimedEvent) (deliveries : List Delivery) : Prop :=
  packetsOf events = deliveries.map fun delivery => (delivery.millis, delivery.bytes)

/-- Polls change neither the state nor the results of the packets. -/
theorem Brings.run_eq {events : List TimedEvent} {deliveries : List Delivery}
    (brings : Brings events deliveries) (token : String) (state : HostState) :
    final (controlStep token) state events = final (deliver token) state deliveries ∧
      resultsOf (outputs (controlStep token) state events) =
        outputs (deliver token) state deliveries := by
  induction events generalizing state deliveries with
  | nil =>
      obtain rfl : deliveries = [] := List.map_eq_nil_iff.mp brings.symm
      exact ⟨rfl, rfl⟩
  | cons timed rest ih =>
      rcases timed with ⟨millis, bytes | _⟩
      · cases deliveries with
        | nil => cases brings
        | cons delivery later =>
            obtain ⟨same, remaining⟩ := List.cons.inj brings
            obtain ⟨rfl, rfl⟩ := Prod.mk.inj same
            obtain ⟨states, results⟩ := ih (show Brings rest later from remaining)
              (deliver token state delivery).2
            exact ⟨states, congrArg _ results⟩
      · exact ih brings state

theorem brings_append_iff {before after : List TimedEvent} {deliveries : List Delivery} :
    Brings (before ++ after) deliveries ↔ ∃ earlier later, deliveries = earlier ++ later ∧
      Brings before earlier ∧ Brings after later := by
  rw [Brings, packetsOf, List.filterMap_append, eq_comm, List.map_eq_append_iff]
  simp only [Brings, packetsOf, eq_comm]

/-- Every packet among the events arrives at its event's time. -/
private theorem mem_packetsOf {events : List TimedEvent} {packet : ℕ × List UInt8}
    (member : packet ∈ packetsOf events) : ⟨packet.1, .packet packet.2⟩ ∈ events := by
  obtain ⟨⟨millis, bytes | _⟩, present, same⟩ := List.mem_filterMap.mp member
  · obtain rfl := Option.some.inj same
    exact present
  · cases same

/-- **A poll between two deliveries.** A poll after an acceptance and before a delivery
comes between two neighbouring deliveries, no later than the second of them, and sees the
state after the first of them. -/
theorem poll_between {token : String} {state : HostState} {events : List TimedEvent}
    {deliveries : List Delivery} (brings : Brings events deliveries)
    (ordered : events.Pairwise fun first second => first.millis ≤ second.millis)
    {index millis : ℕ} (polled : events[index]? = some ⟨millis, .poll⟩)
    (acceptedBefore : ∃ command, .ok command ∈
      resultsOf ((outputs (controlStep token) state events).take index))
    (packetAfter : packetsOf (events.drop index) ≠ []) :
    ∃ before last next after, deliveries = before ++ last :: next :: after ∧
      millis ≤ next.millis ∧
      (∃ accepted, AcceptedAt (outputs (deliver token) state (before ++ [last])) accepted) ∧
      (outputs (controlStep token) state events)[index]? =
        some (.duty ((final (deliver token) state (before ++ [last])).dutyPercent millis)) := by
  rw [← List.take_append_drop index events] at brings
  obtain ⟨earlier, later, rfl, bringsEarlier, bringsLater⟩ := brings_append_iff.mp brings
  obtain ⟨seen, results⟩ := bringsEarlier.run_eq token state
  obtain ⟨command, accepted⟩ := acceptedBefore
  rw [outputs_take, results] at accepted
  obtain ⟨position, below, present⟩ := List.mem_iff_getElem.mp accepted
  have acceptedAt : AcceptedAt (outputs (deliver token) state earlier) position :=
    ⟨command, List.getElem?_eq_some_iff.mpr ⟨below, present⟩⟩
  rcases List.eq_nil_or_concat earlier with rfl | ⟨before, last, rfl⟩
  · simp at accepted
  cases later with
  | nil => exact (packetAfter bringsLater).elim
  | cons next after =>
      rw [List.concat_eq_append] at *
      refine ⟨before, last, next, after, by simp, ?_, ⟨position, acceptedAt⟩, ?_⟩
      · have arrives : (⟨next.millis, .packet next.bytes⟩ : TimedEvent) ∈ events.drop index := by
          have present : (next.millis, next.bytes) ∈ packetsOf (events.drop index) := by
            rw [bringsLater]
            exact List.mem_cons_self
          exact mem_packetsOf present
        obtain ⟨inside, here⟩ := List.getElem?_eq_some_iff.mp polled
        rw [List.drop_eq_getElem_cons inside, here] at arrives
        have orderedAfter := ordered.sublist (List.drop_sublist index events)
        rw [List.drop_eq_getElem_cons inside, here, List.pairwise_cons] at orderedAfter
        rcases List.mem_cons.mp arrives with same | member
        · cases same
        · exact orderedAfter.1 _ member
      · rw [outputs_getElem?, polled, seen]
        rfl

/-! ## A running fan -/

/-- The remembered command is in range and was accepted at most the given time ago. -/
def Driven (age : ℕ) (state : HostState) (millis : ℕ) : Prop :=
  ∃ command updated, state = .remembering command updated ∧
    minDutyPercent ≤ command.requestedDutyPercent ∧ millis ≤ updated + age

/-- Within the cooldown the fan runs. -/
theorem Driven.minDuty_le {age millis : ℕ} {state : HostState} (driven : Driven age state millis)
    {gap polled : ℕ} (soon : polled ≤ millis + gap) (within : age + gap ≤ offlineCooldownMillis) :
    minDutyPercent ≤ state.dutyPercent polled := by
  obtain ⟨command, updated, rfl, inRange, recent⟩ := driven
  have running : ¬ updated + offlineCooldownMillis < polled := by omega
  rw [HostState.dutyPercent_remembering, if_neg running]
  split
  · decide
  · exact inRange

/-- An accepted last delivery drives the fan. -/
theorem driven_of_accepted {token : String} {state : HostState} {before : List Delivery}
    {last : Delivery} (authentic : Authentic token (before ++ [last]))
    (accepted : AcceptedAt (outputs (deliver token) state (before ++ [last])) before.length) :
    Driven 0 (final (deliver token) state (before ++ [last])) last.millis := by
  have here : (before ++ [last])[before.length]? = some last := by simp
  have remembered := final_of_acceptedAt authentic here accepted
  rw [List.take_of_length_le (by simp)] at remembered
  exact ⟨last.command, last.millis, remembered,
    (authentic last (List.mem_append_right before List.mem_cons_self)).dutyInRange.1, le_rfl⟩

end LaptopCooler.System
