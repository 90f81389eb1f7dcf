import LaptopCooler.System.AgentRun

/-! # Recovery from an agent restart

A restarted agent counts on from a new sequence number that may be ahead of the
last accepted one, behind it or equal to it. The firmware refuses its packets
for at most five seconds, and from the first accepted one on it accepts them all
(`LaptopCooler.System.recovers_from_restart`). The fan keeps running meanwhile,
since a refused packet is never more than five seconds later than the last
accepted one (`LaptopCooler.System.Driven.deliver`).
-/

namespace LaptopCooler.System

open Firmware EventRun

/-! ## The fan keeps running -/

/-- **A delivery keeps the fan driven.** An accepted packet drives it itself; a refused one
arrives while the remembered command still orders packets. -/
theorem Driven.deliver {token : String} {state : HostState} {millis : ℕ} {delivery : Delivery}
    (driven : Driven 5000 state millis)
    (carries : Carries token delivery.bytes delivery.command) :
    Driven 5000 (deliver token state delivery).2 delivery.millis := by
  rw [deliver_of_carries state carries]
  by_cases admitted : state.admits delivery.command.sequence delivery.millis = true
  · rw [if_pos admitted]
    exact ⟨_, _, rfl, carries.dutyInRange.1, Nat.le_add_right _ _⟩
  · rw [if_neg admitted]
    obtain ⟨command, updated, rfl, inRange, _⟩ := driven
    rw [HostState.admits_remembering, Bool.or_eq_true, not_or, decide_eq_true_eq,
      Nat.not_lt] at admitted
    exact ⟨command, updated, rfl, inRange, admitted.1⟩

/-- After an acceptance the fan is driven at every later delivery. -/
theorem driven_after_acceptance {token : String} {state : HostState} {before : List Delivery}
    {last : Delivery} (authentic : Authentic token (before ++ [last])) {index : ℕ}
    (accepted : AcceptedAt (outputs (deliver token) state (before ++ [last])) index) :
    Driven 5000 (final (deliver token) state (before ++ [last])) last.millis := by
  induction before using List.reverseRecOn generalizing last with
  | nil =>
      obtain rfl : index = 0 := by
        obtain ⟨command, here⟩ := accepted
        have inside := (List.getElem?_eq_some_iff.mp here).1
        simpa using inside
      obtain ⟨command, updated, remembered, inRange, recent⟩ :=
        driven_of_accepted authentic accepted
      exact ⟨command, updated, remembered, inRange, by omega⟩
  | append_singleton earlier previous ih =>
      have carries := authentic last (List.mem_append_right _ List.mem_cons_self)
      by_cases ended : index = (earlier ++ [previous]).length
      · subst ended
        obtain ⟨command, updated, remembered, inRange, recent⟩ :=
          driven_of_accepted authentic accepted
        exact ⟨command, updated, remembered, inRange, by omega⟩
      · have accepted' :
            AcceptedAt (outputs (deliver token) state (earlier ++ [previous])) index := by
          obtain ⟨command, here⟩ := accepted
          have inside := (List.getElem?_eq_some_iff.mp here).1
          rw [length_outputs, List.length_append, List.length_singleton] at inside
          rw [outputs_append, List.getElem?_append_left (by rw [length_outputs]; omega)] at here
          exact ⟨command, here⟩
        have driven := ih (fun delivery member =>
          authentic delivery (List.mem_append_left _ member)) accepted'
        rw [final_append]
        exact driven.deliver carries

/-! ## Refused until the first acceptance -/

/-- Deliveries that a state does not admit are refused and leave it as it is. -/
theorem run_of_refused {token : String} {state : HostState} {deliveries : List Delivery}
    (authentic : Authentic token deliveries)
    (refused : ∀ delivery ∈ deliveries,
      state.admits delivery.command.sequence delivery.millis = false) :
    final (deliver token) state deliveries = state ∧
      outputs (deliver token) state deliveries =
        List.replicate deliveries.length (.error .outOfOrder) := by
  induction deliveries with
  | nil => exact ⟨rfl, rfl⟩
  | cons delivery rest ih =>
      have carries := authentic delivery List.mem_cons_self
      obtain ⟨unchanged, results⟩ := ih
        (fun other member => authentic other (List.mem_cons_of_mem _ member))
        (fun other member => refused other (List.mem_cons_of_mem _ member))
      rw [final_cons, outputs_cons, deliver_of_carries state carries,
        if_neg (by simp [refused delivery List.mem_cons_self])]
      exact ⟨unchanged, congrArg _ results⟩

/-- A run splits into the deliveries a state refuses first and the rest. -/
theorem exists_first_acceptance (state : HostState) (deliveries : List Delivery) :
    ∃ refused rest, deliveries = refused ++ rest ∧
      (∀ delivery ∈ refused, state.admits delivery.command.sequence delivery.millis = false) ∧
      ∀ next later, rest = next :: later →
        state.admits next.command.sequence next.millis = true := by
  induction deliveries with
  | nil => exact ⟨[], [], rfl, by simp, by simp⟩
  | cons delivery rest ih =>
      by_cases admitted : state.admits delivery.command.sequence delivery.millis = true
      · refine ⟨[], delivery :: rest, rfl, by simp, ?_⟩
        rintro next later same
        obtain ⟨rfl, rfl⟩ := List.cons.inj same
        exact admitted
      · obtain ⟨refused, others, rfl, allRefused, restAdmitted⟩ := ih
        refine ⟨delivery :: refused, others, rfl, ?_, restAdmitted⟩
        intro other member
        rcases List.mem_cons.mp member with rfl | member
        · simpa using admitted
        · exact allRefused other member

/-- **A second run at a state that remembers the first.** Its packets are refused, each within
the sample timeout, until one is accepted, and accepted from then on. -/
theorem refused_then_accepted {token : String} {next : UInt32} {second : List Delivery}
    (run : InOrder token next second) (command : ControlCommand) (updated : ℕ) :
    ∃ refused ≤ second.length,
      (∀ index < refused,
        (outputs (deliver token) (.remembering command updated) second)[index]? =
          some (.error .outOfOrder) ∧
        ∀ delivery, second[index]? = some delivery → delivery.millis ≤ updated + 5000) ∧
      ∀ index, refused ≤ index → index < second.length →
        AcceptedAt (outputs (deliver token) (.remembering command updated) second) index := by
  obtain ⟨refused, rest, split, allRefused, restAdmitted⟩ :=
    exists_first_acceptance (.remembering command updated) second
  have authentic : Authentic token refused := fun delivery member =>
    run.authentic delivery (split ▸ List.mem_append_left rest member)
  obtain ⟨unchanged, results⟩ := run_of_refused authentic allRefused
  have whole : outputs (deliver token) (.remembering command updated) second =
      List.replicate refused.length (.error .outOfOrder) ++
        outputs (deliver token) (.remembering command updated) rest := by
    rw [split, outputs_append, unchanged, results]
  refine ⟨refused.length, by simp [split], ?_, ?_⟩
  · intro index below
    refine ⟨?_, ?_⟩
    · rw [whole, List.getElem?_append_left (by simpa using below)]
      simp [below]
    · intro delivery here
      rw [split, List.getElem?_append_left below] at here
      have kept := allRefused delivery (List.mem_of_getElem? here)
      rw [HostState.admits_remembering, Bool.or_eq_false_iff, decide_eq_false_iff_not,
        Nat.not_lt] at kept
      exact kept.1
  · intro index after inside
    cases rest with
    | nil =>
        rw [split, List.append_nil] at inside
        exact (Nat.not_lt.mpr after inside).elim
    | cons first later =>
        have here : second[refused.length]? = some first := by simp [split]
        refine run.accepted_from ?_ after inside
        rw [acceptedAt_iff run.authentic here, split, List.take_left, unchanged]
        exact restAdmitted first later rfl

/-! ## Two runs -/

/-- Two agent runs, one after the other, among polls: every delivery is at most 55 seconds
after the one before it. -/
structure Restart (token : String) (first second : List Delivery) (events : List TimedEvent) :
    Prop where
  ordered : events.Pairwise fun earlier later => earlier.millis ≤ later.millis
  brings : Brings events (first ++ second)
  firstRun : ∃ start, InOrder token start first
  secondRun : ∃ start, InOrder token start second
  close : ∀ index before after, (first ++ second)[index]? = some before →
    (first ++ second)[index + 1]? = some after → after.millis ≤ before.millis + 55000

theorem Restart.authentic {token : String} {first second : List Delivery}
    {events : List TimedEvent} (restart : Restart token first second events) :
    Authentic token (first ++ second) := by
  obtain ⟨_, firstRun⟩ := restart.firstRun
  obtain ⟨_, secondRun⟩ := restart.secondRun
  intro delivery member
  rcases List.mem_append.mp member with member | member
  · exact firstRun.authentic delivery member
  · exact secondRun.authentic delivery member

/-- A poll between the first acceptance and the last delivery finds the fan running. -/
theorem Restart.running {token : String} {first second : List Delivery}
    {events : List TimedEvent} (restart : Restart token first second events) (state : HostState)
    {index millis : ℕ} (polled : events[index]? = some ⟨millis, .poll⟩)
    (acceptedBefore : ∃ command, .ok command ∈
      resultsOf ((outputs (controlStep token) state events).take index))
    (packetAfter : packetsOf (events.drop index) ≠ []) :
    ∃ percent, (outputs (controlStep token) state events)[index]? = some (.duty percent) ∧
      percent ≠ 0 := by
  obtain ⟨before, last, next, after, split, notAfter, ⟨position, acceptedAt⟩, answer⟩ :=
    poll_between restart.brings restart.ordered polled acceptedBefore packetAfter
  refine ⟨_, answer, ?_⟩
  have authenticBefore : Authentic token (before ++ [last]) := by
    intro delivery member
    apply restart.authentic delivery
    rw [split]
    rcases List.mem_append.mp member with member | member
    · exact List.mem_append_left _ member
    · exact List.mem_append_right _ (List.mem_cons.mpr (Or.inl (List.mem_singleton.mp member)))
  have driven := driven_after_acceptance authenticBefore acceptedAt
  have gap := restart.close before.length last next (by simp [split]) (by simp [split])
  have running := driven.minDuty_le (notAfter.trans gap) (show 5000 + 55000 ≤ 60000 by decide)
  exact Nat.ne_of_gt (Nat.lt_of_lt_of_le (by decide) running)

/-- **Recovery from a restart.** If the firmware accepts some packet of the first run, it
refuses the first packets of the second run as out of order, each within five seconds of the
last accepted one of the first run, and accepts all later ones; no poll from the first
acceptance to the last delivery finds the fan stopped. -/
theorem recovers_from_restart (token : String) (state : HostState) {first second : List Delivery}
    {events : List TimedEvent} (restart : Restart token first second events)
    (accepted : ∃ index < first.length,
      AcceptedAt (resultsOf (outputs (controlStep token) state events)) index) :
    (∃ refused ≤ second.length,
      (∀ index < refused,
        (resultsOf (outputs (controlStep token) state events))[first.length + index]? =
          some (.error .outOfOrder) ∧
        ∀ last lastDelivery delivery, first[last]? = some lastDelivery →
          AcceptedAt (resultsOf (outputs (controlStep token) state events)) last →
          (∀ later, last < later → later < first.length →
            ¬ AcceptedAt (resultsOf (outputs (controlStep token) state events)) later) →
          second[index]? = some delivery → delivery.millis ≤ lastDelivery.millis + 5000) ∧
      ∀ index, refused ≤ index → index < second.length →
        AcceptedAt (resultsOf (outputs (controlStep token) state events))
          (first.length + index)) ∧
    ∀ index millis, events[index]? = some ⟨millis, .poll⟩ →
      (∃ command, .ok command ∈
        resultsOf ((outputs (controlStep token) state events).take index)) →
      packetsOf (events.drop index) ≠ [] →
      ∃ percent, (outputs (controlStep token) state events)[index]? = some (.duty percent) ∧
        percent ≠ 0 := by
  obtain ⟨_, results⟩ := restart.brings.run_eq token state
  obtain ⟨_, firstRun⟩ := restart.firstRun
  obtain ⟨_, secondRun⟩ := restart.secondRun
  refine ⟨?_, ?_⟩
  · rw [results, outputs_append] at accepted ⊢
    have inFirst : ∀ {index}, index < first.length →
        (AcceptedAt (outputs (deliver token) state first ++
          outputs (deliver token) (final (deliver token) state first) second) index ↔
        AcceptedAt (outputs (deliver token) state first) index) := by
      intro index inside
      rw [AcceptedAt, List.getElem?_append_left (by simpa using inside)]
      rfl
    have inSecond : ∀ index, (outputs (deliver token) state first ++
        outputs (deliver token) (final (deliver token) state first) second)[first.length + index]? =
          (outputs (deliver token) (final (deliver token) state first) second)[index]? := by
      intro index
      rw [List.getElem?_append_right (by simp)]
      simp
    obtain ⟨index, inside, acceptedFirst⟩ := accepted
    rw [inFirst inside] at acceptedFirst
    -- The last packet of the first run is accepted and remembered.
    obtain ⟨end_, lastIndex⟩ : ∃ end_, first.length = end_ + 1 := ⟨first.length - 1, by omega⟩
    have acceptedLast := firstRun.accepted_from acceptedFirst
      (show index ≤ end_ by omega) (by omega)
    have here := List.getElem?_eq_getElem (show end_ < first.length by omega)
    have remembered := final_of_acceptedAt firstRun.authentic here acceptedLast
    rw [← lastIndex, List.take_length] at remembered
    obtain ⟨refused, below, early, late⟩ := refused_then_accepted secondRun
      first[end_].command first[end_].millis
    rw [← remembered] at early late
    refine ⟨refused, below, ?_, ?_⟩
    · intro index below
      obtain ⟨outOfOrder, soon⟩ := early index below
      refine ⟨(inSecond index).trans outOfOrder, ?_⟩
      intro last lastDelivery delivery lastHere _ noneLater there
      have lastInside := (List.getElem?_eq_some_iff.mp lastHere).1
      obtain rfl : last = end_ := by
        by_contra different
        exact noneLater end_ (by omega) (by omega) ((inFirst (by omega)).mpr acceptedLast)
      rw [here] at lastHere
      obtain rfl := Option.some.inj lastHere
      exact soon delivery there
    · intro index after inside
      rw [AcceptedAt, inSecond index]
      exact late index after inside
  · intro index millis polled acceptedBefore packetAfter
    exact restart.running state polled acceptedBefore packetAfter

/-- A restart from sequence number 5 to 3, polled before the second run is accepted. -/
def sampleRestart : List TimedEvent :=
  [⟨1000, .packet (heartbeat "abcdefghijklmnop" 5 1000).bytes⟩,
    ⟨3000, .packet (heartbeat "abcdefghijklmnop" 3 3000).bytes⟩, ⟨6000, .poll⟩,
    ⟨7000, .packet (heartbeat "abcdefghijklmnop" 4 7000).bytes⟩]

/-- The poll during the restart finds the fan running. -/
theorem sampleRestart_keeps_running :
    ∃ percent, (outputs (controlStep "abcdefghijklmnop") .new sampleRestart)[2]? =
      some (.duty percent) ∧ percent ≠ 0 := by
  have shaped : HostAgent.WellFormedToken "abcdefghijklmnop" :=
    (HostAgent.parseConfig_admitted HostAgent.parseConfig_minimal).token
  have carries := heartbeat_carries shaped
  have restart : Restart "abcdefghijklmnop" [heartbeat "abcdefghijklmnop" 5 1000]
      [heartbeat "abcdefghijklmnop" 3 3000, heartbeat "abcdefghijklmnop" 4 7000]
      sampleRestart := by
    refine ⟨by decide, rfl, ⟨5, ?_, ?_⟩, ⟨3, ?_, ?_⟩, ?_⟩
    · simpa [Authentic] using carries 5 1000
    · rintro (_ | index) delivery here
      · exact Option.some.inj here ▸ rfl
      · simp at here
    · simpa [Authentic] using ⟨carries 3 3000, carries 4 7000⟩
    · rintro (_ | _ | index) delivery here
      · exact Option.some.inj here ▸ rfl
      · exact Option.some.inj here ▸ rfl
      · simp at here
    · rintro (_ | _ | index) before after here there
      · obtain rfl := Option.some.inj here
        obtain rfl := Option.some.inj there
        decide
      · obtain rfl := Option.some.inj here
        obtain rfl := Option.some.inj there
        decide
      · simp at there
  have accepted : (resultsOf (outputs (controlStep "abcdefghijklmnop") .new sampleRestart))[0]? =
      some (.ok ⟨5, 40000, 35⟩) := by decide
  exact (recovers_from_restart "abcdefghijklmnop" .new restart ⟨0, by decide, _, accepted⟩).2 2 6000
    rfl ⟨⟨5, 40000, 35⟩, List.mem_of_getElem? (i := 0) (by decide)⟩ (by decide)

end LaptopCooler.System
