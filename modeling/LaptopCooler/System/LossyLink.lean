import LaptopCooler.Firmware.CommandHistory
import LaptopCooler.HostAgent.AgentLoop
import LaptopCooler.System.Packets

/-! # The cooler behind a lossy link

What the agent's loop sends arrives in order, but any packets can be lost and
forged ones can be added. Behind such a link the ordering rule is invisible: a
firmware that has just started answers as if it only kept the newest command
(`LaptopCooler.System.answers_latest_command`).
-/

namespace LaptopCooler.System

open Firmware HostAgent Fallible EventRun

/-! ## Keeping the newest command -/

/-- The duty that the newest command asks for. -/
def latestDuty (held : Option Acceptance) (nowMillis : ℕ) : ℕ :=
  match held with
  | none => offlineFanDutyPercent
  | some acceptance =>
      if acceptance.millis + offlineCooldownMillis < nowMillis then offlineFanDutyPercent
      else if hardEmergencyTemperatureMilliC ≤ acceptance.command.temperatureMilliC then
        Firmware.maxDutyPercent
      else acceptance.command.requestedDutyPercent

/-- A cooler without an ordering rule: it takes every command that it can read. -/
def latestStep (token : String) (held : Option Acceptance) (timed : TimedEvent) :
    ControlAnswer × Option Acceptance :=
  match timed.event with
  | .packet bytes =>
      match parseCommand token bytes with
      | .ok command => (.result (.ok command), some ⟨command, timed.millis⟩)
      | .error error => (.result (.error error), held)
  | .poll => (.duty (latestDuty held timed.millis), held)

theorem dutyPercent_ofAcceptance (held : Option Acceptance) (nowMillis : ℕ) :
    (HostState.ofAcceptance held).dutyPercent nowMillis = latestDuty held nowMillis := by
  cases held with
  | none => rfl
  | some acceptance => exact HostState.dutyPercent_remembering _ _ _

/-! ## The link -/

/-- What can arrive of the packets sent, among polls and forged packets. -/
inductive Arrives (token : String) : List String → List TimedEvent → Prop where
  | nothing (sent : List String) : Arrives token sent []
  | lost {sent : List String} {events : List TimedEvent} (packet : String)
      (rest : Arrives token sent events) : Arrives token (packet :: sent) events
  | delivered {sent : List String} {events : List TimedEvent} (packet : String) (millis : ℕ)
      (rest : Arrives token sent events) :
      Arrives token (packet :: sent) (⟨millis, .packet (Text.bytes packet)⟩ :: events)
  | forged {sent : List String} {events : List TimedEvent} {timed : TimedEvent}
      (forgery : Forged token timed) (rest : Arrives token sent events) :
      Arrives token sent (timed :: events)
  | polled {sent : List String} {events : List TimedEvent} (millis : ℕ)
      (rest : Arrives token sent events) : Arrives token sent (⟨millis, .poll⟩ :: events)

/-- Packets with the token, numbered consecutively from the given count on. -/
structure Consecutive (token : String) (first : UInt32) (count : ℕ) (sent : List String) :
    Prop where
  formatted : ∀ index packet, sent[index]? = some packet → ∃ temperatureMilliC duty,
    packet = formatPacket token (sequenceAfter first (count + index)) temperatureMilliC duty ∧
      (-2147483648 ≤ temperatureMilliC ∧ temperatureMilliC ≤ 2147483647) ∧ duty ≤ 255
  few : count + sent.length ≤ 2 ^ 31

variable {token : String} {first : UInt32} {count : ℕ} {sent : List String} {packet : String}

theorem Consecutive.tail (numbered : Consecutive token first count (packet :: sent)) :
    Consecutive token first (count + 1) sent := by
  obtain ⟨formatted, few⟩ := numbered
  constructor
  · intro index later there
    rw [Nat.add_assoc, Nat.add_comm 1]
    exact formatted (index + 1) later there
  · rw [List.length_cons] at few
    omega

/-- Only the next number can be read from the next packet. -/
theorem Consecutive.sequence_eq (shaped : WellFormedToken token)
    (numbered : Consecutive token first count (packet :: sent)) {command : ControlCommand}
    (read : parseCommand token (Text.bytes packet) = .ok command) :
    command.sequence = sequenceAfter first count := by
  obtain ⟨temperatureMilliC, duty, rfl, temperatureFits, dutyFits⟩ := numbered.formatted 0 _ rfl
  have carries := (parseCommand_eq_ok_iff _ _ _).mp read
  obtain ⟨rfl, _⟩ := (carries_formatPacket_iff shaped temperatureFits dutyFits command).mp carries
  rfl

/-- The held command has an earlier number than the packets to come. -/
def Held (first : UInt32) (count : ℕ) (held : Option Acceptance) : Prop :=
  ∀ acceptance, held = some acceptance →
    ∃ earlier < count, acceptance.command.sequence = sequenceAfter first earlier

theorem Held.later {held : Option Acceptance} (earlier : Held first count held) :
    Held first (count + 1) held := by
  intro acceptance same
  obtain ⟨index, before, sequence⟩ := earlier acceptance same
  exact ⟨index, Nat.lt_succ_of_lt before, sequence⟩

/-- The ordering rule lets the next packet in. -/
theorem Held.admits {held : Option Acceptance} (earlier : Held first count held)
    (few : count < 2 ^ 31) (millis : ℕ) :
    (HostState.ofAcceptance held).admits (sequenceAfter first count) millis = true := by
  cases held with
  | none => rfl
  | some acceptance =>
      obtain ⟨index, before, sequence⟩ := earlier acceptance rfl
      have newer := (sequenceIsNewer_after_iff first few (before.trans few)).mpr before
      rw [HostState.ofAcceptance, HostState.admits_remembering, sequence, newer, Bool.or_true]

/-- **A packet that arrives** is taken whenever it can be read. -/
theorem controlStep_of_delivered (shaped : WellFormedToken token)
    (numbered : Consecutive token first count (packet :: sent)) {held : Option Acceptance}
    (earlier : Held first count held) (millis : ℕ) :
    let timed : TimedEvent := ⟨millis, .packet (Text.bytes packet)⟩
    Held first (count + 1) (latestStep token held timed).2 ∧
      controlStep token (HostState.ofAcceptance held) timed =
        ((latestStep token held timed).1,
          HostState.ofAcceptance (latestStep token held timed).2) := by
  have few : count < 2 ^ 31 := by
    have bound := numbered.few
    rw [List.length_cons] at bound
    omega
  cases read : parseCommand token (Text.bytes packet) with
  | error error =>
      simp only [latestStep, controlStep, read]
      rw [HostState.accept_of_error _ millis read]
      exact ⟨earlier.later, rfl⟩
  | ok command =>
      have sequence := numbered.sequence_eq shaped read
      simp only [latestStep, controlStep, read]
      rw [HostState.accept_of_carries _ millis ((parseCommand_eq_ok_iff _ _ _).mp read), sequence,
        if_pos (earlier.admits few millis)]
      refine ⟨?_, rfl⟩
      intro acceptance same
      obtain rfl := Option.some.inj same
      exact ⟨count, Nat.lt_succ_self count, sequence⟩

/-- A forged packet is refused by both. -/
theorem Forged.latestStep_eq {timed : TimedEvent} (forgery : Forged token timed)
    (held : Option Acceptance) :
    (latestStep token held timed).2 = held ∧
      controlStep token (HostState.ofAcceptance held) timed =
        ((latestStep token held timed).1, HostState.ofAcceptance held) := by
  obtain ⟨bytes, packet, uncarried⟩ := forgery
  cases read : parseCommand token bytes with
  | error error =>
      simp only [latestStep, controlStep, packet, read]
      rw [HostState.accept_of_error _ timed.millis read]
      exact ⟨trivial, rfl⟩
  | ok command => exact (uncarried command ((parseCommand_eq_ok_iff _ _ _).mp read)).elim

/-- **Behind the link the ordering rule is invisible.** -/
theorem outputs_of_arrives (shaped : WellFormedToken token) {events : List TimedEvent}
    (arrives : Arrives token sent events) {held : Option Acceptance}
    (numbered : Consecutive token first count sent) (earlier : Held first count held) :
    outputs (controlStep token) (HostState.ofAcceptance held) events =
      outputs (latestStep token) held events := by
  induction arrives generalizing count held with
  | nothing => rfl
  | lost packet _ ih => exact ih numbered.tail earlier.later
  | delivered packet millis _ ih =>
      obtain ⟨after, taken⟩ := controlStep_of_delivered shaped numbered earlier millis
      rw [outputs_cons, outputs_cons, taken, ih numbered.tail after]
  | forged forgery _ ih =>
      obtain ⟨unchanged, refused⟩ := Forged.latestStep_eq forgery held
      rw [outputs_cons, outputs_cons, refused, unchanged, ih numbered earlier]
  | polled millis _ ih =>
      rw [outputs_cons, outputs_cons]
      simp only [controlStep, latestStep, dutyPercent_ofAcceptance, ih numbered earlier]

/-! ## The agent's packets -/

section Agent

variable {SocketAddr IoError : Type} {readers : ValueReaders SocketAddr}
  {environment : StartEnvironment IoError} {config : AgentConfig SocketAddr} {once : Bool}
  {loop : SendLoop}

/-- What each packet of the agent's loop carries. -/
theorem packet_of_run
    (started : start readers environment = .ok (some (config, once, loop)))
    (moments : List (Moment IoError)) {index : ℕ}
    (there : (loop.run config.token once moments).1[index]? = some packet) :
    ∃ measurement state, (measurements once loop.sensors moments)[index]? = some measurement ∧
      (loop.agent.policy.states (readingsFrom loop.lastUpdateNanos
        (measurements once loop.sensors moments)))[index]? = some state ∧
      packet = formatPacket config.token (sequenceAfter loop.agent.sequence index)
        measurement.temperatureMilliC state.commandedDutyPercent ∧
      (minPlausibleMilliC ≤ measurement.temperatureMilliC ∧
        measurement.temperatureMilliC ≤ maxPlausibleMilliC) ∧
      HostAgent.minDutyPercent ≤ state.commandedDutyPercent ∧
        state.commandedDutyPercent ≤ HostAgent.maxDutyPercent := by
  obtain ⟨_, _, created, _⟩ := of_start started
  have invariant := (FanPolicy.new_invariant created).1
  rw [(SendLoop.run_eq invariant moments).1, packetsFor_getElem?, Option.map_eq_some_iff] at there
  obtain ⟨⟨measurement, duty⟩, paired, rfl⟩ := there
  obtain ⟨measured, commanded⟩ := List.getElem?_zip_eq_some.mp paired
  rw [List.getElem?_map, Option.map_eq_some_iff] at commanded
  obtain ⟨state, reached, rfl⟩ := commanded
  have inRange := (FanPolicy.states_invariant invariant _ state
    (List.mem_of_getElem? reached)).1.commanded
  exact ⟨measurement, state, measured, reached, rfl,
    plausible_of_mem_measurements (List.mem_of_getElem? measured), inRange⟩

/-- No more packets are sent than the loop has turns. -/
theorem length_run_le (started : start readers environment = .ok (some (config, once, loop)))
    (moments : List (Moment IoError)) :
    (loop.run config.token once moments).1.length ≤ moments.length := by
  obtain ⟨_, _, created, _⟩ := of_start started
  have times := (@measurements_sublist _ once loop.sensors moments).length_le
  rw [List.length_map, List.length_map] at times
  rw [(SendLoop.run_eq (FanPolicy.new_invariant created).1 moments).1, packetsFor,
    List.length_mapIdx, List.length_zip]
  exact (min_le_left _ _).trans times

/-- **The cooler follows the newest command.** Whatever the agent's loop meets, and whatever the
link loses or adds, a cooler that has just started answers as if it kept the newest command. Each
packet is read as the temperature measured and the duty of the policy, unless the temperature is
below zero or above 120 degrees. -/
theorem answers_latest_command
    (started : start readers environment = .ok (some (config, once, loop)))
    (moments : List (Moment IoError)) (few : moments.length ≤ 2 ^ 31) {events : List TimedEvent}
    (arrives : Arrives config.token (loop.run config.token once moments).1 events) :
    let measured := measurements once loop.sensors moments
    outputs (controlStep config.token) .new events =
        outputs (latestStep config.token) none events ∧
      ∀ index packet, (loop.run config.token once moments).1[index]? = some packet →
        ∃ measurement state, measured[index]? = some measurement ∧
          (loop.agent.policy.states (readingsFrom loop.lastUpdateNanos measured))[index]? =
            some state ∧
          parseCommand config.token (Text.bytes packet) =
            if minTemperatureMilliC ≤ measurement.temperatureMilliC ∧
                measurement.temperatureMilliC ≤ maxTemperatureMilliC then
              .ok ⟨sequenceAfter loop.agent.sequence index, measurement.temperatureMilliC,
                state.commandedDutyPercent⟩
            else .error .invalidTemperature := by
  obtain ⟨⟨contents, accepted⟩, _⟩ := of_start started
  have shaped := (parseConfig_admitted accepted).token
  -- A plausible temperature and a duty of the policy fit the fields they are sent in.
  have fits : ∀ {temperatureMilliC : ℤ},
      minPlausibleMilliC ≤ temperatureMilliC ∧ temperatureMilliC ≤ maxPlausibleMilliC →
        -2147483648 ≤ temperatureMilliC ∧ temperatureMilliC ≤ 2147483647 := by
    intro temperatureMilliC credible
    unfold minPlausibleMilliC maxPlausibleMilliC at credible
    omega
  have numbered : Consecutive config.token loop.agent.sequence 0
      (loop.run config.token once moments).1 := by
    constructor
    · intro index packet there
      obtain ⟨measurement, state, _, _, same, credible, _, dutyHigh⟩ :=
        packet_of_run started moments there
      rw [Nat.zero_add]
      exact ⟨_, _, same, fits credible, dutyHigh.trans (by decide)⟩
    · rw [Nat.zero_add]
      exact (length_run_le started moments).trans few
  have booted : Held loop.agent.sequence 0 none := fun acceptance same => by cases same
  constructor
  · exact outputs_of_arrives shaped arrives numbered booted
  · intro index packet there
    obtain ⟨measurement, state, measured, reached, rfl, credible, dutyLow, dutyHigh⟩ :=
      packet_of_run started moments there
    refine ⟨measurement, state, measured, reached, ?_⟩
    have dutyInRange : Firmware.minDutyPercent ≤ state.commandedDutyPercent ∧
        state.commandedDutyPercent ≤ Firmware.maxDutyPercent := ⟨dutyLow, dutyHigh⟩
    rw [parseCommand_formatPacket shaped _ _ (fits credible) (dutyHigh.trans (by decide)),
      if_neg (not_not.mpr rfl)]
    by_cases inside : minTemperatureMilliC ≤ measurement.temperatureMilliC ∧
        measurement.temperatureMilliC ≤ maxTemperatureMilliC
    · rw [if_neg (not_not.mpr inside), if_neg (not_not.mpr dutyInRange), if_pos inside]
    · rw [if_pos inside, if_neg inside]

/-- The first packet of an agent at 95 degrees starts the fan. -/
theorem answers_latest_command_hot :
    (outputs (controlStep "abcdefghijklmnop") .new
      [⟨1000, .packet (Text.bytes (formatPacket "abcdefghijklmnop" 0 95000 100))⟩,
        ⟨2000, .poll⟩])[1]? = some (.duty 100) := by
  obtain ⟨sensor, started⟩ := start_sample
  have sent : ((sampleLoop sensor).run "abcdefghijklmnop" false [hotMoment]).1 =
      [formatPacket "abcdefghijklmnop" 0 95000 100] := by rfl
  have arrives : Arrives "abcdefghijklmnop"
      ((sampleLoop sensor).run "abcdefghijklmnop" false [hotMoment]).1
      [⟨1000, .packet (Text.bytes (formatPacket "abcdefghijklmnop" 0 95000 100))⟩,
        ⟨2000, .poll⟩] := by
    rw [sent]
    exact .delivered _ 1000 (.polled 2000 (.nothing []))
  obtain ⟨answers, carried⟩ := answers_latest_command started [hotMoment] (by decide) arrives
  obtain ⟨measurement, state, measured, reached, read⟩ := carried 0 _ (congrArg (·[0]?) sent)
  obtain rfl : (⟨95000, 5000000000⟩ : Measurement) = measurement := Option.some.inj measured
  obtain rfl := Option.some.inj reached
  have command : parseCommand (sampleConfig 1000).token
      (Text.bytes (formatPacket "abcdefghijklmnop" 0 95000 100)) = .ok ⟨0, 95000, 100⟩ := read
  refine (congrArg (·[1]?) answers).trans ?_
  simp only [outputs_cons, latestStep, command, List.getElem?_cons_succ, List.getElem?_cons_zero]
  rfl

end Agent

end LaptopCooler.System
