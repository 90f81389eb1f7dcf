import LaptopCooler.System.Packets

/-! # Agreement between the agent and the cooler

The agent takes sensor readings from -20 to 150 degrees as plausible, the
firmware accepts temperatures from 0 to 120 degrees. Inside the common range the
cooler obeys every command the agent sends, whatever the policy's history;
outside it refuses the packet
(`LaptopCooler.System.obeyed_iff_readings_in_common_range`). The hottest readings
are among the refused ones (`LaptopCooler.System.hottest_reading_refused`).
-/

namespace LaptopCooler.System

open Firmware HostAgent Fallible

/-- The firmware accepts the agent's packet, and its fan then runs at the requested
duty, or at full speed from 90 degrees on. -/
def Obeyed (token : String) (sequence : UInt32) (temperatureMilliC : ℤ) (duty : ℕ)
    (state : HostState) (nowMillis : ℕ) : Prop :=
  let received := state.accept token
    (Text.bytes (formatPacket token sequence temperatureMilliC duty)) nowMillis
  received.1 = .ok ⟨sequence, temperatureMilliC, duty⟩ ∧
    received.2.dutyPercent nowMillis = if temperatureMilliC < 90000 then duty else 100

/-- A packet that the ordering rule lets in is obeyed when its temperature is in the
firmware's range, and only then. -/
theorem obeyed_iff {token : String} (shaped : WellFormedToken token) (sequence : UInt32)
    {temperatureMilliC : ℤ} {duty : ℕ}
    (temperatureFits : -2147483648 ≤ temperatureMilliC ∧ temperatureMilliC ≤ 2147483647)
    (dutyInRange : 20 ≤ duty ∧ duty ≤ 100) {state : HostState} {nowMillis : ℕ}
    (admitted : state.admits sequence nowMillis = true) :
    Obeyed token sequence temperatureMilliC duty state nowMillis ↔
      0 ≤ temperatureMilliC ∧ temperatureMilliC ≤ 120000 := by
  have reads : ∀ command, Carries token
      (Text.bytes (formatPacket token sequence temperatureMilliC duty)) command ↔ _ :=
    carries_formatPacket_iff shaped temperatureFits (dutyInRange.2.trans (by decide))
  constructor
  · rintro ⟨accepted, _⟩
    rcases state.accept_cases token
      (Text.bytes (formatPacket token sequence temperatureMilliC duty)) nowMillis with
      ⟨command, carries, _⟩ | ⟨error, rejected⟩
    · exact ((reads command).mp carries).2.1
    · rw [rejected] at accepted
      cases accepted
  · intro temperatureInRange
    have carries := (reads ⟨sequence, temperatureMilliC, duty⟩).mpr
      ⟨rfl, temperatureInRange, dutyInRange⟩
    have accepted := state.accept_of_carries nowMillis carries
    rw [if_pos admitted] at accepted
    unfold Obeyed
    rw [accepted]
    refine ⟨rfl, ?_⟩
    rw [HostState.dutyPercent_remembering, if_neg (by omega)]
    change (if 90000 ≤ temperatureMilliC then 100 else duty) = _
    by_cases hot : 90000 ≤ temperatureMilliC
    · rw [if_pos hot, if_neg (not_lt.mpr hot)]
    · rw [if_neg hot, if_pos (not_le.mp hot)]

/-- Some sensor reports at least zero degrees and none more than 120 degrees. -/
def ReadingsInCommonRange {IoError : Type} (readToString : String → Except IoError String)
    (sensors : List Sensor) : Prop :=
  (∃ sensor ∈ sensors, ∃ value, reportedTemperature readToString sensor = .ok value ∧
    0 ≤ value) ∧
  ∀ sensor ∈ sensors, ∀ value, reportedTemperature readToString sensor = .ok value →
    value ≤ 120000

theorem readingsInCommonRange_iff {IoError : Type} {readToString : String → Except IoError String}
    {sensors : List Sensor} {temperatureMilliC : ℤ}
    (measured : maximumTemperature readToString sensors = .ok temperatureMilliC) :
    ReadingsInCommonRange readToString sensors ↔
      0 ≤ temperatureMilliC ∧ temperatureMilliC ≤ 120000 := by
  obtain ⟨⟨hottest, member, reports, _⟩, below⟩ := maximumTemperature_spec measured
  constructor
  · rintro ⟨⟨warm, warmMember, value, warmReports, nonneg⟩, bounded⟩
    obtain ⟨other, ⟨otherReports, _⟩, otherBelow⟩ := below warm warmMember
    rw [warmReports] at otherReports
    obtain rfl := Except.ok.inj otherReports
    exact ⟨nonneg.trans otherBelow, bounded hottest member temperatureMilliC reports⟩
  · rintro ⟨nonneg, bounded⟩
    refine ⟨⟨hottest, member, temperatureMilliC, reports, nonneg⟩, ?_⟩
    intro sensor sensorMember value sensorReports
    obtain ⟨other, ⟨otherReports, _⟩, otherBelow⟩ := below sensor sensorMember
    rw [sensorReports] at otherReports
    obtain rfl := Except.ok.inj otherReports
    exact otherBelow.trans bounded

/-- **When the cooler obeys the agent.** For every successful reading of the sensors, every
reachable policy, every accepted configuration and every state of the firmware that lets
the sequence number in, the policy returns a duty, and the cooler obeys the packet exactly
when the readings are in the common range. -/
theorem obeyed_iff_readings_in_common_range {SocketAddr IoError : Type}
    {readers : ValueReaders SocketAddr} {contents : String} {config : AgentConfig SocketAddr}
    (configured : parseConfig readers contents = .ok config)
    {readToString : String → Except IoError String} {sensors : List Sensor}
    {temperatureMilliC : ℤ}
    (measured : maximumTemperature readToString sensors = .ok temperatureMilliC)
    {policyConfig : FanPolicyConfig} {policy : FanPolicy}
    (reachable : FanPolicy.Reachable policyConfig policy) (elapsed : Duration)
    (sequence : UInt32) {state : HostState} {nowMillis : ℕ}
    (fresh : state.admits sequence nowMillis = true) :
    ∃ duty after, policy.update temperatureMilliC elapsed = .ok (duty, after) ∧
      (Obeyed config.token sequence temperatureMilliC duty state nowMillis ↔
        ReadingsInCommonRange readToString sensors) := by
  have updated := FanPolicy.update_eq reachable.invariant.1 temperatureMilliC elapsed
  refine ⟨_, _, updated, ?_⟩
  obtain ⟨⟨_, _, _, inRange⟩, _⟩ := maximumTemperature_spec measured
  simp only [minPlausibleMilliC, maxPlausibleMilliC] at inRange
  rw [obeyed_iff (parseConfig_admitted configured).token sequence (by omega)
    (reachable.duty_mem updated) fresh, readingsInCommonRange_iff measured]

/-- A reading of 42 degrees is obeyed. -/
theorem ordinary_reading_obeyed :
    ∃ duty, Obeyed "abcdefghijklmnop" 7 42000 duty .new 1000 := by
  have measured : maximumTemperature (fun _ => .ok "42000\n" : String → Except Unit String)
      [⟨"temp1_input"⟩] = .ok 42000 := rfl
  obtain ⟨duty, after, _, obeyed⟩ := obeyed_iff_readings_in_common_range
    parseConfig_minimal measured (.new (show FanPolicy.new .default = .ok _ from rfl))
    (.fromMillis 1000) 7 (show HostState.new.admits 7 1000 = true from rfl)
  exact ⟨duty, obeyed.mpr ((readingsInCommonRange_iff measured).mpr (by decide))⟩

/-- A plausible reading of 130 degrees, at which the policy requests full speed, is refused,
and the fan does not run. -/
theorem hottest_reading_refused :
    maximumTemperature (fun _ => .ok "130000\n" : String → Except Unit String)
      [⟨"temp1_input"⟩] = .ok 130000 ∧
    parseConfig sampleReaders "token=abcdefghijklmnop\n" = .ok (sampleConfig 1000) ∧
    HostState.new.admits 7 1000 = true ∧
    ∃ policy after, FanPolicy.new .default = .ok policy ∧
      policy.update 130000 (.fromMillis 1000) = .ok (100, after) ∧
      ¬ Obeyed (sampleConfig 1000).token 7 130000 100 .new 1000 ∧
      HostState.new.accept (sampleConfig 1000).token
        (Text.bytes (formatPacket (sampleConfig 1000).token 7 130000 100)) 1000 =
          (.error .invalidTemperature, .new) := by
  refine ⟨rfl, parseConfig_minimal, rfl, _, _, rfl, rfl, ?_, by decide⟩
  rw [obeyed_iff (parseConfig_admitted parseConfig_minimal).token 7 (by decide) (by decide) rfl]
  decide

end LaptopCooler.System
