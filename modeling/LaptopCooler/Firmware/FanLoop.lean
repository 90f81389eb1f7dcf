import LaptopCooler.Firmware.CommandHistory
import LaptopCooler.Library.EdgeCount
import LaptopCooler.Library.GuardedRun

/-! # The fan loop

The model of the loop at the end of `main` in `src/main.rs`, without the saves
that it makes in setup mode. A turn polls the duty, writes it to the PWM channel
when it has changed, samples the tachometer and reports the speed about once a
second. Packets arrive between the turns. The driver of the channel is the hardware
library's and is given. If it takes percentages, the duty of the channel is the one
that the last turn has polled (`LaptopCooler.Firmware.fan_output_follows_commands`),
and whatever it does every pulse that the samples show is reported once
(`LaptopCooler.Firmware.tach_pulses_reported_once`).
-/

namespace LaptopCooler.Firmware

open EdgeCount EventRun

def initialPwmDutyPercent : ℕ := 0
def tachPulsesPerRevolution : ℕ := 2

/-- `SAMPLE_INTERVAL` in microseconds. -/
def sampleIntervalMicros : ℕ := 1000000

/-- A printed measurement. -/
structure SpeedReport where
  pulses : ℕ
  rpm : ℕ

/-- The PWM driver of the hardware library: `set_duty` of a channel, which may fail, and the
percentage that a channel runs at. -/
structure PwmDriver (Channel : Type) where
  setDuty : Channel → ℕ → Option Channel
  duty : Channel → ℕ

/-- What the loop relies on: percentages are taken, and the channel then runs at them. -/
def PwmDriver.TakesPercentages {Channel : Type} (driver : PwmDriver Channel) : Prop :=
  ∀ channel percent, percent ≤ 100 →
    ∃ next, driver.setDuty channel percent = some next ∧ driver.duty next = percent

/-- The PWM channel and the variables of the loop. -/
structure FanLoop (Channel : Type) where
  pwm : Channel
  currentDuty : ℕ
  tachWasLow : Bool
  pulseCount : ℕ
  sampleStartedAt : ℕ

/-- What a turn reads: the time of the poll in milliseconds, the level of the tachometer,
and the times, in microseconds, at which it measures the sample and starts the next one. -/
structure Reading where
  millis : ℕ
  tachIsLow : Bool
  measuredAt : ℕ
  restartedAt : ℕ

/-- What a turn does. -/
structure Turn (Channel : Type) where
  written : Option ℕ
  report : Option SpeedReport
  fan : FanLoop Channel

section Loop

variable {Channel : Type} (driver : PwmDriver Channel)

/-- Write the duty if it has changed. -/
def FanLoop.writeDuty (fan : FanLoop Channel) (targetDuty : ℕ) :
    Option (Option ℕ × FanLoop Channel) :=
  if targetDuty ≠ fan.currentDuty then
    (driver.setDuty fan.pwm targetDuty).map fun pwm =>
      (some targetDuty, { fan with pwm := pwm, currentDuty := targetDuty })
  else some (none, fan)

/-- One turn of the loop; without a value it panics. -/
def FanLoop.turn (fan : FanLoop Channel) (host : HostState) (reading : Reading) :
    Option (Turn Channel) := do
  let (written, fan) ← fan.writeDuty driver (host.dutyPercent reading.millis)
  let pulseCount := if reading.tachIsLow && !fan.tachWasLow then fan.pulseCount + 1
    else fan.pulseCount
  let elapsed := reading.measuredAt - fan.sampleStartedAt
  let fan := { fan with tachWasLow := reading.tachIsLow }
  if elapsed ≥ sampleIntervalMicros then
    let elapsedMillis := elapsed / 1000
    let rpm := pulseCount * 60000 / (tachPulsesPerRevolution * max elapsedMillis 1)
    return ⟨written, some ⟨pulseCount, rpm⟩,
      { fan with pulseCount := 0, sampleStartedAt := reading.restartedAt }⟩
  else
    return ⟨written, none, { fan with pulseCount := pulseCount }⟩

/-- The loop before its first turn, with the channel as it is configured. -/
def FanLoop.start (pwm : Channel) (tachIsLow : Bool) (startedAt : ℕ) : FanLoop Channel :=
  ⟨pwm, initialPwmDutyPercent, tachIsLow, 0, startedAt⟩

/-! ## Runs -/

inductive FanEvent where
  | packet (millis : ℕ) (bytes : List UInt8)
  | turn (reading : Reading)

/-- The state between two events, with the duties written and the speeds reported so far. -/
structure FanState (Channel : Type) where
  host : HostState
  fan : FanLoop Channel
  writes : List ℕ
  reports : List SpeedReport

def FanState.start (pwm : Channel) (tachIsLow : Bool) (startedAt : ℕ) : FanState Channel :=
  ⟨.new, .start pwm tachIsLow startedAt, [], []⟩

def FanState.step (token : String) (state : FanState Channel) (event : FanEvent) :
    Option (FanState Channel) :=
  match event with
  | .packet millis bytes => some { state with host := (state.host.accept token bytes millis).2 }
  | .turn reading => (state.fan.turn driver state.host reading).map fun turn =>
      { state with
        fan := turn.fan
        writes := state.writes ++ turn.written.toList
        reports := state.reports ++ turn.report.toList }

end Loop

/-- The event as the control of the host's commands sees it. -/
def FanEvent.toPacket : FanEvent → Option TimedEvent
  | .packet millis bytes => some ⟨millis, .packet bytes⟩
  | .turn _ => none

/-- The packets of a run. -/
def packets (events : List FanEvent) : List TimedEvent := events.filterMap FanEvent.toPacket

/-- The level of the tachometer that an event has sampled. -/
def FanEvent.toLevel : FanEvent → Option Bool
  | .packet .. => none
  | .turn reading => some reading.tachIsLow

/-- The levels that a run has sampled. -/
def levels (events : List FanEvent) : List Bool := events.filterMap FanEvent.toLevel

/-! ## One turn -/

/-- The duties that the channel is set to. -/
def Settable (percent : ℕ) : Prop := percent = 0 ∨ 20 ≤ percent ∧ percent ≤ 100

theorem Settable.le {percent : ℕ} (settable : Settable percent) : percent ≤ 100 := by
  rcases settable with rfl | range
  · exact Nat.zero_le 100
  · exact range.2

/-- The host's state remembers an in-range command, if any. -/
def HostState.InRange (host : HostState) : Prop := ∀ millis, Settable (host.dutyPercent millis)

theorem HostState.inRange_new : HostState.new.InRange := fun _ => Or.inl rfl

/-- Whatever arrives, only in-range commands are remembered. -/
theorem HostState.InRange.accept {host : HostState} (inRange : host.InRange) (token : String)
    (bytes : List UInt8) (millis : ℕ) : (host.accept token bytes millis).2.InRange := by
  rcases host.accept_cases token bytes millis with ⟨command, carries, _, accepted⟩ | ⟨_, rejected⟩
  · intro now
    rw [accepted, dutyPercent_remembering]
    split
    · exact Or.inl rfl
    split
    · exact Or.inr (by decide)
    · exact Or.inr carries.dutyInRange
  · rwa [rejected]

variable {Channel : Type} {driver : PwmDriver Channel}

/-- Writing the duty leaves the sample in progress as it is. -/
theorem FanLoop.writeDuty_sample {fan after : FanLoop Channel} {targetDuty : ℕ}
    {written : Option ℕ} (wrote : fan.writeDuty driver targetDuty = some (written, after)) :
    after.tachWasLow = fan.tachWasLow ∧ after.pulseCount = fan.pulseCount ∧
      after.sampleStartedAt = fan.sampleStartedAt := by
  unfold writeDuty at wrote
  split at wrote
  · obtain ⟨pwm, _, same⟩ := Option.map_eq_some_iff.mp wrote
    obtain ⟨_, rfl⟩ := Prod.mk.inj same
    exact ⟨rfl, rfl, rfl⟩
  · obtain ⟨_, rfl⟩ := Prod.mk.inj (Option.some.inj wrote)
    exact ⟨rfl, rfl, rfl⟩

/-- Writing a duty that the channel takes leaves it running there; only a change is written. -/
theorem FanLoop.writeDuty_duty (takes : driver.TakesPercentages) {fan : FanLoop Channel}
    (shadow : fan.currentDuty = driver.duty fan.pwm) {targetDuty : ℕ}
    (settable : targetDuty ≤ 100) :
    ∃ after, fan.writeDuty driver targetDuty =
        some (if targetDuty ≠ driver.duty fan.pwm then some targetDuty else none, after) ∧
      driver.duty after.pwm = targetDuty ∧ after.currentDuty = targetDuty := by
  unfold writeDuty
  rw [shadow]
  by_cases changed : targetDuty ≠ driver.duty fan.pwm
  · obtain ⟨pwm, set, runsAt⟩ := takes fan.pwm targetDuty settable
    rw [if_pos changed, if_pos changed, set]
    exact ⟨_, rfl, runsAt, rfl⟩
  · rw [if_neg changed, if_neg changed]
    exact ⟨fan, rfl, (not_not.mp changed).symm, shadow.trans (not_not.mp changed).symm⟩

/-- **What a turn writes**: it leaves the channel running at the polled duty, writing only a
change. -/
theorem FanLoop.turn_duty (takes : driver.TakesPercentages) {fan : FanLoop Channel}
    {host : HostState} (reading : Reading) (inRange : host.InRange)
    (shadow : fan.currentDuty = driver.duty fan.pwm) :
    ∃ turn, fan.turn driver host reading = some turn ∧
      driver.duty turn.fan.pwm = host.dutyPercent reading.millis ∧
      turn.fan.currentDuty = driver.duty turn.fan.pwm ∧
      turn.written =
        (if host.dutyPercent reading.millis ≠ driver.duty fan.pwm then
          some (host.dutyPercent reading.millis) else none) := by
  obtain ⟨after, wrote, runsAt, current⟩ :=
    writeDuty_duty takes shadow (inRange reading.millis).le
  unfold turn
  rw [wrote]
  simp only [Option.bind_eq_bind, Option.bind_some]
  split
  · exact ⟨_, rfl, runsAt, current.trans runsAt.symm, rfl⟩
  · exact ⟨_, rfl, runsAt, current.trans runsAt.symm, rfl⟩

/-- The pulses of the sample once a level is read. -/
def FanLoop.pulsesWith (fan : FanLoop Channel) (reading : Reading) : ℕ :=
  fan.pulseCount + rise fan.tachWasLow reading.tachIsLow

/-- **What a turn measures**: it counts the edge of its level, and a sample of a second is
reported and starts again. -/
theorem FanLoop.turn_sample {fan : FanLoop Channel} {host : HostState} {reading : Reading}
    {turn : Turn Channel} (turned : fan.turn driver host reading = some turn) :
    turn.fan.tachWasLow = reading.tachIsLow ∧
      (turn.report = none ∧ turn.fan.pulseCount = fan.pulsesWith reading ∧
          turn.fan.sampleStartedAt = fan.sampleStartedAt ∨
        sampleIntervalMicros ≤ reading.measuredAt - fan.sampleStartedAt ∧
          turn.report = some ⟨fan.pulsesWith reading, fan.pulsesWith reading * 60000 /
            (2 * max ((reading.measuredAt - fan.sampleStartedAt) / 1000) 1)⟩ ∧
          turn.fan.pulseCount = 0 ∧ turn.fan.sampleStartedAt = reading.restartedAt) := by
  have counted : (if reading.tachIsLow && !fan.tachWasLow then fan.pulseCount + 1
      else fan.pulseCount) = fan.pulsesWith reading := by
    unfold pulsesWith rise
    cases (reading.tachIsLow && !fan.tachWasLow) <;> rfl
  unfold FanLoop.turn at turned
  obtain ⟨⟨written, after⟩, wrote, measured⟩ := Option.bind_eq_some_iff.mp turned
  obtain ⟨level, pulses, started⟩ := writeDuty_sample wrote
  dsimp only at measured
  rw [level, pulses, started, counted] at measured
  split at measured
  next whole =>
    obtain rfl := Option.some.inj measured
    exact ⟨rfl, Or.inr ⟨whole, rfl, rfl, rfl⟩⟩
  next =>
    obtain rfl := Option.some.inj measured
    exact ⟨rfl, Or.inl ⟨rfl, rfl, rfl⟩⟩

/-! ## The account of the output -/

/-- What the state after some events says about its output: the host's state is that of the
packets, and the channel has the duty written last. -/
structure FanState.Output (driver : PwmDriver Channel) (token : String) (events : List FanEvent)
    (state : FanState Channel) : Prop where
  host : state.host = final (controlStep token) .new (packets events)
  inRange : state.host.InRange
  shadow : state.fan.currentDuty = driver.duty state.fan.pwm
  last : (initialPwmDutyPercent :: state.writes).getLast? = some (driver.duty state.fan.pwm)
  changes : (initialPwmDutyPercent :: state.writes).IsChain (· ≠ ·)
  settable : ∀ percent ∈ state.writes, Settable percent

namespace FanState

variable {token : String} {pwm : Channel} {tachIsLow : Bool} {startedAt : ℕ}
  {events : List FanEvent} {state next : FanState Channel}

theorem output_start (configured : driver.duty pwm = initialPwmDutyPercent) :
    (start pwm tachIsLow startedAt).Output driver token [] where
  host := rfl
  inRange := HostState.inRange_new
  shadow := configured.symm
  last := congrArg some configured.symm
  changes := List.isChain_singleton _
  settable _ := nofun

/-- A packet changes the host's state only. -/
private theorem Output.packet (output : state.Output driver token events) (millis : ℕ)
    (bytes : List UInt8) :
    Output driver token (events ++ [.packet millis bytes])
      { state with host := (state.host.accept token bytes millis).2 } := by
  have arrived : packets (events ++ [.packet millis bytes]) =
      packets events ++ [⟨millis, .packet bytes⟩] := by simp [packets, FanEvent.toPacket]
  refine { output with host := ?_, inRange := output.inRange.accept token bytes millis }
  rw [arrived, final_append, ← output.host]
  rfl

/-- A turn writes what has changed. -/
private theorem Output.turn (takes : driver.TakesPercentages)
    (output : state.Output driver token events) (reading : Reading) :
    ∃ turn, state.fan.turn driver state.host reading = some turn ∧
      Output driver token (events ++ [.turn reading])
        { state with
          fan := turn.fan
          writes := state.writes ++ turn.written.toList
          reports := state.reports ++ turn.report.toList } := by
  obtain ⟨turn, turned, polled, shadow, written⟩ :=
    FanLoop.turn_duty takes reading output.inRange output.shadow
  have arrived : packets (events ++ [.turn reading]) = packets events := by
    simp [packets, FanEvent.toPacket]
  have writes : (initialPwmDutyPercent :: (state.writes ++ turn.written.toList)).getLast? =
        some (driver.duty turn.fan.pwm) ∧
      (initialPwmDutyPercent :: (state.writes ++ turn.written.toList)).IsChain (· ≠ ·) ∧
      ∀ percent ∈ state.writes ++ turn.written.toList, Settable percent := by
    by_cases changed : state.host.dutyPercent reading.millis ≠ driver.duty state.fan.pwm
    · rw [if_pos changed] at written
      rw [written, polled, ← List.cons_append]
      refine ⟨List.getLast?_concat .., ?_, ?_⟩
      · refine List.isChain_append.mpr ⟨output.changes, List.isChain_singleton _, ?_⟩
        intro before here after there
        rw [output.last] at here
        cases here
        cases there
        exact Ne.symm changed
      · intro percent member
        rcases List.mem_append.mp member with earlier | here
        · exact output.settable percent earlier
        · rw [List.mem_singleton.mp here]
          exact output.inRange reading.millis
    · rw [if_neg changed] at written
      rw [written, polled, not_not.mp changed, Option.toList_none, List.append_nil]
      exact ⟨output.last, output.changes, output.settable⟩
  exact ⟨turn, turned, ⟨by rw [arrived]; exact output.host, output.inRange, shadow,
    writes.1, writes.2.1, writes.2.2⟩⟩

/-- **Every event is possible and keeps the account.** -/
theorem Output.step (takes : driver.TakesPercentages) (output : state.Output driver token events)
    (event : FanEvent) :
    ∃ next, state.step driver token event = some next ∧
      next.Output driver token (events ++ [event]) := by
  cases event with
  | packet millis bytes => exact ⟨_, rfl, output.packet millis bytes⟩
  | turn reading =>
      obtain ⟨turn, turned, after⟩ := output.turn takes reading
      exact ⟨_, by rw [FanState.step, turned, Option.map_some], after⟩

/-- **No run panics**, and every run has its account. -/
theorem exists_output (takes : driver.TakesPercentages)
    (configured : driver.duty pwm = initialPwmDutyPercent) (token : String) (tachIsLow : Bool)
    (startedAt : ℕ) (events : List FanEvent) :
    ∃ state, GuardedRun.run (step driver token) (start pwm tachIsLow startedAt) events =
        some state ∧ state.Output driver token events := by
  induction events using List.reverseRecOn with
  | nil => exact ⟨_, rfl, output_start configured⟩
  | append_singleton events event ih =>
      obtain ⟨before, runs, output⟩ := ih
      obtain ⟨after, stepped, accounted⟩ := output.step takes event
      exact ⟨after, GuardedRun.run_append_eq_some_iff.mpr ⟨before, runs,
        GuardedRun.run_cons_eq_some_iff.mpr ⟨after, stepped, rfl⟩⟩, accounted⟩

/-- Packets leave the loop as it is. -/
theorem fan_of_packets {later : List (ℕ × List UInt8)}
    (runs : GuardedRun.run (step driver token) state
      (later.map fun packet => .packet packet.1 packet.2) = some next) :
    next.fan = state.fan := by
  induction later generalizing state with
  | nil =>
      obtain rfl := Option.some.inj runs
      rfl
  | cons packet rest ih =>
      obtain ⟨after, stepped, continues⟩ := GuardedRun.run_cons_eq_some_iff.mp runs
      obtain rfl := Option.some.inj stepped
      have same := ih continues
      exact same

end FanState

/-- **The fan's output follows the commands.** With a driver that takes percentages, however
packets and turns interleave, the loop never panics, it writes to the PWM channel only what is a
change, zero or in range, and between two turns the channel runs at the duty of the packet
accepted last before the first of them, at that turn's time: zero without one in the last minute,
full speed at an emergency temperature and otherwise the requested duty. -/
theorem fan_output_follows_commands (takes : driver.TakesPercentages) {pwm : Channel}
    (configured : driver.duty pwm = initialPwmDutyPercent) (token : String) (tachIsLow : Bool)
    (startedAt : ℕ) (events : List FanEvent) :
    ∃ state, GuardedRun.run (FanState.step driver token) (.start pwm tachIsLow startedAt) events =
        some state ∧
      (initialPwmDutyPercent :: state.writes).IsChain (· ≠ ·) ∧
      (∀ percent ∈ state.writes, percent = 0 ∨ 20 ≤ percent ∧ percent ≤ 100) ∧
      ∀ earlier reading (later : List (ℕ × List UInt8)),
        events = earlier ++ .turn reading :: later.map (fun packet => .packet packet.1 packet.2) →
        driver.duty state.fan.pwm =
          match lastAcceptance none (history token .new (packets earlier)) with
          | none => 0
          | some acceptance =>
              if acceptance.millis + 60000 < reading.millis then 0
              else if 90000 ≤ acceptance.command.temperatureMilliC then 100
              else acceptance.command.requestedDutyPercent := by
  obtain ⟨state, runs, output⟩ :=
    FanState.exists_output takes configured token tachIsLow startedAt events
  refine ⟨state, runs, output.changes, output.settable, ?_⟩
  rintro earlier reading later rfl
  obtain ⟨before, first, rest⟩ := GuardedRun.run_append_eq_some_iff.mp runs
  obtain ⟨after, turned, packeted⟩ := GuardedRun.run_cons_eq_some_iff.mp rest
  obtain ⟨same, runs', accounted⟩ :=
    FanState.exists_output takes configured token tachIsLow startedAt earlier
  obtain rfl : before = same := Option.some.inj (first.symm.trans runs')
  obtain ⟨turn, taken, polled, _⟩ :=
    FanLoop.turn_duty takes reading accounted.inRange accounted.shadow
  rw [FanState.step, taken, Option.map_some] at turned
  obtain rfl := Option.some.inj turned
  have remembered := final_eq_ofAcceptance token none (packets earlier)
  rw [FanState.fan_of_packets packeted, polled, accounted.host,
    show HostState.new = HostState.ofAcceptance none from rfl, remembered]
  cases lastAcceptance none (history token (HostState.ofAcceptance none) (packets earlier)) with
  | none => rfl
  | some acceptance => exact HostState.dutyPercent_remembering _ _ _

/-- A channel is the percentage it runs at. -/
def percentageDriver : PwmDriver ℕ where
  setDuty _ percent := if percent ≤ 100 then some percent else none
  duty := id

theorem percentageDriver_takes : percentageDriver.TakesPercentages := fun _ percent inside =>
  ⟨percent, if_pos inside, rfl⟩

/-- A packet of a host at 50 degrees that asks for 40 percent. -/
def firstRequest : FanEvent :=
  .packet 1000 (Text.bytes "LC2 0123456789abcdef 7 50000 40\n")

/-- The next turn sets what the packet asks for. -/
theorem fan_output_follows_commands_first :
    ∃ state, GuardedRun.run (FanState.step percentageDriver "0123456789abcdef")
        (.start 0 true 0) [firstRequest, .turn ⟨1001, true, 1000, 1000⟩] = some state ∧
      state.fan.pwm = 40 := by
  obtain ⟨state, runs, _, _, follows⟩ := fan_output_follows_commands percentageDriver_takes
    (rfl : percentageDriver.duty 0 = initialPwmDutyPercent) "0123456789abcdef" true 0
    [firstRequest, .turn ⟨1001, true, 1000, 1000⟩]
  have accepted : (lastAcceptance none (history "0123456789abcdef" .new
      (packets [firstRequest]))).map (fun acceptance => (acceptance.command, acceptance.millis)) =
        some (⟨7, 50000, 40⟩, 1000) := by decide
  obtain ⟨⟨command, millis⟩, last, same⟩ := Option.map_eq_some_iff.mp accepted
  obtain ⟨rfl, rfl⟩ := Prod.mk.inj same
  have runsAt := follows [firstRequest] ⟨1001, true, 1000, 1000⟩ [] rfl
  rw [last] at runsAt
  exact ⟨state, runs, runsAt⟩

/-! ## The account of the pulses -/

/-- What the state after some events says about the tachometer, whatever the driver does: the
pulses reported and counted are the edges of the samples. -/
structure FanState.Tally (tachIsLow : Bool) (events : List FanEvent) (state : FanState Channel) :
    Prop where
  level : state.fan.tachWasLow = finalLevel tachIsLow (levels events)
  pulses : (state.reports.map SpeedReport.pulses).sum + state.fan.pulseCount =
    edges tachIsLow (levels events)

/-- An event counts the edge of its sample, if it has one. -/
theorem FanState.Tally.step {token : String} {tachIsLow : Bool} {events : List FanEvent}
    {state next : FanState Channel} (tally : state.Tally tachIsLow events) {event : FanEvent}
    (stepped : state.step driver token event = some next) :
    next.Tally tachIsLow (events ++ [event]) := by
  cases event with
  | packet millis bytes =>
      have sampled : levels (events ++ [.packet millis bytes]) = levels events := by
        simp [levels, FanEvent.toLevel]
      obtain rfl := Option.some.inj stepped
      constructor
      · rw [sampled]
        exact tally.level
      · rw [sampled]
        exact tally.pulses
  | turn reading =>
      have sampled : levels (events ++ [.turn reading]) = levels events ++ [reading.tachIsLow] := by
        simp [levels, FanEvent.toLevel]
      obtain ⟨turn, turned, rfl⟩ := Option.map_eq_some_iff.mp stepped
      obtain ⟨level, sample⟩ := FanLoop.turn_sample turned
      constructor
      · rw [sampled, finalLevel]
        simpa using level
      · have before := tally.pulses
        rw [sampled, edges_append, ← tally.level, ← before]
        rcases sample with ⟨report, pulses, _⟩ | ⟨_, report, pulses, _⟩
        · simp [report, pulses, FanLoop.pulsesWith, Nat.add_assoc]
        · simp [report, pulses, FanLoop.pulsesWith, Nat.add_assoc]

/-- Every run has its account. -/
theorem FanState.tally_of_run {token : String} {pwm : Channel} {tachIsLow : Bool} {startedAt : ℕ}
    {events : List FanEvent} {state : FanState Channel}
    (runs : GuardedRun.run (step driver token) (start pwm tachIsLow startedAt) events =
      some state) : state.Tally tachIsLow events := by
  induction events using List.reverseRecOn generalizing state with
  | nil =>
      obtain rfl := Option.some.inj runs
      exact ⟨rfl, rfl⟩
  | append_singleton events event ih =>
      obtain ⟨between, earlier, last⟩ := GuardedRun.run_append_eq_some_iff.mp runs
      obtain ⟨next, stepped, rests⟩ := GuardedRun.run_cons_eq_some_iff.mp last
      obtain rfl := Option.some.inj rests
      exact (ih earlier).step stepped

/-- **Every pulse is reported once.** Over every run, whatever its delays and the driver, the
pulses of all reports and of the sample in progress are the falling edges that the samples show.
They are no more than the edges of any signal that the samples are of, and all of its edges if
they miss none of its stretches. With a driver that takes percentages every run is possible. -/
theorem tach_pulses_reported_once (driver : PwmDriver Channel) (token : String) (pwm : Channel)
    (tachIsLow : Bool) (startedAt : ℕ) (events : List FanEvent) :
    (driver.TakesPercentages → driver.duty pwm = initialPwmDutyPercent →
        ∃ state, GuardedRun.run (FanState.step driver token) (.start pwm tachIsLow startedAt)
          events = some state) ∧
      ∀ state, GuardedRun.run (FanState.step driver token) (.start pwm tachIsLow startedAt)
          events = some state →
        (state.reports.map SpeedReport.pulses).sum + state.fan.pulseCount =
            edges tachIsLow (levels events) ∧
          ∀ signal : List Bool, (levels events).Sublist signal →
            (state.reports.map SpeedReport.pulses).sum + state.fan.pulseCount ≤
              edges tachIsLow signal ∧
            ((levels events).destutter' (· ≠ ·) tachIsLow = signal.destutter' (· ≠ ·) tachIsLow →
              (state.reports.map SpeedReport.pulses).sum + state.fan.pulseCount =
                edges tachIsLow signal) := by
  constructor
  · intro takes configured
    obtain ⟨state, runs, _⟩ :=
      FanState.exists_output takes configured token tachIsLow startedAt events
    exact ⟨state, runs⟩
  · intro state runs
    have tally := FanState.tally_of_run runs
    refine ⟨tally.pulses, fun signal sampled => ?_⟩
    rw [tally.pulses]
    exact ⟨edges_le_of_sublist sampled tachIsLow, edges_eq_of_destutter_eq⟩

/-! ## The reported speed -/

/-- Every turn comes at least a millisecond after the one before it. -/
def Paced : ℕ → List FanEvent → Prop
  | _, [] => True
  | due, .packet _ _ :: rest => Paced due rest
  | due, .turn reading :: rest =>
      due ≤ reading.measuredAt ∧ Paced (max reading.measuredAt reading.restartedAt + 1000) rest

/-- The pulses of the sample take two turns each, of a millisecond each. -/
def FanLoop.Sampled (fan : FanLoop Channel) (due : ℕ) : Prop :=
  2000 * fan.pulseCount + fan.sampleStartedAt ≤ due + 1000 * fan.tachWasLow.toNat

/-- A turn that is due keeps the pulses within the sample's time, and its report is bounded. -/
theorem FanLoop.Sampled.turn {fan : FanLoop Channel} {due : ℕ} (sampled : fan.Sampled due)
    {host : HostState} {reading : Reading} (onTime : due ≤ reading.measuredAt)
    {turn : Turn Channel} (turned : fan.turn driver host reading = some turn) :
    turn.fan.Sampled (max reading.measuredAt reading.restartedAt + 1000) ∧
      ∀ report, turn.report = some report → report.rpm ≤ 15030 := by
  have counted : 2000 * fan.pulsesWith reading + fan.sampleStartedAt ≤
      reading.measuredAt + 1000 + 1000 * reading.tachIsLow.toNat := by
    have edge := two_mul_rise_add_le fan.tachWasLow reading.tachIsLow
    unfold Sampled at sampled
    unfold pulsesWith
    omega
  have bit := Bool.toNat_le reading.tachIsLow
  obtain ⟨level, ⟨report, pulses, started⟩ | ⟨whole, report, pulses, started⟩⟩ := turn_sample turned
  · refine ⟨?_, fun other same => ?_⟩
    · rw [Sampled, pulses, started, level]
      omega
    · rw [report] at same
      cases same
  · refine ⟨?_, fun other same => ?_⟩
    · rw [Sampled, pulses, started]
      omega
    · rw [report] at same
      obtain rfl := Option.some.inj same
      -- At least 1000 ms have passed, and two pulses take no less than 2 ms.
      unfold sampleIntervalMicros at whole
      have long : 1000 ≤ (reading.measuredAt - fan.sampleStartedAt) / 1000 := by omega
      have few : 2 * fan.pulsesWith reading ≤
          (reading.measuredAt - fan.sampleStartedAt) / 1000 + 2 := by omega
      rw [Nat.max_eq_left (by omega)]
      refine Nat.div_le_of_le_mul ?_
      omega

/-- What is due stays due, and no report exceeds the bound. -/
theorem FanState.reports_bounded {token : String} {due : ℕ} {events : List FanEvent}
    {state reached : FanState Channel} (sampled : state.fan.Sampled due) (paced : Paced due events)
    (bounded : ∀ report ∈ state.reports, report.rpm ≤ 15030)
    (runs : GuardedRun.run (FanState.step driver token) state events = some reached) :
    ∀ report ∈ reached.reports, report.rpm ≤ 15030 := by
  induction events generalizing state due with
  | nil =>
      obtain rfl := Option.some.inj runs
      exact bounded
  | cons event rest ih =>
      obtain ⟨after, stepped, continues⟩ := GuardedRun.run_cons_eq_some_iff.mp runs
      cases event with
      | packet millis bytes =>
          obtain rfl := Option.some.inj stepped
          exact @ih due { state with host := (state.host.accept token bytes millis).2 } sampled
            paced bounded continues
      | turn reading =>
          obtain ⟨turn, turned, rfl⟩ := Option.map_eq_some_iff.mp stepped
          obtain ⟨kept, reported⟩ := sampled.turn paced.1 turned
          refine ih kept paced.2 (fun report member => ?_) continues
          rcases List.mem_append.mp member with earlier | here
          · exact bounded report earlier
          · exact reported report (Option.mem_toList.mp here)

/-- **The loop cannot report more than it can see.** In every run whose turns are at least a
millisecond apart, whatever the tachometer and the driver do, no report exceeds 15030 revolutions
per minute. -/
theorem reported_speed_bounded {token : String} {pwm : Channel} {tachIsLow : Bool} {startedAt : ℕ}
    {events : List FanEvent} {state : FanState Channel} (paced : Paced startedAt events)
    (runs : GuardedRun.run (FanState.step driver token) (.start pwm tachIsLow startedAt) events =
      some state) : ∀ report ∈ state.reports, report.rpm ≤ 15030 := by
  have started : (FanState.start pwm tachIsLow startedAt).fan.Sampled startedAt := by
    simp [FanLoop.Sampled, FanState.start, FanLoop.start]
  exact FanState.reports_bounded started paced nofun runs

/-- Two turns a second apart, at the second of which the tachometer is low. -/
def twoTurns : List FanEvent :=
  [.turn ⟨0, false, 0, 0⟩, .turn ⟨1000, true, 1000000, 1000010⟩]

theorem reported_speed_bounded_two :
    ∃ state, GuardedRun.run (FanState.step percentageDriver "abcdefghijklmnop")
        (.start 0 false 0) twoTurns = some state ∧ state.reports = [⟨1, 30⟩] ∧
      ∀ report ∈ state.reports, report.rpm ≤ 15030 := by
  have paced : Paced 0 twoTurns := ⟨by decide, by decide, trivial⟩
  obtain ⟨state, runs, reports⟩ :
      ∃ state, GuardedRun.run (FanState.step percentageDriver "abcdefghijklmnop")
        (.start 0 false 0) twoTurns = some state ∧ state.reports = [⟨1, 30⟩] := ⟨_, rfl, rfl⟩
  exact ⟨state, runs, reports, reported_speed_bounded paced runs⟩

end LaptopCooler.Firmware
