import LaptopCooler.HostAgent.PolicyRun
import LaptopCooler.HostAgent.SensorDiscovery

/-! # The host agent's loop

The model of `run` in `host-agent/src/main.rs`. In each of its turns the loop meets
the sensors' files, the hardware directory and the clock, any of which may fail it.
Whatever it meets, it never panics, and the packets it sends are numbered
consecutively and report the duties that the fan policy gives for the temperatures
measured (`LaptopCooler.HostAgent.packets_follow_policy`). No time is lost in
turns without a sensor (`LaptopCooler.HostAgent.totalElapsed_readingsFrom`).
-/

namespace LaptopCooler.HostAgent

open Fallible

variable {IoError : Type}

/-! ## One turn -/

/-- `Instant` differences are counted in nanoseconds. -/
def Duration.fromNanos (nanos : ℕ) : Duration where
  secs := nanos / 1000000000
  nanos := nanos % 1000000000
  nanos_lt := Nat.mod_lt _ (by decide)

/-- What a turn of the loop meets: the sensors' files, the hardware directory and the files
again if they could not be read, the clock in nanoseconds, and the result of sending. -/
structure Moment (IoError : Type) where
  files : String → Except IoError String
  hwmon : HwmonRoot IoError
  filesAfter : String → Except IoError String
  nowNanos : ℕ
  sent : Except IoError Unit

/-- Why the loop ends. -/
inductive Ending (IoError : Type) where
  | once
  | discovery (error : IoError)
  | reading (error : ReadingError IoError)
  | sending (error : IoError)
  | panic (fault : Fault)

/-- What the loop carries from one turn to the next. -/
structure SendLoop where
  sensors : List Sensor
  agent : Agent
  lastUpdateNanos : ℕ

/-- The temperature of a turn, if there is a sensor left, and the sensors after it. -/
def measure (sensors : List Sensor) (moment : Moment IoError) :
    Except (Ending IoError) (Option ℤ × List Sensor) :=
  match maximumTemperature moment.files sensors with
  | .ok temperatureMilliC => return (some temperatureMilliC, sensors)
  | .error _ => do
      let found ← (discoverSensors moment.hwmon).mapError .discovery
      let sensors := found.map DiscoveredSensor.sensor
      if sensors.isEmpty then return (none, sensors)
      let temperatureMilliC ← (maximumTemperature moment.filesAfter sensors).mapError .reading
      return (some temperatureMilliC, sensors)

namespace SendLoop

/-- One turn of the loop, and the packet it sends if it measures a temperature. -/
def turn (token : String) (loop : SendLoop) (moment : Moment IoError) :
    Except (Ending IoError) (Option String × SendLoop) := do
  match ← measure loop.sensors moment with
  | (none, sensors) => return (none, { loop with sensors := sensors })
  | (some temperatureMilliC, sensors) =>
      let elapsed := Duration.fromNanos (moment.nowNanos - loop.lastUpdateNanos)
      let (packet, agent) ← (loop.agent.beat token temperatureMilliC elapsed).mapError .panic
      moment.sent.mapError .sending
      return (some packet, ⟨sensors, agent, moment.nowNanos⟩)

/-- The packets sent while the loop meets the moments, and why it ended if it did. -/
def run (token : String) (once : Bool) :
    SendLoop → List (Moment IoError) → List String × Option (Ending IoError)
  | _, [] => ([], none)
  | loop, moment :: rest =>
      match loop.turn token moment with
      | .error ending => ([], some ending)
      | .ok (none, next) => next.run token once rest
      | .ok (some packet, next) =>
          if once then ([packet], some .once)
          else (packet :: (next.run token once rest).1, (next.run token once rest).2)

end SendLoop

/-! ## Starting -/

/-- `initial_sequence`: from the time since the epoch, if the clock is past it. -/
def initialSequence (sinceEpoch : Option Duration) : UInt32 :=
  match sinceEpoch with
  | some duration => UInt32.ofNat duration.nanos ^^^ UInt32.ofNat duration.secs
  | none => 0

/-- The value after the first occurrence of the argument's name that has one. -/
def argumentValue (arguments : List String) (name : String) : Option String :=
  ((arguments.zip arguments.tail).find? fun window => window.1 = name).map Prod.snd

/-- `PathBuf::join` with a relative path -/
def joinPath (base rest : String) : String :=
  if base = "" ∨ base.toList.getLast? = some '/' then base ++ rest else base ++ "/" ++ rest

/-- What the program finds when it starts. -/
structure StartEnvironment (IoError : Type) where
  arguments : List String
  xdgConfigHome : Option String
  home : Option String
  files : String → Except IoError String
  hwmon : HwmonRoot IoError
  socket : Except IoError Unit
  sinceEpoch : Option Duration
  nowNanos : ℕ

/-- Why the program ends before its loop. -/
inductive StartError (IoError : Type) where
  | homeNotSet
  | config (error : ConfigError)
  | noSensors
  | policy (error : PolicyConfigError)
  | io (error : IoError)

def defaultConfigPath (environment : StartEnvironment IoError) :
    Except (StartError IoError) String := do
  match environment.xdgConfigHome with
  | some path => return joinPath path "laptop-cooler/config"
  | none =>
      let home ← okOr environment.home .homeNotSet
      return joinPath home ".config/laptop-cooler/config"

/-- The time of the last update is one interval ago, so that the first turn's is a full one. -/
def firstUpdateNanos (nowNanos : ℕ) (interval : Duration) : ℕ :=
  let intervalNanos := interval.secs * 1000000000 + interval.nanos
  if intervalNanos ≤ nowNanos then nowNanos - intervalNanos else nowNanos

/-- Everything before the loop. Asked for help, the program does nothing else. -/
def start {SocketAddr : Type} (readers : ValueReaders SocketAddr)
    (environment : StartEnvironment IoError) :
    Except (StartError IoError) (Option (AgentConfig SocketAddr × Bool × SendLoop)) := do
  if "--help" ∈ environment.arguments then return none
  let defaultPath ← defaultConfigPath environment
  let configPath := (argumentValue environment.arguments "--config").getD defaultPath
  let contents ← (environment.files configPath).mapError .io
  let config ← (parseConfig readers contents).mapError .config
  let sensors ← (discoverSensors environment.hwmon).mapError .io
  if sensors.isEmpty then throw .noSensors
  environment.socket.mapError .io
  let policy ← (FanPolicy.new config.policy).mapError .policy
  return some (config, "--once" ∈ environment.arguments,
    { sensors := sensors.map DiscoveredSensor.sensor
      agent := ⟨policy, initialSequence environment.sinceEpoch⟩
      lastUpdateNanos := firstUpdateNanos environment.nowNanos config.interval })

/-! ## What the loop sends -/

/-- A temperature measured in a turn whose packet was sent, and the time of the turn. -/
structure Measurement where
  temperatureMilliC : ℤ
  nowNanos : ℕ

/-- The temperatures that the moments give, whatever the policy does with them. -/
def measurements (once : Bool) : List Sensor → List (Moment IoError) → List Measurement
  | _, [] => []
  | sensors, moment :: rest =>
      match measure sensors moment with
      | .error _ => []
      | .ok (none, after) => measurements once after rest
      | .ok (some temperatureMilliC, after) =>
          match moment.sent with
          | .error _ => []
          | .ok _ => ⟨temperatureMilliC, moment.nowNanos⟩ ::
              if once then [] else measurements once after rest

/-- The readings that the policy is updated with: each lasts since the one before. -/
def readingsFrom (lastUpdateNanos : ℕ) : List Measurement → List Reading
  | [] => []
  | measured :: rest =>
      (measured.temperatureMilliC, .fromNanos (measured.nowNanos - lastUpdateNanos)) ::
        readingsFrom measured.nowNanos rest

/-- The packets of a run: consecutive numbers, and a duty for every temperature. -/
def packetsFor (token : String) (first : UInt32) (measured : List Measurement)
    (duties : List ℕ) : List String :=
  (measured.zip duties).mapIdx fun index pair =>
    formatPacket token (first + UInt32.ofNat index) pair.1.temperatureMilliC pair.2

theorem packetsFor_cons (token : String) (first : UInt32) (measured : Measurement)
    (rest : List Measurement) (duty : ℕ) (duties : List ℕ) :
    packetsFor token first (measured :: rest) (duty :: duties) =
      formatPacket token first measured.temperatureMilliC duty ::
        packetsFor token (first + 1) rest duties := by
  have advanced : ∀ index : ℕ, first + UInt32.ofNat (index + 1) =
      first + 1 + UInt32.ofNat index := by
    intro index
    rw [UInt32.ofNat_add, UInt32.add_assoc, UInt32.add_comm (UInt32.ofNat index)]
    rfl
  simp only [packetsFor, List.zip_cons_cons, List.mapIdx_cons, advanced]
  rw [show first + UInt32.ofNat 0 = first from UInt32.add_zero first]

theorem packetsFor_getElem? (token : String) (first : UInt32) (measured : List Measurement)
    (duties : List ℕ) (index : ℕ) :
    (packetsFor token first measured duties)[index]? = (measured.zip duties)[index]?.map fun pair =>
      formatPacket token (first + UInt32.ofNat index) pair.1.temperatureMilliC pair.2 :=
  List.getElem?_mapIdx

variable {token : String} {once : Bool}

/-- Measuring does not panic. -/
theorem measure_ne_panic (sensors : List Sensor) (moment : Moment IoError) (fault : Fault) :
    measure sensors moment ≠ .error (.panic fault) := by
  intro panicked
  unfold measure at panicked
  split at panicked
  · cases panicked
  · cases found : discoverSensors moment.hwmon with
    | error error =>
        rw [found] at panicked
        cases panicked
    | ok discovered =>
        simp only [found, Except.mapError, ok_bind] at panicked
        split at panicked
        · cases panicked
        · cases again : maximumTemperature moment.filesAfter
            (discovered.map DiscoveredSensor.sensor) with
          | error error =>
              rw [again] at panicked
              cases panicked
          | ok temperatureMilliC =>
              rw [again] at panicked
              cases panicked

/-- A turn that measures a temperature and sends it updates the policy. -/
theorem SendLoop.turn_of_measured {loop : SendLoop} (invariant : loop.agent.policy.Invariant)
    {moment : Moment IoError} {temperatureMilliC : ℤ} {sensors : List Sensor}
    (measured : measure loop.sensors moment = .ok (some temperatureMilliC, sensors)) :
    let elapsed := Duration.fromNanos (moment.nowNanos - loop.lastUpdateNanos)
    let policy := loop.agent.policy.next temperatureMilliC elapsed
    loop.turn token moment = moment.sent.mapError .sending >>= fun _ =>
      .ok (some (formatPacket token loop.agent.sequence temperatureMilliC
        policy.commandedDutyPercent), ⟨sensors, ⟨policy, loop.agent.sequence + 1⟩,
          moment.nowNanos⟩) := by
  simp only [turn, measured, ok_bind, Agent.beat, FanPolicy.update_eq invariant, Except.mapError,
    pure, Except.pure]

/-- **The loop refines the policy.** While its policy satisfies the invariant the loop does not
panic, and it sends the duties that the policy gives for the measured temperatures. -/
theorem SendLoop.run_eq {loop : SendLoop} (invariant : loop.agent.policy.Invariant)
    (moments : List (Moment IoError)) :
    (loop.run token once moments).1 =
        packetsFor token loop.agent.sequence (measurements once loop.sensors moments)
          ((loop.agent.policy.states (readingsFrom loop.lastUpdateNanos
            (measurements once loop.sensors moments))).map FanPolicy.commandedDutyPercent) ∧
      ∀ fault, (loop.run token once moments).2 ≠ some (.panic fault) := by
  induction moments generalizing loop with
  | nil => exact ⟨rfl, fun fault same => by cases same⟩
  | cons moment rest ih =>
      unfold run measurements
      cases measured : measure loop.sensors moment with
      | error ending =>
          have ended : loop.turn token moment = .error ending := by
            rw [turn, measured]
            rfl
          rw [ended]
          refine ⟨rfl, fun fault same => ?_⟩
          obtain rfl := Option.some.inj same
          exact measure_ne_panic loop.sensors moment fault measured
      | ok result =>
          obtain ⟨temperature, after⟩ := result
          cases temperature with
          | none =>
              have skipped :
                  loop.turn token moment = .ok (none, { loop with sensors := after }) := by
                rw [turn, measured]
                rfl
              rw [skipped]
              exact @ih { loop with sensors := after } invariant
          | some temperatureMilliC =>
              have turned := @turn_of_measured _ token _ invariant _ _ _ measured
              cases delivered : moment.sent with
              | error error =>
                  rw [delivered] at turned
                  rw [turned]
                  exact ⟨rfl, fun fault same => by cases same⟩
              | ok _ =>
                  rw [delivered] at turned
                  rw [turned]
                  have preserved := FanPolicy.next_invariant invariant temperatureMilliC
                    (.fromNanos (moment.nowNanos - loop.lastUpdateNanos))
                  cases once with
                  | true =>
                      refine ⟨?_, fun fault same => by cases same⟩
                      simp only [if_true, readingsFrom, FanPolicy.states, List.map_cons,
                        List.map_nil, packetsFor_cons]
                      rfl
                  | false =>
                      obtain ⟨packets, ended⟩ := @ih ⟨after, ⟨_, _⟩, moment.nowNanos⟩ preserved
                      simp only [Except.mapError, ok_bind, Bool.false_eq_true, if_false,
                        readingsFrom, FanPolicy.states, List.map_cons, packetsFor_cons]
                      exact ⟨congrArg _ packets, ended⟩

/-! ## Time -/

@[simp] theorem Duration.asSecs_fromNanos (nanos : ℕ) :
    (Duration.fromNanos nanos).asSecs = nanos / 1000000000 := by
  have whole : ((1000000000 * (nanos / 1000000000) + nanos % 1000000000 : ℕ) : ℚ) = nanos :=
    congrArg Nat.cast (Nat.div_add_mod nanos 1000000000)
  push_cast at whole
  rw [Duration.asSecs, Duration.fromNanos, ← whole]
  field_simp

/-- The measurements are made at the times of some of the moments. -/
theorem measurements_sublist (sensors : List Sensor) (moments : List (Moment IoError)) :
    ((measurements once sensors moments).map Measurement.nowNanos).Sublist
      (moments.map Moment.nowNanos) := by
  induction moments generalizing sensors with
  | nil => exact List.Sublist.slnil
  | cons moment rest ih =>
      unfold measurements
      split
      · exact List.nil_sublist _
      · exact (ih _).cons _
      · split
        · exact List.nil_sublist _
        · cases once with
          | true => exact (List.nil_sublist _).cons_cons _
          | false => exact (ih _).cons_cons _

/-- **No time is lost or counted twice.** On a clock that does not go back, the readings up to a
measurement last as long as the time since the first update. -/
theorem totalElapsed_readingsFrom {lastUpdateNanos : ℕ} {measured : List Measurement}
    (ordered : (lastUpdateNanos :: measured.map Measurement.nowNanos).Pairwise (· ≤ ·))
    {index : ℕ} {measurement : Measurement} (here : measured[index]? = some measurement) :
    totalElapsed ((readingsFrom lastUpdateNanos measured).take (index + 1)) =
      ((measurement.nowNanos - lastUpdateNanos : ℕ) : ℚ) / 1000000000 := by
  induction measured generalizing lastUpdateNanos index with
  | nil => cases here
  | cons first rest ih =>
      rw [List.map_cons, List.pairwise_cons] at ordered
      obtain ⟨after, later⟩ := ordered
      have before := after _ List.mem_cons_self
      rw [readingsFrom, List.take_succ_cons, totalElapsed_cons, Duration.asSecs_fromNanos]
      cases index with
      | zero =>
          obtain rfl := Option.some.inj here
          rw [List.take_zero, totalElapsed_nil, add_zero]
      | succ index =>
          rw [List.getElem?_cons_succ] at here
          have since := (List.pairwise_cons.mp later).1 _
            (List.mem_map_of_mem (List.mem_of_getElem? here))
          rw [ih later here, ← add_div, ← Nat.cast_add]
          congr 2
          omega

/-! ## The program -/

/-- A measured temperature is the maximum of the sensors that the turn leaves. -/
theorem exists_maximum_of_measure {sensors after : List Sensor} {moment : Moment IoError}
    {temperatureMilliC : ℤ}
    (measured : measure sensors moment = .ok (some temperatureMilliC, after)) :
    ∃ files, (files = moment.files ∨ files = moment.filesAfter) ∧
      maximumTemperature files after = .ok temperatureMilliC := by
  unfold measure at measured
  split at measured
  · next reading =>
      obtain ⟨same, rfl⟩ := Prod.mk.inj (Except.ok.inj measured)
      obtain rfl := Option.some.inj same
      exact ⟨moment.files, Or.inl rfl, reading⟩
  · obtain ⟨found, _, continued⟩ := bind_eq_ok_iff.mp measured
    simp only [] at continued
    split at continued
    · cases continued
    · obtain ⟨again, reading, returned⟩ := bind_eq_ok_iff.mp continued
      obtain ⟨same, rfl⟩ := Prod.mk.inj (Except.ok.inj returned)
      obtain rfl := Option.some.inj same
      exact ⟨moment.filesAfter, Or.inr rfl, mapError_eq_ok_iff.mp reading⟩

/-- Only plausible temperatures are measured. -/
theorem plausible_of_mem_measurements {sensors : List Sensor} {moments : List (Moment IoError)}
    {measurement : Measurement} (member : measurement ∈ measurements once sensors moments) :
    minPlausibleMilliC ≤ measurement.temperatureMilliC ∧
      measurement.temperatureMilliC ≤ maxPlausibleMilliC := by
  induction moments generalizing sensors with
  | nil => cases member
  | cons moment rest ih =>
      unfold measurements at member
      split at member
      · cases member
      · exact ih member
      · next measured =>
          split at member
          · cases member
          · rcases List.mem_cons.mp member with rfl | later
            · obtain ⟨files, _, reading⟩ := exists_maximum_of_measure measured
              obtain ⟨⟨_, _, _, inRange⟩, _⟩ := maximumTemperature_spec reading
              exact inRange
            · cases once with
              | true => cases later
              | false => exact ih later

theorem firstUpdateNanos_le (nowNanos : ℕ) (interval : Duration) :
    firstUpdateNanos nowNanos interval ≤ nowNanos := by
  simp only [firstUpdateNanos]
  split <;> omega

/-- The loop starts with a sensor, a new policy, and an update in the past. -/
theorem of_start {SocketAddr : Type} {readers : ValueReaders SocketAddr}
    {environment : StartEnvironment IoError} {config : AgentConfig SocketAddr} {loop : SendLoop}
    (started : start readers environment = .ok (some (config, once, loop))) :
    (∃ contents, parseConfig readers contents = .ok config) ∧ loop.sensors ≠ [] ∧
      FanPolicy.new config.policy = .ok loop.agent.policy ∧
      loop.lastUpdateNanos = firstUpdateNanos environment.nowNanos config.interval := by
  unfold start at started
  split at started
  · cases started
  · simp only [bind_eq_ok_iff, mapError_eq_ok_iff, throw, throwThe, MonadExceptOf.throw, error_bind,
      guard_eq_ok_iff] at started
    obtain ⟨_, _, contents, _, _, readable, sensors, _, present, _, _, policy, created,
      returned⟩ := started
    obtain ⟨rfl, _, rfl⟩ := Option.some.inj (Except.ok.inj returned)
    exact ⟨⟨contents, readable⟩, by simpa using present, created, rfl⟩

/-- **The packets follow the policy.** Once it has started, the loop does not panic, whatever it
meets. Its packets have consecutive numbers; the temperatures are plausible, and the duties are
those of the policy's run over them. A temperature counts for the time since the one before it,
also if there was no sensor meanwhile, and the first for the time since one interval before the
start, or since the start if the clock does not reach back that far. -/
theorem packets_follow_policy {SocketAddr : Type} {readers : ValueReaders SocketAddr}
    {environment : StartEnvironment IoError} {config : AgentConfig SocketAddr} {loop : SendLoop}
    (started : start readers environment = .ok (some (config, once, loop)))
    (moments : List (Moment IoError)) :
    let measured := measurements once loop.sensors moments
    let readings := readingsFrom loop.lastUpdateNanos measured
    ∃ policy duties last, FanPolicy.new config.policy = .ok policy ∧
      policy.run readings = .ok (duties, last) ∧
      (loop.run config.token once moments).1 =
        packetsFor config.token loop.agent.sequence measured duties ∧
      (∀ fault, (loop.run config.token once moments).2 ≠ some (.panic fault)) ∧
      (∀ measurement ∈ measured, minPlausibleMilliC ≤ measurement.temperatureMilliC ∧
        measurement.temperatureMilliC ≤ maxPlausibleMilliC) ∧
      loop.lastUpdateNanos = firstUpdateNanos environment.nowNanos config.interval ∧
      ((environment.nowNanos :: moments.map Moment.nowNanos).Pairwise (· ≤ ·) →
        ∀ index measurement, measured[index]? = some measurement →
          totalElapsed (readings.take (index + 1)) =
            ((measurement.nowNanos - loop.lastUpdateNanos : ℕ) : ℚ) / 1000000000) := by
  obtain ⟨_, _, created, begun⟩ := of_start started
  have invariant := (FanPolicy.new_invariant created).1
  obtain ⟨packets, running⟩ := @SendLoop.run_eq _ config.token once loop invariant moments
  refine ⟨loop.agent.policy, _, _, created, FanPolicy.run_eq invariant _, packets, running, ?_,
    begun, ?_⟩
  · intro measurement member
    exact plausible_of_mem_measurements member
  · intro ordered index measurement here
    refine totalElapsed_readingsFrom ?_ here
    obtain ⟨first, later⟩ := List.pairwise_cons.mp ordered
    have times := @measurements_sublist _ once loop.sensors moments
    refine List.pairwise_cons.mpr ⟨?_, later.sublist times⟩
    intro nanos member
    have bounded : loop.lastUpdateNanos ≤ environment.nowNanos := by
      rw [begun]
      exact firstUpdateNanos_le _ _
    exact bounded.trans (first nanos (times.subset member))

/-- A hardware directory with one sensor. -/
def sampleHwmon : HwmonRoot Unit where
  entries := .ok [.ok {
    fileName := "hwmon0"
    name := .ok "coretemp"
    files := .ok [.ok (some "temp1_input")]
    read := fun _ => .error ()
    distinct := by
      intro listed same
      obtain rfl := Except.ok.inj same
      decide }]
  distinct := by
    intro listed same
    obtain rfl := Except.ok.inj same
    decide

def sampleEnvironment : StartEnvironment Unit where
  arguments := []
  xdgConfigHome := none
  home := some "/root"
  files := fun _ => .ok "token=abcdefghijklmnop\n"
  hwmon := sampleHwmon
  socket := .ok ()
  sinceEpoch := none
  nowNanos := 5000000000

/-- The loop that the sample starts, with its sensor. -/
def sampleLoop (sensor : Sensor) : SendLoop where
  sensors := [sensor]
  agent := ⟨.fresh .default, initialSequence none⟩
  lastUpdateNanos := firstUpdateNanos 5000000000 (sampleConfig 1000).interval

theorem start_sample : ∃ sensor, start sampleReaders sampleEnvironment =
    .ok (some (sampleConfig 1000, false, sampleLoop sensor)) := by
  obtain ⟨found, discovered⟩ : ∃ found, discoverSensors sampleHwmon = .ok [found] :=
    ⟨_, congrArg Except.ok (List.mergeSort_singleton _)⟩
  have created : FanPolicy.new (sampleConfig 1000).policy = .ok (.fresh .default) :=
    FanPolicy.new_eq_ok_iff.mpr ⟨FanPolicyConfig.default_valid, rfl⟩
  refine ⟨found.sensor, ?_⟩
  simp only [start, sampleEnvironment, List.not_mem_nil, if_false, defaultConfigPath, okOr_some,
    ok_bind, pure, Except.pure, Except.mapError, parseConfig_minimal, discovered,
    List.isEmpty_cons, Bool.false_eq_true, created, decide_false, List.map_cons, List.map_nil,
    sampleLoop]

/-- A turn in which every file reads 95 degrees. -/
def hotMoment : Moment Unit where
  files := fun _ => .ok "95000\n"
  hwmon := sampleHwmon
  filesAfter := fun _ => .error ()
  nowNanos := 5000000000
  sent := .ok ()

/-- **A first packet.** The agent with one sensor at 95 degrees asks for full speed. -/
theorem packets_follow_policy_hot : ∃ sensor,
    ((sampleLoop sensor).run "abcdefghijklmnop" false [hotMoment]).1 =
      [formatPacket "abcdefghijklmnop" 0 95000 100] := by
  obtain ⟨sensor, started⟩ := start_sample
  obtain ⟨policy, duties, last, created, ran, packets, _⟩ :=
    packets_follow_policy started [hotMoment]
  obtain ⟨_, rfl⟩ := FanPolicy.new_eq_ok_iff.mp created
  have measured : measurements false (sampleLoop sensor).sensors [hotMoment] =
      [⟨95000, 5000000000⟩] := by rfl
  rw [measured] at ran packets
  have full : (FanPolicy.fresh (sampleConfig 1000).policy).run
      (readingsFrom (sampleLoop sensor).lastUpdateNanos [⟨95000, 5000000000⟩]) =
        .ok ([100], (FanPolicy.fresh .default).emergency 95000) := by rfl
  obtain ⟨rfl, _⟩ := Prod.mk.inj (Except.ok.inj (full.symm.trans ran))
  rw [packetsFor_cons] at packets
  exact ⟨sensor, packets⟩

end LaptopCooler.HostAgent
