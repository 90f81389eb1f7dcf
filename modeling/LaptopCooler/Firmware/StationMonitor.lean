import LaptopCooler.Firmware.ConfigProvenance

/-! # Losing the network

The model of the Wi-Fi connection in `src/main.rs`: `main` gives the stored network
one attempt and otherwise opens the setup page, and `wifi_station_monitor` tries a
lost network again before it restarts the controller. It does so only after three
attempts in a row without success (`LaptopCooler.Firmware.restarts_after_three_failures`),
and an outage leads to the setup page in bounded time
(`LaptopCooler.Firmware.outage_falls_back`). All of it is a run of the controller
that leaves the flash alone (`LaptopCooler.Firmware.outages_keep_configuration`).
The timer library is given, and only the bound on the time needs its timers to be
exact.
-/

namespace LaptopCooler.Firmware

open NorFlash

variable {ι FlashError : Type}

/-! ## Attempts -/

def connectTimeoutMillis : ℕ := 20000
def reconnectPauseMillis : ℕ := 2000

/-- The number of attempts before a restart. -/
abbrev reconnectAttempts : ℕ := 3

instance : NeZero reconnectAttempts := ⟨by decide⟩

/-- `with_timeout` of the timer library on the attempts of `connect_async`: the milliseconds that
an attempt takes, and whether it connects, unless the limit comes first. -/
structure ConnectTimer (Attempt : Type) where
  withTimeout : ℕ → Attempt → ℕ × Option Bool

/-- Timers are exact, and an attempt that is never answered runs out. -/
structure ConnectTimer.Punctual {Attempt : Type} (timer : ConnectTimer Attempt) : Prop where
  inTime : ∀ limitMillis attempt, (timer.withTimeout limitMillis attempt).1 ≤ limitMillis
  silent : ∃ attempt, ∀ limitMillis, timer.withTimeout limitMillis attempt = (limitMillis, none)

variable {Attempt : Type}

def ConnectTimer.connects (timer : ConnectTimer Attempt) (attempt : Attempt) : Bool :=
  (timer.withTimeout connectTimeoutMillis attempt).2 = some true

def ConnectTimer.millis (timer : ConnectTimer Attempt) (attempt : Attempt) : ℕ :=
  (timer.withTimeout connectTimeoutMillis attempt).1

/-! ## The connection -/

/-- Where `wifi_station_monitor` is; attempts count from zero. -/
inductive Monitor where
  /-- At the head of its loop. -/
  | checking
  | waitingForDisconnect
  | pausing (attempt : Fin reconnectAttempts)
  | connecting (attempt : Fin reconnectAttempts)

/-- Where the controller is with its network. -/
inductive Link where
  | restarting
  | booting (config : DeviceConfig)
  | setup
  | station (config : DeviceConfig) (host : HostState) (monitor : Monitor)

inductive LinkEvent (Attempt FlashError : Type) where
  /-- The start up to the attempt or to the setup page. -/
  | started (schedule : ℕ → Outcome FlashError)
  | attempted (attempt : Attempt)
  | checked (connected : Bool)
  /-- `wait_for_disconnect_async` returns, with an error or without. -/
  | disconnected
  | paused
  | received (millis : ℕ) (packet : List UInt8)

/-- After an attempt without success: the pause before the next one, or the reset
after the last. -/
def Link.retry (config : DeviceConfig) (host : HostState) (attempt : Fin reconnectAttempts) :
    Link :=
  if another : attempt.val + 1 < reconnectAttempts then
    .station config host (.pausing ⟨attempt.val + 1, another⟩)
  else .restarting

def Link.step (timer : ConnectTimer Attempt) (memory : Memory) (link : Link)
    (event : LinkEvent Attempt FlashError) : Option Link :=
  match event, link with
  | .started schedule, .restarting =>
      match (load ⟨memory, schedule⟩).1 with
      | .error .powerLoss => none
      | loaded =>
          match storedConfig loaded with
          | some config => some (.booting config)
          | none => some .setup
  | .attempted attempt, .booting config =>
      some (if timer.connects attempt then .station config .new .checking else .setup)
  | .checked connected, .station config host .checking =>
      some (.station config host (if connected then .waitingForDisconnect else .pausing 0))
  | .disconnected, .station config host .waitingForDisconnect =>
      some (.station config host (.pausing 0))
  | .paused, .station config host (.pausing attempt) =>
      some (.station config host (.connecting attempt))
  | .attempted attempt, .station config host (.connecting number) =>
      some (if timer.connects attempt then .station config host .checking
        else .retry config host number)
  | .received millis packet, .station config host monitor =>
      some (.station config (host.accept config.token.text packet millis).2 monitor)
  | _, _ => none

/-- The steps of a connection, each with what it needs. -/
inductive Link.Step (timer : ConnectTimer Attempt) (memory : Memory) :
    Link → LinkEvent Attempt FlashError → Link → Prop where
  | found {schedule : ℕ → Outcome FlashError} {config : DeviceConfig}
      (stored : storedConfig (load ⟨memory, schedule⟩).1 = some config) :
      Step timer memory .restarting (.started schedule) (.booting config)
  | missing {schedule : ℕ → Outcome FlashError}
      (powered : (load ⟨memory, schedule⟩).1 ≠ .error .powerLoss)
      (stored : storedConfig (load ⟨memory, schedule⟩).1 = none) :
      Step timer memory .restarting (.started schedule) .setup
  | joined {config : DeviceConfig} {attempt : Attempt} (connects : timer.connects attempt = true) :
      Step timer memory (.booting config) (.attempted attempt) (.station config .new .checking)
  | fellBack {config : DeviceConfig} {attempt : Attempt} (fails : timer.connects attempt = false) :
      Step timer memory (.booting config) (.attempted attempt) .setup
  | up {config : DeviceConfig} {host : HostState} :
      Step timer memory (.station config host .checking) (.checked true)
        (.station config host .waitingForDisconnect)
  | down {config : DeviceConfig} {host : HostState} :
      Step timer memory (.station config host .checking) (.checked false)
        (.station config host (.pausing 0))
  | disconnected {config : DeviceConfig} {host : HostState} :
      Step timer memory (.station config host .waitingForDisconnect) .disconnected
        (.station config host (.pausing 0))
  | paused {config : DeviceConfig} {host : HostState} {number : Fin reconnectAttempts} :
      Step timer memory (.station config host (.pausing number)) .paused
        (.station config host (.connecting number))
  | rejoined {config : DeviceConfig} {host : HostState} {number : Fin reconnectAttempts}
      {attempt : Attempt} (connects : timer.connects attempt = true) :
      Step timer memory (.station config host (.connecting number)) (.attempted attempt)
        (.station config host .checking)
  | retried {config : DeviceConfig} {host : HostState} {number : Fin reconnectAttempts}
      {attempt : Attempt} (fails : timer.connects attempt = false)
      (another : number.val + 1 < reconnectAttempts) :
      Step timer memory (.station config host (.connecting number)) (.attempted attempt)
        (.station config host (.pausing ⟨number.val + 1, another⟩))
  | gaveUp {config : DeviceConfig} {host : HostState} {number : Fin reconnectAttempts}
      {attempt : Attempt} (fails : timer.connects attempt = false)
      (last : number.val + 1 = reconnectAttempts) :
      Step timer memory (.station config host (.connecting number)) (.attempted attempt) .restarting
  | received {config : DeviceConfig} {host : HostState} {monitor : Monitor} {millis : ℕ}
      {packet : List UInt8} :
      Step timer memory (.station config host monitor) (.received millis packet)
        (.station config (host.accept config.token.text packet millis).2 monitor)

/-- **What one step can do.** -/
theorem Link.step_cases {timer : ConnectTimer Attempt} {memory : Memory} {link next : Link}
    {event : LinkEvent Attempt FlashError}
    (stepped : link.step timer memory event = some next) :
    Link.Step timer memory link event next := by
  unfold step at stepped
  split at stepped
  next schedule =>
    split at stepped
    · cases stepped
    next powered =>
      split at stepped
      next config stored =>
        obtain rfl := Option.some.inj stepped
        exact .found stored
      next stored =>
        obtain rfl := Option.some.inj stepped
        exact .missing powered stored
  next attempt config =>
    obtain rfl := Option.some.inj stepped
    cases connects : timer.connects attempt with
    | true => exact .joined connects
    | false => exact .fellBack connects
  next connected config host =>
    obtain rfl := Option.some.inj stepped
    cases connected with
    | true => exact .up
    | false => exact .down
  next =>
    obtain rfl := Option.some.inj stepped
    exact .disconnected
  next =>
    obtain rfl := Option.some.inj stepped
    exact .paused
  next attempt config host number =>
    obtain rfl := Option.some.inj stepped
    cases connects : timer.connects attempt with
    | true => exact .rejoined connects
    | false =>
        by_cases another : number.val + 1 < reconnectAttempts
        · rw [if_neg Bool.false_ne_true, retry, dif_pos another]
          exact .retried connects another
        · rw [if_neg Bool.false_ne_true, retry, dif_neg another]
          exact .gaveUp connects (le_antisymm number.isLt (not_lt.mp another))
  next =>
    obtain rfl := Option.some.inj stepped
    exact .received
  next => cases stepped

/-! ## Outages -/

/-- Whether the event is an attempt that connects. -/
def LinkEvent.connects (timer : ConnectTimer Attempt) : LinkEvent Attempt FlashError → Bool
  | .attempted attempt => timer.connects attempt
  | _ => false

/-- Whether the event is a step of the connection and not a packet. -/
def LinkEvent.isOfLink : LinkEvent Attempt FlashError → Bool
  | .received .. => false
  | _ => true

/-- The time that an event spends on reconnecting. -/
def LinkEvent.millis (timer : ConnectTimer Attempt) : LinkEvent Attempt FlashError → ℕ
  | .attempted attempt => timer.millis attempt
  | .paused => reconnectPauseMillis
  | _ => 0

/-- The longest time that attempts without success take from here to the setup page. -/
def Link.remainingMillis : Link → ℕ
  | .setup => 0
  | .restarting | .booting _ => connectTimeoutMillis
  | .station _ _ (.connecting attempt) =>
      connectTimeoutMillis + (reconnectAttempts - (attempt.val + 1)) *
        (reconnectPauseMillis + connectTimeoutMillis) + connectTimeoutMillis
  | .station _ _ (.pausing attempt) =>
      (reconnectAttempts - attempt.val) * (reconnectPauseMillis + connectTimeoutMillis) +
        connectTimeoutMillis
  | .station _ _ _ =>
      reconnectAttempts * (reconnectPauseMillis + connectTimeoutMillis) + connectTimeoutMillis

/-- The number of steps without success from here to the setup page. -/
def Link.remainingSteps : Link → ℕ
  | .setup => 0
  | .booting _ => 1
  | .restarting => 2
  | .station _ _ (.connecting attempt) => 2 * (reconnectAttempts - (attempt.val + 1)) + 3
  | .station _ _ (.pausing attempt) => 2 * (reconnectAttempts - attempt.val) + 2
  | .station _ _ .waitingForDisconnect => 2 * reconnectAttempts + 3
  | .station _ _ .checking => 2 * reconnectAttempts + 4

/-- Three pauses and four attempts take 86 seconds. -/
theorem Link.remainingMillis_le (link : Link) : link.remainingMillis ≤ 86000 := by
  unfold remainingMillis reconnectAttempts reconnectPauseMillis connectTimeoutMillis
  split <;> omega

theorem Link.remainingSteps_le (link : Link) : link.remainingSteps ≤ 10 := by
  unfold remainingSteps reconnectAttempts
  split <;> omega

variable {timer : ConnectTimer Attempt} {memory : Memory} {link reached : Link}
  {events : List (LinkEvent Attempt FlashError)}

/-- A step that does not connect is paid for. -/
theorem Link.step_pays (punctual : timer.Punctual) {event : LinkEvent Attempt FlashError}
    {next : Link} (fails : event.connects timer = false)
    (stepped : link.step timer memory event = some next) :
    next.remainingMillis + event.millis timer ≤ link.remainingMillis ∧
      next.remainingSteps + event.isOfLink.toNat ≤ link.remainingSteps := by
  have inTime : ∀ attempt : Attempt, timer.millis attempt ≤ 20000 := punctual.inTime 20000
  cases Link.step_cases stepped with
  | joined connects | rejoined connects => exact Bool.noConfusion (connects.symm.trans fails)
  | @received _ _ monitor =>
      cases monitor <;>
        simp [remainingMillis, remainingSteps, LinkEvent.millis, LinkEvent.isOfLink]
  | @fellBack _ attempt | @retried _ _ _ attempt | @gaveUp _ _ _ attempt =>
      have := inTime attempt
      simp only [remainingMillis, remainingSteps, LinkEvent.millis, LinkEvent.isOfLink,
        reconnectAttempts, reconnectPauseMillis, connectTimeoutMillis, Bool.toNat_true] at *
      omega
  | found | missing | up | down | disconnected | paused =>
      simp only [remainingMillis, remainingSteps, LinkEvent.millis, LinkEvent.isOfLink,
        reconnectAttempts, reconnectPauseMillis, connectTimeoutMillis, Bool.toNat_true] at *
      omega

/-- Outside setup mode the connection goes on, also when nothing answers. -/
theorem Link.exists_step (punctual : timer.Punctual) (memory : Memory) (link : Link)
    (open_ : link ≠ .setup) :
    ∃ (event : LinkEvent Attempt FlashError) (next : Link), event.connects timer = false ∧
      event.isOfLink = true ∧ link.step timer memory event = some next := by
  obtain ⟨attempt, unanswered⟩ := punctual.silent
  have fails : timer.connects attempt = false := by
    rw [ConnectTimer.connects, unanswered]
    rfl
  cases link with
  | restarting =>
      -- The reads of the start complete, whatever they find.
      have read : (load (⟨memory, fun _ => .completes⟩ : Device FlashError)).1 =
          .ok ((latestIn memory).map StoredConfig.config) := load_completes fun _ _ => rfl
      refine ⟨.started fun _ => .completes, ?_⟩
      cases found : (latestIn memory).map StoredConfig.config with
      | none => exact ⟨.setup, rfl, rfl, by simp only [step, read, found, storedConfig]⟩
      | some config =>
          exact ⟨.booting config, rfl, rfl, by simp only [step, read, found, storedConfig]⟩
  | booting config =>
      exact ⟨.attempted attempt, .setup, fails, rfl, by rw [step, fails, if_neg Bool.false_ne_true]⟩
  | setup => exact (open_ rfl).elim
  | station config host monitor =>
      cases monitor with
      | checking => exact ⟨.checked false, _, rfl, rfl, rfl⟩
      | waitingForDisconnect => exact ⟨.disconnected, _, rfl, rfl, rfl⟩
      | pausing number => exact ⟨.paused, _, rfl, rfl, rfl⟩
      | connecting number =>
          exact ⟨.attempted attempt, .retry config host number, fails, rfl,
            by rw [step, fails, if_neg Bool.false_ne_true]⟩

/-- **An outage ends at the setup page.** With exact timers, as long as no attempt connects, the
connection takes at most ten steps, and at most 86 seconds beside the restart and the wait for the
disconnect, and it does not come to rest before the setup page. -/
theorem outage_falls_back (punctual : timer.Punctual)
    (runs : GuardedRun.run (Link.step timer memory) link events = some reached)
    (outage : ∀ event ∈ events, event.connects timer = false) :
    (events.map (LinkEvent.millis timer)).sum ≤ 86000 ∧ events.countP LinkEvent.isOfLink ≤ 10 ∧
      (reached = .setup ∨ ∃ (event : LinkEvent Attempt FlashError) (next : Link),
        event.connects timer = false ∧ event.isOfLink = true ∧
          reached.step timer memory event = some next) := by
  have paidMillis : reached.remainingMillis + (events.map (LinkEvent.millis timer)).sum ≤
      link.remainingMillis :=
    GuardedRun.run_budget (fun _ _ _ fails stepped => (Link.step_pays punctual fails stepped).1)
      outage runs
  have paidSteps : reached.remainingSteps + events.countP LinkEvent.isOfLink ≤
      link.remainingSteps :=
    GuardedRun.run_countP_le (fun _ _ _ fails stepped => (Link.step_pays punctual fails stepped).2)
      outage runs
  have inTime := link.remainingMillis_le
  have inSteps := link.remainingSteps_le
  refine ⟨by omega, by omega, ?_⟩
  by_cases rests : reached = .setup
  · exact Or.inl rests
  · exact Or.inr (reached.exists_step punctual memory rests)

/-! ## Restarts -/

/-- The steps of attempts, each after its pause. -/
def retries (attempts : List Attempt) : List (LinkEvent Attempt FlashError) :=
  attempts.flatMap fun attempt => [.paused, .attempted attempt]

/-- The last attempt comes after its pause. -/
theorem retries_concat (attempts : List Attempt) (attempt : Attempt) :
    (retries (attempts ++ [attempt]) : List (LinkEvent Attempt FlashError)) =
      retries attempts ++ [.paused] ++ [.attempted attempt] := by
  simp [retries]

/-- The history ends with so many attempts that failed, and then with the steps. -/
def EndsInFailures (timer : ConnectTimer Attempt) (history : List (LinkEvent Attempt FlashError))
    (count : ℕ) (then_ : List (LinkEvent Attempt FlashError)) : Prop :=
  ∃ failures : List Attempt, failures.length = count ∧
    (∀ attempt ∈ failures, timer.connects attempt = false) ∧
    (retries failures ++ then_).IsSuffix history

/-- Any history ends with no attempts at all. -/
theorem EndsInFailures.none (history : List (LinkEvent Attempt FlashError)) :
    EndsInFailures timer history 0 [] :=
  ⟨[], rfl, by simp, List.nil_suffix⟩

/-- A pause goes before the next attempt. -/
theorem EndsInFailures.pause {history : List (LinkEvent Attempt FlashError)} {count : ℕ}
    (ends : EndsInFailures timer history count []) :
    EndsInFailures timer (history ++ [.paused]) count [.paused] := by
  obtain ⟨failures, number, failed, suffix⟩ := ends
  rw [List.append_nil] at suffix
  exact ⟨failures, number, failed, List.suffix_append_self_iff.mpr suffix⟩

/-- One more attempt has failed. -/
theorem EndsInFailures.fail {history : List (LinkEvent Attempt FlashError)} {count : ℕ}
    {attempt : Attempt} (ends : EndsInFailures timer history count [.paused])
    (fails : timer.connects attempt = false) :
    EndsInFailures timer (history ++ [.attempted attempt]) (count + 1) [] := by
  obtain ⟨failures, number, failed, suffix⟩ := ends
  refine ⟨failures ++ [attempt], by rw [List.length_append, number]; rfl, ?_, ?_⟩
  · intro other member
    rcases List.mem_append.mp member with earlier | last
    · exact failed other earlier
    · rwa [List.mem_singleton.mp last]
  · rw [List.append_nil, retries_concat]
    exact List.suffix_append_self_iff.mpr suffix

/-- What the steps so far say about where the connection is. -/
def Link.Recalls (timer : ConnectTimer Attempt) (history : List (LinkEvent Attempt FlashError)) :
    Link → Prop
  | .station _ _ (.pausing attempt) => EndsInFailures timer history attempt []
  | .station _ _ (.connecting attempt) => EndsInFailures timer history attempt [.paused]
  | .restarting => history = [] ∨ EndsInFailures timer history reconnectAttempts []
  | _ => True

/-- **A step keeps the history**, which packets are not part of. -/
theorem Link.step_recalls {history : List (LinkEvent Attempt FlashError)}
    {event : LinkEvent Attempt FlashError} {next : Link} (recalls : link.Recalls timer history)
    (stepped : link.step timer memory event = some next) :
    next.Recalls timer (history ++ [event].filter LinkEvent.isOfLink) := by
  cases Link.step_cases stepped with
  | found | missing | joined | fellBack | up | rejoined => trivial
  | down | disconnected => exact EndsInFailures.none _
  | paused => exact EndsInFailures.pause recalls
  | retried fails => exact EndsInFailures.fail recalls fails
  | gaveUp fails last =>
      have ends := EndsInFailures.fail recalls fails
      rw [last] at ends
      exact Or.inr ends
  | @received _ _ monitor =>
      rw [List.filter_cons_of_neg Bool.false_ne_true, List.filter_nil, List.append_nil]
      cases monitor <;> exact recalls

/-- A run from the start keeps its history. -/
theorem Link.run_recalls
    (runs : GuardedRun.run (Link.step timer memory) .restarting events = some reached) :
    reached.Recalls timer (events.filter LinkEvent.isOfLink) := by
  induction events using List.reverseRecOn generalizing reached with
  | nil =>
      obtain rfl := Option.some.inj runs
      exact Or.inl rfl
  | append_singleton events event ih =>
      obtain ⟨between, earlier, last⟩ := GuardedRun.run_append_eq_some_iff.mp runs
      obtain ⟨next, stepped, rests⟩ := GuardedRun.run_cons_eq_some_iff.mp last
      obtain rfl := Option.some.inj rests
      rw [List.filter_append]
      exact Link.step_recalls (ih earlier) stepped

/-- **A restart follows three failures in a row.** After the start the connection comes back to
a restart only when its last steps, packets aside, were three attempts that failed, each after
its pause. -/
theorem restarts_after_three_failures
    (runs : GuardedRun.run (Link.step timer memory) .restarting events = some .restarting) :
    events.filter LinkEvent.isOfLink = [] ∨
      ∃ failures : List Attempt, failures.length = 3 ∧
        (∀ attempt ∈ failures, timer.connects attempt = false) ∧
        (retries failures).IsSuffix (events.filter LinkEvent.isOfLink) := by
  have recalls := Link.run_recalls runs
  rcases recalls with started | ⟨failures, number, failed, suffix⟩
  · exact Or.inl started
  · rw [List.append_nil] at suffix
    exact Or.inr ⟨failures, number, failed, suffix⟩

/-! ## The controller underneath -/

/-- The mode of the controller. -/
def Link.mode : Link → Mode ι
  | .restarting | .booting _ => .off
  | .setup => .setup .start
  | .station config host _ => .station config host

/-- The configuration in use. -/
def Link.config? : Link → Option DeviceConfig
  | .restarting | .setup => none
  | .booting config | .station config _ _ => some config

/-- The events of a controller that no setup client takes part in. -/
def ControllerEvent.isUnattended : ControllerEvent ι FlashError → Bool
  | .start .. | .stop | .receive .. => true
  | .request .. | .serve _ | .save _ => false

/-- The connection is where a controller can be that no setup client takes part in, and it uses
what a start has loaded. -/
structure Link.Simulated (ι FlashError : Type) [DecidableEq ι] (usizeMax : ℕ) (memory : Memory)
    (link : Link) : Prop where
  controls : ∃ controls : List (ControllerEvent ι FlashError),
    (∀ control ∈ controls, control.isUnattended = true) ∧
      GuardedRun.run (Controller.step usizeMax) ⟨memory, .off⟩ controls = some ⟨memory, link.mode⟩
  loaded : ∀ config ∈ link.config?, ∃ schedule : ℕ → Outcome FlashError,
    (load ⟨memory, schedule⟩).1 = .ok (some config)

/-- A start uses a configuration exactly if it has loaded it. -/
theorem storedConfig_eq_some_iff {ε : Type} {loaded : Except ε (Option DeviceConfig)}
    {config : DeviceConfig} : storedConfig loaded = some config ↔ loaded = .ok (some config) := by
  cases loaded <;> simp [storedConfig]

section Simulation

variable [DecidableEq ι] {usizeMax : ℕ}

/-- A controller that has not started yet. -/
theorem Link.simulated_restarting (memory : Memory) :
    Link.restarting.Simulated ι FlashError usizeMax memory :=
  ⟨⟨[], nofun, rfl⟩, nofun⟩

/-- One more event of the controller. -/
theorem Link.Simulated.extend (simulated : link.Simulated ι FlashError usizeMax memory)
    {next : Link} (control : ControllerEvent ι FlashError)
    (unattended : control.isUnattended = true)
    (stepped : Controller.step usizeMax ⟨memory, link.mode⟩ control = some ⟨memory, next.mode⟩)
    (same : ∀ config ∈ next.config?, config ∈ link.config?) :
    next.Simulated ι FlashError usizeMax memory := by
  obtain ⟨⟨controls, quiet, runs⟩, loaded⟩ := simulated
  refine ⟨⟨controls ++ [control], ?_, ?_⟩, fun config member => loaded config (same config member)⟩
  · intro other member
    rcases List.mem_append.mp member with earlier | last
    · exact quiet other earlier
    · rwa [List.mem_singleton.mp last]
  · exact GuardedRun.run_append_eq_some_iff.mpr ⟨_, runs,
      GuardedRun.run_cons_eq_some_iff.mpr ⟨_, stepped, rfl⟩⟩

/-- A step inside a mode. -/
theorem Link.Simulated.stay (simulated : link.Simulated ι FlashError usizeMax memory) {next : Link}
    (mode : (next.mode : Mode ι) = link.mode) (same : next.config? = link.config?) :
    next.Simulated ι FlashError usizeMax memory := by
  constructor
  · rw [mode]
    exact simulated.controls
  · rw [same]
    exact simulated.loaded

/-- **A step of the connection is a step of the controller**, or none. -/
theorem Link.Simulated.step (simulated : link.Simulated ι FlashError usizeMax memory)
    {event : LinkEvent Attempt FlashError} {next : Link}
    (stepped : link.step timer memory event = some next) :
    next.Simulated ι FlashError usizeMax memory := by
  cases Link.step_cases stepped with
  | @found schedule config stored =>
      refine ⟨simulated.controls, ?_⟩
      rintro _ ⟨⟩
      exact ⟨schedule, storedConfig_eq_some_iff.mp stored⟩
  | @missing schedule powered stored =>
      refine simulated.extend (.start schedule false) rfl ?_ fun _ used => by cases used
      simp only [mode, Controller.step, stored, Mode.start]
  | @joined config attempt connects =>
      obtain ⟨schedule, loaded⟩ := simulated.loaded config rfl
      refine simulated.extend (.start schedule true) rfl ?_ fun _ member => member
      simp [mode, Controller.step, loaded, storedConfig, Mode.start]
  | @fellBack config attempt fails =>
      obtain ⟨schedule, loaded⟩ := simulated.loaded config rfl
      refine simulated.extend (.start schedule false) rfl ?_ fun _ used => by cases used
      simp [mode, Controller.step, loaded, storedConfig, Mode.start]
  | up | down | disconnected | paused | rejoined | retried => exact simulated.stay rfl rfl
  | gaveUp => exact simulated.extend .stop rfl rfl fun _ used => by cases used
  | @received config host monitor millis packet =>
      exact simulated.extend (.receive millis packet) rfl rfl fun _ member => member

/-- **Outages keep the configuration.** However the network comes and goes, a connection is where
a controller can be that no setup client takes part in: its flash is untouched, and it uses the
configuration committed last or none, also when reads of the flash fail. -/
theorem outages_keep_configuration {journal : Journal}
    (reachable : Reachable FlashError memory journal)
    (runs : GuardedRun.run (Link.step timer memory) .restarting events = some reached) :
    (∃ controls : List (ControllerEvent ι FlashError),
      (∀ control ∈ controls, control.isUnattended = true) ∧
        GuardedRun.run (Controller.step usizeMax) ⟨memory, .off⟩ controls =
          some ⟨memory, reached.mode⟩) ∧
      ∀ config ∈ reached.config?, journal.newest = some config := by
  have simulated : reached.Simulated ι FlashError usizeMax memory :=
    GuardedRun.run_invariant (Link.simulated_restarting memory)
      (fun _ _ _ simulated stepped => simulated.step stepped) runs
  refine ⟨simulated.controls, fun config used => ?_⟩
  obtain ⟨schedule, loaded⟩ := simulated.loaded config used
  exact newest_of_load reachable (storedConfig_eq_some_iff.mpr loaded)

end Simulation

/-! ## A controller that loses its network

It connects after the start, loses the network, and no further attempt is answered. -/

/-- An attempt is the time and the answer of `connect_async`, if it answers. -/
def answerTimer : ConnectTimer (Option (ℕ × Bool)) where
  withTimeout limitMillis attempt :=
    match attempt with
    | some (millis, connected) =>
        if millis ≤ limitMillis then (millis, some connected) else (limitMillis, none)
    | none => (limitMillis, none)

/-- No attempt outlasts its limit. -/
theorem answerTimer_punctual : answerTimer.Punctual where
  inTime := by
    rintro limitMillis (_ | ⟨millis, connected⟩)
    · exact le_rfl
    · by_cases inside : millis ≤ limitMillis
      · simp [answerTimer, inside]
      · simp [answerTimer, inside]
  silent := ⟨none, fun _ => rfl⟩

def joining : List (LinkEvent (Option (ℕ × Bool)) Empty) :=
  [.started fun _ => .completes, .attempted (some (500, true)), .checked true]

def losing : List (LinkEvent (Option (ℕ × Bool)) Empty) :=
  .disconnected :: retries [none, none, none]

/-- The controller connects with the configuration committed last. -/
theorem run_joining {memory : Memory} {journal : Journal}
    (reachable : Reachable Empty memory journal)
    (newest : journal.newest = some openNetwork) :
    GuardedRun.run (Link.step answerTimer memory) .restarting joining =
      some (.station openNetwork .new .waitingForDisconnect) := by
  have read : (load (⟨memory, fun _ => .completes⟩ : Device Empty)).1 =
      .ok (some openNetwork) := by
    rw [← newest]
    exact faultlessLoad_of_represents reachable.represents
  have boots : Link.step answerTimer memory .restarting
      (.started fun _ => .completes : LinkEvent (Option (ℕ × Bool)) Empty) =
        some (.booting openNetwork) := by
    simp only [Link.step, read, storedConfig]
  exact GuardedRun.run_cons_eq_some_iff.mpr ⟨_, boots, rfl⟩

/-- Three attempts without an answer end in a restart. -/
theorem run_losing (memory : Memory) : GuardedRun.run (Link.step answerTimer memory)
    (.station openNetwork .new .waitingForDisconnect) losing = some .restarting := rfl

/-- The three attempts and their pauses take less than the bound. -/
theorem outage_falls_back_silent :
    (losing.map (LinkEvent.millis answerTimer)).sum ≤ 86000 ∧
      losing.countP LinkEvent.isOfLink ≤ 10 := by
  obtain ⟨inTime, inSteps, _⟩ :=
    outage_falls_back answerTimer_punctual (run_losing blankFlash) (by decide)
  exact ⟨inTime, inSteps⟩

/-- The restart comes after those three attempts. -/
theorem restarts_after_three_failures_silent :
    ∃ failures : List (Option (ℕ × Bool)), failures.length = 3 ∧
      (retries failures).IsSuffix ((joining ++ losing).filter LinkEvent.isOfLink) := by
  obtain ⟨memory, journal, _, _, reachable, newest⟩ := exists_openNetwork_memory
  have runs : GuardedRun.run (Link.step answerTimer memory) .restarting (joining ++ losing) =
      some .restarting :=
    GuardedRun.run_append_eq_some_iff.mpr ⟨_, run_joining reachable newest, run_losing memory⟩
  rcases restarts_after_three_failures runs with nothing | ⟨failures, three, _, recent⟩
  · cases nothing
  · exact ⟨failures, three, recent⟩

/-- The connected controller uses the configuration committed last. -/
theorem outages_keep_configuration_joined : ∃ memory journal,
    GuardedRun.run (Link.step answerTimer memory) .restarting joining =
        some (.station openNetwork .new .waitingForDisconnect) ∧
      Journal.newest journal = some openNetwork := by
  obtain ⟨memory, journal, _, _, reachable, newest⟩ := exists_openNetwork_memory
  have runs := run_joining reachable newest
  have kept := (@outages_keep_configuration Unit _ _ _ _ _ _ _ 4294967295 _ reachable runs).2
  exact ⟨memory, journal, runs, kept openNetwork rfl⟩

end LaptopCooler.Firmware
