import LaptopCooler.Firmware.Control
import LaptopCooler.Firmware.JournalRun
import LaptopCooler.Firmware.SetupRequest
import LaptopCooler.Firmware.SetupServer

/-! # The life of a controller

The model of `main` in `src/main.rs` around the flash: the controller starts with
the configuration it loads, in station mode when it can connect with it and in
setup mode otherwise. Setup clients send bytes; the main loop saves what they
submit; the controller stops at any time and starts again with what the flash
holds. Every event is possible or not in a state (`LaptopCooler.Firmware.Controller.step`).
-/

namespace LaptopCooler.Firmware

open Fallible IncrementalParser NorFlash

variable {ι FlashError : Type}

/-- What the firmware does. -/
inductive Mode (ι : Type) where
  | off
  | setup (session : Session ι)
  | station (config : DeviceConfig) (host : HostState)

structure Controller (ι : Type) where
  memory : Memory
  mode : Mode ι

inductive ControllerEvent (ι FlashError : Type) where
  /-- Load the configuration and, when there is one, try to connect with it. -/
  | start (schedule : ℕ → Outcome FlashError) (connected : Bool)
  /-- A software reset or a loss of power. -/
  | stop
  | request (worker : ι) (reads : List (Read UInt8))
  | serve (event : Event ι)
  | save (schedule : ℕ → Outcome FlashError)
  | receive (millis : ℕ) (packet : List UInt8)

/-- What `main` keeps of a load. -/
def storedConfig {ε : Type} (loaded : Except ε (Option DeviceConfig)) : Option DeviceConfig :=
  match loaded with
  | .ok stored => stored
  | .error _ => none

/-- A load whose reads complete returns the newest record's configuration. -/
theorem load_completes {device : Device FlashError}
    (completes : ∀ index < slotCount, device.schedule index = .completes) :
    (load device).1 = .ok ((latestIn device.memory).map StoredConfig.config) :=
  congrArg Prod.fst (bind_ok (loadLatest_completes completes))

/-- A load that a read stops returns nothing. -/
theorem load_stops {device : Device FlashError} {count : ℕ} (inside : count < slotCount)
    {outcome : Outcome FlashError} (stops : device.StopsAt count outcome)
    (early : outcome ≠ .completes) : (load device).1 = .error (outcome.halt .flash) :=
  congrArg Prod.fst (bind_error (loadLatest_stops inside stops early))

/-- The mode that `main` starts in. -/
def Mode.start (stored : Option DeviceConfig) (connected : Bool) : Mode ι :=
  match stored with
  | some config => if connected then .station config .new else .setup .start
  | none => .setup .start

/-- The steps of a session that neither read a request nor save. -/
def Event.isHandover : Event ι → Bool
  | .request .. | .save _ => false
  | .submit _ | .take | .report | .receive _ | .respond _ => true

def Controller.step [DecidableEq ι] (usizeMax : ℕ) (controller : Controller ι)
    (event : ControllerEvent ι FlashError) : Option (Controller ι) :=
  match event, controller.mode with
  | .start schedule connected, .off =>
      match (load ⟨controller.memory, schedule⟩).1 with
      | .error .powerLoss => some controller
      | loaded => some { controller with mode := .start (storedConfig loaded) connected }
  | .stop, _ => some { controller with mode := .off }
  | .request worker reads, .setup session =>
      (readRequest usizeMax [] reads).bind fun exit =>
        (session.step (.request worker exit.parsedRequest)).map fun next =>
          { controller with mode := .setup next }
  | .serve event, .setup session =>
      if event.isHandover then
        (session.step event).map fun next => { controller with mode := .setup next }
      else none
  | .save schedule, .setup session =>
      if session.restarted then none else
      match session.mainLoop with
      | .saving config =>
          let memory := memoryAfter config ⟨controller.memory, schedule⟩
          match (save config ⟨controller.memory, schedule⟩).1 with
          | .ok () => (session.step (.save true)).map fun next => ⟨memory, .setup next⟩
          | .error (.error _) =>
              (session.step (.save false)).map fun next => ⟨memory, .setup next⟩
          | .error .powerLoss => some ⟨memory, .off⟩
      | _ => none
  | .receive millis packet, .station config host =>
      some { controller with
        mode := .station config (host.accept config.token.text packet millis).2 }
  | _, _ => none

/-- The state of the host's commands: it is as new outside station mode. -/
def Mode.host : Mode ι → HostState
  | .station _ host => host
  | .off | .setup _ => .new

/-- The steps of a controller, each with what it needs and what it changes. -/
inductive Controller.Step [DecidableEq ι] (usizeMax : ℕ) (controller : Controller ι) :
    ControllerEvent ι FlashError → Controller ι → Prop where
  | cut {schedule : ℕ → Outcome FlashError} {connected : Bool} (off : controller.mode = .off) :
      Step usizeMax controller (.start schedule connected) controller
  | started {schedule : ℕ → Outcome FlashError} {connected : Bool} (off : controller.mode = .off) :
      Step usizeMax controller (.start schedule connected)
        { controller with
          mode := .start (storedConfig (load ⟨controller.memory, schedule⟩).1) connected }
  | stopped : Step usizeMax controller .stop { controller with mode := .off }
  | requested {worker : ι} {reads : List (Read UInt8)} {session next : Session ι}
      {exit : ReadExit} (setup : controller.mode = .setup session)
      (read : readRequest usizeMax [] reads = some exit)
      (step : session.Step (.request worker exit.parsedRequest) next) :
      Step usizeMax controller (.request worker reads) { controller with mode := .setup next }
  | served {event : Event ι} {session next : Session ι} (setup : controller.mode = .setup session)
      (handover : event.isHandover = true) (step : session.Step event next) :
      Step usizeMax controller (.serve event) { controller with mode := .setup next }
  | saved {schedule : ℕ → Outcome FlashError} {session next : Session ι} {config : DeviceConfig}
      (setup : controller.mode = .setup session) (saving : session.mainLoop = .saving config)
      {saved : Bool}
      (told : saved = true → (save config ⟨controller.memory, schedule⟩).1 = .ok ())
      (step : session.Step (.save saved) next) :
      Step usizeMax controller (.save schedule)
        ⟨memoryAfter config ⟨controller.memory, schedule⟩, .setup next⟩
  | cutSave {schedule : ℕ → Outcome FlashError} {session : Session ι} {config : DeviceConfig}
      (setup : controller.mode = .setup session) (saving : session.mainLoop = .saving config) :
      Step usizeMax controller (.save schedule)
        ⟨memoryAfter config ⟨controller.memory, schedule⟩, .off⟩
  | received {millis : ℕ} {packet : List UInt8} {config : DeviceConfig} {host : HostState}
      (station : controller.mode = .station config host) :
      Step usizeMax controller (.receive millis packet)
        { controller with
          mode := .station config (host.accept config.token.text packet millis).2 }

theorem Controller.step_cases [DecidableEq ι] {usizeMax : ℕ} {controller next : Controller ι}
    {event : ControllerEvent ι FlashError} (stepped : controller.step usizeMax event = some next) :
    controller.Step usizeMax event next := by
  unfold step at stepped
  split at stepped
  next schedule connected off =>
    split at stepped
    · obtain rfl := Option.some.inj stepped
      exact .cut off
    · obtain rfl := Option.some.inj stepped
      exact .started off
  next mode =>
    obtain rfl := Option.some.inj stepped
    exact .stopped
  next worker reads session setup =>
    obtain ⟨exit, read, answered⟩ := Option.bind_eq_some_iff.mp stepped
    obtain ⟨after, taken, rfl⟩ := Option.map_eq_some_iff.mp answered
    exact .requested setup read (Session.step_cases taken)
  next event session setup =>
    split at stepped
    next handover =>
      obtain ⟨after, taken, rfl⟩ := Option.map_eq_some_iff.mp stepped
      exact .served setup handover (Session.step_cases taken)
    next => cases stepped
  next schedule session setup =>
    split at stepped
    · cases stepped
    split at stepped
    next config saving =>
      split at stepped
      next told =>
        obtain ⟨after, taken, rfl⟩ := Option.map_eq_some_iff.mp stepped
        exact .saved setup saving (fun _ => told) (Session.step_cases taken)
      next =>
        obtain ⟨after, taken, rfl⟩ := Option.map_eq_some_iff.mp stepped
        exact .saved setup saving Bool.noConfusion (Session.step_cases taken)
      next =>
        obtain rfl := Option.some.inj stepped
        exact .cutSave setup saving
    next => cases stepped
  next millis packet config host station =>
    obtain rfl := Option.some.inj stepped
    exact .received station
  next => cases stepped

/-- In setup mode the controller does what its session does. -/
theorem Controller.run_serve [DecidableEq ι] (usizeMax : ℕ) {memory : Memory}
    {events : List (Event ι)} {session next : Session ι}
    (handover : ∀ event ∈ events, event.isHandover = true)
    (runs : GuardedRun.run Session.step session events = some next) :
    GuardedRun.run (Controller.step usizeMax) ⟨memory, .setup session⟩
      (events.map (.serve : Event ι → ControllerEvent ι FlashError)) =
        some ⟨memory, .setup next⟩ := by
  induction events generalizing session with
  | nil =>
      obtain rfl := Option.some.inj runs
      rfl
  | cons event rest ih =>
      obtain ⟨after, stepped, continues⟩ := GuardedRun.run_cons_eq_some_iff.mp runs
      have first : Controller.step usizeMax ⟨memory, .setup session⟩
          (.serve event : ControllerEvent ι FlashError) = some ⟨memory, .setup after⟩ := by
        simp [Controller.step, handover event List.mem_cons_self, stepped]
      exact GuardedRun.run_cons_eq_some_iff.mpr ⟨_, first,
        ih (fun other member => handover other (List.mem_cons_of_mem _ member)) continues⟩

/-- A save that succeeds is told. -/
theorem Controller.step_save_ok [DecidableEq ι] (usizeMax : ℕ) {memory : Memory}
    {schedule : ℕ → Outcome FlashError} {session next : Session ι} {config : DeviceConfig}
    (running : session.restarted = false) (saving : session.mainLoop = .saving config)
    (succeeded : (save config ⟨memory, schedule⟩).1 = .ok ())
    (stepped : session.step (.save true) = some next) :
    Controller.step usizeMax ⟨memory, .setup session⟩ (.save schedule) =
      some ⟨memoryAfter config ⟨memory, schedule⟩, .setup next⟩ := by
  simp [Controller.step, running, saving, succeeded, stepped]

/-! ## Only valid configurations are submitted -/

theorem valid_of_parseForm {body : List UInt8} {config : DeviceConfig}
    (parsed : parseForm body = .ok config) : config.Valid := by
  simp only [parseForm, bind_eq_ok_iff, mapError_eq_ok_iff] at parsed
  obtain ⟨_, _, _, _, _, _, _, _, _, _, built⟩ := parsed
  exact (DeviceConfig.new_eq_ok_iff.mp built).2

theorem valid_of_parseBody {usizeMax capacity headerEnd : ℕ} {bytes : List UInt8}
    {headers : Headers} {config : DeviceConfig}
    (parsed : parseBody usizeMax bytes capacity headerEnd headers = .ok (some (.save config))) :
    config.Valid := by
  simp only [parseBody, bind_eq_ok_iff, throw, throwThe, MonadExceptOf.throw, error_bind,
    guard_eq_ok_iff] at parsed
  obtain ⟨_, _, _, _, _, complete⟩ := parsed
  split at complete
  · cases complete
  · simp only [guard_eq_ok_iff, bind_eq_ok_iff, pure, Except.pure] at complete
    obtain ⟨_, stored, parsed, same⟩ := complete
    cases same
    exact valid_of_parseForm parsed

/-- **What the parser saves, `new` accepts.** -/
theorem valid_of_parseRequest {usizeMax capacity : ℕ} {bytes : List UInt8} {config : DeviceConfig}
    (parsed : parseRequest usizeMax bytes capacity = .ok (some (.save config))) :
    config.Valid := by
  unfold parseRequest at parsed
  split at parsed
  · split at parsed <;> cases parsed
  · simp only [bind_eq_ok_iff] at parsed
    obtain ⟨_, _, requestLine, _, answered⟩ := parsed
    split at answered
    · cases answered
    split at answered
    · cases answered
    split at answered
    · cases answered
    · obtain ⟨_, _, body⟩ := bind_eq_ok_iff.mp answered
      exact valid_of_parseBody body

/-- A request that saves is one that the parser has accepted. -/
theorem exists_parseRequest_of_readRequest {usizeMax : ℕ} {reads : List (Read UInt8)}
    {buffer : List UInt8} {exit : ReadExit} {request : Request}
    (read : readRequest usizeMax buffer reads = some exit)
    (parsed : exit.parsedRequest = .ok request) :
    ∃ arrived, parseRequest usizeMax arrived requestBufferLen = .ok (some request) := by
  induction reads generalizing buffer with
  | nil =>
      unfold readRequest at read
      split at read
      · obtain rfl := Option.some.inj read
        cases parsed
      · cases read
  | cons next rest ih =>
      unfold readRequest at read
      split at read
      · obtain rfl := Option.some.inj read
        cases parsed
      cases next with
      | ended | failed =>
          obtain rfl := Option.some.inj read
          cases parsed
      | received chunk =>
          dsimp only at read
          split at read
          next answer decided =>
            obtain rfl := Option.some.inj read
            obtain rfl := Except.ok.inj parsed
            exact ⟨_, decided⟩
          next => exact ih read
          next =>
            obtain rfl := Option.some.inj read
            cases parsed

end LaptopCooler.Firmware
