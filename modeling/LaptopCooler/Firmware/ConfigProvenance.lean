import LaptopCooler.Firmware.Lifecycle

/-! # Where a controller's configuration comes from

A controller that starts out with an empty flash only ever runs in station mode
with a configuration that a setup client has submitted, and its fan only for a
packet with the token of that configuration
(`LaptopCooler.Firmware.fan_runs_for_submitted_token`). A setup client that was
told of a successful save finds the controller restarted with a configuration
submitted in its session
(`LaptopCooler.Firmware.told_success_outlives_restart`). The invariant of all runs
is `LaptopCooler.Firmware.Controller.Grounded`.
-/

namespace LaptopCooler.Firmware

open NorFlash

variable {ι FlashError : Type}

/-! ## Sessions -/

/-- What a session keeps: only submitted configurations are on their way, and a
success is told only after one was taken. -/
structure Session.Sound (submitted : DeviceConfig → Prop) (session : Session ι) : Prop where
  consistent : session.Consistent
  submitting : ∀ worker config, session.workers worker = .submitting config → submitted config
  submissions : ∀ submission ∈ session.submissions, submitted submission.2
  told : ∀ worker response, session.workers worker = .answering response true →
    true ∈ session.received
  restarted : session.restarted = true → true ∈ session.received

theorem Session.sound_start (submitted : DeviceConfig → Prop) :
    (Session.start : Session ι).Sound submitted where
  consistent := Session.consistent_start
  submitting _ _ := nofun
  submissions _ := nofun
  told _ _ := nofun
  restarted := nofun

theorem Worker.afterRequest_eq_submitting {parsedRequest : Except RequestError Request}
    {config : DeviceConfig} (turned : Worker.afterRequest parsedRequest = .submitting config) :
    parsedRequest = .ok (.save config) := by
  rcases parsedRequest with _ | _ | _ | _
  all_goals cases turned
  rfl

theorem Worker.afterRequest_ne_restarting (parsedRequest : Except RequestError Request)
    (response : Response) : Worker.afterRequest parsedRequest ≠ .answering response true := by
  rcases parsedRequest with _ | _ | _ | _ <;> nofun

namespace Session.Sound

variable {submitted : DeviceConfig → Prop} [DecidableEq ι] {session next : Session ι}
  {event : Event ι}

/-- A worker that turns to something else than submitting leaves the submissions sound. -/
private theorem submitting_update (sound : session.Sound submitted) {worker : ι}
    {activity : Worker} (after : ∀ config, activity = .submitting config → submitted config)
    (other : ι) (config : DeviceConfig)
    (turned : Function.update session.workers worker activity other = .submitting config) :
    submitted config := by
  by_cases same : other = worker
  · rw [same, Function.update_self] at turned
    exact after config turned
  · rw [Function.update_of_ne same] at turned
    exact sound.submitting other config turned

private theorem told_update (sound : session.Sound submitted) {worker : ι} {activity : Worker}
    (after : ∀ response, activity = .answering response true → true ∈ session.received)
    (other : ι) (response : Response)
    (turned : Function.update session.workers worker activity other =
      .answering response true) : true ∈ session.received := by
  by_cases same : other = worker
  · rw [same, Function.update_self] at turned
    exact after response turned
  · rw [Function.update_of_ne same] at turned
    exact sound.told other response turned

/-- **Every step keeps a session sound**, if its requests are submitted. -/
theorem step (sound : session.Sound submitted) (step : session.Step event next)
    (asked : ∀ worker config, event = .request worker (.ok (.save config)) → submitted config) :
    next.Sound submitted := by
  have consistent := sound.consistent.step step
  cases step with
  | @request worker parsedRequest serving =>
      refine ⟨consistent, sound.submitting_update fun config turned => ?_, sound.submissions,
        sound.told_update fun response turned => ?_, sound.restarted⟩
      · rw [Worker.afterRequest_eq_submitting turned] at asked
        exact asked worker config rfl
      · exact (Worker.afterRequest_ne_restarting parsedRequest response turned).elim
  | @submit worker config newConfig submitting sent =>
      refine ⟨consistent, sound.submitting_update fun _ => nofun, fun submission member => ?_,
        sound.told_update fun _ => nofun, sound.restarted⟩
      rcases List.mem_append.mp member with before | last
      · exact sound.submissions submission before
      · rw [List.mem_singleton.mp last]
        exact sound.submitting worker config submitting
  | take | save | report =>
      exact ⟨consistent, sound.submitting, sound.submissions, sound.told, sound.restarted⟩
  | @receive worker saved configSaveResult waiting received =>
      refine ⟨consistent, sound.submitting_update fun config turned => ?_, sound.submissions,
        fun other response answering => ?_, fun restarted => ?_⟩
      · cases saved <;> cases turned
      · rw [List.mem_append]
        by_cases same : other = worker
        · simp only [same, Function.update_self] at answering
          cases saved with
          | false => cases answering
          | true => exact Or.inr (List.mem_singleton_self true)
        · simp only [Function.update_of_ne same] at answering
          exact Or.inl (sound.told other response answering)
      · exact List.mem_append_left _ (sound.restarted restarted)
  | @respond worker response restartAfterResponse answering =>
      refine ⟨consistent, sound.submitting_update fun _ => nofun, sound.submissions,
        sound.told_update fun _ => nofun, fun restarted => ?_⟩
      change restartAfterResponse = true at restarted
      rw [restarted] at answering
      exact sound.told worker response answering

omit [DecidableEq ι] in
/-- The main loop saves what was submitted. -/
theorem submitted_of_saving (sound : session.Sound submitted) {config : DeviceConfig}
    (saving : session.mainLoop = .saving config) :
    config ∈ session.submissions.map Prod.snd ∧ submitted config := by
  have member : config ∈ session.submissions.map Prod.snd := by
    rw [sound.consistent.saved_in_order, saving]
    simp [MainLoop.unsaved]
  obtain ⟨submission, made, rfl⟩ := List.mem_map.mp member
  exact ⟨member, sound.submissions submission made⟩

omit [DecidableEq ι] in
/-- A success that was told was saved. -/
theorem exists_success (sound : session.Sound submitted) (told : true ∈ session.received) :
    ∃ made ∈ session.saves, made.2 = true := by
  have saved : true ∈ session.saves.map Prod.snd := by
    rw [sound.consistent.received_in_order]
    exact List.mem_append_left _ told
  obtain ⟨made, member, success⟩ := List.mem_map.mp saved
  exact ⟨made, member, success⟩

end Session.Sound

/-! ## Saves and the journal -/

/-- Once a save of the session has succeeded, the newest record is that of the last success
or of a failure after it. -/
def Session.Kept (session : Session ι) (journal : Journal) : Prop :=
  (∃ made ∈ session.saves, made.2 = true) →
    ∃ earlier config outcome later, session.saves = earlier ++ (config, outcome) :: later ∧
      (∀ made ∈ later, made.2 = false) ∧ journal.newest = some config

theorem Session.kept_start (journal : Journal) : (Session.start : Session ι).Kept journal := by
  rintro ⟨made, member, _⟩
  cases member

/-- Only a save adds to the saves. -/
theorem Session.Step.kept [DecidableEq ι] {session next : Session ι} {event : Event ι}
    {journal : Journal} (step : session.Step event next) (other : ∀ saved, event ≠ .save saved)
    (kept : session.Kept journal) : next.Kept journal := by
  cases step with
  | save saving => exact (other _ rfl).elim
  | request | submit | take | report | receive | respond => exact kept

/-- A save goes to the end of the saves, and to the journal if it succeeds. -/
theorem Session.Kept.save [DecidableEq ι] {session next : Session ι} {journal after : Journal}
    {config : DeviceConfig} {saved : Bool} (kept : session.Kept journal)
    (saving : session.mainLoop = .saving config) (step : session.Step (.save saved) next)
    (newest : after.newest = journal.newest ∨ after.newest = some config)
    (success : saved = true → after.newest = some config) : next.Kept after := by
  cases step with
  | @save own _ also =>
      rw [saving] at also
      obtain rfl := MainLoop.saving.inj also
      intro succeeded
      by_cases own : after.newest = some config
      · exact ⟨session.saves, config, saved, [], rfl, nofun, own⟩
      have failed : saved = false := Bool.eq_false_of_not_eq_true fun told => own (success told)
      have before : ∃ made ∈ session.saves, made.2 = true := by
        obtain ⟨made, member, told⟩ := succeeded
        rcases List.mem_append.mp member with earlier | last
        · exact ⟨made, earlier, told⟩
        · rw [List.mem_singleton.mp last, failed] at told
          cases told
      obtain ⟨earlier, stored, outcome, later, saves, failures, head⟩ := kept before
      refine ⟨earlier, stored, outcome, later ++ [(config, saved)], ?_, ?_, ?_⟩
      · simp only [saves, List.append_assoc, List.cons_append]
      · intro made member
        rcases List.mem_append.mp member with earlier | last
        · exact failures made earlier
        · rw [List.mem_singleton.mp last, failed]
      · rw [newest.resolve_right own, head]

/-- A save that succeeds has completed all its operations. -/
theorem completes_of_save_ok {config : DeviceConfig} {device : Device FlashError}
    (succeeded : (save config device).1 = .ok ()) :
    ∀ index < 10, device.schedule index = .completes := by
  rcases save_stages device with completes | ⟨count, outcome, stops, early, stage⟩
  · exact completes
  exfalso
  have halted : ∃ halt, (save config device).1 = .error halt := by
    rcases stage with inside | rfl | rfl | rfl | rfl
    · exact ⟨_, congrArg Prod.fst (save_stops_loading inside stops early).choose_spec.1⟩
    · exact ⟨_, congrArg Prod.fst (save_stops_erasing stops early).choose_spec.1⟩
    · exact ⟨_, congrArg Prod.fst (save_stops_writing stops early).choose_spec.1⟩
    · exact ⟨_, congrArg Prod.fst (save_stops_committing stops early).choose_spec.1⟩
    · exact ⟨_, congrArg Prod.fst (save_stops_verifying stops early).choose_spec.1⟩
  obtain ⟨halt, failed⟩ := halted
  rw [succeeded] at failed
  cases failed

/-- A save brings no record but its own into the journal. -/
theorem SaveRecords.mem {config : DeviceConfig} {device : Device FlashError}
    {journal next : Journal} (records : SaveRecords config device journal next)
    {record : Fin slotCount × DeviceConfig} (member : record ∈ next) :
    record ∈ journal ∨ record.2 = config := by
  have without {slot : Fin slotCount} (left : record ∈ journal.without slot) : record ∈ journal :=
    List.mem_of_mem_filter left
  have committed {slot : Fin slotCount} (left : record ∈ journal.commit slot config) :
      record ∈ journal ∨ record.2 = config := by
    rcases List.mem_cons.mp left with rfl | left
    · exact Or.inr rfl
    · exact Or.inl (without left)
  cases records with
  | loading | eraseKept => exact Or.inl member
  | eraseTorn | bodyStopped | commitTorn => exact Or.inl (without member)
  | saved | commitWhole | unverified => exact committed member

/-- An erase that a loss of power cuts leaves the old record or one that decoding rejects. -/
def Controller.ErasesCleanly (controller : Controller ι) :
    ControllerEvent ι FlashError → Prop
  | .save schedule => ∀ session config residue, controller.mode = .setup session →
      session.mainLoop = .saving config →
      (⟨controller.memory, schedule⟩ : Device FlashError).StopsAt 6 (.powerLoss residue) →
        decode (slotRecord (memoryAfter config ⟨controller.memory, schedule⟩)
            (target controller.memory).1) =
          decode (slotRecord controller.memory (target controller.memory).1) ∨
        Rejected (target controller.memory).1 (memoryAfter config ⟨controller.memory, schedule⟩)
  | .start .. | .stop | .request .. | .serve _ | .receive .. => True

theorem Controller.ErasesCleanly.of_completes {schedule : ℕ → Outcome FlashError}
    (completes : schedule 6 = .completes) (controller : Controller ι) :
    controller.ErasesCleanly (.save schedule) := by
  rintro session config residue _ _ ⟨_, cut⟩
  cases completes.symm.trans cut

/-- A save has its account in the journal, and a success is the newest record. -/
theorem Controller.ErasesCleanly.exists_saveRecords {controller : Controller ι}
    {schedule : ℕ → Outcome FlashError} (clean : controller.ErasesCleanly
      (.save schedule : ControllerEvent ι FlashError)) {session : Session ι}
    {config : DeviceConfig} (setup : controller.mode = .setup session)
    (saving : session.mainLoop = .saving config) (journal : Journal) :
    ∃ next, SaveRecords config ⟨controller.memory, schedule⟩ journal next ∧
      ((save config (⟨controller.memory, schedule⟩ : Device FlashError)).1 = .ok () →
        next.newest = some config) := by
  by_cases succeeded : (save config (⟨controller.memory, schedule⟩ : Device FlashError)).1 = .ok ()
  · exact ⟨_, .saved (completes_of_save_ok succeeded), fun _ => rfl⟩
  obtain ⟨next, records⟩ := Firmware.exists_saveRecords config ⟨controller.memory, schedule⟩
    journal (by
      by_cases cut : ∃ residue,
          (⟨controller.memory, schedule⟩ : Device FlashError).StopsAt 6 (.powerLoss residue)
      · obtain ⟨residue, stops⟩ := cut
        rcases clean session config residue setup saving stops with kept | torn
        · exact Or.inl kept
        · exact Or.inr (Or.inl torn)
      · exact Or.inr (Or.inr (not_exists.mp cut)))
  exact ⟨next, records, fun saved => (succeeded saved).elim⟩

/-- What a load returns is the newest record of the journal. -/
theorem newest_of_load {memory : Memory} {journal : Journal}
    (reachable : Reachable FlashError memory journal) {schedule : ℕ → Outcome FlashError}
    {config : DeviceConfig} (loaded : storedConfig (load ⟨memory, schedule⟩).1 = some config) :
    journal.newest = some config := by
  rcases (⟨memory, schedule⟩ : Device FlashError).completes_or_stopsAt slotCount with
    completes | ⟨count, below, outcome, stops, early⟩
  · have found := @faultlessLoad_of_represents FlashError _ _ reachable.represents
    have scanned := load_completes completes
    rw [faultlessLoad_eq, ← scanned] at found
    rw [found] at loaded
    exact loaded
  · rw [load_stops below stops early] at loaded
    cases loaded

/-! ## The invariant -/

/-- What holds in every run: the journal, the session and the configuration in use hold
submitted configurations only, and the host's state remembers a packet that arrived. -/
structure Controller.Grounded (FlashError : Type) (submitted : DeviceConfig → Prop)
    (arrived : ℕ → List UInt8 → Prop) (controller : Controller ι) : Prop where
  journal : ∃ journal, Reachable FlashError controller.memory journal ∧
    (∀ record ∈ journal, submitted record.2) ∧
    ∀ session, controller.mode = .setup session → session.Kept journal
  session : ∀ session, controller.mode = .setup session → session.Sound submitted
  station : ∀ config host, controller.mode = .station config host → submitted config ∧
    (host = .new ∨ ∃ command millis packet, arrived millis packet ∧
      Carries config.token.text packet command ∧ host = .remembering command millis)

namespace Controller.Grounded

variable {submitted : DeviceConfig → Prop} {arrived : ℕ → List UInt8 → Prop}
  {controller next : Controller ι} {event : ControllerEvent ι FlashError}

/-- A mode without a session and a configuration needs nothing. -/
private theorem of_off {memory : Memory} {journal : Journal}
    (reachable : Reachable FlashError memory journal)
    (records : ∀ record ∈ journal, submitted record.2) :
    (⟨memory, .off⟩ : Controller ι).Grounded FlashError submitted arrived :=
  ⟨⟨journal, reachable, records, nofun⟩, nofun, nofun⟩

/-- A session that goes on without a save leaves the journal as it is. -/
private theorem of_setup {memory : Memory} {journal : Journal} {session : Session ι}
    (reachable : Reachable FlashError memory journal)
    (records : ∀ record ∈ journal, submitted record.2) (kept : session.Kept journal)
    (sound : session.Sound submitted) :
    (⟨memory, .setup session⟩ : Controller ι).Grounded FlashError submitted arrived := by
  refine ⟨⟨journal, reachable, records, ?_⟩, ?_, nofun⟩
  · intro other same
    cases same
    exact kept
  · intro other same
    cases same
    exact sound

private theorem of_station {memory : Memory} {journal : Journal} {config : DeviceConfig}
    {host : HostState} (reachable : Reachable FlashError memory journal)
    (records : ∀ record ∈ journal, submitted record.2) (own : submitted config)
    (remembered : host = .new ∨ ∃ command millis packet, arrived millis packet ∧
      Carries config.token.text packet command ∧ host = .remembering command millis) :
    (⟨memory, .station config host⟩ : Controller ι).Grounded FlashError submitted arrived := by
  refine ⟨⟨journal, reachable, records, nofun⟩, nofun, ?_⟩
  intro other state same
  cases same
  exact ⟨own, remembered⟩

/-- The controller starts with what the journal holds. -/
private theorem of_start (grounded : controller.Grounded FlashError submitted arrived)
    (schedule : ℕ → Outcome FlashError) (connected : Bool) :
    (⟨controller.memory,
      .start (storedConfig (load ⟨controller.memory, schedule⟩).1) connected⟩ :
        Controller ι).Grounded FlashError submitted arrived := by
  obtain ⟨journal, reachable, records, _⟩ := grounded.journal
  have fresh : (⟨controller.memory, .setup .start⟩ : Controller ι).Grounded FlashError submitted
      arrived := of_setup reachable records (Session.kept_start journal)
    (Session.sound_start submitted)
  cases stored : storedConfig (load ⟨controller.memory, schedule⟩).1 with
  | none => exact fresh
  | some config =>
      cases connected with
      | false => exact fresh
      | true =>
          have newest := newest_of_load reachable stored
          obtain ⟨record, head, rfl⟩ := Option.map_eq_some_iff.mp newest
          exact of_station reachable records (records record (List.mem_of_head? head)) (Or.inl rfl)

variable [DecidableEq ι]

/-- **Every step keeps the controller grounded**, if its requests are submitted, its packets
have arrived and its erases are clean. -/
theorem step {usizeMax : ℕ} (grounded : controller.Grounded FlashError submitted arrived)
    (step : controller.Step usizeMax event next) (clean : controller.ErasesCleanly event)
    (valid : ∀ config, submitted config → config.Valid)
    (asked : ∀ worker reads exit config, event = .request worker reads →
      readRequest usizeMax [] reads = some exit → exit.parsedRequest = .ok (.save config) →
        submitted config)
    (came : ∀ millis packet, event = .receive millis packet → arrived millis packet) :
    next.Grounded FlashError submitted arrived := by
  obtain ⟨journal, reachable, records, kept⟩ := grounded.journal
  -- The journal after a save holds the saved configuration at most in addition.
  have account {schedule : ℕ → Outcome FlashError} {session : Session ι} {config : DeviceConfig}
      (setup : controller.mode = .setup session) (saving : session.mainLoop = .saving config)
      {after : Journal} (saves : SaveRecords config ⟨controller.memory, schedule⟩ journal after) :
      Reachable FlashError (memoryAfter config ⟨controller.memory, schedule⟩) after ∧
        ∀ record ∈ after, submitted record.2 := by
    have own := ((grounded.session session setup).submitted_of_saving saving).2
    refine ⟨reachable.step (.save (valid config own) schedule saves), fun record member => ?_⟩
    rcases saves.mem member with old | rfl
    · exact records record old
    · exact own
  cases step with
  | cut off => exact grounded
  | started off => exact grounded.of_start _ _
  | stopped => exact of_off reachable records
  | @requested worker reads session after exit setup read taken =>
      refine of_setup reachable records (taken.kept (fun _ => nofun) (kept session setup))
        ((grounded.session session setup).step taken fun other config same => ?_)
      obtain ⟨_, parsed⟩ := Event.request.inj same
      exact asked worker reads exit config rfl read parsed
  | @served event session after setup handover taken =>
      refine of_setup reachable records (taken.kept (fun saved same => ?_) (kept session setup))
        ((grounded.session session setup).step taken fun other config same => ?_)
      · rw [same] at handover
        cases handover
      · rw [same] at handover
        cases handover
  | @saved schedule session after config setup saving saved told taken =>
      obtain ⟨journal', saves, success⟩ := clean.exists_saveRecords setup saving journal
      obtain ⟨reachable', records'⟩ := account setup saving saves
      exact of_setup reachable' records' ((kept session setup).save saving taken
          (saves.newest reachable.represents) fun succeeded => success (told succeeded))
        ((grounded.session session setup).step taken fun _ _ => nofun)
  | @cutSave schedule session config setup saving =>
      obtain ⟨journal', saves, _⟩ := clean.exists_saveRecords setup saving journal
      obtain ⟨reachable', records'⟩ := account setup saving saves
      exact of_off reachable' records'
  | @received millis packet config host station =>
      obtain ⟨own, remembered⟩ := grounded.station config host station
      refine of_station reachable records own ?_
      rcases host.accept_cases config.token.text packet millis with
        ⟨command, carries, _, accepted⟩ | ⟨error, rejected⟩
      · exact Or.inr ⟨command, millis, packet, came millis packet rfl, carries, by rw [accepted]⟩
      · rwa [rejected]

end Controller.Grounded

/-! ## Whole runs -/

/-- A run of a controller from a flash in which no slot decodes, whose erases are clean. -/
structure Controller.Run [DecidableEq ι] (usizeMax : ℕ) (memory : Memory)
    (events : List (ControllerEvent ι FlashError)) (controller : Controller ι) : Prop where
  vacant : ∀ slot, Rejected slot memory
  runs : GuardedRun.run (Controller.step usizeMax) ⟨memory, .off⟩ events = some controller
  clean : ∀ index event before, events[index]? = some event →
    GuardedRun.run (Controller.step usizeMax) ⟨memory, .off⟩ (events.take index) = some before →
    before.ErasesCleanly event

/-- Without a cut erase all erases are clean. -/
theorem Controller.clean_of_completes [DecidableEq ι] {usizeMax : ℕ} {memory : Memory}
    {events : List (ControllerEvent ι FlashError)}
    (completes : ∀ schedule, .save schedule ∈ events → schedule 6 = .completes)
    (index : ℕ) (event : ControllerEvent ι FlashError) (before : Controller ι)
    (here : events[index]? = some event)
    (_ : GuardedRun.run (Controller.step usizeMax) ⟨memory, .off⟩ (events.take index) =
      some before) : before.ErasesCleanly event := by
  cases event with
  | save schedule => exact .of_completes (completes schedule (List.mem_of_getElem? here)) before
  | start | stop | request | serve | receive => trivial

/-- The configuration was in a request that a client of the setup server sent. -/
def SubmittedIn (usizeMax : ℕ) (events : List (ControllerEvent ι FlashError))
    (config : DeviceConfig) : Prop :=
  ∃ worker reads exit, .request worker reads ∈ events ∧
    readRequest usizeMax [] reads = some exit ∧ exit.parsedRequest = .ok (.save config)

theorem SubmittedIn.valid {usizeMax : ℕ} {events : List (ControllerEvent ι FlashError)}
    {config : DeviceConfig} (submitted : SubmittedIn usizeMax events config) : config.Valid := by
  obtain ⟨_, _, _, _, read, parsed⟩ := submitted
  obtain ⟨arrived, accepted⟩ := exists_parseRequest_of_readRequest read parsed
  exact valid_of_parseRequest accepted

/-- **The invariant of all runs.** -/
theorem Controller.Run.grounded [DecidableEq ι] {usizeMax : ℕ} {memory : Memory}
    {events : List (ControllerEvent ι FlashError)} {controller : Controller ι}
    (run : Controller.Run usizeMax memory events controller) :
    controller.Grounded FlashError (SubmittedIn usizeMax events)
      fun millis packet => .receive millis packet ∈ events := by
  have whole : GuardedRun.run (Controller.step usizeMax) ⟨memory, .off⟩
      (events.take events.length) = some controller := by
    rw [List.take_length]
    exact run.runs
  refine @GuardedRun.run_induct _ _ _ _ (fun before event =>
    before.ErasesCleanly event ∧ event ∈ events) _ _ ?_ ?_ _ ?_ _ whole
  · exact Controller.Grounded.of_off (.start run.vacant) nofun
  · intro before event after grounded condition stepped
    refine grounded.step (Controller.step_cases stepped) condition.1
      (fun config submitted => submitted.valid) ?_ ?_
    · rintro worker reads exit config rfl read parsed
      exact ⟨worker, reads, exit, condition.2, read, parsed⟩
    · rintro millis packet rfl
      exact condition.2
  · intro index _ event before after here reached stepped
    exact ⟨run.clean index event before here reached, List.mem_of_getElem? here⟩

/-- A controller that can connect restarts in station mode with the newest record. -/
theorem Controller.run_restart [DecidableEq ι] (usizeMax : ℕ) {controller : Controller ι}
    {journal : Journal} {config : DeviceConfig}
    (reachable : Reachable FlashError controller.memory journal)
    (newest : journal.newest = some config) {schedule : ℕ → Outcome FlashError}
    (completes : ∀ index < slotCount, schedule index = .completes) :
    GuardedRun.run (Controller.step usizeMax) controller [.stop, .start schedule true] =
      some ⟨controller.memory, .station config .new⟩ := by
  have loaded : (load (⟨controller.memory, schedule⟩ : Device FlashError)).1 =
      .ok (some config) := by
    rw [load_completes completes, ← newest]
    exact (@faultlessLoad_eq FlashError _).symm.trans
      (faultlessLoad_of_represents reachable.represents)
  simp [GuardedRun.run, Controller.step, loaded, storedConfig, Mode.start]

/-- **The fan runs only for a submitted token.** In every run from an empty flash, through any
starts, setup sessions, saves, resets and packets, a fan that runs does so in station mode, for
a packet of the last minute that carries the token of the configuration in use, and that
configuration was in a request of a setup client that the parser accepted. -/
theorem fan_runs_for_submitted_token [DecidableEq ι] {usizeMax : ℕ} {memory : Memory}
    {events : List (ControllerEvent ι FlashError)} {controller : Controller ι}
    (run : Controller.Run usizeMax memory events controller) {millis : ℕ}
    (running : controller.mode.host.dutyPercent millis ≠ 0) :
    ∃ config host, controller.mode = .station config host ∧ SubmittedIn usizeMax events config ∧
      ∃ command sent packet, .receive sent packet ∈ events ∧
        Carries config.token.text packet command ∧ millis ≤ sent + offlineCooldownMillis ∧
        host = .remembering command sent := by
  have grounded := run.grounded
  cases mode : controller.mode with
  | off | setup =>
      rw [mode] at running
      exact (running rfl).elim
  | station config host =>
      rw [mode] at running
      obtain ⟨submitted, remembered⟩ := grounded.station config host mode
      rcases remembered with rfl | ⟨command, sent, packet, arrived, carries, rfl⟩
      · exact (running rfl).elim
      refine ⟨config, _, rfl, submitted, command, sent, packet, arrived, carries, ?_, rfl⟩
      by_contra late
      apply running
      change (HostState.remembering command sent).dutyPercent millis = 0
      rw [HostState.dutyPercent_remembering, if_pos (Nat.lt_of_not_le late)]
      rfl

/-- **A told success outlives the restart.** In every run from an empty flash, once a worker
has told its client of a success and the controller restarts, every start whose reads complete
and that can connect enters station mode with a configuration submitted in that session: that
of its last successful save, or of a failed one after it. -/
theorem told_success_outlives_restart [DecidableEq ι] {usizeMax : ℕ} {memory : Memory}
    {events : List (ControllerEvent ι FlashError)} {controller : Controller ι}
    (run : Controller.Run usizeMax memory events controller) {session : Session ι}
    (setup : controller.mode = .setup session) (restarted : session.restarted = true) :
    ∃ earlier config outcome later, session.saves = earlier ++ (config, outcome) :: later ∧
      (∀ made ∈ later, made.2 = false) ∧ config ∈ session.submissions.map Prod.snd ∧
      ∀ schedule : ℕ → Outcome FlashError, (∀ index < slotCount, schedule index = .completes) →
        GuardedRun.run (Controller.step usizeMax) controller [.stop, .start schedule true] =
          some ⟨controller.memory, .station config .new⟩ := by
  have grounded := run.grounded
  obtain ⟨journal, reachable, _, kept⟩ := grounded.journal
  have sound := grounded.session session setup
  obtain ⟨earlier, config, outcome, later, saves, failures, newest⟩ :=
    kept session setup (sound.exists_success (sound.restarted restarted))
  refine ⟨earlier, config, outcome, later, saves, failures, ?_, fun schedule completes =>
    Controller.run_restart usizeMax reachable newest completes⟩
  rw [sound.consistent.saved_in_order, saves]
  simp

/-! ## A first setup

A client submits a configuration for an open network, the controller restarts with it and
receives a packet. -/

/-- `POST /save` with the fields of the open network. -/
def openNetworkRequest : List UInt8 :=
  Text.bytes "POST /save HTTP/1.1\r\nContent-Length: 42\r\n" ++
    Text.bytes "Content-Type: application/x-www-form-urlencoded\r\n\r\n" ++
    Text.bytes "ssid=home&password=&token=0123456789abcdef"

/-- The controller is set up and restarts. -/
def firstSetup : List (ControllerEvent Unit Empty) :=
  [.start (fun _ => .completes) false, .request () [.received openNetworkRequest]] ++
    ([.submit (), .take].map .serve ++ (.save (fun _ => .completes) ::
      [.report, .receive (), .respond ()].map .serve))

/-- The packet `LC2 0123456789abcdef 7 50000 40`. -/
def openNetworkPacket : List UInt8 := Text.bytes "LC2 0123456789abcdef 7 50000 40\n"

theorem readRequest_openNetwork :
    readRequest 4294967295 [] [.received openNetworkRequest] =
      some (.parsed (.ok (.save openNetwork))) := by
  have parsed : parseRequest 4294967295 openNetworkRequest requestBufferLen =
      .ok (some (.save openNetwork)) := by decide +kernel
  rw [readRequest_received (by decide), List.nil_append, parsed]
  rfl

/-- The client's session before and after the save. -/
theorem exists_openNetwork_session :
    ∃ saving reporting restarted : Session Unit,
      GuardedRun.run Session.step .start
        [.request () (.ok (.save openNetwork)), .submit (), .take] = some saving ∧
      saving.mainLoop = .saving openNetwork ∧ saving.restarted = false ∧
      saving.step (.save true) = some reporting ∧
      GuardedRun.run Session.step reporting [.report, .receive (), .respond ()] = some restarted ∧
      restarted.restarted = true ∧ restarted.submissions = [((), openNetwork)] :=
  ⟨_, _, _, rfl, rfl, rfl, rfl, rfl, rfl, rfl⟩

/-- The first save succeeds, and its record is the newest. -/
theorem exists_openNetwork_memory :
    ∃ memory journal, (save openNetwork (Device.faultless blankFlash : Device Empty)).1 = .ok () ∧
      memoryAfter openNetwork (Device.faultless blankFlash : Device Empty) = memory ∧
      Reachable Empty memory journal ∧ journal.newest = some openNetwork := by
  obtain ⟨_, succeeded, _⟩ := @save_completes Empty openNetwork (Device.faultless blankFlash)
    openNetwork_valid fun _ _ => rfl
  exact ⟨_, _, congrArg Prod.fst succeeded, rfl, reachable_blankFlash.step
    (.save openNetwork_valid (fun _ => .completes) (.saved fun _ _ => rfl)), rfl⟩

theorem run_firstSetup :
    ∃ (memory : Memory) (journal : Journal) (session : Session Unit),
      Reachable Empty memory journal ∧ journal.newest = some openNetwork ∧
      session.restarted = true ∧ session.submissions = [((), openNetwork)] ∧
      Controller.Run 4294967295 blankFlash firstSetup ⟨memory, .setup session⟩ := by
  obtain ⟨saving, reporting, restarted, first, loop, running, saved, second, told, submissions⟩ :=
    exists_openNetwork_session
  obtain ⟨memory, journal, succeeded, left, reachable, newest⟩ := exists_openNetwork_memory
  refine ⟨memory, journal, restarted, reachable, newest, told, submissions, ?_, ?_,
    Controller.clean_of_completes (by simp [firstSetup])⟩
  · exact fun _ => rejected_of_unmarked (not_marked_of_erased rfl)
  obtain ⟨asked, request, handed⟩ := GuardedRun.run_cons_eq_some_iff.mp first
  have empty : (load (Device.faultless blankFlash : Device Empty)).1 = .ok none :=
    faultlessLoad_of_represents (@reachable_blankFlash Empty).represents
  have started : Controller.step 4294967295 (⟨blankFlash, .off⟩ : Controller Unit)
      (.start (fun _ => .completes) false : ControllerEvent Unit Empty) =
        some ⟨blankFlash, .setup .start⟩ := by
    unfold Device.faultless at empty
    simp [Controller.step, empty, storedConfig, Mode.start]
  have requested : Controller.step 4294967295 (⟨blankFlash, .setup .start⟩ : Controller Unit)
      (.request () [.received openNetworkRequest] : ControllerEvent Unit Empty) =
        some ⟨blankFlash, .setup asked⟩ := by
    simp [Controller.step, readRequest_openNetwork, ReadExit.parsedRequest, request]
  have stored : Controller.step 4294967295 (⟨blankFlash, .setup saving⟩ : Controller Unit)
      (.save (fun _ => .completes) : ControllerEvent Unit Empty) =
        some ⟨memory, .setup reporting⟩ := by
    rw [← left]
    exact Controller.step_save_ok _ running loop succeeded saved
  refine GuardedRun.run_append_eq_some_iff.mpr ⟨_, ?_, GuardedRun.run_append_eq_some_iff.mpr ⟨_,
    Controller.run_serve _ (by decide) handed, GuardedRun.run_cons_eq_some_iff.mpr ⟨_, stored,
      Controller.run_serve _ (by decide) second⟩⟩⟩
  exact GuardedRun.run_cons_eq_some_iff.mpr ⟨_, started,
    GuardedRun.run_cons_eq_some_iff.mpr ⟨_, requested, rfl⟩⟩

/-- The client that was told of its success finds the controller connected to its network. -/
theorem told_success_outlives_restart_first :
    ∃ (memory : Memory) (session : Session Unit), session.restarted = true ∧
      GuardedRun.run (Controller.step 4294967295) (⟨memory, .setup session⟩ : Controller Unit)
        [.stop, (.start (fun _ => .completes) true : ControllerEvent Unit Empty)] =
          some ⟨memory, .station openNetwork .new⟩ := by
  obtain ⟨memory, _, session, _, _, restarted, submissions, run⟩ := run_firstSetup
  obtain ⟨_, config, _, _, _, _, submitted, starts⟩ :=
    told_success_outlives_restart run rfl restarted
  obtain rfl : config = openNetwork := by simpa [submissions] using submitted
  exact ⟨memory, session, restarted, starts (fun _ => .completes) fun _ _ => rfl⟩

/-- The controller restarts and the first packet arrives. -/
def firstPacket : List (ControllerEvent Unit Empty) :=
  firstSetup ++ ([.stop, .start (fun _ => .completes) true] ++ [.receive 1000 openNetworkPacket])

/-- The fan runs at the requested duty once the first packet has arrived. -/
theorem fan_runs_for_submitted_token_first :
    ∃ controller : Controller Unit, controller.mode.host.dutyPercent 1000 = 40 ∧
      ∃ config host, controller.mode = .station config host ∧
        SubmittedIn 4294967295 firstPacket config := by
  obtain ⟨memory, journal, session, reachable, newest, _, _, setup⟩ := run_firstSetup
  have restarts := @Controller.run_restart _ Empty _ 4294967295 ⟨memory, .setup session⟩ _ _
    reachable newest (fun _ => .completes) fun _ _ => rfl
  have accepted : (HostState.new.accept openNetwork.token.text openNetworkPacket 1000).2 =
      .remembering ⟨7, 50000, 40⟩ 1000 := by decide
  have arrives : Controller.step 4294967295
      (⟨memory, .station openNetwork .new⟩ : Controller Unit)
      (.receive 1000 openNetworkPacket : ControllerEvent Unit Empty) =
        some ⟨memory, .station openNetwork (.remembering ⟨7, 50000, 40⟩ 1000)⟩ := by
    simp [Controller.step, accepted]
  have run : Controller.Run 4294967295 blankFlash firstPacket
      ⟨memory, .station openNetwork (.remembering ⟨7, 50000, 40⟩ 1000)⟩ := by
    refine ⟨setup.vacant, ?_, Controller.clean_of_completes (by simp [firstPacket, firstSetup])⟩
    exact GuardedRun.run_append_eq_some_iff.mpr ⟨_, setup.runs,
      GuardedRun.run_append_eq_some_iff.mpr ⟨_, restarts,
        GuardedRun.run_cons_eq_some_iff.mpr ⟨_, arrives, rfl⟩⟩⟩
  have running : (HostState.remembering ⟨7, 50000, 40⟩ 1000).dutyPercent 1000 = 40 := by decide
  obtain ⟨config, host, station, submitted, _⟩ :=
    @fan_runs_for_submitted_token _ _ _ _ _ _ _ run 1000 (running.trans_ne (by decide))
  exact ⟨⟨memory, .station openNetwork (.remembering ⟨7, 50000, 40⟩ 1000)⟩, running,
    config, host, station, submitted⟩

end LaptopCooler.Firmware
