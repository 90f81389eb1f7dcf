import LaptopCooler.Firmware.Provisioning
import LaptopCooler.Library.Channel
import LaptopCooler.Library.GuardedRun
import Mathlib.Data.List.Nodup
import Mathlib.Logic.Function.Basic

/-! # The setup server

The model of setup mode in `src/main.rs`: any number of HTTP workers and the
main loop, which saves configurations between its fan measurements. Workers hand
their configurations to the main loop through `NEW_CONFIG` and take the outcome
from `CONFIG_SAVE_RESULT`, two channels for one message each. An event is one
step of a worker or of the main loop, in any order.

A session adds to the state what happened so far: the configurations in the
order they were submitted and saved, the outcomes taken, and the workers that
wait, in the order of their submissions. The counts of the session balance in
every run (`LaptopCooler.Firmware.Session.Consistent`).
-/

namespace LaptopCooler.Firmware

/-- The pages a worker answers with. -/
inductive Response where
  | formPage
  | savedPage
  | badRequest
  | saveFailed
  | notFound
  deriving DecidableEq

/-- What a worker is doing: reading a request, sending to `NEW_CONFIG`, receiving
from `CONFIG_SAVE_RESULT`, or writing its response. -/
inductive Worker where
  | serving
  | submitting (config : DeviceConfig)
  | waiting
  | answering (response : Response) (restartAfterResponse : Bool)
  deriving DecidableEq

/-- What the main loop is doing: measuring and polling `NEW_CONFIG`, saving, or
sending to `CONFIG_SAVE_RESULT`. -/
inductive MainLoop where
  | polling
  | saving (config : DeviceConfig)
  | reporting (saved : Bool)

structure State (ι : Type) where
  workers : ι → Worker
  newConfig : Channel 1 DeviceConfig
  configSaveResult : Channel 1 Bool
  mainLoop : MainLoop
  restarted : Bool

inductive Event (ι : Type) where
  | request (worker : ι) (parsedRequest : Except RequestError Request)
  | submit (worker : ι)
  | take
  | save (saved : Bool)
  | report
  | receive (worker : ι)
  | respond (worker : ι)

def Worker.afterRequest (parsedRequest : Except RequestError Request) : Worker :=
  match parsedRequest with
  | .ok .showForm => .answering .formPage false
  | .ok (.save config) => .submitting config
  | .ok .notFound => .answering .notFound false
  | .error _ => .answering .badRequest false

def Worker.afterResult (saved : Bool) : Worker :=
  if saved then .answering .savedPage true else .answering .saveFailed false

variable {ι : Type}

def State.setWorker [DecidableEq ι] (state : State ι) (worker : ι) (activity : Worker) : State ι :=
  { state with workers := Function.update state.workers worker activity }

/-- The state after an event, if the event is possible. A restart ends the session. -/
def State.step [DecidableEq ι] (state : State ι) (event : Event ι) : Option (State ι) :=
  if state.restarted then none else
  match event with
  | .request worker parsedRequest =>
      match state.workers worker with
      | .serving => some (state.setWorker worker (.afterRequest parsedRequest))
      | _ => none
  | .submit worker =>
      match state.workers worker with
      | .submitting config => (state.newConfig.send? config).map fun newConfig =>
          { state.setWorker worker .waiting with newConfig := newConfig }
      | _ => none
  | .take =>
      match state.mainLoop with
      | .polling => state.newConfig.receive?.map fun (config, newConfig) =>
          { state with mainLoop := .saving config, newConfig := newConfig }
      | _ => none
  | .save saved =>
      match state.mainLoop with
      | .saving _ => some { state with mainLoop := .reporting saved }
      | _ => none
  | .report =>
      match state.mainLoop with
      | .reporting saved => (state.configSaveResult.send? saved).map fun configSaveResult =>
          { state with mainLoop := .polling, configSaveResult := configSaveResult }
      | _ => none
  | .receive worker =>
      match state.workers worker with
      | .waiting => state.configSaveResult.receive?.map fun (saved, configSaveResult) =>
          { state.setWorker worker (.afterResult saved) with configSaveResult := configSaveResult }
      | _ => none
  | .respond worker =>
      match state.workers worker with
      | .answering _ restartAfterResponse =>
          some { state.setWorker worker .serving with restarted := restartAfterResponse }
      | _ => none

/-! ## Sessions -/

/-- A state together with what happened so far. A worker's ticket is the number of
submissions before its latest one. -/
structure Session (ι : Type) extends State ι where
  submissions : List (ι × DeviceConfig)
  saves : List (DeviceConfig × Bool)
  received : List Bool
  line : List ι
  ticket : ι → ℕ

/-- The session when setup mode begins. -/
def Session.start : Session ι where
  workers _ := .serving
  newConfig := .empty
  configSaveResult := .empty
  mainLoop := .polling
  restarted := false
  submissions := []
  saves := []
  received := []
  line := []
  ticket _ := 0

/-- What an event adds to the history of a session. -/
def Session.record [DecidableEq ι] (session : Session ι) (event : Event ι) : Session ι :=
  match event with
  | .submit worker =>
      match session.workers worker with
      | .submitting config =>
          { session with
            submissions := session.submissions ++ [(worker, config)]
            line := session.line ++ [worker]
            ticket := Function.update session.ticket worker session.submissions.length }
      | _ => session
  | .save saved =>
      match session.mainLoop with
      | .saving config => { session with saves := session.saves ++ [(config, saved)] }
      | _ => session
  | .receive worker =>
      { session with
        received := session.received ++ session.configSaveResult.queue.take 1
        line := session.line.erase worker }
  | _ => session

def Session.step [DecidableEq ι] (session : Session ι) (event : Event ι) : Option (Session ι) :=
  (session.toState.step event).map fun next => { session.record event with toState := next }

/-- The steps of a session, each with what it needs and what it changes. -/
inductive Session.Step [DecidableEq ι] (session : Session ι) : Event ι → Session ι → Prop where
  | request {worker : ι} {parsedRequest : Except RequestError Request}
      (serving : session.workers worker = .serving) :
      Step session (.request worker parsedRequest)
        { session with
          workers := Function.update session.workers worker (.afterRequest parsedRequest) }
  | submit {worker : ι} {config : DeviceConfig} {newConfig : Channel 1 DeviceConfig}
      (submitting : session.workers worker = .submitting config)
      (sent : newConfig.queue = session.newConfig.queue ++ [config]) :
      Step session (.submit worker)
        { session with
          workers := Function.update session.workers worker .waiting
          newConfig := newConfig
          submissions := session.submissions ++ [(worker, config)]
          line := session.line ++ [worker]
          ticket := Function.update session.ticket worker session.submissions.length }
  | take {config : DeviceConfig} {newConfig : Channel 1 DeviceConfig}
      (polling : session.mainLoop = .polling)
      (received : session.newConfig.queue = config :: newConfig.queue) :
      Step session .take { session with mainLoop := .saving config, newConfig := newConfig }
  | save {config : DeviceConfig} {saved : Bool} (saving : session.mainLoop = .saving config) :
      Step session (.save saved)
        { session with
          mainLoop := .reporting saved
          saves := session.saves ++ [(config, saved)] }
  | report {saved : Bool} {configSaveResult : Channel 1 Bool}
      (reporting : session.mainLoop = .reporting saved)
      (sent : configSaveResult.queue = session.configSaveResult.queue ++ [saved]) :
      Step session .report
        { session with mainLoop := .polling, configSaveResult := configSaveResult }
  | receive {worker : ι} {saved : Bool} {configSaveResult : Channel 1 Bool}
      (waiting : session.workers worker = .waiting)
      (received : session.configSaveResult.queue = saved :: configSaveResult.queue) :
      Step session (.receive worker)
        { session with
          workers := Function.update session.workers worker (.afterResult saved)
          configSaveResult := configSaveResult
          received := session.received ++ [saved]
          line := session.line.erase worker }
  | respond {worker : ι} {response : Response} {restartAfterResponse : Bool}
      (answering : session.workers worker = .answering response restartAfterResponse) :
      Step session (.respond worker)
        { session with
          workers := Function.update session.workers worker .serving
          restarted := restartAfterResponse }

theorem Session.step_cases [DecidableEq ι] {session next : Session ι} {event : Event ι}
    (stepped : session.step event = some next) : session.Step event next := by
  obtain ⟨state, possible, rfl⟩ := Option.map_eq_some_iff.mp stepped
  unfold State.step at possible
  split at possible
  · cases possible
  cases event with
  | request worker parsedRequest =>
      dsimp only at possible
      split at possible
      next serving =>
        obtain rfl := Option.some.inj possible
        exact .request serving
      next => cases possible
  | submit worker =>
      dsimp only at possible
      split at possible
      next config submitting =>
        obtain ⟨newConfig, sent, rfl⟩ := Option.map_eq_some_iff.mp possible
        simp only [Session.record, submitting]
        exact .submit submitting (Channel.send?_eq_some_iff.mp sent).2
      next => cases possible
  | take =>
      dsimp only at possible
      split at possible
      next polling =>
        obtain ⟨⟨config, newConfig⟩, received, rfl⟩ := Option.map_eq_some_iff.mp possible
        exact .take polling (Channel.receive?_eq_some_iff.mp received)
      next => cases possible
  | save saved =>
      dsimp only at possible
      split at possible
      next config saving =>
        obtain rfl := Option.some.inj possible
        simp only [Session.record, saving]
        exact .save saving
      next => cases possible
  | report =>
      dsimp only at possible
      split at possible
      next saved reporting =>
        obtain ⟨configSaveResult, sent, rfl⟩ := Option.map_eq_some_iff.mp possible
        exact .report reporting (Channel.send?_eq_some_iff.mp sent).2
      next => cases possible
  | receive worker =>
      dsimp only at possible
      split at possible
      next waiting =>
        obtain ⟨⟨saved, configSaveResult⟩, taken, rfl⟩ := Option.map_eq_some_iff.mp possible
        have queue := Channel.receive?_eq_some_iff.mp taken
        simp only [Session.record, queue, List.take_succ_cons, List.take_zero]
        exact .receive waiting queue
      next => cases possible
  | respond worker =>
      dsimp only at possible
      split at possible
      next response restartAfterResponse answering =>
        obtain rfl := Option.some.inj possible
        exact .respond answering
      next => cases possible

/-! ## The balance of a session -/

/-- The configuration that the main loop has taken and not yet saved. -/
def MainLoop.unsaved : MainLoop → List DeviceConfig
  | .saving config => [config]
  | .polling | .reporting _ => []

/-- The outcome that the main loop has not yet reported. -/
def MainLoop.unreported : MainLoop → List Bool
  | .reporting saved => [saved]
  | .polling | .saving _ => []

/-- The outcomes on their way to the workers, oldest first. -/
def Session.results (session : Session ι) : List Bool :=
  session.configSaveResult.queue ++ session.mainLoop.unreported

/-- What happened stays where it is in the history. -/
theorem getElem?_append_of_some {α : Type} {history more : List α} {index : ℕ} {entry : α}
    (found : history[index]? = some entry) : (history ++ more)[index]? = some entry :=
  (List.getElem?_append_left (List.getElem?_eq_some_iff.mp found).1).trans found

theorem getElem?_concat_cases {α : Type} {history : List α} {last entry : α} {index : ℕ}
    (found : (history ++ [last])[index]? = some entry) :
    history[index]? = some entry ∨ index = history.length ∧ entry = last := by
  rcases Nat.lt_or_ge index history.length with inside | beyond
  · exact Or.inl (by rwa [List.getElem?_append_left inside] at found)
  · have room := (List.getElem?_eq_some_iff.mp found).1
    rw [List.length_append, List.length_singleton] at room
    obtain rfl : index = history.length := Nat.le_antisymm (Nat.le_of_lt_succ room) beyond
    rw [List.getElem?_concat_length] at found
    exact Or.inr ⟨rfl, (Option.some.inj found).symm⟩

/-- The worker waits for the outcome of its submission or answers with one. -/
def Worker.HasSubmitted (activity : Worker) : Prop :=
  activity = .waiting ∨ ∃ saved, activity = .afterResult saved

/-- What balances in every run: configurations are saved in the order they were
submitted and outcomes taken in the order of the saves; the line holds the waiting
workers, one for every submission whose outcome is still on its way. -/
structure Session.Consistent (session : Session ι) : Prop where
  saved_in_order : session.submissions.map Prod.snd =
    session.saves.map Prod.fst ++ session.mainLoop.unsaved ++ session.newConfig.queue
  received_in_order : session.saves.map Prod.snd = session.received ++ session.results
  waiting : ∀ worker, worker ∈ session.line ↔ session.workers worker = .waiting
  distinct : session.line.Nodup
  outstanding : session.line.length = session.newConfig.queue.length +
    session.mainLoop.unsaved.length + session.results.length
  submission : ∀ worker, (session.workers worker).HasSubmitted →
    ∃ config, session.submissions[session.ticket worker]? = some (worker, config)

theorem Worker.afterResult_ne_waiting (saved : Bool) : Worker.afterResult saved ≠ .waiting := by
  cases saved <;> simp [Worker.afterResult]

theorem Worker.not_hasSubmitted_serving : ¬ Worker.serving.HasSubmitted := by
  rintro (waiting | ⟨saved, answering⟩)
  · cases waiting
  · cases saved <;> cases answering

theorem Worker.not_hasSubmitted_afterRequest (parsedRequest : Except RequestError Request) :
    ¬ (Worker.afterRequest parsedRequest).HasSubmitted := by
  rintro (waiting | ⟨saved, answering⟩)
  · rcases parsedRequest with _ | _ | _ | _ <;> cases waiting
  · rcases parsedRequest with _ | _ | _ | _ <;> cases saved <;> cases answering

theorem Session.consistent_start : (Session.start : Session ι).Consistent where
  saved_in_order := rfl
  received_in_order := rfl
  waiting worker := by simp [Session.start]
  distinct := List.nodup_nil
  outstanding := rfl
  submission worker submitted := (Worker.not_hasSubmitted_serving submitted).elim

namespace Session.Consistent

variable [DecidableEq ι] {session next : Session ι} {worker : ι}

/-- A worker that turns to something other than waiting, and did not wait, leaves
the line as it is. -/
private theorem waiting_update (consistent : session.Consistent) {activity : Worker}
    (before : session.workers worker ≠ .waiting) (after : activity ≠ .waiting) (other : ι) :
    other ∈ session.line ↔ Function.update session.workers worker activity other = .waiting := by
  rw [consistent.waiting]
  by_cases same : other = worker
  · rw [same, Function.update_self]
    exact iff_of_false before after
  · rw [Function.update_of_ne same]

private theorem submission_update (consistent : session.Consistent) {activity : Worker}
    (after : ¬ activity.HasSubmitted) (other : ι)
    (submitted : (Function.update session.workers worker activity other).HasSubmitted) :
    ∃ config, session.submissions[session.ticket other]? = some (other, config) := by
  by_cases same : other = worker
  · rw [same, Function.update_self] at submitted
    exact (after submitted).elim
  · rw [Function.update_of_ne same] at submitted
    exact consistent.submission other submitted

private theorem not_waiting_of_not_submitted {activity : Worker} (idle : ¬ activity.HasSubmitted) :
    activity ≠ .waiting := fun waiting => idle (Or.inl waiting)

/-- A submission joins the end of the line and of the submissions. -/
private theorem step_submit (consistent : session.Consistent)
    (step : session.Step (.submit worker) next) : next.Consistent := by
  cases step with
  | @submit _ config newConfig submitting sent =>
      have absent : worker ∉ session.line := by
        rw [consistent.waiting, submitting]
        exact Worker.noConfusion
      refine { consistent with
        saved_in_order := ?_, waiting := ?_, distinct := ?_, outstanding := ?_, submission := ?_ }
      · simp only [List.map_append, List.map_cons, List.map_nil, consistent.saved_in_order, sent,
          List.append_assoc]
      · intro other
        rw [List.mem_append, List.mem_singleton, consistent.waiting]
        by_cases same : other = worker
        · simp only [same, or_true, Function.update_self]
        · simp only [same, or_false, ne_eq, not_false_eq_true, Function.update_of_ne]
      · apply List.nodup_append.mpr
        refine ⟨consistent.distinct, List.nodup_singleton worker, ?_⟩
        rintro other member _ last rfl
        exact absent (List.mem_singleton.mp last ▸ member)
      · have balance := consistent.outstanding
        simp only [Session.results, List.length_append, List.length_singleton, sent] at balance ⊢
        omega
      · intro other submitted
        by_cases same : other = worker
        · refine ⟨config, ?_⟩
          simp only [same, Function.update_self, List.getElem?_concat_length]
        · simp only [Function.update_of_ne same] at submitted ⊢
          obtain ⟨own, found⟩ := consistent.submission other submitted
          exact ⟨own, getElem?_append_of_some found⟩

/-- A worker that takes an outcome leaves the line. -/
private theorem step_receive (consistent : session.Consistent)
    (step : session.Step (.receive worker) next) : next.Consistent := by
  cases step with
  | @receive _ saved configSaveResult waiting received =>
      have member := (consistent.waiting worker).mpr waiting
      refine { consistent with
        received_in_order := ?_, waiting := ?_, distinct := consistent.distinct.erase worker,
        outstanding := ?_, submission := ?_ }
      · have reports := consistent.received_in_order
        simpa [Session.results, received] using reports
      · intro other
        rw [consistent.distinct.mem_erase_iff, consistent.waiting]
        by_cases same : other = worker
        · simp only [same, Function.update_self, Worker.afterResult_ne_waiting, ne_eq,
            not_true_eq_false, false_and]
        · simp only [same, ne_eq, not_false_eq_true, true_and, Function.update_of_ne]
      · have balance := consistent.outstanding
        have nonempty := List.length_pos_of_mem member
        simp only [Session.results, received, List.cons_append, List.length_cons,
          List.length_erase_of_mem member] at balance ⊢
        omega
      · intro other submitted
        apply consistent.submission
        by_cases same : other = worker
        · exact Or.inl (same ▸ waiting)
        · simpa only [Function.update_of_ne same] using submitted

/-- The main loop moves a configuration, and then its outcome, one place further. -/
private theorem step_mainLoop (consistent : session.Consistent) {event : Event ι}
    (step : session.Step event next) (loop : event = .take ∨ event = .report ∨
      ∃ saved, event = .save saved) : next.Consistent := by
  have order := consistent.saved_in_order
  have reports := consistent.received_in_order
  have balance := consistent.outstanding
  cases step with
  | take polling received =>
      simp only [Session.results, polling, received, MainLoop.unsaved, MainLoop.unreported]
        at order reports balance
      refine { consistent with
        saved_in_order := ?_, received_in_order := reports, outstanding := ?_ }
      · simpa [MainLoop.unsaved] using order
      · simp only [Session.results, MainLoop.unsaved, MainLoop.unreported, List.length_cons,
          List.length_nil] at balance ⊢
        omega
  | save saving =>
      simp only [Session.results, saving, MainLoop.unsaved, MainLoop.unreported]
        at order reports balance
      refine { consistent with
        saved_in_order := ?_, received_in_order := ?_, outstanding := ?_ }
      · simpa [MainLoop.unsaved] using order
      · simp [Session.results, MainLoop.unreported, reports]
      · simp only [Session.results, MainLoop.unsaved, MainLoop.unreported, List.length_append,
          List.length_cons, List.length_nil] at balance ⊢
        omega
  | report reporting sent =>
      simp only [Session.results, reporting, MainLoop.unsaved, MainLoop.unreported]
        at order reports balance
      refine { consistent with
        saved_in_order := ?_, received_in_order := ?_, outstanding := ?_ }
      · simpa [MainLoop.unsaved] using order
      · simpa [Session.results, MainLoop.unreported, sent] using reports
      · simpa [Session.results, MainLoop.unsaved, MainLoop.unreported, sent] using balance
  | request | submit | receive | respond => simp at loop

/-- **Every step keeps the balance.** -/
theorem step {event : Event ι} (consistent : session.Consistent) (step : session.Step event next) :
    next.Consistent := by
  cases step with
  | @request worker parsedRequest serving =>
      have idle := Worker.not_hasSubmitted_afterRequest parsedRequest
      exact { consistent with
        waiting := consistent.waiting_update (by simp [serving]) (not_waiting_of_not_submitted idle)
        submission := consistent.submission_update idle }
  | submit submitting sent => exact consistent.step_submit (.submit submitting sent)
  | take polling received => exact consistent.step_mainLoop (.take polling received) (Or.inl rfl)
  | save saving => exact consistent.step_mainLoop (.save saving) (Or.inr (Or.inr ⟨_, rfl⟩))
  | report reporting sent =>
      exact consistent.step_mainLoop (.report reporting sent) (Or.inr (Or.inl rfl))
  | receive waiting received => exact consistent.step_receive (.receive waiting received)
  | respond answering =>
      exact { consistent with
        waiting := consistent.waiting_update (by simp [answering]) Worker.noConfusion
        submission := consistent.submission_update Worker.not_hasSubmitted_serving }

/-- **The balance of every run.** -/
theorem of_run {events : List (Event ι)}
    (runs : GuardedRun.run Session.step Session.start events = some session) :
    session.Consistent :=
  GuardedRun.run_invariant Session.consistent_start
    (fun _ _ _ consistent stepped => consistent.step (Session.step_cases stepped)) runs

omit [DecidableEq ι] in
/-- A configuration and the outcome saved for it belong to the submission in its place. -/
theorem saved_config (consistent : session.Consistent) {index : ℕ} {config saved : DeviceConfig}
    {outcome : Bool} (submitted : session.submissions[index]? = some (worker, config))
    (made : session.saves[index]? = some (saved, outcome)) : saved = config := by
  have configs := congrArg (·[index]?) consistent.saved_in_order
  simp only [List.append_assoc, List.getElem?_map, submitted, Option.map_some] at configs
  rw [getElem?_append_of_some (by rw [List.getElem?_map, made]; rfl)] at configs
  exact (Option.some.inj configs).symm

end Session.Consistent

end LaptopCooler.Firmware
