import LaptopCooler.Firmware.Submissions
import Mathlib.Algebra.BigOperators.Group.Finset.Basic
import Mathlib.Algebra.Order.BigOperators.Group.Finset

/-! # Every setup client is answered

A request is work for the setup server: every step of a worker or the main loop
after it does one unit of it, and six units are in a request that saves
(`LaptopCooler.Firmware.State.work`). In a state that can be reached there is a
step to take until no work is left, and then every worker serves again
(`LaptopCooler.Firmware.Session.Consistent.progress`). So no order of the steps
keeps a client waiting for ever (`LaptopCooler.Firmware.clients_answered`).
-/

namespace LaptopCooler.Firmware

variable {ι : Type}

/-- A step that the server takes by itself. -/
def Event.Internal : Event ι → Prop
  | .request .. => False
  | _ => True

instance : DecidablePred (Event.Internal : Event ι → Prop)
  | .request .. => isFalse not_false
  | .submit _ | .take | .save _ | .report | .receive _ | .respond _ => isTrue trivial

/-! ## The work left -/

/-- The steps that a worker's activity still takes, with those of the main loop on its
submission. -/
def Worker.work : Worker → ℕ
  | .serving => 0
  | .answering _ _ => 1
  | .waiting => 2
  | .submitting _ => 6

def MainLoop.work : MainLoop → ℕ
  | .polling => 0
  | .reporting _ => 1
  | .saving _ => 2

/-- The steps left to take. -/
def State.work [Fintype ι] (state : State ι) : ℕ :=
  ∑ worker, (state.workers worker).work + 3 * state.newConfig.queue.length + state.mainLoop.work

/-- The work that an event brings. -/
def Event.demand : Event ι → ℕ
  | .request _ parsedRequest => (Worker.afterRequest parsedRequest).work
  | _ => 0

/-- The work that an event does. -/
def Event.effort : Event ι → ℕ
  | .request _ _ => 0
  | _ => 1

/-- Nobody is served and nothing is on its way. -/
structure State.Idle (state : State ι) : Prop where
  serving : ∀ worker, state.workers worker = .serving
  polling : state.mainLoop = .polling
  nothing_submitted : state.newConfig.queue = []
  nothing_reported : state.configSaveResult.queue = []

@[simp] theorem Worker.work_serving : Worker.serving.work = 0 := rfl

@[simp] theorem Worker.work_waiting : Worker.waiting.work = 2 := rfl

@[simp] theorem Worker.work_submitting (config : DeviceConfig) :
    (Worker.submitting config).work = 6 := rfl

@[simp] theorem Worker.work_answering (response : Response) (restartAfterResponse : Bool) :
    (Worker.answering response restartAfterResponse).work = 1 := rfl

@[simp] theorem Worker.work_afterResult (saved : Bool) : (Worker.afterResult saved).work = 1 := by
  cases saved <;> rfl

section Work

variable [Fintype ι] [DecidableEq ι] {session next : Session ι} {event : Event ι}

/-- The work of all workers after one of them changed its activity. -/
theorem sum_work_update (workers : ι → Worker) (worker : ι) (activity : Worker) :
    ∑ other, (Function.update workers worker activity other).work + (workers worker).work =
      ∑ other, (workers other).work + activity.work := by
  rw [← Finset.add_sum_erase _ _ (Finset.mem_univ worker),
    ← Finset.add_sum_erase (f := fun other => (workers other).work) _ (Finset.mem_univ worker)]
  have others : ∑ other ∈ Finset.univ.erase worker,
      (Function.update workers worker activity other).work =
        ∑ other ∈ Finset.univ.erase worker, (workers other).work := by
    refine Finset.sum_congr rfl fun other member => ?_
    rw [Function.update_of_ne (Finset.ne_of_mem_erase member)]
  rw [others, Function.update_self]
  omega

/-- **A step does one unit of work.** Only a request brings new work. -/
theorem Session.Step.work (step : session.Step event next) :
    session.work + event.demand = next.work + event.effort := by
  cases step with
  | @request worker parsedRequest serving =>
      have balance := sum_work_update session.workers worker (.afterRequest parsedRequest)
      simp only [serving, Worker.work_serving, State.work, Event.demand, Event.effort] at balance ⊢
      omega
  | @submit worker config newConfig submitting sent =>
      have balance := sum_work_update session.workers worker .waiting
      have room := congrArg List.length sent
      simp only [List.length_append, List.length_singleton] at room
      simp only [submitting, Worker.work_submitting, Worker.work_waiting, State.work, Event.demand,
        Event.effort] at balance ⊢
      omega
  | @take config newConfig polling received =>
      have room := congrArg List.length received
      simp only [List.length_cons] at room
      simp only [polling, State.work, MainLoop.work, Event.demand, Event.effort]
      omega
  | save saving => simp only [saving, State.work, MainLoop.work, Event.demand, Event.effort]
  | report reporting sent =>
      simp only [reporting, State.work, MainLoop.work, Event.demand, Event.effort]
  | @receive worker saved configSaveResult waiting received =>
      have balance := sum_work_update session.workers worker (.afterResult saved)
      simp only [waiting, Worker.work_waiting, Worker.work_afterResult, State.work, Event.demand,
        Event.effort] at balance ⊢
      omega
  | @respond worker response restartAfterResponse answering =>
      have balance := sum_work_update session.workers worker .serving
      simp only [answering, Worker.work_answering, Worker.work_serving, State.work, Event.demand,
        Event.effort] at balance ⊢
      omega

end Work

/-! ## There is always a step to take -/

section Progress

variable [DecidableEq ι] {session : Session ι}

/-- The server can take a step. -/
def Session.Moves (session : Session ι) : Prop :=
  ∃ event : Event ι, event.Internal ∧ (session.step event).isSome

/-- An outcome in the channel is taken. -/
theorem Session.Consistent.moves_of_outcome (consistent : session.Consistent)
    (running : session.restarted = false) {saved : Bool} {rest : List Bool}
    (outcome : session.configSaveResult.queue = saved :: rest) : session.Moves := by
  obtain ⟨worker, waiting⟩ := consistent.exists_waiting (by simp [Session.results, outcome])
  have bounded := session.configSaveResult.bounded
  rw [outcome] at bounded
  have received : session.configSaveResult.receive? =
      some (saved, ⟨rest, Nat.le_of_succ_le bounded⟩) := Channel.receive?_eq_some_iff.mpr outcome
  exact ⟨.receive worker, trivial, by simp [Session.step, State.step, running, waiting, received]⟩

/-- The main loop moves, or a worker clears its way. -/
theorem Session.Consistent.moves_of_busy (consistent : session.Consistent)
    (running : session.restarted = false) (busy : session.mainLoop ≠ .polling) :
    session.Moves := by
  cases activity : session.mainLoop with
  | polling => exact (busy activity).elim
  | saving config =>
      exact ⟨.save true, trivial, by simp [Session.step, State.step, running, activity]⟩
  | reporting saved =>
      cases sent : session.configSaveResult.send? saved with
      | some configSaveResult =>
          exact ⟨.report, trivial, by simp [Session.step, State.step, running, activity, sent]⟩
      | none =>
          obtain ⟨worker, next, stepped, _⟩ := consistent.unblocked running activity sent
          exact ⟨.receive worker, trivial, by simp [stepped]⟩

/-- A configuration in the channel is taken, once the main loop is back. -/
theorem Session.Consistent.moves_of_submission (consistent : session.Consistent)
    (running : session.restarted = false) (submitted : session.newConfig.queue ≠ []) :
    session.Moves := by
  by_cases polling : session.mainLoop = .polling
  · obtain ⟨config, rest, queue⟩ := List.exists_cons_of_ne_nil submitted
    have bounded := session.newConfig.bounded
    rw [queue] at bounded
    have received : session.newConfig.receive? =
        some (config, ⟨rest, Nat.le_of_succ_le bounded⟩) := Channel.receive?_eq_some_iff.mpr queue
    exact ⟨.take, trivial, by simp [Session.step, State.step, running, polling, received]⟩
  · exact consistent.moves_of_busy running polling

/-- **The server never stops with work left.** -/
theorem Session.Consistent.progress (consistent : session.Consistent)
    (running : session.restarted = false) (unfinished : ¬ session.Idle) : session.Moves := by
  by_cases busy : session.mainLoop = .polling
  swap
  · exact consistent.moves_of_busy running busy
  by_cases submitted : session.newConfig.queue = []
  swap
  · exact consistent.moves_of_submission running submitted
  cases outcomes : session.configSaveResult.queue with
  | cons saved rest => exact consistent.moves_of_outcome running outcomes
  | nil =>
      -- Nothing is on its way, so a worker is at work and none of them waits.
      obtain ⟨worker, working⟩ : ∃ worker, session.workers worker ≠ .serving := by
        by_contra nobody
        have serving (worker : ι) : session.workers worker = .serving :=
          Classical.byContradiction fun working => nobody ⟨worker, working⟩
        exact unfinished ⟨serving, busy, submitted, outcomes⟩
      cases activity : session.workers worker with
      | serving => exact (working activity).elim
      | submitting config =>
          have sent : (session.newConfig.send? config).isSome := by
            simp [Channel.send?, submitted]
          obtain ⟨newConfig, sent⟩ := Option.isSome_iff_exists.mp sent
          exact ⟨.submit worker, trivial, by
            simp [Session.step, State.step, running, activity, sent]⟩
      | waiting =>
          have balance := consistent.outstanding
          have member := List.length_pos_of_mem ((consistent.waiting worker).mpr activity)
          simp [Session.results, submitted, outcomes, busy, MainLoop.unsaved,
            MainLoop.unreported] at balance
          simp [balance] at member
      | answering response restartAfterResponse =>
          exact ⟨.respond worker, trivial, by
            simp [Session.step, State.step, running, activity]⟩

end Progress

/-! ## Requests and responses -/

/-- The worker has read this request. -/
def Event.isRequestOf [DecidableEq ι] (worker : ι) : Event ι → Bool
  | .request other _ => other = worker
  | _ => false

/-- The worker has written this response. -/
def Event.isResponseOf [DecidableEq ι] (worker : ι) : Event ι → Bool
  | .respond other => other = worker
  | _ => false

/-- The requests that a worker has not answered yet. -/
def State.unanswered (state : State ι) (worker : ι) : ℕ :=
  if state.workers worker = .serving then 0 else 1

theorem Worker.afterRequest_ne_serving (parsedRequest : Except RequestError Request) :
    Worker.afterRequest parsedRequest ≠ .serving := by
  rcases parsedRequest with _ | _ | _ | _ <;> exact Worker.noConfusion

/-- A worker's next step is its own: only requests and responses start and end its work. -/
theorem Session.Step.unanswered [DecidableEq ι] {session next : Session ι} {event : Event ι}
    (step : session.Step event next) (worker : ι) :
    session.unanswered worker + (event.isRequestOf worker).toNat =
      next.unanswered worker + (event.isResponseOf worker).toNat := by
  cases step with
  | @request other parsedRequest serving =>
      by_cases same : worker = other
      · subst same
        simp [State.unanswered, Event.isRequestOf, Event.isResponseOf, serving,
          Worker.afterRequest_ne_serving]
      · simp [State.unanswered, Event.isRequestOf, Event.isResponseOf,
          Function.update_of_ne same, Ne.symm same]
  | @submit other config newConfig submitting sent =>
      by_cases same : worker = other
      · subst same
        simp [State.unanswered, Event.isRequestOf, Event.isResponseOf, submitting]
      · simp [State.unanswered, Event.isRequestOf, Event.isResponseOf, Function.update_of_ne same]
  | take | save | report => rfl
  | @receive other saved configSaveResult waiting received =>
      by_cases same : worker = other
      · subst same
        have busy : Worker.afterResult saved ≠ .serving := by
          cases saved <;> exact Worker.noConfusion
        simp [State.unanswered, Event.isRequestOf, Event.isResponseOf, waiting, busy]
      · simp [State.unanswered, Event.isRequestOf, Event.isResponseOf, Function.update_of_ne same]
  | @respond other response restartAfterResponse answering =>
      by_cases same : worker = other
      · subst same
        simp [State.unanswered, Event.isRequestOf, Event.isResponseOf, answering]
      · simp [State.unanswered, Event.isRequestOf, Event.isResponseOf,
          Function.update_of_ne same, Ne.symm same]

end LaptopCooler.Firmware
