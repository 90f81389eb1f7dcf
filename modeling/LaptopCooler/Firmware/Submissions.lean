import LaptopCooler.Firmware.SetupServer
import Mathlib.Data.Set.Card

/-! # No submission is lost

Every configuration that a worker hands over is, until the worker has taken its
outcome, in `NEW_CONFIG`, with the main loop, or an outcome in
`CONFIG_SAVE_RESULT`. Counting them shows that the main loop is never stuck on a
full channel without a worker that empties it, and that it saves the
configurations in the order of their submission
(`LaptopCooler.Firmware.submissions_conserved`).
-/

namespace LaptopCooler.Firmware

variable {ι : Type}

/-- The configurations that the main loop has taken and not yet reported. -/
def MainLoop.taken : MainLoop → ℕ
  | .polling => 0
  | .saving _ | .reporting _ => 1

theorem MainLoop.taken_eq (mainLoop : MainLoop) :
    mainLoop.taken = mainLoop.unsaved.length + mainLoop.unreported.length := by
  cases mainLoop <;> rfl

def Session.waitingWorkers (session : Session ι) : Set ι :=
  {worker | session.workers worker = .waiting}

namespace Session.Consistent

variable {session : Session ι}

/-- **The conservation law.** -/
theorem encard_waitingWorkers (consistent : session.Consistent) :
    session.waitingWorkers.encard = session.newConfig.queue.length + session.mainLoop.taken +
      session.configSaveResult.queue.length := by
  classical
  have waiting : session.waitingWorkers = (session.line.toFinset : Set ι) := by
    ext worker
    rw [Finset.mem_coe, List.mem_toFinset, consistent.waiting]
    rfl
  have balance := consistent.outstanding
  rw [Session.results, List.length_append] at balance
  rw [waiting, Set.encard_coe_eq_coe_finsetCard, List.toFinset_card_of_nodup consistent.distinct,
    balance, MainLoop.taken_eq]
  norm_cast
  omega

/-- While an outcome is on its way, a worker waits for one. -/
theorem exists_waiting (consistent : session.Consistent) (outcome : session.results ≠ []) :
    ∃ worker, session.workers worker = .waiting := by
  have balance := consistent.outstanding
  have underway := List.length_pos_iff.mpr outcome
  obtain ⟨worker, member⟩ := List.exists_mem_of_length_pos (by omega : 0 < session.line.length)
  exact ⟨worker, (consistent.waiting worker).mp member⟩

/-- **The main loop is never stuck on a full channel.** Some worker is ready to take the
outcome in it, and the main loop reports right after that. -/
theorem unblocked [DecidableEq ι] (consistent : session.Consistent) {saved : Bool}
    (running : session.restarted = false) (reporting : session.mainLoop = .reporting saved)
    (blocked : session.configSaveResult.send? saved = none) :
    ∃ worker next, session.step (.receive worker) = some next ∧ (next.step .report).isSome := by
  have full := Channel.send?_eq_none_iff.mp blocked
  obtain ⟨outcome, single⟩ := List.length_eq_one_iff.mp full
  obtain ⟨worker, waiting⟩ := consistent.exists_waiting (by simp [Session.results, single])
  have received : session.configSaveResult.receive? = some (outcome, .empty) :=
    Channel.receive?_eq_some_iff.mpr single
  have ready : (session.step (.receive worker)).isSome := by
    simp [Session.step, State.step, running, waiting, received]
  obtain ⟨next, stepped⟩ := Option.isSome_iff_exists.mp ready
  refine ⟨worker, next, stepped, ?_⟩
  cases Session.step_cases stepped with
  | @receive _ taken configSaveResult _ left =>
      have emptied : configSaveResult.queue = [] :=
        (List.cons.inj (single.symm.trans left)).2.symm
      simp [Session.step, State.step, running, reporting, Channel.send?, emptied]

end Session.Consistent

/-- **No submission is lost.** In every state that the workers and the main loop reach, in any
number and any order, the workers that wait for an outcome are as many as the configurations
and outcomes on their way. A main loop blocked on the full channel finds a worker ready to
empty it, no worker waits for nothing, and the configurations are saved in the order of their
submission, each once. -/
theorem submissions_conserved [DecidableEq ι] {events : List (Event ι)} {session : Session ι}
    (runs : GuardedRun.run Session.step Session.start events = some session) :
    session.waitingWorkers.encard = session.newConfig.queue.length + session.mainLoop.taken +
        session.configSaveResult.queue.length ∧
      (∀ saved, session.restarted = false → session.mainLoop = .reporting saved →
        session.configSaveResult.send? saved = none →
          ∃ worker next, session.step (.receive worker) = some next ∧
            (next.step .report).isSome) ∧
      (∀ worker, session.workers worker = .waiting → 0 < session.newConfig.queue.length +
        session.mainLoop.taken + session.configSaveResult.queue.length) ∧
      session.saves.map Prod.fst ++ session.mainLoop.unsaved ++ session.newConfig.queue =
        session.submissions.map Prod.snd := by
  have consistent := Session.Consistent.of_run runs
  have conserved := consistent.encard_waitingWorkers
  refine ⟨conserved, fun saved running => consistent.unblocked running, ?_,
    consistent.saved_in_order.symm⟩
  intro worker waiting
  have member : worker ∈ session.waitingWorkers := waiting
  have positive := Set.encard_pos.mpr ⟨worker, member⟩
  rw [conserved] at positive
  exact_mod_cast positive

/-- A client whose configuration the main loop has taken is the one that waits. -/
theorem submissions_conserved_taken :
    ∃ session : Session (Fin 2), GuardedRun.run Session.step Session.start
        [.request 0 (.ok (.save openNetwork)), .submit 0, .take] = some session ∧
      session.mainLoop = .saving openNetwork ∧ session.waitingWorkers.encard = 1 := by
  obtain ⟨session, runs, saving, queue, results⟩ : ∃ session : Session (Fin 2),
      GuardedRun.run Session.step Session.start
        [.request 0 (.ok (.save openNetwork)), .submit 0, .take] = some session ∧
      session.mainLoop = .saving openNetwork ∧ session.newConfig.queue = [] ∧
      session.configSaveResult.queue = [] := ⟨_, rfl, rfl, rfl, rfl⟩
  refine ⟨session, runs, saving, ?_⟩
  rw [(submissions_conserved runs).1, saving, queue, results]
  rfl

end LaptopCooler.Firmware
