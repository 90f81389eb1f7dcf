import LaptopCooler.Firmware.SetupServer

/-! # Whose save a worker is told about

An outcome in `CONFIG_SAVE_RESULT` does not say which configuration it belongs
to, and any waiting worker may take it. Outcomes arrive in the order of the
submissions, so a worker is told about its own save exactly when the workers
take them in that order, up to equal outcomes that are both on their way
(`LaptopCooler.Firmware.told_own_outcome_iff`). Nothing in the server enforces
the order (`LaptopCooler.Firmware.outcome_of_another`).
-/

namespace LaptopCooler.Firmware

variable {ι : Type}

/-- Every worker that answers with an outcome answers with that of the save of the
configuration it submitted. -/
def Session.ToldOwnOutcome (session : Session ι) : Prop :=
  ∀ worker saved, session.workers worker = .afterResult saved →
    ∃ config, session.submissions[session.ticket worker]? = some (worker, config) ∧
      session.saves[session.ticket worker]? = some (config, saved)

/-- A worker that takes an outcome has waited longest, or it is the next in line
and the main loop is about to report the same outcome again. -/
def Session.InTurn (session : Session ι) (event : Event ι) : Prop :=
  match event with
  | .receive worker =>
      session.line[0]? = some worker ∨
        session.line[1]? = some worker ∧ ∃ saved,
          session.configSaveResult.queue = [saved] ∧ session.mainLoop = .reporting saved
  | _ => True

/-- The outcomes on their way belong to the workers in line, place by place, and the
configurations of the other workers in line are not saved yet. -/
structure Session.Aligned (session : Session ι) : Prop where
  consistent : session.Consistent
  known : ∀ (place : ℕ) worker saved, session.line[place]? = some worker →
    session.results[place]? = some saved →
    (session.saves.map Prod.snd)[session.ticket worker]? = some saved
  pending : ∀ (place : ℕ) worker, session.line[place]? = some worker →
    session.results.length ≤ place → session.ticket worker = session.received.length + place
  told : session.ToldOwnOutcome

theorem Worker.afterResult_injective : Function.Injective Worker.afterResult := by
  intro left right same
  cases left <;> cases right <;> simp [Worker.afterResult] at same ⊢

theorem Session.aligned_start : (Session.start : Session ι).Aligned where
  consistent := Session.consistent_start
  known _ _ _ here := by simp [Session.start] at here
  pending _ _ here := by simp [Session.start] at here
  told _ _ answering :=
    (Worker.not_hasSubmitted_serving (Or.inr ⟨_, answering⟩)).elim

namespace Session.Aligned

variable [DecidableEq ι] {session next : Session ι} {event : Event ι} {worker : ι}

omit [DecidableEq ι] in
/-- The outcome of a worker's own save, once its place in the history is known. -/
private theorem own_save (consistent : session.Consistent) {saved : Bool}
    (submitted : (session.workers worker).HasSubmitted)
    (made : (session.saves.map Prod.snd)[session.ticket worker]? = some saved) :
    ∃ config, session.submissions[session.ticket worker]? = some (worker, config) ∧
      session.saves[session.ticket worker]? = some (config, saved) := by
  obtain ⟨config, own⟩ := consistent.submission worker submitted
  rw [List.getElem?_map, Option.map_eq_some_iff] at made
  obtain ⟨⟨stored, outcome⟩, found, rfl⟩ := made
  have same := consistent.saved_config own found
  exact ⟨config, own, same ▸ found⟩

/-- Steps that leave the outcomes, the line and the histories alone. -/
private theorem told_update (aligned : session.Aligned) {activity : Worker}
    (after : ¬ activity.HasSubmitted) (other : ι) (saved : Bool)
    (answering : Function.update session.workers worker activity other = .afterResult saved) :
    ∃ config, session.submissions[session.ticket other]? = some (other, config) ∧
      session.saves[session.ticket other]? = some (config, saved) := by
  by_cases same : other = worker
  · rw [same, Function.update_self] at answering
    exact (after (Or.inr ⟨saved, answering⟩)).elim
  · rw [Function.update_of_ne same] at answering
    exact aligned.told other saved answering

/-- A submission goes to the end of the line, its save to the end of the saves. -/
private theorem step_submit (aligned : session.Aligned)
    (step : session.Step (.submit worker) next) : next.Aligned := by
  have consistent := aligned.consistent.step step
  cases step with
  | @submit _ config newConfig submitting sent =>
      have absent : worker ∉ session.line := by
        rw [aligned.consistent.waiting, submitting]
        exact Worker.noConfusion
      have ticket {place : ℕ} {other : ι} (here : session.line[place]? = some other) :
          Function.update session.ticket worker session.submissions.length other =
            session.ticket other := by
        apply Function.update_of_ne
        rintro rfl
        exact absent (List.mem_of_getElem? here)
      have balance := aligned.consistent.outstanding
      have order := congrArg List.length aligned.consistent.saved_in_order
      have reports := congrArg List.length aligned.consistent.received_in_order
      simp only [List.length_append, List.length_map] at order reports
      refine ⟨consistent, ?_, ?_, ?_⟩
      · intro place other saved here outcome
        rcases getElem?_concat_cases here with before | ⟨rfl, _⟩
        · simp only [ticket before]
          exact aligned.known place other saved before outcome
        · have inside : _ < session.results.length := (List.getElem?_eq_some_iff.mp outcome).1
          omega
      · intro place other here beyond
        rcases getElem?_concat_cases here with before | ⟨rfl, rfl⟩
        · simp only [ticket before]
          exact aligned.pending place other before beyond
        · simp only [Function.update_self]
          omega
      · intro other saved answering
        change Function.update session.workers worker .waiting other = _ at answering
        by_cases same : other = worker
        · rw [same, Function.update_self] at answering
          exact (Worker.afterResult_ne_waiting saved answering.symm).elim
        · rw [Function.update_of_ne same] at answering
          obtain ⟨own, submitted, made⟩ := aligned.told other saved answering
          simp only [Function.update_of_ne same]
          exact ⟨own, getElem?_append_of_some submitted, made⟩

/-- The outcome of a save is the one of the first worker in line without one. -/
private theorem step_save (aligned : session.Aligned) {saved : Bool}
    (step : session.Step (.save saved) next) : next.Aligned := by
  have consistent := aligned.consistent.step step
  have reports := congrArg List.length aligned.consistent.received_in_order
  simp only [List.length_append, List.length_map] at reports
  cases step with
  | @save config _ saving =>
      have before : session.results = session.configSaveResult.queue := by
        rw [Session.results, saving, MainLoop.unreported, List.append_nil]
      refine ⟨consistent, ?_, ?_, ?_⟩
      · intro place worker outcome here known
        change (session.configSaveResult.queue ++ [saved])[place]? = _ at known
        rw [← before] at known
        rw [List.map_append]
        rcases getElem?_concat_cases known with earlier | ⟨rfl, rfl⟩
        · exact getElem?_append_of_some (aligned.known place worker outcome here earlier)
        · have own : session.ticket worker = (session.saves.map Prod.snd).length := by
            rw [aligned.pending _ worker here le_rfl, List.length_map, reports]
          exact own ▸ List.getElem?_concat_length
      · intro place worker here beyond
        change (session.configSaveResult.queue ++ [saved]).length ≤ place at beyond
        rw [← before, List.length_append] at beyond
        exact aligned.pending place worker here (Nat.le_of_succ_le beyond)
      · intro worker outcome answering
        obtain ⟨own, submitted, made⟩ := aligned.told worker outcome answering
        exact ⟨own, submitted, getElem?_append_of_some made⟩

/-- The worker in the place of the outcome it takes is told about its own save. -/
private theorem told_receive (aligned : session.Aligned) {saved : Bool}
    (waiting : session.workers worker = .waiting) {place : ℕ}
    (here : session.line[place]? = some worker) (own : session.results[place]? = some saved)
    (other : ι) (outcome : Bool)
    (answering : Function.update session.workers worker (.afterResult saved) other =
      .afterResult outcome) :
    ∃ config, session.submissions[session.ticket other]? = some (other, config) ∧
      session.saves[session.ticket other]? = some (config, outcome) := by
  by_cases same : other = worker
  · rw [same, Function.update_self] at answering
    obtain rfl := Worker.afterResult_injective answering
    rw [same]
    exact own_save aligned.consistent (Or.inl waiting)
      (aligned.known place worker saved here own)
  · rw [Function.update_of_ne same] at answering
    exact aligned.told other outcome answering

/-- When the first in line takes an outcome, every place moves up by one. -/
private theorem step_receive_first (aligned : session.Aligned)
    (step : session.Step (.receive worker) next) (first : session.line[0]? = some worker) :
    next.Aligned := by
  have consistent := aligned.consistent.step step
  cases step with
  | @receive _ saved configSaveResult waiting received =>
      have before : session.results =
          saved :: (configSaveResult.queue ++ session.mainLoop.unreported) := by
        rw [Session.results, received, List.cons_append]
      obtain ⟨rest, line⟩ : ∃ rest, session.line = worker :: rest := by
        cases line : session.line with
        | nil => simp [line] at first
        | cons head rest => exact ⟨rest, by simpa [line] using first⟩
      refine ⟨consistent, ?_, ?_, aligned.told_receive waiting first (by rw [before]; rfl)⟩
      · intro place other outcome here known
        simp only [line, List.erase_cons_head] at here
        apply aligned.known (place + 1) other outcome
        · rwa [line]
        · rwa [before]
      · intro place other here beyond
        simp only [line, List.erase_cons_head] at here
        have ticket := aligned.pending (place + 1) other (by rwa [line])
          (by rw [before]; exact Nat.succ_le_succ beyond)
        simp only [ticket, List.length_append, List.length_singleton]
        omega

/-- When the second in line takes an outcome that is about to be reported again,
it leaves an equal one to the first. -/
private theorem step_receive_second (aligned : session.Aligned)
    (step : session.Step (.receive worker) next) (second : session.line[1]? = some worker)
    {again : Bool} (queue : session.configSaveResult.queue = [again])
    (reporting : session.mainLoop = .reporting again) : next.Aligned := by
  have consistent := aligned.consistent.step step
  have before : session.results = [again, again] := by
    rw [Session.results, queue, reporting]
    rfl
  cases step with
  | @receive _ saved configSaveResult waiting received =>
      rw [queue, List.cons.injEq] at received
      obtain ⟨rfl, empty⟩ := received
      have remaining : configSaveResult.queue ++ session.mainLoop.unreported = [again] := by
        rw [← empty, reporting]
        rfl
      obtain ⟨head, others, line⟩ : ∃ head others, session.line = head :: worker :: others := by
        cases line : session.line with
        | nil => simp [line] at second
        | cons head rest =>
            cases rest with
            | nil => simp [line] at second
            | cons next others => exact ⟨head, others, by simpa [line] using second⟩
      have apart : head ≠ worker := by
        rintro rfl
        have distinct := aligned.consistent.distinct
        rw [line] at distinct
        exact (List.nodup_cons.mp distinct).1 List.mem_cons_self
      have left : session.line.erase worker = head :: others := by
        rw [line, List.erase_cons_tail (by simpa using apart), List.erase_cons_head]
      refine ⟨consistent, ?_, ?_, aligned.told_receive waiting second (by rw [before]; rfl)⟩
      · intro place other outcome here known
        simp only [Session.results, remaining] at known
        cases place with
        | zero =>
            simp only [left, List.getElem?_cons_zero] at here
            apply aligned.known 0 other outcome
            · rwa [line]
            · rwa [before]
        | succ place => simp at known
      · intro place other here beyond
        simp only [Session.results, remaining, List.length_singleton] at beyond
        obtain ⟨place, rfl⟩ := Nat.exists_eq_add_of_le' beyond
        simp only [left, List.getElem?_cons_succ] at here
        have ticket := aligned.pending (place + 2) other (by rwa [line])
          (by rw [before]; exact Nat.le_add_left ..)
        simp only [ticket, List.length_append, List.length_singleton]
        omega

/-- The worker that takes an outcome in turn takes its own. -/
private theorem step_receive (aligned : session.Aligned)
    (step : session.Step (.receive worker) next) (turn : session.InTurn (.receive worker)) :
    next.Aligned := by
  rcases turn with first | ⟨second, again, queue, reporting⟩
  · exact aligned.step_receive_first step first
  · exact aligned.step_receive_second step second queue reporting

/-- **Steps in turn keep the outcomes with their workers.** -/
theorem step (aligned : session.Aligned) (step : session.Step event next)
    (turn : session.InTurn event) : next.Aligned := by
  have consistent := aligned.consistent.step step
  cases step with
  | @request worker parsedRequest serving =>
      exact ⟨consistent, aligned.known, aligned.pending,
        aligned.told_update (Worker.not_hasSubmitted_afterRequest parsedRequest)⟩
  | submit submitting sent => exact aligned.step_submit (.submit submitting sent)
  | @take config newConfig polling received =>
      have same : session.results = session.configSaveResult.queue ++ [] := by
        rw [Session.results, polling, MainLoop.unreported]
      have known := aligned.known
      have pending := aligned.pending
      rw [same] at known pending
      exact ⟨consistent, known, pending, aligned.told⟩
  | save saving => exact aligned.step_save (.save saving)
  | @report saved configSaveResult reporting sent =>
      have same : session.results = configSaveResult.queue ++ [] := by
        rw [Session.results, reporting, MainLoop.unreported, sent, List.append_nil]
      have known := aligned.known
      have pending := aligned.pending
      rw [same] at known pending
      exact ⟨consistent, known, pending, aligned.told⟩
  | receive waiting received => exact aligned.step_receive (.receive waiting received) turn
  | respond answering =>
      exact ⟨consistent, aligned.known, aligned.pending,
        aligned.told_update Worker.not_hasSubmitted_serving⟩

/-- **A step that tells a worker about its own save is in turn.** -/
theorem inTurn_of_told (aligned : session.Aligned) (step : session.Step event next)
    (told : next.ToldOwnOutcome) : session.InTurn event := by
  cases step with
  | @receive worker saved configSaveResult waiting received =>
      have short := session.configSaveResult.bounded
      have empty : configSaveResult.queue = [] := by
        rw [received, List.length_cons] at short
        exact List.eq_nil_of_length_eq_zero (Nat.le_zero.mp (Nat.le_of_succ_le_succ short))
      rw [empty] at received
      have before : session.results = saved :: session.mainLoop.unreported := by
        rw [Session.results, received, List.singleton_append]
      obtain ⟨own, _, made⟩ := told worker saved (Function.update_self ..)
      change session.saves[session.ticket worker]? = _ at made
      obtain ⟨place, here⟩ := List.mem_iff_getElem?.mp
        ((aligned.consistent.waiting worker).mpr waiting)
      cases outcome : session.results[place]? with
      | none =>
          -- Its own configuration is not saved yet.
          have reports := congrArg List.length aligned.consistent.received_in_order
          rw [List.length_append, List.length_map] at reports
          have beyond := List.getElem?_eq_none_iff.mp outcome
          have inside := (List.getElem?_eq_some_iff.mp made).1
          rw [aligned.pending place worker here beyond] at inside
          omega
      | some known =>
          have equal := aligned.known place worker known here outcome
          rw [List.getElem?_map, made] at equal
          obtain rfl : saved = known := Option.some.inj equal
          cases place with
          | zero => exact Or.inl here
          | succ place =>
              rw [before, List.getElem?_cons_succ] at outcome
              cases loop : session.mainLoop with
              | reporting again =>
                  rw [loop, MainLoop.unreported, List.getElem?_singleton] at outcome
                  split at outcome
                  next first =>
                    obtain rfl := Option.some.inj outcome
                    subst first
                    exact Or.inr ⟨here, again, received, loop⟩
                  next => cases outcome
              | polling | saving => simp [loop, MainLoop.unreported] at outcome
  | request | submit | take | save | report | respond => trivial

end Session.Aligned

/-- **When every worker is told about its own save.** In every run, however the steps
of the workers and the main loop interleave, all workers that answer with an
outcome do so with that of their own save, exactly if every worker that takes an
outcome has waited longest, or is next in line while the main loop is about to
report the same outcome again. -/
theorem told_own_outcome_iff [DecidableEq ι] (events : List (Event ι)) :
    (∀ (count : ℕ) (session : Session ι),
        GuardedRun.run Session.step Session.start (events.take count) = some session →
        session.ToldOwnOutcome) ↔
      ∀ (count : ℕ) (event : Event ι) (before after : Session ι), events[count]? = some event →
        GuardedRun.run Session.step Session.start (events.take count) = some before →
        before.step event = some after → before.InTurn event :=
  GuardedRun.throughout_iff Session.aligned_start (fun _ aligned => aligned.told)
    (fun _ _ _ aligned turn stepped => aligned.step (Session.step_cases stepped) turn)
    (fun _ _ _ aligned stepped told => aligned.inTurn_of_told (Session.step_cases stepped) told)
    events

/-- The second client submits before the first one has taken its outcome. -/
def crossedClients : List (Event (Fin 3)) :=
  [.request 0 (.ok (.save openNetwork)), .submit 0, .take, .save true, .report,
    .request 1 (.ok (.save closedNetwork)), .submit 1, .receive 1]

/-- A worker answers that its configuration is saved while only another one is. -/
theorem outcome_of_another :
    ∃ session : Session (Fin 3),
      GuardedRun.run Session.step Session.start crossedClients = some session ∧
      session.workers 1 = .answering .savedPage true ∧
      session.submissions = [(0, openNetwork), (1, closedNetwork)] ∧
      session.saves = [(openNetwork, true)] ∧ ¬ session.ToldOwnOutcome := by
  refine ⟨_, rfl, rfl, rfl, rfl, ?_⟩
  intro told
  obtain ⟨config, _, made⟩ := told 1 true rfl
  cases made

end LaptopCooler.Firmware
