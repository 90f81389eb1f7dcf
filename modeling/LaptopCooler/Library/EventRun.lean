import Mathlib.Data.List.Basic
import Mathlib.Tactic.Common

/-! # Runs of a machine that answers events

A machine takes a state and an event to an answer and a next state. A run feeds
it a list of events; it has a final state and one answer for every event. Events
that leave the state unchanged, whatever it is, can be deleted from a run
without changing any other answer (`EventRun.outputs_erase`).
-/

namespace EventRun

variable {σ ε ω : Type*} (step : σ → ε → ω × σ)

/-- The state after a list of events. -/
def final (state : σ) (events : List ε) : σ :=
  events.foldl (fun state event => (step state event).2) state

/-- The answers to a list of events. -/
def outputs : σ → List ε → List ω
  | _, [] => []
  | state, event :: rest => (step state event).1 :: outputs (step state event).2 rest

@[simp] theorem final_nil (state : σ) : final step state [] = state := rfl

@[simp] theorem final_cons (state : σ) (event : ε) (rest : List ε) :
    final step state (event :: rest) = final step (step state event).2 rest := rfl

@[simp] theorem outputs_nil (state : σ) : outputs step state [] = [] := rfl

@[simp] theorem outputs_cons (state : σ) (event : ε) (rest : List ε) :
    outputs step state (event :: rest) =
      (step state event).1 :: outputs step (step state event).2 rest := rfl

/-- A run goes on from where its first part ends. -/
theorem final_append (state : σ) (first second : List ε) :
    final step state (first ++ second) = final step (final step state first) second :=
  List.foldl_append

/-- The state after one more event. -/
theorem final_take_succ (state : σ) {events : List ε} {index : ℕ} {event : ε}
    (here : events[index]? = some event) :
    final step state (events.take (index + 1)) =
      (step (final step state (events.take index)) event).2 := by
  rw [List.take_add_one, here, final_append]
  rfl

/-- Every event has one answer. -/
@[simp] theorem length_outputs (state : σ) (events : List ε) :
    (outputs step state events).length = events.length := by
  induction events generalizing state with
  | nil => rfl
  | cons event rest ih => simp [ih]

/-- The later answers are those of a run from where the first part ends. -/
theorem outputs_append (state : σ) (first second : List ε) :
    outputs step state (first ++ second) =
      outputs step state first ++ outputs step (final step state first) second := by
  induction first generalizing state with
  | nil => rfl
  | cons event rest ih => simp [ih]

/-- The first answers depend on the first events only. -/
theorem outputs_take (state : σ) (events : List ε) (count : ℕ) :
    (outputs step state events).take count = outputs step state (events.take count) := by
  induction events generalizing state count with
  | nil => simp
  | cons event rest ih =>
      cases count with
      | zero => rfl
      | succ count => simp [ih]

/-- The answer to an event is the machine's answer in the state its predecessors
lead to. -/
theorem outputs_getElem? (state : σ) (events : List ε) (index : ℕ) :
    (outputs step state events)[index]? =
      events[index]?.map fun event => (step (final step state (events.take index)) event).1 := by
  induction events generalizing state index with
  | nil => simp
  | cons event rest ih =>
      cases index with
      | zero => simp
      | succ index =>
          simp only [outputs_cons, List.getElem?_cons_succ, List.take_succ_cons, final_cons]
          exact ih _ index

variable {step}

/-- An event that leaves every state unchanged. -/
def Silent (step : σ → ε → ω × σ) (event : ε) : Prop := ∀ state, (step state event).2 = state

/-- The elements of a list that are not marked for deletion. -/
def unmarked {β : Type*} (elements : List β) (marks : List Bool) : List β :=
  ((elements.zip marks).filter fun pair => !pair.2).map Prod.fst

/-- The first element goes exactly if it is marked. -/
theorem unmarked_cons {β : Type*} (element : β) (elements : List β) (mark : Bool)
    (marks : List Bool) :
    unmarked (element :: elements) (mark :: marks) =
      if mark then unmarked elements marks else element :: unmarked elements marks := by
  cases mark <;> simp [unmarked]

/-- **Deleting silent events.** When every deleted event is silent, the shorter
run gives the remaining events the answers they had. -/
theorem outputs_erase (state : σ) (events : List ε) (marks : List Bool)
    (sized : marks.length = events.length)
    (silent : ∀ pair ∈ events.zip marks, pair.2 = true → Silent step pair.1) :
    outputs step state (unmarked events marks) = unmarked (outputs step state events) marks := by
  induction events generalizing state marks with
  | nil => rfl
  | cons event rest ih =>
      cases marks with
      | nil => simp at sized
      | cons mark marks =>
          have tail := fun next => ih next marks (by simpa using sized)
            (fun pair member => silent pair (List.mem_cons_of_mem _ member))
          rw [outputs_cons, unmarked_cons, unmarked_cons]
          cases mark with
          | true =>
              have unchanged := silent (event, true) List.mem_cons_self rfl state
              simp only [↓reduceIte, unchanged]
              exact tail state
          | false =>
              simp only [Bool.false_eq_true, ↓reduceIte, outputs_cons, tail]

end EventRun
