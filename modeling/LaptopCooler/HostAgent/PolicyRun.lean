import LaptopCooler.HostAgent.PolicyInvariant

/-! # Runs of the fan policy

Successive updates never fault from a policy that satisfies the invariant, and
they pass through the states that the update function gives
(`LaptopCooler.HostAgent.FanPolicy.run_eq`,
`LaptopCooler.HostAgent.FanPolicy.trace_eq`). So no run from a new policy faults
or leaves the policy's ranges (`LaptopCooler.HostAgent.FanPolicy.state_in_range`).
-/

namespace LaptopCooler.HostAgent

open Fallible

/-- One call of `update`: the temperature and the elapsed time. -/
abbrev Reading := ℤ × Duration

/-- The time that passes over a list of updates, in seconds. -/
def totalElapsed (readings : List Reading) : ℚ := (readings.map fun reading => reading.2.asSecs).sum

@[simp] theorem totalElapsed_nil : totalElapsed [] = 0 := rfl

@[simp] theorem totalElapsed_cons (reading : Reading) (rest : List Reading) :
    totalElapsed (reading :: rest) = reading.2.asSecs + totalElapsed rest := rfl

/-- Time only passes. -/
theorem totalElapsed_take_mono (readings : List Reading) :
    Monotone fun count => totalElapsed (readings.take count) := by
  intro first second order
  refine ((List.take_sublist_take_left order).map _).sum_le_sum ?_
  intro seconds member
  obtain ⟨reading, _, rfl⟩ := List.mem_map.mp member
  exact reading.2.asSecs_nonneg

namespace FanPolicy

/-- The duties that successive updates return. -/
def run (policy : FanPolicy) : List Reading → Checked (List ℕ × FanPolicy)
  | [] => return ([], policy)
  | (temperatureMilliC, elapsed) :: rest => do
      let (duty, next) ← policy.update temperatureMilliC elapsed
      let (duties, last) ← next.run rest
      return (duty :: duties, last)

/-- The duty that each of successive updates returns, with the policy after it. -/
def trace (policy : FanPolicy) : List Reading → Checked (List (ℕ × FanPolicy))
  | [] => return []
  | (temperatureMilliC, elapsed) :: rest => do
      let (duty, next) ← policy.update temperatureMilliC elapsed
      let results ← next.trace rest
      return (duty, next) :: results

/-- The policies after each of successive updates. -/
def states (policy : FanPolicy) : List Reading → List FanPolicy
  | [] => []
  | (temperatureMilliC, elapsed) :: rest =>
      policy.next temperatureMilliC elapsed :: (policy.next temperatureMilliC elapsed).states rest

@[simp] theorem length_states (policy : FanPolicy) (readings : List Reading) :
    (policy.states readings).length = readings.length := by
  induction readings generalizing policy with
  | nil => rfl
  | cons reading rest ih => exact congrArg (· + 1) (ih _)

variable {policy : FanPolicy}

/-- **A run never faults.** -/
theorem trace_eq (invariant : policy.Invariant) (readings : List Reading) :
    policy.trace readings =
      .ok ((policy.states readings).map fun state => (state.commandedDutyPercent, state)) := by
  induction readings generalizing policy with
  | nil => rfl
  | cons reading rest ih =>
      obtain ⟨temperatureMilliC, elapsed⟩ := reading
      rw [trace, update_eq invariant, ok_bind]
      simp only [ih (next_invariant invariant temperatureMilliC elapsed), ok_bind]
      rfl

/-- **A run returns the commanded duties** of the states it passes through. -/
theorem run_eq (invariant : policy.Invariant) (readings : List Reading) :
    policy.run readings = .ok ((policy.states readings).map commandedDutyPercent,
      (policy.states readings).getLastD policy) := by
  induction readings generalizing policy with
  | nil => rfl
  | cons reading rest ih =>
      obtain ⟨temperatureMilliC, elapsed⟩ := reading
      rw [run, update_eq invariant, ok_bind]
      simp only [ih (next_invariant invariant temperatureMilliC elapsed), ok_bind, states,
        List.getLastD_cons]
      rfl

/-- Every state of a run satisfies the invariant under the same configuration. -/
theorem states_invariant (invariant : policy.Invariant) (readings : List Reading) :
    ∀ state ∈ policy.states readings, state.Invariant ∧ state.config = policy.config := by
  induction readings generalizing policy with
  | nil => exact fun _ member => (List.not_mem_nil member).elim
  | cons reading rest ih =>
      obtain ⟨temperatureMilliC, elapsed⟩ := reading
      have preserved := next_invariant invariant temperatureMilliC elapsed
      intro state member
      rcases List.mem_cons.mp member with rfl | member
      · exact ⟨preserved, next_config policy temperatureMilliC elapsed⟩
      · obtain ⟨held, same⟩ := ih preserved state member
        exact ⟨held, same.trans (next_config policy temperatureMilliC elapsed)⟩

/-- **No update faults and the state stays in range.** From a new policy on an accepted
configuration, any updates at all return, and after each of them both duties are in range, the
slew budget is not negative, and it is below one step while the target is not reached. -/
theorem state_in_range {config : FanPolicyConfig} (accepted : config.validate = .ok ())
    (readings : List Reading) :
    ∃ policy results, FanPolicy.new config = .ok policy ∧ policy.trace readings = .ok results ∧
      results.length = readings.length ∧
      ∀ result ∈ results, result.1 = result.2.commandedDutyPercent ∧
        (minDutyPercent ≤ result.2.targetDutyPercent ∧
          result.2.targetDutyPercent ≤ maxDutyPercent) ∧
        (minDutyPercent ≤ result.2.commandedDutyPercent ∧
          result.2.commandedDutyPercent ≤ maxDutyPercent) ∧
        0 ≤ result.2.slewBudgetPercent ∧
        (result.2.commandedDutyPercent ≠ result.2.targetDutyPercent →
          result.2.slewBudgetPercent < config.dutyStepPercent) := by
  have valid := (FanPolicyConfig.validate_eq_ok_iff config).mp accepted
  have created : FanPolicy.new config = .ok (fresh config) := new_eq_ok_iff.mpr ⟨valid, rfl⟩
  have initial := (new_invariant created).1
  refine ⟨fresh config, _, created, trace_eq initial readings, ?_, ?_⟩
  · rw [List.length_map, length_states]
  · intro result member
    obtain ⟨state, reached, rfl⟩ := List.mem_map.mp member
    obtain ⟨invariant, same⟩ := states_invariant initial readings state reached
    refine ⟨rfl, invariant.target, invariant.commanded, invariant.budget_nonneg, ?_⟩
    intro short
    have below := invariant.budget_lt_step short
    rw [same] at below
    exact below

/-- The default policy through an emergency, a frozen sensor and an hour without a reading. -/
theorem default_state_in_range : ∃ policy results, FanPolicy.new .default = .ok policy ∧
    policy.trace [(95000, .fromMillis 0), (-40000, .fromMillis 3600000)] = .ok results ∧
      ∀ result ∈ results, minDutyPercent ≤ result.1 ∧ result.1 ≤ maxDutyPercent := by
  obtain ⟨policy, results, created, ran, _, inRange⟩ := state_in_range
    ((FanPolicyConfig.validate_eq_ok_iff _).mpr FanPolicyConfig.default_valid)
    [(95000, .fromMillis 0), (-40000, .fromMillis 3600000)]
  refine ⟨policy, results, created, ran, ?_⟩
  intro result member
  obtain ⟨returned, _, commanded, _⟩ := inRange result member
  rw [returned]
  exact commanded

/-! ## The targets and the duties of a run -/

/-- The duty on the curve for the smoothed temperature. -/
def desiredDuty (policy : FanPolicy) : ℚ :=
  curveDuty policy.config.curve (policy.smoothedTemperatureMilliC.getD 0)

/-- **The targets of a run are held with hysteresis** behind the duties on the curve. -/
theorem targets_states {readings : List Reading}
    (cool : ∀ reading ∈ readings, reading.1 < policy.config.emergencyTemperatureMilliC) :
    (policy.states readings).map (fun state => (state.targetDutyPercent : ℚ)) =
      Hysteresis.targets (policy.config.dutyHysteresisPercent : ℚ)
        (fun duty => quantized policy.config.dutyStepPercent duty) policy.targetDutyPercent
        ((policy.states readings).map desiredDuty) := by
  induction readings generalizing policy with
  | nil => rfl
  | cons reading rest ih =>
      obtain ⟨temperatureMilliC, elapsed⟩ := reading
      have here := cool _ List.mem_cons_self
      have first : ((policy.next temperatureMilliC elapsed).targetDutyPercent : ℚ) =
          Hysteresis.hold (policy.config.dutyHysteresisPercent : ℚ)
            (fun duty => quantized policy.config.dutyStepPercent duty) policy.targetDutyPercent
            (policy.next temperatureMilliC elapsed).desiredDuty := by
        rw [next_target here, FanPolicyConfig.cast_selected, desiredDuty, next_smoothed here,
          next_config, Option.getD_some]
      have later := @ih (policy.next temperatureMilliC elapsed) fun reading member => by
        rw [next_config]
        exact cool reading (List.mem_cons_of_mem _ member)
      rw [next_config, first] at later
      rw [states, List.map_cons, List.map_cons, Hysteresis.targets, later, first]

/-- A movement goes towards the target and not past it. -/
theorem slewed_approaches (policy : FanPolicy) (elapsedSeconds : ℚ) :
    Pursuit.Approaches policy.commandedDutyPercent policy.targetDutyPercent
      (policy.slewed elapsedSeconds).commandedDutyPercent := by
  rcases Nat.lt_trichotomy policy.commandedDutyPercent policy.targetDutyPercent with
    below | level | above
  · obtain ⟨change, reach, moved, _⟩ := slewed_of_below below elapsedSeconds
    exact Or.inl (by omega)
  · rw [slewed_of_eq level]
    exact Or.inl ⟨le_rfl, level.le⟩
  · obtain ⟨change, reach, moved, _⟩ := slewed_of_above above elapsedSeconds
    exact Or.inr (by omega)

/-- **The returned duties follow the targets.** -/
theorem follows_states (invariant : policy.Invariant) (readings : List Reading) :
    Pursuit.Follows policy.commandedDutyPercent
      ((policy.states readings).map fun state =>
        (state.targetDutyPercent, state.commandedDutyPercent)) := by
  induction readings generalizing policy with
  | nil => trivial
  | cons reading rest ih =>
      obtain ⟨temperatureMilliC, elapsed⟩ := reading
      refine ⟨?_, ih (next_invariant invariant temperatureMilliC elapsed)⟩
      unfold next
      split
      · exact Or.inl ⟨invariant.commanded.2, le_rfl⟩
      · have approaches := slewed_approaches (policy.aimed temperatureMilliC elapsed.asSecs)
          elapsed.asSecs
        rw [(slewed_frame _ _).2.1]
        exact approaches

end FanPolicy

end LaptopCooler.HostAgent
