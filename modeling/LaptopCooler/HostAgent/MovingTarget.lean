import LaptopCooler.HostAgent.SlewLimit

/-! # A moving target

A target that changes empties the slew budget. Each change costs the fan less than
one duty step of its rise, and nothing else does
(`LaptopCooler.HostAgent.FanPolicy.moving_target_progress`), but a temperature that
fluctuates faster than the budget pays for a step holds the fan at its speed for as
long as it does (`LaptopCooler.HostAgent.FanPolicy.fluctuation_starves`).
-/

namespace LaptopCooler.HostAgent.FanPolicy

open Fallible Pursuit SlewLimiter

variable {policy : FanPolicy}

/-- The same target keeps the credit for increases, and a new one forfeits it. -/
theorem le_climbReserve_aimedAt (invariant : policy.Invariant) (target : ℕ) :
    policy.climbReserve - policy.config.dutyStepPercent *
        (if policy.targetDutyPercent = target then 0 else 1) ≤
      (policy.aimedAt target).climbReserve := by
  have reserve := climbReserve_lt_step invariant
  by_cases same : policy.targetDutyPercent = target
  · simp [climbReserve, aimedAt, same]
  · have reset : (policy.aimedAt target).climbReserve = 0 := by
      simp [climbReserve, aimedAt, Ne.symm same]
    rw [if_neg same, reset]
    linarith

/-- A movement that stays below its target spends all it earns. -/
theorem slewed_climb {elapsedSeconds : ℚ}
    (below : (policy.slewed elapsedSeconds).commandedDutyPercent < policy.targetDutyPercent) :
    ((policy.slewed elapsedSeconds).commandedDutyPercent : ℚ) +
        (policy.slewed elapsedSeconds).climbReserve =
      policy.commandedDutyPercent + policy.climbReserve +
        policy.config.rampUpPercentPerSecond * elapsedSeconds := by
  have start : policy.commandedDutyPercent < policy.targetDutyPercent := by
    rcases slewed_approaches policy elapsedSeconds with ⟨rises, _⟩ | ⟨above, _⟩
    · exact lt_of_le_of_lt rises below
    · exact absurd below (not_lt.mpr above)
  obtain ⟨change, _, moved, spent⟩ := slewed_of_below start elapsedSeconds
  have after : (policy.slewed elapsedSeconds).climbReserve =
      (policy.slewed elapsedSeconds).slewBudgetPercent := by
    refine if_pos ?_
    rwa [(slewed_frame policy elapsedSeconds).2.1]
  have before : policy.climbReserve = policy.slewBudgetPercent := if_pos start
  rw [after, before, moved, spent]
  push_cast
  ring

section Below

variable {temperatureMilliC : ℤ}
  (cool : temperatureMilliC < policy.config.emergencyTemperatureMilliC) {elapsed : Duration}
  (below : (policy.next temperatureMilliC elapsed).commandedDutyPercent <
    (policy.next temperatureMilliC elapsed).targetDutyPercent)

include cool below

/-- An update that stays below its target spends what the policy had left after selecting it
and all that it earns. -/
theorem next_climb : ((policy.next temperatureMilliC elapsed).commandedDutyPercent : ℚ) +
      (policy.next temperatureMilliC elapsed).climbReserve =
    policy.commandedDutyPercent + (policy.aimed temperatureMilliC elapsed.asSecs).climbReserve +
      policy.config.rampUpPercentPerSecond * elapsed.asSecs := by
  rw [next_of_cool cool] at below ⊢
  rw [(slewed_frame _ _).2.1] at below
  exact slewed_climb below

/-- An update below its target loses less than a duty step when it changes the target. -/
theorem next_climb_ge (invariant : policy.Invariant) :
    policy.commandedDutyPercent + policy.climbReserve +
        policy.config.rampUpPercentPerSecond * elapsed.asSecs -
        policy.config.dutyStepPercent * (if policy.targetDutyPercent =
          (policy.next temperatureMilliC elapsed).targetDutyPercent then 0 else 1) ≤
      ((policy.next temperatureMilliC elapsed).commandedDutyPercent : ℚ) +
        (policy.next temperatureMilliC elapsed).climbReserve := by
  have climbed := next_climb cool below
  have kept : policy.climbReserve - policy.config.dutyStepPercent *
      (if policy.targetDutyPercent = (policy.next temperatureMilliC elapsed).targetDutyPercent
        then 0 else 1) ≤ (policy.aimed temperatureMilliC elapsed.asSecs).climbReserve := by
    rw [next_target cool]
    exact le_climbReserve_aimedAt invariant _
  linarith

end Below

/-- What a run below its targets adds to the commanded duty and the credit. -/
theorem states_climb (invariant : policy.Invariant) {readings : List Reading}
    (cool : ∀ reading ∈ readings, reading.1 < policy.config.emergencyTemperatureMilliC)
    (below : ∀ state ∈ policy.states readings,
      state.commandedDutyPercent < state.targetDutyPercent) :
    policy.commandedDutyPercent + policy.climbReserve +
        policy.config.rampUpPercentPerSecond * totalElapsed readings -
        policy.config.dutyStepPercent * changes
          (policy.targetDutyPercent :: (policy.states readings).map targetDutyPercent) ≤
      (((policy.states readings).getLastD policy).commandedDutyPercent : ℚ) +
        ((policy.states readings).getLastD policy).climbReserve := by
  induction readings generalizing policy with
  | nil => simp [states, changes]
  | cons reading rest ih =>
      obtain ⟨temperatureMilliC, elapsed⟩ := reading
      have first := next_climb_ge (cool _ List.mem_cons_self) (below _ List.mem_cons_self) invariant
      have later := ih (next_invariant invariant temperatureMilliC elapsed)
        (fun reading member => by
          rw [next_config]
          exact cool reading (List.mem_cons_of_mem _ member))
        fun state member => below state (List.mem_cons_of_mem _ member)
      rw [next_config] at later
      rw [states, List.map_cons, changes, totalElapsed_cons, List.getLastD_cons]
      push_cast
      linarith

/-- The default policy without smoothing. -/
def unsmoothed : FanPolicyConfig := { FanPolicyConfig.default with smoothingSeconds := 0 }

theorem unsmoothed_valid : unsmoothed.Valid := by decide

/-- The policy after a minute at 40 degrees. -/
def cooledDown : FanPolicy := (fresh unsmoothed).next 40000 (.fromMillis 60000)

theorem cooledDown_reachable : Reachable unsmoothed cooledDown :=
  (Reachable.fresh unsmoothed_valid).next 40000 (.fromMillis 60000)

/-- **A moving target costs a duty step for each change.** In every run of updates below the
emergency temperature from a reachable policy, after each of which the commanded duty is below
the target, the duty rises by more than the upward ramp over the elapsed time less one duty
step and less one for each time the target changes from one update to the next. -/
theorem moving_target_progress {config : FanPolicyConfig} {policy : FanPolicy}
    (reachable : Reachable config policy) {readings : List Reading}
    (cool : ∀ reading ∈ readings, reading.1 < config.emergencyTemperatureMilliC)
    {results : List (ℕ × FanPolicy)} (ran : policy.trace readings = .ok results)
    (below : ∀ result ∈ results, result.1 < result.2.targetDutyPercent) :
    config.rampUpPercentPerSecond * totalElapsed readings - config.dutyStepPercent *
        (1 + changes (results.map fun result => result.2.targetDutyPercent)) <
      ((results.map Prod.fst).getLastD policy.commandedDutyPercent : ℚ) -
        policy.commandedDutyPercent := by
  obtain ⟨invariant, rfl⟩ := reachable.invariant
  rw [trace_eq invariant] at ran
  obtain rfl := Except.ok.inj ran
  have stepPositive : (0 : ℚ) < policy.config.dutyStepPercent :=
    Nat.cast_pos.mpr invariant.valid.step.1
  cases readings with
  | nil => simpa [states, changes] using stepPositive
  | cons reading rest =>
      obtain ⟨temperatureMilliC, elapsed⟩ := reading
      have behind : ∀ state ∈ policy.states ((temperatureMilliC, elapsed) :: rest),
          state.commandedDutyPercent < state.targetDutyPercent := fun state reached =>
        below _ (List.mem_map.mpr ⟨state, reached, rfl⟩)
      -- What the first update finds of a budget is not needed.
      have first := next_climb (cool _ List.mem_cons_self) (behind _ List.mem_cons_self)
      have credit := climbReserve_nonneg
        (aimed_invariant invariant temperatureMilliC elapsed.asSecs)
      have preserved := next_invariant invariant temperatureMilliC elapsed
      have later := states_climb preserved
        (fun reading member => by
          rw [next_config]
          exact cool reading (List.mem_cons_of_mem _ member))
        fun state member => behind state (List.mem_cons_of_mem _ member)
      generalize reached : ((policy.next temperatureMilliC elapsed).states rest).getLastD
        (policy.next temperatureMilliC elapsed) = last at later
      have left : last.climbReserve < policy.config.dutyStepPercent := by
        have member := @List.getLastD_mem_cons _
          ((policy.next temperatureMilliC elapsed).states rest)
          (policy.next temperatureMilliC elapsed)
        rw [reached, List.mem_cons] at member
        rcases member with rfl | member
        · simpa using climbReserve_lt_step preserved
        · obtain ⟨held, same⟩ := states_invariant preserved rest last member
          rw [next_config] at same
          rw [← same]
          exact climbReserve_lt_step held
      have final : ((((policy.states ((temperatureMilliC, elapsed) :: rest)).map fun state =>
          (state.commandedDutyPercent, state)).map Prod.fst).getLastD
            policy.commandedDutyPercent) = last.commandedDutyPercent := by
        rw [List.map_map, states, List.map_cons, List.getLastD_cons, ← reached]
        exact List.getLastD_map
      have targets : ((policy.states ((temperatureMilliC, elapsed) :: rest)).map fun state =>
          (state.commandedDutyPercent, state)).map (fun result => result.2.targetDutyPercent) =
          (policy.next temperatureMilliC elapsed).targetDutyPercent ::
            ((policy.next temperatureMilliC elapsed).states rest).map targetDutyPercent := by
        rw [List.map_map]
        rfl
      rw [final, targets, totalElapsed_cons]
      rw [next_config] at later
      linarith

/-- A steady second at 60 degrees raises the duty by more than 5 percent. -/
theorem cooledDown_progress :
    ∃ results, cooledDown.trace [(60000, .fromMillis 1000)] = .ok results ∧
      (5 : ℚ) < (results.map Prod.fst).getLastD 25 - 25 := by
  have ran := trace_eq cooledDown_reachable.invariant.1 [(60000, .fromMillis 1000)]
  have progress := moving_target_progress cooledDown_reachable (by decide) ran
    (by with_unfolding_all decide)
  refine ⟨_, ran, ?_⟩
  have start : cooledDown.commandedDutyPercent = 25 := by with_unfolding_all decide
  have steady : changes (((cooledDown.states [(60000, .fromMillis 1000)]).map fun state =>
      (state.commandedDutyPercent, state)).map fun result => result.2.targetDutyPercent) = 0 := rfl
  rw [start, steady] at progress
  norm_num [unsmoothed, FanPolicyConfig.default, totalElapsed, Duration.asSecs,
    Duration.fromMillis] at progress ⊢
  exact progress

/-! ## A fluctuating temperature -/

/-- Rounds of a reading at 60 and a reading at 65 degrees, a quarter of a second each. -/
def fluctuation (rounds : ℕ) : List Reading :=
  (List.replicate rounds [(60000, .fromMillis 250), (65000, .fromMillis 250)]).flatten

/-- Over a second of fluctuation the fan keeps its speed. -/
theorem fluctuation_holds_fan :
    Reachable unsmoothed cooledDown ∧
      (∀ reading ∈ fluctuation 2, reading.1 < unsmoothed.emergencyTemperatureMilliC) ∧
      ∃ results, cooledDown.trace (fluctuation 2) = .ok results ∧
        (∀ result ∈ results, result.1 < result.2.targetDutyPercent) ∧
        ¬ (unsmoothed.rampUpPercentPerSecond * totalElapsed (fluctuation 2) -
            unsmoothed.dutyStepPercent <
          ((results.map Prod.fst).getLastD cooledDown.commandedDutyPercent : ℚ) -
            cooledDown.commandedDutyPercent) := by
  refine ⟨cooledDown_reachable, by decide, _, trace_eq cooledDown_reachable.invariant.1 _, ?_, ?_⟩
  · with_unfolding_all decide
  · with_unfolding_all decide

/-- The policy after a round. -/
def starved : FanPolicy where
  config := unsmoothed
  smoothedTemperatureMilliC := some 65000
  targetDutyPercent := 60
  commandedDutyPercent := 25
  slewBudgetPercent := 5 / 2

/-- The rounds leave the policy as the first one does. -/
private theorem states_of_starved {policy : FanPolicy}
    (first : (policy.next 60000 (.fromMillis 250)).commandedDutyPercent = 25 ∧
      25 < (policy.next 60000 (.fromMillis 250)).targetDutyPercent)
    (second : (policy.next 60000 (.fromMillis 250)).next 65000 (.fromMillis 250) = starved)
    (rounds : ℕ) : ∀ state ∈ policy.states (fluctuation rounds),
      state.commandedDutyPercent = 25 ∧ 25 < state.targetDutyPercent := by
  induction rounds generalizing policy with
  | zero => exact fun _ member => (List.not_mem_nil member).elim
  | succ rounds ih =>
      have unrolled : fluctuation (rounds + 1) =
          (60000, .fromMillis 250) :: (65000, .fromMillis 250) :: fluctuation rounds := rfl
      intro state member
      rw [unrolled, states, states, second, List.mem_cons, List.mem_cons] at member
      rcases member with rfl | rfl | member
      · exact first
      · decide
      · exact ih (by with_unfolding_all decide) (by with_unfolding_all decide) state member

/-- **A fluctuating temperature holds the fan at its speed** for as long as it goes on, though
every update asks for more. -/
theorem fluctuation_starves (rounds : ℕ) :
    ∃ results, cooledDown.trace (fluctuation rounds) = .ok results ∧
      ∀ result ∈ results, result.1 = 25 ∧ result.1 < result.2.targetDutyPercent := by
  refine ⟨_, trace_eq cooledDown_reachable.invariant.1 _, ?_⟩
  intro result member
  obtain ⟨state, reached, rfl⟩ := List.mem_map.mp member
  obtain ⟨still, wanted⟩ := states_of_starved (by with_unfolding_all decide)
    (by with_unfolding_all decide) rounds state reached
  exact ⟨still, still ▸ wanted⟩

end LaptopCooler.HostAgent.FanPolicy
