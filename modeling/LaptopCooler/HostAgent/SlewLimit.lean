import LaptopCooler.HostAgent.PolicyRun

/-! # The slew limit over every stretch of time

The slew budget is a potential: a movement in one direction is paid from the
budget earned in that direction, and every reset of the budget only loses
credit. Adding up what one update pays bounds the movement of a whole run by the
ramp rate times the elapsed time, plus the less than one step that the budget
held at the start (`LaptopCooler.HostAgent.FanPolicy.movement_within_ramp`).
-/

namespace LaptopCooler.HostAgent

open Fallible SlewLimiter

namespace FanPolicy

/-! ## The budget as a potential -/

/-- The credit for increases. -/
def climbReserve (policy : FanPolicy) : ℚ :=
  if policy.commandedDutyPercent < policy.targetDutyPercent then policy.slewBudgetPercent else 0

/-- The credit for decreases. -/
def descentReserve (policy : FanPolicy) : ℚ :=
  if policy.targetDutyPercent < policy.commandedDutyPercent then policy.slewBudgetPercent else 0

theorem climbReserve_nonneg {policy : FanPolicy} (invariant : policy.Invariant) :
    0 ≤ policy.climbReserve := by
  unfold climbReserve
  split
  · exact invariant.budget_nonneg
  · exact le_rfl

theorem descentReserve_nonneg {policy : FanPolicy} (invariant : policy.Invariant) :
    0 ≤ policy.descentReserve := by
  unfold descentReserve
  split
  · exact invariant.budget_nonneg
  · exact le_rfl

theorem climbReserve_lt_step {policy : FanPolicy} (invariant : policy.Invariant) :
    policy.climbReserve < policy.config.dutyStepPercent := by
  unfold climbReserve
  split
  · next below => exact invariant.budget_lt_step (Nat.ne_of_lt below)
  · exact Nat.cast_pos.mpr invariant.valid.step.1

theorem descentReserve_lt_step {policy : FanPolicy} (invariant : policy.Invariant) :
    policy.descentReserve < policy.config.dutyStepPercent := by
  unfold descentReserve
  split
  · next above => exact invariant.budget_lt_step (Nat.ne_of_gt above)
  · exact Nat.cast_pos.mpr invariant.valid.step.1

/-- A new target earns no credit for increases. -/
theorem climbReserve_aimedAt_le {policy : FanPolicy} (invariant : policy.Invariant) (target : ℕ) :
    (policy.aimedAt target).climbReserve ≤ policy.climbReserve := by
  by_cases same : target = policy.targetDutyPercent
  · simp [climbReserve, aimedAt, same]
  · have reset : (policy.aimedAt target).climbReserve = 0 := by simp [climbReserve, aimedAt, same]
    rw [reset]
    exact climbReserve_nonneg invariant

/-- A new target earns no credit for decreases. -/
theorem descentReserve_aimedAt_le {policy : FanPolicy} (invariant : policy.Invariant)
    (target : ℕ) : (policy.aimedAt target).descentReserve ≤ policy.descentReserve := by
  by_cases same : target = policy.targetDutyPercent
  · simp [descentReserve, aimedAt, same]
  · have reset : (policy.aimedAt target).descentReserve = 0 := by
      simp [descentReserve, aimedAt, same]
    rw [reset]
    exact descentReserve_nonneg invariant

theorem climbReserve_le_budget {policy : FanPolicy} (invariant : policy.Invariant) :
    policy.climbReserve ≤ policy.slewBudgetPercent := by
  unfold climbReserve
  split
  · exact le_rfl
  · exact invariant.budget_nonneg

theorem descentReserve_le_budget {policy : FanPolicy} (invariant : policy.Invariant) :
    policy.descentReserve ≤ policy.slewBudgetPercent := by
  unfold descentReserve
  split
  · exact le_rfl
  · exact invariant.budget_nonneg

/-- A movement upwards is paid from the credit for increases. -/
theorem slewed_increase {policy : FanPolicy} (invariant : policy.Invariant) {elapsedSeconds : ℚ}
    (nonneg : 0 ≤ elapsedSeconds) :
    (((policy.slewed elapsedSeconds).commandedDutyPercent - policy.commandedDutyPercent : ℕ) : ℚ) +
        (policy.slewed elapsedSeconds).climbReserve ≤
      policy.climbReserve + policy.config.rampUpPercentPerSecond * elapsedSeconds := by
  have left := climbReserve_le_budget (slewed_invariant invariant nonneg)
  have earned : 0 ≤ (policy.config.rampUpPercentPerSecond : ℚ) * elapsedSeconds := by positivity
  have reserve := climbReserve_nonneg invariant
  have target := (slewed_frame policy elapsedSeconds).2.1
  rcases Nat.lt_trichotomy policy.commandedDutyPercent policy.targetDutyPercent with
    below | same | above
  · obtain ⟨change, _, moved, spent⟩ := slewed_of_below below elapsedSeconds
    have started : policy.climbReserve = policy.slewBudgetPercent := if_pos below
    rw [started, moved, Nat.add_sub_cancel_left]
    linarith
  · have none : (policy.slewed elapsedSeconds).climbReserve = 0 := by
      simp [slewed_of_eq same, climbReserve]
    rw [none, slewed_of_eq same, Nat.sub_self, Nat.cast_zero]
    linarith
  · obtain ⟨change, reach, moved, _⟩ := slewed_of_above above elapsedSeconds
    have none : (policy.slewed elapsedSeconds).climbReserve = 0 := by
      refine if_neg ?_
      omega
    have unraised : (policy.slewed elapsedSeconds).commandedDutyPercent -
        policy.commandedDutyPercent = 0 := by omega
    rw [none, unraised, Nat.cast_zero]
    linarith

/-- A movement downwards is paid from the credit for decreases. -/
theorem slewed_decrease {policy : FanPolicy} (invariant : policy.Invariant) {elapsedSeconds : ℚ}
    (nonneg : 0 ≤ elapsedSeconds) :
    ((policy.commandedDutyPercent - (policy.slewed elapsedSeconds).commandedDutyPercent : ℕ) : ℚ) +
        (policy.slewed elapsedSeconds).descentReserve ≤
      policy.descentReserve + policy.config.rampDownPercentPerSecond * elapsedSeconds := by
  have left := descentReserve_le_budget (slewed_invariant invariant nonneg)
  have earned : 0 ≤ (policy.config.rampDownPercentPerSecond : ℚ) * elapsedSeconds := by positivity
  have reserve := descentReserve_nonneg invariant
  have target := (slewed_frame policy elapsedSeconds).2.1
  rcases Nat.lt_trichotomy policy.commandedDutyPercent policy.targetDutyPercent with
    below | same | above
  · obtain ⟨change, reach, moved, _⟩ := slewed_of_below below elapsedSeconds
    have none : (policy.slewed elapsedSeconds).descentReserve = 0 := by
      refine if_neg ?_
      omega
    have unlowered : policy.commandedDutyPercent -
        (policy.slewed elapsedSeconds).commandedDutyPercent = 0 := by omega
    rw [none, unlowered, Nat.cast_zero]
    linarith
  · have none : (policy.slewed elapsedSeconds).descentReserve = 0 := by
      simp [slewed_of_eq same, descentReserve]
    rw [none, slewed_of_eq same, Nat.sub_self, Nat.cast_zero]
    linarith
  · obtain ⟨change, reach, moved, spent⟩ := slewed_of_above above elapsedSeconds
    have started : policy.descentReserve = policy.slewBudgetPercent := if_pos above
    rw [started, moved, Nat.sub_sub_self (by omega)]
    linarith

/-! ## What one update pays -/

/-- An update below the emergency temperature pays for its increase. -/
theorem next_increase {policy : FanPolicy} (invariant : policy.Invariant)
    {temperatureMilliC : ℤ} (cool : temperatureMilliC < policy.config.emergencyTemperatureMilliC)
    (elapsed : Duration) :
    (((policy.next temperatureMilliC elapsed).commandedDutyPercent -
        policy.commandedDutyPercent : ℕ) : ℚ) +
        (policy.next temperatureMilliC elapsed).climbReserve ≤
      policy.climbReserve + policy.config.rampUpPercentPerSecond * elapsed.asSecs := by
  have aimed : (policy.aimed temperatureMilliC elapsed.asSecs).climbReserve ≤ policy.climbReserve :=
    climbReserve_aimedAt_le invariant _
  have moved := slewed_increase (aimed_invariant invariant temperatureMilliC elapsed.asSecs)
    elapsed.asSecs_nonneg
  rw [next_of_cool cool]
  exact moved.trans (add_le_add_left aimed _)

/-- Every update pays for its decrease; an emergency has none. -/
theorem next_decrease {policy : FanPolicy} (invariant : policy.Invariant)
    (temperatureMilliC : ℤ) (elapsed : Duration) :
    ((policy.commandedDutyPercent -
        (policy.next temperatureMilliC elapsed).commandedDutyPercent : ℕ) : ℚ) +
        (policy.next temperatureMilliC elapsed).descentReserve ≤
      policy.descentReserve + policy.config.rampDownPercentPerSecond * elapsed.asSecs := by
  rcases lt_or_ge temperatureMilliC policy.config.emergencyTemperatureMilliC with cool | hot
  · have aimed : (policy.aimed temperatureMilliC elapsed.asSecs).descentReserve ≤
        policy.descentReserve := descentReserve_aimedAt_le invariant _
    have moved := slewed_decrease (aimed_invariant invariant temperatureMilliC elapsed.asSecs)
      elapsed.asSecs_nonneg
    rw [next_of_cool cool]
    exact moved.trans (add_le_add_left aimed _)
  · have unlowered : policy.commandedDutyPercent - maxDutyPercent = 0 :=
      Nat.sub_eq_zero_of_le invariant.commanded.2
    have spent : (policy.emergency temperatureMilliC).descentReserve = 0 :=
      if_neg (Nat.lt_irrefl _)
    have earned : 0 ≤ (policy.config.rampDownPercentPerSecond : ℚ) * elapsed.asSecs :=
      mul_nonneg (Nat.cast_nonneg _) elapsed.asSecs_nonneg
    have reserve := descentReserve_nonneg invariant
    have jumped : (policy.emergency temperatureMilliC).commandedDutyPercent = maxDutyPercent := rfl
    rw [next_of_hot hot, spent, jumped, unlowered, Nat.cast_zero]
    linarith

/-! ## What a run pays -/

theorem states_increase {policy : FanPolicy} (invariant : policy.Invariant)
    {readings : List Reading}
    (cool : ∀ reading ∈ readings, reading.1 < policy.config.emergencyTemperatureMilliC) :
    (totalIncrease policy.commandedDutyPercent
        ((policy.states readings).map commandedDutyPercent) : ℚ) ≤
      policy.climbReserve + policy.config.rampUpPercentPerSecond * totalElapsed readings := by
  induction readings generalizing policy with
  | nil => simpa [totalIncrease, states] using climbReserve_nonneg invariant
  | cons reading rest ih =>
      obtain ⟨temperatureMilliC, elapsed⟩ := reading
      have first := next_increase invariant (cool _ List.mem_cons_self) elapsed
      have later := ih (next_invariant invariant temperatureMilliC elapsed) fun reading member => by
        rw [next_config]
        exact cool reading (List.mem_cons_of_mem _ member)
      rw [next_config] at later
      rw [states, List.map_cons, totalIncrease, totalElapsed_cons, Nat.cast_add, mul_add]
      linarith

theorem states_decrease {policy : FanPolicy} (invariant : policy.Invariant)
    (readings : List Reading) :
    (totalDecrease policy.commandedDutyPercent
        ((policy.states readings).map commandedDutyPercent) : ℚ) ≤
      policy.descentReserve + policy.config.rampDownPercentPerSecond * totalElapsed readings := by
  induction readings generalizing policy with
  | nil => simpa [totalDecrease, states] using descentReserve_nonneg invariant
  | cons reading rest ih =>
      obtain ⟨temperatureMilliC, elapsed⟩ := reading
      have first := next_decrease invariant temperatureMilliC elapsed
      have later := ih (next_invariant invariant temperatureMilliC elapsed)
      rw [next_config] at later
      rw [states, List.map_cons, totalDecrease, totalElapsed_cons, Nat.cast_add, mul_add]
      linarith

/-- **The slew limit holds over every stretch of time.** From every reachable policy, the
increases of a run without emergencies stay below the upward ramp plus one step, and the
decreases of any run stay below the downward ramp plus one step. -/
theorem movement_within_ramp {config : FanPolicyConfig} {policy : FanPolicy}
    (reachable : Reachable config policy) (readings : List Reading) :
    ∃ duties after, policy.run readings = .ok (duties, after) ∧
      ((∀ reading ∈ readings, reading.1 < config.emergencyTemperatureMilliC) →
        (totalIncrease policy.commandedDutyPercent duties : ℚ) <
          config.rampUpPercentPerSecond * totalElapsed readings + config.dutyStepPercent) ∧
      (totalDecrease policy.commandedDutyPercent duties : ℚ) <
        config.rampDownPercentPerSecond * totalElapsed readings + config.dutyStepPercent := by
  obtain ⟨invariant, rfl⟩ := reachable.invariant
  refine ⟨_, _, run_eq invariant readings, ?_, ?_⟩
  · intro cool
    have paid := states_increase invariant cool
    have before := climbReserve_lt_step invariant
    linarith
  · have paid := states_decrease invariant readings
    have before := descentReserve_lt_step invariant
    linarith

/-- The default policy cooling down for ten seconds lowers its duty by less than 25 percent. -/
theorem default_descends_slowly :
    ∃ policy duties after, new .default = .ok policy ∧
      policy.run [(40000, .fromMillis 5000), (40000, .fromMillis 5000)] = .ok (duties, after) ∧
      totalDecrease maxDutyPercent duties < 25 := by
  obtain ⟨duties, after, ran, _, descent⟩ := movement_within_ramp
    (.new (show new .default = .ok _ from rfl))
    [(40000, .fromMillis 5000), (40000, .fromMillis 5000)]
  refine ⟨_, duties, after, rfl, ran, ?_⟩
  norm_num [totalElapsed, Duration.asSecs, Duration.fromMillis, FanPolicyConfig.default] at descent
  exact descent

end FanPolicy

end LaptopCooler.HostAgent
