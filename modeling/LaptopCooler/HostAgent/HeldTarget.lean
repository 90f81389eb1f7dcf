import LaptopCooler.HostAgent.SlewProgress

/-! # Small fluctuations

As long as the duties on the curve stay closer to the one that chose the target
than the hysteresis less half a duty step, the target is held, and the returned
duty moves towards it, arrives and stays
(`LaptopCooler.HostAgent.FanPolicy.fluctuations_held`).
-/

namespace LaptopCooler.HostAgent.FanPolicy

open Fallible

variable {policy : FanPolicy} {readings : List Reading}

/-- Duties close to the one that chose the target lie inside its band. -/
theorem inside_of_close {config : FanPolicyConfig} (valid : config.Valid)
    {chosen desired : ℚ} {target : ℕ} (low : (minDutyPercent : ℚ) ≤ chosen)
    (high : chosen ≤ maxDutyPercent) (set : target = quantized config.dutyStepPercent chosen)
    (close : |desired - chosen| < config.dutyHysteresisPercent - config.dutyStepPercent / 2) :
    Hysteresis.Inside (config.dutyHysteresisPercent : ℚ) target desired := by
  obtain ⟨above, below⟩ := abs_le.mp (abs_quantized_sub_le valid.step.1 low high)
  obtain ⟨left, right⟩ := abs_lt.mp close
  rw [set]
  exact ⟨by linarith, by linarith⟩

/-- **The target is held** while the duties on the curve lie inside its band. -/
theorem targets_held
    (cool : ∀ reading ∈ readings, reading.1 < policy.config.emergencyTemperatureMilliC)
    (inside : ∀ state ∈ policy.states readings,
      Hysteresis.Inside (policy.config.dutyHysteresisPercent : ℚ) policy.targetDutyPercent
        state.desiredDuty) :
    ∀ state ∈ policy.states readings, state.targetDutyPercent = policy.targetDutyPercent := by
  have targets := targets_states cool
  rw [Hysteresis.targets_of_inside, List.map_map] at targets
  · intro state reached
    have same := List.map_inj_left.mp targets state reached
    exact Nat.cast_injective same
  · intro desired member
    obtain ⟨state, reached, rfl⟩ := List.mem_map.mp member
    exact inside state reached

/-- **A held target is reached.** Once the ramp rate times the elapsed time is the distance and
a duty step, the commanded duty is the target. -/
theorem arrives (invariant : policy.Invariant)
    (cool : ∀ reading ∈ readings, reading.1 < policy.config.emergencyTemperatureMilliC)
    (kept : ∀ state ∈ policy.states readings, state.targetDutyPercent = policy.targetDutyPercent)
    {count : ℕ} (enough : (policy.distance : ℚ) + policy.config.dutyStepPercent ≤
      policy.rampRate * totalElapsed (readings.take count))
    {index : ℕ} (past : count ≤ index + 1) {state : FanPolicy}
    (found : (policy.states readings)[index]? = some state) :
    state.commandedDutyPercent = policy.targetDutyPercent := by
  by_contra short
  have reached := List.mem_of_getElem? found
  have progressed := (arrives_or_progresses invariant cool kept found).resolve_left short
  obtain ⟨preserved, same⟩ := states_invariant invariant readings state reached
  have small := preserved.budget_lt_step (by rwa [kept state reached])
  rw [same] at small
  have longer := mul_le_mul_of_nonneg_left (totalElapsed_take_mono readings past)
    (Nat.cast_nonneg policy.rampRate : (0 : ℚ) ≤ policy.rampRate)
  have start := invariant.budget_nonneg
  have left : (0 : ℚ) ≤ state.distance := Nat.cast_nonneg _
  simp only at longer
  linarith

/-- **Fluctuations smaller than the hysteresis are held, and a held target is reached.** From a
reachable policy whose target was quantized from a duty on the curve, consider updates below
the emergency temperature after which the duty on the curve differs from that one by less than
the hysteresis less half a duty step. The target never changes, the returned duty moves
monotonically towards it and never passes it, and once the ramp rate times the elapsed time is
the distance and a duty step, the returned duty is the target and stays there. -/
theorem fluctuations_held {config : FanPolicyConfig} {policy : FanPolicy}
    (reachable : Reachable config policy)
    {chosenTemperature chosen : ℚ}
    (onCurve : interpolateCurve config.curve chosenTemperature = .ok chosen)
    (set : quantizeDuty chosen config.dutyStepPercent = .ok policy.targetDutyPercent)
    {readings : List Reading}
    (cool : ∀ reading ∈ readings, reading.1 < config.emergencyTemperatureMilliC)
    {results : List (ℕ × FanPolicy)} (ran : policy.trace readings = .ok results)
    (close : ∀ result ∈ results, ∃ smoothed desired,
      result.2.smoothedTemperatureMilliC = some smoothed ∧
      interpolateCurve config.curve smoothed = .ok desired ∧
      |desired - chosen| < config.dutyHysteresisPercent - config.dutyStepPercent / 2) :
    (∀ result ∈ results, result.2.targetDutyPercent = policy.targetDutyPercent) ∧
      (policy.commandedDutyPercent ≤ policy.targetDutyPercent →
        (policy.commandedDutyPercent :: results.map Prod.fst).Pairwise (· ≤ ·) ∧
          ∀ result ∈ results, result.1 ≤ policy.targetDutyPercent) ∧
      (policy.targetDutyPercent ≤ policy.commandedDutyPercent →
        (policy.commandedDutyPercent :: results.map Prod.fst).Pairwise (· ≥ ·) ∧
          ∀ result ∈ results, policy.targetDutyPercent ≤ result.1) ∧
      ∀ count : ℕ, (policy.distance : ℚ) + config.dutyStepPercent ≤
          policy.rampRate * totalElapsed (readings.take count) →
        ∀ index, count ≤ index + 1 → ∀ result, results[index]? = some result →
          result.1 = policy.targetDutyPercent := by
  obtain ⟨invariant, rfl⟩ := reachable.invariant
  rw [trace_eq invariant] at ran
  obtain rfl := Except.ok.inj ran
  rw [interpolateCurve_eq invariant.valid] at onCurve
  obtain rfl := Except.ok.inj onCurve
  rw [quantizeDuty_eq _ invariant.valid.step.1] at set
  obtain ⟨low, high⟩ := invariant.valid.curveDuty_mem chosenTemperature
  have kept : ∀ state ∈ policy.states readings,
      state.targetDutyPercent = policy.targetDutyPercent := by
    refine targets_held cool fun state reached => ?_
    obtain ⟨smoothed, desired, measured, read, near⟩ :=
      close _ (List.mem_map.mpr ⟨state, reached, rfl⟩)
    rw [interpolateCurve_eq invariant.valid] at read
    obtain rfl := Except.ok.inj read
    rw [desiredDuty, (states_invariant invariant readings state reached).2, measured]
    exact inside_of_close invariant.valid low high (Except.ok.inj set).symm near
  have follows := follows_states invariant readings
  have constant : ∀ pair ∈ (policy.states readings).map fun state =>
      (state.targetDutyPercent, state.commandedDutyPercent), pair.1 = policy.targetDutyPercent := by
    intro pair member
    obtain ⟨state, reached, rfl⟩ := List.mem_map.mp member
    exact kept state reached
  refine ⟨?_, ?_, ?_, ?_⟩
  · intro result member
    obtain ⟨state, reached, rfl⟩ := List.mem_map.mp member
    exact kept state reached
  · intro below
    obtain ⟨rises, behind⟩ := Pursuit.rises_to_constant follows constant below
    rw [List.map_map] at rises
    rw [List.map_map]
    refine ⟨rises, fun result member => ?_⟩
    obtain ⟨state, reached, rfl⟩ := List.mem_map.mp member
    exact behind _ (List.mem_map.mpr ⟨state, reached, rfl⟩)
  · intro above
    obtain ⟨falls, ahead⟩ := Pursuit.falls_to_constant follows constant above
    rw [List.map_map] at falls
    rw [List.map_map]
    refine ⟨falls, fun result member => ?_⟩
    obtain ⟨state, reached, rfl⟩ := List.mem_map.mp member
    exact ahead _ (List.mem_map.mpr ⟨state, reached, rfl⟩)
  · intro count enough index past result found
    rw [List.getElem?_map] at found
    obtain ⟨state, here, rfl⟩ := Option.map_eq_some_iff.mp found
    exact arrives invariant cool kept enough past here

/-- The default policy, once at 60 degrees, keeps its target at 60.5 degrees. -/
theorem default_fluctuation_held :
    ∃ policy results, Reachable .default policy ∧
      policy.trace [(60500, .fromMillis 1000)] = .ok results ∧
      ∀ result ∈ results, result.2.targetDutyPercent = 50 := by
  have reachable : Reachable .default ((fresh .default).next 60000 (.fromMillis 1000)) :=
    (Reachable.fresh FanPolicyConfig.default_valid).next 60000 (.fromMillis 1000)
  have onCurve : interpolateCurve FanPolicyConfig.default.curve 60000 = .ok 50 := by
    rw [interpolateCurve_eq FanPolicyConfig.default_valid]
    exact congrArg Except.ok (by with_unfolding_all decide)
  have set : quantizeDuty 50 FanPolicyConfig.default.dutyStepPercent =
      .ok ((fresh .default).next 60000 (.fromMillis 1000)).targetDutyPercent := by
    rw [quantizeDuty_eq 50 (by decide)]
    exact congrArg Except.ok (by with_unfolding_all decide)
  have ran := trace_eq reachable.invariant.1 [(60500, .fromMillis 1000)]
  have held := fluctuations_held reachable onCurve set (by decide) ran
  refine ⟨_, _, reachable, ran, ?_⟩
  intro result member
  refine ((held ?_).1 result member).trans (by with_unfolding_all decide)
  intro result member
  obtain rfl := List.mem_singleton.mp member
  refine ⟨180250 / 3, 301 / 6, ?_, ?_, ?_⟩
  · with_unfolding_all decide
  · rw [interpolateCurve_eq FanPolicyConfig.default_valid]
    exact congrArg Except.ok (by with_unfolding_all decide)
  · norm_num [FanPolicyConfig.default]

end LaptopCooler.HostAgent.FanPolicy
