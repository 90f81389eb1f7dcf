import LaptopCooler.HostAgent.PolicyRun

/-! # Constant temperature

Under a constant temperature the smoothed temperature approaches it from one side,
so the duties on the curve and, after the first update, the targets only rise or
only fall, and the returned duty turns at most once
(`LaptopCooler.HostAgent.FanPolicy.constant_temperature_settles`).
-/

namespace LaptopCooler.HostAgent.FanPolicy

open Fallible Pursuit

variable {policy : FanPolicy} {temperatureMilliC : ℤ}

/-- One reading of the temperature after each of the durations. -/
def held (temperatureMilliC : ℤ) (durations : List Duration) : List Reading :=
  durations.map fun elapsed => (temperatureMilliC, elapsed)

theorem held_cool {limit : ℤ} (cool : temperatureMilliC < limit) (durations : List Duration) :
    ∀ reading ∈ held temperatureMilliC durations, reading.1 < limit := by
  intro reading member
  obtain ⟨elapsed, _, rfl⟩ := List.mem_map.mp member
  exact cool

/-- The smoothed temperature follows the constant one. -/
theorem follows_held (cool : temperatureMilliC < policy.config.emergencyTemperatureMilliC)
    (durations : List Duration) :
    Follows (policy.smoothedTemperatureMilliC.getD temperatureMilliC)
      ((policy.states (held temperatureMilliC durations)).map fun state =>
        ((temperatureMilliC : ℚ), state.smoothedTemperatureMilliC.getD 0)) := by
  induction durations generalizing policy with
  | nil => trivial
  | cons elapsed rest ih =>
      have smoothed := next_smoothed cool elapsed
      have approaches := policy.smoothedTo_approaches temperatureMilliC elapsed
      have later := @ih (policy.next temperatureMilliC elapsed) (by rwa [next_config])
      rw [smoothed] at later
      refine ⟨?_, ?_⟩
      · rw [smoothed]
        exact approaches
      · rw [smoothed]
        exact later

/-- The duties on the curve move with the smoothed temperature. -/
private theorem desiredDuty_pairwise {relation : ℚ → ℚ → Prop} (invariant : policy.Invariant)
    (carried : ∀ first second, relation first second →
      relation (curveDuty policy.config.curve first) (curveDuty policy.config.curve second))
    {readings : List Reading}
    (smoothed : ((policy.states readings).map fun state =>
      state.smoothedTemperatureMilliC.getD 0).Pairwise relation) :
    ((policy.states readings).map desiredDuty).Pairwise relation := by
  rw [List.pairwise_map] at smoothed ⊢
  refine smoothed.imp_of_mem fun {first second} member other moved => ?_
  rw [desiredDuty, desiredDuty, (states_invariant invariant readings first member).2,
    (states_invariant invariant readings second other).2]
  exact carried _ _ moved

private theorem desiredDuty_mem (invariant : policy.Invariant) (readings : List Reading) :
    ∀ duty ∈ (policy.states readings).map desiredDuty,
      duty ∈ Set.Icc (minDutyPercent : ℚ) maxDutyPercent := by
  intro duty member
  obtain ⟨state, reached, rfl⟩ := List.mem_map.mp member
  exact (states_invariant invariant readings state reached).1.valid.curveDuty_mem _

/-- The targets move with the smoothed temperature when the targets behind such duties do. -/
private theorem targets_pairwise {relation : ℚ → ℚ → Prop} (invariant : policy.Invariant)
    {readings : List Reading}
    (cool : ∀ reading ∈ readings, reading.1 < policy.config.emergencyTemperatureMilliC)
    (carried : ∀ first second, relation first second →
      relation (curveDuty policy.config.curve first) (curveDuty policy.config.curve second))
    (chosen : ∀ duties : List ℚ,
      (∀ duty ∈ duties, duty ∈ Set.Icc (minDutyPercent : ℚ) maxDutyPercent) →
      duties.Pairwise relation →
      (Hysteresis.targets (policy.config.dutyHysteresisPercent : ℚ)
        (fun duty => (quantized policy.config.dutyStepPercent duty : ℚ))
        policy.targetDutyPercent duties).Pairwise relation)
    (smoothed : ((policy.states readings).map fun state =>
      state.smoothedTemperatureMilliC.getD 0).Pairwise relation) :
    (policy.states readings).Pairwise fun first second =>
      relation first.targetDutyPercent second.targetDutyPercent := by
  have targets := chosen _ (desiredDuty_mem invariant readings)
    (desiredDuty_pairwise invariant carried smoothed)
  rwa [← targets_states cool, List.pairwise_map] at targets

section Held

variable {config : FanPolicyConfig} (reachable : Reachable config policy)
  (cool : temperatureMilliC < config.emergencyTemperatureMilliC) (durations : List Duration)

include reachable cool

/-- Below the temperature, the targets after the first update only rise. -/
theorem targets_rise
    (below : policy.smoothedTemperatureMilliC.getD temperatureMilliC ≤ temperatureMilliC) :
    ((policy.states (held temperatureMilliC durations)).map targetDutyPercent).Pairwise
      (· ≤ ·) := by
  obtain ⟨invariant, rfl⟩ := reachable.invariant
  have smoothed := (rises_to_constant (follows_held cool durations) (fun pair member => by
    obtain ⟨state, _, rfl⟩ := List.mem_map.mp member
    rfl) below).1
  rw [List.map_map] at smoothed
  have targets := @targets_pairwise policy (· ≤ ·) invariant _ (held_cool cool durations)
    (fun _ _ moved => invariant.valid.curveDuty_mono moved)
    (fun _ inside ascending => Hysteresis.targets_ascending
      (fun first _ second _ order => Nat.cast_le.mpr (quantized_mono invariant.valid.step.1 order))
      (fun duty bounded above => Nat.cast_le.mpr (le_quantized invariant.valid.step.1
        reachable.onGrid invariant.target.2 bounded.2 above)) inside ascending)
    (List.pairwise_cons.mp smoothed).2
  rw [List.pairwise_map]
  exact targets.imp Nat.cast_le.mp

/-- Above the temperature, the targets after the first update only fall. -/
theorem targets_fall
    (above : (temperatureMilliC : ℚ) ≤ policy.smoothedTemperatureMilliC.getD temperatureMilliC) :
    ((policy.states (held temperatureMilliC durations)).map targetDutyPercent).Pairwise
      (· ≥ ·) := by
  obtain ⟨invariant, rfl⟩ := reachable.invariant
  have smoothed := (falls_to_constant (follows_held cool durations) (fun pair member => by
    obtain ⟨state, _, rfl⟩ := List.mem_map.mp member
    rfl) above).1
  rw [List.map_map] at smoothed
  have targets := @targets_pairwise policy (· ≥ ·) invariant _ (held_cool cool durations)
    (fun _ _ moved => invariant.valid.curveDuty_mono moved)
    (fun _ inside descending => Hysteresis.targets_descending
      (fun first _ second _ order => Nat.cast_le.mpr (quantized_mono invariant.valid.step.1 order))
      (fun duty bounded below => Nat.cast_le.mpr (quantized_le invariant.valid.step.1
        reachable.onGrid invariant.target.1 bounded.1 below)) inside descending)
    (List.pairwise_cons.mp smoothed).2
  rw [List.pairwise_map]
  exact targets.imp Nat.cast_le.mp

end Held

/-- **A constant temperature never makes the policy oscillate.** From every reachable policy,
updates with one temperature below the emergency temperature only raise the target after the
first of them if the smoothed temperature was not above it, and only lower it if the smoothed
temperature was not below it. The returned duty turns at most once. -/
theorem constant_temperature_settles {config : FanPolicyConfig} {policy : FanPolicy}
    (reachable : Reachable config policy) {temperatureMilliC : ℤ}
    (cool : temperatureMilliC < config.emergencyTemperatureMilliC) (durations : List Duration) :
    ∃ results,
      policy.trace (durations.map fun elapsed => (temperatureMilliC, elapsed)) = .ok results ∧
      ((∀ smoothed, policy.smoothedTemperatureMilliC = some smoothed →
        smoothed ≤ temperatureMilliC) →
          (results.map fun result => result.2.targetDutyPercent).Pairwise (· ≤ ·)) ∧
      ((∀ smoothed, policy.smoothedTemperatureMilliC = some smoothed →
        temperatureMilliC ≤ smoothed) →
          (results.map fun result => result.2.targetDutyPercent).Pairwise (· ≥ ·)) ∧
      changes (directions policy.commandedDutyPercent (results.map Prod.fst)) ≤ 1 := by
  obtain ⟨invariant, same⟩ := reachable.invariant
  refine ⟨_, trace_eq invariant (held temperatureMilliC durations), ?_, ?_, ?_⟩
  · intro below
    rw [List.map_map]
    refine targets_rise reachable cool durations ?_
    cases smoothed : policy.smoothedTemperatureMilliC with
    | none => exact le_rfl
    | some previous => exact below previous smoothed
  · intro above
    rw [List.map_map]
    refine targets_fall reachable cool durations ?_
    cases smoothed : policy.smoothedTemperatureMilliC with
    | none => exact le_rfl
    | some previous => exact above previous smoothed
  · have follows := follows_states invariant (held temperatureMilliC durations)
    rw [List.map_map]
    rcases le_total (policy.smoothedTemperatureMilliC.getD temperatureMilliC)
      (temperatureMilliC : ℚ) with below | above
    · have ascending := targets_rise reachable cool durations below
      have once := changes_le_one_of_ascending follows (by rw [List.map_map]; exact ascending)
      rw [List.map_map] at once
      exact once
    · have descending := targets_fall reachable cool durations above
      have once := changes_le_one_of_descending follows (by rw [List.map_map]; exact descending)
      rw [List.map_map] at once
      exact once

/-- The default policy comes down from full speed at 50 degrees. -/
theorem default_constant_temperature :
    ∃ policy results, new .default = .ok policy ∧
      policy.trace [(50000, .fromMillis 4000), (50000, .fromMillis 4000),
        (50000, .fromMillis 60000)] = .ok results ∧
      results.map Prod.fst = [95, 85, 35] ∧
      (results.map fun result => result.2.targetDutyPercent).Pairwise (· ≥ ·) ∧
      changes (directions maxDutyPercent (results.map Prod.fst)) ≤ 1 := by
  obtain ⟨results, ran, _, falls, once⟩ := constant_temperature_settles
    (Reachable.fresh FanPolicyConfig.default_valid) (by decide : (50000 : ℤ) < 80000)
    [.fromMillis 4000, .fromMillis 4000, .fromMillis 60000]
  simp only [List.map_cons, List.map_nil] at ran
  have duties : ((fresh .default).trace [(50000, .fromMillis 4000), (50000, .fromMillis 4000),
      (50000, .fromMillis 60000)]).map (List.map Prod.fst) = .ok [95, 85, 35] := by
    -- The arithmetic of rational numbers is irreducible by default.
    with_unfolding_all decide
  rw [ran] at duties
  exact ⟨_, results, new_eq_ok_iff.mpr ⟨FanPolicyConfig.default_valid, rfl⟩, ran,
    Except.ok.inj duties, falls (fun _ => nofun), once⟩

end LaptopCooler.HostAgent.FanPolicy
