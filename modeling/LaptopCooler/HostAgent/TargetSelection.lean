import LaptopCooler.HostAgent.Curve
import LaptopCooler.Library.Hysteresis
import LaptopCooler.Library.Pursuit

/-! # How the fan policy selects its target

Below the emergency temperature an update smooths the reading, reads the desired
duty off the curve and selects the target. The smoothed temperature approaches the
reading (`LaptopCooler.HostAgent.FanPolicy.smoothedTo_approaches`), and the target is
held with hysteresis and chosen by quantization
(`LaptopCooler.HostAgent.FanPolicyConfig.cast_selected`).
-/

namespace LaptopCooler.HostAgent

open Fallible

theorem Duration.asSecs_nonneg (duration : Duration) : 0 ≤ duration.asSecs := by
  unfold Duration.asSecs
  positivity

/-- The target after a desired duty. -/
def FanPolicyConfig.selected (config : FanPolicyConfig) (target : ℕ) (desired : ℚ) : ℕ :=
  if desired ≥ target + config.dutyHysteresisPercent ∨
      desired ≤ target - config.dutyHysteresisPercent then
    quantized config.dutyStepPercent desired
  else target

/-- **The target is held with hysteresis.** -/
theorem FanPolicyConfig.cast_selected (config : FanPolicyConfig) (target : ℕ) (desired : ℚ) :
    (config.selected target desired : ℚ) =
      Hysteresis.hold (config.dutyHysteresisPercent : ℚ)
        (fun duty => quantized config.dutyStepPercent duty) target desired := by
  rw [selected, Hysteresis.hold]
  by_cases triggered : desired ≥ target + config.dutyHysteresisPercent ∨
      desired ≤ target - config.dutyHysteresisPercent
  · have outside : ¬ Hysteresis.Inside (config.dutyHysteresisPercent : ℚ) target desired :=
      fun inside => triggered.elim (not_le.mpr inside.2) (not_le.mpr inside.1)
    rw [if_pos triggered, if_neg outside]
  · have inside : Hysteresis.Inside (config.dutyHysteresisPercent : ℚ) target desired := by
      rw [not_or, ge_iff_le, not_le, not_le] at triggered
      exact ⟨triggered.2, triggered.1⟩
    rw [if_neg triggered, if_pos inside]

/-- The target stays in range. -/
theorem FanPolicyConfig.selected_mem (config : FanPolicyConfig) {target : ℕ}
    (inRange : minDutyPercent ≤ target ∧ target ≤ maxDutyPercent) (desired : ℚ) :
    minDutyPercent ≤ config.selected target desired ∧
      config.selected target desired ≤ maxDutyPercent := by
  unfold selected
  split
  · exact quantized_mem _ desired
  · exact inRange

/-- The target stays on the grid of its steps. -/
theorem FanPolicyConfig.selected_onGrid (config : FanPolicyConfig) {target : ℕ}
    (grid : OnGrid config.dutyStepPercent target) (desired : ℚ) :
    OnGrid config.dutyStepPercent (config.selected target desired) := by
  unfold selected
  split
  · exact quantized_onGrid _ desired
  · exact grid

namespace FanPolicy

/-- The smoothed temperature after a reading. -/
def smoothedTo (policy : FanPolicy) (rawTemperature elapsedSeconds : ℚ) : ℚ :=
  match policy.smoothedTemperatureMilliC with
  | none => rawTemperature
  | some previous =>
      if policy.config.smoothingSeconds = 0 then rawTemperature
      else previous + elapsedSeconds / (policy.config.smoothingSeconds + elapsedSeconds) *
        (rawTemperature - previous)

/-- The weight of a reading has a positive denominator. -/
private theorem smoothing_pos {seconds : ℕ} (smoothing : ¬ seconds = 0) (elapsed : Duration) :
    (0 : ℚ) < seconds + elapsed.asSecs :=
  add_pos_of_pos_of_nonneg (Nat.cast_pos.mpr (Nat.pos_of_ne_zero smoothing)) elapsed.asSecs_nonneg

/-- Smoothing never divides by zero. -/
theorem smooth_eq (policy : FanPolicy) (rawTemperature : ℚ) (elapsed : Duration) :
    policy.smooth rawTemperature elapsed.asSecs =
      .ok (policy.smoothedTo rawTemperature elapsed.asSecs) := by
  unfold smooth smoothedTo
  cases policy.smoothedTemperatureMilliC with
  | none => rfl
  | some previous =>
      by_cases smoothing : policy.config.smoothingSeconds = 0
      · simp only [if_pos smoothing]
        rfl
      · simp only [if_neg smoothing, divide_of_pos (smoothing_pos smoothing elapsed), ok_bind]
        rfl

/-- **The smoothed temperature approaches the reading,** and starts at the first one. -/
theorem smoothedTo_approaches (policy : FanPolicy) (rawTemperature : ℚ) (elapsed : Duration) :
    Pursuit.Approaches (policy.smoothedTemperatureMilliC.getD rawTemperature) rawTemperature
      (policy.smoothedTo rawTemperature elapsed.asSecs) := by
  unfold smoothedTo
  cases policy.smoothedTemperatureMilliC with
  | none => exact Or.inl ⟨le_rfl, le_rfl⟩
  | some previous =>
      simp only [Option.getD_some]
      split
      · rcases le_total previous rawTemperature with rises | falls
        · exact Or.inl ⟨rises, le_rfl⟩
        · exact Or.inr ⟨le_rfl, falls⟩
      · next smoothing =>
        have positive := smoothing_pos smoothing elapsed
        have weight : 0 ≤ elapsed.asSecs / (policy.config.smoothingSeconds + elapsed.asSecs) :=
          div_nonneg elapsed.asSecs_nonneg positive.le
        have bounded : elapsed.asSecs / (policy.config.smoothingSeconds + elapsed.asSecs) ≤ 1 :=
          (div_le_one positive).mpr (le_add_of_nonneg_left (Nat.cast_nonneg _))
        generalize elapsed.asSecs / (policy.config.smoothingSeconds + elapsed.asSecs) = share at *
        rcases le_total previous rawTemperature with rises | falls
        · have moved := mul_nonneg weight (sub_nonneg.mpr rises)
          have short := mul_le_mul_of_nonneg_right bounded (sub_nonneg.mpr rises)
          exact Or.inl ⟨by linarith, by linarith⟩
        · have moved := mul_nonneg weight (sub_nonneg.mpr falls)
          have short := mul_le_mul_of_nonneg_right bounded (sub_nonneg.mpr falls)
          exact Or.inr ⟨by linarith, by linarith⟩

/-- The policy with a new target; a target that changes empties the budget. -/
def aimedAt (policy : FanPolicy) (targetDutyPercent : ℕ) : FanPolicy :=
  { policy with
    targetDutyPercent := targetDutyPercent
    slewBudgetPercent :=
      if targetDutyPercent = policy.targetDutyPercent then policy.slewBudgetPercent else 0 }

/-- Selecting a target never divides by zero. -/
theorem retarget_eq (policy : FanPolicy) (positive : 1 ≤ policy.config.dutyStepPercent)
    (desired : ℚ) : policy.retarget desired =
      .ok (policy.aimedAt (policy.config.selected policy.targetDutyPercent desired)) := by
  have unchanged : policy.aimedAt policy.targetDutyPercent = policy := by simp [aimedAt]
  simp only [retarget, quantizeDuty_eq desired positive, ok_bind, FanPolicyConfig.selected]
  split
  · by_cases same : quantized policy.config.dutyStepPercent desired = policy.targetDutyPercent
    · rw [if_neg (not_not.mpr same), same, unchanged]
      rfl
    · rw [if_pos same, aimedAt, if_neg same]
      rfl
  · rw [unchanged]
    rfl

/-- The policy after smoothing a reading and selecting the target for it. -/
def aimed (policy : FanPolicy) (rawTemperature elapsedSeconds : ℚ) : FanPolicy :=
  let smoothed := policy.smoothedTo rawTemperature elapsedSeconds
  { policy with smoothedTemperatureMilliC := some smoothed }.aimedAt
    (policy.config.selected policy.targetDutyPercent (curveDuty policy.config.curve smoothed))

/-- The two stages of an update below the emergency temperature. -/
theorem retarget_smoothed (policy : FanPolicy) (positive : 1 ≤ policy.config.dutyStepPercent)
    (rawTemperature elapsedSeconds : ℚ) :
    { policy with
        smoothedTemperatureMilliC := some (policy.smoothedTo rawTemperature elapsedSeconds)
      }.retarget (curveDuty policy.config.curve (policy.smoothedTo rawTemperature elapsedSeconds)) =
      .ok (policy.aimed rawTemperature elapsedSeconds) :=
  retarget_eq { policy with
    smoothedTemperatureMilliC := some (policy.smoothedTo rawTemperature elapsedSeconds) } positive _

end FanPolicy

end LaptopCooler.HostAgent
