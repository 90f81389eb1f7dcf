import LaptopCooler.HostAgent.Policy

/-! # The fan policy's configuration

Validation establishes that the curve rises strictly in temperature and weakly
in duty inside its ranges, that it ends at full speed no later than the emergency
temperature, and that steps and rates are positive
(`LaptopCooler.HostAgent.FanPolicyConfig.validate_eq_ok_iff`).
-/

namespace LaptopCooler.HostAgent

open Fallible

namespace FanPolicyConfig

/-- The configurations that `validate` accepts. -/
structure Valid (config : FanPolicyConfig) : Prop where
  two_le_length : 2 ≤ config.curve.length
  ascending : ∀ points ∈ windows config.curve,
    points.1.temperatureMilliC < points.2.temperatureMilliC ∧
      points.1.dutyPercent ≤ points.2.dutyPercent
  inRange : ∀ point ∈ config.curve,
    (0 ≤ point.temperatureMilliC ∧ point.temperatureMilliC ≤ 120000) ∧
      minDutyPercent ≤ point.dutyPercent ∧ point.dutyPercent ≤ maxDutyPercent
  endsFull : ∃ last, config.curve.getLast? = some last ∧ last.dutyPercent = maxDutyPercent ∧
    last.temperatureMilliC ≤ config.emergencyTemperatureMilliC
  smoothing_le : config.smoothingSeconds ≤ 60
  step : 1 ≤ config.dutyStepPercent ∧ config.dutyStepPercent ≤ 20
  hysteresis_le : config.dutyHysteresisPercent ≤ 20
  rampUp : 1 ≤ config.rampUpPercentPerSecond ∧ config.rampUpPercentPerSecond ≤ 100
  rampDown : 1 ≤ config.rampDownPercentPerSecond ∧ config.rampDownPercentPerSecond ≤ 100
  emergency : 50000 ≤ config.emergencyTemperatureMilliC ∧
    config.emergencyTemperatureMilliC ≤ maxConfigurableEmergencyC * 1000

private theorem curve_accepted_iff (config : FanPolicyConfig) :
    ¬ (config.curve.length < 2 ∨
      ((windows config.curve).any fun points =>
        points.1.temperatureMilliC ≥ points.2.temperatureMilliC ∨
          points.1.dutyPercent > points.2.dutyPercent) ∨
      (config.curve.any fun point =>
        ¬ (0 ≤ point.temperatureMilliC ∧ point.temperatureMilliC ≤ 120000) ∨
          ¬ (minDutyPercent ≤ point.dutyPercent ∧ point.dutyPercent ≤ maxDutyPercent)) ∨
      (config.curve.getLast?.all fun point =>
        point.dutyPercent ≠ maxDutyPercent ∨
          point.temperatureMilliC > config.emergencyTemperatureMilliC)) ↔
    2 ≤ config.curve.length ∧
      (∀ points ∈ windows config.curve,
        points.1.temperatureMilliC < points.2.temperatureMilliC ∧
          points.1.dutyPercent ≤ points.2.dutyPercent) ∧
      (∀ point ∈ config.curve,
        (0 ≤ point.temperatureMilliC ∧ point.temperatureMilliC ≤ 120000) ∧
          minDutyPercent ≤ point.dutyPercent ∧ point.dutyPercent ≤ maxDutyPercent) ∧
      ∃ last, config.curve.getLast? = some last ∧ last.dutyPercent = maxDutyPercent ∧
        last.temperatureMilliC ≤ config.emergencyTemperatureMilliC := by
  simp only [not_or, Bool.not_eq_true, List.any_eq_false, decide_eq_true_eq,
    not_not, not_le, ge_iff_le, gt_iff_lt, not_lt]
  refine and_congr_right fun _ => and_congr_right fun _ => and_congr_right fun _ => ?_
  cases config.curve.getLast? <;> simp

/-- **Validation, spelled out.** -/
theorem validate_eq_ok_iff (config : FanPolicyConfig) :
    config.validate = .ok () ↔ config.Valid := by
  simp only [validate, throw, throwThe, MonadExceptOf.throw, error_bind, guard_eq_ok_iff, pure,
    Except.pure, curve_accepted_iff]
  constructor
  · rintro ⟨⟨length, ascending, inRange, last⟩, smoothing, step, hysteresis, ramps, emergency, _⟩
    rw [not_or, not_not, not_not] at ramps
    exact ⟨length, ascending, inRange, last, Nat.not_lt.mp smoothing, not_not.mp step,
      Nat.not_lt.mp hysteresis, ramps.1, ramps.2, not_not.mp emergency⟩
  · intro valid
    refine ⟨⟨valid.two_le_length, valid.ascending, valid.inRange, valid.endsFull⟩,
      Nat.not_lt.mpr valid.smoothing_le, not_not.mpr valid.step,
      Nat.not_lt.mpr valid.hysteresis_le, ?_, not_not.mpr valid.emergency, trivial⟩
    rw [not_or, not_not, not_not]
    exact ⟨valid.rampUp, valid.rampDown⟩

instance (config : FanPolicyConfig) : Decidable config.Valid :=
  decidable_of_iff _ (validate_eq_ok_iff config)

/-- The default configuration passes its own validation. -/
theorem default_valid : default.Valid := by decide

end FanPolicyConfig

end LaptopCooler.HostAgent
