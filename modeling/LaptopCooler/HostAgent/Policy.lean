import LaptopCooler.Library.Fallible
import Mathlib.Data.Rat.Floor
import Mathlib.Algebra.Order.Round

/-! # The host agent's fan policy

The model of `host-agent/src/policy.rs`. Floating-point arithmetic is read as
exact rational arithmetic. Everything at which the source could panic, and
division by zero, is a fault of the model, so that the absence of faults is a
statement about it.
-/

namespace LaptopCooler.HostAgent

open Fallible

/-- Where an operation of the source has no value. -/
inductive Fault where
  | indexOutOfBounds
  | arithmeticOverflow
  | divisionByZero
  | expectation (message : String)
  deriving DecidableEq, Repr

abbrev Checked := Except Fault

/-- Subtraction of `u8` values. -/
def subU8 (minuend subtrahend : ℕ) : Checked ℕ :=
  if subtrahend ≤ minuend then .ok (minuend - subtrahend) else .error .arithmeticOverflow

/-- Subtraction of `i32` values. -/
def subI32 (minuend subtrahend : ℤ) : Checked ℤ :=
  if -2147483648 ≤ minuend - subtrahend ∧ minuend - subtrahend ≤ 2147483647 then
    .ok (minuend - subtrahend)
  else .error .arithmeticOverflow

def divide (numerator denominator : ℚ) : Checked ℚ :=
  if denominator = 0 then .error .divisionByZero else .ok (numerator / denominator)

/-- The saturating cast of a floating-point value to `u8`. -/
def asU8 (value : ℚ) : ℕ := min ⌊value⌋₊ 255

/-- `f64::round`: to the nearest integer, half away from zero. -/
def roundHalfAway (value : ℚ) : ℤ := if 0 ≤ value then ⌊value + 1 / 2⌋ else ⌈value - 1 / 2⌉

/-- `f64::clamp` -/
def clamp (value low high : ℚ) : ℚ :=
  if value < low then low else if high < value then high else value

/-- A span of time as whole seconds and nanoseconds. -/
structure Duration where
  secs : ℕ
  nanos : ℕ
  nanos_lt : nanos < 1000000000

def Duration.asSecs (duration : Duration) : ℚ := duration.secs + duration.nanos / 1000000000

/-- `Duration::from_millis` -/
def Duration.fromMillis (millis : ℕ) : Duration where
  secs := millis / 1000
  nanos := millis % 1000 * 1000000
  nanos_lt := by omega

def minDutyPercent : ℕ := 20
def maxDutyPercent : ℕ := 100
def maxConfigurableEmergencyC : ℤ := 90

structure CurvePoint where
  temperatureMilliC : ℤ
  dutyPercent : ℕ
  deriving DecidableEq, Repr

structure FanPolicyConfig where
  curve : List CurvePoint
  smoothingSeconds : ℕ
  dutyStepPercent : ℕ
  dutyHysteresisPercent : ℕ
  rampUpPercentPerSecond : ℕ
  rampDownPercentPerSecond : ℕ
  emergencyTemperatureMilliC : ℤ
  deriving DecidableEq, Repr

inductive PolicyConfigError where
  | invalidCurve
  | invalidSmoothing
  | invalidDutyStep
  | invalidHysteresis
  | invalidRamp
  | invalidEmergencyTemperature
  deriving DecidableEq, Repr

namespace FanPolicyConfig

/-- The default configuration; its curve is what `parse_curve` reads from
`45:25,55:40,65:60,75:80,80:100`. -/
def default : FanPolicyConfig where
  curve := [⟨45000, 25⟩, ⟨55000, 40⟩, ⟨65000, 60⟩, ⟨75000, 80⟩, ⟨80000, 100⟩]
  smoothingSeconds := 5
  dutyStepPercent := 5
  dutyHysteresisPercent := 5
  rampUpPercentPerSecond := 10
  rampDownPercentPerSecond := 2
  emergencyTemperatureMilliC := 80000

/-- The pairs of neighbouring points, `curve.windows(2)`. -/
def windows (curve : List CurvePoint) : List (CurvePoint × CurvePoint) := curve.zip curve.tail

def validate (config : FanPolicyConfig) : Except PolicyConfigError Unit := do
  if config.curve.length < 2 ∨
      ((windows config.curve).any fun points =>
        points.1.temperatureMilliC ≥ points.2.temperatureMilliC ∨
          points.1.dutyPercent > points.2.dutyPercent) ∨
      (config.curve.any fun point =>
        ¬ (0 ≤ point.temperatureMilliC ∧ point.temperatureMilliC ≤ 120000) ∨
          ¬ (minDutyPercent ≤ point.dutyPercent ∧ point.dutyPercent ≤ maxDutyPercent)) ∨
      (config.curve.getLast?.all fun point =>
        point.dutyPercent ≠ maxDutyPercent ∨
          point.temperatureMilliC > config.emergencyTemperatureMilliC) then
    throw .invalidCurve
  if config.smoothingSeconds > 60 then throw .invalidSmoothing
  if ¬ (1 ≤ config.dutyStepPercent ∧ config.dutyStepPercent ≤ 20) then throw .invalidDutyStep
  if config.dutyHysteresisPercent > 20 then throw .invalidHysteresis
  if ¬ (1 ≤ config.rampUpPercentPerSecond ∧ config.rampUpPercentPerSecond ≤ 100) ∨
      ¬ (1 ≤ config.rampDownPercentPerSecond ∧ config.rampDownPercentPerSecond ≤ 100) then
    throw .invalidRamp
  if ¬ (50000 ≤ config.emergencyTemperatureMilliC ∧
      config.emergencyTemperatureMilliC ≤ maxConfigurableEmergencyC * 1000) then
    throw .invalidEmergencyTemperature
  return ()

end FanPolicyConfig

structure FanPolicy where
  config : FanPolicyConfig
  smoothedTemperatureMilliC : Option ℚ
  targetDutyPercent : ℕ
  commandedDutyPercent : ℕ
  slewBudgetPercent : ℚ
  deriving DecidableEq

/-- The segment of the curve whose upper end reaches the temperature, if any. -/
def interpolateSegments (temperatureMilliC : ℚ) :
    List (CurvePoint × CurvePoint) → Checked (Option ℚ)
  | [] => return none
  | (lower, upper) :: rest => do
      if temperatureMilliC ≤ upper.temperatureMilliC then
        let temperatureSpan ← subI32 upper.temperatureMilliC lower.temperatureMilliC
        let position ← divide (temperatureMilliC - lower.temperatureMilliC) temperatureSpan
        let rise ← subU8 upper.dutyPercent lower.dutyPercent
        return some (lower.dutyPercent + position * rise)
      else interpolateSegments temperatureMilliC rest

def interpolateCurve (curve : List CurvePoint) (temperatureMilliC : ℚ) : Checked ℚ := do
  let first ← okOr curve[0]? .indexOutOfBounds
  if temperatureMilliC ≤ first.temperatureMilliC then return first.dutyPercent
  match ← interpolateSegments temperatureMilliC (FanPolicyConfig.windows curve) with
  | some duty => return duty
  | none =>
      let last ← okOr curve.getLast? (.expectation "validated curve is non-empty")
      return last.dutyPercent

def quantizeDuty (dutyPercent : ℚ) (step : ℕ) : Checked ℕ := do
  let quantized := (roundHalfAway (← divide dutyPercent step) : ℚ) * step
  return asU8 (clamp quantized minDutyPercent maxDutyPercent)

namespace FanPolicy

def new (config : FanPolicyConfig) : Except PolicyConfigError FanPolicy := do
  config.validate
  return {
    config := config
    smoothedTemperatureMilliC := none
    targetDutyPercent := maxDutyPercent
    commandedDutyPercent := maxDutyPercent
    slewBudgetPercent := 0 }

/-- The smoothed temperature after a reading. -/
def smooth (policy : FanPolicy) (rawTemperature elapsedSeconds : ℚ) : Checked ℚ :=
  match policy.smoothedTemperatureMilliC with
  | none => return rawTemperature
  | some previous =>
      if policy.config.smoothingSeconds = 0 then return rawTemperature
      else do
        let weight ← divide elapsedSeconds (policy.config.smoothingSeconds + elapsedSeconds)
        return previous + weight * (rawTemperature - previous)

/-- The target selection: a desired duty outside the hysteresis band is quantized,
and a target that changes empties the slew budget. -/
def retarget (policy : FanPolicy) (desired : ℚ) : Checked FanPolicy := do
  let target : ℚ := policy.targetDutyPercent
  let hysteresis : ℚ := policy.config.dutyHysteresisPercent
  if desired ≥ target + hysteresis ∨ desired ≤ target - hysteresis then
    let newTarget ← quantizeDuty desired policy.config.dutyStepPercent
    if newTarget ≠ policy.targetDutyPercent then
      return { policy with targetDutyPercent := newTarget, slewBudgetPercent := 0 }
    else return policy
  else return policy

/-- The movement of the commanded duty towards the target. -/
def slew (policy : FanPolicy) (elapsedSeconds : ℚ) : Checked (ℕ × FanPolicy) := do
  if policy.commandedDutyPercent = policy.targetDutyPercent then
    return (policy.commandedDutyPercent, { policy with slewBudgetPercent := 0 })
  let rate := if policy.targetDutyPercent > policy.commandedDutyPercent then
    policy.config.rampUpPercentPerSecond else policy.config.rampDownPercentPerSecond
  let budget := policy.slewBudgetPercent + rate * elapsedSeconds
  let step := policy.config.dutyStepPercent
  let availableSteps := asU8 ⌊← divide budget step⌋
  if availableSteps = 0 then
    return (policy.commandedDutyPercent, { policy with slewBudgetPercent := budget })
  let availableChange := min (availableSteps * step) 255
  let distance := max policy.targetDutyPercent policy.commandedDutyPercent -
    min policy.targetDutyPercent policy.commandedDutyPercent
  let change := min availableChange distance
  let commanded := if policy.targetDutyPercent > policy.commandedDutyPercent then
    min (policy.commandedDutyPercent + change) 255 else policy.commandedDutyPercent - change
  return (commanded,
    { policy with commandedDutyPercent := commanded, slewBudgetPercent := budget - change })

def update (policy : FanPolicy) (temperatureMilliC : ℤ) (elapsed : Duration) :
    Checked (ℕ × FanPolicy) := do
  if temperatureMilliC ≥ policy.config.emergencyTemperatureMilliC then
    return (maxDutyPercent,
      { policy with
        smoothedTemperatureMilliC := some temperatureMilliC
        targetDutyPercent := maxDutyPercent
        commandedDutyPercent := maxDutyPercent
        slewBudgetPercent := 0 })
  let smoothed ← policy.smooth temperatureMilliC elapsed.asSecs
  let desired ← interpolateCurve policy.config.curve smoothed
  let retargeted ← { policy with smoothedTemperatureMilliC := some smoothed }.retarget desired
  retargeted.slew elapsed.asSecs

end FanPolicy

end LaptopCooler.HostAgent
