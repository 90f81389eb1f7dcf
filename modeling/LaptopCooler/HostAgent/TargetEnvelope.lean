import LaptopCooler.HostAgent.PolicyRun

/-! # How far the target is from the curve

After every update below the emergency temperature the target is as close to the
curve as the hysteresis or half a duty step, so it stays in the envelope of the
curve over the observed temperatures
(`LaptopCooler.HostAgent.FanPolicy.target_in_envelope`). Past the end of the curve it
is full speed only if neither the hysteresis nor the duty step keeps it from there
(`LaptopCooler.HostAgent.FanPolicy.full_target_iff`).
-/

namespace LaptopCooler.HostAgent

open Fallible

/-- How far the target may be from the curve. -/
def FanPolicyConfig.slack (config : FanPolicyConfig) : ℚ :=
  max (config.dutyHysteresisPercent : ℚ) (config.dutyStepPercent / 2)

/-- **The selected target is close to the desired duty.** -/
theorem FanPolicyConfig.abs_selected_sub_le {config : FanPolicyConfig} (valid : config.Valid)
    (target : ℕ) (temperatureMilliC : ℚ) :
    |(config.selected target (curveDuty config.curve temperatureMilliC) : ℚ) -
        curveDuty config.curve temperatureMilliC| ≤ config.slack := by
  obtain ⟨low, high⟩ := valid.curveDuty_mem temperatureMilliC
  rw [cast_selected]
  exact Hysteresis.abs_hold_sub_le (abs_quantized_sub_le valid.step.1 low high)

namespace FanPolicy

/-- The temperatures the policy has smoothed lie in a range. -/
def Observed (policy : FanPolicy) (low high : ℚ) : Prop :=
  ∀ smoothed, policy.smoothedTemperatureMilliC = some smoothed → low ≤ smoothed ∧ smoothed ≤ high

/-- The smoothed temperature stays in every range that holds the readings. -/
theorem smoothedTo_mem {policy : FanPolicy} {low high : ℚ} (observed : policy.Observed low high)
    {rawTemperature : ℚ} (inside : low ≤ rawTemperature ∧ rawTemperature ≤ high)
    (elapsed : Duration) :
    low ≤ policy.smoothedTo rawTemperature elapsed.asSecs ∧
      policy.smoothedTo rawTemperature elapsed.asSecs ≤ high := by
  have start : low ≤ policy.smoothedTemperatureMilliC.getD rawTemperature ∧
      policy.smoothedTemperatureMilliC.getD rawTemperature ≤ high := by
    cases smoothed : policy.smoothedTemperatureMilliC with
    | none => exact inside
    | some previous => exact observed previous smoothed
  rcases policy.smoothedTo_approaches rawTemperature elapsed with
    ⟨rises, behind⟩ | ⟨ahead, falls⟩
  · exact ⟨start.1.trans rises, behind.trans inside.2⟩
  · exact ⟨inside.1.trans ahead, falls.trans start.2⟩

theorem states_in_envelope {policy : FanPolicy} (invariant : policy.Invariant) {low high : ℚ}
    (observed : policy.Observed low high)
    (cool : high < policy.config.emergencyTemperatureMilliC) {readings : List Reading}
    (inside : ∀ reading ∈ readings, low ≤ reading.1 ∧ (reading.1 : ℚ) ≤ high) :
    ∀ state ∈ policy.states readings,
      curveDuty policy.config.curve low - policy.config.slack ≤ state.targetDutyPercent ∧
        state.targetDutyPercent ≤ curveDuty policy.config.curve high + policy.config.slack := by
  induction readings generalizing policy with
  | nil => exact fun _ member => (List.not_mem_nil member).elim
  | cons reading rest ih =>
      obtain ⟨temperatureMilliC, elapsed⟩ := reading
      have here := inside (temperatureMilliC, elapsed) List.mem_cons_self
      have below : temperatureMilliC < policy.config.emergencyTemperatureMilliC :=
        Int.cast_lt.mp (lt_of_le_of_lt here.2 cool)
      have smoothed := smoothedTo_mem observed here elapsed
      have kept : (policy.next temperatureMilliC elapsed).Observed low high := by
        intro later found
        rw [next_smoothed below] at found
        obtain rfl := Option.some.inj found
        exact smoothed
      intro state member
      rcases List.mem_cons.mp member with rfl | member
      · have close := abs_le.mp (FanPolicyConfig.abs_selected_sub_le invariant.valid
          policy.targetDutyPercent (policy.smoothedTo temperatureMilliC elapsed.asSecs))
        have lower := invariant.valid.curveDuty_mono smoothed.1
        have upper := invariant.valid.curveDuty_mono smoothed.2
        rw [next_target below]
        exact ⟨by linarith [close.1], by linarith [close.2]⟩
      · have later := ih (next_invariant invariant temperatureMilliC elapsed) kept
          (by rwa [next_config]) fun reading member =>
            inside reading (List.mem_cons_of_mem _ member)
        rw [next_config] at later
        exact later state member

/-- **The target stays in the envelope of the curve.** In every run of a new policy whose
temperatures lie in a range below the emergency temperature, the target stays between the
curve at the ends of the range, up to the hysteresis or half a duty step. -/
theorem target_in_envelope {config : FanPolicyConfig} {policy : FanPolicy}
    (created : FanPolicy.new config = .ok policy) {low high : ℚ}
    (cool : high < config.emergencyTemperatureMilliC) {readings : List Reading}
    (inside : ∀ reading ∈ readings, low ≤ reading.1 ∧ (reading.1 : ℚ) ≤ high) :
    ∃ lowDuty highDuty results,
      interpolateCurve config.curve low = .ok lowDuty ∧
      interpolateCurve config.curve high = .ok highDuty ∧
      policy.trace readings = .ok results ∧
      ∀ result ∈ results,
        lowDuty - max (config.dutyHysteresisPercent : ℚ) (config.dutyStepPercent / 2) ≤
            result.2.targetDutyPercent ∧
          result.2.targetDutyPercent ≤
            highDuty + max (config.dutyHysteresisPercent : ℚ) (config.dutyStepPercent / 2) := by
  obtain ⟨invariant, rfl⟩ := new_invariant created
  have unobserved : policy.Observed low high := by
    intro smoothed found
    obtain ⟨_, same⟩ := new_eq_ok_iff.mp created
    rw [same] at found
    cases found
  refine ⟨_, _, _, interpolateCurve_eq invariant.valid low,
    interpolateCurve_eq invariant.valid high, trace_eq invariant readings, ?_⟩
  intro result member
  obtain ⟨state, reached, rfl⟩ := List.mem_map.mp member
  exact states_in_envelope invariant unobserved cool inside state reached

/-- The default policy between 50 and 60 degrees. -/
theorem default_target_in_envelope :
    ∃ policy results, new .default = .ok policy ∧
      policy.trace [(50000, .fromMillis 1000), (60000, .fromMillis 250)] = .ok results ∧
      ∀ result ∈ results, 27 < result.2.targetDutyPercent ∧ result.2.targetDutyPercent ≤ 55 := by
  have inside : ∀ reading ∈ [((50000 : ℤ), Duration.fromMillis 1000), (60000, .fromMillis 250)],
      (50000 : ℚ) ≤ reading.1 ∧ (reading.1 : ℚ) ≤ 60000 := by
    intro reading member
    simp only [List.mem_cons, List.not_mem_nil, or_false] at member
    rcases member with rfl | rfl <;> norm_num
  obtain ⟨lowDuty, highDuty, results, lowIs, highIs, ran, bounds⟩ := target_in_envelope
    (new_eq_ok_iff.mpr ⟨FanPolicyConfig.default_valid, rfl⟩)
    (by norm_num [FanPolicyConfig.default]) inside
  obtain rfl : lowDuty = 65 / 2 := by
    rw [interpolateCurve_eq FanPolicyConfig.default_valid] at lowIs
    exact (Except.ok.inj lowIs).symm.trans (by with_unfolding_all decide)
  obtain rfl : highDuty = 50 := by
    rw [interpolateCurve_eq FanPolicyConfig.default_valid] at highIs
    exact (Except.ok.inj highIs).symm.trans (by with_unfolding_all decide)
  refine ⟨_, results, new_eq_ok_iff.mpr ⟨FanPolicyConfig.default_valid, rfl⟩, ran, ?_⟩
  intro result member
  obtain ⟨above, below⟩ := bounds result member
  norm_num [FanPolicyConfig.default] at above below
  constructor
  · exact_mod_cast (by linarith : (27 : ℚ) < result.2.targetDutyPercent)
  · exact_mod_cast below

/-! ## The end of the curve -/

/-- **When the end of the curve means full speed.** After an update below the emergency
temperature whose smoothed temperature has reached the curve's last point, the target is
within the hysteresis or half a duty step of full speed. It is full speed exactly if it was so
already and the hysteresis holds it, or if the hysteresis lets go of the previous target and
quantization does not move full speed. -/
theorem full_target_iff {config : FanPolicyConfig} {policy after : FanPolicy}
    (reachable : Reachable config policy) {last : CurvePoint}
    (ends : config.curve.getLast? = some last) {temperatureMilliC : ℤ}
    (cool : temperatureMilliC < config.emergencyTemperatureMilliC) {elapsed : Duration} {duty : ℕ}
    (updated : policy.update temperatureMilliC elapsed = .ok (duty, after)) {smoothed : ℚ}
    (measured : after.smoothedTemperatureMilliC = some smoothed)
    (hot : (last.temperatureMilliC : ℚ) ≤ smoothed) :
    (maxDutyPercent - max (config.dutyHysteresisPercent : ℚ) (config.dutyStepPercent / 2) ≤
        after.targetDutyPercent) ∧
      (after.targetDutyPercent = maxDutyPercent ↔
        (policy.targetDutyPercent = maxDutyPercent ∧ 0 < config.dutyHysteresisPercent) ∨
          (policy.targetDutyPercent + config.dutyHysteresisPercent ≤ maxDutyPercent ∧
            (100 % config.dutyStepPercent = 0 ∨
              config.dutyStepPercent ≤ 2 * (100 % config.dutyStepPercent)))) := by
  obtain ⟨invariant, rfl⟩ := reachable.invariant
  rw [update_eq invariant] at updated
  obtain ⟨_, rfl⟩ := Prod.mk.inj (Except.ok.inj updated)
  rw [next_smoothed cool] at measured
  obtain rfl := Option.some.inj measured
  have desired := invariant.valid.curveDuty_of_last_le ends hot
  have close := abs_le.mp (FanPolicyConfig.abs_selected_sub_le invariant.valid
    policy.targetDutyPercent (policy.smoothedTo temperatureMilliC elapsed.asSecs))
  rw [next_target cool]
  rw [desired] at close ⊢
  refine ⟨by unfold FanPolicyConfig.slack at close; linarith [close.1], ?_⟩
  have inRange := invariant.target.2
  have triggered : ((maxDutyPercent : ℚ) ≥
        policy.targetDutyPercent + policy.config.dutyHysteresisPercent ∨
      (maxDutyPercent : ℚ) ≤ policy.targetDutyPercent - policy.config.dutyHysteresisPercent) ↔
      policy.targetDutyPercent + policy.config.dutyHysteresisPercent ≤ maxDutyPercent := by
    constructor
    · rintro (above | below)
      · exact_mod_cast above
      · have low : ((maxDutyPercent + policy.config.dutyHysteresisPercent : ℕ) : ℚ) ≤
            policy.targetDutyPercent := by
          push_cast
          linarith
        have bound := Nat.cast_le.mp low
        omega
    · intro room
      exact Or.inl (by exact_mod_cast room)
  rw [FanPolicyConfig.selected]
  simp only [triggered]
  split
  · next room =>
    rw [quantized_full_iff invariant.valid.step.1]
    constructor
    · exact fun exactly => Or.inr ⟨room, exactly⟩
    · rintro (⟨full, positive⟩ | ⟨_, exactly⟩)
      · omega
      · exact exactly
  · next held =>
    constructor
    · intro full
      exact Or.inl ⟨full, by omega⟩
    · rintro (⟨full, _⟩ | ⟨room, _⟩)
      · exact full
      · exact absurd room held

/-- A policy with a wide hysteresis and an emergency temperature above its curve. -/
def wideBand : FanPolicyConfig :=
  { FanPolicyConfig.default with
    smoothingSeconds := 0
    dutyHysteresisPercent := 20
    rampDownPercentPerSecond := 100
    emergencyTemperatureMilliC := 90000 }

theorem wideBand_valid : wideBand.Valid := by decide

/-- A fresh policy stays at full speed past the end of the curve. -/
theorem fresh_full_target : ∃ duty after,
    (fresh wideBand).update 85000 (.fromMillis 1000) = .ok (duty, after) ∧
      after.targetDutyPercent = maxDutyPercent := by
  have reachable := Reachable.fresh wideBand_valid
  have updated := update_eq reachable.invariant.1 85000 (.fromMillis 1000)
  have measured : ((fresh wideBand).next 85000 (.fromMillis 1000)).smoothedTemperatureMilliC =
      some 85000 := next_smoothed (by decide) _
  refine ⟨_, _, updated, ?_⟩
  have ends : wideBand.curve.getLast? = some ⟨80000, 100⟩ := rfl
  exact (full_target_iff reachable ends (by decide) updated measured (by norm_num)).2.mpr
    (Or.inl ⟨rfl, by decide⟩)

/-- The policy after a second at 60 and a second at 76 degrees. -/
def warmedUp : FanPolicy :=
  ((fresh wideBand).next 60000 (.fromMillis 1000)).next 76000 (.fromMillis 1000)

/-- Past the end of the curve the hysteresis holds the target at 85 percent. -/
theorem held_below_full_speed :
    Reachable wideBand warmedUp ∧ 85000 < wideBand.emergencyTemperatureMilliC ∧
      wideBand.curve.getLast? = some ⟨80000, 100⟩ ∧
      ∃ duty after, warmedUp.update 85000 (.fromMillis 1000) = .ok (duty, after) ∧
        after.smoothedTemperatureMilliC = some 85000 ∧ after.targetDutyPercent = 85 := by
  have reachable : Reachable wideBand warmedUp :=
    ((Reachable.fresh wideBand_valid).next 60000 (.fromMillis 1000)).next 76000 (.fromMillis 1000)
  refine ⟨reachable, by decide, rfl, _, _, update_eq reachable.invariant.1 85000 _, ?_, ?_⟩
  · with_unfolding_all decide
  · with_unfolding_all decide

end FanPolicy

end LaptopCooler.HostAgent
