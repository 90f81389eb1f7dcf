import LaptopCooler.HostAgent.TargetSelection
import LaptopCooler.Library.SlewLimiter

/-! # The fan policy's invariant

On a validated configuration no update faults, so that an update is a function of
the policy (`LaptopCooler.HostAgent.FanPolicy.update_eq`), and every reachable policy
keeps both duties in range and its slew budget below one step while it is on the
way to its target (`LaptopCooler.HostAgent.FanPolicy.Reachable.invariant`).
-/

namespace LaptopCooler.HostAgent

open Fallible SlewLimiter

namespace FanPolicy

/-! ## The slewed duty -/

/-- The movement towards the target, without the saturating arithmetic. -/
def slewed (policy : FanPolicy) (elapsedSeconds : ℚ) : FanPolicy :=
  let commanded := policy.commandedDutyPercent
  let target := policy.targetDutyPercent
  let step := policy.config.dutyStepPercent
  if commanded < target then
    let budget := policy.slewBudgetPercent + policy.config.rampUpPercentPerSecond * elapsedSeconds
    let change := payment step (target - commanded) budget
    { policy with commandedDutyPercent := commanded + change, slewBudgetPercent := budget - change }
  else if target < commanded then
    let budget := policy.slewBudgetPercent + policy.config.rampDownPercentPerSecond * elapsedSeconds
    let change := payment step (commanded - target) budget
    { policy with commandedDutyPercent := commanded - change, slewBudgetPercent := budget - change }
  else { policy with slewBudgetPercent := 0 }

section Movement

variable {policy : FanPolicy}

/-- A movement upwards. -/
theorem slewed_of_below (below : policy.commandedDutyPercent < policy.targetDutyPercent)
    (elapsedSeconds : ℚ) :
    ∃ change ≤ policy.targetDutyPercent - policy.commandedDutyPercent,
      (policy.slewed elapsedSeconds).commandedDutyPercent = policy.commandedDutyPercent + change ∧
      (policy.slewed elapsedSeconds).slewBudgetPercent = policy.slewBudgetPercent +
        policy.config.rampUpPercentPerSecond * elapsedSeconds - change := by
  simp only [slewed, if_pos below]
  exact ⟨_, payment_le_distance _ _ _, rfl, rfl⟩

/-- A movement downwards. -/
theorem slewed_of_above (above : policy.targetDutyPercent < policy.commandedDutyPercent)
    (elapsedSeconds : ℚ) :
    ∃ change ≤ policy.commandedDutyPercent - policy.targetDutyPercent,
      (policy.slewed elapsedSeconds).commandedDutyPercent = policy.commandedDutyPercent - change ∧
      (policy.slewed elapsedSeconds).slewBudgetPercent = policy.slewBudgetPercent +
        policy.config.rampDownPercentPerSecond * elapsedSeconds - change := by
  simp only [slewed, if_neg (Nat.lt_asymm above), if_pos above]
  exact ⟨_, payment_le_distance _ _ _, rfl, rfl⟩

/-- At the target the budget is given up. -/
theorem slewed_of_eq (level : policy.commandedDutyPercent = policy.targetDutyPercent)
    (elapsedSeconds : ℚ) :
    policy.slewed elapsedSeconds = { policy with slewBudgetPercent := 0 } := by
  simp [slewed, level]

end Movement

/-- Saturation of the step count and of the change never matters, since the
distance fits into a byte. -/
private theorem saturated_change (step distance : ℕ) (budget : ℚ) (positive : 1 ≤ step)
    (small : distance ≤ 255) :
    min (min (asU8 (⌊budget / step⌋ : ℤ) * step) 255) distance = payment step distance budget := by
  have floors : asU8 ((⌊budget / step⌋ : ℤ) : ℚ) = min ⌊budget / step⌋₊ 255 := by
    rw [asU8, ← Int.floor_toNat, Int.floor_intCast, Int.floor_toNat]
  rw [floors, payment]
  generalize ⌊budget / step⌋₊ = count
  rcases Nat.le_total count 255 with few | many
  · rw [Nat.min_eq_left few]
    omega
  · have large : 255 ≤ 255 * step := Nat.le_mul_of_pos_right 255 positive
    have larger : 255 * step ≤ count * step := Nat.mul_le_mul_right step many
    rw [Nat.min_eq_right many]
    omega

theorem slew_eq (policy : FanPolicy) (positive : 1 ≤ policy.config.dutyStepPercent)
    (target : policy.targetDutyPercent ≤ maxDutyPercent)
    (commanded : policy.commandedDutyPercent ≤ maxDutyPercent) (elapsedSeconds : ℚ) :
    policy.slew elapsedSeconds =
      .ok ((policy.slewed elapsedSeconds).commandedDutyPercent, policy.slewed elapsedSeconds) := by
  have stepPositive : (0 : ℚ) < policy.config.dutyStepPercent := Nat.cast_pos.mpr positive
  have few : ∀ {distance : ℕ} {budget : ℚ},
      asU8 ((⌊budget / policy.config.dutyStepPercent⌋ : ℤ) : ℚ) = 0 → distance ≤ 255 →
        payment policy.config.dutyStepPercent distance budget = 0 := by
    intro distance budget none small
    rw [← saturated_change _ _ _ positive small, none]
    omega
  simp only [maxDutyPercent] at target commanded
  rcases Nat.lt_trichotomy policy.commandedDutyPercent policy.targetDutyPercent with
    below | same | above
  · have differ : policy.commandedDutyPercent ≠ policy.targetDutyPercent := Nat.ne_of_lt below
    have distance : max policy.targetDutyPercent policy.commandedDutyPercent -
        min policy.targetDutyPercent policy.commandedDutyPercent =
          policy.targetDutyPercent - policy.commandedDutyPercent := by omega
    simp only [slew, slewed, if_neg differ, if_pos below, gt_iff_lt, divide_of_pos stepPositive,
      ok_bind, distance, pure, Except.pure]
    split
    · next none =>
        rw [few none (by omega)]
        simp
    · rw [saturated_change _ _ _ positive (by omega)]
      have reach := payment_le_distance policy.config.dutyStepPercent
        (policy.targetDutyPercent - policy.commandedDutyPercent)
        (policy.slewBudgetPercent + policy.config.rampUpPercentPerSecond * elapsedSeconds)
      rw [Nat.min_eq_left (by omega)]
  · simp only [slew, slewed, same, Nat.lt_irrefl, ↓reduceIte]
    rfl
  · have differ : policy.commandedDutyPercent ≠ policy.targetDutyPercent := Nat.ne_of_gt above
    have notBelow : ¬ policy.commandedDutyPercent < policy.targetDutyPercent := by omega
    have distance : max policy.targetDutyPercent policy.commandedDutyPercent -
        min policy.targetDutyPercent policy.commandedDutyPercent =
          policy.commandedDutyPercent - policy.targetDutyPercent := by omega
    simp only [slew, slewed, if_neg differ, if_neg notBelow, if_pos above, gt_iff_lt,
      divide_of_pos stepPositive, ok_bind, distance, pure, Except.pure]
    split
    · next none =>
        rw [few none (by omega)]
        simp
    · rw [saturated_change _ _ _ positive (by omega)]

/-- The state after an emergency reading. -/
def emergency (policy : FanPolicy) (temperatureMilliC : ℤ) : FanPolicy :=
  { policy with
    smoothedTemperatureMilliC := some temperatureMilliC
    targetDutyPercent := maxDutyPercent
    commandedDutyPercent := maxDutyPercent
    slewBudgetPercent := 0 }

/-! ## The invariant -/

/-- What holds of every reachable policy. -/
structure Invariant (policy : FanPolicy) : Prop where
  valid : policy.config.Valid
  target : minDutyPercent ≤ policy.targetDutyPercent ∧ policy.targetDutyPercent ≤ maxDutyPercent
  commanded : minDutyPercent ≤ policy.commandedDutyPercent ∧
    policy.commandedDutyPercent ≤ maxDutyPercent
  budget_nonneg : 0 ≤ policy.slewBudgetPercent
  budget_lt_step : policy.commandedDutyPercent ≠ policy.targetDutyPercent →
    policy.slewBudgetPercent < policy.config.dutyStepPercent

/-- The policy after an update. An emergency reading jumps to full speed; any other reading
smooths, selects a target and slews towards it. -/
def next (policy : FanPolicy) (temperatureMilliC : ℤ) (elapsed : Duration) : FanPolicy :=
  if temperatureMilliC ≥ policy.config.emergencyTemperatureMilliC then
    policy.emergency temperatureMilliC
  else (policy.aimed temperatureMilliC elapsed.asSecs).slewed elapsed.asSecs

/-- **An update never faults** and returns the commanded duty. -/
theorem update_eq {policy : FanPolicy} (invariant : policy.Invariant) (temperatureMilliC : ℤ)
    (elapsed : Duration) : policy.update temperatureMilliC elapsed =
      .ok ((policy.next temperatureMilliC elapsed).commandedDutyPercent,
        policy.next temperatureMilliC elapsed) := by
  by_cases hot : temperatureMilliC ≥ policy.config.emergencyTemperatureMilliC
  · rw [update, if_pos hot, next, if_pos hot]
    rfl
  · have inRange := policy.config.selected_mem invariant.target (curveDuty policy.config.curve
      (policy.smoothedTo temperatureMilliC elapsed.asSecs))
    rw [update, if_neg hot, next, if_neg hot, smooth_eq, ok_bind,
      interpolateCurve_eq invariant.valid, ok_bind,
      retarget_smoothed policy invariant.valid.step.1, ok_bind]
    exact slew_eq (policy.aimed temperatureMilliC elapsed.asSecs) invariant.valid.step.1 inRange.2
      invariant.commanded.2 elapsed.asSecs

theorem next_of_cool {policy : FanPolicy} {temperatureMilliC : ℤ}
    (cool : temperatureMilliC < policy.config.emergencyTemperatureMilliC) (elapsed : Duration) :
    policy.next temperatureMilliC elapsed =
      (policy.aimed temperatureMilliC elapsed.asSecs).slewed elapsed.asSecs :=
  if_neg (not_le.mpr cool)

theorem next_of_hot {policy : FanPolicy} {temperatureMilliC : ℤ}
    (hot : policy.config.emergencyTemperatureMilliC ≤ temperatureMilliC) (elapsed : Duration) :
    policy.next temperatureMilliC elapsed = policy.emergency temperatureMilliC :=
  if_pos hot

/-- A movement towards the target stays between the commanded duty and the target,
and the budget it leaves pays for no further step. -/
theorem slewed_invariant {policy : FanPolicy} (invariant : policy.Invariant) {elapsedSeconds : ℚ}
    (nonneg : 0 ≤ elapsedSeconds) : (policy.slewed elapsedSeconds).Invariant := by
  have step := invariant.valid.step.1
  obtain ⟨targetLow, targetHigh⟩ := invariant.target
  obtain ⟨commandedLow, commandedHigh⟩ := invariant.commanded
  have budget : ∀ rate : ℕ, 0 ≤ policy.slewBudgetPercent + rate * elapsedSeconds := fun rate =>
    add_nonneg invariant.budget_nonneg (mul_nonneg (Nat.cast_nonneg rate) nonneg)
  unfold slewed
  simp only
  split
  · next below =>
      have paid := payment_le_budget (policy.targetDutyPercent -
        policy.commandedDutyPercent) (budget policy.config.rampUpPercentPerSecond) step
      have reach := payment_le_distance policy.config.dutyStepPercent
        (policy.targetDutyPercent - policy.commandedDutyPercent)
        (policy.slewBudgetPercent + policy.config.rampUpPercentPerSecond * elapsedSeconds)
      refine ⟨invariant.valid, invariant.target, by simp only; omega, sub_nonneg.mpr paid, ?_⟩
      intro short
      simp only at short
      exact budget_sub_payment_lt step (by omega)
  · split
    · next above =>
        have paid := payment_le_budget (policy.commandedDutyPercent -
          policy.targetDutyPercent) (budget policy.config.rampDownPercentPerSecond) step
        have reach := payment_le_distance policy.config.dutyStepPercent
          (policy.commandedDutyPercent - policy.targetDutyPercent)
          (policy.slewBudgetPercent + policy.config.rampDownPercentPerSecond * elapsedSeconds)
        refine ⟨invariant.valid, invariant.target, by simp only; omega, sub_nonneg.mpr paid, ?_⟩
        intro short
        simp only at short
        exact budget_sub_payment_lt step (by omega)
    · exact ⟨invariant.valid, invariant.target, invariant.commanded, le_rfl,
        fun _ => Nat.cast_pos.mpr step⟩

theorem aimedAt_invariant {policy : FanPolicy} (invariant : policy.Invariant) {target : ℕ}
    (inRange : minDutyPercent ≤ target ∧ target ≤ maxDutyPercent) :
    (policy.aimedAt target).Invariant := by
  have positive : (0 : ℚ) < policy.config.dutyStepPercent :=
    Nat.cast_pos.mpr invariant.valid.step.1
  by_cases same : target = policy.targetDutyPercent
  · have unchanged : policy.aimedAt target = policy := by simp [aimedAt, same]
    rw [unchanged]
    exact invariant
  · refine ⟨invariant.valid, inRange, invariant.commanded, ?_, ?_⟩
    · simp [aimedAt, same]
    · simpa [aimedAt, same] using fun _ => positive

private theorem fullSpeed_inRange :
    minDutyPercent ≤ maxDutyPercent ∧ maxDutyPercent ≤ maxDutyPercent := by decide

theorem emergency_invariant {policy : FanPolicy} (invariant : policy.Invariant)
    (temperatureMilliC : ℤ) : (policy.emergency temperatureMilliC).Invariant :=
  ⟨invariant.valid, fullSpeed_inRange, fullSpeed_inRange, le_rfl, fun differ => absurd rfl differ⟩

theorem aimed_invariant {policy : FanPolicy} (invariant : policy.Invariant)
    (rawTemperature elapsedSeconds : ℚ) :
    (policy.aimed rawTemperature elapsedSeconds).Invariant := by
  refine aimedAt_invariant ?_ (policy.config.selected_mem invariant.target _)
  exact ⟨invariant.valid, invariant.target, invariant.commanded, invariant.budget_nonneg,
    invariant.budget_lt_step⟩

/-- **Every update preserves the invariant.** -/
theorem next_invariant {policy : FanPolicy} (invariant : policy.Invariant) (temperatureMilliC : ℤ)
    (elapsed : Duration) : (policy.next temperatureMilliC elapsed).Invariant := by
  unfold next
  split
  · exact emergency_invariant invariant temperatureMilliC
  · exact slewed_invariant (aimed_invariant invariant _ _) elapsed.asSecs_nonneg

/-- A movement changes the commanded duty and the budget only. -/
theorem slewed_frame (policy : FanPolicy) (elapsedSeconds : ℚ) :
    (policy.slewed elapsedSeconds).config = policy.config ∧
      (policy.slewed elapsedSeconds).targetDutyPercent = policy.targetDutyPercent ∧
      (policy.slewed elapsedSeconds).smoothedTemperatureMilliC =
        policy.smoothedTemperatureMilliC := by
  unfold slewed
  simp only
  split
  · exact ⟨rfl, rfl, rfl⟩
  · split
    · exact ⟨rfl, rfl, rfl⟩
    · exact ⟨rfl, rfl, rfl⟩

/-- The configuration stays. -/
@[simp] theorem next_config (policy : FanPolicy) (temperatureMilliC : ℤ) (elapsed : Duration) :
    (policy.next temperatureMilliC elapsed).config = policy.config := by
  unfold next
  split
  · rfl
  · exact (slewed_frame _ _).1

section Cool

variable {policy : FanPolicy} {temperatureMilliC : ℤ}
  (cool : temperatureMilliC < policy.config.emergencyTemperatureMilliC) (elapsed : Duration)

include cool

theorem next_smoothed : (policy.next temperatureMilliC elapsed).smoothedTemperatureMilliC =
    some (policy.smoothedTo temperatureMilliC elapsed.asSecs) := by
  rw [next_of_cool cool, (slewed_frame _ _).2.2]
  rfl

theorem next_target : (policy.next temperatureMilliC elapsed).targetDutyPercent =
    policy.config.selected policy.targetDutyPercent
      (curveDuty policy.config.curve (policy.smoothedTo temperatureMilliC elapsed.asSecs)) := by
  rw [next_of_cool cool, (slewed_frame _ _).2.1]
  rfl

end Cool

/-- The policies that arise from `new` by updates. -/
inductive Reachable (config : FanPolicyConfig) : FanPolicy → Prop where
  | new {policy : FanPolicy} : FanPolicy.new config = .ok policy → Reachable config policy
  | update {policy after : FanPolicy} {temperatureMilliC : ℤ} {elapsed : Duration} {duty : ℕ} :
      Reachable config policy → policy.update temperatureMilliC elapsed = .ok (duty, after) →
        Reachable config after

/-- The policy before its first update. -/
def fresh (config : FanPolicyConfig) : FanPolicy where
  config := config
  smoothedTemperatureMilliC := none
  targetDutyPercent := maxDutyPercent
  commandedDutyPercent := maxDutyPercent
  slewBudgetPercent := 0

/-- **A validated configuration starts at full speed.** -/
theorem new_eq_ok_iff {config : FanPolicyConfig} {policy : FanPolicy} :
    FanPolicy.new config = .ok policy ↔ config.Valid ∧ policy = fresh config := by
  rw [FanPolicy.new, bind_eq_ok_iff, ← FanPolicyConfig.validate_eq_ok_iff]
  constructor
  · rintro ⟨⟨⟩, validated, made⟩
    exact ⟨validated, (Except.ok.inj made).symm⟩
  · rintro ⟨validated, rfl⟩
    exact ⟨(), validated, rfl⟩

theorem Reachable.fresh {config : FanPolicyConfig} (valid : config.Valid) :
    Reachable config (FanPolicy.fresh config) :=
  .new (new_eq_ok_iff.mpr ⟨valid, rfl⟩)

theorem new_invariant {config : FanPolicyConfig} {policy : FanPolicy}
    (created : FanPolicy.new config = .ok policy) : policy.Invariant ∧ policy.config = config := by
  obtain ⟨valid, rfl⟩ := new_eq_ok_iff.mp created
  exact ⟨⟨valid, fullSpeed_inRange, fullSpeed_inRange, le_rfl,
    fun differ => absurd rfl differ⟩, rfl⟩

/-- **The invariant holds of every reachable policy.** -/
theorem Reachable.invariant {config : FanPolicyConfig} {policy : FanPolicy}
    (reachable : Reachable config policy) : policy.Invariant ∧ policy.config = config := by
  induction reachable with
  | new created => exact new_invariant created
  | update _ updated ih =>
      rw [update_eq ih.1] at updated
      obtain rfl := (Prod.mk.inj (Except.ok.inj updated)).2
      exact ⟨next_invariant ih.1 _ _, (next_config _ _ _).trans ih.2⟩

theorem Reachable.next {config : FanPolicyConfig} {policy : FanPolicy}
    (reachable : Reachable config policy) (temperatureMilliC : ℤ) (elapsed : Duration) :
    Reachable config (policy.next temperatureMilliC elapsed) :=
  reachable.update (update_eq reachable.invariant.1 temperatureMilliC elapsed)

/-- **Targets are multiples of the duty step or ends of the range.** -/
theorem Reachable.onGrid {config : FanPolicyConfig} {policy : FanPolicy}
    (reachable : Reachable config policy) :
    OnGrid config.dutyStepPercent policy.targetDutyPercent := by
  induction reachable with
  | new created =>
      obtain ⟨_, rfl⟩ := new_eq_ok_iff.mp created
      exact Or.inr (Or.inl rfl)
  | @update policy after temperatureMilliC elapsed duty reached updated ih =>
      obtain ⟨invariant, rfl⟩ := reached.invariant
      rw [update_eq invariant] at updated
      obtain rfl := (Prod.mk.inj (Except.ok.inj updated)).2
      rcases lt_or_ge temperatureMilliC policy.config.emergencyTemperatureMilliC with cool | hot
      · rw [next_target cool]
        exact policy.config.selected_onGrid ih _
      · rw [next_of_hot hot]
        exact Or.inr (Or.inl rfl)

/-- The duty a reachable policy returns is in the range the cooler accepts. -/
theorem Reachable.duty_mem {config : FanPolicyConfig} {policy after : FanPolicy}
    (reachable : Reachable config policy) {temperatureMilliC : ℤ} {elapsed : Duration} {duty : ℕ}
    (updated : policy.update temperatureMilliC elapsed = .ok (duty, after)) :
    minDutyPercent ≤ duty ∧ duty ≤ maxDutyPercent := by
  rw [update_eq reachable.invariant.1] at updated
  obtain ⟨rfl, rfl⟩ := Prod.mk.inj (Except.ok.inj updated)
  exact (next_invariant reachable.invariant.1 temperatureMilliC elapsed).commanded

end FanPolicy

end LaptopCooler.HostAgent
