import LaptopCooler.HostAgent.PolicyRun

/-! # How far the commanded duty gets

A movement that stops short of its target has spent its budget up to less than
one step, so what is missing to the target is made up by time
(`LaptopCooler.HostAgent.FanPolicy.slewed_distance`).
-/

namespace LaptopCooler.HostAgent.FanPolicy

open SlewLimiter

/-- The distance from the commanded duty to the target. -/
def distance (policy : FanPolicy) : ℕ :=
  (policy.targetDutyPercent - policy.commandedDutyPercent) +
    (policy.commandedDutyPercent - policy.targetDutyPercent)

/-- The ramp rate towards the target. -/
def rampRate (policy : FanPolicy) : ℕ :=
  if policy.commandedDutyPercent < policy.targetDutyPercent then
    policy.config.rampUpPercentPerSecond
  else policy.config.rampDownPercentPerSecond

variable {policy : FanPolicy}

/-- **A movement trades budget for distance.** As long as it does not arrive it keeps its
direction. -/
theorem slewed_distance (underway : policy.commandedDutyPercent ≠ policy.targetDutyPercent)
    (elapsedSeconds : ℚ) :
    ((policy.slewed elapsedSeconds).distance : ℚ) -
        (policy.slewed elapsedSeconds).slewBudgetPercent =
      policy.distance - policy.slewBudgetPercent - policy.rampRate * elapsedSeconds ∧
    ((policy.slewed elapsedSeconds).commandedDutyPercent ≠ policy.targetDutyPercent →
      (policy.slewed elapsedSeconds).rampRate = policy.rampRate) := by
  obtain ⟨config, target, _⟩ := slewed_frame policy elapsedSeconds
  rcases Nat.lt_or_gt_of_ne underway with below | above
  · obtain ⟨change, reach, moved, spent⟩ := slewed_of_below below elapsedSeconds
    have rate : policy.rampRate = policy.config.rampUpPercentPerSecond := if_pos below
    have shorter : policy.distance = (policy.slewed elapsedSeconds).distance + change := by
      unfold distance
      omega
    constructor
    · rw [spent, shorter, rate, Nat.cast_add]
      ring
    · intro short
      have still : (policy.slewed elapsedSeconds).commandedDutyPercent <
          (policy.slewed elapsedSeconds).targetDutyPercent := by omega
      rw [rampRate, if_pos still, config, rate]
  · obtain ⟨change, reach, moved, spent⟩ := slewed_of_above above elapsedSeconds
    have rate : policy.rampRate = policy.config.rampDownPercentPerSecond :=
      if_neg (Nat.lt_asymm above)
    have shorter : policy.distance = (policy.slewed elapsedSeconds).distance + change := by
      unfold distance
      omega
    constructor
    · rw [spent, shorter, rate, Nat.cast_add]
      ring
    · intro short
      have still : ¬ (policy.slewed elapsedSeconds).commandedDutyPercent <
          (policy.slewed elapsedSeconds).targetDutyPercent := by omega
      rw [rampRate, if_neg still, config, rate]

/-! ## A target that stays -/

/-- An update that keeps the target trades budget for distance. -/
theorem next_distance {temperatureMilliC : ℤ}
    (cool : temperatureMilliC < policy.config.emergencyTemperatureMilliC) {elapsed : Duration}
    (kept : (policy.next temperatureMilliC elapsed).targetDutyPercent = policy.targetDutyPercent)
    (underway : policy.commandedDutyPercent ≠ policy.targetDutyPercent) :
    ((policy.next temperatureMilliC elapsed).distance : ℚ) -
        (policy.next temperatureMilliC elapsed).slewBudgetPercent =
      policy.distance - policy.slewBudgetPercent - policy.rampRate * elapsed.asSecs ∧
    ((policy.next temperatureMilliC elapsed).commandedDutyPercent ≠ policy.targetDutyPercent →
      (policy.next temperatureMilliC elapsed).rampRate = policy.rampRate) := by
  have moves : policy.next temperatureMilliC elapsed = { policy with
      smoothedTemperatureMilliC :=
        some (policy.smoothedTo temperatureMilliC elapsed.asSecs) }.slewed elapsed.asSecs := by
    rw [next_target cool] at kept
    rw [next_of_cool cool, aimed]
    simp only [kept, aimedAt, ↓reduceIte]
  rw [moves]
  exact @slewed_distance { policy with
    smoothedTemperatureMilliC :=
      some (policy.smoothedTo temperatureMilliC elapsed.asSecs) } underway elapsed.asSecs

section Kept

variable {readings : List Reading}

/-- A duty that has arrived stays while the target does. -/
theorem stays (invariant : policy.Invariant)
    (kept : ∀ state ∈ policy.states readings, state.targetDutyPercent = policy.targetDutyPercent)
    (arrived : policy.commandedDutyPercent = policy.targetDutyPercent) :
    ∀ state ∈ policy.states readings, state.commandedDutyPercent = policy.targetDutyPercent := by
  have constant : ∀ pair ∈ (policy.states readings).map fun state =>
      (state.targetDutyPercent, state.commandedDutyPercent), pair.1 = policy.targetDutyPercent := by
    intro pair member
    obtain ⟨state, reached, rfl⟩ := List.mem_map.mp member
    exact kept state reached
  obtain ⟨rises, behind⟩ := Pursuit.rises_to_constant (follows_states invariant readings) constant
    arrived.le
  intro state reached
  have member : (state.targetDutyPercent, state.commandedDutyPercent) ∈
      (policy.states readings).map fun state =>
        (state.targetDutyPercent, state.commandedDutyPercent) :=
    List.mem_map.mpr ⟨state, reached, rfl⟩
  refine le_antisymm (behind _ member) ?_
  rw [← arrived]
  exact (List.pairwise_cons.mp rises).1 _ (List.mem_map_of_mem member)

/-- **Progress.** While the target stays, the duty arrives or trades all the budget it earns
for distance. -/
theorem arrives_or_progresses (invariant : policy.Invariant)
    (cool : ∀ reading ∈ readings, reading.1 < policy.config.emergencyTemperatureMilliC)
    (kept : ∀ state ∈ policy.states readings, state.targetDutyPercent = policy.targetDutyPercent)
    {index : ℕ} {state : FanPolicy} (found : (policy.states readings)[index]? = some state) :
    state.commandedDutyPercent = policy.targetDutyPercent ∨
      (state.distance : ℚ) - state.slewBudgetPercent = policy.distance - policy.slewBudgetPercent -
        policy.rampRate * totalElapsed (readings.take (index + 1)) := by
  by_cases arrived : policy.commandedDutyPercent = policy.targetDutyPercent
  · exact Or.inl (stays invariant kept arrived state (List.mem_of_getElem? found))
  induction readings generalizing policy index with
  | nil => cases found
  | cons reading rest ih =>
      obtain ⟨temperatureMilliC, elapsed⟩ := reading
      have first := kept _ List.mem_cons_self
      have later : ∀ state ∈ (policy.next temperatureMilliC elapsed).states rest,
          state.targetDutyPercent =
            (policy.next temperatureMilliC elapsed).targetDutyPercent := fun state member =>
        (kept state (List.mem_cons_of_mem _ member)).trans first.symm
      have preserved := next_invariant invariant temperatureMilliC elapsed
      obtain ⟨traded, direction⟩ := next_distance (cool _ List.mem_cons_self) first arrived
      by_cases here : (policy.next temperatureMilliC elapsed).commandedDutyPercent =
          policy.targetDutyPercent
      · left
        cases index with
        | zero =>
            obtain rfl := Option.some.inj found
            exact here
        | succ index =>
            have all := stays preserved later (here.trans first.symm)
            exact (all state (List.mem_of_getElem? found)).trans first
      · cases index with
        | zero =>
            obtain rfl := Option.some.inj found
            right
            simpa using traded
        | succ index =>
            have rest' := ih preserved (fun reading member => by
              rw [next_config]
              exact cool reading (List.mem_cons_of_mem _ member)) later found
              (fun same => here (same.trans first))
            rw [first, direction here] at rest'
            refine rest'.imp_right fun progressed => ?_
            rw [progressed, traded, List.take_succ_cons, totalElapsed_cons]
            ring

end Kept

end LaptopCooler.HostAgent.FanPolicy
