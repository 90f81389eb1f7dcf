import Mathlib.Algebra.Order.Floor.Ring
import Mathlib.Algebra.Order.Floor.Semiring
import Mathlib.Algebra.Order.Field.Basic
import Mathlib.Tactic.Linarith
import Mathlib.Tactic.Positivity
import Mathlib.Tactic.Ring

/-! # Slewing in whole steps on a budget

A slewed value moves towards its target in whole steps that it pays from a budget
which grows with time. A payment never exceeds the budget
(`SlewLimiter.payment_le_budget`) or the remaining distance, and a payment that
falls short of the distance leaves less than one step in the budget
(`SlewLimiter.budget_sub_payment_lt`).
-/

namespace SlewLimiter

variable {K : Type*} [Field K] [LinearOrder K] [IsStrictOrderedRing K] [FloorRing K]

/-- The largest movement the budget pays for: whole steps, up to the distance. -/
def payment (step distance : ℕ) (budget : K) : ℕ := min (⌊budget / step⌋₊ * step) distance

omit [IsStrictOrderedRing K] in
theorem payment_le_distance (step distance : ℕ) (budget : K) :
    payment step distance budget ≤ distance := Nat.min_le_right _ _

variable {step : ℕ} {budget : K}

/-- The budget covers the payment. -/
theorem payment_le_budget (distance : ℕ) (nonneg : 0 ≤ budget) (positive : 0 < step) :
    (payment step distance budget : K) ≤ budget := by
  have stepPositive : (0 : K) < step := Nat.cast_pos.mpr positive
  have whole : (⌊budget / step⌋₊ : K) ≤ budget / step := Nat.floor_le (by positivity)
  calc (payment step distance budget : K)
      ≤ ((⌊budget / step⌋₊ * step : ℕ) : K) := Nat.cast_le.mpr (Nat.min_le_left _ _)
    _ = ⌊budget / step⌋₊ * step := Nat.cast_mul _ _
    _ ≤ budget := (le_div_iff₀ stepPositive).mp whole

/-- A payment short of the distance leaves less than one step. -/
theorem budget_sub_payment_lt {distance : ℕ} (positive : 0 < step)
    (short : payment step distance budget < distance) :
    budget - payment step distance budget < step := by
  have stepPositive : (0 : K) < step := Nat.cast_pos.mpr positive
  have paid : payment step distance budget = ⌊budget / step⌋₊ * step := by
    unfold payment at short ⊢
    omega
  have next : budget / step < ⌊budget / step⌋₊ + 1 := Nat.lt_floor_add_one _
  rw [div_lt_iff₀ stepPositive] at next
  rw [paid, Nat.cast_mul]
  linarith

/-! ## Movement over a run -/

/-- The sum of the increases along a list of values. -/
def totalIncrease : ℕ → List ℕ → ℕ
  | _, [] => 0
  | previous, value :: rest => (value - previous) + totalIncrease value rest

/-- The sum of the decreases along a list of values. -/
def totalDecrease : ℕ → List ℕ → ℕ
  | _, [] => 0
  | previous, value :: rest => (previous - value) + totalDecrease value rest

end SlewLimiter
