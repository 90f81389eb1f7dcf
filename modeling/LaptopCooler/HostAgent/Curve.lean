import LaptopCooler.HostAgent.PolicyConfig
import LaptopCooler.Library.PiecewiseLinear
import Mathlib.Algebra.Order.Group.MinMax
import Mathlib.Data.Int.ConditionallyCompleteOrder

/-! # The curve and its quantization

On a validated configuration the interpolation is the piecewise linear curve
through the configured points (`LaptopCooler.HostAgent.interpolateCurve_eq`), which
rises, stays in range and ends at full speed. A duty is quantized to the nearest
multiple of the duty step, as far as that is in range
(`LaptopCooler.HostAgent.cast_quantized`).
-/

namespace LaptopCooler.HostAgent

open Fallible

theorem divide_of_pos {numerator denominator : ℚ} (positive : 0 < denominator) :
    divide numerator denominator = .ok (numerator / denominator) := by
  rw [divide, if_neg positive.ne']

/-! ## The curve -/

namespace CurvePoint

def coordinates (point : CurvePoint) : ℚ × ℚ := (point.temperatureMilliC, point.dutyPercent)

@[simp] theorem coordinates_fst (point : CurvePoint) :
    point.coordinates.1 = point.temperatureMilliC := rfl

@[simp] theorem coordinates_snd (point : CurvePoint) :
    point.coordinates.2 = point.dutyPercent := rfl

end CurvePoint

/-- The curve through the configured points. -/
def curveDuty (curve : List CurvePoint) (temperatureMilliC : ℚ) : ℚ :=
  match curve with
  | [] => 0
  | first :: rest => PiecewiseLinear.eval first.coordinates (rest.map CurvePoint.coordinates)
      temperatureMilliC

theorem FanPolicyConfig.Valid.rising {config : FanPolicyConfig} (valid : config.Valid) :
    (config.curve.map CurvePoint.coordinates).IsChain PiecewiseLinear.Rises := by
  have ascending := valid.ascending
  generalize config.curve = curve at ascending
  induction curve with
  | nil => exact List.IsChain.nil
  | cons lower rest ih =>
      cases rest with
      | nil => exact List.IsChain.singleton _
      | cons upper rest =>
          have rises := ascending (lower, upper) List.mem_cons_self
          refine List.isChain_cons_cons.mpr ⟨⟨?_, ?_⟩, ih fun points member =>
            ascending points (List.mem_cons_of_mem _ member)⟩
          · exact Int.cast_lt.mpr rises.1
          · exact Nat.cast_le.mpr rises.2

/-- The search for the segment, from a point of the curve on. -/
private theorem interpolateSegments_eq (temperatureMilliC : ℚ) (lower : CurvePoint)
    (rest : List CurvePoint)
    (ascending : ∀ points ∈ FanPolicyConfig.windows (lower :: rest),
      points.1.temperatureMilliC < points.2.temperatureMilliC ∧
        points.1.dutyPercent ≤ points.2.dutyPercent)
    (inRange : ∀ point ∈ lower :: rest, 0 ≤ point.temperatureMilliC ∧
      point.temperatureMilliC ≤ 120000) :
    ∃ segment, interpolateSegments temperatureMilliC (FanPolicyConfig.windows (lower :: rest)) =
        .ok segment ∧
      ∀ last, (lower :: rest).getLast? = some last →
        segment.getD last.dutyPercent = PiecewiseLinear.along lower.coordinates
          (rest.map CurvePoint.coordinates) temperatureMilliC := by
  induction rest generalizing lower with
  | nil =>
      refine ⟨none, rfl, fun last found => ?_⟩
      obtain rfl := Option.some.inj found
      rfl
  | cons upper rest ih =>
      have windows : FanPolicyConfig.windows (lower :: upper :: rest) =
          (lower, upper) :: FanPolicyConfig.windows (upper :: rest) := rfl
      rw [windows] at ascending ⊢
      obtain ⟨warmer, faster⟩ := ascending (lower, upper) List.mem_cons_self
      have lowerRange := inRange lower List.mem_cons_self
      have upperRange := inRange upper (List.mem_cons_of_mem _ List.mem_cons_self)
      by_cases reached : temperatureMilliC ≤ upper.temperatureMilliC
      · have span : subI32 upper.temperatureMilliC lower.temperatureMilliC =
            .ok (upper.temperatureMilliC - lower.temperatureMilliC) :=
          if_pos (by simp only at warmer; omega)
        have positive : (0 : ℚ) < ((upper.temperatureMilliC - lower.temperatureMilliC : ℤ) : ℚ) :=
          Int.cast_pos.mpr (by simp only at warmer; omega)
        have rise : subU8 upper.dutyPercent lower.dutyPercent =
            .ok (upper.dutyPercent - lower.dutyPercent) := if_pos faster
        simp only [interpolateSegments, if_pos reached, span, ok_bind, divide_of_pos positive, rise]
        refine ⟨_, rfl, fun last _ => ?_⟩
        simp only at faster
        rw [List.map_cons, PiecewiseLinear.along,
          if_pos (show temperatureMilliC ≤ upper.coordinates.1 from reached), Option.getD_some,
          PiecewiseLinear.between]
        simp only [CurvePoint.coordinates_fst, CurvePoint.coordinates_snd]
        push_cast [faster]
        rfl
      · obtain ⟨segment, found, duty⟩ := ih upper
          (fun points member => ascending points (List.mem_cons_of_mem _ member))
          fun point member => inRange point (List.mem_cons_of_mem _ member)
        refine ⟨segment, ?_, fun last ends => ?_⟩
        · rw [interpolateSegments, if_neg reached, found]
        · rw [List.getLast?_cons_cons] at ends
          rw [duty last ends, List.map_cons, PiecewiseLinear.along, CurvePoint.coordinates_fst,
            if_neg reached]

/-- **The interpolation computes the curve.** -/
theorem interpolateCurve_eq {config : FanPolicyConfig} (valid : config.Valid)
    (temperatureMilliC : ℚ) :
    interpolateCurve config.curve temperatureMilliC =
      .ok (curveDuty config.curve temperatureMilliC) := by
  have ascending := valid.ascending
  have inRange := valid.inRange
  obtain ⟨last, ends, _⟩ := valid.endsFull
  generalize config.curve = curve at ascending inRange ends
  cases curve with
  | nil => cases ends
  | cons first rest =>
      obtain ⟨segment, found, duty⟩ := interpolateSegments_eq temperatureMilliC first rest ascending
        fun point member => (inRange point member).1
      rw [interpolateCurve, List.getElem?_cons_zero, okOr_some, ok_bind, curveDuty,
        PiecewiseLinear.eval, CurvePoint.coordinates_fst, CurvePoint.coordinates_snd,
        ← duty last ends]
      by_cases before : temperatureMilliC ≤ first.temperatureMilliC
      · rw [if_pos before, if_pos before]
        rfl
      · rw [if_neg before, if_neg before, found, ok_bind, ends]
        cases segment <;> rfl

namespace FanPolicyConfig.Valid

variable {config : FanPolicyConfig} (valid : config.Valid)

include valid

/-- The curve's first and last points. -/
private theorem exists_ends : ∃ first rest, config.curve = first :: rest ∧
    minDutyPercent ≤ first.dutyPercent ∧ ∃ last, config.curve.getLast? = some last ∧
      (PiecewiseLinear.last first.coordinates (rest.map CurvePoint.coordinates)) =
        last.coordinates := by
  have inRange := valid.inRange
  obtain ⟨last, ends, _⟩ := valid.endsFull
  generalize config.curve = curve at inRange ends
  cases curve with
  | nil => cases ends
  | cons first rest =>
      refine ⟨first, rest, rfl, (inRange first List.mem_cons_self).2.1, last, ends, ?_⟩
      clear inRange
      induction rest generalizing first with
      | nil =>
          obtain rfl := Option.some.inj ends
          rfl
      | cons next rest ih =>
          rw [List.getLast?_cons_cons] at ends
          exact ih next ends

/-- **The curve rises.** -/
theorem curveDuty_mono : Monotone (curveDuty config.curve) := by
  obtain ⟨first, rest, points, _⟩ := valid.exists_ends
  have rising := valid.rising
  rw [points] at rising ⊢
  exact PiecewiseLinear.eval_mono rising

/-- **The curve stays in range.** -/
theorem curveDuty_mem (temperatureMilliC : ℚ) :
    (minDutyPercent : ℚ) ≤ curveDuty config.curve temperatureMilliC ∧
      curveDuty config.curve temperatureMilliC ≤ maxDutyPercent := by
  obtain ⟨first, rest, points, low, last, ends, furthest⟩ := valid.exists_ends
  have rising := valid.rising
  have high := (valid.inRange last (List.mem_of_getLast? ends)).2.2
  rw [points] at rising ⊢
  have inside := PiecewiseLinear.eval_mem rising temperatureMilliC
  rw [furthest] at inside
  exact ⟨(Nat.cast_le.mpr low).trans inside.1, inside.2.trans (Nat.cast_le.mpr high)⟩

/-- **The curve ends at full speed.** -/
theorem curveDuty_of_last_le {last : CurvePoint} (ends : config.curve.getLast? = some last)
    {temperatureMilliC : ℚ} (hot : (last.temperatureMilliC : ℚ) ≤ temperatureMilliC) :
    curveDuty config.curve temperatureMilliC = maxDutyPercent := by
  obtain ⟨first, rest, points, _, end', ends', furthest⟩ := valid.exists_ends
  obtain rfl := Option.some.inj (ends.symm.trans ends')
  obtain ⟨full, ends', speed, _⟩ := valid.endsFull
  obtain rfl := Option.some.inj (ends.symm.trans ends')
  have rising := valid.rising
  rw [points] at rising ⊢
  refine (PiecewiseLinear.eval_of_last_le rising ?_).trans ?_
  · rw [furthest]
    exact hot
  · rw [furthest, CurvePoint.coordinates_snd, speed]

end FanPolicyConfig.Valid

/-! ## Quantization -/

theorem roundHalfAway_sub_le (value : ℚ) : |(roundHalfAway value : ℚ) - value| ≤ 1 / 2 := by
  unfold roundHalfAway
  rw [abs_le]
  split
  · have below := Int.floor_le (value + 1 / 2)
    have above := Int.lt_floor_add_one (value + 1 / 2)
    constructor <;> linarith
  · have above := Int.le_ceil (value - 1 / 2)
    have below := Int.ceil_lt_add_one (value - 1 / 2)
    constructor <;> linarith

theorem roundHalfAway_mono : Monotone roundHalfAway := by
  intro first second order
  unfold roundHalfAway
  split
  · next nonneg =>
    rw [if_pos (nonneg.trans order)]
    exact Int.floor_mono (by linarith)
  · next negative =>
    split
    · next nonneg =>
      calc ⌈first - 1 / 2⌉ ≤ 0 := Int.ceil_le.mpr (by push_cast; linarith)
        _ ≤ ⌊second + 1 / 2⌋ := Int.floor_nonneg.mpr (by linarith)
    · exact Int.ceil_mono (by linarith)

@[simp] theorem roundHalfAway_intCast (value : ℤ) : roundHalfAway value = value := by
  unfold roundHalfAway
  split
  · rw [Int.floor_intCast_add, show ⌊(1 / 2 : ℚ)⌋ = 0 by norm_num, add_zero]
  · rw [sub_eq_add_neg, Int.ceil_intCast_add, show ⌈-(1 / 2 : ℚ)⌉ = 0 by norm_num, add_zero]

/-- The nearest multiple of the step, kept in range. -/
def quantized (step : ℕ) (dutyPercent : ℚ) : ℕ :=
  asU8 (clamp ((roundHalfAway (dutyPercent / step) : ℚ) * step) minDutyPercent maxDutyPercent)

theorem quantizeDuty_eq (dutyPercent : ℚ) {step : ℕ} (positive : 1 ≤ step) :
    quantizeDuty dutyPercent step = .ok (quantized step dutyPercent) := by
  have stepPositive : (0 : ℚ) < step := Nat.cast_pos.mpr positive
  simp only [quantizeDuty, divide_of_pos stepPositive, ok_bind]
  rfl

theorem clamp_eq (value : ℚ) {low high : ℚ} (ordered : low ≤ high) :
    clamp value low high = max low (min value high) := by
  unfold clamp
  split
  · next below => rw [min_eq_left (below.le.trans ordered), max_eq_left below.le]
  · next inside =>
    have above := not_lt.mp inside
    split
    · next beyond => rw [min_eq_right beyond.le, max_eq_right ordered]
    · next within => rw [min_eq_left (not_lt.mp within), max_eq_right above]

/-- **Quantization rounds and keeps the range.** -/
theorem cast_quantized (step : ℕ) (dutyPercent : ℚ) :
    (quantized step dutyPercent : ℤ) =
      max 20 (min (roundHalfAway (dutyPercent / step) * step) 100) := by
  have whole : clamp ((roundHalfAway (dutyPercent / step) : ℚ) * step) minDutyPercent
      maxDutyPercent =
        ((max 20 (min (roundHalfAway (dutyPercent / step) * step) 100) : ℤ) : ℚ) := by
    rw [clamp_eq _ (by norm_num [minDutyPercent, maxDutyPercent])]
    push_cast [minDutyPercent, maxDutyPercent]
    rfl
  rw [quantized, whole, asU8, ← Int.floor_toNat, Int.floor_intCast]
  omega

variable {step : ℕ} {dutyPercent : ℚ}

theorem quantized_mem (step : ℕ) (dutyPercent : ℚ) :
    minDutyPercent ≤ quantized step dutyPercent ∧ quantized step dutyPercent ≤ maxDutyPercent := by
  have rounded := cast_quantized step dutyPercent
  unfold minDutyPercent maxDutyPercent
  omega

theorem quantized_mono (positive : 1 ≤ step) : Monotone (quantized step) := by
  intro first second order
  have rounded := cast_quantized step first
  have later := cast_quantized step second
  have stepPositive : (0 : ℚ) < step := Nat.cast_pos.mpr positive
  have multiples : roundHalfAway (first / step) * step ≤ roundHalfAway (second / step) * step :=
    mul_le_mul_of_nonneg_right (roundHalfAway_mono (by gcongr)) (Int.natCast_nonneg step)
  omega

/-- **Quantization moves a duty by at most half a step.** -/
theorem abs_quantized_sub_le (positive : 1 ≤ step) (low : (minDutyPercent : ℚ) ≤ dutyPercent)
    (high : dutyPercent ≤ maxDutyPercent) :
    |(quantized step dutyPercent : ℚ) - dutyPercent| ≤ step / 2 := by
  have stepPositive : (0 : ℚ) < step := Nat.cast_pos.mpr positive
  have close := roundHalfAway_sub_le (dutyPercent / step)
  have scaled : |(roundHalfAway (dutyPercent / step) : ℚ) * step - dutyPercent| ≤ step / 2 := by
    have factored : (roundHalfAway (dutyPercent / step) : ℚ) * step - dutyPercent =
        ((roundHalfAway (dutyPercent / step) : ℚ) - dutyPercent / step) * step := by
      field_simp
    rw [factored, abs_mul, abs_of_pos stepPositive]
    linarith [mul_le_mul_of_nonneg_right close stepPositive.le]
  have whole : (quantized step dutyPercent : ℚ) =
      max 20 (min ((roundHalfAway (dutyPercent / step) : ℚ) * step) 100) := by
    have rounded := congrArg (Int.cast : ℤ → ℚ) (cast_quantized step dutyPercent)
    push_cast at rounded
    exact rounded
  generalize (roundHalfAway (dutyPercent / step) : ℚ) * step = multiple at scaled whole
  -- Clamping brings nothing further from a duty that is in range.
  have inRange : dutyPercent = max 20 (min dutyPercent 100) := by
    have lowEnd : (20 : ℚ) ≤ dutyPercent := low
    have highEnd : dutyPercent ≤ 100 := high
    rw [min_eq_left highEnd, max_eq_right lowEnd]
  calc |(quantized step dutyPercent : ℚ) - dutyPercent|
      = |max 20 (min multiple 100) - max 20 (min dutyPercent 100)| := by rw [whole, ← inRange]
    _ ≤ |min multiple 100 - min dutyPercent 100| := by
        rw [max_comm 20, max_comm 20]
        exact abs_max_sub_max_le_abs _ _ _
    _ ≤ max |multiple - dutyPercent| |(100 : ℚ) - 100| := abs_min_sub_min_le_max _ _ _ _
    _ ≤ step / 2 := by
        rw [sub_self, abs_zero, max_eq_left (abs_nonneg _)]
        exact scaled

/-! ### Targets on the grid -/

/-- A multiple of the step, or an end of the range. -/
def OnGrid (step target : ℕ) : Prop :=
  target = minDutyPercent ∨ target = maxDutyPercent ∨ step ∣ target

theorem quantized_onGrid (step : ℕ) (dutyPercent : ℚ) :
    OnGrid step (quantized step dutyPercent) := by
  have rounded := cast_quantized step dutyPercent
  have multiple : (step : ℤ) ∣ roundHalfAway (dutyPercent / step) * step := Dvd.intro_left _ rfl
  generalize roundHalfAway (dutyPercent / step) * step = value at rounded multiple
  unfold OnGrid minDutyPercent maxDutyPercent
  by_cases inside : 20 < value ∧ value < 100
  · have same : (quantized step dutyPercent : ℤ) = value := by omega
    rw [← same] at multiple
    exact Or.inr (Or.inr (Int.natCast_dvd_natCast.mp multiple))
  · omega

variable {target : ℕ}

/-- A duty above a target on the grid is not quantized below it. -/
theorem le_quantized (positive : 1 ≤ step) (grid : OnGrid step target)
    (inRange : target ≤ maxDutyPercent) (high : dutyPercent ≤ maxDutyPercent)
    (above : (target : ℚ) < dutyPercent) : target ≤ quantized step dutyPercent := by
  rcases grid with rfl | rfl | ⟨count, rfl⟩
  · exact (quantized_mem step dutyPercent).1
  · exact absurd high (not_le.mpr above)
  · have rounded := cast_quantized step dutyPercent
    have stepPositive : (0 : ℚ) < step := Nat.cast_pos.mpr positive
    have beyond : ((count : ℤ) : ℚ) ≤ dutyPercent / step := by
      rw [le_div_iff₀ stepPositive]
      push_cast at above ⊢
      linarith
    have multiple := roundHalfAway_mono beyond
    rw [roundHalfAway_intCast] at multiple
    have scaled := mul_le_mul_of_nonneg_right multiple (Int.natCast_nonneg step)
    have product : ((step * count : ℕ) : ℤ) = count * step := by
      push_cast
      exact mul_comm _ _
    unfold maxDutyPercent at inRange
    omega

/-- A duty below a target on the grid is not quantized above it. -/
theorem quantized_le (positive : 1 ≤ step) (grid : OnGrid step target)
    (inRange : minDutyPercent ≤ target) (low : (minDutyPercent : ℚ) ≤ dutyPercent)
    (below : dutyPercent < target) : quantized step dutyPercent ≤ target := by
  rcases grid with rfl | rfl | ⟨count, rfl⟩
  · exact absurd low (not_le.mpr below)
  · exact (quantized_mem step dutyPercent).2
  · have rounded := cast_quantized step dutyPercent
    have stepPositive : (0 : ℚ) < step := Nat.cast_pos.mpr positive
    have before : dutyPercent / step ≤ ((count : ℤ) : ℚ) := by
      rw [div_le_iff₀ stepPositive]
      push_cast at below ⊢
      linarith
    have multiple := roundHalfAway_mono before
    rw [roundHalfAway_intCast] at multiple
    have scaled := mul_le_mul_of_nonneg_right multiple (Int.natCast_nonneg step)
    have product : ((step * count : ℕ) : ℤ) = count * step := by
      push_cast
      exact mul_comm _ _
    unfold minDutyPercent at inRange
    omega

/-- **When full speed is quantized to itself:** if the step divides it, or leaves at least
half a step. -/
theorem quantized_full_iff (positive : 1 ≤ step) :
    quantized step maxDutyPercent = maxDutyPercent ↔
      100 % step = 0 ∨ step ≤ 2 * (100 % step) := by
  have rounded := cast_quantized step maxDutyPercent
  have stepPositive : (0 : ℚ) < step := Nat.cast_pos.mpr positive
  have split := Nat.div_add_mod 100 step
  have remainder := Nat.mod_lt 100 positive
  generalize 100 / step = quotient at split
  generalize 100 % step = rest at split remainder ⊢
  have nonneg : (0 : ℚ) ≤ (maxDutyPercent : ℚ) / step := by positivity
  rw [roundHalfAway, if_pos nonneg] at rounded
  have low := Int.floor_le ((maxDutyPercent : ℚ) / step + 1 / 2)
  have high := Int.lt_floor_add_one ((maxDutyPercent : ℚ) / step + 1 / 2)
  generalize ⌊(maxDutyPercent : ℚ) / step + 1 / 2⌋ = count at rounded low high
  have whole : (maxDutyPercent : ℚ) = quotient * step + rest := by
    rw [mul_comm]
    exact_mod_cast split.symm
  have scaled : ((maxDutyPercent : ℚ) / step + 1 / 2) * (2 * step) =
      2 * (quotient * step) + 2 * rest + step := by
    field_simp
    linarith
  have least : 2 * (count * step) ≤ 2 * (quotient * step : ℤ) + 2 * rest + step := by
    have product := mul_le_mul_of_nonneg_right low (by positivity : (0 : ℚ) ≤ 2 * step)
    rw [scaled] at product
    have ordered : (2 * (count * step) : ℚ) ≤ 2 * (quotient * step) + 2 * rest + step := by
      linarith
    exact_mod_cast ordered
  have most : 2 * (quotient * step : ℤ) + 2 * rest + step < 2 * ((count + 1) * step) := by
    have product := mul_lt_mul_of_pos_right high (by positivity : (0 : ℚ) < 2 * step)
    rw [scaled] at product
    have ordered : (2 * (quotient * step) + 2 * rest + step : ℚ) < 2 * ((count + 1) * step) := by
      linarith
    exact_mod_cast ordered
  have full : quantized step maxDutyPercent = maxDutyPercent ↔ 100 ≤ count * step := by
    unfold maxDutyPercent at rounded ⊢
    omega
  have hundred : (100 : ℤ) = quotient * step + rest := by
    rw [mul_comm]
    exact_mod_cast split.symm
  have stepPositive : (0 : ℤ) < step := Int.natCast_pos.mpr positive
  rw [full, hundred]
  constructor
  · intro reached
    by_contra short
    have more : (quotient : ℤ) < count := by
      by_contra fewer
      have bounded := mul_le_mul_of_nonneg_right (not_lt.mp fewer) stepPositive.le
      omega
    have next := mul_le_mul_of_nonneg_right (Int.add_one_le_iff.mpr more) stepPositive.le
    rw [add_mul, one_mul] at next
    omega
  · rintro (exact | half)
    · have enough : (quotient : ℤ) < count + 1 := by
        by_contra fewer
        have bounded := mul_le_mul_of_nonneg_right (not_lt.mp fewer) stepPositive.le
        omega
      have reached := mul_le_mul_of_nonneg_right (Int.lt_add_one_iff.mp enough) stepPositive.le
      omega
    · have enough : (quotient : ℤ) + 1 < count + 1 := by
        by_contra fewer
        have bounded := mul_le_mul_of_nonneg_right (not_lt.mp fewer) stepPositive.le
        rw [add_mul (quotient : ℤ), one_mul] at bounded
        omega
      have reached := mul_le_mul_of_nonneg_right (Int.lt_add_one_iff.mp enough) stepPositive.le
      rw [add_mul, one_mul] at reached
      omega

end LaptopCooler.HostAgent
