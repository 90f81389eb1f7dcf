import Mathlib.Algebra.Order.Field.Basic
import Mathlib.Data.List.Chain
import Mathlib.Tactic.Linarith
import Mathlib.Tactic.Positivity

/-! # Piecewise linear curves

A curve joins points by straight segments and is held constant outside them. When
the points rise, strictly in the first coordinate and weakly in the second, so
does the curve (`PiecewiseLinear.eval_mono`), it stays between its first and its
last point (`PiecewiseLinear.eval_mem`) and keeps the last point's value from there
on (`PiecewiseLinear.eval_of_last_le`).
-/

namespace PiecewiseLinear

variable {K : Type*} [Field K] [LinearOrder K] [IsStrictOrderedRing K]

/-- The value on the segment between two points. -/
def between (lower upper : K × K) (position : K) : K :=
  lower.2 + (position - lower.1) / (upper.1 - lower.1) * (upper.2 - lower.2)

/-- The curve from a point on, along the points after it. -/
def along (lower : K × K) : List (K × K) → K → K
  | [], _ => lower.2
  | upper :: rest, position =>
      if position ≤ upper.1 then between lower upper position else along upper rest position

/-- The curve, held constant before the first and after the last point. -/
def eval (first : K × K) (rest : List (K × K)) (position : K) : K :=
  if position ≤ first.1 then first.2 else along first rest position

/-- The next point is further and not lower. -/
def Rises (lower upper : K × K) : Prop := lower.1 < upper.1 ∧ lower.2 ≤ upper.2

/-- The last of the points. -/
def last : K × K → List (K × K) → K × K
  | point, [] => point
  | _, next :: rest => last next rest

variable {lower upper first : K × K} {rest : List (K × K)} {position further : K}

theorem between_mono (rises : Rises lower upper) (order : position ≤ further) :
    between lower upper position ≤ between lower upper further := by
  have span : 0 < upper.1 - lower.1 := sub_pos.mpr rises.1
  have rise : 0 ≤ upper.2 - lower.2 := sub_nonneg.mpr rises.2
  unfold between
  gcongr

omit [LinearOrder K] [IsStrictOrderedRing K] in
theorem between_lower (lower upper : K × K) : between lower upper lower.1 = lower.2 := by
  simp [between]

theorem between_upper (rises : Rises lower upper) : between lower upper upper.1 = upper.2 := by
  have span : upper.1 - lower.1 ≠ 0 := (sub_pos.mpr rises.1).ne'
  rw [between, div_self span, one_mul, add_sub_cancel]

/-- The curve does not fall below the point it starts from. -/
theorem le_along (rising : (lower :: rest).IsChain Rises) (after : lower.1 ≤ position) :
    lower.2 ≤ along lower rest position := by
  induction rest generalizing lower with
  | nil => exact le_rfl
  | cons upper rest ih =>
      obtain ⟨rises, rising⟩ := List.isChain_cons_cons.mp rising
      unfold along
      split
      · calc lower.2 = between lower upper lower.1 := (between_lower lower upper).symm
          _ ≤ between lower upper position := between_mono rises after
      · next beyond => exact rises.2.trans (ih rising (not_le.mp beyond).le)

theorem along_mono (rising : (lower :: rest).IsChain Rises) (order : position ≤ further) :
    along lower rest position ≤ along lower rest further := by
  induction rest generalizing lower with
  | nil => exact le_rfl
  | cons upper rest ih =>
      obtain ⟨rises, rising⟩ := List.isChain_cons_cons.mp rising
      unfold along
      split
      · next reached =>
        split
        · exact between_mono rises order
        · next beyond =>
          calc between lower upper position ≤ between lower upper upper.1 :=
                between_mono rises reached
            _ = upper.2 := between_upper rises
            _ ≤ along upper rest further := le_along rising (not_le.mp beyond).le
      · next beyond =>
        rw [if_neg fun reached => beyond (order.trans reached)]
        exact ih rising

omit [Field K] [IsStrictOrderedRing K] in
/-- The last point is the furthest and the highest. -/
theorem le_last (rising : (first :: rest).IsChain Rises) :
    first.1 ≤ (last first rest).1 ∧ first.2 ≤ (last first rest).2 := by
  induction rest generalizing first with
  | nil => exact ⟨le_rfl, le_rfl⟩
  | cons next rest ih =>
      obtain ⟨rises, rising⟩ := List.isChain_cons_cons.mp rising
      exact ⟨rises.1.le.trans (ih rising).1, rises.2.trans (ih rising).2⟩

theorem along_of_last_le (rising : (lower :: rest).IsChain Rises)
    (after : (last lower rest).1 ≤ position) : along lower rest position = (last lower rest).2 := by
  induction rest generalizing lower with
  | nil => rfl
  | cons upper rest ih =>
      obtain ⟨rises, rising⟩ := List.isChain_cons_cons.mp rising
      unfold along
      split
      · next reached =>
        -- The position is the end of this segment, so no segment follows it.
        cases rest with
        | nil =>
            obtain rfl : position = upper.1 := le_antisymm reached after
            exact between_upper rises
        | cons next rest =>
            obtain ⟨beyond, rising⟩ := List.isChain_cons_cons.mp rising
            exact absurd (after.trans reached) (not_le.mpr (beyond.1.trans_le (le_last rising).1))
      · exact ih rising after

/-- **The curve rises with its points.** -/
theorem eval_mono (rising : (first :: rest).IsChain Rises) : Monotone (eval first rest) := by
  intro position further order
  unfold eval
  split
  · split
    · exact le_rfl
    · next beyond => exact le_along rising (not_le.mp beyond).le
  · next beyond =>
    rw [if_neg fun reached => beyond (order.trans reached)]
    exact along_mono rising order

/-- **The curve keeps the last point's value.** -/
theorem eval_of_last_le (rising : (first :: rest).IsChain Rises)
    (after : (last first rest).1 ≤ position) : eval first rest position = (last first rest).2 := by
  unfold eval
  split
  · next reached =>
    -- All points lie at the first one, so it is the only one.
    cases rest with
    | nil => rfl
    | cons next rest =>
        obtain ⟨beyond, rising⟩ := List.isChain_cons_cons.mp rising
        exact absurd (after.trans reached) (not_le.mpr (beyond.1.trans_le (le_last rising).1))
  · exact along_of_last_le rising after

/-- **The curve stays between its first and its last point.** -/
theorem eval_mem (rising : (first :: rest).IsChain Rises) (position : K) :
    first.2 ≤ eval first rest position ∧ eval first rest position ≤ (last first rest).2 := by
  constructor
  · unfold eval
    split
    · exact le_rfl
    · next beyond => exact le_along rising (not_le.mp beyond).le
  · rw [← eval_of_last_le rising (le_max_right position (last first rest).1)]
    exact eval_mono rising (le_max_left _ _)

end PiecewiseLinear
