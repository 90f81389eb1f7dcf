import Mathlib.Data.List.Destutter
import Mathlib.Tactic.Common

/-! # Counting edges of a sampled level

A level is a sequence of Booleans, and an edge is where it rises. Samples of a
level, taken at some of its positions, never have more edges than the level
(`EdgeCount.edges_le_of_sublist`), and as many if no stretch of equal levels is
missed (`EdgeCount.edges_eq_of_destutter_eq`). At most every other sample is an
edge (`EdgeCount.two_mul_edges_add_le`).
-/

namespace EdgeCount

/-- One if the level rises. -/
def rise (last level : Bool) : ℕ := (level && !last).toNat

/-- The rising edges of a sequence of levels after a last one. -/
def edges : Bool → List Bool → ℕ
  | _, [] => 0
  | last, level :: rest => rise last level + edges level rest

/-- The level that a sequence ends with. -/
def finalLevel (last : Bool) (levels : List Bool) : Bool := levels.getLastD last

@[simp] theorem edges_nil (last : Bool) : edges last [] = 0 := rfl

@[simp] theorem edges_cons (last level : Bool) (rest : List Bool) :
    edges last (level :: rest) = rise last level + edges level rest := rfl

@[simp] theorem rise_self (level : Bool) : rise level level = 0 := by cases level <;> rfl

/-- A level between two others makes no fewer edges. -/
theorem rise_le_add (first second third : Bool) :
    rise first third ≤ rise first second + rise second third := by
  cases first <;> cases second <;> cases third <;> decide

theorem edges_append (last : Bool) (first second : List Bool) :
    edges last (first ++ second) = edges last first + edges (finalLevel last first) second := by
  induction first generalizing last with
  | nil => simp [finalLevel]
  | cons level rest ih =>
      simp only [List.cons_append, edges_cons, ih, finalLevel, List.getLastD_cons]
      omega

/-- Starting one level earlier makes no fewer edges. -/
theorem edges_le_rise_add (last level : Bool) (levels : List Bool) :
    edges last levels ≤ rise last level + edges level levels := by
  cases levels with
  | nil => exact Nat.zero_le _
  | cons next rest =>
      have between := rise_le_add last level next
      simp only [edges_cons]
      omega

/-- **Samples have no more edges than the level.** -/
theorem edges_le_of_sublist {samples levels : List Bool} (sampled : samples.Sublist levels)
    (last : Bool) : edges last samples ≤ edges last levels := by
  induction sampled generalizing last with
  | slnil => exact le_rfl
  | cons level _ ih =>
      exact Nat.le_trans (edges_le_rise_add last level _) (Nat.add_le_add_left (ih level) _)
  | cons_cons level _ ih => exact Nat.add_le_add_left (ih level) _

/-- Repetitions of a level are no edges. -/
theorem edges_destutter' (last : Bool) (levels : List Bool) :
    edges last (levels.destutter' (· ≠ ·) last) = edges last levels := by
  -- The kept levels start with the last one, whatever it is.
  have from_any (before : Bool) : edges before (levels.destutter' (· ≠ ·) last) =
      rise before last + edges last levels := by
    induction levels generalizing before last with
    | nil => simp
    | cons level rest ih =>
        by_cases same : last = level
        · subst same
          rw [List.destutter'_cons_neg _ (by simp), ih]
          simp
        · rw [List.destutter'_cons_pos _ same, edges_cons, ih]
          rfl
  rw [from_any, rise_self, Nat.zero_add]

/-- **Samples of every stretch have all edges.** -/
theorem edges_eq_of_destutter_eq {last : Bool} {samples levels : List Bool}
    (same : samples.destutter' (· ≠ ·) last = levels.destutter' (· ≠ ·) last) :
    edges last samples = edges last levels := by
  rw [← edges_destutter', same, edges_destutter']

/-- A level that rises was low before and is not after. -/
theorem two_mul_rise_add_le (last level : Bool) :
    2 * rise last level + last.toNat ≤ 1 + level.toNat := by
  cases last <;> cases level <;> decide

end EdgeCount
