import Mathlib.Order.Lattice
import Mathlib.Order.OrderDual
import Mathlib.Tactic.Common

/-! # Following a moving target

A value follows a target when each move brings it closer without passing. Behind
a target that only rises, a value first falls and then rises, so it turns at most
once (`Pursuit.changes_le_one_of_ascending`); below all targets it only rises
(`Pursuit.rises_of_below`). The same holds the other way round.
-/

namespace Pursuit

variable {α : Type*} [LinearOrder α]

/-- The value lies between where it was and the target. -/
def Approaches (previous target value : α) : Prop :=
  (previous ≤ value ∧ value ≤ target) ∨ (target ≤ value ∧ value ≤ previous)

/-- Each value of the pairs approaches the target beside it. -/
def Follows : α → List (α × α) → Prop
  | _, [] => True
  | previous, (target, value) :: rest => Approaches previous target value ∧ Follows value rest

/-- The directions of the moves along a list of values, upwards or not. -/
def directions : α → List α → List Bool
  | _, [] => []
  | previous, value :: rest =>
      if previous < value then true :: directions value rest
      else if value < previous then false :: directions value rest
      else directions value rest

/-- How often neighbouring entries of a list differ. -/
def changes {β : Type*} [DecidableEq β] : List β → ℕ
  | first :: second :: rest => (if first = second then 0 else 1) + changes (second :: rest)
  | _ => 0

variable {previous : α} {pairs : List (α × α)} {values : List α}

/-- **From below, the value only rises** and stays below its targets. -/
theorem rises_of_below (follows : Follows previous pairs)
    (ascending : (pairs.map Prod.fst).Pairwise (· ≤ ·))
    (below : ∀ target ∈ pairs.map Prod.fst, previous ≤ target) :
    (previous :: pairs.map Prod.snd).Pairwise (· ≤ ·) ∧ ∀ pair ∈ pairs, pair.2 ≤ pair.1 := by
  induction pairs generalizing previous with
  | nil => exact ⟨List.pairwise_singleton _ _, fun _ member => (List.not_mem_nil member).elim⟩
  | cons pair rest ih =>
      obtain ⟨target, value⟩ := pair
      obtain ⟨approaches, follows⟩ := follows
      obtain ⟨next, ascending⟩ := List.pairwise_cons.mp ascending
      have start : previous ≤ target := below target List.mem_cons_self
      have moved : previous ≤ value ∧ value ≤ target := by
        rcases approaches with rises | ⟨above, falls⟩
        · exact rises
        · exact ⟨start.trans above, falls.trans start⟩
      obtain ⟨rises, behind⟩ := ih follows ascending fun other member =>
        moved.2.trans (next other member)
      refine ⟨List.pairwise_cons.mpr ⟨?_, rises⟩, ?_⟩
      · intro later member
        rcases List.mem_cons.mp member with rfl | member
        · exact moved.1
        · exact moved.1.trans ((List.pairwise_cons.mp rises).1 later member)
      · intro other member
        rcases List.mem_cons.mp member with rfl | member
        · exact moved.2
        · exact behind other member

/-- A list that rises has upward moves only. -/
theorem directions_of_rises (rises : (previous :: values).Pairwise (· ≤ ·)) :
    ∀ direction ∈ directions previous values, direction = true := by
  induction values generalizing previous with
  | nil => exact fun _ member => (List.not_mem_nil member).elim
  | cons value rest ih =>
      obtain ⟨first, rises⟩ := List.pairwise_cons.mp rises
      have up : previous ≤ value := first value List.mem_cons_self
      unfold directions
      split
      · intro direction member
        rcases List.mem_cons.mp member with rfl | member
        · rfl
        · exact ih rises direction member
      · rw [if_neg (not_lt.mpr up)]
        exact ih rises

/-- Behind a target that only rises, all falls come before all rises. -/
theorem directions_sorted (follows : Follows previous pairs)
    (ascending : (pairs.map Prod.fst).Pairwise (· ≤ ·)) :
    (directions previous (pairs.map Prod.snd)).Pairwise (· ≤ ·) := by
  induction pairs generalizing previous with
  | nil => exact List.Pairwise.nil
  | cons pair rest ih =>
      obtain ⟨target, value⟩ := pair
      obtain ⟨later, ascendingRest⟩ := List.pairwise_cons.mp ascending
      by_cases start : previous ≤ target
      · have rises := (rises_of_below follows ascending fun other member => by
          rcases List.mem_cons.mp member with rfl | member
          · exact start
          · exact start.trans (later other member)).1
        have upward := directions_of_rises rises
        refine List.pairwise_of_forall_mem_list fun first member second other => ?_
        have same := (upward first member).trans (upward second other).symm
        exact same ▸ Bool.le_refl first
      · have sorted := ih follows.2 ascendingRest
        have falls : ¬ previous < value := by
          rcases follows.1 with ⟨above, behind⟩ | ⟨_, falls⟩
          · exact absurd (above.trans behind) start
          · exact not_lt.mpr falls
        simp only [List.map_cons, directions, if_neg falls]
        split
        · exact List.pairwise_cons.mpr ⟨fun _ _ => Bool.false_le _, sorted⟩
        · exact sorted

theorem changes_of_all_true {moves : List Bool} (upward : ∀ direction ∈ moves, direction = true) :
    changes moves = 0 := by
  induction moves with
  | nil => rfl
  | cons first rest ih =>
      have later := ih fun direction member => upward direction (List.mem_cons_of_mem _ member)
      cases rest with
      | nil => rfl
      | cons second rest =>
          have same : first = second :=
            (upward first (by simp)).trans (upward second (by simp)).symm
          rw [changes, if_pos same, later]

theorem changes_le_one_of_sorted {moves : List Bool} (sorted : moves.Pairwise (· ≤ ·)) :
    changes moves ≤ 1 := by
  induction moves with
  | nil => exact Nat.zero_le 1
  | cons first rest ih =>
      obtain ⟨next, sortedRest⟩ := List.pairwise_cons.mp sorted
      cases rest with
      | nil => exact Nat.zero_le 1
      | cons second rest =>
          rw [changes]
          split
          · rw [Nat.zero_add]
            exact ih sortedRest
          · next differ =>
            -- The first rise: everything after it rises.
            have up : second = true := by
              have order := next second List.mem_cons_self
              revert differ order
              cases first <;> cases second <;> decide
            have upward : ∀ direction ∈ second :: rest, direction = true := by
              intro direction member
              rcases List.mem_cons.mp member with rfl | member
              · exact up
              · have order := (List.pairwise_cons.mp sortedRest).1 direction member
                rw [up] at order
                exact Bool.eq_true_of_true_le order
            have settled := changes_of_all_true upward
            omega

/-- **Behind a target that only rises, a value turns at most once.** -/
theorem changes_le_one_of_ascending (follows : Follows previous pairs)
    (ascending : (pairs.map Prod.fst).Pairwise (· ≤ ·)) :
    changes (directions previous (pairs.map Prod.snd)) ≤ 1 :=
  changes_le_one_of_sorted (directions_sorted follows ascending)

/-! ## The other way round -/

private theorem follows_dual (follows : Follows previous pairs) :
    @Follows αᵒᵈ _ previous pairs := by
  induction pairs generalizing previous with
  | nil => trivial
  | cons pair rest ih =>
      refine ⟨?_, ih follows.2⟩
      rcases follows.1 with ⟨rises, behind⟩ | ⟨above, falls⟩
      · exact Or.inr ⟨behind, rises⟩
      · exact Or.inl ⟨falls, above⟩

private theorem directions_dual (previous : α) (values : List α) :
    @directions αᵒᵈ _ previous values = (directions previous values).map not := by
  induction values generalizing previous with
  | nil => rfl
  | cons value rest ih =>
      have upward : @LT.lt αᵒᵈ _ previous value ↔ value < previous := Iff.rfl
      have downward : @LT.lt αᵒᵈ _ value previous ↔ previous < value := Iff.rfl
      rcases lt_trichotomy previous value with up | same | down
      · simp [directions, upward, downward, up, up.not_gt, ih]
      · have still : ¬ @LT.lt αᵒᵈ _ value value := lt_irrefl value
        simp [directions, same, still, ih]
      · simp [directions, upward, down, down.not_gt, ih]

private theorem changes_map_not (moves : List Bool) : changes (moves.map not) = changes moves := by
  induction moves with
  | nil => rfl
  | cons first rest ih =>
      cases rest with
      | nil => rfl
      | cons second rest =>
          simp only [List.map_cons, changes] at ih ⊢
          rw [ih]
          cases first <;> cases second <;> rfl

/-- **From above, the value only falls** and stays above its targets. -/
theorem falls_of_above (follows : Follows previous pairs)
    (descending : (pairs.map Prod.fst).Pairwise (· ≥ ·))
    (above : ∀ target ∈ pairs.map Prod.fst, target ≤ previous) :
    (previous :: pairs.map Prod.snd).Pairwise (· ≥ ·) ∧ ∀ pair ∈ pairs, pair.1 ≤ pair.2 :=
  @rises_of_below αᵒᵈ _ previous pairs (follows_dual follows) descending above

/-- **Behind a target that only falls, a value turns at most once.** -/
theorem changes_le_one_of_descending (follows : Follows previous pairs)
    (descending : (pairs.map Prod.fst).Pairwise (· ≥ ·)) :
    changes (directions previous (pairs.map Prod.snd)) ≤ 1 := by
  have turned : changes (@directions αᵒᵈ _ previous (pairs.map Prod.snd : List α)) ≤ 1 :=
    @changes_le_one_of_ascending αᵒᵈ _ previous pairs (follows_dual follows) descending
  rwa [directions_dual, changes_map_not] at turned

/-! ## A target that stays -/

section Constant

variable {target : α} (follows : Follows previous pairs)
  (constant : ∀ pair ∈ pairs, pair.1 = target)

include constant

omit [LinearOrder α] in
private theorem targets_constant : ∀ value ∈ pairs.map Prod.fst, value = target := by
  intro value member
  obtain ⟨pair, known, rfl⟩ := List.mem_map.mp member
  exact constant pair known

include follows

/-- **Below a target that stays, the value only rises,** up to the target. -/
theorem rises_to_constant (below : previous ≤ target) :
    (previous :: pairs.map Prod.snd).Pairwise (· ≤ ·) ∧ ∀ pair ∈ pairs, pair.2 ≤ target := by
  have same := targets_constant constant
  have ascending : (pairs.map Prod.fst).Pairwise (· ≤ ·) :=
    List.pairwise_of_forall_mem_list fun first member second other =>
      ((same first member).trans (same second other).symm).le
  obtain ⟨rises, behind⟩ := rises_of_below follows ascending fun value member =>
    below.trans (same value member).ge
  exact ⟨rises, fun pair member => (behind pair member).trans (constant pair member).le⟩

/-- **Above a target that stays, the value only falls,** down to the target. -/
theorem falls_to_constant (above : target ≤ previous) :
    (previous :: pairs.map Prod.snd).Pairwise (· ≥ ·) ∧ ∀ pair ∈ pairs, target ≤ pair.2 := by
  have same := targets_constant constant
  have descending : (pairs.map Prod.fst).Pairwise (· ≥ ·) :=
    List.pairwise_of_forall_mem_list fun first member second other =>
      ((same first member).trans (same second other).symm).ge
  obtain ⟨falls, behind⟩ := falls_of_above follows descending fun value member =>
    (same value member).le.trans above
  exact ⟨falls, fun pair member => (constant pair member).ge.trans (behind pair member)⟩

end Constant

end Pursuit
