import Mathlib.Algebra.BigOperators.Pi
import Mathlib.Algebra.Module.LinearMap.Basic
import Mathlib.Algebra.Module.Submodule.LinearMap
import Mathlib.Algebra.Order.BigOperators.Group.Finset
import Mathlib.Algebra.Field.ZMod
import Mathlib.Data.ZMod.Basic
import Mathlib.Algebra.Module.ZMod
import Mathlib.Tactic.Ring

/-! # Checksums from a shift register

A shift register with feedback is a linear map on words over the field of two
elements. It absorbs a message bit by bit into its lowest cell, so the difference
between what it makes of two messages, their syndrome, depends on the difference
of the messages alone (`ShiftRegister.absorb_add_absorb`). Bits that differ within
one word are never lost (`ShiftRegister.syndrome_ne_zero_of_burst`), and a single
bit or a pair of bits, in the message or in the stored remainder, is never lost
before the register's cycle ends (`ShiftRegister.syndrome_ne_of_few`).
-/

namespace ShiftRegister

open Finset

variable {width : ℕ}

/-- The contents of the cells, the lowest first. -/
abbrev State (width : ℕ) := Fin (width + 1) → ZMod 2

/-- The word with a single cell set. -/
def cell (index : ℕ) : State width := fun position => if position.val = index then 1 else 0

variable (taps : State width)

/-- Every cell moves down by one; the lowest feeds back at the taps. -/
def shift : State width →ₗ[ZMod 2] State width where
  toFun state position :=
    (if inside : position.val + 1 < width + 1 then state ⟨position + 1, inside⟩ else 0) +
      state 0 * taps position
  map_add' first second := by
    funext position
    simp only [Pi.add_apply, add_mul]
    split
    · abel
    · abel
  map_smul' factor state := by
    funext position
    simp only [Pi.smul_apply, smul_eq_mul, RingHom.id_apply, mul_add, mul_dite, mul_zero,
      mul_assoc]

theorem shift_apply (state : State width) (position : Fin (width + 1)) :
    shift taps state position =
      (if inside : position.val + 1 < width + 1 then state ⟨position + 1, inside⟩ else 0) +
        state 0 * taps position := rfl

/-- A set cell above the lowest moves down. -/
theorem shift_cell_succ {index : ℕ} (inside : index + 1 < width + 1) :
    shift taps (cell (index + 1)) = cell index := by
  funext position
  have unfed : (cell (index + 1) : State width) 0 = 0 := by simp [cell]
  rw [shift_apply, unfed, zero_mul, add_zero]
  unfold cell
  split
  · simp
  · next outside => rw [if_neg (by omega)]

theorem shift_pow_cell {index : ℕ} (inside : index < width + 1) :
    (shift taps ^ index) (cell index) = cell 0 := by
  induction index with
  | zero => rfl
  | succ index ih =>
      rw [pow_succ, Module.End.mul_apply, shift_cell_succ taps inside, ih (by omega)]

/-- A register that feeds back into its highest cell loses nothing. -/
theorem shift_injective (fed : taps (Fin.last width) = 1) :
    Function.Injective (shift taps) := by
  rw [injective_iff_map_eq_zero]
  intro state vanishes
  have lowest : state 0 = 0 := by
    have highest := congrFun vanishes (Fin.last width)
    rw [shift_apply, dif_neg (by simp), fed, mul_one, zero_add] at highest
    exact highest
  funext position
  refine Fin.cases lowest (fun below => ?_) position
  have moved := congrFun vanishes below.castSucc
  rw [shift_apply, dif_pos (by simp), lowest, zero_mul, add_zero] at moved
  exact moved

theorem shift_pow_injective (fed : taps (Fin.last width) = 1) (count : ℕ) :
    Function.Injective (shift taps ^ count) := by
  rw [Module.End.coe_pow]
  exact (shift_injective taps fed).iterate count

/-! ## Absorbing a message -/

/-- The register after the first bits of a message. -/
def absorb (state : State width) (message : ℕ → ZMod 2) : ℕ → State width
  | 0 => state
  | count + 1 => shift taps (absorb state message count + message count • cell 0)

/-- What the differing bits of two messages contribute. -/
def syndrome (error : ℕ → ZMod 2) (count : ℕ) : State width :=
  ∑ index ∈ range count, error index • (shift taps ^ (count - index)) (cell 0)

theorem syndrome_succ (error : ℕ → ZMod 2) (count : ℕ) :
    syndrome taps error (count + 1) =
      shift taps (syndrome taps error count + error count • cell 0) := by
  have earlier : ∀ index ∈ range count,
      error index • (shift taps ^ (count + 1 - index)) (cell 0) =
        shift taps (error index • (shift taps ^ (count - index)) (cell 0)) := by
    intro index member
    have below := mem_range.mp member
    rw [Nat.succ_sub below.le, pow_succ', Module.End.mul_apply, map_smul]
  rw [syndrome, sum_range_succ, sum_congr rfl earlier, ← map_sum, ← syndrome,
    Nat.add_sub_cancel_left, pow_one, map_add, map_smul]

/-- The register is linear in what it starts from and in the message. -/
theorem absorb_eq (state : State width) (message : ℕ → ZMod 2) (count : ℕ) :
    absorb taps state message count = (shift taps ^ count) state + syndrome taps message count := by
  induction count with
  | zero => simp [absorb, syndrome]
  | succ count ih =>
      rw [absorb, ih, syndrome_succ, pow_succ', Module.End.mul_apply, add_assoc, map_add]

/-- **Two messages leave the syndrome of their difference.** -/
theorem absorb_add_absorb (state : State width) (message other : ℕ → ZMod 2) (count : ℕ) :
    absorb taps state message count + absorb taps state other count =
      syndrome taps (message + other) count := by
  have started : (shift taps ^ count) state + (shift taps ^ count) state = 0 :=
    ZModModule.add_self _
  have split : syndrome taps (message + other) count =
      syndrome taps message count + syndrome taps other count := by
    simp only [syndrome, Pi.add_apply, add_smul, sum_add_distrib]
  rw [absorb_eq, absorb_eq, split, add_add_add_comm, started, zero_add]

/-- Bits absorbed one after another act as a word added at once. -/
theorem absorb_add (state : State width) (message : ℕ → ZMod 2) (count : ℕ) {length : ℕ}
    (inside : length ≤ width + 1) :
    absorb taps state message (count + length) = (shift taps ^ length)
      (absorb taps state message count +
        ∑ index ∈ range length, message (count + index) • cell index) := by
  induction length with
  | zero => simp
  | succ length ih =>
      have lowered : (shift taps ^ length) (cell length) = cell 0 := shift_pow_cell taps inside
      rw [← Nat.add_assoc, absorb, ih (by omega), sum_range_succ, ← add_assoc, pow_succ',
        Module.End.mul_apply, map_add (shift taps ^ length) (_ + _), map_smul, lowered]

/-! ## Errors that are never lost -/

theorem eq_one_of_ne_zero {bit : ZMod 2} (set : bit ≠ 0) : bit = 1 := by
  revert bit
  decide

/-- The positions of the set bits of a message. -/
def errorPositions (error : ℕ → ZMod 2) (count : ℕ) : Finset ℕ :=
  {index ∈ range count | error index ≠ 0}

theorem syndrome_eq_sum (error : ℕ → ZMod 2) (count : ℕ) :
    syndrome taps error count =
      ∑ index ∈ errorPositions error count, (shift taps ^ (count - index)) (cell 0) := by
  rw [errorPositions, sum_filter]
  refine sum_congr rfl fun index _ => ?_
  split
  · next set => rw [eq_one_of_ne_zero set, one_smul]
  · next clear => rw [not_not.mp clear, zero_smul]

/-- **A burst is never lost.** Bits that differ inside one word leave a trace. -/
theorem syndrome_ne_zero_of_burst (fed : taps (Fin.last width) = 1) {error : ℕ → ZMod 2}
    {count start : ℕ} (burst : ∀ index < count, error index ≠ 0 →
      start ≤ index ∧ index < start + (width + 1))
    (differs : ∃ index < count, error index ≠ 0) : syndrome taps error count ≠ 0 := by
  obtain ⟨index, below, set⟩ := differs
  obtain ⟨above, near⟩ := burst index below set
  have gathered : syndrome taps error count = (shift taps ^ (count - start))
      (∑ index ∈ range count, error index • cell (index - start)) := by
    rw [syndrome, map_sum]
    refine sum_congr rfl fun other member => ?_
    rw [map_smul]
    by_cases clear : error other = 0
    · rw [clear, zero_smul, zero_smul]
    · have otherBelow := mem_range.mp member
      obtain ⟨otherAbove, otherNear⟩ := burst other otherBelow clear
      have steps : count - start = (count - other) + (other - start) := by omega
      have lowered : (shift taps ^ (other - start)) (cell (other - start)) = cell 0 :=
        shift_pow_cell taps (by omega)
      rw [steps, pow_add, Module.End.mul_apply, lowered]
  rw [gathered, ← map_zero (shift taps ^ (count - start))]
  intro lost
  have vanishes := congrFun (shift_pow_injective taps fed _ lost) ⟨index - start, by omega⟩
  rw [Finset.sum_apply, sum_eq_single index] at vanishes
  · exact set (by simpa [cell] using vanishes)
  · intro other member differ
    by_cases clear : error other = 0
    · rw [clear, zero_smul, Pi.zero_apply]
    · have otherAbove := (burst other (mem_range.mp member) clear).1
      have elsewhere : index - start ≠ other - start := by omega
      simp [cell, elsewhere]
  · intro absent
    exact absurd (mem_range.mpr below) absent

/-- The set cells of a word. -/
def setCells (state : State width) : Finset (Fin (width + 1)) := {position | state position ≠ 0}

theorem eq_sum_setCells (state : State width) :
    state = ∑ position ∈ setCells state, cell position := by
  funext position
  rw [Finset.sum_apply, setCells, sum_filter, sum_eq_single position]
  · split
    · next set => simp [cell, eq_one_of_ne_zero set]
    · next clear => exact not_not.mp clear
  · intro other _ differ
    have elsewhere : position.val ≠ other.val := fun same => differ (Fin.ext same.symm)
    simp [cell, elsewhere]
  · intro absent
    exact absurd (mem_univ position) absent

variable {count : ℕ}

/-- The register does not come back to its lowest cell within the message and the word. -/
def Aperiodic (count : ℕ) : Prop :=
  ∀ steps, 0 < steps → steps < count + (width + 1) → (shift taps ^ steps) (cell 0) ≠ cell 0

variable {taps}

/-- Two bits of a message do not cancel. -/
theorem shift_pow_ne_shift_pow (fed : taps (Fin.last width) = 1) (aperiodic : Aperiodic taps count)
    {first second : ℕ} (order : first < second) (below : second < count) :
    (shift taps ^ (count - first)) (cell 0) ≠ (shift taps ^ (count - second)) (cell 0) := by
  intro same
  have steps : count - first = (count - second) + (second - first) := by omega
  rw [steps, pow_add, Module.End.mul_apply] at same
  exact aperiodic (second - first) (by omega) (by omega) (shift_pow_injective taps fed _ same)

/-- A bit of a message and a bit of the stored word do not cancel. -/
theorem shift_pow_ne_cell (aperiodic : Aperiodic taps count) {index : ℕ} (below : index < count)
    (position : Fin (width + 1)) : (shift taps ^ (count - index)) (cell 0) ≠ cell position := by
  intro same
  have lowered := congrArg (shift taps ^ position.val) same
  rw [← Module.End.mul_apply, ← pow_add, shift_pow_cell taps position.isLt] at lowered
  exact aperiodic (position + (count - index)) (by omega) (by omega) lowered

theorem sum_cells_ne_zero {cells : Finset (Fin (width + 1))} (nonempty : cells.Nonempty) :
    ∑ position ∈ cells, (cell position : State width) ≠ 0 := by
  obtain ⟨position, member⟩ := nonempty
  intro vanishes
  have read := congrFun vanishes position
  rw [Finset.sum_apply, sum_eq_single position] at read
  · simp [cell] at read
  · intro other _ differ
    have elsewhere : position.val ≠ other.val := fun same => differ (Fin.ext same.symm)
    simp [cell, elsewhere]
  · exact fun absent => absurd member absent

theorem shift_pow_cell_ne_zero (fed : taps (Fin.last width) = 1) (steps : ℕ) :
    (shift taps ^ steps) (cell 0) ≠ 0 := by
  rw [← map_zero (shift taps ^ steps)]
  intro lost
  have vanishes := congrFun (shift_pow_injective taps fed _ lost) 0
  simp [cell] at vanishes

/-- **One or two bits are never lost,** wherever they lie in the message or in the stored
word. -/
theorem syndrome_ne_of_few (fed : taps (Fin.last width) = 1) (aperiodic : Aperiodic taps count)
    {error : ℕ → ZMod 2} {stored : State width}
    (few : (errorPositions error count).card + (setCells stored).card ≤ 2)
    (differs : 0 < (errorPositions error count).card + (setCells stored).card) :
    syndrome taps error count ≠ stored := by
  have inside : ∀ index ∈ errorPositions error count, index < count := fun index member =>
    mem_range.mp (mem_filter.mp member).1
  have filled : stored = ∑ position ∈ setCells stored, cell position := eq_sum_setCells stored
  rw [syndrome_eq_sum, filled]
  generalize errorPositions error count = positions at few differs inside
  generalize setCells stored = cells at few differs
  obtain none | one | two : positions.card = 0 ∨ positions.card = 1 ∨ positions.card = 2 := by
    omega
  · rw [card_eq_zero.mp none, sum_empty]
    exact (sum_cells_ne_zero (card_pos.mp (by omega))).symm
  · obtain ⟨index, rfl⟩ := card_eq_one.mp one
    rw [sum_singleton]
    obtain empty | single : cells.card = 0 ∨ cells.card = 1 := by omega
    · rw [card_eq_zero.mp empty, sum_empty]
      exact shift_pow_cell_ne_zero fed _
    · obtain ⟨position, rfl⟩ := card_eq_one.mp single
      rw [sum_singleton]
      exact shift_pow_ne_cell aperiodic (inside index (mem_singleton_self index)) position
  · obtain ⟨first, second, differ, rfl⟩ := card_eq_two.mp two
    have empty : cells.card = 0 := by omega
    have firstInside := inside first (mem_insert_self first _)
    have secondInside := inside second (mem_insert_of_mem (mem_singleton_self second))
    rw [card_eq_zero.mp empty, sum_empty, sum_pair differ, ne_eq, ← ZModModule.sub_eq_add,
      sub_eq_zero]
    rcases Nat.lt_or_gt_of_ne differ with order | order
    · exact shift_pow_ne_shift_pow fed aperiodic order secondInside
    · exact (shift_pow_ne_shift_pow fed aperiodic order firstInside).symm

/-! ## Checking a cycle -/

/-- The orbit of a value avoids another over the given number of steps. -/
def avoids {α : Type*} [DecidableEq α] (step : α → α) (avoided : α) : ℕ → α → Bool
  | 0, _ => true
  | count + 1, value => value ≠ avoided && avoids step avoided count (step value)

theorem ne_of_avoids {α : Type*} [DecidableEq α] {step : α → α} {avoided value : α} {count : ℕ}
    (checked : avoids step avoided count value = true) {steps : ℕ} (below : steps < count) :
    step^[steps] value ≠ avoided := by
  induction count generalizing value steps with
  | zero => omega
  | succ count ih =>
      rw [avoids, Bool.and_eq_true, decide_eq_true_eq] at checked
      cases steps with
      | zero => exact checked.1
      | succ steps => exact ih checked.2 (by omega)

end ShiftRegister
