import LaptopCooler.Library.Fallible
import Mathlib.Data.List.Perm.Basic

/-! # Entries with distinct keys

A file of settings is a list of entries. Each is read as an update of what belongs
to its key, and no key may come twice. A loop that reads the entries one by one
and leaves at the first that cannot be read or repeats a key computes the meaning
of the list (`KeyedUpdates.Turns.foldlM_eq_ok_iff`). If updates of different keys
can be made in either order, as far as their result is observed, then the meaning
does not depend on the order of the entries (`KeyedUpdates.Leads.perm`).
-/

namespace KeyedUpdates

open Fallible

variable {σ τ κ υ α β ε : Type}

/-- The state after the updates, made one after another. -/
def applyAll (apply : υ → σ → σ) (updates : List υ) (state : σ) : σ :=
  updates.foldl (fun state update => apply update state) state

/-! ## Updates in any order -/

/-- As far as the state is observed, an update depends on nothing else and updates of
different keys can be made in either order. -/
structure Independent (key : υ → κ) (apply : υ → σ → σ) (observe : σ → τ) : Prop where
  congr : ∀ (update : υ) {first second : σ}, observe first = observe second →
    observe (apply update first) = observe (apply update second)
  comm : ∀ {earlier later : υ}, key earlier ≠ key later → ∀ state : σ,
    observe (apply later (apply earlier state)) = observe (apply earlier (apply later state))

section Order

variable {key : υ → κ} {apply : υ → σ → σ} {observe : σ → τ}
  (independent : Independent key apply observe) {updates rearranged : List υ}

include independent

theorem Independent.applyAll_congr (updates : List υ) {first second : σ}
    (same : observe first = observe second) :
    observe (applyAll apply updates first) = observe (applyAll apply updates second) := by
  induction updates generalizing first second with
  | nil => exact same
  | cons update rest ih => exact ih (independent.congr update same)

/-- **Updates of distinct keys can be made in any order.** -/
theorem Independent.applyAll_perm (perm : updates.Perm rearranged)
    (distinct : (updates.map key).Nodup) (state : σ) :
    observe (applyAll apply updates state) = observe (applyAll apply rearranged state) := by
  induction perm generalizing state with
  | nil => rfl
  | cons update _ ih => exact ih (List.nodup_cons.mp distinct).2 (apply update state)
  | swap later earlier rest =>
      have differ : key earlier ≠ key later := by
        intro same
        exact (List.nodup_cons.mp distinct).1 (same ▸ List.mem_cons_self)
      exact independent.applyAll_congr rest (independent.comm differ state)
  | trans first _ ihFirst ihSecond =>
      have stillDistinct := (first.map key).nodup_iff.mp distinct
      exact (ihFirst distinct state).trans (ihSecond stillDistinct state)

end Order

/-! ## The meaning of a list of entries -/

section Meaning

variable (reads : β → υ → Prop) (key : υ → κ) (apply : υ → σ → σ)

/-- The entries are read as updates of distinct keys, none of them among the given ones,
that lead from one state to the other. -/
def Leads (seen : List κ) (entries : List β) (start result : σ) : Prop :=
  ∃ updates, List.Forall₂ reads entries updates ∧ (updates.map key).Nodup ∧
    (∀ update ∈ updates, key update ∉ seen) ∧ result = applyAll apply updates start

variable {reads key apply} {seen : List κ} {entries rearranged : List β} {start result : σ}

theorem leads_nil_iff : Leads reads key apply seen [] start result ↔ result = start := by
  constructor
  · intro leads
    obtain ⟨updates, read, _, _, reached⟩ := leads
    obtain rfl := List.forall₂_nil_left_iff.mp read
    exact reached
  · intro same
    exact ⟨[], .nil, List.nodup_nil, fun _ member => (List.not_mem_nil member).elim, same⟩

/-- The first entry has a new key, and the others lead on from its update. -/
theorem leads_cons_iff {entry : β} :
    Leads reads key apply seen (entry :: entries) start result ↔
      ∃ update, reads entry update ∧ key update ∉ seen ∧
        Leads reads key apply (key update :: seen) entries (apply update start) result := by
  constructor
  · intro leads
    obtain ⟨_, readAll, distinct, unseen, reached⟩ := leads
    obtain ⟨update, updates, read, others, rfl⟩ := List.forall₂_cons_left_iff.mp readAll
    obtain ⟨apart, distinct⟩ := List.nodup_cons.mp distinct
    refine ⟨update, read, unseen update List.mem_cons_self, updates, others, distinct, ?_, reached⟩
    intro other member repeated
    rcases List.mem_cons.mp repeated with same | old
    · exact apart (same ▸ List.mem_map_of_mem member)
    · exact unseen other (List.mem_cons_of_mem update member) old
  · intro first
    obtain ⟨update, read, new, updates, others, distinct, unseen, reached⟩ := first
    refine ⟨update :: updates, .cons read others, List.nodup_cons.mpr ⟨?_, distinct⟩, ?_, reached⟩
    · intro repeated
      obtain ⟨other, member, same⟩ := List.mem_map.mp repeated
      exact unseen other member (same ▸ List.mem_cons_self)
    · intro other member
      rcases List.mem_cons.mp member with rfl | member
      · exact new
      · exact fun old => unseen other member (List.mem_cons_of_mem (key update) old)

/-- Every entry is read as one of the updates. -/
theorem exists_update_of_mem {updates : List υ} (read : List.Forall₂ reads entries updates)
    {entry : β} (member : entry ∈ entries) : ∃ update ∈ updates, reads entry update := by
  induction read with
  | nil => exact (List.not_mem_nil member).elim
  | @cons first update _ _ here _ ih =>
      rcases List.mem_cons.mp member with rfl | later
      · exact ⟨update, List.mem_cons_self, here⟩
      · obtain ⟨other, inside, found⟩ := ih later
        exact ⟨other, List.mem_cons_of_mem update inside, found⟩

/-- Every update is read from one of the entries. -/
theorem exists_entry_of_mem {updates : List υ} (read : List.Forall₂ reads entries updates)
    {update : υ} (member : update ∈ updates) : ∃ entry ∈ entries, reads entry update :=
  @exists_update_of_mem _ _ (fun update entry => reads entry update) _ _ read.flip _ member

/-- **The order of the entries does not matter.** -/
theorem Leads.perm {observe : σ → τ} (independent : Independent key apply observe)
    (leads : Leads reads key apply seen entries start result) (perm : rearranged.Perm entries) :
    ∃ other, Leads reads key apply seen rearranged start other ∧
      observe other = observe result := by
  obtain ⟨updates, read, distinct, unseen, rfl⟩ := leads
  obtain ⟨others, readOthers, moved⟩ := List.perm_comp_forall₂ perm read
  refine ⟨_, ⟨others, readOthers, (moved.map key).nodup_iff.mpr distinct, ?_, rfl⟩, ?_⟩
  · exact fun update member => unseen update (moved.subset member)
  · exact independent.applyAll_perm moved ((moved.map key).nodup_iff.mpr distinct) start

end Meaning

/-! ## A loop over the entries -/

/-- What one turn of a loop does when it succeeds: an entry to skip leaves the state alone,
and any other is read as an update of a new key, which is then no longer new. -/
structure Turns (step : σ → α → Except ε σ) (content : α → β) (skipped : β → Prop)
    (reads : β → υ → Prop) (key : υ → κ) (apply : υ → σ → σ) (seen : σ → List κ) : Prop where
  step_eq_ok_iff : ∀ {state after : σ} {line : α}, step state line = .ok after ↔
    (skipped (content line) ∧ after = state) ∨
      (¬ skipped (content line) ∧ ∃ update, reads (content line) update ∧
        key update ∉ seen state ∧ after = apply update state)
  seen_apply : ∀ (update : υ) (state : σ), seen (apply update state) = key update :: seen state

/-- **The loop computes the meaning of the entries** that are not skipped. -/
theorem Turns.foldlM_eq_ok_iff {step : σ → α → Except ε σ} {content : α → β} {skipped : β → Prop}
    [DecidablePred skipped] {reads : β → υ → Prop} {key : υ → κ} {apply : υ → σ → σ}
    {seen : σ → List κ} (turns : Turns step content skipped reads key apply seen)
    {lines : List α} {start result : σ} :
    lines.foldlM step start = .ok result ↔
      Leads reads key apply (seen start) ((lines.map content).filter fun entry => ¬ skipped entry)
        start result := by
  induction lines generalizing start with
  | nil =>
      rw [List.map_nil, List.filter_nil, leads_nil_iff]
      exact ⟨fun ended => (Except.ok.inj ended).symm, congrArg Except.ok ∘ Eq.symm⟩
  | cons line rest ih =>
      rw [List.foldlM_cons, bind_eq_ok_iff, List.map_cons]
      simp only [ih, turns.step_eq_ok_iff]
      by_cases skip : skipped (content line)
      · rw [List.filter_cons_of_neg (by simpa using skip)]
        simp [skip]
      · rw [List.filter_cons_of_pos (by simpa using skip), leads_cons_iff]
        constructor
        · intro turned
          obtain ⟨_, ⟨passed, _⟩ | ⟨_, update, read, new, rfl⟩, leads⟩ := turned
          · exact absurd passed skip
          · rw [turns.seen_apply] at leads
            exact ⟨update, read, new, leads⟩
        · intro first
          obtain ⟨update, read, new, leads⟩ := first
          refine ⟨_, Or.inr ⟨skip, update, read, new, rfl⟩, ?_⟩
          rw [turns.seen_apply]
          exact leads

end KeyedUpdates
