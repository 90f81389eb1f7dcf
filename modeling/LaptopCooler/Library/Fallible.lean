import Mathlib.Tactic.Common

/-! # Early exits

Fallible code tests a condition or looks at an optional value and leaves with an
error at the first failure. These rules turn the success of such a chain into
the conjunction of its steps, and its failure into the places where it can leave.
-/

namespace Fallible

variable {α β ε : Type}

/-- `Option::ok_or`: the value, or the error in its place. -/
def okOr (value : Option α) (error : ε) : Except ε α :=
  match value with
  | some value => .ok value
  | none => .error error

@[simp] theorem okOr_some (value : α) (error : ε) : okOr (some value) error = .ok value := rfl

theorem okOr_eq_ok_iff {value : Option α} {error : ε} {result : α} :
    okOr value error = .ok result ↔ value = some result := by
  cases value <;> simp [okOr]

@[simp] theorem ok_bind (value : α) (rest : α → Except ε β) :
    (Except.ok value >>= rest) = rest value := rfl

@[simp] theorem error_bind (error : ε) (rest : α → Except ε β) :
    ((Except.error error : Except ε α) >>= rest) = .error error := rfl

/-- A chain succeeds when its first step does and the rest does on the answer. -/
theorem bind_eq_ok_iff {action : Except ε α} {rest : α → Except ε β} {result : β} :
    (action >>= rest) = .ok result ↔ ∃ answer, action = .ok answer ∧ rest answer = .ok result := by
  cases action <;> simp

/-- Renaming the error does not touch a success. -/
theorem mapError_eq_ok_iff {δ : Type} {action : Except ε α} {rename : ε → δ} {result : α} :
    action.mapError rename = .ok result ↔ action = .ok result := by
  cases action <;> simp [Except.mapError]

/-- A check that leaves with an error succeeds when it is not tripped and the
rest succeeds. -/
theorem guard_eq_ok_iff {tripped : Prop} [Decidable tripped] {error : ε} {rest : Except ε β}
    {result : β} :
    (if tripped then .error error else rest) = .ok result ↔ ¬ tripped ∧ rest = .ok result := by
  by_cases tripped <;> simp_all

/-! ## Failures -/

theorem okOr_eq_error_iff {value : Option α} {error reported : ε} :
    okOr value error = .error reported ↔ value = none ∧ error = reported := by
  cases value <;> simp [okOr]

/-- A chain fails at its first step or later. -/
theorem bind_eq_error_iff {action : Except ε α} {rest : α → Except ε β} {error : ε} :
    (action >>= rest) = .error error ↔
      action = .error error ∨ ∃ answer, action = .ok answer ∧ rest answer = .error error := by
  cases action <;> simp

theorem mapError_eq_error_iff {δ : Type} {action : Except ε α} {rename : ε → δ} {error : δ} :
    action.mapError rename = .error error ↔
      ∃ cause, action = .error cause ∧ rename cause = error := by
  cases action <;> simp [Except.mapError]

/-- A check that leaves with an error fails when it is tripped, or later. -/
theorem guard_eq_error_iff {tripped : Prop} [Decidable tripped] {error reported : ε}
    {rest : Except ε β} : (if tripped then .error error else rest) = .error reported ↔
      (tripped ∧ error = reported) ∨ (¬ tripped ∧ rest = .error reported) := by
  by_cases tripped <;> simp_all

/-- **A loop fails at its first entry that fails**, in the state that those before it lead to. -/
theorem foldlM_eq_error_iff {σ : Type} {step : σ → α → Except ε σ} {entries : List α} {start : σ}
    {error : ε} : entries.foldlM step start = .error error ↔
      ∃ before entry after reached, entries = before ++ entry :: after ∧
        before.foldlM step start = .ok reached ∧ step reached entry = .error error := by
  induction entries generalizing start with
  | nil =>
      constructor
      · intro done
        cases done
      · rintro ⟨before, entry, after, _, empty, _⟩
        simp at empty
  | cons entry rest ih =>
      rw [List.foldlM_cons, bind_eq_error_iff]
      constructor
      · rintro (here | ⟨next, stepped, later⟩)
        · exact ⟨[], entry, rest, start, rfl, rfl, here⟩
        · obtain ⟨before, failed, after, reached, rfl, led, fails⟩ := ih.mp later
          refine ⟨entry :: before, failed, after, reached, rfl, ?_, fails⟩
          exact bind_eq_ok_iff.mpr ⟨next, stepped, led⟩
      · rintro ⟨before, failed, after, reached, split, led, fails⟩
        cases before with
        | nil =>
            obtain ⟨rfl, rfl⟩ := List.cons.inj split
            obtain rfl := Except.ok.inj led
            exact Or.inl fails
        | cons first before =>
            obtain ⟨rfl, rfl⟩ := List.cons.inj split
            obtain ⟨next, stepped, led⟩ := bind_eq_ok_iff.mp led
            exact Or.inr ⟨next, stepped, ih.mpr ⟨before, failed, after, reached, rfl, led, fails⟩⟩

/-- A traversal fails at one of its entries. -/
theorem exists_of_mapM_eq_error {produce : α → Except ε β} {entries : List α} {error : ε}
    (failed : entries.mapM produce = .error error) :
    ∃ entry ∈ entries, produce entry = .error error := by
  induction entries with
  | nil => cases failed
  | cons entry rest ih =>
      rw [List.mapM_cons, bind_eq_error_iff] at failed
      rcases failed with here | ⟨_, _, later⟩
      · exact ⟨entry, List.mem_cons_self, here⟩
      · rcases bind_eq_error_iff.mp later with others | ⟨_, _, done⟩
        · obtain ⟨other, member, fails⟩ := ih others
          exact ⟨other, List.mem_cons_of_mem entry member, fails⟩
        · cases done

/-! ## Gathering

A loop over fallible entries that appends what each of them gives. -/

/-- What a fallible entry gives, nothing if it fails. -/
def orEmpty (attempt : Except ε (List β)) : List β :=
  match attempt with
  | .ok piece => piece
  | .error _ => []

@[simp] theorem orEmpty_ok (piece : List β) : orEmpty (.ok piece : Except ε (List β)) = piece := rfl

/-- **A gathering loop** succeeds when every entry does, with what all of them give. -/
theorem foldlM_append_eq_ok_iff {produce : α → Except ε (List β)} {entries : List α}
    {start result : List β} :
    entries.foldlM (fun held entry => do return held ++ (← produce entry)) start = .ok result ↔
      (∀ entry ∈ entries, ∃ piece, produce entry = .ok piece) ∧
        result = start ++ entries.flatMap fun entry => orEmpty (produce entry) := by
  induction entries generalizing start with
  | nil =>
      simp only [List.foldlM_nil, List.flatMap_nil, List.append_nil, List.not_mem_nil,
        false_implies, implies_true, true_and]
      exact ⟨fun done => (Except.ok.inj done).symm, fun same => congrArg _ same.symm⟩
  | cons entry rest ih =>
      rw [List.foldlM_cons, List.forall_mem_cons, List.flatMap_cons, bind_eq_ok_iff]
      constructor
      · rintro ⟨held, turn, remaining⟩
        obtain ⟨piece, produced, appended⟩ := bind_eq_ok_iff.mp turn
        obtain rfl := Except.ok.inj appended
        obtain ⟨others, gathered⟩ := ih.mp remaining
        rw [produced, orEmpty_ok, ← List.append_assoc]
        exact ⟨⟨⟨piece, rfl⟩, others⟩, gathered⟩
      · rintro ⟨⟨⟨piece, produced⟩, others⟩, gathered⟩
        rw [produced, orEmpty_ok, ← List.append_assoc] at gathered
        exact ⟨start ++ piece, bind_eq_ok_iff.mpr ⟨piece, produced, rfl⟩,
          ih.mpr ⟨others, gathered⟩⟩

theorem forall_ok_iff {attempts : List (Except ε α)} :
    (∀ attempt ∈ attempts, ∃ value, attempt = .ok value) ↔
      ∃ values : List α, attempts = values.map .ok := by
  induction attempts with
  | nil => simp
  | cons attempt rest ih =>
      rw [List.forall_mem_cons, ih]
      constructor
      · rintro ⟨⟨value, rfl⟩, values, rfl⟩
        exact ⟨value :: values, rfl⟩
      · rintro ⟨values, same⟩
        cases values with
        | nil => cases same
        | cons value values =>
            obtain ⟨rfl, rfl⟩ := List.cons.inj same
            exact ⟨⟨value, rfl⟩, values, rfl⟩

/-! ## Steps without a value

A step of `ExceptT ε Option` that has no value at all stands for a program that
stops there; one that has a value succeeds or leaves with an error. -/

/-- A chain has a value when its first step does, and the rest does on a success. -/
theorem isSome_bind {action : ExceptT ε Option α} {rest : α → ExceptT ε Option β}
    (first : action.run.isSome) (later : ∀ answer, action.run = some (.ok answer) →
      (rest answer).run.isSome) : (action >>= rest).run.isSome := by
  obtain ⟨result, returned⟩ := Option.isSome_iff_exists.mp first
  have stepped : (action >>= rest).run = ExceptT.bindCont rest result := by
    change (action.run >>= ExceptT.bindCont rest) = _
    rw [returned]
    rfl
  rw [stepped]
  cases result with
  | error error => rfl
  | ok answer => exact later answer returned

/-- A chain succeeds when its first step does and the rest does on the answer. -/
theorem run_bind_eq_ok_iff {action : ExceptT ε Option α} {rest : α → ExceptT ε Option β}
    {result : β} :
    (action >>= rest).run = some (.ok result) ↔
      ∃ answer, action.run = some (.ok answer) ∧ (rest answer).run = some (.ok result) := by
  have stepped : (action >>= rest).run = (action.run >>= ExceptT.bindCont rest) := rfl
  rw [stepped]
  rcases action.run with _ | error | answer
  · simp
  · constructor
    · intro failed
      cases failed
    · rintro ⟨_, failed, _⟩
      cases failed
  · constructor
    · intro returned
      exact ⟨answer, rfl, returned⟩
    · rintro ⟨_, same, returned⟩
      obtain rfl := Except.ok.inj (Option.some.inj same)
      exact returned

end Fallible
