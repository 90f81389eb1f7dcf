import Mathlib.Data.Nat.Notation
import Mathlib.Tactic.Common

/-! # Parsing input that is still arriving

A parser of arriving input runs again on all it has each time more comes in. It
gives an answer or an error, or nothing while it needs more. If what it decides
stays decided (`IncrementalParser.Stable`) and it decides on a full buffer
(`IncrementalParser.Decisive`), then its verdict on a stream
(`IncrementalParser.verdict`) is what it decides first, wherever the stream is cut
(`IncrementalParser.Stable.verdict_of_decided`).
-/

namespace IncrementalParser

variable {σ α β ε : Type}

/-! ## Verdicts -/

/-- What a result says, if it says anything yet. -/
def decided : Except ε (Option α) → Option (Except ε α)
  | .ok none => none
  | .ok (some answer) => some (.ok answer)
  | .error error => some (.error error)

theorem decided_eq_none_iff {result : Except ε (Option α)} :
    decided result = none ↔ result = .ok none := by
  rcases result with error | _ | answer <;> simp [decided]

/-- The result says something. -/
def Decides (result : Except ε (Option α)) : Prop := result ≠ .ok none

namespace Decides

theorem error (error : ε) : Decides (.error error : Except ε (Option α)) := nofun

theorem answer (answer : α) : Decides (.ok (some answer) : Except ε (Option α)) := nofun

theorem ite {condition : Prop} [Decidable condition] {first second : Except ε (Option α)}
    (holds : condition → Decides first) (fails : ¬ condition → Decides second) :
    Decides (if condition then first else second) := by
  by_cases met : condition
  · rw [if_pos met]
    exact holds met
  · rw [if_neg met]
    exact fails met

theorem bind (action : Except ε β) {rest : β → Except ε (Option α)}
    (later : ∀ value, action = .ok value → Decides (rest value)) : Decides (action >>= rest) := by
  cases action with
  | error failure => exact error failure
  | ok value => exact later value rfl

end Decides

/-- The later result keeps what the earlier one says. -/
def Settles (earlier later : Except ε (Option α)) : Prop := Decides earlier → later = earlier

namespace Settles

theorem refl (result : Except ε (Option α)) : Settles result result := fun _ => rfl

theorem of_pending {later : Except ε (Option α)} : Settles (.ok none) later :=
  fun decided => (decided rfl).elim

/-- A check that both results begin with. -/
theorem ite {condition : Prop} [Decidable condition] {first second first' second' :
    Except ε (Option α)} (holds : Settles first first') (fails : Settles second second') :
    Settles (if condition then first else second) (if condition then first' else second') := by
  by_cases met : condition
  · rwa [if_pos met, if_pos met]
  · rwa [if_neg met, if_neg met]

/-- A step that both results begin with. -/
theorem bind (action : Except ε β) {rest rest' : β → Except ε (Option α)}
    (later : ∀ value, action = .ok value → Settles (rest value) (rest' value)) :
    Settles (action >>= rest) (action >>= rest') := by
  cases action with
  | error error => exact refl _
  | ok value => exact later value rfl

end Settles

/-! ## Parsers with a bounded buffer -/

variable {capacity : ℕ} {parse : List σ → Except ε (Option α)}

/-- More input does not change what is decided. -/
def Stable (capacity : ℕ) (parse : List σ → Except ε (Option α)) : Prop :=
  ∀ input more, (input ++ more).length ≤ capacity → Settles (parse input) (parse (input ++ more))

/-- A full buffer is decided. -/
def Decisive (capacity : ℕ) (parse : List σ → Except ε (Option α)) : Prop :=
  ∀ input, input.length = capacity → Decides (parse input)

/-- What the parser says of as much of a stream as the buffer holds. -/
def verdict (capacity : ℕ) (parse : List σ → Except ε (Option α)) (stream : List σ) :
    Option (Except ε α) :=
  decided (parse (stream.take capacity))

/-- An undecided buffer has room. -/
theorem Decisive.length_lt (decisive : Decisive capacity parse) {buffer : List σ}
    (fits : buffer.length ≤ capacity) (pending : decided (parse buffer) = none) :
    buffer.length < capacity :=
  Nat.lt_of_le_of_ne fits fun full => decisive buffer full (decided_eq_none_iff.mp pending)

/-- **The first decision is the verdict.** -/
theorem Stable.verdict_of_decided (stable : Stable capacity parse) {buffer : List σ}
    (fits : buffer.length ≤ capacity) {answer : Except ε α}
    (found : decided (parse buffer) = some answer) (rest : List σ) :
    verdict capacity parse (buffer ++ rest) = some answer := by
  have split : (buffer ++ rest).take capacity = buffer ++ rest.take (capacity - buffer.length) := by
    rw [List.take_append, List.take_of_length_le fits]
  have whole : (buffer ++ rest.take (capacity - buffer.length)).length ≤ capacity := by
    rw [← split]
    exact List.length_take_le _ _
  rw [verdict, split, stable buffer _ whole, found]
  intro pending
  rw [decided_eq_none_iff.mpr pending] at found
  cases found

/-- An input that ends undecided has no verdict. -/
theorem verdict_of_pending {buffer : List σ} (fits : buffer.length ≤ capacity)
    (pending : decided (parse buffer) = none) : verdict capacity parse buffer = none := by
  rwa [verdict, List.take_of_length_le fits]

/-! ## Cutting a stream -/

/-- What one read returns: a part of the stream, its end, or a failure. -/
inductive Read (σ : Type) where
  | received (chunk : List σ)
  | ended
  | failed

/-- The reads that may deliver a stream to a buffer with some room left: parts of the stream
that fit into the buffer, until it is full or the stream is at its end. -/
inductive Cut : ℕ → List σ → List (Read σ) → Prop where
  | full (stream : List σ) (reads : List (Read σ)) : Cut 0 stream reads
  | ended (room : ℕ) : Cut room [] [.ended]
  | failed (room : ℕ) : Cut room [] [.failed]
  | received {room : ℕ} {chunk stream : List σ} {reads : List (Read σ)} (nonempty : chunk ≠ [])
      (fits : chunk.length ≤ room) (later : Cut (room - chunk.length) stream reads) :
      Cut room (chunk ++ stream) (.received chunk :: reads)

end IncrementalParser
