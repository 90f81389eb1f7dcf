import Mathlib.Data.List.Basic
import Mathlib.Tactic.Common

/-! # Bounded channels

A first-in, first-out channel that holds at most a number of messages. Sending to
a full channel and receiving from an empty one block: there is no next state.
-/

/-- A channel and the messages in it, oldest first. -/
@[ext] structure Channel (capacity : ℕ) (α : Type*) where
  queue : List α
  bounded : queue.length ≤ capacity

namespace Channel

variable {capacity : ℕ} {α : Type*} {channel next : Channel capacity α} {message : α}

def empty : Channel capacity α := ⟨[], Nat.zero_le capacity⟩

/-- Sending completes when there is room. -/
def send? (channel : Channel capacity α) (message : α) : Option (Channel capacity α) :=
  if room : channel.queue.length < capacity then
    some ⟨channel.queue ++ [message], by rwa [List.length_append, List.length_singleton]⟩
  else none

/-- Receiving completes when there is a message. -/
def receive? (channel : Channel capacity α) : Option (α × Channel capacity α) :=
  match channel with
  | ⟨[], _⟩ => none
  | ⟨message :: rest, bounded⟩ => some (message, ⟨rest, Nat.le_of_succ_le bounded⟩)

/-- A message goes to the end of a channel with room. -/
theorem send?_eq_some_iff :
    channel.send? message = some next ↔
      channel.queue.length < capacity ∧ next.queue = channel.queue ++ [message] := by
  unfold send?
  split
  next room =>
    rw [Option.some.injEq, Channel.ext_iff]
    exact ⟨fun sent => ⟨room, sent.symm⟩, fun sent => sent.2.symm⟩
  next full => simp [full]

/-- Sending blocks exactly on a full channel. -/
theorem send?_eq_none_iff : channel.send? message = none ↔ channel.queue.length = capacity := by
  have bounded := channel.bounded
  unfold send?
  split
  next room => simp only [reduceCtorEq, false_iff]; omega
  next full => simp only [true_iff]; omega

/-- The oldest message is received. -/
theorem receive?_eq_some_iff :
    channel.receive? = some (message, next) ↔ channel.queue = message :: next.queue := by
  rcases channel with ⟨queue, bounded⟩
  cases queue with
  | nil => simp [receive?]
  | cons first rest => simp [receive?, Channel.ext_iff]

end Channel
