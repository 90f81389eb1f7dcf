import Mathlib.Tactic.Ring.RingNF
import Mathlib.Tactic.Common

/-! # NOR flash under faults and power loss

A NOR flash array is erased by ranges, which sets every bit, and programmed by
bytes, which only clears bits. A program that drives it runs against an
environment that decides, operation by operation, whether the operation
completes, returns an error without any effect, or is cut short by a loss of
power (`NorFlash.Outcome`). A cut write leaves an arbitrary mixture of old and
new bits in its range (`NorFlash.exists_programPartly_iff`); a cut erase leaves
arbitrary bytes in its range. After a loss of power the program is gone and only
the memory remains.
-/

namespace NorFlash

/-- The contents of a flash array by address. -/
abbrev Memory := ℕ → UInt8

namespace Memory

variable (memory : Memory)

/-- The bytes of a range. -/
def read (address length : ℕ) : Vector UInt8 length :=
  Vector.ofFn fun index => memory (address + index)

/-- Erasing sets every bit of the range. -/
def erase (start stop : ℕ) : Memory := fun address =>
  if start ≤ address ∧ address < stop then 0xff else memory address

/-- Programming clears the bits of the range that are clear in the data. -/
def program (start : ℕ) (data : List UInt8) : Memory := fun address =>
  if inside : start ≤ address ∧ address - start < data.length then
    memory address &&& data[address - start]
  else memory address

/-- A cut erase leaves the residue in the range. -/
def erasePartly (start stop : ℕ) (residue : Memory) : Memory := fun address =>
  if start ≤ address ∧ address < stop then residue address else memory address

/-- A cut write reaches the bits of the range that are set in the residue. -/
def programPartly (start : ℕ) (data : List UInt8) (residue : Memory) : Memory := fun address =>
  (memory address &&& ~~~ residue address) |||
    (memory.program start data address &&& residue address)

variable {memory}

theorem read_getElem (address length index : ℕ) (inside : index < length) :
    (memory.read address length)[index] = memory (address + index) := by
  simp [read]

/-- A reading depends on the bytes of its range only. -/
theorem read_congr {other : Memory} {address length : ℕ}
    (same : ∀ index < length, memory (address + index) = other (address + index)) :
    memory.read address length = other.read address length := by
  apply Vector.ext
  intro index inside
  rw [read_getElem, read_getElem, same index inside]

theorem erase_inside {start stop address : ℕ} (inside : start ≤ address ∧ address < stop) :
    memory.erase start stop address = 0xff := by
  simp [erase, inside]

theorem erase_outside {start stop address : ℕ} (outside : address < start ∨ stop ≤ address) :
    memory.erase start stop address = memory address := by
  have : ¬ (start ≤ address ∧ address < stop) := by omega
  simp [erase, this]

theorem erasePartly_outside {start stop address : ℕ} (residue : Memory)
    (outside : address < start ∨ stop ≤ address) :
    memory.erasePartly start stop residue address = memory address := by
  have : ¬ (start ≤ address ∧ address < stop) := by omega
  simp [erasePartly, this]

theorem program_outside {start address : ℕ} {data : List UInt8}
    (outside : address < start ∨ start + data.length ≤ address) :
    memory.program start data address = memory address := by
  have : ¬ (start ≤ address ∧ address - start < data.length) := by omega
  simp [program, this]

/-- Programming an erased byte stores it. -/
theorem program_erased {start index : ℕ} {data : List UInt8} (inside : index < data.length)
    (erased : memory (start + index) = 0xff) :
    memory.program start data (start + index) = data[index] := by
  have reached : start ≤ start + index ∧ start + index - start < data.length := by omega
  have all : (0xff : UInt8) = -1 := rfl
  simp only [program, reached, and_self, ↓reduceDIte, erased, all, UInt8.neg_one_and]
  congr 1
  omega

theorem programPartly_outside {start address : ℕ} {data : List UInt8} (residue : Memory)
    (outside : address < start ∨ start + data.length ≤ address) :
    memory.programPartly start data residue address = memory address := by
  rw [programPartly, program_outside outside]
  apply UInt8.toBitVec_inj.mp
  apply BitVec.eq_of_getLsbD_eq
  intro bit range
  simp only [UInt8.toBitVec_or, UInt8.toBitVec_and, UInt8.toBitVec_not, BitVec.getLsbD_or,
    BitVec.getLsbD_and, BitVec.getLsbD_not, range, decide_true, Bool.true_and]
  cases (residue address).toBitVec.getLsbD bit <;> simp

/-- **A cut write is any mixture of old and new bits.** -/
theorem exists_programPartly_iff {after : Memory} {start : ℕ} {data : List UInt8} :
    (∃ residue, after = memory.programPartly start data residue) ↔
      ∀ address bit, (after address).toBitVec.getLsbD bit = (memory address).toBitVec.getLsbD bit ∨
        (after address).toBitVec.getLsbD bit =
          (memory.program start data address).toBitVec.getLsbD bit := by
  constructor
  · rintro ⟨residue, rfl⟩ address bit
    by_cases range : bit < 8
    · simp only [programPartly, UInt8.toBitVec_or, UInt8.toBitVec_and, UInt8.toBitVec_not,
        BitVec.getLsbD_or, BitVec.getLsbD_and, BitVec.getLsbD_not, range, decide_true,
        Bool.true_and]
      cases (residue address).toBitVec.getLsbD bit <;> simp
    · left
      rw [BitVec.getLsbD_of_ge _ _ (by omega), BitVec.getLsbD_of_ge _ _ (by omega)]
  · intro mixture
    refine ⟨fun address => ~~~ (after address ^^^ memory.program start data address), ?_⟩
    funext address
    apply UInt8.toBitVec_inj.mp
    apply BitVec.eq_of_getLsbD_eq
    intro bit range
    have either := mixture address bit
    simp only [programPartly, UInt8.toBitVec_or, UInt8.toBitVec_and, UInt8.toBitVec_not,
      UInt8.toBitVec_xor, BitVec.getLsbD_or, BitVec.getLsbD_and, BitVec.getLsbD_not,
      BitVec.getLsbD_xor, range, decide_true, Bool.true_and]
    revert either
    cases (after address).toBitVec.getLsbD bit <;>
      cases (memory address).toBitVec.getLsbD bit <;>
      cases (memory.program start data address).toBitVec.getLsbD bit <;> simp

end Memory

/-! ## Programs that drive the array -/

/-- What the environment lets the next operation do. The residue of a power loss
says what a cut erase leaves, or which bits a cut write has reached. -/
inductive Outcome (δ : Type) where
  | completes
  | fails (error : δ)
  | powerLoss (residue : Memory)

/-- The memory an operation with the given outcome leaves behind. -/
def Outcome.leaves {δ : Type} (outcome : Outcome δ) (effect : Memory → Memory)
    (cut : Memory → Memory → Memory) (memory : Memory) : Memory :=
  match outcome with
  | .completes => effect memory
  | .fails _ => memory
  | .powerLoss residue => cut memory residue

section Leaves

variable {δ : Type} (effect : Memory → Memory) (cut : Memory → Memory → Memory) (memory : Memory)

@[simp] theorem Outcome.leaves_fails (error : δ) :
    (Outcome.fails error).leaves effect cut memory = memory := rfl

@[simp] theorem Outcome.leaves_powerLoss (residue : Memory) :
    (Outcome.powerLoss residue : Outcome δ).leaves effect cut memory = cut memory residue := rfl

end Leaves

/-- A flash array together with the outcomes of the operations to come. -/
structure Device (δ : Type) where
  memory : Memory
  schedule : ℕ → Outcome δ

/-- Why a program ended early. -/
inductive Halt (ε : Type) where
  | error (error : ε)
  | powerLoss

/-- Programs over a device with errors `δ` that themselves fail with errors `ε`. -/
abbrev FlashM (δ ε : Type) := ExceptT (Halt ε) (StateM (Device δ))

variable {δ ε : Type}

/-- How an operation that does not complete ends the program. -/
def Outcome.halt (report : δ → ε) (outcome : Outcome δ) : Halt ε :=
  match outcome with
  | .fails error => .error (report error)
  | .completes | .powerLoss _ => .powerLoss

namespace Device

/-- The device once a number of operations have left the given memory. -/
def after (device : Device δ) (count : ℕ) (memory : Memory) : Device δ :=
  ⟨memory, fun index => device.schedule (count + index)⟩

/-- The first operations complete and the one after them ends as given. -/
def StopsAt (device : Device δ) (count : ℕ) (outcome : Outcome δ) : Prop :=
  (∀ index < count, device.schedule index = .completes) ∧ device.schedule count = outcome

/-- Either the first operations all complete or one of them is the first not to. -/
theorem completes_or_stopsAt (device : Device δ) (bound : ℕ) :
    (∀ index < bound, device.schedule index = .completes) ∨
      ∃ count < bound, ∃ outcome, device.StopsAt count outcome ∧ outcome ≠ .completes := by
  induction bound with
  | zero => exact Or.inl fun index below => (Nat.not_lt_zero index below).elim
  | succ bound ih =>
      rcases ih with completes | ⟨count, below, stopped⟩
      · by_cases last : device.schedule bound = .completes
        · left
          intro index below
          rcases Nat.lt_succ_iff_lt_or_eq.mp below with earlier | rfl
          · exact completes index earlier
          · exact last
        · exact Or.inr ⟨bound, Nat.lt_succ_self bound, _, ⟨completes, rfl⟩, last⟩
      · exact Or.inr ⟨count, Nat.lt_succ_of_lt below, stopped⟩

/-- A device on which every operation completes. -/
def faultless (memory : Memory) : Device δ := ⟨memory, fun _ => .completes⟩

theorem after_zero (device : Device δ) : device.after 0 device.memory = device := by
  simp only [after, Nat.zero_add]

@[simp] theorem after_memory (device : Device δ) (count : ℕ) (memory : Memory) :
    (device.after count memory).memory = memory := rfl

theorem after_after (device : Device δ) (first second : ℕ) (memory next : Memory) :
    (device.after first memory).after second next = device.after (first + second) next := by
  simp only [after, Nat.add_assoc]

end Device

/-- One operation on the array: its answer and its effect when it completes, and
its effect when power is lost. -/
def operation {α : Type} (answer : Memory → α) (effect : Memory → Memory)
    (cut : Memory → Memory → Memory) : FlashM δ δ α := fun device =>
  match device.schedule 0 with
  | .completes => (.ok (answer device.memory), device.after 1 (effect device.memory))
  | .fails error => (.error (.error error), device.after 1 device.memory)
  | .powerLoss residue => (.error .powerLoss, device.after 1 (cut device.memory residue))

/-- Read a range of the array. -/
def read (address length : ℕ) : FlashM δ δ (Vector UInt8 length) :=
  operation (fun memory => memory.read address length) id fun memory _ => memory

/-- Erase a range of the array. -/
def erase (start stop : ℕ) : FlashM δ δ Unit :=
  operation (fun _ => ()) (fun memory => memory.erase start stop) fun memory residue =>
    memory.erasePartly start stop residue

/-- Program bytes into the array. -/
def write (start : ℕ) (data : List UInt8) : FlashM δ δ Unit :=
  operation (fun _ => ()) (fun memory => memory.program start data) fun memory residue =>
    memory.programPartly start data residue

/-- Report the device's errors as errors of the program. -/
def reportAs {α : Type} (report : δ → ε) (action : FlashM δ δ α) : FlashM δ ε α := fun device =>
  match action device with
  | (.ok answer, after) => (.ok answer, after)
  | (.error (.error error), after) => (.error (.error (report error)), after)
  | (.error .powerLoss, after) => (.error .powerLoss, after)

section Rules

variable {α β : Type} {device after : Device δ}

/-- A step that returns hands its answer and its device to the rest. -/
theorem bind_ok {action : FlashM δ ε α} {rest : α → FlashM δ ε β} {answer : α}
    (returned : action device = (.ok answer, after)) :
    (action >>= rest) device = rest answer after := by
  change (StateT.bind action (ExceptT.bindCont rest)) device = _
  simp only [StateT.bind, returned]
  rfl

/-- A step that halts ends the program. -/
theorem bind_error {action : FlashM δ ε α} {rest : α → FlashM δ ε β} {halt : Halt ε}
    (halted : action device = (.error halt, after)) :
    (action >>= rest) device = (.error halt, after) := by
  change (StateT.bind action (ExceptT.bindCont rest)) device = _
  simp only [StateT.bind, halted]
  rfl

end Rules

section Operations

variable {α : Type} (answer : Memory → α) (effect : Memory → Memory)
  (cut : Memory → Memory → Memory) (report : δ → ε) {device : Device δ} (memory : Memory)
  {count : ℕ}

/-- An operation that completes answers and takes effect. -/
theorem operation_completes (completes : device.schedule count = .completes) :
    reportAs report (operation answer effect cut) (device.after count memory) =
      (.ok (answer memory), device.after (count + 1) (effect memory)) := by
  have next : (device.after count memory).schedule 0 = .completes := completes
  simp only [reportAs, operation, next, Device.after_after, Device.after_memory]

/-- An operation that does not complete ends the program. -/
theorem operation_stops (early : device.schedule count ≠ .completes) :
    reportAs report (operation answer effect cut) (device.after count memory) =
      (.error ((device.schedule count).halt report),
        device.after (count + 1) ((device.schedule count).leaves effect cut memory)) := by
  have next : (device.after count memory).schedule 0 = device.schedule count := rfl
  cases outcome : device.schedule count with
  | completes => exact (early outcome).elim
  | fails error =>
      rw [outcome] at next
      simp only [reportAs, operation, next, Device.after_after, Device.after_memory,
        Outcome.leaves, Outcome.halt]
  | powerLoss residue =>
      rw [outcome] at next
      simp only [reportAs, operation, next, Device.after_after, Device.after_memory,
        Outcome.leaves, Outcome.halt]

variable (address length : ℕ)

/-- A reading hands over the bytes and leaves the memory as it is. -/
theorem read_completes (completes : device.schedule count = .completes) :
    reportAs report (read address length) (device.after count memory) =
      (.ok (memory.read address length), device.after (count + 1) memory) :=
  operation_completes _ _ _ report memory completes

theorem read_stops (early : device.schedule count ≠ .completes) :
    reportAs report (read address length) (device.after count memory) =
      (.error ((device.schedule count).halt report), device.after (count + 1) memory) := by
  have unchanged : (device.schedule count).leaves id (fun memory _ => memory) memory = memory := by
    cases device.schedule count <;> rfl
  have stopped := operation_stops (fun memory => memory.read address length) id
    (fun memory _ => memory) report memory early
  rwa [unchanged] at stopped

end Operations

end NorFlash
