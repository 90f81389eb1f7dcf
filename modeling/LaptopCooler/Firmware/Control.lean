import LaptopCooler.Library.Fallible
import LaptopCooler.Library.SerialNumber
import LaptopCooler.Library.Text
import Mathlib.Data.Int.Interval

/-! # The firmware's fan control

The model of `src/control.rs`: the state the firmware keeps of the host's
commands, the acceptance of a packet and the duty the fan runs at. Times are
milliseconds since boot and never overflow 64 bits; truncated subtraction on
natural numbers is the source's saturating subtraction.
-/

namespace LaptopCooler.Firmware

open Fallible

def sampleTimeoutMillis : ℕ := 5000
def offlineCooldownMillis : ℕ := 60000
def minTemperatureMilliC : ℤ := 0
def maxTemperatureMilliC : ℤ := 120000
def minDutyPercent : ℕ := 20
def maxDutyPercent : ℕ := 100
def hardEmergencyTemperatureMilliC : ℤ := 90000
def offlineFanDutyPercent : ℕ := 0

structure ControlCommand where
  sequence : UInt32
  temperatureMilliC : ℤ
  requestedDutyPercent : ℕ
  deriving DecidableEq, Repr

inductive SampleError where
  | invalidUtf8
  | invalidShape
  | unsupportedVersion
  | invalidToken
  | invalidSequence
  | invalidTemperature
  | invalidDuty
  | outOfOrder
  deriving DecidableEq, Repr

structure HostState where
  lastSequence : Option UInt32
  lastUpdateMillis : Option ℕ
  temperatureMilliC : ℤ
  requestedDutyPercent : ℕ
  deriving DecidableEq, Repr

def sequenceIsNewer (candidate current : UInt32) : Bool :=
  candidate ≠ current && candidate - current < 0x80000000

def constantTimeEq (left right : List UInt8) : Bool :=
  if left.length ≠ right.length then false
  else
    let difference := (left.zip right).foldl (fun difference pair =>
      difference ||| (pair.1 ^^^ pair.2)) (0 : UInt8)
    difference == 0

/-- The fields of the packet are taken from the iterator one by one, so the
`k`-th call of `next` is the `k`-th field. -/
def parseCommand (expectedToken : String) (packet : List UInt8) :
    Except SampleError ControlCommand := do
  let packet ← okOr (Text.ofBytes? packet) .invalidUtf8
  let fields := Text.splitAsciiWhitespace packet
  if fields[0]? ≠ some "LC2" then throw .unsupportedVersion
  let token ← okOr fields[1]? .invalidShape
  if !constantTimeEq (Text.bytes token) (Text.bytes expectedToken) then throw .invalidToken
  let field ← okOr fields[2]? .invalidShape
  let sequence ← okOr (Text.parseUnsigned 4294967295 field) .invalidSequence
  let field ← okOr fields[3]? .invalidShape
  let temperatureMilliC ← okOr (Text.parseSigned (-2147483648) 2147483647 field) .invalidTemperature
  let field ← okOr fields[4]? .invalidShape
  let requestedDutyPercent ← okOr (Text.parseUnsigned 255 field) .invalidDuty
  if fields[5]?.isSome then throw .invalidShape
  if ¬ (minTemperatureMilliC ≤ temperatureMilliC ∧ temperatureMilliC ≤ maxTemperatureMilliC) then
    throw .invalidTemperature
  if ¬ (minDutyPercent ≤ requestedDutyPercent ∧ requestedDutyPercent ≤ maxDutyPercent) then
    throw .invalidDuty
  return ⟨UInt32.ofNat sequence, temperatureMilliC, requestedDutyPercent⟩

namespace HostState

def new : HostState := ⟨none, none, 0, offlineFanDutyPercent⟩

/-- Whether the last accepted packet is too old to order the next one. -/
def stale (state : HostState) (nowMillis : ℕ) : Bool :=
  state.lastUpdateMillis.all fun updated => nowMillis - updated > sampleTimeoutMillis

def accept (state : HostState) (expectedToken : String) (packet : List UInt8) (nowMillis : ℕ) :
    Except SampleError ControlCommand × HostState :=
  match parseCommand expectedToken packet with
  | .error error => (.error error, state)
  | .ok command =>
      if !state.stale nowMillis &&
          state.lastSequence.any (fun current => !sequenceIsNewer command.sequence current) then
        (.error .outOfOrder, state)
      else
        (.ok command,
          { lastSequence := some command.sequence
            lastUpdateMillis := some nowMillis
            temperatureMilliC := command.temperatureMilliC
            requestedDutyPercent := command.requestedDutyPercent })

def dutyPercent (state : HostState) (nowMillis : ℕ) : ℕ :=
  match state.lastUpdateMillis with
  | none => offlineFanDutyPercent
  | some updated =>
      if nowMillis - updated > offlineCooldownMillis then offlineFanDutyPercent
      else if state.temperatureMilliC ≥ hardEmergencyTemperatureMilliC then maxDutyPercent
      else state.requestedDutyPercent

end HostState

/-! ## The sequence comparison -/

/-- The source's comparison is the serial comparison of 32-bit numbers. -/
theorem sequenceIsNewer_iff (candidate current : UInt32) :
    sequenceIsNewer candidate current = true ↔
      SerialNumber.Newer candidate.toBitVec current.toBitVec := by
  have distinct : candidate ≠ current ↔ candidate.toBitVec ≠ current.toBitVec :=
    not_congr UInt32.toBitVec_inj.symm
  simp only [sequenceIsNewer, Bool.and_eq_true, decide_eq_true_eq, SerialNumber.Newer, distinct]
  exact and_congr_right fun _ => Iff.rfl

/-- How far a sequence number lies ahead of a base, modulo 2^32. -/
def sequenceOffset (base sequence : UInt32) : ℕ := (sequence - base).toNat

/-- Within 2^31 consecutive values the comparison is the order of the offsets. -/
theorem sequenceIsNewer_iff_offset_lt {base candidate current : UInt32}
    (candidateInside : sequenceOffset base candidate < 2 ^ 31)
    (currentInside : sequenceOffset base current < 2 ^ 31) :
    sequenceIsNewer candidate current = true ↔
      sequenceOffset base current < sequenceOffset base candidate := by
  rw [sequenceIsNewer_iff]
  exact SerialNumber.newer_iff_offset_lt base.toBitVec candidateInside currentInside

/-- The sequence number a given count of wrapping increments after the first. -/
def sequenceAfter (first : UInt32) (count : ℕ) : UInt32 := first + UInt32.ofNat count

theorem sequenceAfter_succ (first : UInt32) (count : ℕ) :
    sequenceAfter first (count + 1) = sequenceAfter first count + 1 := by
  rw [sequenceAfter, sequenceAfter, UInt32.ofNat_add, UInt32.add_assoc]
  rfl

/-- The wrapping successor is newer. -/
theorem sequenceIsNewer_succ (sequence : UInt32) :
    sequenceIsNewer (sequence + 1) sequence = true := by
  rw [sequenceIsNewer_iff]
  exact SerialNumber.newer_add_one (by decide) sequence.toBitVec

/-- Counting on from one first number, the comparison is the order of the counts. -/
theorem sequenceIsNewer_after_iff (first : UInt32) {candidate current : ℕ}
    (candidateSmall : candidate < 2 ^ 31) (currentSmall : current < 2 ^ 31) :
    sequenceIsNewer (sequenceAfter first candidate) (sequenceAfter first current) = true ↔
      current < candidate := by
  rw [sequenceIsNewer_iff]
  exact SerialNumber.newer_add_ofNat_iff first.toBitVec candidateSmall currentSmall

/-! ## The token comparison -/

private theorem foldl_difference_eq_zero (pairs : List (UInt8 × UInt8)) (start : UInt8) :
    pairs.foldl (fun difference pair => difference ||| (pair.1 ^^^ pair.2)) start = 0 ↔
      start = 0 ∧ ∀ pair ∈ pairs, pair.1 = pair.2 := by
  induction pairs generalizing start with
  | nil => simp
  | cons pair rest ih =>
      rw [List.foldl_cons, ih, UInt8.or_eq_zero_iff, UInt8.xor_eq_zero_iff]
      simp only [List.mem_cons, forall_eq_or_imp, and_assoc]

/-- **The constant-time comparison is equality.** -/
theorem constantTimeEq_iff (left right : List UInt8) :
    constantTimeEq left right = true ↔ left = right := by
  unfold constantTimeEq
  by_cases sized : left.length = right.length
  · simp only [sized, ne_eq, not_true_eq_false, ↓reduceIte, beq_iff_eq, foldl_difference_eq_zero,
      true_and]
    constructor
    · intro same
      apply List.ext_getElem sized
      intro index leftInside rightInside
      exact same (left[index], right[index])
        (List.mem_iff_getElem.mpr ⟨index, by simp [leftInside, rightInside], by simp⟩)
    · rintro rfl pair member
      obtain ⟨index, inside, rfl⟩ := List.mem_iff_getElem.mp member
      simp
  · simp only [sized, ne_eq, not_false_eq_true, ↓reduceIte, Bool.false_eq_true, false_iff]
    rintro rfl
    exact sized rfl

/-- Tokens are compared as strings. -/
theorem constantTimeEq_bytes (left right : String) :
    constantTimeEq (Text.bytes left) (Text.bytes right) = decide (left = right) := by
  rw [Bool.eq_iff_iff, constantTimeEq_iff, decide_eq_true_eq]
  exact Text.bytes_injective.eq_iff

/-! ## What a packet is accepted for -/

/-- The packet is an LC2 packet with the given token and an in-range command:
UTF-8 text of exactly five whitespace-separated fields. -/
structure Carries (token : String) (packet : List UInt8) (command : ControlCommand) : Prop where
  fields : ∃ text sequence temperature duty, Text.ofBytes? packet = some text ∧
    Text.splitAsciiWhitespace text = ["LC2", token, sequence, temperature, duty] ∧
    Text.parseUnsigned 4294967295 sequence = some command.sequence.toNat ∧
    Text.parseSigned (-2147483648) 2147483647 temperature = some command.temperatureMilliC ∧
    Text.parseUnsigned 255 duty = some command.requestedDutyPercent
  temperatureInRange : minTemperatureMilliC ≤ command.temperatureMilliC ∧
    command.temperatureMilliC ≤ maxTemperatureMilliC
  dutyInRange : minDutyPercent ≤ command.requestedDutyPercent ∧
    command.requestedDutyPercent ≤ maxDutyPercent

private theorem eq_five_fields {fields : List String} {version token sequence temperature duty :
    String} (first : fields[0]? = some version) (second : fields[1]? = some token)
    (third : fields[2]? = some sequence) (fourth : fields[3]? = some temperature)
    (fifth : fields[4]? = some duty) (ended : fields[5]? = none) :
    fields = [version, token, sequence, temperature, duty] := by
  match fields with
  | [] => simp at first
  | [_] => simp at second
  | [_, _] => simp at third
  | [_, _, _] => simp at fourth
  | [_, _, _, _] => simp at fifth
  | [_, _, _, _, _] => simp_all
  | _ :: _ :: _ :: _ :: _ :: _ :: _ => simp at ended

/-- **The checks of a packet with five readable fields**, in the order in which they are made:
the token, the temperature's range and the duty's range. -/
theorem parseCommand_of_fields {expectedToken token sequence temperature duty text : String}
    {packet : List UInt8} {sent requested : ℕ} {temperatureMilliC : ℤ}
    (decoded : Text.ofBytes? packet = some text)
    (fields : Text.splitAsciiWhitespace text = ["LC2", token, sequence, temperature, duty])
    (sequenceRead : Text.parseUnsigned 4294967295 sequence = some sent)
    (temperatureRead : Text.parseSigned (-2147483648) 2147483647 temperature =
      some temperatureMilliC)
    (dutyRead : Text.parseUnsigned 255 duty = some requested) :
    parseCommand expectedToken packet =
      if token ≠ expectedToken then .error .invalidToken
      else if ¬ (minTemperatureMilliC ≤ temperatureMilliC ∧
          temperatureMilliC ≤ maxTemperatureMilliC) then
        .error .invalidTemperature
      else if ¬ (minDutyPercent ≤ requested ∧ requested ≤ maxDutyPercent) then .error .invalidDuty
      else .ok ⟨UInt32.ofNat sent, temperatureMilliC, requested⟩ := by
  simp only [parseCommand, decoded, okOr_some, ok_bind, fields, List.getElem?_cons_zero,
    List.getElem?_cons_succ, List.getElem?_nil, Option.isSome_none, ne_eq, not_true_eq_false,
    ↓reduceIte, constantTimeEq_bytes, sequenceRead, temperatureRead, dutyRead, throw, throwThe,
    MonadExceptOf.throw, error_bind, Bool.false_eq_true, pure, Except.pure]
  by_cases authentic : token = expectedToken
  · simp [authentic]
  · simp [authentic]

/-- **The parser accepts exactly the packets that carry a command.** -/
theorem parseCommand_eq_ok_iff (token : String) (packet : List UInt8) (command : ControlCommand) :
    parseCommand token packet = .ok command ↔ Carries token packet command := by
  constructor
  · intro accepted
    simp only [parseCommand, bind_eq_ok_iff, okOr_eq_ok_iff, throw, throwThe, MonadExceptOf.throw,
      error_bind, guard_eq_ok_iff, constantTimeEq_bytes, pure, Except.pure,
      Except.ok.injEq] at accepted
    obtain ⟨text, decoded, version, sent, second, authentic, sequenceField, third, sequence,
      sequenceRead, temperatureField, fourth, temperature, temperatureRead, dutyField, fifth, duty,
      dutyRead, ended, temperatureInRange, dutyInRange, rfl⟩ := accepted
    have token_eq : sent = token := by simpa using authentic
    have bounded := Text.parseUnsigned_le sequenceRead
    refine ⟨⟨text, sequenceField, temperatureField, dutyField, decoded, ?_, ?_, temperatureRead,
      dutyRead⟩, not_not.mp temperatureInRange, not_not.mp dutyInRange⟩
    · exact eq_five_fields (not_not.mp version) (token_eq ▸ second) third fourth fifth
        (by simpa using ended)
    · rw [sequenceRead, UInt32.toNat_ofNat_of_lt' (by simp only [UInt32.size]; omega)]
  · rintro ⟨⟨text, sequence, temperature, duty, decoded, fields, sequenceRead, temperatureRead,
      dutyRead⟩, temperatureInRange, dutyInRange⟩
    rw [parseCommand_of_fields decoded fields sequenceRead temperatureRead dutyRead,
      if_neg (not_not.mpr rfl), if_neg (not_not.mpr temperatureInRange),
      if_neg (not_not.mpr dutyInRange), UInt32.ofNat_toNat]

/-! ## Acceptance -/

namespace HostState

/-- The state left by an accepted command. -/
def remembering (command : ControlCommand) (nowMillis : ℕ) : HostState where
  lastSequence := some command.sequence
  lastUpdateMillis := some nowMillis
  temperatureMilliC := command.temperatureMilliC
  requestedDutyPercent := command.requestedDutyPercent

/-- Whether the ordering rule lets a sequence number in. -/
def admits (state : HostState) (sequence : UInt32) (nowMillis : ℕ) : Bool :=
  state.stale nowMillis || state.lastSequence.all (sequenceIsNewer sequence)

theorem accept_of_error {token : String} {packet : List UInt8} {error : SampleError}
    (state : HostState) (nowMillis : ℕ) (rejected : parseCommand token packet = .error error) :
    state.accept token packet nowMillis = (.error error, state) := by
  rw [accept, rejected]

/-- A well-formed packet is accepted or rejected by the ordering rule alone. -/
theorem accept_of_carries {token : String} {packet : List UInt8} {command : ControlCommand}
    (state : HostState) (nowMillis : ℕ) (carries : Carries token packet command) :
    state.accept token packet nowMillis =
      if state.admits command.sequence nowMillis then
        (.ok command, remembering command nowMillis)
      else (.error .outOfOrder, state) := by
  have refused : (!state.stale nowMillis &&
      state.lastSequence.any fun current => !sequenceIsNewer command.sequence current) =
      !state.admits command.sequence nowMillis := by
    rw [admits, Bool.not_or]
    cases state.lastSequence <;> rfl
  rw [accept, (parseCommand_eq_ok_iff token packet command).mpr carries]
  simp only [refused]
  cases state.admits command.sequence nowMillis <;> rfl

/-- **One acceptance.** A packet changes the state only when it carries a command
and the ordering rule lets it in, and then the state remembers that command. -/
theorem accept_cases (state : HostState) (token : String) (packet : List UInt8) (nowMillis : ℕ) :
    (∃ command, Carries token packet command ∧ state.admits command.sequence nowMillis = true ∧
      state.accept token packet nowMillis = (.ok command, remembering command nowMillis)) ∨
    ∃ error, state.accept token packet nowMillis = (.error error, state) := by
  cases parsed : parseCommand token packet with
  | error error => exact Or.inr ⟨error, accept_of_error state nowMillis parsed⟩
  | ok command =>
      have carries := (parseCommand_eq_ok_iff token packet command).mp parsed
      have outcome := accept_of_carries state nowMillis carries
      by_cases admitted : state.admits command.sequence nowMillis = true
      · exact Or.inl ⟨command, carries, admitted, by rw [outcome, if_pos admitted]⟩
      · exact Or.inr ⟨.outOfOrder, by rw [outcome, if_neg admitted]⟩

@[simp] theorem admits_remembering (command : ControlCommand) (updated nowMillis : ℕ)
    (sequence : UInt32) :
    (remembering command updated).admits sequence nowMillis =
      (decide (updated + sampleTimeoutMillis < nowMillis) ||
        sequenceIsNewer sequence command.sequence) := by
  have old : nowMillis - updated > sampleTimeoutMillis ↔
      updated + sampleTimeoutMillis < nowMillis := by omega
  simp [admits, stale, remembering, old]

/-- The duty the fan runs at while a command is remembered. -/
theorem dutyPercent_remembering (command : ControlCommand) (updated nowMillis : ℕ) :
    (remembering command updated).dutyPercent nowMillis =
      if updated + offlineCooldownMillis < nowMillis then offlineFanDutyPercent
      else if hardEmergencyTemperatureMilliC ≤ command.temperatureMilliC then maxDutyPercent
      else command.requestedDutyPercent := by
  have old : nowMillis - updated > offlineCooldownMillis ↔
      updated + offlineCooldownMillis < nowMillis := by omega
  simp [dutyPercent, remembering, old]

end HostState

/-- A remembered command keeps the fan running during the cooldown. -/
theorem Carries.minDuty_le {token : String} {packet : List UInt8} {command : ControlCommand}
    (carries : Carries token packet command) {updated nowMillis : ℕ}
    (within : nowMillis ≤ updated + offlineCooldownMillis) :
    minDutyPercent ≤ (HostState.remembering command updated).dutyPercent nowMillis := by
  have running : ¬ updated + offlineCooldownMillis < nowMillis := by omega
  rw [HostState.dutyPercent_remembering, if_neg running]
  split
  · decide
  · exact carries.dutyInRange.1

end LaptopCooler.Firmware
