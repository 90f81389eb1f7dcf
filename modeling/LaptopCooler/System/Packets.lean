import LaptopCooler.Firmware.Control
import LaptopCooler.HostAgent.Heartbeat

/-! # Packets between the two programs

The packet the agent formats splits into the five fields the firmware expects,
so it carries the agent's command exactly when the command is in the firmware's
ranges (`LaptopCooler.System.carries_formatPacket_iff`).
-/

namespace LaptopCooler.System

open Firmware HostAgent Fallible

/-- A well-formed token is one field. -/
theorem isWord_of_wellFormedToken {token : String} (shaped : WellFormedToken token) :
    Text.IsWord token.toList := by
  constructor
  · intro empty
    obtain rfl : token = "" := String.toList_eq_nil_iff.mp empty
    have long := shaped.length_ge
    revert long
    decide
  · intro character member
    by_contra space
    simp only [Text.isAsciiWhitespace, Bool.not_eq_false, decide_eq_true_eq] at space
    have ascii : character.val ≤ 127 := by rcases space with rfl | rfl | rfl | rfl | rfl <;> decide
    have admitted := shaped.characters _ (Text.toUInt8_mem_bytes member ascii)
    rcases space with rfl | rfl | rfl | rfl | rfl <;>
      simp [HostAgent.isTokenByte, Text.isAsciiAlphanumeric] at admitted

private theorem isWord_magic : Text.IsWord "LC2".toList := by
  constructor
  · decide
  · simp [Text.isAsciiWhitespace]

theorem fields_formatPacket {token : String} (shaped : WellFormedToken token) (sequence : UInt32)
    (temperatureMilliC : ℤ) (duty : ℕ) :
    Text.splitAsciiWhitespace (formatPacket token sequence temperatureMilliC duty) =
      ["LC2", token, toString sequence.toNat, toString temperatureMilliC, toString duty] := by
  have spelled : formatPacket token sequence temperatureMilliC duty = String.ofList
      ([("LC2".toList, ' '), (token.toList, ' '), ((toString sequence.toNat).toList, ' '),
        ((toString temperatureMilliC).toList, ' '), ((toString duty).toList, '\n')].flatMap
          fun word => word.1 ++ [word.2]) := by
    apply String.toList_injective
    simp [formatPacket]
  rw [spelled, Text.splitAsciiWhitespace_words]
  · simp only [List.map_cons, List.map_nil, String.ofList_toList]
  · intro word member
    simp only [List.mem_cons, List.not_mem_nil, or_false] at member
    rcases member with rfl | rfl | rfl | rfl | rfl
    · exact ⟨isWord_magic, rfl⟩
    · exact ⟨isWord_of_wellFormedToken shaped, rfl⟩
    · exact ⟨Text.isWord_toString _, rfl⟩
    · exact ⟨Text.isWord_toString_int _, rfl⟩
    · exact ⟨Text.isWord_toString _, rfl⟩

private theorem parseUnsigned_sequence (sequence : UInt32) :
    Text.parseUnsigned 4294967295 (toString sequence.toNat) = some sequence.toNat := by
  apply Text.parseUnsigned_toString
  have := sequence.toNat_lt
  omega

/-- The outcome of parsing a formatted packet. -/
theorem parseCommand_formatPacket {token : String} (shaped : WellFormedToken token)
    (expectedToken : String) (sequence : UInt32) {temperatureMilliC : ℤ} {duty : ℕ}
    (temperatureFits : -2147483648 ≤ temperatureMilliC ∧ temperatureMilliC ≤ 2147483647)
    (dutyFits : duty ≤ 255) :
    parseCommand expectedToken
        (Text.bytes (formatPacket token sequence temperatureMilliC duty)) =
      if token ≠ expectedToken then .error .invalidToken
      else if ¬ (minTemperatureMilliC ≤ temperatureMilliC ∧
          temperatureMilliC ≤ maxTemperatureMilliC) then
        .error .invalidTemperature
      else if ¬ (Firmware.minDutyPercent ≤ duty ∧ duty ≤ Firmware.maxDutyPercent) then
        .error .invalidDuty
      else .ok ⟨sequence, temperatureMilliC, duty⟩ := by
  rw [parseCommand_of_fields (Text.ofBytes?_bytes _) (fields_formatPacket shaped _ _ _)
    (parseUnsigned_sequence sequence)
    (Text.parseSigned_toString temperatureFits.1 temperatureFits.2)
    (Text.parseUnsigned_toString dutyFits), UInt32.ofNat_toNat]

/-- **The firmware reads what the agent wrote.** A formatted packet carries exactly
its own command, if that is in the firmware's ranges. -/
theorem carries_formatPacket_iff {token : String} (shaped : WellFormedToken token)
    {sequence : UInt32} {temperatureMilliC : ℤ} {duty : ℕ}
    (temperatureFits : -2147483648 ≤ temperatureMilliC ∧ temperatureMilliC ≤ 2147483647)
    (dutyFits : duty ≤ 255) (command : ControlCommand) :
    Carries token (Text.bytes (formatPacket token sequence temperatureMilliC duty)) command ↔
      command = ⟨sequence, temperatureMilliC, duty⟩ ∧
        (minTemperatureMilliC ≤ temperatureMilliC ∧ temperatureMilliC ≤ maxTemperatureMilliC) ∧
        Firmware.minDutyPercent ≤ duty ∧ duty ≤ Firmware.maxDutyPercent := by
  rw [← parseCommand_eq_ok_iff,
    parseCommand_formatPacket shaped token sequence temperatureFits dutyFits,
    if_neg (not_not.mpr rfl), guard_eq_ok_iff, guard_eq_ok_iff, not_not, not_not, Except.ok.injEq]
  constructor
  · intro accepted
    obtain ⟨temperatureInRange, dutyInRange, read⟩ := accepted
    exact ⟨read.symm, temperatureInRange, dutyInRange⟩
  · intro formatted
    obtain ⟨read, temperatureInRange, dutyInRange⟩ := formatted
    exact ⟨temperatureInRange, dutyInRange, read.symm⟩

/-- **The parser inverts the formatter.** A packet formatted with another token than the
expected one is rejected for its token. With the expected token it is read as exactly the
numbers it was formatted from, if the temperature is from 0 to 120000 and the duty from 20 to
100, and otherwise it is rejected for one of them. -/
theorem formatted_packet_parsed {token expectedToken : String} (shaped : WellFormedToken token)
    (sequence : UInt32) {temperatureMilliC : ℤ} {duty : ℕ}
    (temperatureFits : -2147483648 ≤ temperatureMilliC ∧ temperatureMilliC ≤ 2147483647)
    (dutyFits : duty ≤ 255) :
    let parsed := parseCommand expectedToken
      (Text.bytes (formatPacket token sequence temperatureMilliC duty))
    let inRange :=
      (minTemperatureMilliC ≤ temperatureMilliC ∧ temperatureMilliC ≤ maxTemperatureMilliC) ∧
        Firmware.minDutyPercent ≤ duty ∧ duty ≤ Firmware.maxDutyPercent
    (expectedToken ≠ token → parsed = .error .invalidToken) ∧
      (expectedToken = token →
        (inRange → parsed = .ok ⟨sequence, temperatureMilliC, duty⟩) ∧
        (¬ inRange → parsed = .error .invalidTemperature ∨ parsed = .error .invalidDuty)) := by
  have outcome := parseCommand_formatPacket shaped expectedToken sequence temperatureFits dutyFits
  refine ⟨?_, ?_⟩
  · intro other
    exact outcome.trans (if_pos other.symm)
  · intro same
    rw [if_neg (not_not.mpr same.symm)] at outcome
    refine ⟨?_, ?_⟩
    · intro inRange
      obtain ⟨temperatureInRange, dutyInRange⟩ := inRange
      rw [if_neg (not_not.mpr temperatureInRange), if_neg (not_not.mpr dutyInRange)] at outcome
      exact outcome
    · intro outside
      by_cases temperatureInRange :
        minTemperatureMilliC ≤ temperatureMilliC ∧ temperatureMilliC ≤ maxTemperatureMilliC
      · have dutyOutside : ¬ (Firmware.minDutyPercent ≤ duty ∧ duty ≤ Firmware.maxDutyPercent) :=
          fun dutyInRange => outside ⟨temperatureInRange, dutyInRange⟩
        rw [if_neg (not_not.mpr temperatureInRange), if_pos dutyOutside] at outcome
        exact Or.inr outcome
      · rw [if_pos temperatureInRange] at outcome
        exact Or.inl outcome

/-- A packet of 61.5 degrees and 55 percent at a firmware with its token and at one with another. -/
theorem sample_packet_parsed :
    parseCommand "abcdefghijklmnop" (Text.bytes (formatPacket "abcdefghijklmnop" 7 61500 55)) =
        .ok ⟨7, 61500, 55⟩ ∧
      parseCommand "ponmlkjihgfedcba" (Text.bytes (formatPacket "abcdefghijklmnop" 7 61500 55)) =
        .error .invalidToken := by
  have shaped : WellFormedToken "abcdefghijklmnop" :=
    (parseConfig_admitted parseConfig_minimal).token
  have temperatureFits : -2147483648 ≤ (61500 : ℤ) ∧ (61500 : ℤ) ≤ 2147483647 := by decide
  have inRange : (minTemperatureMilliC ≤ 61500 ∧ 61500 ≤ maxTemperatureMilliC) ∧
      Firmware.minDutyPercent ≤ 55 ∧ 55 ≤ Firmware.maxDutyPercent := by decide
  exact ⟨((formatted_packet_parsed shaped 7 temperatureFits (by decide)).2 rfl).1 inRange,
    (formatted_packet_parsed shaped 7 temperatureFits (by decide)).1 (by decide)⟩

end LaptopCooler.System
