import LaptopCooler.Firmware.ConfigStorage

/-! # The stages of a save

A save makes ten operations: six reads, the erase, the write of the record's body,
the write of its commit marker and the read that verifies it. This module says
what the memory is after each of them and after one that fails or is cut short.
Every stage touches the one slot only (`LaptopCooler.Firmware.ringOf_eq_update`);
before the commit marker is written the slot does not decode
(`LaptopCooler.Firmware.rejected_of_unmarked`), and with the whole marker it
holds the encoded record (`LaptopCooler.Firmware.slotRecord_of_marked`).
-/

namespace LaptopCooler.Firmware

open NorFlash SerialRing ByteRecord

variable {FlashError : Type}

/-- The slot and the generation a save on this memory uses. -/
def target (memory : Memory) : Fin slotCount × UInt32 := nextRecord (latestIn memory)

/-- The record a save on this memory writes. -/
def newRecord (config : DeviceConfig) (memory : Memory) : Record :=
  encode config (target memory).2

def eraseSlot (slot : Fin slotCount) (memory : Memory) : Memory :=
  memory.erase (slotAddress slot) (slotAddress slot + slotSize)

def cutErase (slot : Fin slotCount) (memory residue : Memory) : Memory :=
  memory.erasePartly (slotAddress slot) (slotAddress slot + slotSize) residue

def writeBody (slot : Fin slotCount) (record : Record) (memory : Memory) : Memory :=
  memory.program (slotAddress slot) (record.toList.take commitOffset)

def cutBody (slot : Fin slotCount) (record : Record) (memory residue : Memory) : Memory :=
  memory.programPartly (slotAddress slot) (record.toList.take commitOffset) residue

def writeMarker (slot : Fin slotCount) (record : Record) (memory : Memory) : Memory :=
  memory.program (slotAddress slot + commitOffset) (record.toList.drop commitOffset)

def cutMarker (slot : Fin slotCount) (record : Record) (memory residue : Memory) : Memory :=
  memory.programPartly (slotAddress slot + commitOffset) (record.toList.drop commitOffset) residue

/-! ## Where the memory changes -/

/-- The memories agree outside the slot. -/
def AgreeOutside (slot : Fin slotCount) (memory other : Memory) : Prop :=
  ∀ address, address < slotAddress slot ∨ slotAddress slot + slotSize ≤ address →
    memory address = other address

theorem AgreeOutside.refl (slot : Fin slotCount) (memory : Memory) :
    AgreeOutside slot memory memory := fun _ _ => rfl

theorem AgreeOutside.trans {slot : Fin slotCount} {first second third : Memory}
    (left : AgreeOutside slot first second) (right : AgreeOutside slot second third) :
    AgreeOutside slot first third :=
  fun address outside => (left address outside).trans (right address outside)

/-- An operation that stays in the slot does so however it ends. -/
theorem AgreeOutside.leaves {slot : Fin slotCount} {effect : Memory → Memory}
    {cut : Memory → Memory → Memory} {memory : Memory} (outcome : Outcome FlashError)
    (whole : AgreeOutside slot (effect memory) memory)
    (partly : ∀ residue, AgreeOutside slot (cut memory residue) memory) :
    AgreeOutside slot (outcome.leaves effect cut memory) memory := by
  cases outcome with
  | completes => exact whole
  | fails error => exact AgreeOutside.refl slot memory
  | powerLoss residue => exact partly residue

section Stages

variable (slot : Fin slotCount) (record : Record) (memory residue : Memory)

/-- The erase stays in the slot. -/
theorem agreeOutside_eraseSlot : AgreeOutside slot (eraseSlot slot memory) memory :=
  fun _ outside => Memory.erase_outside outside

/-- So does an erase that is cut short. -/
theorem agreeOutside_cutErase : AgreeOutside slot (cutErase slot memory residue) memory :=
  fun _ outside => Memory.erasePartly_outside residue outside

private theorem body_length : (record.toList.take commitOffset).length = commitOffset := by
  rw [List.length_take, Vector.length_toList]
  rfl

private theorem marker_length : (record.toList.drop commitOffset).length = 4 := by
  rw [List.length_drop, Vector.length_toList]
  rfl

/-- The write of the body stays in the slot. -/
theorem agreeOutside_writeBody : AgreeOutside slot (writeBody slot record memory) memory := by
  intro address outside
  apply Memory.program_outside
  rw [body_length]
  simp only [slotSize, commitOffset] at *
  omega

/-- So does a write of the body that is cut short. -/
theorem agreeOutside_cutBody : AgreeOutside slot (cutBody slot record memory residue) memory := by
  intro address outside
  apply Memory.programPartly_outside
  rw [body_length]
  simp only [slotSize, commitOffset] at *
  omega

/-- The write of the marker stays in the slot. -/
theorem agreeOutside_writeMarker : AgreeOutside slot (writeMarker slot record memory) memory := by
  intro address outside
  apply Memory.program_outside
  rw [marker_length]
  simp only [slotSize, commitOffset] at *
  omega

/-- So does a write of the marker that is cut short. -/
theorem agreeOutside_cutMarker :
    AgreeOutside slot (cutMarker slot record memory residue) memory := by
  intro address outside
  apply Memory.programPartly_outside
  rw [marker_length]
  simp only [slotSize, commitOffset] at *
  omega

end Stages

/-- A change in one slot is seen in that slot of the ring only. -/
theorem ringOf_eq_update {slot : Fin slotCount} {after memory : Memory}
    (agree : AgreeOutside slot after memory) :
    ringOf after = Function.update (ringOf memory) slot (ringOf after slot) := by
  funext other
  by_cases same : other = slot
  · rw [same, Function.update_self]
  · have apart : slotRecord after other = slotRecord memory other := by
      apply Memory.read_congr
      intro index below
      apply agree
      have distinct : other.val ≠ slot.val := fun equal => same (Fin.ext equal)
      simp only [slotAddress, partitionOffset, slotSize, recordLen] at *
      omega
    rw [Function.update_of_ne same]
    unfold ringOf
    rw [apart]

/-! ## What the slot holds -/

/-- The slot's commit marker is whole. -/
def Marked (slot : Fin slotCount) (memory : Memory) : Prop :=
  field (slotRecord memory slot) commitOffset 4 = commitMarker

/-- Decoding rejects the slot. -/
def Rejected (slot : Fin slotCount) (memory : Memory) : Prop :=
  ∃ error, decode (slotRecord memory slot) = .error error

/-- A slot that is rejected is empty in the ring. -/
theorem ringOf_of_rejected {slot : Fin slotCount} {memory : Memory}
    (rejected : Rejected slot memory) : ringOf memory slot = none := by
  obtain ⟨error, decoded⟩ := rejected
  exact ringOf_of_error decoded

/-- Without a whole marker the slot does not decode. -/
theorem rejected_of_unmarked {slot : Fin slotCount} {memory : Memory}
    (unmarked : ¬ Marked slot memory) : Rejected slot memory := by
  cases decoded : decode (slotRecord memory slot) with
  | error error => exact ⟨error, decoded⟩
  | ok stored => exact (decode_of_uncommitted unmarked stored.1 stored.2 decoded).elim

/-- A record is the bytes from the start of its slot. -/
theorem slotRecord_getElem (memory : Memory) (slot : Fin slotCount) {index : ℕ}
    (inside : index < recordLen) :
    (slotRecord memory slot)[index] = memory (slotAddress slot + index) :=
  Memory.read_getElem _ _ _ inside

/-- A whole marker has programmed its first byte. -/
theorem not_marked_of_erased {slot : Fin slotCount} {memory : Memory}
    (erased : memory (slotAddress slot + commitOffset) = 0xff) : ¬ Marked slot memory := by
  intro marked
  have read := getElem?_field (slotRecord memory slot) commitOffset (show 0 < 4 by decide)
  rw [marked, Nat.add_zero, Vector.getElem?_eq_getElem (show commitOffset < recordLen by decide),
    slotRecord_getElem, erased] at read
  exact absurd (Option.some.inj read) (by decide)

section Stages

variable (slot : Fin slotCount) (record : Record) (memory residue : Memory)

/-- An erased slot is all ones. -/
theorem eraseSlot_inside {index : ℕ} (inside : index < slotSize) :
    eraseSlot slot memory (slotAddress slot + index) = 0xff :=
  Memory.erase_inside ⟨Nat.le_add_right _ _, Nat.add_lt_add_left inside _⟩

private theorem commitOffset_lt : commitOffset < slotSize := by decide

/-- Before the marker is written the slot is not marked. -/
theorem not_marked_eraseSlot : ¬ Marked slot (eraseSlot slot memory) :=
  not_marked_of_erased (eraseSlot_inside slot memory commitOffset_lt)

/-- The write of the body leaves the marker erased. -/
private theorem writeBody_above {index : ℕ} (above : commitOffset ≤ index)
    (inside : index < slotSize) :
    writeBody slot record (eraseSlot slot memory) (slotAddress slot + index) = 0xff := by
  rw [writeBody, Memory.program_outside (by rw [body_length]; omega)]
  exact eraseSlot_inside slot memory inside

/-- With the body alone the slot is not marked. -/
theorem not_marked_writeBody : ¬ Marked slot (writeBody slot record (eraseSlot slot memory)) :=
  not_marked_of_erased (writeBody_above slot record memory le_rfl commitOffset_lt)

/-- Nor is it with a part of the body. -/
theorem not_marked_cutBody :
    ¬ Marked slot (cutBody slot record (eraseSlot slot memory) residue) := by
  apply not_marked_of_erased
  rw [cutBody, Memory.programPartly_outside residue (by rw [body_length]; omega)]
  exact eraseSlot_inside slot memory commitOffset_lt

/-- The body's bytes once it is written, also through writes of the marker. -/
private theorem body_stored {after : Memory}
    (kept : ∀ index < commitOffset, after (slotAddress slot + index) =
      writeBody slot record (eraseSlot slot memory) (slotAddress slot + index))
    {index : ℕ} (inside : index < recordLen) (below : index < commitOffset) :
    (slotRecord after slot)[index] = record[index] := by
  have room : index < (record.toList.take commitOffset).length := by rwa [body_length]
  rw [slotRecord_getElem, kept index below, writeBody, Memory.program_erased room
      (eraseSlot_inside slot memory (Nat.lt_trans below commitOffset_lt)),
    List.getElem_take, Vector.getElem_toList]

/-- **A whole save stores the record.** -/
theorem slotRecord_committed :
    slotRecord (writeMarker slot record (writeBody slot record (eraseSlot slot memory))) slot =
      record := by
  apply Vector.ext
  intro index inside
  rcases Nat.lt_or_ge index commitOffset with below | above
  · apply body_stored slot record memory _ inside below
    intro index below
    rw [writeMarker, Memory.program_outside (Or.inl (by omega))]
  · obtain ⟨rest, rfl⟩ := Nat.exists_eq_add_of_le above
    have room : rest < (record.toList.drop commitOffset).length := by
      rw [marker_length]
      simp only [commitOffset, recordLen] at inside
      omega
    have erased := writeBody_above slot record memory above (Nat.lt_trans inside (by decide))
    rw [← Nat.add_assoc] at erased
    rw [slotRecord_getElem, writeMarker, ← Nat.add_assoc, Memory.program_erased room erased,
      List.getElem_drop, Vector.getElem_toList]

/-- **A whole marker completes the record**, even if its write was cut. -/
theorem slotRecord_of_marked (marker : field record commitOffset 4 = commitMarker)
    (marked : Marked slot
      (cutMarker slot record (writeBody slot record (eraseSlot slot memory)) residue)) :
    slotRecord (cutMarker slot record (writeBody slot record (eraseSlot slot memory)) residue)
      slot = record := by
  apply Vector.ext
  intro index inside
  rcases Nat.lt_or_ge index commitOffset with below | above
  · apply body_stored slot record memory _ inside below
    intro index below
    rw [cutMarker, Memory.programPartly_outside residue (Or.inl (by omega))]
  · obtain ⟨rest, rfl⟩ := Nat.exists_eq_add_of_le above
    have room : rest < 4 := by
      simp only [commitOffset, recordLen] at inside
      omega
    apply Option.some.inj
    rw [← Vector.getElem?_eq_getElem, ← Vector.getElem?_eq_getElem,
      ← getElem?_field _ commitOffset room, ← getElem?_field _ commitOffset room, marker]
    exact congrArg (·[rest]?) marked

end Stages

/-! ## The run of a save -/

/-- The memory once the record is committed. -/
def committed (config : DeviceConfig) (memory : Memory) : Memory :=
  writeMarker (target memory).1 (newRecord config memory)
    (writeBody (target memory).1 (newRecord config memory) (eraseSlot (target memory).1 memory))

section Run

variable {config : DeviceConfig} {device : Device FlashError} {outcome : Outcome FlashError}

/-- Once its reads have completed a save writes the record. -/
theorem save_of_loaded (completes : ∀ index < slotCount, device.schedule index = .completes) :
    save config device =
      writeRecord config (target device.memory).1 (target device.memory).2
        (device.after slotCount device.memory) :=
  bind_ok (loadLatest_completes completes)

/-- A save stopped while loading leaves the memory as it is. -/
theorem save_stops_loading {count : ℕ} (inside : count < slotCount)
    (stops : device.StopsAt count outcome) (early : outcome ≠ .completes) :
    ∃ after, save config device = (.error (outcome.halt .flash), after) ∧
      after.memory = device.memory :=
  ⟨_, bind_error (loadLatest_stops inside stops early), rfl⟩

private theorem erases (completes : device.schedule 6 = .completes) (slot : Fin slotCount) :
    reportAs ConfigStorageError.flash (erase (slotAddress slot) (slotAddress slot + slotSize))
        (device.after 6 device.memory) = (.ok (), device.after 7 (eraseSlot slot device.memory)) :=
  operation_completes _ _ _ _ _ completes

private theorem writesBody (completes : device.schedule 7 = .completes) (slot : Fin slotCount)
    (record : Record) (memory : Memory) :
    reportAs ConfigStorageError.flash
        (write (slotAddress slot) (record.toList.take commitOffset)) (device.after 7 memory) =
      (.ok (), device.after 8 (writeBody slot record memory)) :=
  operation_completes _ _ _ _ _ completes

private theorem writesMarker (completes : device.schedule 8 = .completes) (slot : Fin slotCount)
    (record : Record) (memory : Memory) :
    reportAs ConfigStorageError.flash
        (write (slotAddress slot + commitOffset) (record.toList.drop commitOffset))
        (device.after 8 memory) = (.ok (), device.after 9 (writeMarker slot record memory)) :=
  operation_completes _ _ _ _ _ completes

/-- A save stopped at its erase. -/
theorem save_stops_erasing (stops : device.StopsAt 6 outcome) (early : outcome ≠ .completes) :
    ∃ after, save config device = (.error (outcome.halt .flash), after) ∧
      after.memory = outcome.leaves (eraseSlot (target device.memory).1)
        (cutErase (target device.memory).1) device.memory := by
  obtain ⟨completes, rfl⟩ := stops
  have halted := operation_stops (fun _ => ()) (eraseSlot (target device.memory).1)
    (cutErase (target device.memory).1) ConfigStorageError.flash device.memory early
  rw [save_of_loaded completes]
  exact ⟨_, bind_error halted, rfl⟩

/-- A save stopped at the write of the body. -/
theorem save_stops_writing (stops : device.StopsAt 7 outcome) (early : outcome ≠ .completes) :
    ∃ after, save config device = (.error (outcome.halt .flash), after) ∧
      after.memory = outcome.leaves
        (writeBody (target device.memory).1 (newRecord config device.memory))
        (cutBody (target device.memory).1 (newRecord config device.memory))
        (eraseSlot (target device.memory).1 device.memory) := by
  obtain ⟨completes, rfl⟩ := stops
  have halted := operation_stops (fun _ => ())
    (writeBody (target device.memory).1 (newRecord config device.memory))
    (cutBody (target device.memory).1 (newRecord config device.memory)) ConfigStorageError.flash
    (eraseSlot (target device.memory).1 device.memory) early
  rw [save_of_loaded fun index below => completes index (Nat.lt_trans below (by decide))]
  exact ⟨_, (bind_ok (erases (completes 6 (by decide)) _)).trans (bind_error halted), rfl⟩

/-- A save stopped at the write of the commit marker. -/
theorem save_stops_committing (stops : device.StopsAt 8 outcome) (early : outcome ≠ .completes) :
    ∃ after, save config device = (.error (outcome.halt .flash), after) ∧
      after.memory = outcome.leaves
        (writeMarker (target device.memory).1 (newRecord config device.memory))
        (cutMarker (target device.memory).1 (newRecord config device.memory))
        (writeBody (target device.memory).1 (newRecord config device.memory)
          (eraseSlot (target device.memory).1 device.memory)) := by
  obtain ⟨completes, rfl⟩ := stops
  have halted := operation_stops (fun _ => ())
    (writeMarker (target device.memory).1 (newRecord config device.memory))
    (cutMarker (target device.memory).1 (newRecord config device.memory)) ConfigStorageError.flash
    (writeBody (target device.memory).1 (newRecord config device.memory)
      (eraseSlot (target device.memory).1 device.memory)) early
  rw [save_of_loaded fun index below => completes index (Nat.lt_trans below (by decide))]
  refine ⟨device.after 9 _, ?_, rfl⟩
  apply (bind_ok (erases (completes 6 (by decide)) _)).trans
  apply (bind_ok (writesBody (completes 7 (by decide)) _ _ _)).trans
  exact bind_error halted

/-- A save stopped at the verification has committed. -/
theorem save_stops_verifying (stops : device.StopsAt 9 outcome) (early : outcome ≠ .completes) :
    ∃ after, save config device = (.error (outcome.halt .flash), after) ∧
      after.memory = committed config device.memory := by
  obtain ⟨completes, rfl⟩ := stops
  have halted := read_stops ConfigStorageError.flash (committed config device.memory)
    (slotAddress (target device.memory).1) recordLen early
  rw [save_of_loaded fun index below => completes index (Nat.lt_trans below (by decide))]
  refine ⟨device.after 10 (committed config device.memory), ?_, rfl⟩
  apply (bind_ok (erases (completes 6 (by decide)) _)).trans
  apply (bind_ok (writesBody (completes 7 (by decide)) _ _ _)).trans
  apply (bind_ok (writesMarker (completes 8 (by decide)) _ _ _)).trans
  exact bind_error halted

/-- **A save whose operations complete succeeds.** -/
theorem save_completes (valid : config.Valid)
    (completes : ∀ index < 10, device.schedule index = .completes) :
    ∃ after, save config device = (.ok (), after) ∧
      after.memory = committed config device.memory := by
  have verified : decode ((committed config device.memory).read
      (slotAddress (target device.memory).1) recordLen) =
        .ok (config, (target device.memory).2) := by
    rw [show (committed config device.memory).read (slotAddress (target device.memory).1)
      recordLen = newRecord config device.memory from slotRecord_committed _ _ _]
    exact decode_encode config _ valid
  rw [save_of_loaded fun index below => completes index (Nat.lt_trans below (by decide))]
  refine ⟨device.after 10 (committed config device.memory), ?_, rfl⟩
  apply (bind_ok (erases (completes 6 (by decide)) _)).trans
  apply (bind_ok (writesBody (completes 7 (by decide)) _ _ _)).trans
  apply (bind_ok (writesMarker (completes 8 (by decide)) _ _ _)).trans
  apply (bind_ok (read_completes _ _ _ _ (completes 9 (by decide)))).trans
  unfold committed newRecord at verified
  rw [verified]
  exact congrFun (if_pos ⟨rfl, rfl⟩) _

/-- The memory that a save leaves behind. -/
def memoryAfter (config : DeviceConfig) (device : Device FlashError) : Memory :=
  (save config device).2.memory

/-- A save that stops leaves what its last stage has left. -/
theorem memoryAfter_of_error {left : Memory}
    (run : ∃ after, save config device = (.error (outcome.halt .flash), after) ∧
      after.memory = left) :
    memoryAfter config device = left := by
  obtain ⟨after, ran, rfl⟩ := run
  rw [memoryAfter, ran]

/-- A save whose operations complete commits the record. -/
theorem memoryAfter_of_completes (valid : config.Valid)
    (completes : ∀ index < 10, device.schedule index = .completes) :
    memoryAfter config device = committed config device.memory := by
  obtain ⟨after, ran, left⟩ := save_completes valid completes
  rw [memoryAfter, ran, left]

/-- The operations of a save: it completes, stops while loading, or stops at one
of the four operations on its slot. -/
theorem save_stages (device : Device FlashError) :
    (∀ index < 10, device.schedule index = .completes) ∨
      ∃ count outcome, device.StopsAt count outcome ∧ outcome ≠ .completes ∧
        (count < slotCount ∨ count = 6 ∨ count = 7 ∨ count = 8 ∨ count = 9) := by
  rcases device.completes_or_stopsAt 10 with completes | ⟨count, below, outcome, stops, early⟩
  · exact Or.inl completes
  · refine Or.inr ⟨count, outcome, stops, early, ?_⟩
    change count < 6 ∨ _
    omega

/-- The erase and the write of the body stay in the slot. -/
private theorem agreeOutside_body (slot : Fin slotCount) (record : Record) (memory : Memory) :
    AgreeOutside slot (writeBody slot record (eraseSlot slot memory)) memory :=
  (agreeOutside_writeBody _ _ _).trans (agreeOutside_eraseSlot _ _)

/-- **A save touches its slot only**, wherever it stops. -/
theorem save_agreeOutside (valid : config.Valid) (device : Device FlashError) :
    AgreeOutside (target device.memory).1 (memoryAfter config device) device.memory := by
  rcases save_stages device with completes | ⟨count, outcome, stops, early, stage⟩
  · rw [memoryAfter_of_completes valid completes]
    exact (agreeOutside_writeMarker _ _ _).trans (agreeOutside_body _ _ _)
  rcases stage with inside | rfl | rfl | rfl | rfl
  · rw [memoryAfter_of_error (save_stops_loading inside stops early)]
    exact AgreeOutside.refl _ _
  · rw [memoryAfter_of_error (save_stops_erasing stops early)]
    exact AgreeOutside.leaves outcome (agreeOutside_eraseSlot _ _)
      fun residue => agreeOutside_cutErase _ _ residue
  · rw [memoryAfter_of_error (save_stops_writing stops early)]
    refine AgreeOutside.trans ?_ (agreeOutside_eraseSlot _ _)
    exact AgreeOutside.leaves outcome (agreeOutside_writeBody _ _ _)
      fun residue => agreeOutside_cutBody _ _ _ residue
  · rw [memoryAfter_of_error (save_stops_committing stops early)]
    refine AgreeOutside.trans ?_ (agreeOutside_body _ (newRecord config device.memory) _)
    exact AgreeOutside.leaves outcome (agreeOutside_writeMarker _ _ _)
      fun residue => agreeOutside_cutMarker _ _ _ residue
  · rw [memoryAfter_of_error (save_stops_verifying stops early)]
    exact (agreeOutside_writeMarker _ _ _).trans (agreeOutside_body _ _ _)

/-- A save stopped at the body leaves its slot without a marker. -/
theorem not_marked_stops_writing (stops : device.StopsAt 7 outcome)
    (early : outcome ≠ .completes) :
    ¬ Marked (target device.memory).1 (memoryAfter config device) := by
  rw [memoryAfter_of_error (save_stops_writing stops early)]
  cases outcome with
  | completes => exact (early rfl).elim
  | fails error =>
      rw [Outcome.leaves_fails]
      exact not_marked_eraseSlot _ _
  | powerLoss residue =>
      rw [Outcome.leaves_powerLoss]
      exact not_marked_cutBody _ _ _ residue

/-- A save stopped at the commit has stored the record if the marker is whole. -/
theorem slotRecord_stops_committing (valid : config.Valid) (stops : device.StopsAt 8 outcome)
    (early : outcome ≠ .completes)
    (whole : Marked (target device.memory).1 (memoryAfter config device)) :
    slotRecord (memoryAfter config device) (target device.memory).1 =
      newRecord config device.memory := by
  rw [memoryAfter_of_error (save_stops_committing stops early)] at whole ⊢
  cases outcome with
  | completes => exact (early rfl).elim
  | fails error =>
      rw [Outcome.leaves_fails] at whole
      exact (not_marked_writeBody _ _ _ whole).elim
  | powerLoss residue =>
      rw [Outcome.leaves_powerLoss] at whole ⊢
      exact slotRecord_of_marked _ _ _ residue (stores_encode _ _ valid).committed whole

end Run

end LaptopCooler.Firmware
