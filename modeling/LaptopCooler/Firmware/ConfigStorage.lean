import LaptopCooler.Firmware.Config
import LaptopCooler.Library.NorFlash
import LaptopCooler.Library.SerialRing

/-! # The configuration journal

The model of `src/config_storage.rs`. The partition holds six slots of one flash
sector each. Loading reads the slots in order and keeps the record of the newest
generation; saving erases the slot after that record's, writes the new record
and then its commit marker, and reads it back. What a load sees of the flash is
a ring of stamped records (`LaptopCooler.Firmware.ringOf`), and the newest of
them by the ring's scan is what loading finds
(`LaptopCooler.Firmware.loadLatest_completes`).
-/

namespace LaptopCooler.Firmware

open NorFlash SerialRing

def partitionOffset : ℕ := 0x9000
def partitionEnd : ℕ := 0xf000
def slotSize : ℕ := 4096

/-- The number of slots in the partition. -/
abbrev slotCount : ℕ := 6

theorem slotCount_eq : slotCount = (partitionEnd - partitionOffset) / slotSize := by decide

instance : NeZero slotCount := ⟨by decide⟩

inductive ConfigStorageError (FlashError : Type) where
  | flash (error : FlashError)
  | verificationFailed

structure StoredConfig where
  config : DeviceConfig
  generation : UInt32
  slot : Fin slotCount

def slotAddress (slot : Fin slotCount) : ℕ := partitionOffset + slot * slotSize

def generationIsNewer (candidate current : UInt32) : Bool :=
  candidate ≠ current && candidate - current < 0x80000000

variable {FlashError : Type}

/-- Programs on the flash that end early with a storage error. -/
abbrev Storage (FlashError : Type) := FlashM FlashError (ConfigStorageError FlashError)

/-- The turn of the scan on the record in a slot. -/
def considerRecord (latest : Option StoredConfig) (slot : Fin slotCount) (record : Record) :
    Option StoredConfig :=
  match decode record with
  | .error _ => latest
  | .ok (config, generation) =>
      if latest.all fun current => generationIsNewer generation current.generation then
        some ⟨config, generation, slot⟩
      else latest

def scanSlot (latest : Option StoredConfig) (slot : Fin slotCount) :
    Storage FlashError (Option StoredConfig) := do
  let record ← reportAs .flash (read (slotAddress slot) recordLen)
  return considerRecord latest slot record

def loadLatest : Storage FlashError (Option StoredConfig) :=
  (List.finRange slotCount).foldlM scanSlot none

def load : Storage FlashError (Option DeviceConfig) := do
  return (← loadLatest).map StoredConfig.config

/-- The slot and the generation of the next record; slots count modulo their number. -/
def nextRecord (latest : Option StoredConfig) : Fin slotCount × UInt32 :=
  match latest with
  | some stored => (stored.slot + 1, stored.generation + 1)
  | none => (0, 1)

/-- Erase the slot, write the record and its commit marker, and read them back. -/
def writeRecord (config : DeviceConfig) (slot : Fin slotCount) (generation : UInt32) :
    Storage FlashError Unit := do
  let address := slotAddress slot
  let record := (encode config generation).toList
  reportAs .flash (erase address (address + slotSize))
  reportAs .flash (write address (record.take commitOffset))
  reportAs .flash (write (address + commitOffset) (record.drop commitOffset))
  let written ← reportAs .flash (read address recordLen)
  match decode written with
  | .ok (storedConfig, storedGeneration) =>
      if storedConfig = config ∧ storedGeneration = generation then return ()
      else throw (.error .verificationFailed)
  | .error _ => throw (.error .verificationFailed)

def save (config : DeviceConfig) : Storage FlashError Unit := do
  let latest ← loadLatest
  writeRecord config (nextRecord latest).1 (nextRecord latest).2

/-! ## What a load sees -/

/-- The record a slot holds. -/
def slotRecord (memory : Memory) (slot : Fin slotCount) : Record :=
  memory.read (slotAddress slot) recordLen

/-- The stamp and the configuration in every slot that decodes. -/
def ringOf (memory : Memory) : Ring slotCount 32 DeviceConfig := fun slot =>
  match decode (slotRecord memory slot) with
  | .ok (config, generation) => some (generation.toBitVec, config)
  | .error _ => none

theorem ringOf_of_error {memory : Memory} {slot : Fin slotCount} {error : ConfigError}
    (decoded : decode (slotRecord memory slot) = .error error) : ringOf memory slot = none := by
  unfold ringOf
  rw [decoded]

theorem ringOf_of_ok {memory : Memory} {slot : Fin slotCount} {config : DeviceConfig}
    {generation : UInt32} (decoded : decode (slotRecord memory slot) = .ok (config, generation)) :
    ringOf memory slot = some (generation.toBitVec, config) := by
  unfold ringOf
  rw [decoded]

/-- The result of a scan over the slots. -/
def latestIn (memory : Memory) : Option StoredConfig :=
  (List.finRange slotCount).foldl (fun latest slot =>
    considerRecord latest slot (slotRecord memory slot)) none

section Loading

variable {device : Device FlashError} (memory : Memory) {count : ℕ}

/-- A read that completes has its slot considered. -/
theorem scanSlot_completes (latest : Option StoredConfig) (slot : Fin slotCount)
    (completes : device.schedule count = .completes) :
    scanSlot latest slot (device.after count memory) =
      (.ok (considerRecord latest slot (slotRecord memory slot)),
        device.after (count + 1) memory) :=
  bind_ok (read_completes _ _ _ _ completes)

/-- A read that does not complete ends the scan. -/
theorem scanSlot_stops (latest : Option StoredConfig) (slot : Fin slotCount)
    (early : device.schedule count ≠ .completes) :
    scanSlot latest slot (device.after count memory) =
      (.error ((device.schedule count).halt .flash), device.after (count + 1) memory) :=
  bind_error (read_stops ConfigStorageError.flash memory (slotAddress slot) recordLen early)

/-- A scan whose reads complete considers every slot. -/
private theorem scan_completes (slots : List (Fin slotCount)) (latest : Option StoredConfig)
    (completes : ∀ index, count ≤ index → index < count + slots.length →
      device.schedule index = .completes) :
    slots.foldlM scanSlot latest (device.after count memory) =
      (.ok (slots.foldl (fun latest slot =>
        considerRecord latest slot (slotRecord memory slot)) latest),
        device.after (count + slots.length) memory) := by
  induction slots generalizing latest count with
  | nil => rfl
  | cons slot rest ih =>
      rw [List.length_cons, Nat.add_comm rest.length, ← Nat.add_assoc] at completes ⊢
      rw [List.foldlM_cons, List.foldl_cons,
        bind_ok (scanSlot_completes memory latest slot (completes count le_rfl (by omega)))]
      exact ih _ fun index above below => completes index (by omega) below

/-- A scan ends at the first read that does not complete. -/
private theorem scan_stops (slots : List (Fin slotCount)) (latest : Option StoredConfig)
    {position : ℕ} (inside : position < slots.length)
    (completes : ∀ index, count ≤ index → index < count + position →
      device.schedule index = .completes)
    (early : device.schedule (count + position) ≠ .completes) :
    slots.foldlM scanSlot latest (device.after count memory) =
      (.error ((device.schedule (count + position)).halt .flash),
        device.after (count + position + 1) memory) := by
  induction slots generalizing latest count position with
  | nil => exact (Nat.not_lt_zero _ inside).elim
  | cons slot rest ih =>
      cases position with
      | zero =>
          rw [Nat.add_zero] at early ⊢
          rw [List.foldlM_cons, bind_error (scanSlot_stops memory latest slot early)]
      | succ position =>
          rw [Nat.add_comm position, ← Nat.add_assoc] at completes early ⊢
          rw [List.foldlM_cons,
            bind_ok (scanSlot_completes memory latest slot (completes count le_rfl (by omega)))]
          exact ih _ (Nat.lt_of_succ_lt_succ inside)
            (fun index above below => completes index (by omega) below) early

end Loading

/-- A load whose reads complete finds the newest record. -/
theorem loadLatest_completes {device : Device FlashError}
    (completes : ∀ index < slotCount, device.schedule index = .completes) :
    loadLatest device =
      (.ok (latestIn device.memory), device.after slotCount device.memory) := by
  have scanned := scan_completes device.memory (List.finRange slotCount) none (fun index _ below =>
    completes index (by rwa [Nat.zero_add, List.length_finRange] at below))
  rwa [Device.after_zero, List.length_finRange, Nat.zero_add] at scanned

/-- A load that a read stops leaves the memory as it is. -/
theorem loadLatest_stops {device : Device FlashError} {count : ℕ} (inside : count < slotCount)
    {outcome : Outcome FlashError} (stops : device.StopsAt count outcome)
    (early : outcome ≠ .completes) :
    loadLatest device =
      (.error (outcome.halt .flash), device.after (count + 1) device.memory) := by
  obtain ⟨completes, rfl⟩ := stops
  have stopped := scan_stops device.memory (List.finRange slotCount) none
    (by rwa [List.length_finRange])
    (fun index _ below => completes index (by rwa [Nat.zero_add] at below)) (by rwa [Nat.zero_add])
  rwa [Device.after_zero, Nat.zero_add] at stopped

/-! ## The scan is the ring's -/

/-- Generations are compared as serial numbers. -/
theorem generationIsNewer_iff (candidate current : UInt32) :
    generationIsNewer candidate current = true ↔
      SerialNumber.Newer candidate.toBitVec current.toBitVec := by
  have distinct : candidate ≠ current ↔ candidate.toBitVec ≠ current.toBitVec :=
    not_congr UInt32.toBitVec_inj.symm
  simp only [generationIsNewer, Bool.and_eq_true, decide_eq_true_eq, SerialNumber.Newer, distinct]
  exact and_congr_right fun _ => Iff.rfl

/-- The stored configuration of a ring entry. -/
def StoredConfig.ofEntry (entry : Entry slotCount 32 DeviceConfig) : StoredConfig :=
  ⟨entry.value, UInt32.ofBitVec entry.serial, entry.slot⟩

/-- One turn of the scan keeps the newer of two entries. -/
private theorem keepNewer_ofEntry (held : Option (Entry slotCount 32 DeviceConfig))
    (slot : Fin slotCount) (config : DeviceConfig) (generation : UInt32) :
    (SerialNumber.keepNewer Entry.serial held ⟨slot, generation.toBitVec, config⟩).map
        StoredConfig.ofEntry =
      if (held.map StoredConfig.ofEntry).all fun current =>
          generationIsNewer generation current.generation then
        some ⟨config, generation, slot⟩
      else held.map StoredConfig.ofEntry := by
  cases held with
  | none => rfl
  | some current =>
      have compared := generationIsNewer_iff generation (UInt32.ofBitVec current.serial)
      rw [Option.map_some, Option.all_some]
      by_cases newer : SerialNumber.Newer generation.toBitVec current.serial
      · rw [SerialNumber.keepNewer, if_pos newer]
        exact (if_pos (compared.mpr newer)).symm
      · rw [SerialNumber.keepNewer, if_neg newer]
        exact (if_neg fun wrong => newer (compared.mp wrong)).symm

/-- A scan of the slots is one of the ring. -/
private theorem foldl_considerRecord (memory : Memory) (slots : List (Fin slotCount))
    (held : Option (Entry slotCount 32 DeviceConfig)) :
    slots.foldl (fun latest slot => considerRecord latest slot (slotRecord memory slot))
        (held.map StoredConfig.ofEntry) =
      ((slots.filterMap fun slot => (ringOf memory slot).map fun record =>
        (⟨slot, record.1, record.2⟩ : Entry slotCount 32 DeviceConfig)).foldl
          (SerialNumber.keepNewer Entry.serial) held).map StoredConfig.ofEntry := by
  induction slots generalizing held with
  | nil => rfl
  | cons slot rest ih =>
      rw [List.foldl_cons, List.filterMap_cons]
      cases decoded : decode (slotRecord memory slot) with
      | error error =>
          have passed : considerRecord (held.map StoredConfig.ofEntry) slot
              (slotRecord memory slot) = held.map StoredConfig.ofEntry := by
            unfold considerRecord
            rw [decoded]
          rw [ringOf_of_error decoded, passed]
          exact ih held
      | ok stored =>
          obtain ⟨config, generation⟩ := stored
          have turn : considerRecord (held.map StoredConfig.ofEntry) slot
              (slotRecord memory slot) = (SerialNumber.keepNewer Entry.serial held
                ⟨slot, generation.toBitVec, config⟩).map StoredConfig.ofEntry := by
            unfold considerRecord
            rw [decoded, keepNewer_ofEntry]
          rw [ringOf_of_ok decoded, turn]
          exact ih _

/-- **Loading is the ring's scan.** -/
theorem latestIn_eq (memory : Memory) :
    latestIn memory = (latest (ringOf memory)).map StoredConfig.ofEntry :=
  foldl_considerRecord memory (List.finRange slotCount) none

/-- The next record is for the ring's next position. -/
theorem nextRecord_ofEntry (newest : Option (Entry slotCount 32 DeviceConfig)) :
    nextRecord (newest.map StoredConfig.ofEntry) =
      ((nextPosition newest).1, UInt32.ofBitVec (nextPosition newest).2) := by
  cases newest <;> rfl

end LaptopCooler.Firmware
