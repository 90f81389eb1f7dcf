import LaptopCooler.Firmware.SaveStages

/-! # Runs of the configuration journal

The flash goes through saves that complete, fail or are cut by a loss of power
at any of their operations, and through the loss of slots
(`LaptopCooler.Firmware.Reachable`). Beside the memory runs the journal: the
records committed and not erased or lost since, newest first. Every step keeps
the ring of the memory in step with it (`LaptopCooler.Firmware.Step.represents`),
so that loading returns the configuration committed last
(`LaptopCooler.Firmware.load_last_committed`).
-/

namespace LaptopCooler.Firmware

open NorFlash SerialRing

variable {FlashError : Type}

/-- The records committed and not erased or lost since, newest first, with their slots. -/
abbrev Journal := List (Fin slotCount × DeviceConfig)

/-- The journal once the slot's record is erased or lost. -/
def Journal.without (journal : Journal) (slot : Fin slotCount) : Journal :=
  journal.filter fun record => record.1 ≠ slot

/-- The journal once a record is committed in the slot. -/
def Journal.commit (journal : Journal) (slot : Fin slotCount) (config : DeviceConfig) : Journal :=
  (slot, config) :: journal.without slot

/-- The configuration committed last. -/
def Journal.newest (journal : Journal) : Option DeviceConfig := journal.head?.map Prod.snd

/-- What a save does to the records, by the operation it stops at. An erase that
stops leaves the old record or one that decoding rejects; a commit that stops
counts as a commit when its marker is whole. -/
inductive SaveRecords (config : DeviceConfig) (device : Device FlashError) (journal : Journal) :
    Journal → Prop where
  | saved (completes : ∀ index < 10, device.schedule index = .completes) :
      SaveRecords config device journal (journal.commit (target device.memory).1 config)
  | loading {count : ℕ} {outcome : Outcome FlashError} (inside : count < slotCount)
      (stops : device.StopsAt count outcome) (early : outcome ≠ .completes) :
      SaveRecords config device journal journal
  | eraseKept {outcome : Outcome FlashError} (stops : device.StopsAt 6 outcome)
      (early : outcome ≠ .completes)
      (kept : decode (slotRecord (memoryAfter config device) (target device.memory).1) =
        decode (slotRecord device.memory (target device.memory).1)) :
      SaveRecords config device journal journal
  | eraseTorn {outcome : Outcome FlashError} (stops : device.StopsAt 6 outcome)
      (early : outcome ≠ .completes)
      (torn : Rejected (target device.memory).1 (memoryAfter config device)) :
      SaveRecords config device journal (journal.without (target device.memory).1)
  | bodyStopped {outcome : Outcome FlashError} (stops : device.StopsAt 7 outcome)
      (early : outcome ≠ .completes) :
      SaveRecords config device journal (journal.without (target device.memory).1)
  | commitTorn {outcome : Outcome FlashError} (stops : device.StopsAt 8 outcome)
      (early : outcome ≠ .completes)
      (torn : ¬ Marked (target device.memory).1 (memoryAfter config device)) :
      SaveRecords config device journal (journal.without (target device.memory).1)
  | commitWhole {outcome : Outcome FlashError} (stops : device.StopsAt 8 outcome)
      (early : outcome ≠ .completes)
      (whole : Marked (target device.memory).1 (memoryAfter config device)) :
      SaveRecords config device journal (journal.commit (target device.memory).1 config)
  | unverified {outcome : Outcome FlashError} (stops : device.StopsAt 9 outcome)
      (early : outcome ≠ .completes) :
      SaveRecords config device journal (journal.commit (target device.memory).1 config)

/-- A step of the flash and its journal. -/
inductive Step (FlashError : Type) : Memory → Journal → Memory → Journal → Prop where
  | save {memory : Memory} {journal next : Journal} {config : DeviceConfig}
      (valid : config.Valid) (schedule : ℕ → Outcome FlashError)
      (records : SaveRecords config ⟨memory, schedule⟩ journal next) :
      Step FlashError memory journal (memoryAfter config ⟨memory, schedule⟩) next
  | lose {memory after : Memory} {journal : Journal} (slot : Fin slotCount)
      (agree : AgreeOutside slot after memory) (rejected : Rejected slot after) :
      Step FlashError memory journal after (journal.without slot)

/-- The states reached from a flash in which no slot decodes. -/
inductive Reachable (FlashError : Type) : Memory → Journal → Prop where
  | start {memory : Memory} (vacant : ∀ slot, Rejected slot memory) :
      Reachable FlashError memory []
  | step {memory after : Memory} {journal next : Journal}
      (reachable : Reachable FlashError memory journal)
      (step : Step FlashError memory journal after next) : Reachable FlashError after next

/-- What a load without faults returns. -/
def faultlessLoad (FlashError : Type) (memory : Memory) :
    Except (Halt (ConfigStorageError FlashError)) (Option DeviceConfig) :=
  (load (Device.faultless memory)).1

/-! ## Every save has its account -/

/-- Whatever the environment does to a save, its account covers it, as long as a
cut erase leaves the old record or one that decoding rejects. -/
theorem exists_saveRecords (config : DeviceConfig) (device : Device FlashError) (journal : Journal)
    (erases : decode (slotRecord (memoryAfter config device) (target device.memory).1) =
        decode (slotRecord device.memory (target device.memory).1) ∨
      Rejected (target device.memory).1 (memoryAfter config device) ∨
      ∀ residue, ¬ device.StopsAt 6 (.powerLoss residue)) :
    ∃ next, SaveRecords config device journal next := by
  rcases save_stages device with completes | ⟨count, outcome, stops, early, stage⟩
  · exact ⟨_, .saved completes⟩
  rcases stage with inside | rfl | rfl | rfl | rfl
  · exact ⟨_, .loading inside stops early⟩
  · rcases erases with kept | torn | powered
    · exact ⟨_, .eraseKept stops early kept⟩
    · exact ⟨_, .eraseTorn stops early torn⟩
    · have unchanged := memoryAfter_of_error (@save_stops_erasing _ config _ _ stops early)
      cases outcome with
      | completes => exact (early rfl).elim
      | fails error =>
          change memoryAfter config device = device.memory at unchanged
          exact ⟨_, .eraseKept stops early (by rw [unchanged])⟩
      | powerLoss residue => exact (powered residue stops).elim
  · exact ⟨_, .bodyStopped stops early⟩
  · by_cases whole : Marked (target device.memory).1 (memoryAfter config device)
    · exact ⟨_, .commitWhole stops early whole⟩
    · exact ⟨_, .commitTorn stops early whole⟩
  · exact ⟨_, .unverified stops early⟩

/-! ## The ring follows the journal -/

private theorem half : slotCount ≤ 2 ^ (32 - 1) := by decide

theorem target_eq (memory : Memory) :
    target memory = ((nextPosition (latest (ringOf memory))).1,
      UInt32.ofBitVec (nextPosition (latest (ringOf memory))).2) := by
  rw [target, latestIn_eq, nextRecord_ofEntry]

section Ring

variable {memory after : Memory} {journal : Journal}

/-- A record that cannot be decoded any more leaves the journal. -/
theorem represents_without (represents : Represents (ringOf memory) journal) {slot : Fin slotCount}
    (agree : AgreeOutside slot after memory) (gone : ringOf after slot = none) :
    Represents (ringOf after) (journal.without slot) := by
  rw [ringOf_eq_update agree, gone]
  exact represents.lose slot

/-- A slot that decodes as it did leaves the ring as it was. -/
theorem ringOf_of_kept {slot : Fin slotCount} (agree : AgreeOutside slot after memory)
    (kept : decode (slotRecord after slot) = decode (slotRecord memory slot)) :
    ringOf after = ringOf memory := by
  have same : ringOf after slot = ringOf memory slot := by
    unfold ringOf
    rw [kept]
  rw [ringOf_eq_update agree, same, Function.update_eq_self]

/-- The record of a save heads the journal once its slot holds it. -/
theorem represents_commit (represents : Represents (ringOf memory) journal) {config : DeviceConfig}
    (valid : config.Valid) (agree : AgreeOutside (target memory).1 after memory)
    (stored : slotRecord after (target memory).1 = newRecord config memory) :
    Represents (ringOf after) (journal.commit (target memory).1 config) := by
  have decoded : ringOf after (target memory).1 =
      some ((target memory).2.toBitVec, config) := by
    apply ringOf_of_ok
    rw [stored]
    exact decode_encode config _ valid
  rw [ringOf_eq_update agree, decoded]
  simp only [target_eq, UInt32.toBitVec_ofBitVec]
  exact represents.commit half config

/-- **A save keeps the journal.** -/
theorem represents_save {config : DeviceConfig} {device : Device FlashError} {next : Journal}
    (represents : Represents (ringOf device.memory) journal) (valid : config.Valid)
    (records : SaveRecords config device journal next) :
    Represents (ringOf (memoryAfter config device)) next := by
  have agree := save_agreeOutside valid device
  cases records with
  | saved completes =>
      apply represents_commit represents valid agree
      rw [memoryAfter_of_completes valid completes]
      exact slotRecord_committed _ _ _
  | loading inside stops early =>
      rw [memoryAfter_of_error (save_stops_loading inside stops early)]
      exact represents
  | eraseKept stops early kept =>
      rw [ringOf_of_kept agree kept]
      exact represents
  | eraseTorn stops early torn =>
      exact represents_without represents agree (ringOf_of_rejected torn)
  | bodyStopped stops early =>
      apply represents_without represents agree
      exact ringOf_of_rejected (rejected_of_unmarked (not_marked_stops_writing stops early))
  | commitTorn stops early torn =>
      exact represents_without represents agree (ringOf_of_rejected (rejected_of_unmarked torn))
  | commitWhole stops early whole =>
      apply represents_commit represents valid agree
      exact slotRecord_stops_committing valid stops early whole
  | unverified stops early =>
      apply represents_commit represents valid agree
      rw [memoryAfter_of_error (save_stops_verifying stops early)]
      exact slotRecord_committed _ _ _

/-- The slot of a save is not the newest record's. -/
theorem newest_without (represents : Represents (ringOf memory) journal) :
    (journal.without (target memory).1).newest = journal.newest := by
  cases journal with
  | nil => rfl
  | cons head older =>
      have apart : head.1 ≠ (target memory).1 := by
        simp only [target_eq]
        exact represents.nextPosition_ne_head half (by decide) rfl
      have kept : Journal.without (head :: older) (target memory).1 =
          head :: Journal.without older (target memory).1 :=
        List.filter_cons_of_pos (by simpa using apart)
      rw [kept]
      rfl

/-- A save leaves the newest configuration or makes its own the newest. -/
theorem SaveRecords.newest {config : DeviceConfig} {device : Device FlashError} {next : Journal}
    (records : SaveRecords config device journal next)
    (represents : Represents (ringOf device.memory) journal) :
    next.newest = journal.newest ∨ next.newest = some config := by
  cases records with
  | saved | commitWhole | unverified => exact Or.inr rfl
  | loading | eraseKept => exact Or.inl rfl
  | eraseTorn | bodyStopped | commitTorn => exact Or.inl (newest_without represents)

end Ring

/-- A step keeps the ring in step with the journal. -/
theorem Step.represents {memory after : Memory} {journal next : Journal}
    (step : Step FlashError memory journal after next)
    (represents : Represents (ringOf memory) journal) : Represents (ringOf after) next := by
  cases step with
  | save valid schedule records => exact represents_save represents valid records
  | lose slot agree rejected =>
      exact represents_without represents agree (ringOf_of_rejected rejected)

/-- The invariant of all runs. -/
theorem Reachable.represents {memory : Memory} {journal : Journal}
    (reachable : Reachable FlashError memory journal) : Represents (ringOf memory) journal := by
  induction reachable with
  | start vacant => exact Represents.empty fun slot => ringOf_of_rejected (vacant slot)
  | step reachable step ih => exact step.represents ih

/-! ## What a load returns -/

theorem faultlessLoad_eq (memory : Memory) :
    faultlessLoad FlashError memory = .ok ((latestIn memory).map StoredConfig.config) := by
  have loaded := @loadLatest_completes _ (Device.faultless memory : Device FlashError)
    fun _ _ => rfl
  exact congrArg Prod.fst (bind_ok loaded)

theorem faultlessLoad_of_represents {memory : Memory} {journal : Journal}
    (represents : Represents (ringOf memory) journal) :
    faultlessLoad FlashError memory = .ok journal.newest := by
  have head := represents.latest_eq_head half
  rw [faultlessLoad_eq, latestIn_eq, Journal.newest, ← head, Option.map_map, Option.map_map]
  rfl

/-- **Loading returns the last committed configuration.** After any run of saves,
interruptions and losses a load returns the configuration committed last among the
records that are left, and a further save, however it ends, leaves a load at that
configuration or at its own. -/
theorem load_last_committed {memory : Memory} {journal : Journal}
    (reachable : Reachable FlashError memory journal) :
    faultlessLoad FlashError memory = .ok journal.newest ∧
      ∀ config : DeviceConfig, config.Valid → ∀ schedule : ℕ → Outcome FlashError,
        ∀ next, SaveRecords config ⟨memory, schedule⟩ journal next →
          faultlessLoad FlashError (memoryAfter config ⟨memory, schedule⟩) = .ok journal.newest ∨
          faultlessLoad FlashError (memoryAfter config ⟨memory, schedule⟩) =
            .ok (some config) := by
  refine ⟨faultlessLoad_of_represents reachable.represents, ?_⟩
  intro config valid schedule next records
  have saved : Reachable FlashError (memoryAfter config ⟨memory, schedule⟩) next :=
    reachable.step (.save valid schedule records)
  rw [faultlessLoad_of_represents saved.represents]
  rcases records.newest reachable.represents with old | new
  · exact Or.inl (congrArg Except.ok old)
  · exact Or.inr (congrArg Except.ok new)

/-- A flash as it leaves the factory. -/
def blankFlash : Memory := fun _ => 0xff

theorem reachable_blankFlash : Reachable FlashError blankFlash [] :=
  .start fun _ => rejected_of_unmarked (not_marked_of_erased rfl)

/-! ## A run with a loss and an interruption

The records of two saves are stored, the slot of the second is lost, and power fails while a third
save writes its body. -/

/-- Losing a slot undoes the commit in it. -/
theorem Journal.without_commit (journal : Journal) (slot : Fin slotCount) (config : DeviceConfig) :
    (journal.commit slot config).without slot = journal.without slot := by
  simp [commit, without]

/-- A save without faults commits its record. -/
theorem Reachable.saved {memory : Memory} {journal : Journal}
    (reachable : Reachable FlashError memory journal) {config : DeviceConfig}
    (valid : config.Valid) :
    Reachable FlashError (memoryAfter config (Device.faultless memory : Device FlashError))
      (journal.commit (target memory).1 config) :=
  reachable.step (.save valid (fun _ => .completes) (.saved fun _ _ => rfl))

/-- A slot whose bytes are erased is lost. -/
theorem Reachable.erased {memory : Memory} {journal : Journal}
    (reachable : Reachable FlashError memory journal) (slot : Fin slotCount) :
    Reachable FlashError (eraseSlot slot memory) (journal.without slot) :=
  reachable.step (.lose slot (agreeOutside_eraseSlot slot memory)
    (rejected_of_unmarked (not_marked_eraseSlot slot memory)))

/-- The flash after a save whose slot is then lost. -/
def savedAndLost (FlashError : Type) (config : DeviceConfig) (memory : Memory) : Memory :=
  eraseSlot (target memory).1
    (memoryAfter config (Device.faultless memory : Device FlashError))

/-- A save that is lost leaves the newest configuration. -/
theorem Reachable.savedAndLost {memory : Memory} {journal : Journal}
    (reachable : Reachable FlashError memory journal) {config : DeviceConfig}
    (valid : config.Valid) :
    ∃ next, Reachable FlashError (savedAndLost FlashError config memory) next ∧
      next.newest = journal.newest := by
  refine ⟨journal.without (target memory).1, ?_, newest_without reachable.represents⟩
  rw [← journal.without_commit (target memory).1 config]
  exact (reachable.saved valid).erased (target memory).1

/-- A save that stops at its body leaves the newest configuration. -/
theorem Reachable.stopped {memory : Memory} {journal : Journal}
    (reachable : Reachable FlashError memory journal) {config : DeviceConfig}
    (valid : config.Valid) {schedule : ℕ → Outcome FlashError} {outcome : Outcome FlashError}
    (stops : Device.StopsAt ⟨memory, schedule⟩ 7 outcome) (early : outcome ≠ .completes) :
    ∃ next, Reachable FlashError (memoryAfter config ⟨memory, schedule⟩) next ∧
      next.newest = journal.newest :=
  ⟨journal.without (target memory).1,
    reachable.step (.save valid schedule (.bodyStopped stops early)),
    newest_without reachable.represents⟩

/-- Power fails at the write of the body, which leaves some of its bits as they were. -/
def cutAtBody (index : ℕ) : Outcome Empty :=
  if index = 7 then .powerLoss blankFlash else .completes

theorem cutAtBody_stops (memory : Memory) :
    Device.StopsAt (⟨memory, cutAtBody⟩ : Device Empty) 7 (.powerLoss blankFlash) :=
  ⟨fun _ below => if_neg (Nat.ne_of_lt below), rfl⟩

/-- A load finds the configuration of the first save. -/
theorem load_last_committed_interrupted :
    faultlessLoad Empty (memoryAfter closedNetwork ⟨savedAndLost Empty closedNetwork
      (memoryAfter openNetwork (Device.faultless blankFlash : Device Empty)), cutAtBody⟩) =
        .ok (some openNetwork) := by
  have first := (@reachable_blankFlash Empty).saved openNetwork_valid
  obtain ⟨_, second, kept⟩ := first.savedAndLost closedNetwork_valid
  obtain ⟨_, third, left⟩ := second.stopped closedNetwork_valid (cutAtBody_stops _)
    (fun completes => by cases completes)
  have loaded := (load_last_committed third).1
  rw [left, kept] at loaded
  exact loaded

end LaptopCooler.Firmware
