import LaptopCooler.Firmware.JournalRun

/-! # Saves that report a failure

The setup page tells the user of a failed save that the existing configuration
is unchanged. An operation that fails before the commit marker is written leaves
the newest record alone (`LaptopCooler.Firmware.load_of_failed_early`). The
verification comes after the marker, so that its failure reports a save which
has already replaced the configuration
(`LaptopCooler.Firmware.load_of_failed_verification`). The save keeps its promise
exactly when it does not fail there, or stores what was stored before
(`LaptopCooler.Firmware.failed_save_unobserved_iff`).
-/

namespace LaptopCooler.Firmware

open NorFlash SerialRing

variable {FlashError : Type}

/-- A flash on which some operations fail, without effect, and power is never lost. -/
def failing (memory : Memory) (faults : ℕ → Option FlashError) : Device FlashError where
  memory := memory
  schedule index :=
    match faults index with
    | some error => .fails error
    | none => .completes

section Failing

variable {memory : Memory} {faults : ℕ → Option FlashError} {count : ℕ}
  {outcome : Outcome FlashError}

theorem failing_schedule_of_none (sound : faults count = none) :
    (failing memory faults).schedule count = .completes := by
  simp only [failing, sound]

theorem failing_schedule_of_some {error : FlashError} (faulty : faults count = some error) :
    (failing memory faults).schedule count = .fails error := by
  simp only [failing, faulty]

theorem completes_iff :
    (failing memory faults).schedule count = .completes ↔ faults count = none := by
  cases faulty : faults count with
  | none => simp [failing_schedule_of_none faulty]
  | some error => simp [failing_schedule_of_some faulty]

/-- The operation that stops a run without power loss reports an error. -/
theorem stopsAt_failing (stops : (failing memory faults).StopsAt count outcome)
    (early : outcome ≠ .completes) :
    ∃ error, faults count = some error ∧ outcome = .fails error := by
  obtain ⟨_, rfl⟩ := stops
  cases faulty : faults count with
  | none => exact (early (failing_schedule_of_none faulty)).elim
  | some error => exact ⟨error, rfl, failing_schedule_of_some faulty⟩

variable {journal : Journal} {config : DeviceConfig}

private theorem load_of_saveRecords (represents : Represents (ringOf memory) journal)
    (valid : config.Valid) {next : Journal}
    (records : SaveRecords config (failing memory faults) journal next) :
    faultlessLoad FlashError (memoryAfter config (failing memory faults)) = .ok next.newest :=
  faultlessLoad_of_represents (represents_save represents valid records)

/-- **A failure before the verification is not seen.** -/
theorem load_of_failed_early (represents : Represents (ringOf memory) journal)
    (valid : config.Valid) (stops : (failing memory faults).StopsAt count outcome)
    (early : outcome ≠ .completes)
    (stage : count < slotCount ∨ count = 6 ∨ count = 7 ∨ count = 8) :
    faultlessLoad FlashError (memoryAfter config (failing memory faults)) =
      faultlessLoad FlashError memory := by
  have before := @faultlessLoad_of_represents FlashError _ _ represents
  obtain ⟨error, faulty, rfl⟩ := stopsAt_failing stops early
  rw [before]
  rcases stage with inside | rfl | rfl | rfl
  · exact load_of_saveRecords represents valid (.loading inside stops early)
  · have unchanged := memoryAfter_of_error (@save_stops_erasing _ config _ _ stops early)
    rw [Outcome.leaves_fails] at unchanged
    exact load_of_saveRecords represents valid (.eraseKept stops early (by rw [unchanged]))
  · rw [load_of_saveRecords represents valid (.bodyStopped stops early)]
    exact congrArg Except.ok (newest_without represents)
  · have erased := memoryAfter_of_error (@save_stops_committing _ config _ _ stops early)
    have torn : ¬ Marked (target memory).1 (memoryAfter config (failing memory faults)) := by
      rw [erased, Outcome.leaves_fails]
      exact not_marked_writeBody _ _ _
    rw [load_of_saveRecords represents valid (.commitTorn stops early torn)]
    exact congrArg Except.ok (newest_without represents)

/-- **A failed verification reports a save that took effect.** -/
theorem load_of_failed_verification (represents : Represents (ringOf memory) journal)
    (valid : config.Valid) {error : FlashError} (sound : ∀ index < 9, faults index = none)
    (faulty : faults 9 = some error) :
    (save config (failing memory faults)).1 = .error (.error (.flash error)) ∧
      faultlessLoad FlashError (memoryAfter config (failing memory faults)) =
        .ok (some config) := by
  have stops : (failing memory faults).StopsAt 9 (.fails error) :=
    ⟨fun index below => failing_schedule_of_none (sound index below),
      failing_schedule_of_some faulty⟩
  have early : Outcome.fails error ≠ .completes := by simp
  obtain ⟨after, ran, _⟩ := @save_stops_verifying _ config _ _ stops early
  constructor
  · rw [ran]
    rfl
  · exact load_of_saveRecords represents valid (.unverified stops early)

end Failing

/-- **When a failed save changes nothing.** After any run, a save on a flash where
some operations fail without effect leaves every later load as it was, whenever it
reports an error, exactly if one of the operations before the verification fails,
or the verification succeeds, or the configuration was already the one stored. -/
theorem failed_save_unobserved_iff {memory : Memory} {journal : Journal}
    (reachable : Reachable FlashError memory journal) {config : DeviceConfig}
    (valid : config.Valid) (faults : ℕ → Option FlashError) :
    ((∃ error, (save config (failing memory faults)).1 = .error (.error error)) →
        faultlessLoad FlashError (memoryAfter config (failing memory faults)) =
          faultlessLoad FlashError memory) ↔
      (∃ index < 9, faults index ≠ none) ∨ faults 9 = none ∨
        faultlessLoad FlashError memory = .ok (some config) := by
  have represents := reachable.represents
  constructor
  · intro unobserved
    by_contra refuted
    simp only [not_or, not_exists, not_and, not_not] at refuted
    obtain ⟨sound, faulty, other⟩ := refuted
    obtain ⟨error, faulty⟩ := Option.ne_none_iff_exists'.mp faulty
    obtain ⟨failed, loaded⟩ := load_of_failed_verification represents valid sound faulty
    have same := unobserved ⟨_, failed⟩
    rw [loaded] at same
    exact other same.symm
  · rintro kept ⟨error, failed⟩
    rcases save_stages (failing memory faults) with
      completes | ⟨count, outcome, stops, early, stage⟩
    · obtain ⟨after, ran, _⟩ := save_completes valid completes
      rw [ran] at failed
      cases failed
    obtain ⟨cause, faulty, rfl⟩ := stopsAt_failing stops early
    rcases stage with inside | rfl | rfl | rfl | rfl
    · exact load_of_failed_early represents valid stops early (Or.inl inside)
    · exact load_of_failed_early represents valid stops early (by simp)
    · exact load_of_failed_early represents valid stops early (by simp)
    · exact load_of_failed_early represents valid stops early (by simp)
    · have sound : ∀ index < 9, faults index = none := fun index below =>
        completes_iff.mp (stops.1 index below)
      rcases kept with ⟨index, below, faulted⟩ | verified | same
      · exact (faulted (sound index below)).elim
      · rw [verified] at faulty
        cases faulty
      · rw [same]
        exact (load_of_failed_verification represents valid sound faulty).2

/-- A flash on which only the read that verifies the save fails. -/
def failingVerification (index : ℕ) : Option Unit := if index = 9 then some () else none

/-- The first save of a device, its verification failing: reported as failed, and
loaded from then on. -/
theorem unverified_save_took_effect :
    Reachable Unit blankFlash [] ∧ openNetwork.Valid ∧
      (save openNetwork (failing blankFlash failingVerification)).1 = .error (.error (.flash ())) ∧
      faultlessLoad Unit blankFlash = .ok none ∧
      faultlessLoad Unit (memoryAfter openNetwork (failing blankFlash failingVerification)) =
        .ok (some openNetwork) := by
  have represents := (@reachable_blankFlash Unit).represents
  have failed := @load_of_failed_verification Unit blankFlash failingVerification _ _ represents
    openNetwork_valid () (fun index below => if_neg (Nat.ne_of_lt below)) rfl
  exact ⟨reachable_blankFlash, openNetwork_valid, failed.1,
    faultlessLoad_of_represents represents, failed.2⟩

/-- A flash on which only the erase fails. -/
def failingErase (index : ℕ) : Option Unit := if index = 6 then some () else none

/-- A first save whose erase fails leaves the device without a configuration. -/
theorem failed_erase_unobserved :
    faultlessLoad Unit (memoryAfter openNetwork (failing blankFlash failingErase)) =
      faultlessLoad Unit blankFlash := by
  have stops : (failing blankFlash failingErase).StopsAt 6 (.fails ()) :=
    ⟨fun index below => failing_schedule_of_none (if_neg (Nat.ne_of_lt below)), rfl⟩
  obtain ⟨after, ran, _⟩ := @save_stops_erasing _ openNetwork _ _ stops (by simp)
  apply (failed_save_unobserved_iff reachable_blankFlash openNetwork_valid failingErase).mpr
  · exact Or.inl ⟨6, by decide, by decide⟩
  · exact ⟨.flash (), by rw [ran]; rfl⟩

end LaptopCooler.Firmware
