import LaptopCooler.Firmware.Control
import LaptopCooler.Library.EventRun

/-! # The history behind the fan duty

A run of the firmware's control is a list of received packets and duty polls. The
history of a run pairs every event with its answer. The only thing the state
remembers of it is the last accepted command and its time
(`LaptopCooler.Firmware.final_eq_ofAcceptance`), so every poll is a function of
that acceptance, and packets without an authentic in-range command can be
deleted from the run without changing anything else
(`LaptopCooler.Firmware.duty_of_command_history`).
-/

namespace LaptopCooler.Firmware

open EventRun

inductive ControlEvent where
  | packet (bytes : List UInt8)
  | poll
  deriving DecidableEq

/-- Something that happens at the firmware's control at a time since boot. -/
structure TimedEvent where
  millis : ℕ
  event : ControlEvent
  deriving DecidableEq

inductive ControlAnswer where
  | result (result : Except SampleError ControlCommand)
  | duty (percent : ℕ)

/-- One event at a firmware that holds the given token. -/
def controlStep (token : String) (state : HostState) (timed : TimedEvent) :
    ControlAnswer × HostState :=
  match timed.event with
  | .packet bytes =>
      let answer := state.accept token bytes timed.millis
      (.result answer.1, answer.2)
  | .poll => (.duty (state.dutyPercent timed.millis), state)

/-- The events of a run with their answers. -/
def history (token : String) (state : HostState) (events : List TimedEvent) :
    List (TimedEvent × ControlAnswer) :=
  events.zip (outputs (controlStep token) state events)

/-- An accepted command and the time of its acceptance. -/
structure Acceptance where
  command : ControlCommand
  millis : ℕ

def acceptanceOf (entry : TimedEvent × ControlAnswer) : Option Acceptance :=
  match entry.2 with
  | .result (.ok command) => some ⟨command, entry.1.millis⟩
  | _ => none

/-- The acceptances of a history, oldest first. -/
def acceptances (entries : List (TimedEvent × ControlAnswer)) : List Acceptance :=
  entries.filterMap acceptanceOf

/-- The last acceptance of a history, or else the one given. -/
def lastAcceptance (earlier : Option Acceptance) (entries : List (TimedEvent × ControlAnswer)) :
    Option Acceptance :=
  (acceptances entries).getLast?.or earlier

/-- The state that remembers an acceptance. -/
def HostState.ofAcceptance : Option Acceptance → HostState
  | none => .new
  | some acceptance => .remembering acceptance.command acceptance.millis

/-- The packet does not carry an in-range command with the given token. -/
def Forged (token : String) (timed : TimedEvent) : Prop :=
  ∃ bytes, timed.event = .packet bytes ∧ ∀ command, ¬ Carries token bytes command

theorem history_cons (token : String) (state : HostState) (timed : TimedEvent)
    (rest : List TimedEvent) :
    history token state (timed :: rest) =
      (timed, (controlStep token state timed).1) ::
        history token (controlStep token state timed).2 rest := rfl

theorem lastAcceptance_cons (earlier : Option Acceptance) (entry : TimedEvent × ControlAnswer)
    (rest : List (TimedEvent × ControlAnswer)) :
    lastAcceptance earlier (entry :: rest) =
      lastAcceptance ((acceptanceOf entry).or earlier) rest := by
  unfold lastAcceptance acceptances
  cases accepted : acceptanceOf entry with
  | none => rw [List.filterMap_cons_none accepted, Option.none_or]
  | some acceptance =>
      rw [List.filterMap_cons_some accepted, List.getLast?_cons]
      cases (List.filterMap acceptanceOf rest).getLast? <;> rfl

/-- One event takes the state remembering the last acceptance to the state
remembering the new last acceptance. -/
theorem controlStep_ofAcceptance (token : String) (earlier : Option Acceptance)
    (timed : TimedEvent) :
    (controlStep token (HostState.ofAcceptance earlier) timed).2 =
      HostState.ofAcceptance ((acceptanceOf
        (timed, (controlStep token (HostState.ofAcceptance earlier) timed).1)).or earlier) := by
  rcases timed with ⟨millis, bytes | _⟩
  · rcases (HostState.ofAcceptance earlier).accept_cases token bytes millis with
      ⟨command, _, _, accepted⟩ | ⟨error, rejected⟩
    · simp only [controlStep, accepted, acceptanceOf, Option.some_or]
      rfl
    · simp only [controlStep, rejected, acceptanceOf, Option.none_or]
  · rfl

/-- **The state is the last acceptance.** -/
theorem final_eq_ofAcceptance (token : String) (earlier : Option Acceptance)
    (events : List TimedEvent) :
    final (controlStep token) (HostState.ofAcceptance earlier) events =
      HostState.ofAcceptance
        (lastAcceptance earlier (history token (HostState.ofAcceptance earlier) events)) := by
  induction events generalizing earlier with
  | nil => rfl
  | cons timed rest ih =>
      rw [final_cons, history_cons, lastAcceptance_cons, controlStep_ofAcceptance, ih]

/-- Every acceptance of a run is of a command some packet of the run carries. -/
theorem carries_of_mem_acceptances {token : String} {state : HostState}
    {events : List TimedEvent} {acceptance : Acceptance}
    (member : acceptance ∈ acceptances (history token state events)) :
    ∃ bytes, ⟨acceptance.millis, .packet bytes⟩ ∈ events ∧
      Carries token bytes acceptance.command := by
  induction events generalizing state with
  | nil => simp [history, acceptances] at member
  | cons timed rest ih =>
      rw [history_cons, acceptances, List.filterMap_cons] at member
      rcases timed with ⟨millis, bytes | _⟩
      · rcases state.accept_cases token bytes millis with ⟨command, carries, _, accepted⟩ | rejected
        · simp only [controlStep, accepted, acceptanceOf, List.mem_cons] at member
          rcases member with rfl | member
          · exact ⟨bytes, List.mem_cons_self, carries⟩
          · obtain ⟨other, present, carried⟩ := ih member
            exact ⟨other, List.mem_cons_of_mem _ present, carried⟩
        · obtain ⟨error, rejected⟩ := rejected
          simp only [controlStep, rejected, acceptanceOf] at member
          obtain ⟨other, present, carried⟩ := ih member
          exact ⟨other, List.mem_cons_of_mem _ present, carried⟩
      · simp only [controlStep, acceptanceOf] at member
        obtain ⟨other, present, carried⟩ := ih member
        exact ⟨other, List.mem_cons_of_mem _ present, carried⟩

/-- A forged packet leaves every state as it is. -/
theorem Forged.silent {token : String} {timed : TimedEvent} (forged : Forged token timed) :
    Silent (controlStep token) timed := by
  obtain ⟨bytes, packet, uncarried⟩ := forged
  intro state
  rcases state.accept_cases token bytes timed.millis with ⟨command, carries, _⟩ | ⟨error, rejected⟩
  · exact (uncarried command carries).elim
  · simp only [controlStep, packet, rejected]

/-- **Fan duty is a function of the authenticated command history.** In a run from
boot, a poll answers zero exactly when no packet has been accepted or the last
accepted one is more than the cooldown old, and otherwise full speed at an
emergency temperature or the duty of the last accepted command, which is in
range. Deleting any forged packets from the run leaves all other answers as
they were. -/
theorem duty_of_command_history (token : String) (events : List TimedEvent) :
    (∀ index millis, events[index]? = some ⟨millis, .poll⟩ →
      ∃ percent, (outputs (controlStep token) .new events)[index]? = some (.duty percent) ∧
        (percent = 0 ↔ ∀ acceptance,
          lastAcceptance none (history token .new (events.take index)) = some acceptance →
            acceptance.millis + 60000 < millis) ∧
        ∀ acceptance,
          lastAcceptance none (history token .new (events.take index)) = some acceptance →
            (20 ≤ acceptance.command.requestedDutyPercent ∧
              acceptance.command.requestedDutyPercent ≤ 100) ∧
            (millis ≤ acceptance.millis + 60000 →
              percent = if 90000 ≤ acceptance.command.temperatureMilliC then 100
                else acceptance.command.requestedDutyPercent)) ∧
    ∀ marks : List Bool, marks.length = events.length →
      (∀ pair ∈ events.zip marks, pair.2 = true → Forged token pair.1) →
        outputs (controlStep token) .new (unmarked events marks) =
          unmarked (outputs (controlStep token) .new events) marks := by
  refine ⟨fun index millis polled => ?_, fun marks sized forged =>
    outputs_erase _ events marks sized fun pair member marked => (forged pair member marked).silent⟩
  have remembered := final_eq_ofAcceptance token none (events.take index)
  refine ⟨(final (controlStep token) .new (events.take index)).dutyPercent millis, ?_, ?_⟩
  · rw [outputs_getElem?, polled]
    rfl
  rw [show HostState.new = HostState.ofAcceptance none from rfl, remembered]
  cases last : lastAcceptance none (history token (HostState.ofAcceptance none)
    (events.take index)) with
  | none => exact ⟨⟨fun _ _ absent => by simp at absent, fun _ => rfl⟩, by simp⟩
  | some acceptance =>
      have member : acceptance ∈
          acceptances (history token (HostState.ofAcceptance none) (events.take index)) := by
        rw [lastAcceptance, Option.or_none] at last
        exact List.mem_of_getLast? last
      obtain ⟨bytes, _, carries⟩ := carries_of_mem_acceptances member
      have inRange : 20 ≤ acceptance.command.requestedDutyPercent ∧
          acceptance.command.requestedDutyPercent ≤ 100 := carries.dutyInRange
      have duty : (HostState.remembering acceptance.command acceptance.millis).dutyPercent millis =
          if acceptance.millis + 60000 < millis then 0
          else if 90000 ≤ acceptance.command.temperatureMilliC then 100
          else acceptance.command.requestedDutyPercent :=
        HostState.dutyPercent_remembering acceptance.command acceptance.millis millis
      simp only [HostState.ofAcceptance, Option.some.injEq, forall_eq', duty]
      refine ⟨⟨fun stopped => ?_, fun old => if_pos old⟩, inRange, fun recent => ?_⟩
      · by_contra recent
        simp only [recent, ↓reduceIte] at stopped
        split at stopped <;> omega
      · have running : ¬ acceptance.millis + 60000 < millis := by omega
        simp only [running, ↓reduceIte]

end LaptopCooler.Firmware
