import LaptopCooler.HostAgent.AgentConfig

/-! # The host agent's heartbeat

The model of `maximum_temperature` and of the send loop in
`host-agent/src/main.rs`. A successful reading of the sensors is the greatest of
plausible temperatures (`LaptopCooler.HostAgent.maximumTemperature_spec`),
and a heartbeat sends it with the duty that the policy returns.
-/

namespace LaptopCooler.HostAgent

open Fallible

/-! ## Reading the sensors -/

structure Sensor where
  path : String
  deriving DecidableEq, Repr

inductive ReadingError (IoError : Type) where
  | unreadable (error : IoError)
  | notANumber (contents : String)
  | outOfRange (path : String) (value : ℤ)
  | noReadableSensors

def minPlausibleMilliC : ℤ := -20000
def maxPlausibleMilliC : ℤ := 150000

variable {IoError : Type} (readToString : String → Except IoError String)

/-- The temperature a sensor's file reports, before the plausibility check. -/
def reportedTemperature (sensor : Sensor) : Except (ReadingError IoError) ℤ := do
  let contents ← (readToString sensor.path).mapError .unreadable
  okOr (Text.parseSigned (-2147483648) 2147483647 (Text.trim contents)) (.notANumber contents)

/-- One turn of the loop over the sensors. -/
def raiseMaximum (maximum : Option ℤ) (sensor : Sensor) :
    Except (ReadingError IoError) (Option ℤ) := do
  let value ← reportedTemperature readToString sensor
  if ¬ (minPlausibleMilliC ≤ value ∧ value ≤ maxPlausibleMilliC) then
    throw (.outOfRange sensor.path value)
  return some ((maximum.map fun current => max current value).getD value)

def maximumTemperature (sensors : List Sensor) : Except (ReadingError IoError) ℤ := do
  let maximum ← sensors.foldlM (raiseMaximum readToString) none
  okOr maximum .noReadableSensors

/-- The sensor reports a plausible temperature. -/
def ReportsPlausibly (sensor : Sensor) (value : ℤ) : Prop :=
  reportedTemperature readToString sensor = .ok value ∧
    minPlausibleMilliC ≤ value ∧ value ≤ maxPlausibleMilliC

variable {readToString}

theorem raiseMaximum_eq_ok_iff {maximum raised : Option ℤ} {sensor : Sensor} :
    raiseMaximum readToString maximum sensor = .ok raised ↔
      ∃ value, ReportsPlausibly readToString sensor value ∧
        raised = some ((maximum.map fun current => max current value).getD value) := by
  simp only [raiseMaximum, bind_eq_ok_iff, throw, throwThe, MonadExceptOf.throw, error_bind,
    guard_eq_ok_iff, not_not, pure, Except.pure, Except.ok.injEq, ReportsPlausibly, and_assoc,
    @eq_comm _ raised]

/-- The loop ends with the greatest of the values so far, all of them plausible. -/
private theorem foldlM_raiseMaximum {sensors : List Sensor} {start : Option ℤ} {result : ℤ}
    (folded : sensors.foldlM (raiseMaximum readToString) start = .ok (some result)) :
    (start = some result ∨ ∃ sensor ∈ sensors, ReportsPlausibly readToString sensor result) ∧
      (∀ held, start = some held → held ≤ result) ∧
      ∀ sensor ∈ sensors, ∃ value, ReportsPlausibly readToString sensor value ∧ value ≤ result := by
  induction sensors generalizing start with
  | nil =>
      obtain rfl := Except.ok.inj folded
      simp
  | cons sensor rest ih =>
      rw [List.foldlM_cons, bind_eq_ok_iff] at folded
      obtain ⟨raised, turn, remaining⟩ := folded
      obtain ⟨value, inRange, rfl⟩ := raiseMaximum_eq_ok_iff.mp turn
      obtain ⟨origin, greatest, others⟩ := ih remaining
      have reached := greatest _ rfl
      have valueBelow : value ≤ result := by
        cases start with
        | none => exact reached
        | some held => exact (le_max_right held value).trans reached
      refine ⟨?_, ?_, ?_⟩
      · rcases origin with same | ⟨other, member, reports⟩
        · cases start with
          | none =>
              right
              obtain rfl : value = result := Option.some.inj same
              exact ⟨sensor, List.mem_cons_self, inRange⟩
          | some held =>
              have greater : max held value = result := Option.some.inj same
              rcases max_choice held value with left | right
              · exact Or.inl (congrArg some (left.symm.trans greater))
              · right
                obtain rfl : value = result := right.symm.trans greater
                exact ⟨sensor, List.mem_cons_self, inRange⟩
        · exact Or.inr ⟨other, List.mem_cons_of_mem _ member, reports⟩
      · rintro held rfl
        exact (le_max_left held value).trans reached
      · intro other member
        rcases List.mem_cons.mp member with rfl | member
        · exact ⟨value, inRange, valueBelow⟩
        · exact others other member

/-- A successful reading is the greatest reported temperature, and all are plausible. -/
theorem maximumTemperature_spec {sensors : List Sensor} {temperatureMilliC : ℤ}
    (measured : maximumTemperature readToString sensors = .ok temperatureMilliC) :
    (∃ sensor ∈ sensors, ReportsPlausibly readToString sensor temperatureMilliC) ∧
      ∀ sensor ∈ sensors, ∃ value, ReportsPlausibly readToString sensor value ∧
        value ≤ temperatureMilliC := by
  rw [maximumTemperature, bind_eq_ok_iff] at measured
  obtain ⟨maximum, folded, found⟩ := measured
  obtain rfl := okOr_eq_ok_iff.mp found
  obtain ⟨origin, _, below⟩ := foldlM_raiseMaximum folded
  exact ⟨origin.resolve_left (Option.some_ne_none _ ·.symm), below⟩

/-! ## Sending -/

/-- The text of one packet. -/
def formatPacket (token : String) (sequence : UInt32) (temperatureMilliC : ℤ)
    (requestedDutyPercent : ℕ) : String :=
  "LC2 " ++ token ++ " " ++ toString sequence.toNat ++ " " ++ toString temperatureMilliC ++ " " ++
    toString requestedDutyPercent ++ "\n"

/-- What the send loop carries from one turn to the next. -/
structure Agent where
  policy : FanPolicy
  sequence : UInt32

/-- One turn of the send loop on a successful reading: the packet it sends. -/
def Agent.beat (token : String) (agent : Agent) (temperatureMilliC : ℤ) (elapsed : Duration) :
    Checked (String × Agent) := do
  let (requestedDutyPercent, policy) ← agent.policy.update temperatureMilliC elapsed
  return (formatPacket token agent.sequence temperatureMilliC requestedDutyPercent,
    ⟨policy, agent.sequence + 1⟩)

end LaptopCooler.HostAgent
