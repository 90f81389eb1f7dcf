import LaptopCooler.HostAgent.ConfigMeaning

/-! # What the errors of a configuration file say

Reading a configuration file ends at its first error. Whatever error that is, it
is right about the file: the line it numbers is no setting, the key it names comes
twice or is unknown, and a setting it complains of stands in the file with a value
that cannot be read or that the checks refuse. The checks see a temperature as the
thousandths of a degree it is rounded to. A file without such a fault is accepted
(`LaptopCooler.HostAgent.parseConfig_blames`).
-/

namespace LaptopCooler.HostAgent

open Fallible KeyedUpdates

variable {SocketAddr : Type}

/-- The values that the checks after the last line let pass, as far as one setting goes. -/
def Setting.InRange : Setting SocketAddr → Prop
  | token value => WellFormedToken value
  | destination _ => True
  | intervalMillis millis => 250 ≤ millis ∧ millis ≤ 60000
  | curve points => 2 ≤ points.length ∧
      (∀ pair ∈ FanPolicyConfig.windows points,
        pair.1.temperatureMilliC < pair.2.temperatureMilliC ∧
          pair.1.dutyPercent ≤ pair.2.dutyPercent) ∧
      (∀ point ∈ points, (0 ≤ point.temperatureMilliC ∧ point.temperatureMilliC ≤ 120000) ∧
        minDutyPercent ≤ point.dutyPercent ∧ point.dutyPercent ≤ maxDutyPercent) ∧
      ∃ last, points.getLast? = some last ∧ last.dutyPercent = maxDutyPercent
  | smoothingSeconds seconds => seconds ≤ 60
  | dutyStepPercent percent => 1 ≤ percent ∧ percent ≤ 20
  | dutyHysteresisPercent percent => percent ≤ 20
  | rampUpPercentPerSecond rate | rampDownPercentPerSecond rate => 1 ≤ rate ∧ rate ≤ 100
  | emergencyTemperatureMilliC temperature =>
      50000 ≤ temperature ∧ temperature ≤ maxConfigurableEmergencyC * 1000

/-! ## Lines of a file -/

/-- The line of that number, counted from one, sets the key to the value. -/
def SetsAt (contents : String) (number : ℕ) (key value : String) : Prop :=
  ∃ line left right, (line, number) ∈ (Text.lines contents).zipIdx 1 ∧
    ¬ Skipped (Text.trim line) ∧ Text.splitOnce '=' (Text.trim line) = some (left, right) ∧
    Text.trim left = key ∧ Text.trim right = value

/-- The line of that number is neither skipped nor a key with a value. -/
def MalformedAt (contents : String) (number : ℕ) : Prop :=
  ∃ line, (line, number) ∈ (Text.lines contents).zipIdx 1 ∧ ¬ Skipped (Text.trim line) ∧
    Text.splitOnce '=' (Text.trim line) = none

section Blame

variable (readers : ValueReaders SocketAddr) (contents : String)

/-- The file sets the key to a value that cannot be read or that the checks refuse. -/
def Misset (key : String) : Prop :=
  ∃ number value, SetsAt contents number key value ∧
    ∀ setting : Setting SocketAddr, setting.key = key → setting.DenotedBy readers value →
      ¬ setting.InRange

/-- The file makes the setting, or it is the default and the file does not set its key. -/
def InEffect (setting default : Setting SocketAddr) : Prop :=
  (∃ number value, SetsAt contents number setting.key value ∧
      setting.DenotedBy readers value) ∨
    (setting = default ∧ ∀ number value, ¬ SetsAt contents number setting.key value)

/-- The last point of the curve in effect lies above the emergency temperature in effect. -/
def EndsLate : Prop :=
  ∃ curve last emergency, curve.getLast? = some last ∧ emergency < last.temperatureMilliC ∧
    InEffect readers contents (.curve curve) (.curve FanPolicyConfig.default.curve) ∧
    InEffect readers contents (.emergencyTemperatureMilliC emergency)
      (.emergencyTemperatureMilliC FanPolicyConfig.default.emergencyTemperatureMilliC)

/-- What an error says about the file. -/
def Blames : ConfigError → Prop
  | .invalidLine number => MalformedAt contents number
  | .missingToken => ∀ number value, ¬ SetsAt contents number "token" value
  | .invalidToken => Misset readers contents "token"
  | .invalidDestination => Misset readers contents "destination"
  | .invalidInterval => Misset readers contents "interval_ms"
  | .invalidPolicy .invalidCurve => Misset readers contents "curve" ∨ EndsLate readers contents
  | .invalidPolicy .invalidSmoothing => Misset readers contents "smoothing_seconds"
  | .invalidPolicy .invalidDutyStep => Misset readers contents "duty_step_percent"
  | .invalidPolicy .invalidHysteresis => Misset readers contents "duty_hysteresis_percent"
  | .invalidPolicy .invalidRamp => Misset readers contents "ramp_up_percent_per_second" ∨
      Misset readers contents "ramp_down_percent_per_second"
  | .invalidPolicy .invalidEmergencyTemperature =>
      Misset readers contents "emergency_temperature_c"
  | .duplicateKey key => ∃ first second value other, first < second ∧
      SetsAt contents first key value ∧ SetsAt contents second key other
  | .unknownKey key => (∃ number value, SetsAt contents number key value) ∧
      ∀ setting : Setting SocketAddr, setting.key ≠ key

end Blame

/-! ## The error of a line -/

variable {readers : ValueReaders SocketAddr}

/-- What an unreadable value of the key is reported as. -/
def valueError : String → Option ConfigError
  | "destination" => some .invalidDestination
  | "interval_ms" => some .invalidInterval
  | "curve" => some (.invalidPolicy .invalidCurve)
  | "smoothing_seconds" => some (.invalidPolicy .invalidSmoothing)
  | "duty_step_percent" => some (.invalidPolicy .invalidDutyStep)
  | "duty_hysteresis_percent" => some (.invalidPolicy .invalidHysteresis)
  | "ramp_up_percent_per_second" | "ramp_down_percent_per_second" =>
      some (.invalidPolicy .invalidRamp)
  | "emergency_temperature_c" => some (.invalidPolicy .invalidEmergencyTemperature)
  | _ => none

/-- A curve that cannot be read is an invalid one. -/
theorem parseCurve_error {readFloat : String → Option Float} {value : String}
    {error : PolicyConfigError} (failed : parseCurve readFloat value = .error error) :
    error = .invalidCurve := by
  obtain ⟨field, _, failed⟩ := exists_of_mapM_eq_error failed
  simp only [parseCurvePoint, throw, throwThe, MonadExceptOf.throw, bind_eq_error_iff,
    okOr_eq_error_iff, error_bind, guard_eq_error_iff] at failed
  rcases failed with ⟨_, rfl⟩ | ⟨_, _, ⟨_, rfl⟩ | ⟨_, _, ⟨_, rfl⟩ | ⟨_, _, ⟨_, rfl⟩ |
    ⟨_, ⟨_, rfl⟩ | ⟨_, _, ⟨_, rfl⟩ | ⟨_, converted⟩⟩⟩⟩⟩⟩
  all_goals first | rfl | cases converted

theorem parseEmergencyTemperature_error {readFloat : String → Option Float} {value : String}
    {error : ConfigError} (failed : parseEmergencyTemperature readFloat value = .error error) :
    error = .invalidPolicy .invalidEmergencyTemperature := by
  simp only [parseEmergencyTemperature, throw, throwThe, MonadExceptOf.throw, bind_eq_error_iff,
    okOr_eq_error_iff, error_bind, guard_eq_error_iff] at failed
  rcases failed with ⟨_, rfl⟩ | ⟨_, _, ⟨_, rfl⟩ | ⟨_, _, ⟨_, rfl⟩ | ⟨_, converted⟩⟩⟩
  all_goals first | rfl | cases converted

/-- The error of a key that is unknown, or of a value that denotes no setting. -/
theorem Settings.set_error {settings : Settings SocketAddr} {key value : String}
    {error : ConfigError} (failed : settings.set readers key value = .error error) :
    ((∀ setting : Setting SocketAddr, setting.key ≠ key) ∧ error = .unknownKey key) ∨
      (valueError key = some error ∧
        ∀ setting : Setting SocketAddr, setting.key = key → ¬ setting.DenotedBy readers value) := by
  have refused : ∀ setting : Setting SocketAddr, setting.key = key →
      ¬ setting.DenotedBy readers value := by
    intro setting same denoted
    have made : settings.set readers key value = .ok (setting.assign settings) :=
      set_eq_ok_iff.mpr ⟨setting, same, denoted, rfl⟩
    rw [made] at failed
    cases failed
  unfold set at failed
  split at failed
  case h_11 token destination interval curve smoothing step hysteresis up down emergency =>
    obtain rfl : ConfigError.unknownKey key = error := Except.error.inj failed
    refine Or.inl ⟨fun setting same => ?_, rfl⟩
    cases setting with
    | token => exact token same.symm
    | destination => exact destination same.symm
    | intervalMillis => exact interval same.symm
    | curve => exact curve same.symm
    | smoothingSeconds => exact smoothing same.symm
    | dutyStepPercent => exact step same.symm
    | dutyHysteresisPercent => exact hysteresis same.symm
    | rampUpPercentPerSecond => exact up same.symm
    | rampDownPercentPerSecond => exact down same.symm
    | emergencyTemperatureMilliC => exact emergency same.symm
  all_goals simp only [policyNumber, bind_eq_error_iff, okOr_eq_error_iff, mapError_eq_error_iff,
    pure, Except.pure, reduceCtorEq, and_false, exists_false, or_false] at failed
  case h_4 =>
    obtain ⟨cause, unread, rfl⟩ := failed
    obtain rfl := parseCurve_error unread
    exact Or.inr ⟨rfl, refused⟩
  case h_10 =>
    obtain rfl := parseEmergencyTemperature_error failed
    exact Or.inr ⟨rfl, refused⟩
  all_goals
    obtain ⟨_, rfl⟩ := failed
    exact Or.inr ⟨rfl, refused⟩

/-- The error of a line that is not skipped. -/
theorem Settings.readLine_error {settings : Settings SocketAddr} {line : String} {number : ℕ}
    {error : ConfigError} (failed : settings.readLine readers line number = .error error) :
    ¬ Skipped (Text.trim line) ∧
      ((Text.splitOnce '=' (Text.trim line) = none ∧ error = .invalidLine number) ∨
        ∃ left right, Text.splitOnce '=' (Text.trim line) = some (left, right) ∧
          ((Text.trim left ∈ settings.seenKeys ∧ error = .duplicateKey (Text.trim left)) ∨
            ∃ recorded : Settings SocketAddr,
              recorded.set readers (Text.trim left) (Text.trim right) = .error error)) := by
  by_cases skipped : Skipped (Text.trim line)
  · have left : settings.readLine readers line number = .ok settings := by
      rw [readLine]
      exact if_pos skipped
    rw [left] at failed
    cases failed
  · refine ⟨skipped, ?_⟩
    have used : ¬ (Text.trim line = "" ∨ (Text.trim line).toList.head? = some '#') := skipped
    simp only [readLine, if_neg used, bind_eq_error_iff, okOr_eq_error_iff, throw, throwThe,
      MonadExceptOf.throw, guard_eq_error_iff, error_bind] at failed
    rcases failed with ⟨whole, rfl⟩ | ⟨⟨left, right⟩, split, ⟨old, rfl⟩ | ⟨_, unset⟩⟩
    · exact Or.inl ⟨whole, rfl⟩
    · exact Or.inr ⟨left, right, okOr_eq_ok_iff.mp split, Or.inl ⟨old, rfl⟩⟩
    · exact Or.inr ⟨left, right, okOr_eq_ok_iff.mp split, Or.inr ⟨_, unset⟩⟩

/-! ## What the lines have set -/

theorem numbers_ascend (contents : String) :
    ((Text.lines contents).zipIdx 1).Pairwise fun earlier later => earlier.2 < later.2 := by
  apply List.pairwise_map.mp
  rw [List.zipIdx_map_snd]
  exact List.pairwise_lt_range'

/-- The lines that the settings were read from. -/
structure ReadFrom (readers : ValueReaders SocketAddr) (entries : List (String × ℕ))
    (updates : List (Setting SocketAddr)) : Prop where
  stated : ∀ update ∈ updates, ∃ entry ∈ entries, ¬ Skipped (Text.trim entry.1) ∧
    Assigns readers (Text.trim entry.1) update
  read : ∀ entry ∈ entries, ¬ Skipped (Text.trim entry.1) →
    ∃ update ∈ updates, Assigns readers (Text.trim entry.1) update
  distinct : (updates.map Setting.key).Nodup

theorem exists_updates {entries : List (String × ℕ)} {reached : Settings SocketAddr}
    (led : entries.foldlM (fun settings line => settings.readLine readers line.1 line.2)
      Settings.initial = .ok reached) :
    ∃ updates, ReadFrom readers entries updates ∧
      reached = applyAll Setting.record updates Settings.initial := by
  obtain ⟨updates, assigned, distinct, _, made⟩ := readLine_turns.foldlM_eq_ok_iff.mp led
  refine ⟨updates, ⟨?_, ?_, distinct⟩, made⟩
  · intro update member
    obtain ⟨line, inside, assigns⟩ := exists_entry_of_mem assigned member
    obtain ⟨listed, used⟩ := List.mem_filter.mp inside
    obtain ⟨entry, source, rfl⟩ := List.mem_map.mp listed
    exact ⟨entry, source, of_decide_eq_true used, assigns⟩
  · intro entry member used
    refine exists_update_of_mem assigned (List.mem_filter.mpr ⟨?_, decide_eq_true used⟩)
    exact List.mem_map_of_mem member

theorem mem_seenKeys_iff {updates : List (Setting SocketAddr)} {start : Settings SocketAddr}
    {key : String} : key ∈ (applyAll Setting.record updates start).seenKeys ↔
      key ∈ start.seenKeys ∨ ∃ update ∈ updates, update.key = key := by
  induction updates generalizing start with
  | nil => simp [applyAll]
  | cons update rest ih =>
      change key ∈ (applyAll Setting.record rest (update.record start)).seenKeys ↔ _
      rw [ih, Setting.record_seenKeys]
      simp only [List.mem_cons, exists_eq_or_imp]
      constructor
      · rintro ((same | old) | later)
        · exact Or.inr (Or.inl same.symm)
        · exact Or.inl old
        · exact Or.inr (Or.inr later)
      · rintro (old | same | later)
        · exact Or.inl (Or.inr old)
        · exact Or.inl (Or.inl same.symm)
        · exact Or.inr later

/-- What the settings hold for the key of a setting; its value stands in where there is none. -/
def Settings.held (settings : Settings SocketAddr) : Setting SocketAddr → Setting SocketAddr
  | .token value => .token (settings.token.getD value)
  | .destination value => .destination (settings.destination.getD value)
  | .intervalMillis _ => .intervalMillis (settings.intervalMillis.getD defaultIntervalMillis)
  | .curve _ => .curve settings.policy.curve
  | .smoothingSeconds _ => .smoothingSeconds settings.policy.smoothingSeconds
  | .dutyStepPercent _ => .dutyStepPercent settings.policy.dutyStepPercent
  | .dutyHysteresisPercent _ => .dutyHysteresisPercent settings.policy.dutyHysteresisPercent
  | .rampUpPercentPerSecond _ => .rampUpPercentPerSecond settings.policy.rampUpPercentPerSecond
  | .rampDownPercentPerSecond _ =>
      .rampDownPercentPerSecond settings.policy.rampDownPercentPerSecond
  | .emergencyTemperatureMilliC _ =>
      .emergencyTemperatureMilliC settings.policy.emergencyTemperatureMilliC

theorem Settings.held_key (settings : Settings SocketAddr) (wanted : Setting SocketAddr) :
    (settings.held wanted).key = wanted.key := by
  cases wanted <;> rfl

/-- Recording a setting makes it held. -/
theorem Settings.held_record {setting wanted : Setting SocketAddr}
    (same : setting.key = wanted.key) (settings : Settings SocketAddr) :
    (setting.record settings).held wanted = setting := by
  cases setting <;> cases wanted <;> simp only [Setting.key, String.reduceEq] at same <;> rfl

/-- Recording a setting leaves what is held for other keys. -/
theorem Settings.held_record_of_ne {setting wanted : Setting SocketAddr}
    (differ : setting.key ≠ wanted.key) (settings : Settings SocketAddr) :
    (setting.record settings).held wanted = settings.held wanted := by
  cases setting <;> cases wanted <;> first | rfl | exact absurd rfl differ

section Held

variable {updates : List (Setting SocketAddr)} {start : Settings SocketAddr}
  {wanted : Setting SocketAddr}

/-- What is held for a key that is not set is what was held at the start. -/
theorem held_applyAll_of_not_mem (unset : ∀ update ∈ updates, update.key ≠ wanted.key) :
    (applyAll Setting.record updates start).held wanted = start.held wanted := by
  induction updates generalizing start with
  | nil => rfl
  | cons update rest ih =>
      obtain ⟨here, later⟩ := List.forall_mem_cons.mp unset
      exact (ih later).trans (Settings.held_record_of_ne here start)

/-- What is held for a key that is set once is that setting. -/
theorem held_applyAll_of_mem {update : Setting SocketAddr}
    (distinct : (updates.map Setting.key).Nodup) (member : update ∈ updates)
    (same : update.key = wanted.key) :
    (applyAll Setting.record updates start).held wanted = update := by
  induction updates generalizing start with
  | nil => exact (List.not_mem_nil member).elim
  | cons first rest ih =>
      rw [List.map_cons, List.nodup_cons] at distinct
      rcases List.mem_cons.mp member with rfl | later
      · have unset : ∀ other ∈ rest, other.key ≠ wanted.key := fun other inside key =>
          distinct.1 ((same.trans key.symm) ▸ List.mem_map_of_mem inside)
        exact (held_applyAll_of_not_mem unset).trans (Settings.held_record same start)
      · exact ih distinct.2 later

/-- What is held in the end was held at the start or is one of the settings. -/
theorem held_applyAll (distinct : (updates.map Setting.key).Nodup) :
    (applyAll Setting.record updates start).held wanted = start.held wanted ∨
      (applyAll Setting.record updates start).held wanted ∈ updates := by
  by_cases set : ∃ update ∈ updates, update.key = wanted.key
  · obtain ⟨update, member, same⟩ := set
    rw [held_applyAll_of_mem distinct member same]
    exact Or.inr member
  · exact Or.inl (held_applyAll_of_not_mem fun update member same => set ⟨update, member, same⟩)

end Held

/-- A token that was set is held. -/
theorem token_isSome {updates : List (Setting SocketAddr)} {start : Settings SocketAddr}
    (set : start.token.isSome ∨ ∃ update ∈ updates, update.key = "token") :
    (applyAll Setting.record updates start).token.isSome := by
  induction updates generalizing start with
  | nil =>
      rcases set with held | ⟨update, absent, _⟩
      · exact held
      · exact (List.not_mem_nil absent).elim
  | cons update rest ih =>
      refine @ih (update.record start) ?_
      rcases set with held | ⟨other, member, key⟩
      · refine Or.inl ?_
        cases update <;> first | exact held | rfl
      · rcases List.mem_cons.mp member with rfl | later
        · refine Or.inl ?_
          cases other <;> first | rfl | exact absurd key (by simp [Setting.key])
        · exact Or.inr ⟨other, later, key⟩

/-- A text denotes one setting of a key. -/
theorem Setting.DenotedBy.unique {text : String} {first second : Setting SocketAddr}
    (left : first.DenotedBy readers text) (right : second.DenotedBy readers text)
    (same : first.key = second.key) : first = second := by
  cases first <;> cases second <;> simp only [key, String.reduceEq] at same <;>
    simp_all [DenotedBy]

section Sources

variable {contents : String} {updates : List (Setting SocketAddr)}

/-- The setting stands in the file. -/
theorem exists_setsAt
    (read : ReadFrom readers ((Text.lines contents).zipIdx 1) updates)
    {update : Setting SocketAddr} (member : update ∈ updates) :
    ∃ number value, SetsAt contents number update.key value ∧ update.DenotedBy readers value := by
  obtain ⟨⟨line, number⟩, source, used, left, right, split, key, denoted⟩ :=
    read.stated update member
  exact ⟨number, _, ⟨line, left, right, source, used, split, key.symm, rfl⟩, denoted⟩

/-- A setting out of range is to blame. -/
theorem misset_of_mem (read : ReadFrom readers ((Text.lines contents).zipIdx 1) updates)
    {update : Setting SocketAddr} (member : update ∈ updates) (outside : ¬ update.InRange) :
    Misset readers contents update.key := by
  obtain ⟨number, value, sets, denoted⟩ := exists_setsAt read member
  refine ⟨number, value, sets, fun setting key other inside => outside ?_⟩
  rwa [denoted.unique other key.symm]

/-- Held values are in range where the policy is valid and the token and the interval are. -/
theorem held_inRange {settings : Settings SocketAddr} (valid : settings.policy.Valid)
    (interval : (.intervalMillis (settings.intervalMillis.getD defaultIntervalMillis) :
      Setting SocketAddr).InRange) {wanted : Setting SocketAddr}
    (token : ∀ value, wanted = .token value → WellFormedToken (settings.token.getD value)) :
    (settings.held wanted).InRange := by
  cases wanted with
  | token value => exact token value rfl
  | destination => trivial
  | intervalMillis => exact interval
  | curve =>
      obtain ⟨last, isLast, full, _⟩ := valid.endsFull
      exact ⟨valid.two_le_length, valid.ascending, valid.inRange, last, isLast, full⟩
  | smoothingSeconds => exact valid.smoothing_le
  | dutyStepPercent => exact valid.step
  | dutyHysteresisPercent => exact valid.hysteresis_le
  | rampUpPercentPerSecond => exact valid.rampUp
  | rampDownPercentPerSecond => exact valid.rampDown
  | emergencyTemperatureMilliC => exact valid.emergency

/-- The defaults are in range, whatever stands in for the token. -/
theorem initial_inRange {wanted : Setting SocketAddr}
    (shaped : ∀ token, wanted = .token token → WellFormedToken token) :
    (Settings.initial.held wanted).InRange := by
  refine held_inRange FanPolicyConfig.default_valid ?_ shaped
  change 250 ≤ defaultIntervalMillis ∧ defaultIntervalMillis ≤ 60000
  decide

/-- A held value out of range is to blame. -/
theorem misset_of_held (read : ReadFrom readers ((Text.lines contents).zipIdx 1) updates)
    {wanted : Setting SocketAddr}
    (shaped : ∀ token, wanted = .token token → WellFormedToken token)
    (outside : ¬ ((applyAll Setting.record updates Settings.initial).held wanted).InRange) :
    Misset readers contents wanted.key := by
  rcases held_applyAll read.distinct with same | stated
  · rw [same] at outside
    exact (outside (initial_inRange shaped)).elim
  · rw [← (applyAll Setting.record updates Settings.initial).held_key wanted]
    exact misset_of_mem read stated outside

/-- A key that the file sets is that of one of the settings. -/
theorem exists_update (read : ReadFrom readers ((Text.lines contents).zipIdx 1) updates)
    {number : ℕ} {key value : String} (sets : SetsAt contents number key value) :
    ∃ update ∈ updates, update.key = key ∧ update.DenotedBy readers value := by
  obtain ⟨line, left, right, source, used, parts, rfl, rfl⟩ := sets
  obtain ⟨update, member, _, _, split, same, denoted⟩ := read.read _ source used
  obtain ⟨rfl, rfl⟩ := Prod.mk.inj (Option.some.inj (parts.symm.trans split))
  exact ⟨update, member, same, denoted⟩

/-- What is in effect is what is held in the end. -/
theorem inEffect_iff (read : ReadFrom readers ((Text.lines contents).zipIdx 1) updates)
    {setting wanted : Setting SocketAddr} (same : setting.key = wanted.key) :
    InEffect readers contents setting (Settings.initial.held wanted) ↔
      (applyAll Setting.record updates Settings.initial).held wanted = setting := by
  constructor
  · rintro (⟨number, value, sets, denoted⟩ | ⟨rfl, unset⟩)
    · obtain ⟨update, member, key, other⟩ := exists_update read sets
      rw [held_applyAll_of_mem read.distinct member (key.trans same)]
      exact other.unique denoted key
    · refine held_applyAll_of_not_mem fun update member key => ?_
      obtain ⟨number, value, sets, _⟩ := exists_setsAt read member
      rw [key, ← same] at sets
      exact unset number value sets
  · rintro rfl
    by_cases set : ∃ update ∈ updates, update.key = wanted.key
    · obtain ⟨update, member, key⟩ := set
      rw [held_applyAll_of_mem read.distinct member key]
      exact Or.inl (exists_setsAt read member)
    · refine Or.inr ⟨held_applyAll_of_not_mem fun update member key =>
        set ⟨update, member, key⟩, fun number value sets => ?_⟩
      obtain ⟨update, member, key, _⟩ := exists_update read sets
      exact set ⟨update, member, key.trans same⟩

end Sources

/-! ## The error after the last line -/

/-- What a policy that does not pass validation gets wrong. -/
def FanPolicyConfig.Violates (SocketAddr : Type) (config : FanPolicyConfig) :
    PolicyConfigError → Prop
  | .invalidCurve => ¬ (.curve config.curve : Setting SocketAddr).InRange ∨
      ∃ last, config.curve.getLast? = some last ∧
        config.emergencyTemperatureMilliC < last.temperatureMilliC
  | .invalidSmoothing =>
      ¬ (.smoothingSeconds config.smoothingSeconds : Setting SocketAddr).InRange
  | .invalidDutyStep => ¬ (.dutyStepPercent config.dutyStepPercent : Setting SocketAddr).InRange
  | .invalidHysteresis =>
      ¬ (.dutyHysteresisPercent config.dutyHysteresisPercent : Setting SocketAddr).InRange
  | .invalidRamp =>
      ¬ (.rampUpPercentPerSecond config.rampUpPercentPerSecond : Setting SocketAddr).InRange ∨
      ¬ (.rampDownPercentPerSecond config.rampDownPercentPerSecond : Setting SocketAddr).InRange
  | .invalidEmergencyTemperature =>
      ¬ (.emergencyTemperatureMilliC config.emergencyTemperatureMilliC :
        Setting SocketAddr).InRange

/-- A curve that does not pass has a fault of its own or ends too late. -/
theorem FanPolicyConfig.violates_invalidCurve {config : FanPolicyConfig}
    (tripped : config.curve.length < 2 ∨
      ((windows config.curve).any fun points =>
        points.1.temperatureMilliC ≥ points.2.temperatureMilliC ∨
          points.1.dutyPercent > points.2.dutyPercent) ∨
      (config.curve.any fun point =>
        ¬ (0 ≤ point.temperatureMilliC ∧ point.temperatureMilliC ≤ 120000) ∨
          ¬ (minDutyPercent ≤ point.dutyPercent ∧ point.dutyPercent ≤ maxDutyPercent)) ∨
      (config.curve.getLast?.all fun point =>
        point.dutyPercent ≠ maxDutyPercent ∨
          point.temperatureMilliC > config.emergencyTemperatureMilliC)) :
    config.Violates SocketAddr .invalidCurve := by
  by_contra sound
  obtain ⟨inRange, early⟩ := not_or.mp sound
  obtain ⟨long, ascending, inside, last, isLast, full⟩ := not_not.mp inRange
  rcases tripped with short | descending | outside | late
  · omega
  · obtain ⟨points, member, wrong⟩ := List.any_eq_true.mp descending
    have rises := ascending points member
    rcases of_decide_eq_true wrong with cooler | slower
    · exact absurd rises.1 (not_lt.mpr cooler)
    · exact absurd rises.2 (not_le.mpr slower)
  · obtain ⟨point, member, wrong⟩ := List.any_eq_true.mp outside
    have bounds := inside point member
    rcases of_decide_eq_true wrong with temperature | duty
    · exact temperature bounds.1
    · exact duty bounds.2
  · rw [isLast, Option.all_some] at late
    rcases of_decide_eq_true late with partly | above
    · exact partly full
    · exact early ⟨last, isLast, above⟩

theorem FanPolicyConfig.validate_error {config : FanPolicyConfig} {error : PolicyConfigError}
    (failed : config.validate = .error error) : config.Violates SocketAddr error := by
  simp only [validate, throw, throwThe, MonadExceptOf.throw, error_bind,
    guard_eq_error_iff] at failed
  rcases failed with ⟨curve, rfl⟩ | ⟨_, ⟨smoothing, rfl⟩ | ⟨_, ⟨step, rfl⟩ | ⟨_, ⟨hysteresis, rfl⟩ |
    ⟨_, ⟨ramps, rfl⟩ | ⟨_, ⟨emergency, rfl⟩ | ⟨_, done⟩⟩⟩⟩⟩⟩
  · exact violates_invalidCurve curve
  · exact not_le.mpr smoothing
  · exact step
  · exact not_le.mpr hysteresis
  · exact ramps
  · exact emergency
  · cases done

/-- The error of the checks after the last line. -/
theorem Settings.finish_error {settings : Settings SocketAddr} {error : ConfigError}
    (failed : settings.finish readers = .error error) :
    (settings.token = none ∧ error = .missingToken) ∨
      (∃ token, settings.token = some token ∧ ¬ WellFormedToken token ∧ error = .invalidToken) ∨
      (¬ (.intervalMillis (settings.intervalMillis.getD defaultIntervalMillis) :
        Setting SocketAddr).InRange ∧ error = .invalidInterval) ∨
      ∃ cause, settings.policy.Violates SocketAddr cause ∧ error = .invalidPolicy cause := by
  simp only [finish, throw, throwThe, MonadExceptOf.throw, bind_eq_error_iff, okOr_eq_error_iff,
    okOr_eq_ok_iff, error_bind, guard_eq_error_iff, mapError_eq_error_iff] at failed
  rcases failed with ⟨none, rfl⟩ | ⟨token, some, ⟨malformed, rfl⟩ | ⟨_, ⟨interval, rfl⟩ |
    ⟨_, ⟨cause, invalid, rfl⟩ | ⟨_, _, done⟩⟩⟩⟩
  · exact Or.inl ⟨none, rfl⟩
  · refine Or.inr (Or.inl ⟨token, some, fun shaped => ?_, rfl⟩)
    rcases malformed with short | long | character
    · exact absurd shaped.length_ge (not_le.mpr short)
    · exact absurd shaped.length_le (not_le.mpr long)
    · exact character (List.all_eq_true.mpr shaped.characters)
  · exact Or.inr (Or.inr (Or.inl ⟨interval, rfl⟩))
  · exact Or.inr (Or.inr (Or.inr ⟨cause, FanPolicyConfig.validate_error invalid, rfl⟩))
  · cases done

/-! ## Every error is right about the file -/

section Errors

variable {contents : String} {error : ConfigError}

/-- An unreadable value is reported under its key. -/
theorem blames_of_valueError {key : String} (reported : valueError key = some error)
    (misset : Misset readers contents key) : Blames readers contents error := by
  unfold valueError at reported
  split at reported
  all_goals cases reported
  all_goals first | exact misset | exact Or.inl misset | exact Or.inr misset

/-- The error of a line. -/
theorem blames_of_line
    (failed : ((Text.lines contents).zipIdx 1).foldlM
      (fun settings line => settings.readLine readers line.1 line.2)
      (Settings.initial : Settings SocketAddr) = .error error) :
    Blames readers contents error := by
  obtain ⟨before, ⟨line, number⟩, after, reached, split, led, fails⟩ :=
    foldlM_eq_error_iff.mp failed
  have here : (line, number) ∈ (Text.lines contents).zipIdx 1 := by
    rw [split]
    exact List.mem_append_right _ List.mem_cons_self
  obtain ⟨used, fault⟩ := Settings.readLine_error fails
  rcases fault with ⟨whole, rfl⟩ | ⟨left, right, parts, ⟨old, rfl⟩ | ⟨recorded, unset⟩⟩
  · exact ⟨line, here, used, whole⟩
  · obtain ⟨updates, read, rfl⟩ := exists_updates led
    rcases mem_seenKeys_iff.mp old with never | ⟨update, member, same⟩
    · cases never
    obtain ⟨⟨earlier, first⟩, source, usedEarlier, key, value, partsEarlier, keySame, _⟩ :=
      read.stated update member
    have ascending := numbers_ascend contents
    rw [split] at ascending
    have order : first < number :=
      (List.pairwise_append.mp ascending).2.2 _ source _ List.mem_cons_self
    refine ⟨first, number, Text.trim value, Text.trim right, order, ?_, ?_⟩
    · refine ⟨earlier, key, value, ?_, usedEarlier, partsEarlier, keySame.symm.trans same, rfl⟩
      rw [split]
      exact List.mem_append_left _ source
    · exact ⟨line, left, right, here, used, parts, rfl, rfl⟩
  · have sets : SetsAt contents number (Text.trim left) (Text.trim right) :=
      ⟨line, left, right, here, used, parts, rfl, rfl⟩
    rcases Settings.set_error unset with ⟨unknown, rfl⟩ | ⟨reported, unread⟩
    · exact ⟨⟨number, _, sets⟩, unknown⟩
    · exact blames_of_valueError reported ⟨number, _, sets,
        fun setting same denoted => absurd denoted (unread setting same)⟩

/-- The error of the policy's validation. -/
theorem blames_of_violates {updates : List (Setting SocketAddr)}
    (read : ReadFrom readers ((Text.lines contents).zipIdx 1) updates) {cause : PolicyConfigError}
    (violates : (applyAll Setting.record updates Settings.initial).policy.Violates SocketAddr
      cause) : Blames readers contents (.invalidPolicy cause) := by
  cases cause with
  | invalidCurve =>
      rcases violates with curve | ⟨last, isLast, above⟩
      · exact Or.inl (@misset_of_held _ _ _ _ read (.curve []) nofun curve)
      · have inEffect : ∀ wanted, InEffect readers contents
            ((applyAll Setting.record updates Settings.initial).held wanted)
            (Settings.initial.held wanted) :=
          fun wanted => (inEffect_iff read (Settings.held_key _ wanted)).mpr rfl
        exact Or.inr ⟨_, last, _, isLast, above, inEffect (.curve []),
          inEffect (.emergencyTemperatureMilliC 0)⟩
  | invalidSmoothing => exact @misset_of_held _ _ _ _ read (.smoothingSeconds 0) nofun violates
  | invalidDutyStep => exact @misset_of_held _ _ _ _ read (.dutyStepPercent 0) nofun violates
  | invalidHysteresis =>
      exact @misset_of_held _ _ _ _ read (.dutyHysteresisPercent 0) nofun violates
  | invalidRamp =>
      rcases violates with up | down
      · exact Or.inl (@misset_of_held _ _ _ _ read (.rampUpPercentPerSecond 0) nofun up)
      · exact Or.inr (@misset_of_held _ _ _ _ read (.rampDownPercentPerSecond 0) nofun down)
  | invalidEmergencyTemperature =>
      exact @misset_of_held _ _ _ _ read (.emergencyTemperatureMilliC 0) nofun violates

/-- The error of the checks. -/
theorem blames_of_finish {updates : List (Setting SocketAddr)}
    (read : ReadFrom readers ((Text.lines contents).zipIdx 1) updates)
    (failed : (applyAll Setting.record updates Settings.initial).finish readers = .error error) :
    Blames readers contents error := by
  rcases Settings.finish_error failed with ⟨missing, rfl⟩ | ⟨token, held, malformed, rfl⟩ |
    ⟨interval, rfl⟩ | ⟨cause, violates, rfl⟩
  · intro number value sets
    obtain ⟨update, member, key, _⟩ := exists_update read sets
    have held := @token_isSome _ _ Settings.initial (Or.inr ⟨update, member, key⟩)
    rw [missing] at held
    cases held
  · refine @misset_of_held _ _ _ _ read (.token "abcdefghijklmnop") ?_ ?_
    · rintro _ ⟨⟩
      exact ⟨by decide +kernel, by decide +kernel, by decide +kernel⟩
    · rw [Settings.held, held]
      exact malformed
  · exact @misset_of_held _ _ _ _ read (.intervalMillis 0) nofun interval
  · exact blames_of_violates read violates

/-! ## Nothing else is an error -/

/-- What an accepted file holds. -/
structure Accepted (settings : Settings SocketAddr) : Prop where
  token : ∃ token, settings.token = some token ∧ WellFormedToken token
  interval : (.intervalMillis (settings.intervalMillis.getD defaultIntervalMillis) :
    Setting SocketAddr).InRange
  policy : settings.policy.Valid

theorem accepted_of_finish {settings : Settings SocketAddr} {config : AgentConfig SocketAddr}
    (finished : settings.finish readers = .ok config) : Accepted settings := by
  simp only [Settings.finish, bind_eq_ok_iff, okOr_eq_ok_iff, throw, throwThe,
    MonadExceptOf.throw, error_bind, guard_eq_ok_iff, mapError_eq_ok_iff, pure, Except.pure,
    Except.ok.injEq] at finished
  obtain ⟨token, held, shaped, interval, ⟨⟩, valid, _⟩ := finished
  rw [not_or, not_or, not_not, Nat.not_lt, Nat.not_lt, List.all_eq_true] at shaped
  exact ⟨⟨token, held, shaped.1, shaped.2.1, shaped.2.2⟩, not_not.mp interval,
    (FanPolicyConfig.validate_eq_ok_iff settings.policy).mp valid⟩

/-- Accepted settings are in range. -/
theorem Accepted.inRange {settings : Settings SocketAddr} (accepted : Accepted settings)
    (wanted : Setting SocketAddr) : (settings.held wanted).InRange := by
  refine held_inRange accepted.policy accepted.interval fun value _ => ?_
  obtain ⟨token, held, shaped⟩ := accepted.token
  rw [held]
  exact shaped

section Accepting

variable {updates : List (Setting SocketAddr)}

theorem Accepted.not_misset
    (accepted : Accepted (applyAll Setting.record updates Settings.initial))
    (read : ReadFrom readers ((Text.lines contents).zipIdx 1) updates) (key : String) :
    ¬ Misset readers contents key := by
  rintro ⟨number, value, sets, outside⟩
  obtain ⟨update, member, same, denoted⟩ := exists_update read sets
  have inside := accepted.inRange update
  rw [held_applyAll_of_mem read.distinct member rfl] at inside
  exact outside update same denoted inside

theorem Accepted.not_endsLate
    (accepted : Accepted (applyAll Setting.record updates Settings.initial))
    (read : ReadFrom readers ((Text.lines contents).zipIdx 1) updates) :
    ¬ EndsLate readers contents := by
  rintro ⟨curve, last, emergency, isLast, above, curveHeld, emergencyHeld⟩
  have sameCurve := (@inEffect_iff _ _ _ _ read (.curve curve) (.curve []) rfl).mp curveHeld
  have sameEmergency := (@inEffect_iff _ _ _ _ read (.emergencyTemperatureMilliC emergency)
    (.emergencyTemperatureMilliC 0) rfl).mp emergencyHeld
  obtain ⟨final, isFinal, _, early⟩ := accepted.policy.endsFull
  rw [Setting.curve.inj sameCurve] at isFinal
  rw [Setting.emergencyTemperatureMilliC.inj sameEmergency] at early
  obtain rfl := Option.some.inj (isFinal.symm.trans isLast)
  exact absurd early (not_le.mpr above)

/-- An accepted file sets a token. -/
theorem Accepted.exists_token
    (accepted : Accepted (applyAll Setting.record updates Settings.initial))
    (read : ReadFrom readers ((Text.lines contents).zipIdx 1) updates) :
    ∃ number value, SetsAt contents number "token" value := by
  by_contra unset
  have others : ∀ update ∈ updates, update.key ≠ "token" := by
    intro update member key
    obtain ⟨number, value, sets, _⟩ := exists_setsAt read member
    rw [key] at sets
    exact unset ⟨number, value, sets⟩
  obtain ⟨token, held, _⟩ := accepted.token
  -- Whatever stands in for the token would be held.
  have standIn : ∀ value, token = value := by
    intro value
    have same := @held_applyAll_of_not_mem _ _ Settings.initial (.token value) others
    rw [Settings.held, held] at same
    exact Setting.token.inj same
  exact absurd ((standIn "").symm.trans (standIn "a")) (by decide)

/-- An accepted file sets no key twice. -/
theorem not_repeated {settings : Settings SocketAddr}
    (led : ((Text.lines contents).zipIdx 1).foldlM
      (fun settings line => settings.readLine readers line.1 line.2) Settings.initial =
        .ok settings) {first second : ℕ} {key value other : String} (order : first < second)
    (earlier : SetsAt contents first key value) : ¬ SetsAt contents second key other := by
  rintro ⟨line, left, right, source, used, parts, rfl, rfl⟩
  obtain ⟨above, aboveLeft, aboveRight, aboveSource, aboveUsed, aboveParts, sameKey, _⟩ := earlier
  obtain ⟨prior, rest, split⟩ := List.append_of_mem source
  have ascending := numbers_ascend contents
  rw [split] at ascending aboveSource
  rw [split, List.foldlM_append, bind_eq_ok_iff] at led
  obtain ⟨reached, priorLed, remaining⟩ := led
  rw [List.foldlM_cons, bind_eq_ok_iff] at remaining
  obtain ⟨next, turned, _⟩ := remaining
  have inPrior : (above, first) ∈ prior := by
    rcases List.mem_append.mp aboveSource with inside | beyond
    · exact inside
    rcases List.mem_cons.mp beyond with same | later
    · exact absurd (congrArg Prod.snd same) (Nat.ne_of_lt order)
    · have backwards := (List.pairwise_cons.mp (List.pairwise_append.mp ascending).2.1).1 _ later
      exact absurd backwards (Nat.not_lt.mpr (Nat.le_of_lt order))
  obtain ⟨updates, read, made⟩ := exists_updates priorLed
  have old : Text.trim left ∈ reached.seenKeys := by
    obtain ⟨update, member, _, _, parted, key, _⟩ := read.read _ inPrior aboveUsed
    obtain ⟨rfl, rfl⟩ := Prod.mk.inj (Option.some.inj (aboveParts.symm.trans parted))
    rw [made]
    exact mem_seenKeys_iff.mpr (Or.inr ⟨update, member, key.trans sameKey⟩)
  rcases readLine_turns.step_eq_ok_iff.mp turned with ⟨skipped, _⟩ | ⟨_, update, reads, new, _⟩
  · exact used skipped
  · obtain ⟨_, _, parted, key, _⟩ := reads
    obtain ⟨rfl, rfl⟩ := Prod.mk.inj (Option.some.inj (parts.symm.trans parted))
    rw [key] at new
    exact new old

end Accepting

/-- An accepted file has nothing to blame. -/
theorem not_blames_of_accepted {config : AgentConfig SocketAddr}
    (accepted : parseConfig readers contents = .ok config) : ¬ Blames readers contents error := by
  obtain ⟨settings, led, finished⟩ := bind_eq_ok_iff.mp accepted
  obtain ⟨updates, read, rfl⟩ := exists_updates led
  have passes := accepted_of_finish finished
  intro blames
  cases error with
  | invalidLine number =>
      obtain ⟨line, source, used, whole⟩ := blames
      obtain ⟨_, _, _, _, split, _⟩ := read.read _ source used
      rw [whole] at split
      cases split
  | missingToken =>
      obtain ⟨number, value, sets⟩ := passes.exists_token read
      exact blames number value sets
  | invalidToken | invalidDestination | invalidInterval => exact passes.not_misset read _ blames
  | invalidPolicy cause =>
      cases cause with
      | invalidCurve => exact blames.elim (passes.not_misset read _) (passes.not_endsLate read)
      | invalidRamp => exact blames.elim (passes.not_misset read _) (passes.not_misset read _)
      | invalidSmoothing | invalidDutyStep | invalidHysteresis | invalidEmergencyTemperature =>
          exact passes.not_misset read _ blames
  | duplicateKey key =>
      obtain ⟨first, second, value, other, order, earlier, later⟩ := blames
      exact not_repeated led order earlier later
  | unknownKey key =>
      obtain ⟨⟨number, value, sets⟩, unknown⟩ := blames
      obtain ⟨update, _, same, _⟩ := exists_update read sets
      exact unknown update same

end Errors

/-- **A file is rejected for its faults.** The error of a rejected file is right about it: it
names a line that is no setting, a key that is unknown or set again further down, a missing
token, or a setting whose value in the file cannot be read or does not pass the checks, or else the
curve in effect does not end in time. An accepted file has no such fault. -/
theorem parseConfig_blames (readers : ValueReaders SocketAddr) (contents : String) :
    (∀ error, parseConfig readers contents = .error error → Blames readers contents error) ∧
      ∀ config, parseConfig readers contents = .ok config →
        ∀ error, ¬ Blames readers contents error := by
  constructor
  · intro error failed
    rcases bind_eq_error_iff.mp failed with line | ⟨settings, led, finished⟩
    · exact blames_of_line line
    · obtain ⟨updates, read, rfl⟩ := exists_updates led
      exact blames_of_finish read finished
  · intro config accepted error
    exact not_blames_of_accepted accepted

/-- A token that is set twice. -/
theorem parseConfig_blames_repeated :
    Blames sampleReaders "token=a\ntoken=b" (.duplicateKey "token") := by
  have tested : (parseConfig sampleReaders "token=a\ntoken=b").map (fun _ => ()) =
      .error (.duplicateKey "token") := by decide +kernel
  cases answer : parseConfig sampleReaders "token=a\ntoken=b" with
  | error error =>
      rw [answer] at tested
      obtain rfl := Except.error.inj tested
      exact (parseConfig_blames sampleReaders _).1 _ answer
  | ok config =>
      rw [answer] at tested
      cases tested

/-- The product of a temperature with 1000 is rounded to a binary64 number and then to a whole
one, so that the first of these is in range and the second still is. -/
example : parseEmergencyTemperature (fun _ => some 49.9995) "49.9995" = .ok 50000 ∧
    parseEmergencyTemperature (fun _ => some 90.0004) "90.0004" = .ok 90000 := by decide +kernel

end LaptopCooler.HostAgent
