import LaptopCooler.HostAgent.AgentConfig
import LaptopCooler.Library.KeyedUpdates

/-! # What a configuration file means

Every line of a configuration file that is not blank or a comment denotes one
setting, and an accepted file has at most one for each key. The configuration
follows from the settings alone (`LaptopCooler.HostAgent.parseConfig_eq_ok_iff`),
so that the lines can stand in any order, with blank lines and comments between
them (`LaptopCooler.HostAgent.line_order_irrelevant`).
-/

namespace LaptopCooler.HostAgent

open Fallible KeyedUpdates

/-! ## Settings -/

/-- One setting with its value. -/
inductive Setting (SocketAddr : Type) where
  | token (token : String)
  | destination (destination : SocketAddr)
  | intervalMillis (intervalMillis : ℕ)
  | curve (curve : List CurvePoint)
  | smoothingSeconds (smoothingSeconds : ℕ)
  | dutyStepPercent (dutyStepPercent : ℕ)
  | dutyHysteresisPercent (dutyHysteresisPercent : ℕ)
  | rampUpPercentPerSecond (rampUpPercentPerSecond : ℕ)
  | rampDownPercentPerSecond (rampDownPercentPerSecond : ℕ)
  | emergencyTemperatureMilliC (emergencyTemperatureMilliC : ℤ)

variable {SocketAddr : Type}

namespace Setting

def key : Setting SocketAddr → String
  | token _ => "token"
  | destination _ => "destination"
  | intervalMillis _ => "interval_ms"
  | curve _ => "curve"
  | smoothingSeconds _ => "smoothing_seconds"
  | dutyStepPercent _ => "duty_step_percent"
  | dutyHysteresisPercent _ => "duty_hysteresis_percent"
  | rampUpPercentPerSecond _ => "ramp_up_percent_per_second"
  | rampDownPercentPerSecond _ => "ramp_down_percent_per_second"
  | emergencyTemperatureMilliC _ => "emergency_temperature_c"

/-- The text is one that the setting's value is read from. -/
def DenotedBy (readers : ValueReaders SocketAddr) (text : String) : Setting SocketAddr → Prop
  | token value => text = value
  | destination value => readers.readSocketAddr text = some value
  | intervalMillis value => Text.parseUnsigned 18446744073709551615 text = some value
  | curve value => parseCurve readers.readFloat text = .ok value
  | smoothingSeconds value => Text.parseUnsigned 4294967295 text = some value
  | dutyStepPercent value => Text.parseUnsigned 255 text = some value
  | dutyHysteresisPercent value => Text.parseUnsigned 255 text = some value
  | rampUpPercentPerSecond value => Text.parseUnsigned 255 text = some value
  | rampDownPercentPerSecond value => Text.parseUnsigned 255 text = some value
  | emergencyTemperatureMilliC value =>
      parseEmergencyTemperature readers.readFloat text = .ok value

/-- The settings with the value in place. -/
def assign : Setting SocketAddr → Settings SocketAddr → Settings SocketAddr
  | token value, settings => { settings with token := some value }
  | destination value, settings => { settings with destination := some value }
  | intervalMillis value, settings => { settings with intervalMillis := some value }
  | curve value, settings => { settings with policy.curve := value }
  | smoothingSeconds value, settings => { settings with policy.smoothingSeconds := value }
  | dutyStepPercent value, settings => { settings with policy.dutyStepPercent := value }
  | dutyHysteresisPercent value, settings =>
      { settings with policy.dutyHysteresisPercent := value }
  | rampUpPercentPerSecond value, settings =>
      { settings with policy.rampUpPercentPerSecond := value }
  | rampDownPercentPerSecond value, settings =>
      { settings with policy.rampDownPercentPerSecond := value }
  | emergencyTemperatureMilliC value, settings =>
      { settings with policy.emergencyTemperatureMilliC := value }

/-- The settings with the value in place and its key among those seen. -/
def record (setting : Setting SocketAddr) (settings : Settings SocketAddr) : Settings SocketAddr :=
  setting.assign { settings with seenKeys := setting.key :: settings.seenKeys }

theorem record_seenKeys (setting : Setting SocketAddr) (settings : Settings SocketAddr) :
    (setting.record settings).seenKeys = setting.key :: settings.seenKeys := by
  cases setting <;> rfl

/-- Settings of different keys have different places. -/
theorem assign_comm {earlier later : Setting SocketAddr} (differ : earlier.key ≠ later.key)
    (settings : Settings SocketAddr) :
    later.assign (earlier.assign settings) = earlier.assign (later.assign settings) := by
  cases earlier <;> cases later <;> first | rfl | exact absurd rfl differ

end Setting

/-- The settings apart from the keys seen. -/
def Settings.values (settings : Settings SocketAddr) : Settings SocketAddr :=
  { settings with seenKeys := [] }

theorem Setting.record_values (setting : Setting SocketAddr) (settings : Settings SocketAddr) :
    (setting.record settings).values = setting.assign settings.values := by
  cases setting <;> rfl

/-- **Settings of different keys can be recorded in either order.** -/
theorem record_independent :
    Independent Setting.key Setting.record
      (Settings.values : Settings SocketAddr → Settings SocketAddr) where
  congr := by
    intro setting first second same
    rw [Setting.record_values, Setting.record_values, same]
  comm := by
    intro earlier later differ settings
    rw [Setting.record_values, Setting.record_values, Setting.record_values,
      Setting.record_values, Setting.assign_comm differ]

/-! ## Reading a line -/

variable {readers : ValueReaders SocketAddr}

/-- **A key's effect is its setting's.** The loop's match over the keys succeeds exactly if the
value denotes a setting with that key. -/
theorem Settings.set_eq_ok_iff {settings result : Settings SocketAddr} {key value : String} :
    settings.set readers key value = .ok result ↔
      ∃ setting : Setting SocketAddr, setting.key = key ∧ setting.DenotedBy readers value ∧
        result = setting.assign settings := by
  constructor
  · intro made
    unfold Settings.set at made
    split at made
    all_goals simp only [pure, Except.pure, policyNumber, bind_eq_ok_iff, okOr_eq_ok_iff,
      mapError_eq_ok_iff, Except.ok.injEq, throw, throwThe, MonadExceptOf.throw] at made
    · exact ⟨.token value, rfl, rfl, made.symm⟩
    · obtain ⟨read, denoted, rfl⟩ := made
      exact ⟨.destination read, rfl, denoted, rfl⟩
    · obtain ⟨read, denoted, rfl⟩ := made
      exact ⟨.intervalMillis read, rfl, denoted, rfl⟩
    · obtain ⟨read, denoted, rfl⟩ := made
      exact ⟨.curve read, rfl, denoted, rfl⟩
    · obtain ⟨read, denoted, rfl⟩ := made
      exact ⟨.smoothingSeconds read, rfl, denoted, rfl⟩
    · obtain ⟨read, denoted, rfl⟩ := made
      exact ⟨.dutyStepPercent read, rfl, denoted, rfl⟩
    · obtain ⟨read, denoted, rfl⟩ := made
      exact ⟨.dutyHysteresisPercent read, rfl, denoted, rfl⟩
    · obtain ⟨read, denoted, rfl⟩ := made
      exact ⟨.rampUpPercentPerSecond read, rfl, denoted, rfl⟩
    · obtain ⟨read, denoted, rfl⟩ := made
      exact ⟨.rampDownPercentPerSecond read, rfl, denoted, rfl⟩
    · obtain ⟨read, denoted, rfl⟩ := made
      exact ⟨.emergencyTemperatureMilliC read, rfl, denoted, rfl⟩
    · cases made
  · intro assigned
    obtain ⟨setting, rfl, denoted, rfl⟩ := assigned
    cases setting
    all_goals
      simp only [Setting.DenotedBy] at denoted
      simp only [Settings.set, Setting.key, policyNumber, denoted, okOr_some, ok_bind,
        Except.mapError, Setting.assign]
      rfl

/-- A blank line or a comment, when trimmed. -/
def Skipped (line : String) : Prop := line = "" ∨ line.toList.head? = some '#'

instance (line : String) : Decidable (Skipped line) := instDecidableOr

/-- The trimmed line is the setting's key, an equals sign and a text of its value. -/
def Assigns (readers : ValueReaders SocketAddr) (line : String) (setting : Setting SocketAddr) :
    Prop :=
  ∃ key value, Text.splitOnce '=' line = some (key, value) ∧ setting.key = Text.trim key ∧
    setting.DenotedBy readers (Text.trim value)

/-- **One line** that is not skipped records the setting it assigns, whose key must be new. -/
theorem readLine_turns :
    Turns (fun settings (line : String × ℕ) => settings.readLine readers line.1 line.2)
      (fun line => Text.trim line.1) Skipped (Assigns readers) Setting.key Setting.record
      Settings.seenKeys where
  step_eq_ok_iff := by
    intro settings after line
    by_cases skipped : Skipped (Text.trim line.1)
    · have left : settings.readLine readers line.1 line.2 = .ok settings := by
        rw [Settings.readLine]
        exact if_pos skipped
      simp only [left, skipped, Except.ok.injEq, true_and, not_true_eq_false, false_and, or_false,
        eq_comm]
    · have used : ¬ (Text.trim line.1 = "" ∨ (Text.trim line.1).toList.head? = some '#') := skipped
      simp only [Settings.readLine, if_neg used, skipped, false_and, not_false_eq_true, true_and,
        false_or, bind_eq_ok_iff, okOr_eq_ok_iff, throw, throwThe, MonadExceptOf.throw, error_bind,
        guard_eq_ok_iff, Settings.set_eq_ok_iff]
      constructor
      · intro accepted
        obtain ⟨⟨key, value⟩, split, new, setting, same, denoted, rfl⟩ := accepted
        rw [← same] at new ⊢
        exact ⟨setting, ⟨key, value, split, same, denoted⟩, new, rfl⟩
      · intro assigned
        obtain ⟨setting, ⟨key, value, split, same, denoted⟩, new, rfl⟩ := assigned
        rw [same] at new
        refine ⟨(key, value), split, new, setting, same, denoted, ?_⟩
        rw [← same]
        rfl
  seen_apply := Setting.record_seenKeys

/-! ## Reading a file -/

/-- The trimmed lines that are not skipped. -/
def settingLines (contents : String) : List String :=
  ((Text.lines contents).map Text.trim).filter fun line => ¬ Skipped line

/-- **The meaning of a file.** It is accepted exactly if each of its lines assigns a setting, no
key comes twice, and the settings pass the checks after the last line. -/
theorem parseConfig_eq_ok_iff {contents : String} {config : AgentConfig SocketAddr} :
    parseConfig readers contents = .ok config ↔
      ∃ settings, Leads (Assigns readers) Setting.key Setting.record [] (settingLines contents)
        Settings.initial settings ∧ settings.finish readers = .ok config := by
  have trimmed : ((Text.lines contents).zipIdx 1).map (fun line => Text.trim line.1) =
      (Text.lines contents).map Text.trim := by
    calc
      _ = (((Text.lines contents).zipIdx 1).map Prod.fst).map Text.trim := List.map_map.symm
      _ = _ := by rw [List.zipIdx_map_fst]
  rw [parseConfig, bind_eq_ok_iff]
  simp only [readLine_turns.foldlM_eq_ok_iff, trimmed]
  rfl

/-- The checks do not look at the keys seen. -/
theorem Settings.finish_congr {first second : Settings SocketAddr}
    (same : first.values = second.values) : first.finish readers = second.finish readers := by
  have unread : ∀ settings : Settings SocketAddr,
      settings.finish readers = settings.values.finish readers := fun _ => rfl
  rw [unread first, unread second, same]

/-- The configuration of a file is that of every file with the same setting lines. -/
theorem parseConfig_of_perm {contents rearranged : String} {config : AgentConfig SocketAddr}
    (perm : (settingLines rearranged).Perm (settingLines contents))
    (accepted : parseConfig readers contents = .ok config) :
    parseConfig readers rearranged = .ok config := by
  obtain ⟨settings, leads, finished⟩ := parseConfig_eq_ok_iff.mp accepted
  obtain ⟨other, leadsOther, same⟩ := leads.perm record_independent perm
  exact parseConfig_eq_ok_iff.mpr ⟨other, leadsOther, (Settings.finish_congr same).trans finished⟩

/-! ## The order of the lines -/

/-- **A file written in another order** means the same. -/
theorem parseConfig_unlines_perm {written rearranged : List String}
    (plain : ∀ line ∈ written, '\n' ∉ line.toList) (perm : written.Perm rearranged)
    (config : AgentConfig SocketAddr) :
    parseConfig readers (Text.unlines written) = .ok config ↔
      parseConfig readers (Text.unlines rearranged) = .ok config := by
  have plainRearranged : ∀ line ∈ rearranged, '\n' ∉ line.toList := fun line member =>
    plain line (perm.mem_iff.mpr member)
  have lines : (settingLines (Text.unlines written)).Perm
      (settingLines (Text.unlines rearranged)) := by
    rw [settingLines, settingLines, Text.map_trim_lines_unlines plain,
      Text.map_trim_lines_unlines plainRearranged]
    exact (perm.map Text.trim).filter _
  exact ⟨parseConfig_of_perm lines.symm, parseConfig_of_perm lines⟩

/-- Blank lines and comments aside, the trimmed lines are permuted. -/
theorem settingLines_perm {contents rearranged : String} {added removed : List String}
    (ignored : ∀ line ∈ added ++ removed, Skipped (Text.trim line))
    (same : ((Text.lines contents ++ added).map Text.trim).Perm
      ((Text.lines rearranged ++ removed).map Text.trim)) :
    (settingLines contents).Perm (settingLines rearranged) := by
  have empty : ∀ lines : List String, (∀ line ∈ lines, Skipped (Text.trim line)) →
      (lines.map Text.trim).filter (fun line => ¬ Skipped line) = [] := by
    intro lines skipped
    rw [List.filter_eq_nil_iff]
    intro trimmed member
    obtain ⟨line, inside, rfl⟩ := List.mem_map.mp member
    simpa using skipped line inside
  have kept := same.filter fun line => ¬ Skipped line
  rw [List.map_append, List.map_append, List.filter_append, List.filter_append,
    empty added fun line member => ignored line (List.mem_append_left removed member),
    empty removed fun line member => ignored line (List.mem_append_right added member),
    List.append_nil, List.append_nil] at kept
  exact kept

/-- **The order of the lines does not matter.** When two files have the same lines up to their
order, the blanks around them, and blank lines and comments that are added or removed, then both
or neither are accepted, and with the same token, destination, interval and policy. -/
theorem line_order_irrelevant {contents rearranged : String} {added removed : List String}
    (ignored : ∀ line ∈ added ++ removed, Skipped (Text.trim line))
    (same : ((Text.lines contents ++ added).map Text.trim).Perm
      ((Text.lines rearranged ++ removed).map Text.trim))
    (config : AgentConfig SocketAddr) :
    parseConfig readers contents = .ok config ↔ parseConfig readers rearranged = .ok config := by
  have perm := settingLines_perm ignored same
  exact ⟨parseConfig_of_perm perm.symm, parseConfig_of_perm perm⟩

/-- The interval before the token, with a blank line and a comment between them. -/
theorem parseConfig_rearranged :
    parseConfig sampleReaders "interval_ms=60000\n\n# shared secret\ntoken=abcdefghijklmnop" =
      .ok (sampleConfig 60000) := by
  have ignored : ∀ line ∈ ["", "# shared secret"] ++ [], Skipped (Text.trim line) := by
    intro line member
    rcases List.mem_cons.mp member with rfl | member
    · exact Or.inl rfl
    · obtain rfl := List.mem_singleton.mp member
      exact Or.inr rfl
  have before : Text.lines "token=abcdefghijklmnop\ninterval_ms=60000\n" =
      ["token=abcdefghijklmnop", "interval_ms=60000"] := rfl
  have after : Text.lines "interval_ms=60000\n\n# shared secret\ntoken=abcdefghijklmnop" =
      ["interval_ms=60000", "", "# shared secret", "token=abcdefghijklmnop"] := rfl
  have same : (["token=abcdefghijklmnop", "interval_ms=60000"] ++ ["", "# shared secret"]).Perm
      (["interval_ms=60000", "", "# shared secret", "token=abcdefghijklmnop"] ++ []) := by decide
  rw [← before, ← after] at same
  exact (line_order_irrelevant ignored (same.map Text.trim) _).mp parseConfig_slowest

end LaptopCooler.HostAgent
