import LaptopCooler.HostAgent.PolicyInvariant
import LaptopCooler.Library.Text

/-! # The host agent's configuration file

The model of `parse_config` in `host-agent/src/main.rs` and of `parse_curve` in
`host-agent/src/policy.rs`. The readers of floating-point numbers and socket
addresses are those of Rust's standard library and are given; everything else
is read as the source reads it, also the product of a temperature with 1000,
which is one of binary64 numbers. Whatever an accepted file says, its settings
are admitted ones (`LaptopCooler.HostAgent.parseConfig_admitted`).
-/

namespace LaptopCooler.HostAgent

open Fallible

/-- The number that a float stands for, if it is finite. -/
def toRat? (value : Float) : Option ℚ :=
  match value.toModel.unpack with
  | .finite .positive mantissa exponent _ => some (mantissa * 2 ^ exponent)
  | .finite .negative mantissa exponent _ => some (-(mantissa * 2 ^ exponent))
  | .zero _ => some 0
  | .infinity _ | .notANumber => none

/-- The standard library's readers. The default destination is an address. -/
structure ValueReaders (SocketAddr : Type) where
  readFloat : String → Option Float
  readSocketAddr : String → Option SocketAddr
  defaultDestination : SocketAddr
  reads_default : readSocketAddr "255.255.255.255:42110" = some defaultDestination

def defaultIntervalMillis : ℕ := 1000
def minTokenLen : ℕ := 16
def maxTokenLen : ℕ := 32

structure AgentConfig (SocketAddr : Type) where
  token : String
  destination : SocketAddr
  interval : Duration
  policy : FanPolicyConfig

inductive ConfigError where
  | invalidLine (line : ℕ)
  | missingToken
  | invalidToken
  | invalidDestination
  | invalidInterval
  | invalidPolicy (error : PolicyConfigError)
  | duplicateKey (key : String)
  | unknownKey (key : String)
  deriving DecidableEq, Repr

/-- One `temperature:duty` field of a curve. -/
def parseCurvePoint (readFloat : String → Option Float) (field : String) :
    Except PolicyConfigError CurvePoint := do
  let (temperature, duty) ← okOr (Text.splitOnce ':' (Text.trim field)) .invalidCurve
  let temperatureC ← okOr (readFloat (Text.trim temperature)) .invalidCurve
  let dutyPercent ← okOr (Text.parseUnsigned 255 (Text.trim duty)) .invalidCurve
  if ¬ temperatureC.isFinite then throw .invalidCurve
  -- The product may be infinite, and then it is out of range.
  let product ← okOr (toRat? (temperatureC * 1000)) .invalidCurve
  let temperatureMilliC := roundHalfAway product
  if temperatureMilliC < -2147483648 ∨ temperatureMilliC > 2147483647 then
    throw .invalidCurve
  return ⟨temperatureMilliC, dutyPercent⟩

def parseCurve (readFloat : String → Option Float) (value : String) :
    Except PolicyConfigError (List CurvePoint) :=
  (Text.split ',' value).mapM (parseCurvePoint readFloat)

/-- What the lines read so far have set. -/
structure Settings (SocketAddr : Type) where
  token : Option String
  destination : Option SocketAddr
  intervalMillis : Option ℕ
  policy : FanPolicyConfig
  seenKeys : List String

/-- A number of an unsigned type, or the policy error of its key. -/
def policyNumber (maximum : ℕ) (error : PolicyConfigError) (value : String) :
    Except ConfigError ℕ :=
  okOr (Text.parseUnsigned maximum value) (.invalidPolicy error)

/-- The emergency temperature in thousandths of a degree. -/
def parseEmergencyTemperature (readFloat : String → Option Float) (value : String) :
    Except ConfigError ℤ := do
  let temperatureC ← okOr (readFloat value) (.invalidPolicy .invalidEmergencyTemperature)
  let temperatureMilliC ← okOr (toRat? (temperatureC * 1000))
    (.invalidPolicy .invalidEmergencyTemperature)
  if temperatureMilliC < -2147483648 ∨ temperatureMilliC > 2147483647 then
    throw (.invalidPolicy .invalidEmergencyTemperature)
  return roundHalfAway temperatureMilliC

/-- An ASCII letter, digit, hyphen or underscore. -/
def isTokenByte (byte : UInt8) : Bool := Text.isAsciiAlphanumeric byte || byte = 45 || byte = 95

namespace Settings

variable {SocketAddr : Type}

def initial : Settings SocketAddr := ⟨none, none, none, .default, []⟩

/-- The effect of one key with its value. -/
def set (readers : ValueReaders SocketAddr) (settings : Settings SocketAddr) (key value : String) :
    Except ConfigError (Settings SocketAddr) :=
  match key with
  | "token" => return { settings with token := some value }
  | "destination" => do
      let destination ← okOr (readers.readSocketAddr value) .invalidDestination
      return { settings with destination := some destination }
  | "interval_ms" => do
      let intervalMillis ← okOr (Text.parseUnsigned 18446744073709551615 value) .invalidInterval
      return { settings with intervalMillis := some intervalMillis }
  | "curve" => do
      let curve ← (parseCurve readers.readFloat value).mapError .invalidPolicy
      return { settings with policy.curve := curve }
  | "smoothing_seconds" => do
      let smoothingSeconds ← policyNumber 4294967295 .invalidSmoothing value
      return { settings with policy.smoothingSeconds := smoothingSeconds }
  | "duty_step_percent" => do
      let dutyStepPercent ← policyNumber 255 .invalidDutyStep value
      return { settings with policy.dutyStepPercent := dutyStepPercent }
  | "duty_hysteresis_percent" => do
      let dutyHysteresisPercent ← policyNumber 255 .invalidHysteresis value
      return { settings with policy.dutyHysteresisPercent := dutyHysteresisPercent }
  | "ramp_up_percent_per_second" => do
      let rampUpPercentPerSecond ← policyNumber 255 .invalidRamp value
      return { settings with policy.rampUpPercentPerSecond := rampUpPercentPerSecond }
  | "ramp_down_percent_per_second" => do
      let rampDownPercentPerSecond ← policyNumber 255 .invalidRamp value
      return { settings with policy.rampDownPercentPerSecond := rampDownPercentPerSecond }
  | "emergency_temperature_c" => do
      let emergencyTemperatureMilliC ← parseEmergencyTemperature readers.readFloat value
      return { settings with policy.emergencyTemperatureMilliC := emergencyTemperatureMilliC }
  | _ => throw (.unknownKey key)

/-- One line of the file, numbered from one. -/
def readLine (readers : ValueReaders SocketAddr) (settings : Settings SocketAddr)
    (rawLine : String) (number : ℕ) : Except ConfigError (Settings SocketAddr) := do
  let line := Text.trim rawLine
  if line = "" ∨ line.toList.head? = some '#' then return settings
  let (key, value) ← okOr (Text.splitOnce '=' line) (.invalidLine number)
  let key := Text.trim key
  let value := Text.trim value
  if key ∈ settings.seenKeys then throw (.duplicateKey key)
  { settings with seenKeys := key :: settings.seenKeys }.set readers key value

/-- The checks after the last line. -/
def finish (readers : ValueReaders SocketAddr) (settings : Settings SocketAddr) :
    Except ConfigError (AgentConfig SocketAddr) := do
  let token ← okOr settings.token .missingToken
  if (Text.bytes token).length < minTokenLen ∨ (Text.bytes token).length > maxTokenLen ∨
      ¬ (Text.bytes token).all isTokenByte then
    throw .invalidToken
  let intervalMillis := settings.intervalMillis.getD defaultIntervalMillis
  if ¬ (250 ≤ intervalMillis ∧ intervalMillis ≤ 60000) then throw .invalidInterval
  settings.policy.validate.mapError .invalidPolicy
  return {
    token := token
    destination := settings.destination.getD readers.defaultDestination
    interval := .fromMillis intervalMillis
    policy := settings.policy }

end Settings

def parseConfig {SocketAddr : Type} (readers : ValueReaders SocketAddr) (contents : String) :
    Except ConfigError (AgentConfig SocketAddr) := do
  let settings ← ((Text.lines contents).zipIdx 1).foldlM
    (fun settings line => settings.readLine readers line.1 line.2) Settings.initial
  settings.finish readers

/-! ## What an accepted file has set -/

/-- The duration in whole milliseconds. -/
def Duration.asMillis (duration : Duration) : ℕ := duration.secs * 1000 + duration.nanos / 1000000

@[simp] theorem Duration.asMillis_fromMillis (millis : ℕ) :
    (Duration.fromMillis millis).asMillis = millis := by
  simp only [asMillis, fromMillis]
  omega

/-- The tokens of 16 to 32 letters, digits, hyphens and underscores. -/
structure WellFormedToken (token : String) : Prop where
  length_ge : minTokenLen ≤ (Text.bytes token).length
  length_le : (Text.bytes token).length ≤ maxTokenLen
  characters : ∀ byte ∈ Text.bytes token, isTokenByte byte = true

/-- What holds of the settings of every accepted file. -/
structure AgentConfig.Admitted {SocketAddr : Type} (config : AgentConfig SocketAddr) : Prop where
  token : WellFormedToken config.token
  interval : 250 ≤ config.interval.asMillis ∧ config.interval.asMillis ≤ 60000
  policy : config.policy.Valid

/-- **Accepted settings are admitted.** -/
theorem parseConfig_admitted {SocketAddr : Type} {readers : ValueReaders SocketAddr}
    {contents : String} {config : AgentConfig SocketAddr}
    (accepted : parseConfig readers contents = .ok config) : config.Admitted := by
  simp only [parseConfig, bind_eq_ok_iff] at accepted
  obtain ⟨settings, _, finished⟩ := accepted
  simp only [Settings.finish, bind_eq_ok_iff, okOr_eq_ok_iff, throw, throwThe,
    MonadExceptOf.throw, error_bind, guard_eq_ok_iff, mapError_eq_ok_iff, pure, Except.pure,
    Except.ok.injEq] at finished
  obtain ⟨token, _, shaped, interval, ⟨⟩, valid, rfl⟩ := finished
  rw [not_or, not_or, not_not, Nat.not_lt, Nat.not_lt, List.all_eq_true] at shaped
  refine ⟨⟨shaped.1, shaped.2.1, shaped.2.2⟩, ?_,
    (FanPolicyConfig.validate_eq_ok_iff settings.policy).mp valid⟩
  rw [Duration.asMillis_fromMillis]
  exact not_not.mp interval

/-- Readers for files without a curve, an emergency temperature or a destination. -/
def sampleReaders : ValueReaders Unit where
  readFloat := fun _ => none
  readSocketAddr := fun value => if value = "255.255.255.255:42110" then some () else none
  defaultDestination := ()
  reads_default := rfl

/-- The settings of a file with a token and an interval. -/
def sampleConfig (intervalMillis : ℕ) : AgentConfig Unit :=
  ⟨"abcdefghijklmnop", (), .fromMillis intervalMillis, .default⟩

/-- A token is enough. -/
theorem parseConfig_minimal :
    parseConfig sampleReaders "token=abcdefghijklmnop\n" = .ok (sampleConfig 1000) := by rfl

/-- The longest interval is accepted. -/
theorem parseConfig_slowest :
    parseConfig sampleReaders "token=abcdefghijklmnop\ninterval_ms=60000\n" =
      .ok (sampleConfig 60000) := by rfl

end LaptopCooler.HostAgent
