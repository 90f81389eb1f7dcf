import LaptopCooler.Library.SerialNumber
import LaptopCooler.Library.SerialRing
import LaptopCooler.Library.NorFlash
import LaptopCooler.Library.ByteRecord
import LaptopCooler.Library.Text
import LaptopCooler.Library.TextSplitting
import LaptopCooler.Library.IncrementalParser
import LaptopCooler.Library.Fallible
import LaptopCooler.Library.EventRun
import LaptopCooler.Library.GuardedRun
import LaptopCooler.Library.Channel
import LaptopCooler.Library.ShiftRegister
import LaptopCooler.Library.SlewLimiter
import LaptopCooler.Library.PiecewiseLinear
import LaptopCooler.Library.Hysteresis
import LaptopCooler.Library.Pursuit
import LaptopCooler.Library.KeyedUpdates
import LaptopCooler.Library.EdgeCount
import LaptopCooler.Firmware.Config
import LaptopCooler.Firmware.RecordCorruption
import LaptopCooler.Firmware.ConfigStorage
import LaptopCooler.Firmware.SaveStages
import LaptopCooler.Firmware.JournalRun
import LaptopCooler.Firmware.FailedSave
import LaptopCooler.Firmware.WearLeveling
import LaptopCooler.Firmware.Provisioning
import LaptopCooler.Firmware.SetupRequest
import LaptopCooler.Firmware.PercentEncoding
import LaptopCooler.Firmware.FormEncoding
import LaptopCooler.Firmware.RequestGrammar
import LaptopCooler.Firmware.SetupServer
import LaptopCooler.Firmware.SaveResults
import LaptopCooler.Firmware.Submissions
import LaptopCooler.Firmware.SetupProgress
import LaptopCooler.Firmware.Control
import LaptopCooler.Firmware.CommandHistory
import LaptopCooler.Firmware.SequenceEpoch
import LaptopCooler.Firmware.FanLoop
import LaptopCooler.Firmware.Lifecycle
import LaptopCooler.Firmware.ConfigProvenance
import LaptopCooler.Firmware.StationMonitor
import LaptopCooler.HostAgent.Policy
import LaptopCooler.HostAgent.PolicyConfig
import LaptopCooler.HostAgent.Curve
import LaptopCooler.HostAgent.TargetSelection
import LaptopCooler.HostAgent.PolicyInvariant
import LaptopCooler.HostAgent.PolicyRun
import LaptopCooler.HostAgent.SlewLimit
import LaptopCooler.HostAgent.SlewProgress
import LaptopCooler.HostAgent.HeldTarget
import LaptopCooler.HostAgent.MovingTarget
import LaptopCooler.HostAgent.TargetEnvelope
import LaptopCooler.HostAgent.ConstantTemperature
import LaptopCooler.HostAgent.AgentConfig
import LaptopCooler.HostAgent.ConfigMeaning
import LaptopCooler.HostAgent.ConfigDiagnostics
import LaptopCooler.HostAgent.Heartbeat
import LaptopCooler.HostAgent.SensorDiscovery
import LaptopCooler.HostAgent.AgentLoop
import LaptopCooler.System.Packets
import LaptopCooler.System.Agreement
import LaptopCooler.System.LossyLink
import LaptopCooler.System.AgentRun
import LaptopCooler.System.HeartbeatInterval
import LaptopCooler.System.ReplayProtection
import LaptopCooler.System.Restart
