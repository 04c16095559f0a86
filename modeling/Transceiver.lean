import Transceiver.Amplifier
import Transceiver.Amplifier.Selection
import Transceiver.Bench
import Transceiver.BitField
import Transceiver.Calibration
import Transceiver.Calibration.Attempt
import Transceiver.Calibration.Block
import Transceiver.Calibration.Loop
import Transceiver.Calibration.Values
import Transceiver.Chip
import Transceiver.Command
import Transceiver.Dump
import Transceiver.Fault
import Transceiver.Frequency.Band
import Transceiver.Frequency.Divider
import Transceiver.Frequency.Packing
import Transceiver.Gain
import Transceiver.Gain.Stage
import Transceiver.Half
import Transceiver.Journal
import Transceiver.Loopback
import Transceiver.Loopback.Current
import Transceiver.Loopback.Mode
import Transceiver.LowPass
import Transceiver.LowPass.Bandwidth
import Transceiver.LowPass.Mode
import Transceiver.Power
import Transceiver.Procedure
import Transceiver.Proofs.AdcInput
import Transceiver.Proofs.BandwidthSelection
import Transceiver.Proofs.Bus
import Transceiver.Proofs.CalibrationAttempts
import Transceiver.Proofs.CalibrationBudgets
import Transceiver.Proofs.CalibrationClocks
import Transceiver.Proofs.CalibrationEngines
import Transceiver.Proofs.CalibrationLedger
import Transceiver.Proofs.CalibrationOutcome
import Transceiver.Proofs.CalibrationReach
import Transceiver.Proofs.CalibrationRecovery
import Transceiver.Proofs.CalibrationRestoration
import Transceiver.Proofs.CalibrationSettings
import Transceiver.Proofs.CalibrationStarts
import Transceiver.Proofs.Careful
import Transceiver.Proofs.CarefulCalibration
import Transceiver.Proofs.Chronicles
import Transceiver.Proofs.CleanUp
import Transceiver.Proofs.CommandReach
import Transceiver.Proofs.CommandWrites
import Transceiver.Proofs.Composition
import Transceiver.Proofs.Dependence
import Transceiver.Proofs.DividerArithmetic
import Transceiver.Proofs.DividerPacking
import Transceiver.Proofs.DocumentedEncodings
import Transceiver.Proofs.EngagedLoopback
import Transceiver.Proofs.FaultReporting
import Transceiver.Proofs.FilterSwitching
import Transceiver.Proofs.FilterTuning
import Transceiver.Proofs.FrequencyFrame
import Transceiver.Proofs.FrequencyReading
import Transceiver.Proofs.FrequencyRoundTrip
import Transceiver.Proofs.GainReadBack
import Transceiver.Proofs.Histories
import Transceiver.Proofs.IndependentHalves
import Transceiver.Proofs.IndependentSettings
import Transceiver.Proofs.LeavingLoopback
import Transceiver.Proofs.LoopbackChange
import Transceiver.Proofs.LoopbackHistory
import Transceiver.Proofs.ModulatorBracket
import Transceiver.Proofs.NormalOperation
import Transceiver.Proofs.PathSwitches
import Transceiver.Proofs.PlainRegisters
import Transceiver.Proofs.Preconditions
import Transceiver.Proofs.Programming
import Transceiver.Proofs.Reach
import Transceiver.Proofs.Refusals
import Transceiver.Proofs.RegisterSteps
import Transceiver.Proofs.Replays
import Transceiver.Proofs.Runs
import Transceiver.Proofs.SavedCalibration
import Transceiver.Proofs.Setters
import Transceiver.Proofs.Settings
import Transceiver.Proofs.StartStrobe
import Transceiver.Proofs.SynthesizedFrequency
import Transceiver.Proofs.TuningBytes
import Transceiver.Proofs.TuningReadings
import Transceiver.Proofs.TuningWindow
import Transceiver.Proofs.Upholding
import Transceiver.Proofs.Writes
import Transceiver.Register.Groups
import Transceiver.Register.Map
import Transceiver.Sampling
import Transceiver.Synthesizer
import Transceiver.Synthesizer.Tuning
import Transceiver.Synthesizer.TuningVoltage
import Transceiver.Transport
import Transceiver.Word
