import M5DayLog.Manifest.Snapshot
import M5DayLog.Manifest.Recover
import M5DayLog.Manifest.Sync
import M5DayLog.Manifest.Rescan
import M5DayLog.Manifest.Admission
import M5DayLog.Recorder.Naming
import M5DayLog.Wav.Finalize
import M5DayLog.Wav.Recovery
import M5DayLog.Wav.Names
import M5DayLog.Cdc.Publication
import M5DayLog.Cdc.Barrier
import M5DayLog.Cdc.Cutoff
import M5DayLog.Cdc.SingleSession
import M5DayLog.Pc.ReleaseOnce
import M5DayLog.Device.WakeBoots
import M5DayLog.Pc.MaintenanceOnce
import M5DayLog.Recorder.RtcRuns
import M5DayLog.Pc.SyncOnce
import M5DayLog.Cdc.Framer
import M5DayLog.Cdc.Tx
import M5DayLog.Recorder.Pipeline
import M5DayLog.Recorder.Capture
import M5DayLog.Recorder.DeviceIdentity
import M5DayLog.Cdc.Protocol
import M5DayLog.Recorder.RtcExactlyOnce
import M5DayLog.Wav.FinalizeRecovery
import M5DayLog.Wav.ScanConservation
import M5DayLog.Recorder.RtcRegisters
import M5DayLog.Wav.Digest
import M5DayLog.Cdc.DrainPass
import M5DayLog.Cdc.FinalIn
import M5DayLog.Pc.Identity
import M5DayLog.Pc.Capacity
import M5DayLog.Pc.FrozenEndpoint
import M5DayLog.Pc.LoadDocument
import M5DayLog.Lib.Buffer
import M5DayLog.Cdc.Endpoint
import M5DayLog.Recorder.IdentityReads
import M5DayLog.Recorder.Power
import M5DayLog.Recorder.StatusLed
import M5DayLog.Recorder.Audio
import M5DayLog.Device.OwnershipBoots
