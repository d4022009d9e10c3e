import DevMgr.Core.Sha256Standard
import DevMgr.App.ModulesVM
import DevMgr.App.Availability
import DevMgr.Core.DiffSoundness
import DevMgr.App.CachedViews
import DevMgr.App.InstallSlot
import DevMgr.App.LastGood
import DevMgr.App.PendingUpdates
import DevMgr.Daemon.Durability
import DevMgr.App.Preview
import DevMgr.Core.SnapshotJson
import DevMgr.Cli.Commands
import DevMgr.Daemon.SnapshotFormats
import DevMgr.Daemon.SnapshotMarker
import DevMgr.Daemon.SnapshotPruning
import DevMgr.Daemon.SnapshotCrash
import DevMgr.App.Refresh
import DevMgr.App.Overlay
import DevMgr.Daemon.Machine
import DevMgr.Daemon.DistinctEntries
import DevMgr.Daemon.Restore
import DevMgr.Daemon.RestoreFrame
import DevMgr.Daemon.SnapshotTotality
import DevMgr.Daemon.StateFile
import DevMgr.Daemon.Enabling
import DevMgr.Daemon.Startup
import DevMgr.Daemon.Undo
import DevMgr.Daemon.RestoreReport
import DevMgr.Daemon.VerbPipeline
import DevMgr.Linux.CriticalityProber
import DevMgr.Linux.DkmsStatusProvider
import DevMgr.App.RebootPending
import DevMgr.Linux.FwupdEnumerate
import DevMgr.Linux.InstallGate
import DevMgr.Linux.InstallLimits
import DevMgr.Daemon.RebindHint
import DevMgr.Linux.CabChoice
import DevMgr.Linux.UdevDevice
import DevMgr.Linux.DeviceIdentity
import DevMgr.Daemon.Idempotence
import DevMgr.App.Debounce
import DevMgr.Runtime.EventBus
import DevMgr.Runtime.TaskScheduler
import DevMgr.Core.Criticality
import DevMgr.Linux.LoadedModules
import DevMgr.Linux.CapabilityBits
import DevMgr.App.ModuleRows
import DevMgr.Library.Printf
import DevMgr.App.SnapshotRows
import DevMgr.App.UpdateRows
import DevMgr.App.RowText
import DevMgr.App.DeviceListVM
import DevMgr.App.DeviceListRuns
import DevMgr.Runtime.TimerClients
import DevMgr.App.StatusLineVM
import DevMgr.App.PositionalNames
