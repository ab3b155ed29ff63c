import ElastioSnap.Cow.Ahead
import ElastioSnap.Cow.Allotment
import ElastioSnap.Cow.BlockStore
import ElastioSnap.Cow.Budget
import ElastioSnap.Cow.Capture
import ElastioSnap.Cow.Changed
import ElastioSnap.Cow.Cleanup
import ElastioSnap.Cow.Crash
import ElastioSnap.Cow.Data
import ElastioSnap.Cow.DirectIo
import ElastioSnap.Cow.Eviction
import ElastioSnap.Cow.FileIo
import ElastioSnap.Cow.Footprint
import ElastioSnap.Cow.Header
import ElastioSnap.Cow.Index
import ElastioSnap.Cow.Lifecycle
import ElastioSnap.Cow.Manager
import ElastioSnap.Cow.Mapping
import ElastioSnap.Cow.OnDisk
import ElastioSnap.Cow.Protocol
import ElastioSnap.Cow.Regions
import ElastioSnap.Cow.Reload
import ElastioSnap.Cow.Reopen
import ElastioSnap.Cow.Sealing
import ElastioSnap.Cow.Section
import ElastioSnap.Cow.Start
import ElastioSnap.Cow.Sweep
import ElastioSnap.Cow.Threshold
import ElastioSnap.Driver.Borrowed
import ElastioSnap.Driver.CacheSize
import ElastioSnap.Driver.Component
import ElastioSnap.Driver.CowOnBdev
import ElastioSnap.Driver.Dangling
import ElastioSnap.Driver.Disks
import ElastioSnap.Driver.Dismantled
import ElastioSnap.Driver.Effects
import ElastioSnap.Driver.Events
import ElastioSnap.Driver.Handovers
import ElastioSnap.Driver.HiddenFailures
import ElastioSnap.Driver.Hooks
import ElastioSnap.Driver.Ioctls
import ElastioSnap.Driver.Iteration
import ElastioSnap.Driver.Minors
import ElastioSnap.Driver.Mounts
import ElastioSnap.Driver.Parts
import ElastioSnap.Driver.Passes
import ElastioSnap.Driver.ProcListing
import ElastioSnap.Driver.ProcShow
import ElastioSnap.Driver.Ranges
import ElastioSnap.Driver.Reads
import ElastioSnap.Driver.References
import ElastioSnap.Driver.Requests
import ElastioSnap.Driver.Residency
import ElastioSnap.Driver.Rows
import ElastioSnap.Driver.Setup
import ElastioSnap.Driver.Setups
import ElastioSnap.Driver.State
import ElastioSnap.Driver.States
import ElastioSnap.Driver.Steps
import ElastioSnap.Driver.Tracing
import ElastioSnap.Driver.Transitions
import ElastioSnap.Driver.Walk
import ElastioSnap.Elioctl
import ElastioSnap.Incremental.Chain
import ElastioSnap.Incremental.CleanHeader
import ElastioSnap.Incremental.Dormancy
import ElastioSnap.Incremental.DormantInc
import ElastioSnap.Incremental.DormantSnap
import ElastioSnap.Incremental.IncTrace
import ElastioSnap.Incremental.Lineage
import ElastioSnap.Incremental.Marking
import ElastioSnap.Incremental.Positions
import ElastioSnap.Incremental.Series
import ElastioSnap.Incremental.TracingMrf
import ElastioSnap.Incremental.Tracker
import ElastioSnap.Lib.Bytes
import ElastioSnap.Lib.Extend
import ElastioSnap.Lib.Flags
import ElastioSnap.Lib.Json
import ElastioSnap.Lib.Links
import ElastioSnap.Lib.Outcome
import ElastioSnap.Lib.Precedence
import ElastioSnap.Lib.Runs
import ElastioSnap.Lib.Scan
import ElastioSnap.Lib.Table
import ElastioSnap.Snapshot.BioLinks
import ElastioSnap.Snapshot.Blocks
import ElastioSnap.Snapshot.Capture
import ElastioSnap.Snapshot.CopyBeforeWrite
import ElastioSnap.Snapshot.Counters
import ElastioSnap.Snapshot.Coverage
import ElastioSnap.Snapshot.CowThread
import ElastioSnap.Snapshot.DelayedRead
import ElastioSnap.Snapshot.Drain
import ElastioSnap.Snapshot.Filing
import ElastioSnap.Snapshot.Machine
import ElastioSnap.Snapshot.PointInTime
import ElastioSnap.Snapshot.Progress
import ElastioSnap.Snapshot.Queue
import ElastioSnap.Snapshot.QueueOrder
import ElastioSnap.Snapshot.ReadComplete
import ElastioSnap.Snapshot.ReadMerge
import ElastioSnap.Snapshot.ReadPasses
import ElastioSnap.Snapshot.ReadPath
import ElastioSnap.Snapshot.Refs
import ElastioSnap.Snapshot.Release
import ElastioSnap.Snapshot.Sectors
import ElastioSnap.Snapshot.SharedDisk
import ElastioSnap.Snapshot.SnapRead
import ElastioSnap.Snapshot.Storage
import ElastioSnap.Snapshot.Teardown
import ElastioSnap.Snapshot.TraceBio
import ElastioSnap.Snapshot.Tracking
import ElastioSnap.Snapshot.View
import ElastioSnap.UpdateImg
