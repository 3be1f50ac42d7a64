import NexTalkRelay.Shard.Replay
import NexTalkRelay.Shard.Mailbox
import NexTalkRelay.Shard.Bounds
import NexTalkRelay.Shard.Burn
import NexTalkRelay.Shard.Tenancy
import NexTalkRelay.Shard.Trust
import NexTalkRelay.Shard.Replica
import NexTalkRelay.Shard.Faults
import NexTalkRelay.Shard.Inert
import NexTalkRelay.Shard.Identity
import NexTalkRelay.Shard.Binding
import NexTalkRelay.Shard.Depth
import NexTalkRelay.Shard.Record
import NexTalkRelay.Shard.Concurrent
import NexTalkRelay.Router.Ring
import NexTalkRelay.Router.Identity
import NexTalkRelay.Router.Reach
import NexTalkRelay.Router.Latest
import NexTalkRelay.Router.Replays
import NexTalkRelay.Router.Admission
import NexTalkRelay.Router.Versions
import NexTalkRelay.Router.Range
import NexTalkRelay.Router.Admin
import NexTalkRelay.Combined.Ring
import NexTalkRelay.Combined.DropIn
import NexTalkRelay.Combined.Replica
import NexTalkRelay.Capability.Separation
import NexTalkRelay.Capability.Binding
import NexTalkRelay.Capability.Formats
import NexTalkRelay.Agreement.Keys
import NexTalkRelay.Agreement.Wire
import NexTalkRelay.Agreement.Limits
import NexTalkRelay.Agreement.Solver
import NexTalkRelay.Agreement.ZeroBits
import NexTalkRelay.Agreement.Registration
import NexTalkRelay.Agreement.Secrets
import NexTalkRelay.Agreement.Access
import NexTalkRelay.Agreement.Distribution
import NexTalkRelay.Bridge.Frames
import NexTalkRelay.Bridge.Limit
import NexTalkRelay.Bridge.Delivery
import NexTalkRelay.Bridge.Poll
import NexTalkRelay.Bridge.Memory
import NexTalkRelay.Bridge.Loop
import NexTalkRelay.Package.Crc
import NexTalkRelay.Package.Module
import NexTalkRelay.Package.Zip
import NexTalkRelay.Package.Build
