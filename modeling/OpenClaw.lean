import OpenClaw.Agents.AnnounceQueue
import OpenClaw.Agents.ApplyPatch
import OpenClaw.Agents.ApplyPatch.Frame
import OpenClaw.Agents.ApplyPatch.RoundTrip
import OpenClaw.Agents.AuthProfiles
import OpenClaw.Agents.BlockChunker
import OpenClaw.Agents.BlockChunker.Lossless
import OpenClaw.Agents.Messages
import OpenClaw.Agents.SessionGuard
import OpenClaw.Agents.SessionWriteLock
import OpenClaw.Agents.SessionWriteLock.Exclusive
import OpenClaw.Agents.SessionWriteLock.Owners
import OpenClaw.Agents.SubagentRegistry
import OpenClaw.Agents.SubagentRegistry.AtMostOnce
import OpenClaw.Agents.SubagentRegistry.Attempts
import OpenClaw.Agents.SubagentRegistry.Attended
import OpenClaw.Agents.SubagentRegistry.Owned
import OpenClaw.Agents.ToolCallId
import OpenClaw.Agents.ToolCallId.Kept
import OpenClaw.Agents.ToolCallId.Ownership
import OpenClaw.Agents.ToolCallInputs
import OpenClaw.Agents.ToolLoopDetection
import OpenClaw.Agents.ToolLoopDetection.Breaker
import OpenClaw.Agents.TranscriptRepair
import OpenClaw.Agents.TranscriptRepair.Pairing
import OpenClaw.Agents.TranscriptRepair.Turns
import OpenClaw.AutoReply.FollowupQueue
import OpenClaw.AutoReply.FollowupQueue.Exclusivity
import OpenClaw.AutoReply.InboundDebounce
import OpenClaw.AutoReply.InboundDebounce.Delivery
import OpenClaw.AutoReply.InboundDebounce.Invariant
import OpenClaw.Config.EnvSubstitution
import OpenClaw.Config.MergePatch
import OpenClaw.Config.MergePatch.ThreeWay
import OpenClaw.Config.RedactSnapshot
import OpenClaw.Config.RedactSnapshot.RoundTrip
import OpenClaw.Config.Sessions.Durable
import OpenClaw.Config.Sessions.LockQueue
import OpenClaw.Config.Sessions.Serial
import OpenClaw.Config.Sessions.Store
import OpenClaw.Config.Value
import OpenClaw.Config.WriteBack
import OpenClaw.Config.WriteBack.Meaning
import OpenClaw.Cron.Schedule
import OpenClaw.Cron.Service.Advance
import OpenClaw.Cron.Service.Catchup
import OpenClaw.Cron.Service.Ids
import OpenClaw.Cron.Service.Jobs
import OpenClaw.Cron.Service.Laws
import OpenClaw.Cron.Service.OneShot
import OpenClaw.Cron.Service.Ops
import OpenClaw.Cron.Service.Reschedule
import OpenClaw.Cron.Service.Slots
import OpenClaw.Cron.Service.Stop
import OpenClaw.Cron.Service.Timer
import OpenClaw.Infra.DeliveryQueue
import OpenClaw.Infra.DeliveryQueue.CrashSafety
import OpenClaw.Infra.DeliveryQueue.Entry
import OpenClaw.Infra.DeliveryQueue.Guarantees
import OpenClaw.Infra.DevicePairing
import OpenClaw.Infra.DevicePairing.Approval
import OpenClaw.Infra.DevicePairing.Baseline
import OpenClaw.Infra.DevicePairing.Pending
import OpenClaw.Infra.Exec.AllowAlways
import OpenClaw.Infra.Exec.CommandResolution
import OpenClaw.Infra.Exec.DispatchWrapper
import OpenClaw.Infra.Exec.ShellWrapper
import OpenClaw.Infra.Exec.Tokens
import OpenClaw.Infra.HeartbeatWake
import OpenClaw.Infra.HeartbeatWake.Exclusive
import OpenClaw.Infra.HeartbeatWake.Kept
import OpenClaw.Infra.HeartbeatWake.NotAgain
import OpenClaw.Infra.Net.Ssrf
import OpenClaw.Js.CodeUnits
import OpenClaw.Js.LowerCase
import OpenClaw.Js.Path
import OpenClaw.Js.Text
import OpenClaw.Js.Double
import OpenClaw.Js.Value
import OpenClaw.Lib.AtomicProgram
import OpenClaw.Lib.Brackets
import OpenClaw.Lib.Delimited
import OpenClaw.Lib.Groups
import OpenClaw.Lib.Stable
import OpenClaw.Lib.InvertedIndex
import OpenClaw.Lib.Ledger
import OpenClaw.Lib.Loop
import OpenClaw.Lib.MapState
import OpenClaw.Lib.Members
import OpenClaw.Lib.Memo
import OpenClaw.Lib.OrderedSet
import OpenClaw.Lib.Sweep
import OpenClaw.Lib.Tokens
import OpenClaw.Lib.Transition
import OpenClaw.Lib.Paging
import OpenClaw.Markdown.Fences
import OpenClaw.Markdown.Render
import OpenClaw.Cron.Interval
import OpenClaw.Cron.Stagger
import OpenClaw.Lib.Successor
import OpenClaw.Process.CommandQueue
import OpenClaw.Process.CommandQueue.Invariant
import OpenClaw.Process.CommandQueue.Scheduling
import OpenClaw.Routing.ResolveRoute
import OpenClaw.Routing.ResolveRoute.Transparent
import OpenClaw.Routing.SessionKey
import OpenClaw.Routing.SessionKey.Isolation
import OpenClaw.Shared.DeviceAuth
import OpenClaw.Shared.Net.Ip
import OpenClaw.Tasks.TaskRegistry
import OpenClaw.Tasks.TaskRegistry.Final
import OpenClaw.Tasks.TaskRegistry.Indexes
import OpenClaw.Utils.QueueDrain
import OpenClaw.Utils.QueueDrain.Delivery
import OpenClaw.Utils.QueueDrain.Exclusive
import OpenClaw.Utils.QueueDrain.Wiring
import OpenClaw.Utils.QueueHelpers
import OpenClaw.VoiceCall.CallManager
import OpenClaw.VoiceCall.CallManager.Kept
import OpenClaw.VoiceCall.Registry
import OpenClaw.Cron.Service.Outcome
import OpenClaw.Cron.RunLog
import OpenClaw.Agents.ToolCallId.Distinct
import OpenClaw.Agents.TranscriptRepair.Idempotent
import OpenClaw.Agents.TranscriptRepair.Replay
import OpenClaw.Cron.Service.Details
import OpenClaw.Cron.Service.Atomic
import OpenClaw.Cron.Recovery
import OpenClaw.Cron.Recovery.Nesting
import OpenClaw.Cron.Recovery.Precedence
import OpenClaw.Agents.ToolResultTruncation
import OpenClaw.Lib.Splice
import OpenClaw.Agents.ApplyPatch.Moves
import OpenClaw.Agents.Compaction
import OpenClaw.Agents.OpenAI
import OpenClaw.Agents.OpenAI.Pairing
import OpenClaw.Agents.Turns
import OpenClaw.Agents.Turns.Texts
import OpenClaw.Lib.Lineage
import OpenClaw.Agents.SessionTruncation
import OpenClaw.Agents.SessionTruncation.Truncated
import OpenClaw.Agents.TranscriptRewrite
import OpenClaw.Agents.TranscriptRewrite.Session
import OpenClaw.AutoReply.Chunk
import OpenClaw.AutoReply.Chunk.Bound
import OpenClaw.Lib.Leading
import OpenClaw.Config.EnvPreserve
import OpenClaw.Agents.ToolLoopDetection.PingPong
import OpenClaw.Config.UnsetPaths
import OpenClaw.Config.UnsetPaths.Erased
import OpenClaw.Agents.ModelFallback
import OpenClaw.Agents.AuthProfiles.Order
import OpenClaw.Infra.Exec.ShellAllowlist
import OpenClaw.Infra.Exec.ShellAllowlist.Parts
import OpenClaw.Config.Includes
import OpenClaw.Config.Includes.Resolves
import OpenClaw.Agents.BlockChunker.SplitFence
import OpenClaw.Gateway.AuthRateLimit
import OpenClaw.Gateway.AuthRateLimit.Locks
import OpenClaw.Infra.Exec.WrapperPeeling
import OpenClaw.Lib.Buckets
import OpenClaw.Routing.ResolveRoute.Linear
import OpenClaw.Js.RegExp
import OpenClaw.Infra.DeviceBootstrap
import OpenClaw.Infra.DeviceBootstrap.History
import OpenClaw.Infra.Exec.ArgPattern
import OpenClaw.AutoReply.BlockReplyCoalescer
import OpenClaw.Markdown.Chunks
import OpenClaw.Markdown.RenderAwareChunks
import OpenClaw.Memory.EmbeddingLimits
import OpenClaw.Agents.ToolLoopDetection.History
import OpenClaw.Agents.Compaction.Chunks
import OpenClaw.Agents.ApplyPatch.Regions
import OpenClaw.Lib.Marks
import OpenClaw.Ollama.Stream
import OpenClaw.Gateway.ExecApprovalManager
import OpenClaw.Gateway.ExecApprovalManager.LifeCycle
import OpenClaw.Lib.ReadBack
import OpenClaw.Js.JsonText
import OpenClaw.Agents.ToolCallBreaker
import OpenClaw.AutoReply.ReplyDispatcher
import OpenClaw.Infra.Dedupe
import OpenClaw.Agents.OpenAI.Reasoning
import OpenClaw.Infra.FormatTime.Offsetless
import OpenClaw.Lib.FixedWindow
import OpenClaw.Gateway.ControlPlaneRateLimit
