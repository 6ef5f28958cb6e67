import Cadeloop.Reasoning.Bytes
import Cadeloop.Reasoning.Incremental
import Cadeloop.Core.WsStream
import Cadeloop.Core.WsRoundTrip
import Cadeloop.Reasoning.Utf8
import Cadeloop.Core.WsClose
import Cadeloop.Core.Timer
import Cadeloop.Reasoning.Machine
import Cadeloop.Core.TimerRuns
import Cadeloop.Core.TimerShare
import Cadeloop.Core.OpSlab
import Cadeloop.Core.OpSlabRuns
import Cadeloop.Core.OpSlabLookups
import Cadeloop.Reasoning.Ranges
import Cadeloop.Core.OpSlabScreen
import Cadeloop.Core.RioUtil
import Cadeloop.Core.SpinGate
import Cadeloop.Core.Quarantine
import Cadeloop.Core.QuarantineRuns
import Cadeloop.Core.Epoll
import Cadeloop.Core.EpollHeld
import Cadeloop.Core.EpollRuns
import Cadeloop.Core.EpollOnce
import Cadeloop.Core.EpollFailures
import Cadeloop.Reasoning.CallLog
import Cadeloop.Core.EpollKernel
import Cadeloop.Core.EpollInterest
import Cadeloop.Core.EpollHistories
import Cadeloop.Core.Buffers
import Cadeloop.Core.BufferRuns
import Cadeloop.Core.BufferResidency
import Cadeloop.Core.Wakeup
import Cadeloop.Reasoning.Numerals
import Cadeloop.Reasoning.Rfc7230
import Cadeloop.Pyshim.HttpSend
import Cadeloop.Pyshim.HttpHead
import Cadeloop.Pyshim.HttpResponse
import Cadeloop.Pyshim.HttpRejected
import Cadeloop.Core.Reactor
import Cadeloop.Core.ReactorRuns
import Cadeloop.Core.ReactorOrder
import Cadeloop.Core.Http
import Cadeloop.Core.HttpSpans
import Cadeloop.Pyshim.CoreLoop
import Cadeloop.Pyshim.CoreLoopRuns
import Cadeloop.Pyshim.WriteQueue
import Cadeloop.Pyshim.WriteQueueRuns
import Cadeloop.Pyshim.Inbound
import Cadeloop.Pyshim.InboundRuns
import Cadeloop.Pyshim.Callbacks
import Cadeloop.Pyshim.CallbackRuns
import Cadeloop.Pyshim.CallbackReads
import Cadeloop.Pyshim.FlowControl
import Cadeloop.Pyshim.WsInbox
import Cadeloop.Pyshim.WsInboxRuns
import Cadeloop.Pyshim.WsConn
import Cadeloop.Pyshim.WsConnSteps
import Cadeloop.Pyshim.WsReplies
import Cadeloop.Pyshim.WsUpgrade
import Cadeloop.Pyshim.WsUpgradeRuns
import Cadeloop.Pyshim.WsPause
import Cadeloop.Pyshim.WsDelivery
import Cadeloop.Pyshim.WsDeliveryRuns
import Cadeloop.Pyshim.HttpFeed
import Cadeloop.Pyshim.HttpFeedSteps
import Cadeloop.Pyshim.Pipeline
import Cadeloop.Pyshim.PipelineSteps
import Cadeloop.Pyshim.PipelineTurns
import Cadeloop.Pyshim.PipelineBudget
import Cadeloop.Pyshim.PipelineContinue
import Cadeloop.Pyshim.PipelineProgress
import Cadeloop.Pyshim.PipelineSweeps
import Cadeloop.Pyshim.PipelineNet
import Cadeloop.Pyshim.PipelineShutdown
import Cadeloop.Pyshim.Datagram
import Cadeloop.Pyshim.DatagramRuns
import Cadeloop.Pyshim.Listeners
import Cadeloop.Pyshim.ListenerRuns
import Cadeloop.Reasoning.Waiters
import Cadeloop.Pyshim.FastQueue
import Cadeloop.Pyshim.FastQueueRuns
import Cadeloop.Pyshim.CtxSnap
import Cadeloop.Pyshim.CtxSnapRuns
import Cadeloop.Pyshim.AppTask
import Cadeloop.Pyshim.AppTaskRuns
import Cadeloop.Pyshim.TlsStage
import Cadeloop.Pyshim.DrainWaiters
import Cadeloop.Pyshim.DrainWaitersRuns
import Cadeloop.Reasoning.Calendar
import Cadeloop.Pyshim.HttpDate
import Cadeloop.Pyshim.RequestTarget
import Cadeloop.Reasoning.Tally
import Cadeloop.Core.BufferCounts
import Cadeloop.Pyshim.RecvSlots
import Cadeloop.Pyshim.RecvSlotsHeld
import Cadeloop.Pyshim.RecvSlotsSteps
import Cadeloop.Pyshim.RecvSlotsRuns
import Cadeloop.Reasoning.Fleet
import Cadeloop.Server.Handoff
import Cadeloop.Server.HandoffRuns
import Cadeloop.Server.Supervisor
import Cadeloop.Server.SupervisorRuns
import Cadeloop.Server.SupervisorLimit
import Cadeloop.Core.IocpWatch
import Cadeloop.Core.IocpWatchRuns
import Cadeloop.Core.IocpInterest
import Cadeloop.Pyshim.Handles
import Cadeloop.Pyshim.HandlesQueues
import Cadeloop.Pyshim.HandlesCalls
import Cadeloop.Pyshim.HandlesSteps
import Cadeloop.Pyshim.HandlesRuns
import Cadeloop.Pyshim.GilBoundary
import Cadeloop.Core.Netsys
import Cadeloop.Server.Single
import Cadeloop.Server.SingleRuns
