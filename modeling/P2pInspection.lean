import P2pInspection.TimestampInject
import P2pInspection.Timestamps
import P2pInspection.ClkSyncPulse
import P2pInspection.InjectionWindow
import P2pInspection.FrameBoundaries
import P2pInspection.SyncTimeBase
import P2pInspection.SyncCounting
import P2pInspection.SyncSender
import P2pInspection.P2p322
import P2pInspection.SyncCrossing
import P2pInspection.ReadyValid
import P2pInspection.TxStability
import P2pInspection.Custody
import P2pInspection.ForwardContext
import P2pInspection.Transition
import P2pInspection.MainContexts
import P2pInspection.Custodians
import P2pInspection.ForwardOwnership
import P2pInspection.LatencyOwnership
import P2pInspection.StatsForwarding
import P2pInspection.Isolation
import P2pInspection.ForwardOrder
import P2pInspection.CallTrace
import P2pInspection.OnicPort
import P2pInspection.PortLifeCycle
import P2pInspection.InfluxLine
import P2pInspection.StatsText
import P2pInspection.StatsMessages
import P2pInspection.Numerals
import P2pInspection.PortNames
import P2pInspection.CmacText
import P2pInspection.WrappingCounter
import P2pInspection.HopLatencies
import P2pInspection.TimestampAccess
import P2pInspection.LatencyPath
import P2pInspection.OnicRegs
import P2pInspection.CmacFields
import P2pInspection.DebugSnapshot
import P2pInspection.CmacSums
import P2pInspection.ProducerLoops
import P2pInspection.ReportedIntervals
import P2pInspection.CmacSource
import P2pInspection.PortReset
import P2pInspection.PortLock
import P2pInspection.RoundRobin
import P2pInspection.QueueTurns
import P2pInspection.BurstBalance
import P2pInspection.LaunchShutdown
import P2pInspection.GuardedCalls
import P2pInspection.CardBringUp
import P2pInspection.ForwardShutdown
import P2pInspection.RingService
import P2pInspection.P2p250
import P2pInspection.SyncSkew
import P2pInspection.MonitorLoop
import P2pInspection.ScriptedCalls
import P2pInspection.CardLife
import P2pInspection.Lifetimes
import P2pInspection.KafkaHandles
import P2pInspection.LastHop
import P2pInspection.PortInit
import P2pInspection.CounterLatch
import P2pInspection.CmacReaders
import P2pInspection.CmacReports
