import Nicc.Lib.Run
import Nicc.Soc.QueueSteps
import Nicc.Mem.Partition
import Nicc.Dpa.CompletionQueue
import Nicc.Channel.QPInfo
import Nicc.Pipeline.Release
import Nicc.Pipeline.Connections
import Nicc.Soc.Dead
import Nicc.Channel.Truncation
import Nicc.Channel.LocalInfo
import Nicc.Ctrl.FlowMAT
import Nicc.Ctrl.FlowWildcards
import Nicc.Ctrl.Retval
import Nicc.Pipeline.PoolSetUp
import Nicc.Dpa.RqRing
import Nicc.Dpa.Leaks
import Nicc.Dpa.Ownership
import Nicc.Dpa.RingExtent
import Nicc.Mem.RawBuffer
import Nicc.Pipeline.Quotas
import Nicc.Pipeline.Handlers
import Nicc.Ctrl.FlowEngine
import Nicc.Ctrl.MatchConditions
import Nicc.Ctrl.FlowHash
import Nicc.Ctrl.FlowOrder
import Nicc.Soc.Chains
import Nicc.Soc.FailedPoll
import Nicc.Pipeline.Channels
import Nicc.Ctrl.ControlPlane
import Nicc.Dpa.ControlRule
import Nicc.Dpa.Reflector
import Nicc.Pipeline.Constructor
import Nicc.Ctrl.FlowDomain
import Nicc.Soc.Echo
import Nicc.Mem.Reserve
