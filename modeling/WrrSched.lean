import WrrSched.Lib.Transition
import WrrSched.Lib.Counter
import WrrSched.Lib.RoundRobin
import WrrSched.Lib.Timeline
import WrrSched.Lib.Stamps
import WrrSched.Lib.Links
import WrrSched.Lib.PrioArray
import WrrSched.Lib.TreeWalk
import WrrSched.Lib.FixedPoint
import WrrSched.Model.Task
import WrrSched.Model.TaskGroup
import WrrSched.Model.State
import WrrSched.Model.Wrr
import WrrSched.Model.Class
import WrrSched.Model.Schedule
import WrrSched.Model.Setscheduler
import WrrSched.Model.System
import WrrSched.Model.Concurrent
import WrrSched.Model.Query
import WrrSched.Model.RunList
import WrrSched.Model.RtClass
import WrrSched.Model.RtBandwidth
import WrrSched.Model.RtSystem
import WrrSched.Model.Completion
import WrrSched.Model.LoadAvg
import WrrSched.Model.CpuLoad
import WrrSched.Correctness.Frame
import WrrSched.Correctness.Tasks
import WrrSched.Correctness.Validation
import WrrSched.Correctness.TaskStep
import WrrSched.Correctness.Queue
import WrrSched.Correctness.Invariant
import WrrSched.Correctness.Operations
import WrrSched.Correctness.RunQueue
import WrrSched.Correctness.Policy
import WrrSched.Correctness.Weights
import WrrSched.Correctness.Setscheduler
import WrrSched.Correctness.Precedence
import WrrSched.Correctness.Throttle
import WrrSched.Correctness.Ticks
import WrrSched.Correctness.Fairness
import WrrSched.Correctness.Waiting
import WrrSched.Correctness.RunTime
import WrrSched.Correctness.Params
import WrrSched.Correctness.Concurrent
import WrrSched.Correctness.Permissions
import WrrSched.Correctness.Requests
import WrrSched.Correctness.Order
import WrrSched.Correctness.Boost
import WrrSched.Correctness.Fork
import WrrSched.Correctness.Interval
import WrrSched.Correctness.Paths
import WrrSched.Correctness.RunList
import WrrSched.Correctness.RtQueue
import WrrSched.Correctness.RtStack
import WrrSched.Correctness.RtThrottle
import WrrSched.Correctness.RtRequeue
import WrrSched.Correctness.RtPick
import WrrSched.Correctness.RtInvariant
import WrrSched.Correctness.RtOrder
import WrrSched.Correctness.RtBudget
import WrrSched.Correctness.RtWalk
import WrrSched.Correctness.RtAdmission
import WrrSched.Correctness.RtStarvation
import WrrSched.Correctness.Completion
import WrrSched.Correctness.LoadAvg
import WrrSched.Correctness.CpuLoad
import WrrSched.Correctness.Normalize
import WrrSched.Correctness.Nice
import WrrSched.Correctness.RtHooks
