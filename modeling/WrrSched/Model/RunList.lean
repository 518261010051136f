import WrrSched.Lib.Links
import WrrSched.Lib.Transition
import WrrSched.Model.Wake
import WrrSched.Model.System

/-!
# The WRR list in memory

The list of WRR runs through `active` of `struct wrr_rq` and `run_list` of the entities. Here are
the functions of `wrr.c` and `core.c` on the pointers of these nodes, and the transition system of
their calls, which keeps the pointers beside the state of the CPU.
-/

namespace WrrSched

/-- The nodes of the type `struct list_head`. -/
inductive ListHead
  /-- `rq->wrr.active`. -/
  | active
  /-- `p->wrr.run_list`. -/
  | runList (p : TaskPtr)
deriving DecidableEq

namespace RunList

/-! ## Functions -/

/-- `init_wrr_rq`. -/
def initWrrRq (m : Links ListHead) : Links ListHead := m.initListHead .active

/-- `__sched_fork`. The pointers that the child was copied with are lost. -/
def schedFork (m : Links ListHead) (p : TaskPtr) : Links ListHead := m.initListHead (.runList p)

/-- `on_wrr_rq`. -/
def onWrrRq (m : Links ListHead) (p : TaskPtr) : Bool := !m.listEmpty (.runList p)

/-- `requeue_wrr_entity`. -/
def requeueWrrEntity (m : Links ListHead) (p : TaskPtr) (head : Bool) : Links ListHead :=
  if head then m.listMove (.runList p) .active else m.listMoveTail (.runList p) .active

/-- `enqueue_wrr_entity`. -/
def enqueueWrrEntity (m : Links ListHead) (p : TaskPtr) (head : Bool) : Links ListHead :=
  requeueWrrEntity m p head

/-- `dequeue_wrr_entity`. -/
def dequeueWrrEntity (m : Links ListHead) (p : TaskPtr) : Links ListHead :=
  m.listDelInit (.runList p)

/-- `pick_next_wrr_entity`. -/
def pickNextWrrEntity (m : Links ListHead) : ListHead := m.listFirstEntry .active

/-- `wrr_se->run_list.prev != wrr_se->run_list.next` of `task_tick_wrr`. -/
def neighboursDiffer (m : Links ListHead) (p : TaskPtr) : Bool :=
  decide (m.prev (.runList p) ≠ m.next (.runList p))

/-! ## Calls -/

/-- The calls that assign pointers. -/
inductive Call
  | schedFork (child : TaskPtr) (mm : Bool) (env : Env)
  | enqueueWrrEntity (p : TaskPtr) (head : Bool)
  | dequeueWrrEntity (p : TaskPtr)
  | requeueWrrEntity (p : TaskPtr) (head : Bool)

end RunList

/-- The CPU, and the pointers in memory. -/
structure LinkedState where
  cpu : State
  links : Links ListHead

namespace LinkedState

/-- What a call does to both. -/
def next (cfg : Config) (x : LinkedState) : RunList.Call → LinkedState
  | .schedFork child mm env =>
    { cpu := x.cpu.schedFork env child mm, links := RunList.schedFork x.links child }
  | .enqueueWrrEntity p head =>
    { cpu := x.cpu.enqueueWrrEntity cfg p head, links := RunList.enqueueWrrEntity x.links p head }
  | .dequeueWrrEntity p =>
    { cpu := x.cpu.dequeueWrrEntity p, links := RunList.dequeueWrrEntity x.links p }
  | .requeueWrrEntity p head =>
    { cpu := x.cpu.requeueWrrEntity p head, links := RunList.requeueWrrEntity x.links p head }

/-- An entity is enqueued when it is not on the list, and dequeued or requeued when it is. -/
def Enabled (x : LinkedState) : RunList.Call → Prop
  | .schedFork child _ _ => child ∉ x.cpu.live
  | .enqueueWrrEntity p _ => p ∈ x.cpu.live ∧ p ∉ x.cpu.rq.active
  | .dequeueWrrEntity p => p ∈ x.cpu.rq.active
  | .requeueWrrEntity p _ => p ∈ x.cpu.rq.active

end LinkedState

/-- The pointers when the boot task `idle` initialises the scheduler, in a memory with the content
`m`. -/
def RunList.boot (m : Links ListHead) (idle : TaskPtr) : Links ListHead :=
  RunList.schedFork (RunList.initWrrRq m) idle

/-- Any calls, from the initialisation on. -/
def runListSystem (cfg : Config) : TransitionSystem LinkedState RunList.Call where
  init x := ∃ m idle tg group clockTask,
    x = { cpu := State.boot cfg idle tg group clockTask, links := RunList.boot m idle }
  enabled := LinkedState.Enabled
  next := LinkedState.next cfg

end WrrSched
