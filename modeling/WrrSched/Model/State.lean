import WrrSched.Lib.Counter
import WrrSched.Model.TaskGroup

/-!
# The state of the scheduler

One CPU with its run queue. The active list of WRR is the list of the tasks on it, head first; the
Linux list primitives act on it as on a sequence, and `Model/RunList` has their pointers. The queues
of the other classes are represented by what the scheduler core can see of them: `rq->nr_running`,
`rq->cfs.h_nr_running` and the `on_rq` flag and class of each task. `struct sched_entity` and the
thread flag `TIF_NEED_RESCHED` are kept beside `struct task_struct`, so that time accounting and
rescheduling leave the tasks alone.
-/

namespace WrrSched

/-! ## List primitives -/

section ListHead

variable {α : Type*} [DecidableEq α]

/-- `list_move`: take the node out of the list it is on, if any, and add it at the head. -/
def listMove (p : α) (l : List α) : List α := p :: l.erase p

/-- `list_move_tail`. -/
def listMoveTail (p : α) (l : List α) : List α := l.erase p ++ [p]

/-- `list_del_init`. -/
def listDelInit (p : α) (l : List α) : List α := l.erase p

/-- The node after `p` on the ring; `none` is the list head. -/
def listNext (p : α) (l : List α) : Option α := (l.dropWhile (· ≠ p)).tail.head?

/-- The node before `p` on the ring; `none` is the list head. -/
def listPrev (p : α) (l : List α) : Option α := listNext p l.reverse

end ListHead

/-! ## State -/

/-- The counters of `struct rq` and `struct wrr_rq`, and the active list of WRR. -/
structure RunQueue where
  /-- `rq->nr_running`. -/
  nrRunning : UInt32
  /-- `rq->cfs.h_nr_running`. -/
  hNrRunning : UInt32
  /-- `rq->wrr.active`. -/
  active : List TaskPtr
  /-- `rq->wrr.wrr_nr_running`. -/
  wrrNrRunning : UInt32
  /-- `rq->wrr.total_weight`. -/
  totalWeight : UInt32
  /-- Not a field of the source: some update of `nr_running`, `wrr_nr_running` or `total_weight` has
  wrapped. -/
  wrapped : Bool

/-- The fields of `struct sched_entity` that WRR uses. -/
structure SchedEntity where
  /-- `exec_start`. -/
  execStart : UInt64
  /-- `sum_exec_runtime`, as far as WRR charges it. -/
  sumExecRuntime : UInt64

/-- The scheduler state of the CPU. -/
structure State where
  /-- The tasks. -/
  task : TaskPtr → TaskStruct
  /-- `se` of each task. -/
  se : TaskPtr → SchedEntity
  /-- `TIF_NEED_RESCHED` of each task. -/
  needResched : TaskPtr → Bool
  /-- The tasks that exist. -/
  live : Finset TaskPtr
  /-- `rq->curr`. -/
  curr : TaskPtr
  /-- `rq->idle`. -/
  idle : TaskPtr
  /-- `rq->stop`. -/
  stop : Option TaskPtr
  /-- The counters and the WRR queue. -/
  rq : RunQueue
  /-- `rq->clock_task`. -/
  clockTask : UInt64
  /-- `rq->skip_clock_update`. -/
  skipClockUpdate : ℤ
  /-- The task groups. -/
  group : TaskGroupPtr → TaskGroup
  /-- `group_path` of `wrr.c`. -/
  wrrGroupPath : PathBuf
  /-- `group_path` of `core.c`. -/
  coreGroupPath : PathBuf
  /-- Not a field of the source: a `BUG` was hit, or the list head was taken for a task. -/
  bug : Bool

/-- What an operation is told by code outside the source, or by parts of the RT class that are not
modelled: clocks, the hooks of the stop, fair and idle classes, the RT run time and slices, signals,
workqueues, and the choices of the other classes in `pick_next_task`. -/
structure Env where
  /-- By how much the `n`-th `update_rq_clock` of the operation advances `clock_task`. -/
  clockDelta : ℕ → UInt64
  /-- `CURRENT_TIME.tv_nsec` at the throttle test of the operation. -/
  tvNsec : ℕ
  /-- A hook of the stop, fair or idle class marks the running task for rescheduling. -/
  hookResched : Bool
  /-- `update_curr_rt` finds that the RT run time is exceeded. -/
  rtExceeded : Bool
  /-- `task_tick_rt` finds an expired `SCHED_RR` slice and another task to run. -/
  rtSliceExpired : Bool
  /-- `preempt_count() & PREEMPT_ACTIVE`. -/
  preemptActive : Bool
  /-- `signal_pending_state(prev->state, prev)`. -/
  signalPending : Bool
  /-- What `wq_worker_sleeping` returns if the task that goes to sleep is a worker. -/
  toWakeup : Option TaskPtr
  /-- `pick_next_task` of the stop class. -/
  pickStop : State → Option TaskPtr
  /-- `pick_next_task` of the RT class. -/
  pickRt : State → Option TaskPtr
  /-- `pick_next_task` of the fair class. -/
  pickFair : State → Option TaskPtr
  /-- The stop class picks a queued task of its own. -/
  pickStop_queued : ∀ s p, pickStop s = some p →
    (s.task p).onRq = true ∧ (s.task p).schedClass = .stop
  /-- The RT class picks a queued task of its own. -/
  pickRt_queued : ∀ s p, pickRt s = some p →
    (s.task p).onRq = true ∧ (s.task p).schedClass = .rt
  /-- The fair class picks a queued task of its own. -/
  pickFair_queued : ∀ s p, pickFair s = some p →
    (s.task p).onRq = true ∧ (s.task p).schedClass = .fair

namespace State

/-- Store the fields of one task. -/
def setTask (s : State) (p : TaskPtr) (t : TaskStruct) : State :=
  { s with task := Function.update s.task p t }

/-- Change the fields of one task. -/
def modifyTask (s : State) (p : TaskPtr) (f : TaskStruct → TaskStruct) : State :=
  s.setTask p (f (s.task p))

/-- `BUG_ON`. The state goes on, as it does in a kernel built without `CONFIG_BUG`. -/
def bugOn (s : State) (b : Bool) : State :=
  { s with bug := s.bug || b }

/-- `inc_nr_running`. -/
def incNrRunning (s : State) : State :=
  { s with rq := { s.rq with
    nrRunning := s.rq.nrRunning + 1
    wrapped := s.rq.wrapped || Counter.addWraps s.rq.nrRunning 1 } }

/-- `dec_nr_running`. -/
def decNrRunning (s : State) : State :=
  { s with rq := { s.rq with
    nrRunning := s.rq.nrRunning - 1
    wrapped := s.rq.wrapped || Counter.subWraps s.rq.nrRunning 1 } }

/-- `set_tsk_need_resched` when `b` holds. -/
def setNeedResched (s : State) (p : TaskPtr) (b : Bool) : State :=
  { s with needResched := fun q => s.needResched q || (b && decide (q = p)) }

/-- `resched_task(rq->curr)` when `b` holds. -/
def reschedCurr (s : State) (b : Bool) : State :=
  s.setNeedResched s.curr b

/-- `update_rq_clock`, for a clock that has advanced by `delta`. -/
def updateRqClock (s : State) (delta : UInt64) : State :=
  if 0 < s.skipClockUpdate then s else { s with clockTask := s.clockTask + delta }

end State

end WrrSched
