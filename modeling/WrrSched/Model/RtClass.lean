import WrrSched.Lib.PrioArray
import WrrSched.Model.Class

/-!
# The RT class

The queues of `kernel/sched/rt.c` with group scheduling (`CONFIG_RT_GROUP_SCHED`): each task group
has an RT run queue of its own, which is queued as one entity on the run queue of its parent while
it has something to run and is not throttled. The scheduling classes of `Model/Class` see of this
only what `Env` says; here is the code behind it. The pushing and pulling between CPUs and the
`RLIMIT_RTTIME` watchdog are left out.

A group is named by the pointers that lead from it to the root group, which is `[]`; the parent of
a group never changes.
-/

namespace WrrSched

/-- `RUNTIME_INF`. -/
def runtimeInf : UInt64 := 0xffffffffffffffff

/-- The queues of a `struct rt_prio_array`, `MAX_RT_PRIO`. -/
def rtPrioQueues : ℕ := 100

/-! ## Groups and entities -/

/-- A `struct task_group`: its pointer, that of its parent and so on, without the root group. -/
abbrev RtGroup := List TaskGroupPtr

/-- A `struct sched_rt_entity`: that of a task, or that of a group other than the root. -/
inductive RtEntity
  | task (p : TaskPtr)
  | group (tg : TaskGroupPtr) (parent : RtGroup)
  deriving DecidableEq

/-- `group_rt_rq`, that is `rt_se->my_q`: the run queue the entity stands for. -/
def groupRtRq : RtEntity → Option RtGroup
  | .task _ => none
  | .group tg parent => some (tg :: parent)

/-- `tg->rt_se[cpu]`. -/
def rtSe : RtGroup → Option RtEntity
  | [] => none
  | tg :: parent => some (.group tg parent)

/-- The entity of a group and its `parent`s, as `for_each_sched_rt_entity` visits them. -/
def rtSeParents : RtGroup → List RtEntity
  | [] => []
  | tg :: parent => .group tg parent :: rtSeParents parent

/-! ## State -/

/-- `struct rt_rq`. -/
structure RtRq where
  /-- `active`. -/
  active : PrioArray RtEntity
  /-- `rt_nr_running`. -/
  rtNrRunning : ℤ
  /-- `highest_prio.curr`. -/
  highestPrio : ℤ
  /-- `rt_throttled`. -/
  rtThrottled : Bool
  /-- `rt_time`. -/
  rtTime : UInt64
  /-- `rt_runtime`. -/
  rtRuntime : UInt64
  /-- `rt_nr_boosted`. -/
  rtNrBoosted : ℤ
  /-- Not a field of the source: the nanoseconds that were added to `rt_time`. -/
  charged : ℕ
  /-- Not a field of the source: the periods that were taken off `rt_time`. -/
  periods : ℕ

/-- `struct rt_bandwidth`; `hrtimer_active` is all that is left of the timer. -/
structure RtBandwidth where
  /-- `rt_period`, in nanoseconds. -/
  rtPeriod : UInt64
  /-- `rt_runtime`. -/
  rtRuntime : UInt64
  /-- `hrtimer_active(&rt_period_timer)`. -/
  timerActive : Bool

/-- The RT class of the CPU. -/
structure RtState where
  /-- The scheduler core. -/
  core : State
  /-- `tg->rt_rq[cpu]`. -/
  rtRq : RtGroup → RtRq
  /-- `tg->rt_bandwidth`. -/
  rtBandwidth : RtGroup → RtBandwidth
  /-- `task_groups`. -/
  taskGroups : List RtGroup
  /-- `tg->children`. -/
  children : RtGroup → List TaskGroupPtr
  /-- The group `rt.rt_rq` and `rt.parent` of a task belong to. -/
  rtGroup : TaskPtr → RtGroup
  /-- `rt.time_slice`. -/
  timeSlice : TaskPtr → UInt32
  /-- `rq->leaf_rt_rq_list`. -/
  leafRtRqList : List RtGroup
  /-- `def_rt_bandwidth`, whose timer is not used. -/
  defRtBandwidth : RtBandwidth
  /-- `sysctl_sched_rt_period`, in microseconds. -/
  sysctlSchedRtPeriod : UInt32
  /-- `sysctl_sched_rt_runtime`, in microseconds. -/
  sysctlSchedRtRuntime : ℤ
  /-- Not a field of the source: a `WARN_ON` of `rt.c` has fired. -/
  warned : Bool
  /-- Not a field of the source: a `BUG_ON` of `rt.c` has fired. -/
  bug : Bool

namespace RtState

/-- Change the run queue of one group. -/
def modifyRtRq (s : RtState) (g : RtGroup) (f : RtRq → RtRq) : RtState :=
  { s with rtRq := Function.update s.rtRq g (f (s.rtRq g)) }

/-- Change the scheduler core. -/
def modifyCore (s : RtState) (f : State → State) : RtState :=
  { s with core := f s.core }

/-- `WARN_ON`. -/
def warnOn (s : RtState) (b : Bool) : RtState :=
  { s with warned := s.warned || b }

/-- `BUG_ON`. -/
def bugOn (s : RtState) (b : Bool) : RtState :=
  { s with bug := s.bug || b }

/-- `rt_rq_of_se`: the run queue the entity is queued on. -/
def rtRqOfSe (s : RtState) : RtEntity → RtGroup
  | .task p => s.rtGroup p
  | .group _ parent => parent

/-- `for_each_sched_rt_entity`, from `rt_se` on. -/
def forEachSchedRtEntity (s : RtState) (rtSe : RtEntity) : List RtEntity :=
  rtSe :: rtSeParents (s.rtRqOfSe rtSe)

/-- `on_rt_rq`. -/
def onRtRq (s : RtState) (rtSe : RtEntity) : Bool :=
  (s.rtRq (s.rtRqOfSe rtSe)).active.onList rtPrioQueues rtSe

/-- `rt_bandwidth_enabled`. -/
def rtBandwidthEnabled (s : RtState) : Bool :=
  decide (0 ≤ s.sysctlSchedRtRuntime)

/-- `rt_rq_throttled`. -/
def rtRqThrottled (s : RtState) (g : RtGroup) : Bool :=
  (s.rtRq g).rtThrottled && decide ((s.rtRq g).rtNrBoosted = 0)

/-- `rt_se_boosted`. -/
def rtSeBoosted (s : RtState) : RtEntity → Bool
  | .task p => decide ((s.core.task p).prio ≠ (s.core.task p).normalPrio)
  | .group tg parent => decide ((s.rtRq (tg :: parent)).rtNrBoosted ≠ 0)

/-- `rt_se_prio`. -/
def rtSePrio (s : RtState) : RtEntity → ℤ
  | .task p => (s.core.task p).prio
  | .group tg parent => (s.rtRq (tg :: parent)).highestPrio

/-! ## Counting -/

/-- `start_rt_bandwidth`. -/
def startRtBandwidth (s : RtState) (g : RtGroup) : RtState :=
  if !s.rtBandwidthEnabled || decide ((s.rtBandwidth g).rtRuntime = runtimeInf) then s
  else { s with
    rtBandwidth := Function.update s.rtBandwidth g { s.rtBandwidth g with timerActive := true } }

/-- `inc_rt_prio`. -/
def incRtPrio (s : RtState) (g : RtGroup) (prio : ℤ) : RtState :=
  s.modifyRtRq g fun rq => if prio < rq.highestPrio then { rq with highestPrio := prio } else rq

/-- `dec_rt_prio`. -/
def decRtPrio (s : RtState) (g : RtGroup) (prio : ℤ) : RtState :=
  let prevPrio := (s.rtRq g).highestPrio
  if (s.rtRq g).rtNrRunning ≠ 0 then
    let s := s.warnOn (decide (prio < prevPrio))
    -- this may have been the highest task
    if prio = prevPrio then
      s.modifyRtRq g fun rq => { rq with highestPrio := rq.active.findFirstBit rtPrioQueues }
    else s
  else s.modifyRtRq g fun rq => { rq with highestPrio := maxRtPrio }

/-- `inc_rt_group`. -/
def incRtGroup (s : RtState) (rtSe : RtEntity) (g : RtGroup) : RtState :=
  let s := if s.rtSeBoosted rtSe then
      s.modifyRtRq g fun rq => { rq with rtNrBoosted := rq.rtNrBoosted + 1 }
    else s
  s.startRtBandwidth g

/-- `dec_rt_group`. -/
def decRtGroup (s : RtState) (rtSe : RtEntity) (g : RtGroup) : RtState :=
  let s := if s.rtSeBoosted rtSe then
      s.modifyRtRq g fun rq => { rq with rtNrBoosted := rq.rtNrBoosted - 1 }
    else s
  -- an empty run queue has no boosted entities
  s.warnOn (decide ((s.rtRq g).rtNrRunning = 0) && decide ((s.rtRq g).rtNrBoosted ≠ 0))

/-- `inc_rt_tasks`. -/
def incRtTasks (s : RtState) (rtSe : RtEntity) (g : RtGroup) : RtState :=
  let prio := s.rtSePrio rtSe
  let s := s.warnOn (!rtPrio prio)
  let s := s.modifyRtRq g fun rq => { rq with rtNrRunning := rq.rtNrRunning + 1 }
  let s := s.incRtPrio g prio
  s.incRtGroup rtSe g

/-- `dec_rt_tasks`. -/
def decRtTasks (s : RtState) (rtSe : RtEntity) (g : RtGroup) : RtState :=
  let s := s.warnOn (!rtPrio (s.rtSePrio rtSe))
  let s := s.warnOn (decide ((s.rtRq g).rtNrRunning = 0))
  let s := s.modifyRtRq g fun rq => { rq with rtNrRunning := rq.rtNrRunning - 1 }
  let s := s.decRtPrio g (s.rtSePrio rtSe)
  s.decRtGroup rtSe g

/-! ## Queueing -/

/-- `list_add_leaf_rt_rq`, when the run queue has been empty. -/
def listAddLeafRtRq (s : RtState) (g : RtGroup) : RtState :=
  if (s.rtRq g).rtNrRunning = 0 then { s with leafRtRqList := g :: s.leafRtRqList } else s

/-- `list_del_leaf_rt_rq`, when the run queue is empty. -/
def listDelLeafRtRq (s : RtState) (g : RtGroup) : RtState :=
  if (s.rtRq g).rtNrRunning = 0 then { s with leafRtRqList := listDelInit g s.leafRtRqList } else s

/-- `group_rq && (rt_rq_throttled(group_rq) || !group_rq->rt_nr_running)`. -/
def groupIdle (s : RtState) (rtSe : RtEntity) : Bool :=
  match groupRtRq rtSe with
  | none => false
  | some q => s.rtRqThrottled q || decide ((s.rtRq q).rtNrRunning = 0)

/-- `__enqueue_rt_entity`: a group that is throttled or empty is not queued. -/
def enqueueRtEntityOne (s : RtState) (rtSe : RtEntity) (head : Bool) : RtState :=
  let g := s.rtRqOfSe rtSe
  if s.groupIdle rtSe then s
  else
    let s := s.listAddLeafRtRq g
    let s := s.modifyRtRq g fun rq =>
      { rq with active := rq.active.insert rtSe (s.rtSePrio rtSe) head }
    s.incRtTasks rtSe g

/-- `__dequeue_rt_entity`. -/
def dequeueRtEntityOne (s : RtState) (rtSe : RtEntity) : RtState :=
  let g := s.rtRqOfSe rtSe
  let s := s.modifyRtRq g fun rq => { rq with active := rq.active.remove rtSe (s.rtSePrio rtSe) }
  let s := s.decRtTasks rtSe g
  s.listDelLeafRtRq g

/-- One round of the loop of `dequeue_rt_stack`. -/
def dequeueIfOnRtRq (s : RtState) (rtSe : RtEntity) : RtState :=
  if s.onRtRq rtSe then s.dequeueRtEntityOne rtSe else s

/-- `dequeue_rt_stack`: "because the prio of an upper entry depends on the lower entries, we must
remove entries top - down". -/
def dequeueRtStack (s : RtState) (rtSe : RtEntity) : RtState :=
  (s.forEachSchedRtEntity rtSe).reverse.foldl dequeueIfOnRtRq s

/-- `enqueue_rt_entity`. -/
def enqueueRtEntity (s : RtState) (rtSe : RtEntity) (head : Bool) : RtState :=
  (s.forEachSchedRtEntity rtSe).foldl (fun s e => s.enqueueRtEntityOne e head)
    (s.dequeueRtStack rtSe)

/-- One round of the loop of `dequeue_rt_entity`. -/
def enqueueIfRunning (s : RtState) (rtSe : RtEntity) : RtState :=
  match groupRtRq rtSe with
  | none => s
  | some q => if (s.rtRq q).rtNrRunning ≠ 0 then s.enqueueRtEntityOne rtSe false else s

/-- `dequeue_rt_entity`. -/
def dequeueRtEntity (s : RtState) (rtSe : RtEntity) : RtState :=
  (s.forEachSchedRtEntity rtSe).foldl enqueueIfRunning (s.dequeueRtStack rtSe)

/-- `requeue_rt_entity`. -/
def requeueRtEntity (s : RtState) (g : RtGroup) (rtSe : RtEntity) (head : Bool) : RtState :=
  if s.onRtRq rtSe then
    s.modifyRtRq g fun rq => { rq with active := rq.active.requeue rtSe (s.rtSePrio rtSe) head }
  else s

/-- `requeue_task_rt`. -/
def requeueTaskRt (s : RtState) (p : TaskPtr) (head : Bool) : RtState :=
  (s.forEachSchedRtEntity (.task p)).foldl (fun s e => s.requeueRtEntity (s.rtRqOfSe e) e head) s

/-! ## Throttling -/

/-- `sched_rt_rq_enqueue`. -/
def schedRtRqEnqueue (s : RtState) (g : RtGroup) : RtState :=
  if (s.rtRq g).rtNrRunning ≠ 0 then
    let s := match rtSe g with
      | none => s
      | some e => if s.onRtRq e then s else s.enqueueRtEntity e false
    -- the best task of the group may be better than the running one
    s.modifyCore fun c =>
      c.reschedCurr (decide ((s.rtRq g).highestPrio < (c.task c.curr).prio))
  else s

/-- `sched_rt_rq_dequeue`. -/
def schedRtRqDequeue (s : RtState) (g : RtGroup) : RtState :=
  match rtSe g with
  | none => s
  | some e => if s.onRtRq e then s.dequeueRtEntity e else s

/-- `sched_rt_runtime_exceeded`. -/
def schedRtRuntimeExceeded (s : RtState) (g : RtGroup) : Bool × RtState :=
  -- throttled already; `rt_rq_throttled` also looks at boosted tasks
  if (s.rtRq g).rtThrottled then (s.rtRqThrottled g, s)
  -- the runtime covers the whole period
  else if (s.rtBandwidth g).rtPeriod ≤ (s.rtRq g).rtRuntime then (false, s)
  else if (s.rtRq g).rtRuntime = runtimeInf then (false, s)
  else if (s.rtRq g).rtRuntime < (s.rtRq g).rtTime then
    -- do not throttle groups without runtime, which accrue some time due to boosting
    let s := s.modifyRtRq g fun rq =>
      if (s.rtBandwidth g).rtRuntime ≠ 0 then { rq with rtThrottled := true }
      else { rq with rtTime := 0 }
    -- boosted tasks keep the group running
    if s.rtRqThrottled g then (true, s.schedRtRqDequeue g) else (false, s)
  else (false, s)

/-- One round of the loop of `update_curr_rt`: charge the run queue `g`. -/
def chargeRtRq (delta : UInt64) (s : RtState) (g : RtGroup) : RtState :=
  if (s.rtRq g).rtRuntime = runtimeInf then s
  else
    let s := s.modifyRtRq g fun rq =>
      { rq with rtTime := rq.rtTime + delta, charged := rq.charged + delta.toNat }
    let r := s.schedRtRuntimeExceeded g
    r.2.modifyCore fun c => c.reschedCurr r.1

/-- `delta_exec` of `update_curr_rt`. -/
def deltaExec (s : RtState) : UInt64 :=
  let delta := s.core.clockTask - (s.core.se s.core.curr).execStart
  -- the clock went backwards
  if 2 ^ 63 ≤ delta.toNat then 0 else delta

/-- `update_curr_rt`. -/
def updateCurrRt (s : RtState) : RtState :=
  let curr := s.core.curr
  if (s.core.task curr).schedClass ≠ .rt then s
  else
    let delta := s.deltaExec
    let s := s.modifyCore fun c => { c with
      se := Function.update c.se curr
        { execStart := c.clockTask, sumExecRuntime := (c.se curr).sumExecRuntime + delta } }
    if !s.rtBandwidthEnabled then s
    else ((s.forEachSchedRtEntity (.task curr)).map s.rtRqOfSe).foldl (chargeRtRq delta) s

/-- The first half of `do_sched_rt_period_timer`: whether the group is idle, whether it is to be
queued, and the state. -/
def refillRtRq (s : RtState) (g : RtGroup) (overrun : ℕ) : Bool × Bool × RtState :=
  if (s.rtRq g).rtTime ≠ 0 then
    let runtime := (s.rtRq g).rtRuntime
    let s := s.modifyRtRq g fun rq => { rq with
      rtTime := rq.rtTime - min rq.rtTime (UInt64.ofNat overrun * runtime)
      periods := rq.periods + overrun }
    let enqueue := (s.rtRq g).rtThrottled && decide ((s.rtRq g).rtTime < runtime)
    let s := if enqueue then
        let s := s.modifyRtRq g fun rq => { rq with rtThrottled := false }
        -- force a clock update if the CPU was idle
        if (s.rtRq g).rtNrRunning ≠ 0 ∧ s.core.curr = s.core.idle then
          s.modifyCore fun c => { c with skipClockUpdate := -1 }
        else s
      else s
    -- not idle as long as there is time to take off or something to run
    (!(decide ((s.rtRq g).rtTime ≠ 0) || decide ((s.rtRq g).rtNrRunning ≠ 0)), enqueue, s)
  -- nothing on the account, but something to run
  else if (s.rtRq g).rtNrRunning ≠ 0 then (false, !s.rtRqThrottled g, s)
  else (true, false, s)

/-- `do_sched_rt_period_timer`: whether the timer may stop, and the state. -/
def doSchedRtPeriodTimer (s : RtState) (g : RtGroup) (overrun : ℕ) : Bool × RtState :=
  let r := s.refillRtRq g overrun
  let throttled := (r.2.2.rtRq g).rtThrottled
  let s := if r.2.1 then r.2.2.schedRtRqEnqueue g else r.2.2
  -- nothing to limit any more: the timer may stop
  if !throttled && (!s.rtBandwidthEnabled || decide ((s.rtBandwidth g).rtRuntime = runtimeInf)) then
    (true, s)
  else (r.1, s)

/-- The loop of `sched_rt_period_timer`: `overruns` are the results of `hrtimer_forward` until it
returns zero. -/
def periodTimerLoop (g : RtGroup) : List ℕ → Bool → RtState → Bool × RtState
  | [], idle, s => (idle, s)
  | overrun :: overruns, _, s =>
    let r := s.doSchedRtPeriodTimer g overrun
    periodTimerLoop g overruns r.1 r.2

/-- `sched_rt_period_timer`: the timer is not started again when the group was idle. -/
def schedRtPeriodTimer (s : RtState) (g : RtGroup) (overruns : List ℕ) : RtState :=
  let r := periodTimerLoop g overruns false s
  { r.2 with
    rtBandwidth := Function.update r.2.rtBandwidth g { r.2.rtBandwidth g with timerActive := !r.1 } }

/-! ## Hooks of the class -/

/-- `enqueue_task_rt`. -/
def enqueueTaskRt (s : RtState) (p : TaskPtr) (flags : ℕ) : RtState :=
  (s.enqueueRtEntity (.task p) (decide (flags &&& enqueueHead ≠ 0))).modifyCore State.incNrRunning

/-- `dequeue_task_rt`. -/
def dequeueTaskRt (s : RtState) (p : TaskPtr) : RtState :=
  (s.updateCurrRt.dequeueRtEntity (.task p)).modifyCore State.decNrRunning

/-- `yield_task_rt`. -/
def yieldTaskRt (s : RtState) : RtState :=
  s.requeueTaskRt s.core.curr false

/-- `pick_next_rt_entity`. -/
def pickNextRtEntity (s : RtState) (g : RtGroup) : Option RtEntity × RtState :=
  let idx := (s.rtRq g).active.findFirstBit rtPrioQueues
  (((s.rtRq g).active.queue idx).head?, s.bugOn (decide (maxRtPrio ≤ idx)))

/-- The loop of `_pick_next_task_rt`, which goes down as many groups as there are at most. -/
def pickLoop : ℕ → RtState → RtGroup → Option TaskPtr × RtState
  | 0, s, _ => (none, s.bugOn true)
  | n + 1, s, g =>
    match s.pickNextRtEntity g with
    | (none, s) => (none, s.bugOn true)
    | (some (.task p), s) => (some p, s)
    | (some (.group tg parent), s) => pickLoop n s (tg :: parent)

/-- `pick_next_task_rt`. -/
def pickNextTaskRt (s : RtState) : Option TaskPtr × RtState :=
  -- no task, or all of them throttled
  if (s.rtRq []).rtNrRunning = 0 then (none, s)
  else if s.rtRqThrottled [] then (none, s)
  else
    match pickLoop s.taskGroups.length s [] with
    | (some p, s) => (some p, s.modifyCore fun c => { c with
        se := Function.update c.se p { c.se p with execStart := c.clockTask } })
    | (none, s) => (none, s)

/-- `set_curr_task_rt`. -/
def setCurrTaskRt (s : RtState) : RtState :=
  s.modifyCore fun c => { c with
    se := Function.update c.se c.curr { c.se c.curr with execStart := c.clockTask } }

/-- `rt_se->run_list.prev != rt_se->run_list.next`: the entity is not alone in its queue. -/
def hasNeighbours (s : RtState) (rtSe : RtEntity) : Bool :=
  let queue := (s.rtRq (s.rtRqOfSe rtSe)).active.queue (s.rtSePrio rtSe)
  decide (listPrev rtSe queue ≠ listNext rtSe queue)

/-- `task_tick_rt`. -/
def taskTickRt (cfg : Config) (s : RtState) (p : TaskPtr) : RtState :=
  let s := s.updateCurrRt
  -- FIFO tasks have no slice
  if (s.core.task p).policy ≠ .rr then s
  else
    let s := { s with timeSlice := Function.update s.timeSlice p (s.timeSlice p - 1) }
    if s.timeSlice p ≠ 0 then s
    else
      let s := { s with timeSlice := Function.update s.timeSlice p cfg.rrTimeslice }
      -- the task or one of its groups has somebody beside it
      if (s.forEachSchedRtEntity (.task p)).any s.hasNeighbours then
        (s.requeueTaskRt p false).modifyCore fun c => c.setNeedResched p true
      else s

end RtState

end WrrSched
