import WrrSched.Model.State

/-!
# The WRR scheduling class

The functions of `wrr.c`, under their names, on the `State` of the CPU. `for_each_sched_wrr_entity`
runs its body once and `group_wrr_rq` is `NULL`, so both disappear. The fields of the run queue and
of the tasks are changed by separate functions; the lemmas say what each of them does to the tasks.
-/

namespace WrrSched

/-- `wrr_throttled`: 72 of 100 clock readings throttle the class. -/
def wrrThrottled (tvNsec : ℕ) : Bool :=
  let r := tvNsec % 100
  decide (r ≤ 71)

/-- `update_weight` for a task whose group has the given path. -/
def SchedWrrEntity.updateWeight (e : SchedWrrEntity) (path : PathBuf) : SchedWrrEntity :=
  if e.customWeight then e
  else
    let e := if path 1 = 'b' ∧ e.weight ≠ wrrBgWeight then { e with weight := wrrBgWeight } else e
    if path 1 ≠ 'b' ∧ e.weight ≠ wrrFgWeight then { e with weight := wrrFgWeight } else e

/-- Both branches of `update_weight` leave the weight of the group. -/
theorem SchedWrrEntity.updateWeight_taskGroupPath (e : SchedWrrEntity) (tg : TaskGroup)
    (buf : PathBuf) :
    e.updateWeight (Wrr.taskGroupPath tg buf) =
      { e with weight := if e.customWeight then e.weight else tg.weight } := by
  obtain ⟨timeSlice, weight, customWeight⟩ := e
  rw [SchedWrrEntity.updateWeight, Wrr.taskGroupPath_one, TaskGroup.weight]
  cases customWeight with
  | true => rfl
  | false =>
    by_cases hb : tg.second = 'b'
    · by_cases hw : weight = wrrBgWeight <;> simp [hb, hw]
    · by_cases hw : weight = wrrFgWeight <;> simp [hb, hw]

namespace TaskStruct

variable (cfg : Config)

/-- `get_rr_interval_wrr`. -/
def getRrIntervalWrr (t : TaskStruct) : UInt32 :=
  t.wrr.weight * cfg.wrrWeightUnit

/-- Store `wrr.time_slice`. -/
def setTimeSlice (t : TaskStruct) (timeSlice : UInt32) : TaskStruct :=
  { t with wrr := { t.wrr with timeSlice := timeSlice } }

/-- What `enqueue_wrr_entity` does to a task of the group `tg`. -/
def enqueueWrr (tg : TaskGroup) (t : TaskStruct) : TaskStruct :=
  let weight := if t.wrr.customWeight then t.wrr.weight else tg.weight
  { t with wrr := { t.wrr with weight := weight, timeSlice := weight * cfg.wrrWeightUnit } }

end TaskStruct

namespace State

variable (cfg : Config)

/-! ## Entities -/

/-- `update_curr_wrr`. -/
def updateCurrWrr (s : State) : State :=
  if (s.task s.curr).schedClass ≠ .wrr then s
  else
    let deltaExec := s.clockTask - (s.se s.curr).execStart
    -- `(s64)delta_exec < 0`
    let deltaExec := if 2 ^ 63 ≤ deltaExec.toNat then 0 else deltaExec
    let sumExecRuntime := (s.se s.curr).sumExecRuntime + deltaExec
    { s with se := Function.update s.se s.curr { execStart := s.clockTask, sumExecRuntime } }

/-- `update_weight`. -/
def updateWeight (s : State) (p : TaskPtr) : State :=
  let path := Wrr.taskGroupPath (s.group (s.task p).schedTaskGroup) s.wrrGroupPath
  let s := { s with wrrGroupPath := path }
  s.modifyTask p fun t => { t with wrr := t.wrr.updateWeight path }

/-- Store `wrr.time_slice` of a task. -/
def setTimeSlice (s : State) (p : TaskPtr) (timeSlice : UInt32) : State :=
  s.modifyTask p (·.setTimeSlice timeSlice)

/-- `requeue_wrr_entity`, which also links a node that is on no list. -/
def requeueWrrEntity (s : State) (p : TaskPtr) (head : Bool) : State :=
  { s with rq := { s.rq with
    active := if head then listMove p s.rq.active else listMoveTail p s.rq.active } }

/-- `inc_wrr_tasks`. -/
def incWrrTasks (s : State) (p : TaskPtr) : State :=
  let weight := (s.task p).wrr.weight
  { s with rq := { s.rq with
    totalWeight := s.rq.totalWeight + weight
    wrrNrRunning := s.rq.wrrNrRunning + 1
    wrapped := s.rq.wrapped || Counter.addWraps s.rq.totalWeight weight ||
      Counter.addWraps s.rq.wrrNrRunning 1 } }

/-- `dec_wrr_tasks`. -/
def decWrrTasks (s : State) (p : TaskPtr) : State :=
  let weight := (s.task p).wrr.weight
  { s with rq := { s.rq with
    totalWeight := s.rq.totalWeight - weight
    wrrNrRunning := s.rq.wrrNrRunning - 1
    wrapped := s.rq.wrapped || Counter.subWraps s.rq.totalWeight weight ||
      Counter.subWraps s.rq.wrrNrRunning 1 } }

/-- `enqueue_wrr_entity`. -/
def enqueueWrrEntity (s : State) (p : TaskPtr) (head : Bool) : State :=
  -- the weight is looked up again at every enqueue
  let s := s.updateWeight p
  let s := s.setTimeSlice p ((s.task p).wrr.weight * cfg.wrrWeightUnit)
  let s := s.requeueWrrEntity p head
  s.incWrrTasks p

/-- `dequeue_wrr_entity`. -/
def dequeueWrrEntity (s : State) (p : TaskPtr) : State :=
  let s := { s with rq := { s.rq with active := listDelInit p s.rq.active } }
  s.decWrrTasks p

/-! ## Hooks of the class -/

/-- `enqueue_task_wrr`. -/
def enqueueTaskWrr (s : State) (p : TaskPtr) (flags : ℕ) : State :=
  (s.enqueueWrrEntity cfg p (decide (flags &&& enqueueHead ≠ 0))).incNrRunning

/-- `dequeue_task_wrr`. -/
def dequeueTaskWrr (s : State) (p : TaskPtr) : State :=
  let s := s.updateCurrWrr
  let s := s.dequeueWrrEntity p
  s.decNrRunning

/-- `requeue_task_wrr`. -/
def requeueTaskWrr (s : State) (p : TaskPtr) (head : Bool) : State :=
  s.requeueWrrEntity p head

/-- `yield_task_wrr`. -/
def yieldTaskWrr (s : State) : State :=
  s.requeueTaskWrr s.curr false

/-- `check_preempt_curr_wrr`. -/
def checkPreemptCurrWrr (s : State) (_p : TaskPtr) : State := s

/-- `prio_changed_wrr`. -/
def prioChangedWrr (s : State) (_p : TaskPtr) (_oldprio : ℤ) : State := s

/-- `switched_to_wrr`. -/
def switchedToWrr (s : State) (_p : TaskPtr) : State := s

/-- `pick_next_task_wrr`. `list_first_entry` of an empty list is the list head taken for an entity,
never `NULL`. -/
def pickNextTaskWrr (s : State) (tvNsec : ℕ) : Option TaskPtr × State :=
  -- nothing queued, or throttled by the time of day
  if s.rq.wrrNrRunning = 0 then (none, s)
  else if wrrThrottled tvNsec then (none, s)
  else
    match s.rq.active.head? with
    | none => (none, s.bugOn true)
    | some p =>
      (some p, { s with se := Function.update s.se p { s.se p with execStart := s.clockTask } })

/-- `put_prev_task_wrr`. -/
def putPrevTaskWrr (s : State) (_p : TaskPtr) : State :=
  s.updateCurrWrr

/-- `set_curr_task_wrr`. -/
def setCurrTaskWrr (s : State) : State :=
  { s with se := Function.update s.se s.curr { s.se s.curr with execStart := s.clockTask } }

/-- `task_tick_wrr`; `watchdog` does nothing. -/
def taskTickWrr (s : State) (p : TaskPtr) (tvNsec : ℕ) : State :=
  let s := s.updateCurrWrr
  let s :=
    -- `BUG_ON` of CONFIG_SCHED_DEBUG, and a repair
    if (s.task p).wrr.timeSlice = 0 then (s.bugOn true).setTimeSlice p 1
    else s
  let s := s.setTimeSlice p ((s.task p).wrr.timeSlice - 1)
  -- the slice has not been used up
  if (s.task p).wrr.timeSlice ≠ 0 then s
  else
    -- the refill does not look the weight up again
    let s := s.setTimeSlice p ((s.task p).wrr.weight * cfg.wrrWeightUnit)
    -- others are queued, or the throttle test holds at this moment
    if listPrev p s.rq.active ≠ listNext p s.rq.active ∨ wrrThrottled tvNsec then
      (s.requeueTaskWrr p false).setNeedResched p true
    else s

end State

end WrrSched
