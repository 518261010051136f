import WrrSched.Model.Wrr

/-!
# Scheduling classes behind the core

The functions of `core.c` that dispatch to the hooks of a class. Of the stop, RT and fair classes
the model keeps what reaches `struct rq` and `TIF_NEED_RESCHED`: each queued task of theirs counts
once in `nr_running`, the fair ones also in `cfs.h_nr_running`; the rescheduling rules of the RT
class are those of `rt.c`; and hooks outside the source may mark the running task (`Env`).
-/

namespace WrrSched

namespace State

variable (cfg : Config) (env : Env)

/-! ## Queueing -/

/-- `update_curr_rt`, as far as it reschedules: a throttled RT task has to leave the CPU. -/
def updateCurrRt (s : State) : State :=
  s.reschedCurr (decide ((s.task s.curr).schedClass = .rt) && env.rtExceeded)

/-- Count a task of the fair class in. -/
def incHNrRunning (s : State) : State :=
  { s with rq := { s.rq with hNrRunning := s.rq.hNrRunning + 1 } }

/-- Count a task of the fair class out. -/
def decHNrRunning (s : State) : State :=
  { s with rq := { s.rq with hNrRunning := s.rq.hNrRunning - 1 } }

/-- `enqueue_task`; the idle class has no such hook. -/
def enqueueTask (s : State) (p : TaskPtr) (flags : ℕ) (n : ℕ) : State :=
  let s := s.updateRqClock (env.clockDelta n)
  match (s.task p).schedClass with
  | .wrr => s.enqueueTaskWrr cfg p flags
  | .stop | .rt => s.incNrRunning
  | .fair => s.incHNrRunning.incNrRunning
  | .idle => s.bugOn true

/-- `dequeue_task`; WRR ignores the flags. -/
def dequeueTask (s : State) (p : TaskPtr) (n : ℕ) : State :=
  let s := s.updateRqClock (env.clockDelta n)
  match (s.task p).schedClass with
  | .wrr => s.dequeueTaskWrr p
  | .rt => (s.updateCurrRt env).decNrRunning
  | .stop => s.decNrRunning
  | .fair => s.decHNrRunning.decNrRunning
  | .idle => s.bugOn true

/-- `p->sched_class->put_prev_task(rq, p)`. -/
def classPutPrevTask (s : State) (p : TaskPtr) : State :=
  match (s.task p).schedClass with
  | .wrr => s.putPrevTaskWrr p
  | .rt => s.updateCurrRt env
  | .stop | .fair | .idle => s

/-- `put_prev_task`. -/
def putPrevTask (s : State) (prev : TaskPtr) (n : ℕ) : State :=
  let s :=
    if (s.task prev).onRq ∨ s.skipClockUpdate < 0 then s.updateRqClock (env.clockDelta n)
    else s
  s.classPutPrevTask env prev

/-- `p->sched_class->set_curr_task(rq)` for the running task `p`. -/
def setCurrTask (s : State) (p : TaskPtr) : State :=
  match (s.task p).schedClass with
  | .wrr => s.setCurrTaskWrr
  | .stop | .rt | .fair | .idle => s

/-! ## Preemption -/

/-- The class walk of `check_preempt_curr`: is the class of `p` met before that of `rq->curr`? -/
def classWalk (currClass pClass : SchedClass) : List SchedClass → Bool
  | [] => false
  | c :: cs => if c = currClass then false else if c = pClass then true
    else classWalk currClass pClass cs

/-- The walk compares the positions of the two classes. -/
theorem classWalk_forEachClass (currClass pClass : SchedClass) :
    classWalk currClass pClass forEachClass = decide (pClass.Precedes currClass) := by
  cases currClass <;> cases pClass <;> rfl

/-- The `check_preempt_curr` hook, for a task of the class of the running task. -/
def classCheckPreemptCurr (s : State) (p : TaskPtr) : State :=
  match (s.task s.curr).schedClass with
  | .wrr => s.checkPreemptCurrWrr p
  | .rt => s.reschedCurr (decide ((s.task p).prio < (s.task s.curr).prio))
  | .stop | .fair | .idle => s.reschedCurr env.hookResched

/-- `check_preempt_curr`. -/
def checkPreemptCurr (s : State) (p : TaskPtr) : State :=
  let s :=
    if (s.task p).schedClass = (s.task s.curr).schedClass then s.classCheckPreemptCurr env p
    else s.reschedCurr (classWalk (s.task s.curr).schedClass (s.task p).schedClass forEachClass)
  -- a clock update right before the coming `schedule` is useless
  if (s.task s.curr).onRq ∧ s.needResched s.curr then { s with skipClockUpdate := 1 }
  else s

/-- `switched_to_rt`. -/
def switchedToRt (s : State) (p : TaskPtr) : State :=
  if (s.task p).onRq ∧ s.curr ≠ p then
    s.reschedCurr (decide ((s.task p).prio < (s.task s.curr).prio))
  else s

/-- `switched_to_fair`: a running task is rescheduled, another one is checked against it. -/
def switchedToFair (s : State) (p : TaskPtr) : State :=
  if s.curr = p then s.reschedCurr true
  else s.checkPreemptCurr env p

/-- `prio_changed_rt`. -/
def prioChangedRt (s : State) (p : TaskPtr) (oldprio : ℤ) : State :=
  if (s.task p).onRq = false then s
  else if s.curr = p then s.reschedCurr (decide (oldprio < (s.task p).prio))
  else s.reschedCurr (decide ((s.task p).prio < (s.task s.curr).prio))

/-- `check_class_changed`; no class has a `switched_from` hook on a uniprocessor but the fair one,
which keeps to itself. -/
def checkClassChanged (s : State) (p : TaskPtr) (prevClass : SchedClass) (oldprio : ℤ) : State :=
  if prevClass ≠ (s.task p).schedClass then
    match (s.task p).schedClass with
    | .rt => s.switchedToRt p
    | .wrr => s.switchedToWrr p
    | .fair => s.switchedToFair env p
    | .stop | .idle => s.reschedCurr env.hookResched
  else if oldprio ≠ (s.task p).prio then
    match (s.task p).schedClass with
    | .rt => s.prioChangedRt p oldprio
    | .wrr => s.prioChangedWrr p oldprio
    | .stop | .fair | .idle => s.reschedCurr env.hookResched
  else s

/-! ## Time -/

/-- `curr->sched_class->task_tick(rq, curr, 0)`; the tick of the idle class does nothing. -/
def taskTick (s : State) (p : TaskPtr) : State :=
  match (s.task p).schedClass with
  | .wrr => s.taskTickWrr cfg p env.tvNsec
  | .rt => (s.updateCurrRt env).setNeedResched p env.rtSliceExpired
  | .stop | .fair => s.reschedCurr env.hookResched
  | .idle => s

/-- `scheduler_tick`. -/
def schedulerTick (s : State) : State :=
  let s := s.updateRqClock (env.clockDelta 0)
  s.taskTick cfg env s.curr

/-! ## Picking -/

/-- `class->pick_next_task(rq)`; the idle class always offers the idle task. -/
def classPickNextTask (s : State) (c : SchedClass) : Option TaskPtr × State :=
  match c with
  | .stop => (env.pickStop s, s)
  | .rt => (env.pickRt s, s)
  | .wrr => s.pickNextTaskWrr env.tvNsec
  | .fair => (env.pickFair s, s)
  | .idle => (some s.idle, s)

/-- The class walk of `pick_next_task`, which ends in `BUG()`. -/
def pickWalk (s : State) : List SchedClass → TaskPtr × State
  | [] => (s.idle, s.bugOn true)
  | c :: cs =>
    match s.classPickNextTask env c with
    | (some p, s) => (p, s)
    | (none, s) => s.pickWalk cs

/-- `pick_next_task`: the fair class is asked first when all queued tasks are its own. -/
def pickNextTask (s : State) : TaskPtr × State :=
  if s.rq.nrRunning = s.rq.hNrRunning then
    match env.pickFair s with
    | some p => (p, s)
    | none => s.pickWalk env forEachClass
  else s.pickWalk env forEachClass

end State

end WrrSched
