import WrrSched.Model.Wake

/-!
# Schedule and yield

`__schedule` takes a task that is no longer running off its queue, picks the next one and clears the
request to reschedule. It goes back to its start while the task it has switched to has such a
request; no task has one after the first pass (`Inv.schedule_needResched`), so the model is one
pass.
-/

namespace WrrSched.State

variable (cfg : Config) (env : Env)

/-- `__schedule` is about to put the running task to sleep. -/
def sleeps (s : State) : Bool :=
  decide ((s.task s.curr).state ≠ taskRunning) && !env.preemptActive && !env.signalPending

/-- The first half of `__schedule`: the running task goes to sleep unless it is running, preempted
or has a signal to handle, and a worker that goes to sleep may wake up another one. -/
def deactivatePrev (s : State) : State :=
  let prev := s.curr
  if (s.task prev).state ≠ taskRunning ∧ env.preemptActive = false then
    -- a signal keeps the task awake
    if env.signalPending then s.modifyTask prev fun t => { t with state := taskRunning }
    else
      let s := s.dequeueTask env prev 0
      let s := s.modifyTask prev fun t => { t with onRq := false }
      -- the workqueue is told that a worker sleeps
      match env.toWakeup with
      | some p => s.tryToWakeUpLocal cfg env p 1
      | none => s
  else s

/-- The second half of `__schedule`, from `put_prev_task` on. -/
def switchTask (s : State) : State :=
  let prev := s.curr
  let s := s.putPrevTask env prev 2
  let (next, s) := s.pickNextTask env
  -- the request is cleared for the last task, whoever is next
  let s := { s with needResched := Function.update s.needResched prev false }
  let s := { s with skipClockUpdate := 0 }
  if prev ≠ next then { s with curr := next } else s

/-- `__schedule`. -/
def schedule (s : State) : State :=
  (s.deactivatePrev cfg env).switchTask env

/-- `current->sched_class->yield_task(rq)`. The stop class does not yield and the idle task has no
such hook; what the others do stays in their queues. -/
def classYieldTask (s : State) : State :=
  match (s.task s.curr).schedClass with
  | .wrr => s.yieldTaskWrr
  | .rt | .fair => s
  | .stop | .idle => s.bugOn true

/-- `sys_sched_yield`. -/
def schedYield (s : State) : State :=
  s.classYieldTask.schedule cfg env

end WrrSched.State
