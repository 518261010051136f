import WrrSched.Model.Class

/-!
# Fork and wake-up

`sched_fork`, `wake_up_new_task` with the weight WRR gives a new task, and the wake-ups of sleeping
tasks. The counters of uninterruptible tasks that `activate_task` and `deactivate_task` keep are
left out, so that the two are `enqueue_task` and `dequeue_task`.
-/

namespace WrrSched

namespace TaskStruct

/-- The part of `sched_fork` that reverts to the default policy and priority if requested. -/
def revertOnFork (p : TaskStruct) : TaskStruct :=
  if p.schedResetOnFork then
    let p :=
      -- WRR is no RT policy, so the policy of a WRR task stays
      if p.hasRtPolicy then
        { p with policy := .normal, staticPrio := niceToPrio 0, rtPriority := 0 }
      else if prioToNice p.staticPrio < 0 then { p with staticPrio := niceToPrio 0 }
      else p
    -- the flag has done its work, and the child does not inherit it
    { p with prio := p.staticPrio, normalPrio := p.staticPrio, schedResetOnFork := false }
  else p

/-- `sched_fork` for `p`, a copy of the task `current` that forks it. -/
def schedFork (current p : TaskStruct) : TaskStruct :=
  -- `__sched_fork`
  let p := { p with onRq := false }
  let p := { p with state := taskRunning, prio := current.normalPrio }
  let p := p.revertOnFork
  -- an RT task keeps the class it was copied with
  if rtPrio p.prio then p
  else if p.policy = .wrr then { p with schedClass := .wrr }
  else { p with schedClass := .fair }

/-- The condition of "sched class do not match" in `wake_up_new_task`. -/
def schedClassMismatch (t : TaskStruct) : Bool :=
  decide (t.policy = .wrr ∧ t.schedClass ≠ .wrr)

end TaskStruct

namespace State

variable (cfg : Config) (env : Env)

/-! ## Fork -/

/-- `sched_fork`, with the part of `dup_task_struct` that goes before it; `task_fork` of the fair
class may reschedule the parent. -/
def schedFork (s : State) (child : TaskPtr) (mm : Bool) : State :=
  -- the child is a copy of the task that forks
  let current := s.task s.curr
  let p := current.schedFork { current with mm := mm, started := false }
  let s := { s with
    se := Function.update s.se child { execStart := 0, sumExecRuntime := 0 }
    needResched := Function.update s.needResched child false
    live := insert child s.live }
  (s.setTask child p).reschedCurr (decide (p.schedClass = .fair) && env.hookResched)

/-- `wrr_if_fg`, with the content it leaves in the buffer of `core.c`. -/
def wrrIfFg (s : State) (p : TaskPtr) : Bool × State :=
  let path := Core.taskGroupPath (s.group (s.task p).schedTaskGroup) s.coreGroupPath
  (decide (path 1 ≠ 'b'), { s with coreGroupPath := path })

/-- The weight `wrr_set_weight` gives a task without a custom one. -/
def wrrSetGroupWeight (s : State) (p : TaskPtr) : State :=
  if (s.task p).wrr.customWeight then s
  else
    let (fg, s) := s.wrrIfFg p
    let weight := if fg then wrrFgWeight else wrrBgWeight
    s.modifyTask p fun t => { t with wrr := { t.wrr with weight := weight } }

/-- `wrr_set_weight`. -/
def wrrSetWeight (s : State) (p : TaskPtr) : State :=
  let s := s.wrrSetGroupWeight p
  if (s.task p).policy = .wrr then
    s.setTimeSlice p ((s.task p).wrr.weight * cfg.wrrWeightUnit)
  else s

/-- `wake_up_new_task`. -/
def wakeUpNewTask (s : State) (p : TaskPtr) : State :=
  -- the weight is given before the task is queued
  let s := s.wrrSetWeight cfg p
  let s := s.enqueueTask cfg env p 0 0
  let s := s.modifyTask p fun t => { t with onRq := true, started := true }
  s.checkPreemptCurr env p

/-! ## Wake-up -/

/-- `ttwu_activate`. -/
def ttwuActivate (s : State) (p : TaskPtr) (n : ℕ) : State :=
  let s := s.enqueueTask cfg env p enqueueWakeup n
  s.modifyTask p fun t => { t with onRq := true }

/-- `ttwu_do_wakeup`. -/
def ttwuDoWakeup (s : State) (p : TaskPtr) : State :=
  let s := s.checkPreemptCurr env p
  s.modifyTask p fun t => { t with state := taskRunning }

/-- `try_to_wake_up`; `ttwu_remote` is the branch of a task that is still queued. -/
def tryToWakeUp (s : State) (p : TaskPtr) (state : ℕ) : State :=
  -- not in one of the states that are woken up
  if (s.task p).state &&& state = 0 then s
  else if (s.task p).onRq then s.ttwuDoWakeup env p
  else (s.ttwuActivate cfg env p 0).ttwuDoWakeup env p

/-- `try_to_wake_up_local`. -/
def tryToWakeUpLocal (s : State) (p : TaskPtr) (n : ℕ) : State :=
  -- `WARN_ON_ONCE`, and nothing is done
  if p = s.curr then s
  else if (s.task p).state &&& taskNormal = 0 then s
  else if (s.task p).onRq then s.ttwuDoWakeup env p
  else (s.ttwuActivate cfg env p n).ttwuDoWakeup env p

end State

end WrrSched
