import WrrSched.Model.Schedule

/-!
# Priorities, policies and groups of existing tasks

`rt_mutex_setprio`, `set_user_nice`, `__sched_setscheduler`, `sched_move_task` and
`sched_set_stop_task`. Those that change a task which may be queued or running take it off the run
queue and off the CPU first and put it back afterwards: `changeQueued`.
-/

namespace WrrSched

/-! ## Fields of a task -/

namespace TaskStruct

/-- "Set the class here", for the given priority. -/
def setClass (t : TaskStruct) (prio : ℤ) : TaskStruct :=
  { t with schedClass := if rtPrio prio then .rt else if t.policy = .wrr then .wrr else .fair }

/-- The change of `rt_mutex_setprio`: class and priority, not the normal priority. -/
def boost (t : TaskStruct) (prio : ℤ) : TaskStruct :=
  { t.setClass prio with prio := prio }

/-- `__setscheduler`; `topWaiter` is what `rt_mutex_getprio` finds. -/
def setscheduler (t : TaskStruct) (policy : Policy) (prio : ℤ) (topWaiter : Option ℤ) :
    TaskStruct :=
  let t := { t with policy := policy }
  let t :=
    -- the parameter of WRR is a weight, and `rt_priority` "can only be 0"
    if policy ≠ .wrr then { t with rtPriority := prio.toNat }
    else
      let t := { t with rtPriority := 0 }
      if prio ≠ 0 then
        { t with wrr := { t.wrr with weight := UInt32.ofNat prio.toNat, customWeight := true } }
      -- the group decides at the next enqueue
      else { t with wrr := { t.wrr with weight := 1, customWeight := false } }
  let t := { t with normalPrio := t.calcNormalPrio }
  let t := { t with prio := t.rtMutexGetprio topWaiter }
  t.setClass t.prio

end TaskStruct

/-! ## Validation -/

/-- What `__sched_setscheduler` finds out about its caller, the limits of the target and the
security module. -/
structure Caller where
  /-- `capable(CAP_SYS_NICE)`. -/
  capSysNice : Bool
  /-- `task_rlimit(p, RLIMIT_RTPRIO)`. -/
  rlimitRtprio : ℕ
  /-- `task_rlimit(p, RLIMIT_NICE)`. -/
  rlimitNice : ℕ
  /-- `check_same_owner(p)`. -/
  sameOwner : Bool
  /-- `security_task_setscheduler(p)`. -/
  security : ℤ
  /-- RT bandwidth is enabled and the group of the task, not an autogroup, has no RT run time. -/
  rtRuntimeZero : Bool

/-- `can_nice`. -/
def Caller.canNice (c : Caller) (nice : ℤ) : Bool :=
  decide (20 - nice ≤ c.rlimitNice) || c.capSysNice

/-- The local variables `policy`, `reset_on_fork` and `oldpolicy` (`none` for -1) at the end of the
validation. -/
structure Request where
  policy : Policy
  resetOnFork : Bool
  oldpolicy : Option Policy

/-- The decoding of the policy argument; a negative one stands for the policy of the task. -/
def decodePolicy (t : TaskStruct) (policy : ℤ) : Except ℤ Request :=
  if policy < 0 then
    .ok { policy := t.policy, resetOnFork := t.schedResetOnFork, oldpolicy := some t.policy }
  else
    let flag := policy.toNat &&& schedResetOnFork
    match Policy.ofNat? (policy.toNat - flag) with
    | some policy => .ok { policy, resetOnFork := decide (flag ≠ 0), oldpolicy := none }
    | none => .error (-einval)

/-- The check of `sched_priority`, with the exception for the weights of WRR. -/
def checkPriority (t : TaskStruct) (policy : Policy) (prio : ℤ) : Except ℤ Unit :=
  if prio < 0 ∨ (t.mm = true ∧ prio > maxUserRtPrio - 1) ∨
      (t.mm = false ∧ prio > maxRtPrio - 1) then
    .error (-einval)
  -- 1 and more for RT policies, 0 for the others, and any weight for WRR
  else if rtPolicy policy ≠ decide (prio ≠ 0) ∧ ¬(policy = .wrr ∧ prio > 0) then .error (-einval)
  else .ok ()

/-- The checks for a user without `CAP_SYS_NICE`. -/
def checkUnprivileged (t : TaskStruct) (req : Request) (prio : ℤ) (user : Bool) (c : Caller) :
    Except ℤ Unit :=
  if user = false ∨ c.capSysNice then .ok ()
  -- "can't set/change the rt policy"
  else if rtPolicy req.policy ∧ req.policy ≠ t.policy ∧ c.rlimitRtprio = 0 then .error (-eperm)
  -- "can't increase priority"
  else if rtPolicy req.policy ∧ prio > t.rtPriority ∧ prio > c.rlimitRtprio then .error (-eperm)
  -- `SCHED_IDLE` counts as nice 20
  else if t.policy = .idle ∧ req.policy ≠ .idle ∧ c.canNice t.nice = false then .error (-eperm)
  -- "can't change other user's priorities"
  else if c.sameOwner = false then .error (-eperm)
  -- the flag can be set, but not taken back
  else if t.schedResetOnFork ∧ req.resetOnFork = false then .error (-eperm)
  else .ok ()

/-- The check of the security module. -/
def checkSecurity (user : Bool) (c : Caller) : Except ℤ Unit :=
  if user ∧ c.security ≠ 0 then .error c.security else .ok ()

/-- The part of `__sched_setscheduler` before the lock is taken. -/
def validate (t : TaskStruct) (policy prio : ℤ) (user : Bool) (c : Caller) : Except ℤ Request := do
  let req ← decodePolicy t policy
  checkPriority t req.policy prio
  checkUnprivileged t req prio user c
  checkSecurity user c
  return req

namespace State

variable (cfg : Config) (env : Env)

/-! ## Changes of a task -/

/-- Take `p` off the run queue if it is queued and, if `running` is set, off the CPU; change its
fields; and put it back. -/
def changeQueued (s : State) (p : TaskPtr) (running : Bool) (flags : ℕ)
    (change : TaskStruct → TaskStruct) : State :=
  let onRq := (s.task p).onRq
  let s := if onRq then s.dequeueTask env p 0 else s
  let s := if running then s.classPutPrevTask env p else s
  let s := s.modifyTask p change
  let s := if running then s.setCurrTask p else s
  if onRq then s.enqueueTask cfg env p flags 1 else s

/-- `rt_mutex_setprio`. -/
def rtMutexSetprio (s : State) (p : TaskPtr) (prio : ℤ) : State :=
  let s := s.bugOn (decide (prio < 0 ∨ prio > maxPrio))
  if p = s.idle then s
  else
    let oldprio := (s.task p).prio
    let prevClass := (s.task p).schedClass
    -- a task that gets worse goes to the head of its queue
    let flags := if oldprio < prio then enqueueHead else 0
    let s := s.changeQueued cfg env p (decide (s.curr = p)) flags (·.boost prio)
    s.checkClassChanged env p prevClass oldprio

/-- `set_user_nice`, which does not take a running task off the CPU. -/
def setUserNice (s : State) (p : TaskPtr) (nice : ℤ) : State :=
  if (s.task p).nice = nice ∨ nice < -20 ∨ nice > 19 then s
  else if (s.task p).hasRtPolicy then
    -- it has no effect before the task loses its RT policy
    s.modifyTask p fun t => { t with staticPrio := niceToPrio nice }
  else
    let onRq := (s.task p).onRq
    let oldPrio := (s.task p).prio
    let s := s.changeQueued cfg env p false 0 fun t =>
      { t with staticPrio := niceToPrio nice }.effectivePrio
    let delta := (s.task p).prio - oldPrio
    -- the task got better, or it is running and got worse
    if onRq ∧ (delta < 0 ∨ (delta > 0 ∧ s.curr = p)) then s.reschedCurr true else s

/-- `sys_nice`, with the value it returns; `security` is what `security_task_setnice` returns. -/
def sysNice (s : State) (increment : ℤ) (c : Caller) (security : ℤ) : State × ℤ :=
  let increment := if increment < -40 then -40 else increment
  let increment := if increment > 40 then 40 else increment
  let nice := (s.task s.curr).nice + increment
  let nice := if nice < -20 then -20 else nice
  let nice := if nice > 19 then 19 else nice
  -- only a better nice value needs a permission
  if increment < 0 ∧ c.canNice nice = false then (s, -eperm)
  else if security ≠ 0 then (s, security)
  else (s.setUserNice cfg env s.curr nice, 0)

/-- `sched_move_task`, for a task that has been put into the group `tg`. -/
def schedMoveTask (s : State) (p : TaskPtr) (tg : TaskGroupPtr) : State :=
  s.changeQueued cfg env p (decide (s.curr = p)) 0 fun t => { t with schedTaskGroup := tg }

/-! ## `__sched_setscheduler` -/

/-- "Not changing anything": the policy stays, and for an RT policy the priority too. -/
def nothingChanges (t : TaskStruct) (policy : Policy) (prio : ℤ) : Bool :=
  decide (policy = t.policy ∧ (rtPolicy policy = false ∨ prio = t.rtPriority))

/-- The end of `__sched_setscheduler`, which carries the change out. -/
def setschedulerCommit (s : State) (p : TaskPtr) (req : Request) (prio : ℤ)
    (topWaiter : Option ℤ) : State :=
  let oldprio := (s.task p).prio
  let prevClass := (s.task p).schedClass
  let s := s.changeQueued cfg env p (decide (s.curr = p)) 0 fun t =>
    { t with schedResetOnFork := req.resetOnFork }.setscheduler req.policy prio topWaiter
  s.checkClassChanged env p prevClass oldprio

/-- The part of `__sched_setscheduler` under the lock, with the value it returns; `none` sends the
call back to the validation, as `sched_setparam`. -/
def setschedulerLocked (s : State) (p : TaskPtr) (req : Request) (prio : ℤ) (user : Bool)
    (c : Caller) (topWaiter : Option ℤ) : Option (State × ℤ) :=
  -- the policy of the stop task is not changed
  if s.stop = some p then some (s, -einval)
  else if nothingChanges (s.task p) req.policy prio then some (s, 0)
  -- no RT tasks in groups without RT runtime
  else if user ∧ rtPolicy req.policy ∧ c.rtRuntimeZero then some (s, -eperm)
  -- "recheck policy now with rq lock held"
  else if ∃ oldpolicy ∈ req.oldpolicy, oldpolicy ≠ (s.task p).policy then none
  else
    some (s.setschedulerCommit cfg env p req prio topWaiter, 0)

/-- `__sched_setscheduler`, with a bound on how often it may go back to `recheck`. -/
def schedSetschedulerLoop (s : State) (p : TaskPtr) (prio : ℤ) (user : Bool) (c : Caller)
    (topWaiter : Option ℤ) : ℕ → ℤ → Option (State × ℤ)
  | 0, _ => none
  | n + 1, policy =>
    match validate (s.task p) policy prio user c with
    | .error e => some (s, e)
    | .ok req =>
      match s.setschedulerLocked cfg env p req prio user c topWaiter with
      | some r => some r
      | none => s.schedSetschedulerLoop p prio user c topWaiter n (-1)

/-- `__sched_setscheduler` when nothing runs between its validation and its locked part. -/
def schedSetscheduler (s : State) (p : TaskPtr) (policy prio : ℤ) (user : Bool) (c : Caller)
    (topWaiter : Option ℤ) : State × ℤ :=
  (s.schedSetschedulerLoop cfg env p prio user c topWaiter 1 policy).getD (s, 0)

/-- The part of `sched_set_stop_task` for a new stop task. -/
def becomeStop (s : State) (p : TaskPtr) (c : Caller) (topWaiter : Option ℤ) : State :=
  let s := (s.schedSetscheduler cfg env p Policy.fifo.toNat (maxRtPrio - 1) false c topWaiter).1
  s.modifyTask p fun t => { t with schedClass := .stop }

/-- `sched_set_stop_task`. -/
def schedSetStopTask (s : State) (stop : Option TaskPtr) (c : Caller) (topWaiter : Option ℤ) :
    State :=
  let oldStop := s.stop
  let s := stop.elim s (s.becomeStop cfg env · c topWaiter)
  let s := { s with stop := stop }
  match oldStop with
  | none => s
  | some p => s.modifyTask p fun t => { t with schedClass := .rt }

/-- `init_idle_bootup_task`. -/
def initIdleBootupTask (s : State) : State :=
  s.modifyTask s.idle fun t => { t with schedClass := .idle }

/-! ## `normalize_rt_tasks` -/

/-- `normalize_task`, which does not take a running task off the CPU. -/
def normalizeTask (s : State) (p : TaskPtr) (topWaiter : Option ℤ) : State :=
  let prevClass := (s.task p).schedClass
  let oldPrio := (s.task p).prio
  let onRq := (s.task p).onRq
  let s := s.changeQueued cfg env p false 0 (·.setscheduler .normal 0 topWaiter)
  let s := if onRq then s.reschedCurr true else s
  s.checkClassChanged env p prevClass oldPrio

/-- The body of the loop of `normalize_rt_tasks`. -/
def normalizeThread (s : State) (p : TaskPtr) (topWaiter : Option ℤ) : State :=
  -- "only normalize user tasks"
  if !(s.task p).mm then s
  else
    let s := { s with se := Function.update s.se p { s.se p with execStart := 0 } }
    if !rtPrio (s.task p).prio then
      -- the second test of `p->mm` is in the source
      if (s.task p).nice < 0 ∧ (s.task p).mm then s.setUserNice cfg env p 0 else s
    else s.normalizeTask cfg env p topWaiter

variable (topWaiter : TaskPtr → Option ℤ) (envOf : TaskPtr → Env)

/-- `normalize_rt_tasks`: `do_each_thread` goes through the given threads. -/
def normalizeRtTasks : List TaskPtr → State → State
  | [], s => s
  | p :: ps, s => normalizeRtTasks ps (s.normalizeThread cfg (envOf p) p (topWaiter p))

end State

end WrrSched
