import WrrSched.Lib.Transition
import WrrSched.Model.Setscheduler

/-!
# The scheduler as a transition system

Every entry point of the model is an operation; the environment resolves what the source does not
decide. `Enabled` says on which tasks the kernel calls an operation, and a `Rule` which calls of the
priority inheritance code and which changes of cgroup paths a run may contain.
-/

namespace WrrSched

/-- The entry points of the scheduler. -/
inductive Op
  | schedFork (child : TaskPtr) (mm : Bool)
  | wakeUpNewTask (p : TaskPtr)
  /-- `set_current_state`, the announcement of a sleep. -/
  | setCurrentState (state : ℕ)
  | schedule
  | schedulerTick
  | schedYield
  | tryToWakeUp (p : TaskPtr) (state : ℕ)
  | rtMutexSetprio (p : TaskPtr) (prio : ℤ)
  | setUserNice (p : TaskPtr) (nice : ℤ)
  | schedSetscheduler (p : TaskPtr) (policy prio : ℤ) (user : Bool) (c : Caller)
      (topWaiter : Option ℤ)
  | schedMoveTask (p : TaskPtr) (tg : TaskGroupPtr)
  | schedSetStopTask (stop : Option TaskPtr) (c : Caller) (topWaiter : Option ℤ)
  | initIdleBootupTask
  /-- The path of a task group changes. -/
  | setGroupPath (tg : TaskGroupPtr) (group : TaskGroup)
  /-- Code outside the model reschedules the running task. -/
  | reschedTask

/-- What an operation does. -/
def State.next (cfg : Config) (s : State) (op : Op) (env : Env) : State :=
  match op with
  | .schedFork child mm => s.schedFork env child mm
  | .wakeUpNewTask p => s.wakeUpNewTask cfg env p
  | .setCurrentState state => s.modifyTask s.curr fun t => { t with state := state }
  | .schedule => s.schedule cfg env
  | .schedulerTick => s.schedulerTick cfg env
  | .schedYield => s.schedYield cfg env
  | .tryToWakeUp p state => s.tryToWakeUp cfg env p state
  | .rtMutexSetprio p prio => s.rtMutexSetprio cfg env p prio
  | .setUserNice p nice => s.setUserNice cfg env p nice
  | .schedSetscheduler p policy prio user c topWaiter =>
    (s.schedSetscheduler cfg env p policy prio user c topWaiter).1
  | .schedMoveTask p tg => s.schedMoveTask cfg env p tg
  | .schedSetStopTask stop c topWaiter => s.schedSetStopTask cfg env stop c topWaiter
  | .initIdleBootupTask => s.initIdleBootupTask
  | .setGroupPath tg group => { s with group := Function.update s.group tg group }
  | .reschedTask => s.reschedCurr true

/-- What the rest of the kernel does in a run. -/
structure Rule where
  /-- The priorities `rt_mutex_setprio` gives a task. -/
  setprio : TaskStruct → ℤ → Prop
  /-- The priorities the top waiter of a task may have. -/
  topWaiter : TaskStruct → Option ℤ → Prop
  /-- The paths of task groups change. -/
  regroup : Prop

namespace Rule

/-- Anything. -/
def any : Rule where
  setprio _ _ := True
  topWaiter _ _ := True
  regroup := True

/-- A task that has not run yet owns no mutex, so nobody waits for it. -/
def Waiter (t : TaskStruct) (topWaiter : Option ℤ) : Prop :=
  t.started = false → topWaiter = none

/-- Priority inheritance: `rt_mutex_setprio` is called with `rt_mutex_getprio`. -/
def pi : Rule where
  setprio t prio := ∃ topWaiter, Waiter t topWaiter ∧ prio = t.rtMutexGetprio topWaiter
  topWaiter := Waiter
  regroup := True

/-- Anything, but the path of a task group stays. -/
def fixedPaths : Rule where
  setprio _ _ := True
  topWaiter _ _ := True
  regroup := False

end Rule

/-- A task that exists and is not the idle task. -/
def State.Target (s : State) (p : TaskPtr) : Prop :=
  p ∈ s.live ∧ p ≠ s.idle

/-- The states and tasks for which the kernel calls an operation. -/
def State.Enabled (rule : Rule) (s : State) (op : Op) (env : Env) : Prop :=
  (∀ p, env.toWakeup = some p → s.Target p) ∧
    match op with
    | .schedFork child _ => child ∉ s.live ∧ (s.task s.curr).schedClass ≠ .stop
    | .wakeUpNewTask p => s.Target p ∧ (s.task p).started = false
    | .setCurrentState _ => s.curr ≠ s.idle
    | .schedule => True
    | .schedulerTick => True
    | .schedYield => s.curr ≠ s.idle ∧ (s.task s.curr).schedClass ≠ .stop
    | .tryToWakeUp p _ => s.Target p
    | .rtMutexSetprio p prio =>
      s.Target p ∧ 0 ≤ prio ∧ prio ≤ maxPrio ∧ rule.setprio (s.task p) prio
    | .setUserNice p _ => s.Target p
    | .schedSetscheduler p _ _ _ _ topWaiter => s.Target p ∧ rule.topWaiter (s.task p) topWaiter
    | .schedMoveTask p _ => s.Target p
    -- the stop task is created and parked before it is announced, and parked before it goes
    | .schedSetStopTask stop _ topWaiter =>
      (∀ p, stop = some p → s.Target p ∧ s.stop ≠ some p ∧ (s.task p).onRq = false ∧
        rule.topWaiter (s.task p) topWaiter) ∧
      ∀ p, s.stop = some p → (s.task p).onRq = false
    | .initIdleBootupTask => True
    | .setGroupPath _ _ => rule.regroup
    | .reschedTask => True

/-- The state in which the boot task, which becomes the idle task, initialises the scheduler. -/
def State.boot (cfg : Config) (idle : TaskPtr) (tg : TaskGroupPtr)
    (group : TaskGroupPtr → TaskGroup) (clockTask : UInt64) : State where
  task _ := initTask cfg tg
  se _ := { execStart := 0, sumExecRuntime := 0 }
  needResched _ := false
  live := {idle}
  curr := idle
  idle := idle
  stop := none
  rq := { nrRunning := 0, hNrRunning := 0, active := [], wrrNrRunning := 0, totalWeight := 0,
          wrapped := false }
  clockTask := clockTask
  skipClockUpdate := 0
  group := group
  wrrGroupPath _ := '\x00'
  coreGroupPath _ := '\x00'
  bug := false

/-- The scheduler under a rule; an input is an operation with its environment. -/
def system (cfg : Config) (rule : Rule) : TransitionSystem State (Op × Env) where
  init s := ∃ idle tg group clockTask, s = State.boot cfg idle tg group clockTask
  enabled s i := s.Enabled rule i.1 i.2
  next s i := s.next cfg i.1 i.2

end WrrSched
