import WrrSched.Lib.Transition
import WrrSched.Model.Wake

/-!
# Completions

Wait queues whose entries have `default_wake_function`, and the completions of `core.c` on top of
them. A task that waits holds the lock of the wait queue except in `schedule_timeout`, so that a
wait is a sequence of steps: from its start to the first sleep, from one sleep to the next, and from
the last sleep to its end. Between them other tasks complete, wait and leave, and the rest of the
kernel may wake up a task that waits for reasons of its own. A `long` has 32 bits.
-/

namespace WrrSched

/-- `TASK_INTERRUPTIBLE`. -/
def taskInterruptible : ℕ := 1

/-- `TASK_UNINTERRUPTIBLE`. -/
def taskUninterruptible : ℕ := 2

/-- `TASK_WAKEKILL`. -/
def taskWakekill : ℕ := 128

/-- `TASK_KILLABLE`. -/
def taskKillable : ℕ := taskWakekill ||| taskUninterruptible

/-- `ERESTARTSYS`. -/
def erestartsys : ℤ := 512

/-- `MAX_SCHEDULE_TIMEOUT`, that is `LONG_MAX`. -/
def maxScheduleTimeout : ℤ := 2 ^ 31 - 1

/-- `signal_pending_state`, for a task with a pending signal, with a pending `SIGKILL`. -/
def signalPendingState (state : ℕ) (signalPending fatalSignalPending : Bool) : Bool :=
  if state &&& (taskInterruptible ||| taskWakekill) = 0 then false
  else if !signalPending then false
  else decide (state &&& taskInterruptible ≠ 0) || fatalSignalPending

/-! ## Wait queues -/

/-- A `wait_queue_t` with `default_wake_function`. -/
structure WaitQueue where
  /-- `WQ_FLAG_EXCLUSIVE` is set. -/
  exclusive : Bool
  /-- `private`: the task that waits. -/
  task : TaskPtr
  deriving DecidableEq

namespace State

/-- `default_wake_function`: whether the task was woken up, and the state. -/
def defaultWakeFunction (cfg : Config) (env : Env) (s : State) (curr : WaitQueue) (mode : ℕ) :
    Bool × State :=
  (decide ((s.task curr.task).state &&& mode ≠ 0), s.tryToWakeUp cfg env curr.task mode)

/-- `__wake_up_common`; `env n` is what the wake-up of the `n`-th entry is told. -/
def wakeUpCommon (cfg : Config) (mode : ℕ) : List WaitQueue → (ℕ → Env) → ℤ → State → State
  | [], _, _, s => s
  | curr :: next, env, nrExclusive, s =>
    let (ret, s) := s.defaultWakeFunction cfg (env 0) curr mode
    if ret && curr.exclusive then
      let nrExclusive := nrExclusive - 1
      -- enough exclusive tasks have been woken up; a count of zero wakes up all
      if nrExclusive = 0 then s else wakeUpCommon cfg mode next (fun n => env (n + 1)) nrExclusive s
    else wakeUpCommon cfg mode next (fun n => env (n + 1)) nrExclusive s

end State

/-! ## Completions -/

/-- A task that has called `schedule_timeout` in `do_wait_for_common`. -/
structure Waiter where
  /-- `state`. -/
  state : ℕ
  /-- `timeout`. -/
  timeout : ℤ
  /-- Not a variable of the source: the timeout `wait_for_common` was called with. -/
  called : ℤ

/-- What a function has returned to a task. -/
inductive Returned
  /-- `wait_for_common`, with its arguments. -/
  | waitForCommon (p : TaskPtr) (state : ℕ) (called ret : ℤ)
  | tryWaitForCompletion (p : TaskPtr) (ret : Bool)

/-- The function says that the task may go on. -/
def Returned.through : Returned → Bool
  | .waitForCommon _ _ _ ret => decide (0 < ret)
  | .tryWaitForCompletion _ ret => ret

/-- A `struct completion` and the tasks that use it. -/
structure CompletionState where
  /-- The scheduler core. -/
  core : State
  /-- `done`. -/
  done : UInt32
  /-- `wait.task_list`. -/
  taskList : List WaitQueue
  /-- The tasks that wait. -/
  waiter : TaskPtr → Option Waiter
  /-- Not a field of the source: the calls of `complete` so far. -/
  completes : ℕ
  /-- Not a field of the source: the calls of `complete_all` so far. -/
  completeAlls : ℕ
  /-- Not a field of the source: what was returned so far, the latest first. -/
  returned : List Returned

namespace CompletionState

/-- `complete`. -/
def complete (cfg : Config) (s : CompletionState) (env : ℕ → Env) : CompletionState :=
  { s with
    -- `done` first, the wake-up after it, both under the lock
    done := s.done + 1
    core := State.wakeUpCommon cfg taskNormal s.taskList env 1 s.core
    completes := s.completes + 1 }

/-- `complete_all`. -/
def completeAll (cfg : Config) (s : CompletionState) (env : ℕ → Env) : CompletionState :=
  { s with
    -- `UINT_MAX/2`
    done := s.done + 0xffffffff / 2
    core := State.wakeUpCommon cfg taskNormal s.taskList env 0 s.core
    completeAlls := s.completeAlls + 1 }

/-- `DECLARE_WAITQUEUE(wait, current)` with `__add_wait_queue_tail_exclusive`. -/
def addWaitQueueTailExclusive (s : CompletionState) (p : TaskPtr) : CompletionState :=
  { s with taskList := s.taskList ++ [{ exclusive := true, task := p }] }

/-- `__remove_wait_queue`. -/
def removeWaitQueue (s : CompletionState) (p : TaskPtr) : CompletionState :=
  { s with taskList := listDelInit { exclusive := true, task := p } s.taskList }

/-- Return from `wait_for_common`. -/
def returnFrom (s : CompletionState) (p : TaskPtr) (state : ℕ) (called ret : ℤ) :
    CompletionState :=
  { s with
    waiter := Function.update s.waiter p none
    returned := .waitForCommon p state called ret :: s.returned }

/-- `x->done--; return timeout ?: 1;`. -/
def takeDone (s : CompletionState) (p : TaskPtr) (state : ℕ) (called timeout : ℤ) :
    CompletionState :=
  { s with done := s.done - 1 }.returnFrom p state called (if timeout = 0 then 1 else timeout)

/-- The end of `do_wait_for_common` for a task that has been in the loop. -/
def leaveLoop (s : CompletionState) (p : TaskPtr) (state : ℕ) (called timeout : ℤ) :
    CompletionState :=
  let s := s.removeWaitQueue p
  -- the time is over, or there is a signal
  if s.done = 0 then s.returnFrom p state called timeout else s.takeDone p state called timeout

/-- The loop of `do_wait_for_common`, up to `schedule_timeout`. -/
def waitLoop (s : CompletionState) (p : TaskPtr) (state : ℕ) (called timeout : ℤ)
    (signal : Bool) : CompletionState :=
  -- looked at before each sleep
  if signal then s.leaveLoop p state called (-erestartsys)
  else { s with
    core := s.core.modifyTask p fun t => { t with state := state }
    waiter := Function.update s.waiter p (some { state, timeout, called }) }

/-- `wait_for_common`, up to the first sleep. -/
def waitForCommon (s : CompletionState) (p : TaskPtr) (state : ℕ) (timeout : ℤ)
    (signalPending fatalSignalPending : Bool) : CompletionState :=
  -- somebody has to wait only when nothing is done
  if s.done = 0 then
    (s.addWaitQueueTailExclusive p).waitLoop p state timeout timeout
      (signalPendingState state signalPending fatalSignalPending)
  else s.takeDone p state timeout timeout

/-- `do_wait_for_common` after `schedule_timeout` has returned `timeout`. -/
def afterScheduleTimeout (s : CompletionState) (p : TaskPtr) (timeout : ℤ)
    (signalPending fatalSignalPending : Bool) : CompletionState :=
  match s.waiter p with
  | none => s
  | some w =>
    -- `while (!x->done && timeout)`
    if s.done = 0 ∧ timeout ≠ 0 then
      s.waitLoop p w.state w.called timeout
        (signalPendingState w.state signalPending fatalSignalPending)
    else s.leaveLoop p w.state w.called timeout

/-- `try_wait_for_completion`. -/
def tryWaitForCompletion (s : CompletionState) (p : TaskPtr) : CompletionState :=
  if s.done = 0 then { s with returned := .tryWaitForCompletion p false :: s.returned }
  else { s with done := s.done - 1, returned := .tryWaitForCompletion p true :: s.returned }

/-- `completion_done`. -/
def completionDone (s : CompletionState) : Bool :=
  decide (s.done ≠ 0)

end CompletionState

/-! ## The system -/

/-- What happens to a completion. -/
inductive CompletionOp
  | complete (env : ℕ → Env)
  | completeAll (env : ℕ → Env)
  | waitForCommon (p : TaskPtr) (state : ℕ) (timeout : ℤ) (signalPending fatalSignalPending : Bool)
  | afterScheduleTimeout (p : TaskPtr) (timeout : ℤ) (signalPending fatalSignalPending : Bool)
  | tryWaitForCompletion (p : TaskPtr)
  /-- The rest of the kernel leaves this scheduler core. -/
  | other (core : State)

namespace CompletionState

/-- What an operation does. -/
def next (cfg : Config) (s : CompletionState) : CompletionOp → CompletionState
  | .complete env => s.complete cfg env
  | .completeAll env => s.completeAll cfg env
  | .waitForCommon p state timeout signalPending fatalSignalPending =>
    s.waitForCommon p state timeout signalPending fatalSignalPending
  | .afterScheduleTimeout p timeout signalPending fatalSignalPending =>
    s.afterScheduleTimeout p timeout signalPending fatalSignalPending
  | .tryWaitForCompletion p => s.tryWaitForCompletion p
  | .other core => { s with core := core }

/-- When an operation may happen. A task waits once at a time, in one of the states of the
`wait_for_completion` functions, and leaves `schedule_timeout` when it runs again, with the time
that is left. The rest of the kernel may wake up a task that waits, but not change its state
otherwise. -/
def Enabled (s : CompletionState) : CompletionOp → Prop
  | .complete _ => True
  | .completeAll _ => True
  | .waitForCommon p state timeout _ _ => s.waiter p = none ∧
      state ∈ [taskInterruptible, taskUninterruptible, taskKillable] ∧ 0 ≤ timeout ∧
      timeout ≤ maxScheduleTimeout
  | .afterScheduleTimeout p timeout _ _ => (s.core.task p).state = taskRunning ∧
      ∃ w, s.waiter p = some w ∧ 0 ≤ timeout ∧ timeout ≤ w.timeout ∧
        (w.timeout = maxScheduleTimeout → timeout = maxScheduleTimeout)
  | .tryWaitForCompletion p => s.waiter p = none
  | .other core => ∀ p w, s.waiter p = some w →
      (core.task p).state = (s.core.task p).state ∨ (core.task p).state = taskRunning

end CompletionState

/-- A completion after `init_completion`. -/
def completionSystem (cfg : Config) : TransitionSystem CompletionState CompletionOp where
  init s := ∃ core, s = { core := core, done := 0, taskList := [], waiter := fun _ => none,
                          completes := 0, completeAlls := 0, returned := [] }
  enabled s op := s.Enabled op
  next s op := s.next cfg op

end WrrSched
