import WrrSched.Model.System

/-!
# Concurrent calls of `__sched_setscheduler`

`__sched_setscheduler` validates its request before it takes the lock of the run queue, so that any
other operation, other calls on the same task included, may happen in between. Here a call is two
steps: the validation, which reads the policy of the task, and the locked part, which may send the
call back to the validation. A call is named by an element of `ι`; the number of calls and the order
of their steps are arbitrary.
-/

namespace WrrSched

/-- The arguments of a call of `__sched_setscheduler`; `sched_setparam` passes the policy -1. -/
structure SetschedulerCall where
  p : TaskPtr
  policy : ℤ
  prio : ℤ
  user : Bool

/-- Where a call stands. -/
inductive CallStage
  /-- At the label `recheck`, with this value of the local variable `policy`. -/
  | recheck (policy : ℤ)
  /-- Before the lock, with a validated request. -/
  | validated (req : Request)
  /-- The call has returned. -/
  | returned (result : ℤ)

/-- The CPU and the calls of `__sched_setscheduler` that have been made. -/
structure Concurrent (ι : Type*) where
  cpu : State
  call : ι → Option (SetschedulerCall × CallStage)

/-- The steps of the calls, and the other operations. -/
inductive ConcurrentOp (ι : Type*)
  /-- `sched_setscheduler` or `sched_setparam` is called. -/
  | enter (i : ι) (call : SetschedulerCall)
  /-- From `recheck` to the lock. -/
  | validate (i : ι) (c : Caller)
  /-- Under the lock. -/
  | locked (i : ι) (c : Caller) (topWaiter : Option ℤ) (env : Env)
  | other (op : Op) (env : Env)

namespace Concurrent

variable {ι : Type*} [DecidableEq ι]

/-- Move a call on. -/
def setStage (k : Concurrent ι) (i : ι) (call : SetschedulerCall) (stage : CallStage) :
    Concurrent ι :=
  { k with call := Function.update k.call i (some (call, stage)) }

/-- The unlocked validation of a call. -/
def validateStep (k : Concurrent ι) (i : ι) (c : Caller) : Concurrent ι :=
  match k.call i with
  | some (call, .recheck policy) =>
    match validate (k.cpu.task call.p) policy call.prio call.user c with
    | .error e => k.setStage i call (.returned e)
    | .ok req => k.setStage i call (.validated req)
  | _ => k

/-- The locked part of a call; "recheck policy now with rq lock held" goes back with the policy
-1. -/
def lockedStep (cfg : Config) (k : Concurrent ι) (i : ι) (c : Caller) (topWaiter : Option ℤ)
    (env : Env) : Concurrent ι :=
  match k.call i with
  | some (call, .validated req) =>
    match k.cpu.setschedulerLocked cfg env call.p req call.prio call.user c topWaiter with
    | some (s, e) => { k.setStage i call (.returned e) with cpu := s }
    | none => k.setStage i call (.recheck (-1))
  | _ => k

/-- What a step does. -/
def next (cfg : Config) (k : Concurrent ι) : ConcurrentOp ι → Concurrent ι
  | .enter i call => k.setStage i call (.recheck call.policy)
  | .validate i c => k.validateStep i c
  | .locked i c topWaiter env => k.lockedStep cfg i c topWaiter env
  | .other op env => { k with cpu := k.cpu.next cfg op env }

/-- When a step may be taken: a call is made once and for an existing task, and its locked part and
the other operations follow the rule. -/
def Enabled (rule : Rule) (k : Concurrent ι) : ConcurrentOp ι → Prop
  | .enter i call => k.call i = none ∧ k.cpu.Target call.p
  | .validate _ _ => True
  | .locked i _ topWaiter env =>
    (∀ p, env.toWakeup = some p → k.cpu.Target p) ∧
      ∀ call stage, k.call i = some (call, stage) → rule.topWaiter (k.cpu.task call.p) topWaiter
  | .other op env => k.cpu.Enabled rule op env

end Concurrent

/-- The scheduler with any number of calls under way. -/
def concurrent (cfg : Config) (rule : Rule) (ι : Type*) [DecidableEq ι] :
    TransitionSystem (Concurrent ι) (ConcurrentOp ι) where
  init k := (system cfg rule).init k.cpu ∧ ∀ i, k.call i = none
  enabled k := k.Enabled rule
  next k := k.next cfg

end WrrSched
