import WrrSched.Model.System

/-!
# Asking for policy, priority and interval

`sched_getscheduler`, `sched_getparam` and `sched_rr_get_interval` for an existing task, and
`sched_get_priority_max` and `sched_get_priority_min` for a policy. `security` is what
`security_task_getscheduler` returns.
-/

namespace WrrSched

namespace TaskStruct

/-- `sys_sched_getscheduler`. -/
def schedGetscheduler (t : TaskStruct) (security : ℤ) : ℤ :=
  if security ≠ 0 then security
  else ↑(t.policy.toNat ||| if t.schedResetOnFork then WrrSched.schedResetOnFork else 0)

/-- `sys_sched_getparam`, with the priority it copies to the user. -/
def schedGetparam (t : TaskStruct) (security : ℤ) : Except ℤ ℤ :=
  if security ≠ 0 then .error security else .ok t.rtPriority

/-- `p->sched_class->get_rr_interval(rq, p)`; the stop, fair and idle classes are outside the
source. -/
def getRrInterval (cfg : Config) (t : TaskStruct) (other : UInt32) : UInt32 :=
  match t.schedClass with
  | .wrr => t.getRrIntervalWrr cfg
  -- "Time slice is 0 for SCHED_FIFO tasks"
  | .rt => if t.policy = .rr then cfg.rrTimeslice else 0
  | .stop | .fair | .idle => other

/-- `sys_sched_rr_get_interval`, with the time slice it reports. -/
def schedRrGetInterval (cfg : Config) (t : TaskStruct) (security : ℤ) (other : UInt32) :
    Except ℤ UInt32 :=
  if security ≠ 0 then .error security else .ok (t.getRrInterval cfg other)

end TaskStruct

/-- `sys_sched_get_priority_max`; there is no case for WRR. -/
def schedGetPriorityMax (policy : ℤ) : ℤ :=
  if policy = Policy.fifo.toNat ∨ policy = Policy.rr.toNat then maxUserRtPrio - 1
  else if policy = Policy.normal.toNat ∨ policy = Policy.batch.toNat ∨
    policy = Policy.idle.toNat then 0
  else -einval

/-- `sys_sched_get_priority_min`. -/
def schedGetPriorityMin (policy : ℤ) : ℤ :=
  if policy = Policy.fifo.toNat ∨ policy = Policy.rr.toNat then 1
  else if policy = Policy.normal.toNat ∨ policy = Policy.batch.toNat ∨
    policy = Policy.idle.toNat then 0
  else -einval

end WrrSched
