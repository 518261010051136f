import Mathlib.Algebra.GroupWithZero.Nat
import Mathlib.Data.Finset.Card
import Mathlib.Tactic.Common

/-!
# Tasks, policies and scheduling classes

The per-task data of `include/linux/sched.h` that the scheduler core and the WRR class read or
write, for a uniprocessor 32-bit kernel (`CONFIG_SMP` is not set in the `goldfish` configurations).

`unsigned int` fields are `UInt32`, `int` priorities are `ℤ`, and a `struct task_struct *` is a
non-null 32-bit address, so that `Option TaskPtr` is a pointer that may be `NULL`.
-/

namespace WrrSched

/-! ## Constants -/

/-- `MAX_USER_RT_PRIO`. -/
def maxUserRtPrio : ℤ := 100

/-- `MAX_RT_PRIO`. -/
def maxRtPrio : ℤ := maxUserRtPrio

/-- `MAX_PRIO`. -/
def maxPrio : ℤ := maxRtPrio + 40

/-- `NICE_TO_PRIO`. -/
def niceToPrio (nice : ℤ) : ℤ := maxRtPrio + nice + 20

/-- `PRIO_TO_NICE`. -/
def prioToNice (prio : ℤ) : ℤ := prio - maxRtPrio - 20

/-- `rt_prio`: lower numbers are higher priorities, and those below `MAX_RT_PRIO` are RT. -/
def rtPrio (prio : ℤ) : Bool := decide (prio < maxRtPrio)

/-- `WRR_FG_WEIGHT`. -/
def wrrFgWeight : UInt32 := 10

/-- `WRR_BG_WEIGHT`. -/
def wrrBgWeight : UInt32 := 1

/-- `TASK_RUNNING`; any other state lets `__schedule` take the task off the run queue. -/
def taskRunning : ℕ := 0

/-- `TASK_NORMAL`, that is `TASK_INTERRUPTIBLE | TASK_UNINTERRUPTIBLE`. -/
def taskNormal : ℕ := 3

/-- `ENQUEUE_WAKEUP`. -/
def enqueueWakeup : ℕ := 1

/-- `ENQUEUE_HEAD`. -/
def enqueueHead : ℕ := 2

/-- `SCHED_RESET_ON_FORK`, the flag that may be or-ed into a policy. -/
def schedResetOnFork : ℕ := 0x40000000

/-- `EPERM`. -/
def eperm : ℤ := 1

/-- `EINVAL`. -/
def einval : ℤ := 22

/-- The build-time constants that depend on `HZ`. -/
structure Config where
  /-- `WRR_WEIGHT_UNIT`, the ticks one unit of weight stands for. -/
  wrrWeightUnit : UInt32
  /-- `RR_TIMESLICE`. -/
  rrTimeslice : UInt32

/-! ## Policies and classes -/

/-- The policies `__sched_setscheduler` admits. -/
inductive Policy
  | normal
  | fifo
  | rr
  | batch
  | idle
  | wrr
  deriving DecidableEq, Repr

namespace Policy

/-- The numbers of the policies in `sched.h`; 4 is reserved. -/
def ofNat? : ℕ → Option Policy
  | 0 => some normal
  | 1 => some fifo
  | 2 => some rr
  | 3 => some batch
  | 5 => some idle
  | 6 => some wrr
  | _ => none

/-- The number of a policy. -/
def toNat : Policy → ℕ
  | normal => 0
  | fifo => 1
  | rr => 2
  | batch => 3
  | idle => 5
  | wrr => 6

@[simp] theorem ofNat?_toNat (p : Policy) : ofNat? p.toNat = some p := by
  cases p <;> rfl

theorem toNat_injective : Function.Injective toNat := by
  intro p q h
  have hsome := congrArg ofNat? h
  rw [ofNat?_toNat, ofNat?_toNat] at hsome
  exact Option.some.inj hsome

end Policy

/-- `rt_policy`. -/
def rtPolicy (policy : Policy) : Bool :=
  policy = .fifo || policy = .rr

/-- The `struct sched_class` instances. -/
inductive SchedClass
  | stop
  | rt
  | wrr
  | fair
  | idle
  deriving DecidableEq, Repr

namespace SchedClass

/-- `sched_class::next`; `rt_sched_class.next` is `wrr_sched_class` and its `next` is
`fair_sched_class`. -/
def next : SchedClass → Option SchedClass
  | stop => some rt
  | rt => some wrr
  | wrr => some fair
  | fair => some idle
  | idle => none

/-- The position of a class in the order `pick_next_task` asks them. -/
def rank : SchedClass → ℕ
  | stop => 0
  | rt => 1
  | wrr => 2
  | fair => 3
  | idle => 4

/-- `c` is asked for a task before `d`. -/
def Precedes (c d : SchedClass) : Prop := c.rank < d.rank

instance (c d : SchedClass) : Decidable (c.Precedes d) :=
  inferInstanceAs (Decidable (c.rank < d.rank))

end SchedClass

/-- The classes `for_each_class` visits, from `sched_class_highest` on. -/
def forEachClass : List SchedClass :=
  [.stop, .rt, .wrr, .fair, .idle]

/-- The loop follows the `next` pointers. -/
theorem forEachClass_next : forEachClass.IsChain fun c d => c.next = some d := by
  simp [forEachClass, SchedClass.next]

/-! ## Tasks -/

/-- A `struct task_struct *` that is not `NULL`. -/
structure TaskPtr where
  /-- The address. -/
  addr : UInt32
  /-- It is not `NULL`. -/
  ne_null : addr ≠ 0
  deriving DecidableEq

/-- There are fewer tasks than 32-bit addresses. -/
theorem TaskPtr.card_lt (s : Finset TaskPtr) : s.card < 2 ^ 32 := by
  have hinj : Set.InjOn (fun p : TaskPtr => p.addr.toNat) s := by
    intro p _ q _ h
    cases p; cases q
    simpa using UInt32.toNat_inj.mp h
  have hsub : s.image (fun p => p.addr.toNat) ⊆ (Finset.range (2 ^ 32)).erase 0 := by
    intro n hn
    obtain ⟨p, -, rfl⟩ := Finset.mem_image.mp hn
    refine Finset.mem_erase.mpr ⟨fun h0 => p.ne_null ?_, Finset.mem_range.mpr p.addr.toNat_lt⟩
    exact UInt32.toNat_inj.mp h0
  have hcard := Finset.card_le_card hsub
  rw [Finset.card_image_of_injOn hinj, Finset.card_erase_of_mem (by simp), Finset.card_range]
    at hcard
  omega

/-- The `struct task_group` a task belongs to; the pointer. -/
abbrev TaskGroupPtr := ℕ

/-- `struct sched_wrr_entity` without its list node, which is the queue's business. -/
structure SchedWrrEntity where
  /-- The ticks that remain. -/
  timeSlice : UInt32
  /-- The weight. -/
  weight : UInt32
  /-- `custom_weight`: the weight was given by the user and must not be edited. -/
  customWeight : Bool
  deriving DecidableEq, Repr

/-- The fields of `struct task_struct` the scheduler decides by. -/
structure TaskStruct where
  /-- `state`, a bit mask; `TASK_RUNNING` is 0. -/
  state : ℕ
  /-- `on_rq`: some class holds the task in its queue. -/
  onRq : Bool
  /-- `prio`, possibly boosted. -/
  prio : ℤ
  /-- `static_prio`, the nice value. -/
  staticPrio : ℤ
  /-- `normal_prio`, the priority without boosting. -/
  normalPrio : ℤ
  /-- `rt_priority`. -/
  rtPriority : ℕ
  /-- `sched_class`. -/
  schedClass : SchedClass
  /-- `wrr`. -/
  wrr : SchedWrrEntity
  /-- `sched_task_group`. -/
  schedTaskGroup : TaskGroupPtr
  /-- `policy`. -/
  policy : Policy
  /-- `mm` is not `NULL`: a user task. -/
  mm : Bool
  /-- `sched_reset_on_fork`. -/
  schedResetOnFork : Bool
  /-- Not a field of the source: the task has been through `wake_up_new_task`. -/
  started : Bool
  deriving DecidableEq, Repr

namespace TaskStruct

/-- `task_has_rt_policy`. -/
def hasRtPolicy (t : TaskStruct) : Bool := rtPolicy t.policy

/-- `TASK_NICE`. -/
def nice (t : TaskStruct) : ℤ := prioToNice t.staticPrio

/-- `normal_prio()`: the priority policy and parameters ask for. -/
def calcNormalPrio (t : TaskStruct) : ℤ :=
  if t.hasRtPolicy then maxRtPrio - 1 - t.rtPriority else t.staticPrio

/-- `effective_prio`, which also stores the normal priority. An RT priority is kept. -/
def effectivePrio (t : TaskStruct) : TaskStruct :=
  let t := { t with normalPrio := t.calcNormalPrio }
  if rtPrio t.prio then t else { t with prio := t.normalPrio }

/-- `rt_mutex_getprio` (`rtmutex.c`): the better of the normal priority and the priority of the
top waiter on a mutex the task owns, if there is one. -/
def rtMutexGetprio (t : TaskStruct) (topWaiter : Option ℤ) : ℤ :=
  match topWaiter with
  | none => t.normalPrio
  | some w => min w t.normalPrio

end TaskStruct

/-- `INIT_TASK`, in the fair class as `sched_init` leaves it ("during early bootup we pretend to be
a normal task"). -/
def initTask (cfg : Config) (tg : TaskGroupPtr) : TaskStruct where
  state := taskRunning
  onRq := false
  prio := maxPrio - 20
  staticPrio := maxPrio - 20
  normalPrio := maxPrio - 20
  rtPriority := 0
  schedClass := .fair
  wrr := { timeSlice := cfg.rrTimeslice, weight := 0, customWeight := false }
  schedTaskGroup := tg
  policy := .normal
  mm := false
  schedResetOnFork := false
  started := false

end WrrSched
