import WrrSched.Lib.Transition
import WrrSched.Model.RtBandwidth

/-!
# The RT class as a transition system

The hooks of the RT class, the period timers and the changes of task groups and of their bandwidth.
Between them the rest of the kernel runs: it may do to the scheduler core what it likes, except that
a task on an RT queue stays a living task of the RT class with the same priorities until it is
dequeued.
-/

namespace WrrSched

/-- The entry points of the RT class. -/
inductive RtOp
  | enqueueTaskRt (p : TaskPtr) (flags : ℕ)
  | dequeueTaskRt (p : TaskPtr)
  | yieldTaskRt
  /-- `pick_next_task_rt`; the task that is picked runs next. -/
  | pickNextTaskRt
  | putPrevTaskRt
  | setCurrTaskRt
  | taskTickRt
  | schedRtPeriodTimer (g : RtGroup) (overruns : List ℕ)
  | setTaskRq (p : TaskPtr) (g : RtGroup)
  | schedCreateGroup (parent : RtGroup) (tg : TaskGroupPtr)
  | schedDestroyGroup (tg : TaskGroupPtr) (parent : RtGroup)
  | schedGroupSetRtRuntime (g : RtGroup) (rtRuntimeUs : Int32)
  | schedGroupSetRtPeriod (g : RtGroup) (rtPeriodUs : Int32)
  | schedRtHandler (w : RtSysctl)
  /-- The rest of the kernel leaves this scheduler core. -/
  | other (core : State)

namespace RtState

/-- What an entry point does. -/
def next (cfg : Config) (s : RtState) (op : RtOp) : RtState :=
  match op with
  | .enqueueTaskRt p flags => s.enqueueTaskRt p flags
  | .dequeueTaskRt p => s.dequeueTaskRt p
  | .yieldTaskRt => s.yieldTaskRt
  | .pickNextTaskRt =>
    match s.pickNextTaskRt with
    | (some p, s) => s.modifyCore fun c => { c with curr := p }
    | (none, s) => s
  | .putPrevTaskRt => s.updateCurrRt
  | .setCurrTaskRt => s.setCurrTaskRt
  | .taskTickRt => taskTickRt cfg s s.core.curr
  | .schedRtPeriodTimer g overruns => s.schedRtPeriodTimer g overruns
  | .setTaskRq p g => s.setTaskRq p g
  | .schedCreateGroup parent tg => s.schedCreateGroup parent tg
  | .schedDestroyGroup tg parent => s.schedDestroyGroup tg parent
  | .schedGroupSetRtRuntime g rtRuntimeUs => (s.schedGroupSetRtRuntime g rtRuntimeUs).2
  | .schedGroupSetRtPeriod g rtPeriodUs => (s.schedGroupSetRtPeriod g rtPeriodUs).2
  | .schedRtHandler w => (s.schedRtHandler w).2
  | .other core => { s with core := core }

/-- What the rest of the kernel keeps: queued tasks, a running task that exists, and a group for
every task. -/
structure Kept (s : RtState) (core : State) : Prop where
  queued : ∀ p, s.onRtRq (.task p) = true → p ∈ core.live ∧ (core.task p).schedClass = .rt ∧
    (core.task p).prio = (s.core.task p).prio ∧ (core.task p).normalPrio = (s.core.task p).normalPrio
  curr : core.curr ∈ core.live
  rtGroup : ∀ p ∈ core.live, s.rtGroup p ∈ s.taskGroups

/-- The states in which the kernel calls an entry point. -/
def Enabled (s : RtState) (op : RtOp) : Prop :=
  match op with
  | .enqueueTaskRt p _ => p ∈ s.core.live ∧ s.onRtRq (.task p) = false ∧
      (s.core.task p).schedClass = .rt ∧ 0 ≤ (s.core.task p).prio ∧ (s.core.task p).prio < maxRtPrio
  | .dequeueTaskRt p => s.onRtRq (.task p) = true
  | .yieldTaskRt => (s.core.task s.core.curr).schedClass = .rt
  | .pickNextTaskRt => True
  | .putPrevTaskRt => True
  | .setCurrTaskRt => (s.core.task s.core.curr).schedClass = .rt
  | .taskTickRt => (s.core.task s.core.curr).schedClass = .rt
  | .schedRtPeriodTimer g _ => g ∈ s.taskGroups ∧ (s.rtBandwidth g).timerActive = true
  | .setTaskRq p g => s.onRtRq (.task p) = false ∧ g ∈ s.taskGroups
  | .schedCreateGroup parent tg => parent ∈ s.taskGroups ∧ tg :: parent ∉ s.taskGroups
  -- a control group is removed when it has no tasks and no children
  | .schedDestroyGroup tg parent => tg :: parent ∈ s.taskGroups ∧ s.children (tg :: parent) = [] ∧
      ∀ p ∈ s.core.live, s.rtGroup p ≠ tg :: parent
  | .schedGroupSetRtRuntime g _ => g ∈ s.taskGroups
  | .schedGroupSetRtPeriod g _ => g ∈ s.taskGroups
  | .schedRtHandler _ => True
  | .other core => s.Kept core

/-- The RT class after `sched_init`, with no task queued, all tasks in the root group and the
bandwidth of `sysctl_sched_rt_period` and `sysctl_sched_rt_runtime`. -/
def boot (core : State) (timeSlice : TaskPtr → UInt32) : RtState where
  core := core
  rtRq _ := { active := .empty rtPrioQueues, rtNrRunning := 0, highestPrio := maxRtPrio,
              rtThrottled := false, rtTime := 0, rtRuntime := 950000 * nsecPerUsec,
              rtNrBoosted := 0, charged := 0, periods := 0 }
  rtBandwidth _ := { rtPeriod := 1000000 * nsecPerUsec, rtRuntime := 950000 * nsecPerUsec,
                     timerActive := false }
  taskGroups := [[]]
  children _ := []
  rtGroup _ := []
  timeSlice := timeSlice
  leafRtRqList := []
  defRtBandwidth := { rtPeriod := 1000000 * nsecPerUsec, rtRuntime := 950000 * nsecPerUsec,
                      timerActive := false }
  sysctlSchedRtPeriod := 1000000
  sysctlSchedRtRuntime := 950000
  warned := false
  bug := false

end RtState

/-- The RT class in the kernel. -/
def rtSystem (cfg : Config) : TransitionSystem RtState RtOp where
  init s := ∃ core timeSlice, core.curr ∈ core.live ∧ s = RtState.boot core timeSlice
  enabled s op := s.Enabled op
  next s op := s.next cfg op

end WrrSched
