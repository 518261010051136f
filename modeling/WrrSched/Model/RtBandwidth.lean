import WrrSched.Lib.TreeWalk
import WrrSched.Model.RtClass

/-!
# RT bandwidth

How task groups come and go, and which shares of the CPU time their RT tasks may be given: the
functions of `core.c` under `CONFIG_RT_GROUP_SCHED` that check and store the runtime and the period
of a group, the sysctl handler for the whole system, and the walk over the tree of groups they use.
A `long` has 32 bits.
-/

namespace WrrSched

/-- `EBUSY`. -/
def ebusy : ℤ := 16

/-- `NSEC_PER_USEC`. -/
def nsecPerUsec : UInt64 := 1000

/-- `to_ratio`: the share `runtime / period` in units of `2 ^ -20`, as an `unsigned long`. -/
def toRatio (period runtime : UInt64) : UInt32 :=
  if runtime = runtimeInf then (1 : UInt32) <<< 20 else ((runtime <<< 20) / period).toUInt32

/-- A `u64` as a `long`. -/
def longOfU64 (x : UInt64) : ℤ := x.toUInt32.toInt32.toInt

/-- `struct rt_schedulable_data`; the group may be `NULL`. -/
structure RtSchedulableData where
  tg : Option RtGroup
  rtPeriod : UInt64
  rtRuntime : UInt64

/-- A write to one of the two files `sched_rt_handler` serves. -/
inductive RtSysctl
  | period (usec : Int32)
  | runtime (usec : Int32)

namespace RtState

/-! ## Task groups -/

/-- The pointers of the tree of task groups. -/
def groupTree (s : RtState) : Walk.Tree RtGroup where
  children g := (s.children g).map (· :: g)
  parent g := match g with
    | [] => none
    | _ :: parent => some parent

/-- `walk_tg_tree_from`; no walk takes more than three steps for each group. -/
def walkTgTreeFrom {σ : Type} (s : RtState) (start : RtGroup) (f : Walk.Visitors RtGroup σ) (d : σ) :
    Option (ℤ × σ) :=
  Walk.run s.groupTree f start (3 * s.taskGroups.length) (.down start) d

/-- `sched_create_group`, once the memory is there. -/
def schedCreateGroup (s : RtState) (parent : RtGroup) (tg : TaskGroupPtr) : RtState :=
  let g := tg :: parent
  { s with
    rtRq := Function.update s.rtRq g
      { active := .empty rtPrioQueues, rtNrRunning := 0, highestPrio := maxRtPrio,
        rtThrottled := false, rtTime := 0, rtRuntime := 0, rtNrBoosted := 0, charged := 0,
        periods := 0 }
    rtBandwidth := Function.update s.rtBandwidth g
      { rtPeriod := s.defRtBandwidth.rtPeriod, rtRuntime := 0, timerActive := false }
    taskGroups := g :: s.taskGroups
    children := Function.update (Function.update s.children g []) parent (tg :: s.children parent) }

/-- `sched_destroy_group`, and `free_sched_group` once nobody refers to the group. -/
def schedDestroyGroup (s : RtState) (tg : TaskGroupPtr) (parent : RtGroup) : RtState :=
  let g := tg :: parent
  { s with
    rtBandwidth := Function.update s.rtBandwidth g { s.rtBandwidth g with timerActive := false }
    taskGroups := listDelInit g s.taskGroups
    children := Function.update s.children parent (listDelInit tg (s.children parent)) }

/-- `set_task_rq`, for the RT class. -/
def setTaskRq (s : RtState) (p : TaskPtr) (g : RtGroup) : RtState :=
  { s with rtGroup := Function.update s.rtGroup p g }

/-! ## Admission -/

/-- `global_rt_period`. -/
def globalRtPeriod (s : RtState) : UInt64 := s.sysctlSchedRtPeriod.toUInt64 * nsecPerUsec

/-- `global_rt_runtime`. -/
def globalRtRuntime (s : RtState) : UInt64 :=
  if s.sysctlSchedRtRuntime < 0 then runtimeInf
  else UInt64.ofInt s.sysctlSchedRtRuntime * nsecPerUsec

/-- `tg_has_rt_tasks`: `task_rq(p)->rt.tg` is the root group, whatever the group of `p` is. -/
def tgHasRtTasks (s : RtState) (tg : RtGroup) : Bool :=
  decide (∃ p ∈ s.core.live, rtPrio (s.core.task p).prio = true ∧ tg = [])

/-- The period and the runtime `tg_rt_schedulable` looks at: those of the request for its group, and
those in force for the others. -/
def requested (s : RtState) (d : RtSchedulableData) (tg : RtGroup) : UInt64 × UInt64 :=
  if d.tg = some tg then (d.rtPeriod, d.rtRuntime)
  else ((s.rtBandwidth tg).rtPeriod, (s.rtBandwidth tg).rtRuntime)

/-- `tg_rt_schedulable`. -/
def tgRtSchedulable (s : RtState) (d : RtSchedulableData) (tg : RtGroup) : ℤ :=
  let (period, runtime) := s.requested d tg
  -- cannot have more runtime than the period
  if period < runtime ∧ runtime ≠ runtimeInf then -einval
  -- ensure we don't starve existing RT tasks
  else if s.rtBandwidthEnabled ∧ runtime = 0 ∧ s.tgHasRtTasks tg then -ebusy
  else
    let total := toRatio period runtime
    -- nobody can have more than the global setting allows
    if toRatio s.globalRtPeriod s.globalRtRuntime < total then -einval
    else
      -- the sum of our children's runtime should not exceed our own
      let sum := (s.groupTree.children tg).foldl (fun sum child =>
        sum + toRatio (s.requested d child).1 (s.requested d child).2) 0
      if total < sum then -einval else 0

/-- `__rt_schedulable`; a walk that did not end would be an error. -/
def rtSchedulable (s : RtState) (d : RtSchedulableData) : ℤ :=
  match s.walkTgTreeFrom [] { down := fun tg _ => (s.tgRtSchedulable d tg, ()), up := fun _ _ => (0, ()) }
      () with
  | some (ret, ()) => ret
  | none => -einval

/-- `tg_set_rt_bandwidth`. -/
def tgSetRtBandwidth (s : RtState) (tg : RtGroup) (rtPeriod rtRuntime : UInt64) : ℤ × RtState :=
  let err := s.rtSchedulable { tg := some tg, rtPeriod, rtRuntime }
  if err ≠ 0 then (err, s)
  else
    let s := { s with
      rtBandwidth := Function.update s.rtBandwidth tg { s.rtBandwidth tg with rtPeriod, rtRuntime } }
    (0, s.modifyRtRq tg fun rq => { rq with rtRuntime })

/-- `sched_group_set_rt_runtime`. -/
def schedGroupSetRtRuntime (s : RtState) (tg : RtGroup) (rtRuntimeUs : Int32) : ℤ × RtState :=
  let rtRuntime := if rtRuntimeUs < 0 then runtimeInf
    else UInt64.ofInt rtRuntimeUs.toInt * nsecPerUsec
  s.tgSetRtBandwidth tg (s.rtBandwidth tg).rtPeriod rtRuntime

/-- `sched_group_rt_runtime`. -/
def schedGroupRtRuntime (s : RtState) (tg : RtGroup) : ℤ :=
  if (s.rtBandwidth tg).rtRuntime = runtimeInf then -1
  else longOfU64 ((s.rtBandwidth tg).rtRuntime / nsecPerUsec)

/-- `sched_group_set_rt_period`. -/
def schedGroupSetRtPeriod (s : RtState) (tg : RtGroup) (rtPeriodUs : Int32) : ℤ × RtState :=
  let rtPeriod := UInt64.ofInt rtPeriodUs.toInt * nsecPerUsec
  if rtPeriod = 0 then (-einval, s)
  else s.tgSetRtBandwidth tg rtPeriod (s.rtBandwidth tg).rtRuntime

/-- `sched_group_rt_period`. -/
def schedGroupRtPeriod (s : RtState) (tg : RtGroup) : ℤ :=
  longOfU64 ((s.rtBandwidth tg).rtPeriod / nsecPerUsec)

/-- `sched_rt_global_constraints`. -/
def schedRtGlobalConstraints (s : RtState) : ℤ :=
  if s.sysctlSchedRtPeriod = 0 then -einval
  else if s.globalRtPeriod < s.globalRtRuntime ∧ s.globalRtRuntime ≠ runtimeInf then -einval
  else s.rtSchedulable { tg := none, rtPeriod := 0, rtRuntime := 0 }

/-- `sched_rt_can_attach`. -/
def schedRtCanAttach (s : RtState) (tg : RtGroup) (p : TaskPtr) : Bool :=
  !(rtPrio (s.core.task p).prio && decide ((s.rtBandwidth tg).rtRuntime = 0))

/-- What `proc_dointvec` stores. -/
def storeSysctl (s : RtState) : RtSysctl → RtState
  | .period usec => { s with sysctlSchedRtPeriod := usec.toUInt32 }
  | .runtime usec => { s with sysctlSchedRtRuntime := usec.toInt }

/-- `sched_rt_handler`, for a write of a number. -/
def schedRtHandler (s : RtState) (w : RtSysctl) : ℤ × RtState :=
  let t := s.storeSysctl w
  let ret := t.schedRtGlobalConstraints
  if ret ≠ 0 then
    (ret, { t with
      sysctlSchedRtPeriod := s.sysctlSchedRtPeriod
      sysctlSchedRtRuntime := s.sysctlSchedRtRuntime })
  else
    (ret, { t with
      defRtBandwidth :=
        { t.defRtBandwidth with rtRuntime := t.globalRtRuntime, rtPeriod := t.globalRtPeriod } })

end RtState

end WrrSched
