import WrrSched.Correctness.RtStack

/-!
# Throttling of RT groups

`update_curr_rt` charges the time a task has run to its group and all parents of the group, and the
period timer takes the runtime of the group off again for each period. Both may change whether a
group is throttled, which links or unlinks its entity. Here is what they do to the account of each
run queue (`RtRq.charge`, `RtRq.refill`), and that they leave every queue in order and every task
where it is.

- `LinkedBut.unthrottle`, `LinkedBut.throttle`: `sched_rt_rq_enqueue` and `sched_rt_rq_dequeue`
  link the group again;
- `chargeRtRq_spec`, `updateCurrRt_spec`: the charge;
- `doSchedRtPeriodTimer_spec`: the timer.
-/

namespace WrrSched

namespace RtRq

/-- What is counted for throttling. -/
def account (rq : RtRq) : UInt64 × Bool × ℕ × ℕ :=
  (rq.rtTime, rq.rtThrottled, rq.charged, rq.periods)

/-- The queue and its counters. -/
def queueing (rq : RtRq) : PrioArray RtEntity × ℤ × ℤ × ℤ :=
  (rq.active, rq.rtNrRunning, rq.highestPrio, rq.rtNrBoosted)

/-- The throttling of a run queue that has used up its runtime. -/
def limit (b : RtBandwidth) (rq : RtRq) : RtRq :=
  if rq.rtThrottled = true ∨ b.rtPeriod ≤ rq.rtRuntime ∨ rq.rtTime ≤ rq.rtRuntime then rq
  else if b.rtRuntime ≠ 0 then { rq with rtThrottled := true }
  else { rq with rtTime := 0 }

/-- The charge of `delta` nanoseconds. -/
def accrue (delta : UInt64) (rq : RtRq) : RtRq :=
  { rq with rtTime := rq.rtTime + delta, charged := rq.charged + delta.toNat }

/-- One round of the loop of `update_curr_rt`. -/
def charge (b : RtBandwidth) (delta : UInt64) (rq : RtRq) : RtRq :=
  if rq.rtRuntime = runtimeInf then rq else (rq.accrue delta).limit b

/-- The end of `overrun` periods. -/
def refill (overrun : ℕ) (rq : RtRq) : RtRq :=
  if rq.rtTime ≠ 0 then
    let rtTime := rq.rtTime - min rq.rtTime (UInt64.ofNat overrun * rq.rtRuntime)
    { rq with
      rtTime
      periods := rq.periods + overrun
      rtThrottled := rq.rtThrottled && !decide (rtTime < rq.rtRuntime) }
  else rq

/-- Throttling a run queue does not move its entities. -/
@[simp] theorem queueing_limit (b : RtBandwidth) (rq : RtRq) :
    (rq.limit b).queueing = rq.queueing := by
  unfold limit
  split_ifs <;> rfl

/-- Nor does a charge. -/
@[simp] theorem queueing_charge (b : RtBandwidth) (delta : UInt64) (rq : RtRq) :
    (rq.charge b delta).queueing = rq.queueing := by
  unfold charge
  split_ifs
  · rfl
  · exact queueing_limit b _

/-- Throttling does not set the runtime. -/
@[simp] theorem rtRuntime_limit (b : RtBandwidth) (rq : RtRq) :
    (rq.limit b).rtRuntime = rq.rtRuntime := by
  unfold limit
  split_ifs <;> rfl

/-- A refill does not move entities. -/
@[simp] theorem queueing_refill (overrun : ℕ) (rq : RtRq) :
    (rq.refill overrun).queueing = rq.queueing := by
  unfold refill
  split_ifs <;> rfl

/-- A charge does not set the runtime. -/
@[simp] theorem rtRuntime_charge (b : RtBandwidth) (delta : UInt64) (rq : RtRq) :
    (rq.charge b delta).rtRuntime = rq.rtRuntime := by
  unfold charge
  split_ifs
  · rfl
  · exact rtRuntime_limit b _

/-- Nor does a refill. -/
@[simp] theorem rtRuntime_refill (overrun : ℕ) (rq : RtRq) :
    (rq.refill overrun).rtRuntime = rq.rtRuntime := by
  unfold refill
  split_ifs <;> rfl

end RtRq

namespace RtState

variable {s s' : RtState} {g q : RtGroup} {e x : RtEntity} {p : TaskPtr}

/-! ## Relinking one group -/

/-- Every run queue is in order, every group but `g` is linked, and `g` is queued only if it is not
empty. -/
structure LinkedBut (s : RtState) (g : RtGroup) : Prop where
  queues : s.QueuesOk
  linked : ∀ q, q ≠ g → s.Linked q
  nonempty : ∀ e, groupRtRq e = some g → s.onRtRq e = true → (s.rtRq g).rtNrRunning ≠ 0

/-- What holds of the run queues while a group waits to be linked. -/
theorem LinkedBut.lowered (h : s.LinkedBut g) : s.Lowered g :=
  ⟨h.queues, fun q hq => h.linked q fun heq => hq (heq ▸ List.suffix_rfl)⟩

/-- A change that leaves the queue and its counters leaves the run queues in order. -/
theorem Consistent.linkedBut (h : s.Consistent) {f : RtRq → RtRq}
    (hf : (f (s.rtRq g)).queueing = (s.rtRq g).queueing) :
    (s.modifyRtRq g f).LinkedBut g ∧ ∀ e, (s.modifyRtRq g f).onRtRq e = s.onRtRq e := by
  have hq : ∀ q, ((s.modifyRtRq g f).rtRq q).queueing = (s.rtRq q).queueing := by
    intro q
    by_cases hqg : q = g
    · subst hqg
      rw [modifyRtRq_self, hf]
    · simp [modifyRtRq, hqg]
  -- the parts of `queueing` one by one
  have hactive : ∀ q, ((s.modifyRtRq g f).rtRq q).active = (s.rtRq q).active :=
    fun q => congrArg (·.1) (hq q)
  have hnr : ∀ q, ((s.modifyRtRq g f).rtRq q).rtNrRunning = (s.rtRq q).rtNrRunning :=
    fun q => congrArg (·.2.1) (hq q)
  have hhigh : ∀ q, ((s.modifyRtRq g f).rtRq q).highestPrio = (s.rtRq q).highestPrio :=
    fun q => congrArg (·.2.2.1) (hq q)
  have hboost : ∀ q, ((s.modifyRtRq g f).rtRq q).rtNrBoosted = (s.rtRq q).rtNrBoosted :=
    fun q => congrArg (·.2.2.2) (hq q)
  have hrqOf : ∀ e, (s.modifyRtRq g f).rtRqOfSe e = s.rtRqOfSe e :=
    fun e => (SameBut.modifyRtRq s g f).rtRqOfSe e
  -- the keys of the entities are read off the run queues
  have hprio : (s.modifyRtRq g f).rtSePrio = s.rtSePrio := by
    funext e
    cases e with
    | task p => rfl
    | group tg parent => exact hhigh _
  have hboosted : (s.modifyRtRq g f).rtSeBoosted = s.rtSeBoosted := by
    funext e
    cases e with
    | task p => rfl
    | group tg parent => simp only [rtSeBoosted, hboost]
  have hon : ∀ e, (s.modifyRtRq g f).onRtRq e = s.onRtRq e := by
    intro e
    rw [onRtRq, onRtRq, hrqOf, hactive]
  have hqueues : (s.modifyRtRq g f).QueuesOk := by
    refine ⟨fun q => ⟨⟨?_, ?_, ?_, ?_⟩, fun i x hx => ?_, ?_⟩, h.queues.leafNodup⟩
    · rw [hactive, hprio]
      exact (h.queues.rq q).ok.wf
    · rw [hactive, hnr]
      exact (h.queues.rq q).ok.nr
    · rw [hactive, hboost, hboosted]
      exact (h.queues.rq q).ok.boosted
    · rw [hactive, hhigh]
      exact (h.queues.rq q).ok.highest
    · rw [hactive] at hx
      rw [hrqOf]
      exact (h.queues.rq q).home i x hx
    · rw [hnr]
      exact (h.queues.rq q).leaf
  -- other groups are still queued as they should be; `g` itself may not be
  refine ⟨⟨hqueues, fun q hqg => ?_, fun e he hone => ?_⟩, hon⟩
  · exact (h.linked q).frame (SameBut.modifyRtRq s g f) hqg fun e _ => hon e
  · rw [hon] at hone
    rw [hnr]
    cases g with
    | nil => exact absurd he (by cases e <;> simp [groupRtRq])
    | cons tg parent =>
      rw [groupRtRq_eq_some_iff.mp he] at hone
      have hidle := (h.linked (tg :: parent)).mp hone
      simp only [groupIdle, groupRtRq, Bool.or_eq_false_iff, decide_eq_false_iff_not] at hidle
      exact hidle.2

/-- `sched_rt_rq_dequeue` of a throttled group. -/
theorem LinkedBut.throttle (h : s.LinkedBut g) (hthr : s.rtRqThrottled g = true) :
    (s.schedRtRqDequeue g).Consistent ∧ StackFrame s (s.schedRtRqDequeue g) ∧
      ∀ q, ¬ q <:+ g → (s.schedRtRqDequeue g).rtRq q = s.rtRq q := by
  cases g with
  | nil =>
    refine ⟨⟨h.queues, fun q => ?_⟩, .refl s, fun _ _ => rfl⟩
    cases q with
    | nil => trivial
    | cons tg parent => exact h.linked _ (List.cons_ne_nil _ _)
  | cons tg parent =>
    simp only [schedRtRqDequeue, rtSe]
    split_ifs with hon
    · rw [dequeueRtEntity_group]
      exact h.lowered.enqueueGroup false
    · refine ⟨⟨h.queues, fun q => ?_⟩, .refl s, fun _ _ => rfl⟩
      by_cases hq : q = tg :: parent
      · subst hq
        simp [Linked, hon, groupIdle, groupRtRq, hthr]
      · exact h.linked q hq

/-- The entity of `g` is queued if `g` is not empty: the first half of `sched_rt_rq_enqueue`. -/
def linkGroup (s : RtState) (g : RtGroup) : RtState :=
  match rtSe g with
  | none => s
  | some e => if s.onRtRq e then s else s.enqueueRtEntity e false

/-- The two halves. -/
theorem schedRtRqEnqueue_eq (s : RtState) (g : RtGroup) :
    s.schedRtRqEnqueue g =
      if (s.rtRq g).rtNrRunning ≠ 0 then
        (s.linkGroup g).modifyCore fun c =>
          c.reschedCurr (decide (((s.linkGroup g).rtRq g).highestPrio < (c.task c.curr).prio))
      else s := rfl

/-- The first half links a group that has something to run. -/
theorem LinkedBut.linkGroup (h : s.LinkedBut g) (hthr : s.rtRqThrottled g = false)
    (hnr : (s.rtRq g).rtNrRunning ≠ 0) :
    (s.linkGroup g).Consistent ∧ StackFrame s (s.linkGroup g) ∧
      ∀ q, ¬ q <:+ g → (s.linkGroup g).rtRq q = s.rtRq q := by
  cases g with
  | nil =>
    refine ⟨⟨h.queues, fun q => ?_⟩, .refl s, fun _ _ => rfl⟩
    cases q with
    | nil => trivial
    | cons tg parent => exact h.linked _ (List.cons_ne_nil _ _)
  | cons tg parent =>
    simp only [RtState.linkGroup, rtSe]
    split_ifs with hon
    · refine ⟨⟨h.queues, fun q => ?_⟩, .refl s, fun _ _ => rfl⟩
      by_cases hq : q = tg :: parent
      · subst hq
        simp [Linked, hon, groupIdle, groupRtRq, hthr, hnr]
      · exact h.linked q hq
    · exact h.lowered.enqueueGroup false

/-! ## What throttling leaves -/

/-- Charging and refilling the group `g` leaves the tasks where they are, and the counters of all
run queues but those of `g` and its parents. -/
structure TimeFrame (g : RtGroup) (s s' : RtState) : Prop where
  core : ∃ n k e, s'.core = { s.core with needResched := n, skipClockUpdate := k, se := e }
  taskGroups : s'.taskGroups = s.taskGroups
  children : s'.children = s.children
  rtGroup : s'.rtGroup = s.rtGroup
  timeSlice : s'.timeSlice = s.timeSlice
  defRtBandwidth : s'.defRtBandwidth = s.defRtBandwidth
  sysctlSchedRtPeriod : s'.sysctlSchedRtPeriod = s.sysctlSchedRtPeriod
  sysctlSchedRtRuntime : s'.sysctlSchedRtRuntime = s.sysctlSchedRtRuntime
  warned : s'.warned = s.warned
  bug : s'.bug = s.bug
  rtRuntime : ∀ q, (s'.rtRq q).rtRuntime = (s.rtRq q).rtRuntime
  rtPeriod : ∀ q, (s'.rtBandwidth q).rtPeriod = (s.rtBandwidth q).rtPeriod
  bandwidthRuntime : ∀ q, (s'.rtBandwidth q).rtRuntime = (s.rtBandwidth q).rtRuntime
  taskQueue : ∀ q i, s'.taskQueue q i = s.taskQueue q i
  outside : ∀ q, ¬ q <:+ g → (s'.rtRq q).rtNrRunning = (s.rtRq q).rtNrRunning

namespace TimeFrame

/-- Nothing is changed. -/
theorem refl (g : RtGroup) (s : RtState) : TimeFrame g s s := by
  constructor <;> intros <;> first | rfl | exact ⟨_, _, _, rfl⟩

/-- Two changes after one another. -/
theorem trans {s'' : RtState} (h : TimeFrame g s s') (h' : TimeFrame g s' s'') :
    TimeFrame g s s'' where
  core := by
    obtain ⟨n, k, e, hc⟩ := h.core
    obtain ⟨n', k', e', hc'⟩ := h'.core
    exact ⟨n', k', e', by rw [hc', hc]⟩
  taskGroups := h'.taskGroups.trans h.taskGroups
  children := h'.children.trans h.children
  rtGroup := h'.rtGroup.trans h.rtGroup
  timeSlice := h'.timeSlice.trans h.timeSlice
  defRtBandwidth := h'.defRtBandwidth.trans h.defRtBandwidth
  sysctlSchedRtPeriod := h'.sysctlSchedRtPeriod.trans h.sysctlSchedRtPeriod
  sysctlSchedRtRuntime := h'.sysctlSchedRtRuntime.trans h.sysctlSchedRtRuntime
  warned := h'.warned.trans h.warned
  bug := h'.bug.trans h.bug
  rtRuntime q := (h'.rtRuntime q).trans (h.rtRuntime q)
  rtPeriod q := (h'.rtPeriod q).trans (h.rtPeriod q)
  bandwidthRuntime q := (h'.bandwidthRuntime q).trans (h.bandwidthRuntime q)
  taskQueue q i := (h'.taskQueue q i).trans (h.taskQueue q i)
  outside q hq := (h'.outside q hq).trans (h.outside q hq)

/-- What leaves everything outside a parent leaves everything outside the group. -/
theorem mono (h : TimeFrame q s s') (hq : q <:+ g) : TimeFrame g s s' :=
  { h with outside := fun q' hq' => h.outside q' fun hs => hq' (hs.trans hq) }

/-- Requeueing the groups from `g` up. -/
theorem of_stack (h : StackFrame s s') (hrq : ∀ q, ¬ q <:+ g → s'.rtRq q = s.rtRq q) :
    TimeFrame g s s' :=
  { h.frame with
    core := ⟨_, _, _, h.frame.core⟩
    taskQueue := h.taskQueue
    outside := fun q hq => by rw [hrq q hq] }

/-- A change of the account of `g`. -/
theorem modifyRtRq (s : RtState) (g : RtGroup) {f : RtRq → RtRq}
    (hq : (f (s.rtRq g)).queueing = (s.rtRq g).queueing)
    (hr : (f (s.rtRq g)).rtRuntime = (s.rtRq g).rtRuntime) :
    TimeFrame g s (s.modifyRtRq g f) :=
  { refl g s with
    rtRuntime := fun q => by
      by_cases hqg : q = g
      · subst hqg
        simp [hr]
      · simp [RtState.modifyRtRq, hqg]
    taskQueue := fun q i => by
      by_cases hqg : q = g
      · subst hqg
        have hactive : (f (s.rtRq q)).active = (s.rtRq q).active := congrArg (·.1) hq
        simp [RtState.taskQueue, hactive]
      · simp [RtState.taskQueue, RtState.modifyRtRq, hqg]
    outside := fun q hqs => by
      have hqg : q ≠ g := fun heq => hqs (heq ▸ List.suffix_rfl)
      simp [RtState.modifyRtRq, hqg] }

/-- Marking the running task. -/
theorem reschedCurr (g : RtGroup) (s : RtState) (b : Bool) :
    TimeFrame g s (s.modifyCore fun c => c.reschedCurr b) :=
  { refl g s with core := ⟨_, _, _, rfl⟩ }

/-- The tasks stay as they are. -/
theorem task (h : TimeFrame g s s') : s'.core.task = s.core.task := by
  obtain ⟨n, k, e, hc⟩ := h.core
  rw [hc]

/-- Tasks stay on their queues, or off. -/
theorem onRtRq_task (h : TimeFrame g s s') (hq : s.QueuesOk) (hq' : s'.QueuesOk) (p : TaskPtr) :
    s'.onRtRq (.task p) = s.onRtRq (.task p) := by
  have hp := hq.mem_taskQueue_iff (p := p) (g := s.rtGroup p) (i := (s.core.task p).prio)
  have hp' := hq'.mem_taskQueue_iff (p := p) (g := s.rtGroup p) (i := (s.core.task p).prio)
  rw [h.taskQueue, hp, h.rtGroup, h.task] at hp'
  exact Bool.eq_iff_iff.mpr (by simpa using hp'.symm)

end TimeFrame

/-! ## Charging -/

/-- The other half of relinking: nothing is to be done when the group has kept its status. -/
theorem LinkedBut.consistent (h : s.LinkedBut g) (hg : s.Linked g) : s.Consistent where
  queues := h.queues
  linked q := by
    by_cases hq : q = g
    · exact hq ▸ hg
    · exact h.linked q hq

/-- A group that is as throttled as before stays linked. -/
theorem Consistent.modifyTime (h : s.Consistent) {f : RtRq → RtRq}
    (hf : (f (s.rtRq g)).queueing = (s.rtRq g).queueing)
    (hthr : (s.modifyRtRq g f).rtRqThrottled g = s.rtRqThrottled g) :
    (s.modifyRtRq g f).Consistent := by
  obtain ⟨hbut, hon⟩ := h.linkedBut hf
  refine hbut.consistent ?_
  cases g with
  | nil => trivial
  | cons tg parent =>
    have hnr : (f (s.rtRq (tg :: parent))).rtNrRunning = (s.rtRq (tg :: parent)).rtNrRunning :=
      congrArg (·.2.1) hf
    have hlinked := h.linked (tg :: parent)
    simpa [Linked, hon, groupIdle, groupRtRq, hthr, hnr] using hlinked

/-- Only the priorities of the queued tasks matter to the queues. -/
theorem Consistent.modifyCore (h : s.Consistent) {f : State → State}
    (hf : ∀ p, s.onRtRq (.task p) = true → ((f s.core).task p).prio = (s.core.task p).prio ∧
      ((f s.core).task p).normalPrio = (s.core.task p).normalPrio) :
    (s.modifyCore f).Consistent := by
  have hprio : ∀ q i, ∀ x ∈ (s.rtRq q).active.queue i,
      (s.modifyCore f).rtSePrio x = s.rtSePrio x ∧ (s.modifyCore f).rtSeBoosted x = s.rtSeBoosted x := by
    intro q i x hx
    cases x with
    | task p =>
      obtain ⟨h1, h2⟩ := hf p ((h.queues.rq q).onRtRq_of_mem hx)
      simp [rtSePrio, rtSeBoosted, RtState.modifyCore, h1, h2]
    | group tg parent => exact ⟨rfl, rfl⟩
  have hrqOf : ∀ e, (s.modifyCore f).rtRqOfSe e = s.rtRqOfSe e := by
    intro e
    cases e <;> rfl
  refine ⟨⟨fun q => ⟨?_, fun i x hx => ?_, (h.queues.rq q).leaf⟩, h.queues.leafNodup⟩, fun q => ?_⟩
  · exact (h.queues.rq q).ok.congr (fun i x hx => (hprio q i x hx).1) fun i x hx =>
      (hprio q i x hx).2
  · rw [hrqOf]
    exact (h.queues.rq q).home i x hx
  · cases q with
    | nil => trivial
    | cons tg parent => exact h.linked (tg :: parent)

/-- Only the number of entities, the timer and the system limit matter. -/
theorem Armed.congr (h : s.Armed q) (hnr : (s'.rtRq q).rtNrRunning = (s.rtRq q).rtNrRunning)
    (hbw : s'.rtBandwidth q = s.rtBandwidth q)
    (hen : s'.sysctlSchedRtRuntime = s.sysctlSchedRtRuntime) : s'.Armed q := by
  intro he hrt hn
  rw [rtBandwidthEnabled_congr hen] at he
  rw [hbw] at hrt ⊢
  exact h he hrt (hnr ▸ hn)

/-- A change that leaves the queue and its counters arms and disarms no timer. -/
theorem Armed.modifyRtRq (h : s.Armed q) {f : RtRq → RtRq}
    (hf : (f (s.rtRq g)).queueing = (s.rtRq g).queueing) : (s.modifyRtRq g f).Armed q := by
  refine h.congr ?_ rfl rfl
  by_cases hqg : q = g
  · subst hqg
    rw [modifyRtRq_self]
    exact congrArg (·.2.1) hf
  · simp [RtState.modifyRtRq, hqg]

/-- Queueing does not touch the accounts. -/
theorem QueueFrame.account (h : QueueFrame s s') (q : RtGroup) :
    (s'.rtRq q).account = (s.rtRq q).account := by
  simp only [RtRq.account, h.rtTime, h.rtThrottled, h.charged, h.periods]

/-- A change of one run queue leaves the other accounts alone. -/
theorem account_modifyRtRq (s : RtState) (g q : RtGroup) (f : RtRq → RtRq) :
    ((s.modifyRtRq g f).rtRq q).account =
      if q = g then (f (s.rtRq g)).account else (s.rtRq q).account := by
  by_cases hq : q = g
  · subst hq
    simp
  · simp [modifyRtRq, hq]

/-- What `sched_rt_runtime_exceeded` does. -/
theorem schedRtRuntimeExceeded_eq (hrt : (s.rtRq g).rtRuntime ≠ runtimeInf) :
    s.schedRtRuntimeExceeded g =
      let u := s.modifyRtRq g fun rq => rq.limit (s.rtBandwidth g)
      (u.rtRqThrottled g,
        if (s.rtRq g).rtThrottled = false ∧ u.rtRqThrottled g = true then u.schedRtRqDequeue g
        else u) := by
  -- where `limit` does nothing the source does not write
  have hid : (s.rtRq g).limit (s.rtBandwidth g) = s.rtRq g →
      (s.modifyRtRq g fun rq => rq.limit (s.rtBandwidth g)) = s := by
    intro hl
    simp [modifyRtRq, hl]
  unfold schedRtRuntimeExceeded
  by_cases hthr : (s.rtRq g).rtThrottled = true
  · have hl : (s.rtRq g).limit (s.rtBandwidth g) = s.rtRq g := by simp [RtRq.limit, hthr]
    simp [hthr, hid hl]
  · rw [Bool.not_eq_true] at hthr
    by_cases hper : (s.rtBandwidth g).rtPeriod ≤ (s.rtRq g).rtRuntime
    · have hl : (s.rtRq g).limit (s.rtBandwidth g) = s.rtRq g := by simp [RtRq.limit, hper]
      simp [hthr, hper, hid hl, rtRqThrottled]
    · by_cases htime : (s.rtRq g).rtRuntime < (s.rtRq g).rtTime
      · -- over its runtime: throttled, unless it has no runtime at all
        have hl : ∀ rq, rq = s.rtRq g → (if (s.rtBandwidth g).rtRuntime ≠ 0 then
            { rq with rtThrottled := true } else { rq with rtTime := 0 }) =
            rq.limit (s.rtBandwidth g) := by
          rintro rq rfl
          simp [RtRq.limit, hthr, hper, htime]
        rw [if_neg (by simp [hthr]), if_neg hper, if_neg hrt, if_pos htime,
          modifyRtRq_congr (hl _ rfl)]
        simp only [hthr, true_and]
        split_ifs <;> simp_all
      · have hl : (s.rtRq g).limit (s.rtBandwidth g) = s.rtRq g := by
          simp [RtRq.limit, UInt64.not_lt.mp htime]
        simp [hthr, hper, hrt, htime, hid hl, rtRqThrottled]

/-- The charge of one run queue. -/
theorem chargeRtRq_spec (h : s.Consistent) (delta : UInt64) :
    let s' := s.chargeRtRq delta g
    s'.Consistent ∧ TimeFrame g s s' ∧ (∀ q, s.Armed q → s'.Armed q) ∧
      ∀ q, (s'.rtRq q).account =
        if q = g then ((s.rtRq g).charge (s.rtBandwidth g) delta).account
        else (s.rtRq q).account := by
  intro s'
  by_cases hrt : (s.rtRq g).rtRuntime = runtimeInf
  · have hs' : s' = s := by simp [s', chargeRtRq, hrt]
    rw [hs']
    refine ⟨h, .refl g s, fun _ hq => hq, fun q => ?_⟩
    by_cases hq : q = g
    · subst hq
      simp [RtRq.charge, hrt]
    · simp [hq]
  · have hqueue : ((s.rtRq g).charge (s.rtBandwidth g) delta).queueing = (s.rtRq g).queueing :=
      RtRq.queueing_charge _ _ _
    set u := s.modifyRtRq g fun rq => rq.charge (s.rtBandwidth g) delta with hu
    have huframe : TimeFrame g s u := .modifyRtRq s g hqueue (RtRq.rtRuntime_charge _ _ _)
    have huaccount := account_modifyRtRq s g (f := fun rq => rq.charge (s.rtBandwidth g) delta)
    have heq : s' = (if (s.rtRq g).rtThrottled = false ∧ u.rtRqThrottled g = true then
        u.schedRtRqDequeue g else u).modifyCore fun c => c.reschedCurr (u.rtRqThrottled g) := by
      have hcharge : ((s.modifyRtRq g fun rq => rq.accrue delta).modifyRtRq g fun rq =>
          rq.limit (s.rtBandwidth g)) = u := by
        rw [modifyRtRq_modifyRtRq]
        exact modifyRtRq_congr (by simp [RtRq.charge, hrt])
      have hthr : ((s.modifyRtRq g fun rq => rq.accrue delta).rtRq g).rtThrottled =
          (s.rtRq g).rtThrottled := by
        simp [RtRq.accrue]
      have hex := schedRtRuntimeExceeded_eq (s := s.modifyRtRq g fun rq => rq.accrue delta) (g := g)
        (by simpa [RtRq.accrue] using hrt)
      have hbw : (s.modifyRtRq g fun rq => rq.accrue delta).rtBandwidth = s.rtBandwidth := rfl
      simp only [hbw, hcharge, hthr] at hex
      have hs' : s' = ((s.modifyRtRq g fun rq => rq.accrue delta).schedRtRuntimeExceeded g).2.modifyCore
          fun c => c.reschedCurr
            ((s.modifyRtRq g fun rq => rq.accrue delta).schedRtRuntimeExceeded g).1 := if_neg hrt
      rw [hs', hex]
    obtain ⟨t, ht, hcons, hframe, harmed, haccount⟩ : ∃ t : RtState,
        (if (s.rtRq g).rtThrottled = false ∧ u.rtRqThrottled g = true then
          u.schedRtRqDequeue g else u) = t ∧ t.Consistent ∧ TimeFrame g s t ∧
        (∀ q, s.Armed q → t.Armed q) ∧ ∀ q, (t.rtRq q).account = (u.rtRq q).account := by
      refine ⟨_, rfl, ?_⟩
      split_ifs with hthr
      · -- the group is throttled now
        obtain ⟨hcons, hstack, hrq⟩ := (h.linkedBut hqueue).1.throttle hthr.2
        exact ⟨hcons, huframe.trans (.of_stack hstack hrq),
          fun q hq => hstack.armed q (hq.modifyRtRq hqueue), hstack.frame.account⟩
      · refine ⟨h.modifyTime hqueue ?_, huframe, fun q hq => hq.modifyRtRq hqueue, fun _ => rfl⟩
        cases hold : (s.rtRq g).rtThrottled with
        | false =>
          rw [Bool.eq_false_of_not_eq_true fun hnew => hthr ⟨hold, hnew⟩, rtRqThrottled, hold,
            Bool.false_and]
        | true =>
          -- a throttled group stays throttled
          have hnew : ((s.rtRq g).charge (s.rtBandwidth g) delta).rtThrottled = true := by
            simp [RtRq.charge, hrt, RtRq.limit, RtRq.accrue, hold]
          have hboost : ((s.rtRq g).charge (s.rtBandwidth g) delta).rtNrBoosted =
              (s.rtRq g).rtNrBoosted := congrArg (·.2.2.2) hqueue
          rw [rtRqThrottled, rtRqThrottled, modifyRtRq_self, hold, hnew, hboost]
    rw [heq, ht]
    refine ⟨?_, hframe.trans (.reschedCurr g t _), harmed, fun q => ?_⟩
    · exact hcons.modifyCore fun p _ => ⟨rfl, rfl⟩
    · rw [← huaccount q]
      exact haccount q

/-! ## `update_curr_rt` -/

/-- The run queues `update_curr_rt` charges: that of the group of the task and those of its
parents. -/
theorem map_rtRqOfSe_forEach (s : RtState) (p : TaskPtr) :
    (s.forEachSchedRtEntity (.task p)).map s.rtRqOfSe = (s.rtGroup p).tails := by
  have hparents : ∀ g : RtGroup, g :: (rtSeParents g).map s.rtRqOfSe = g.tails := by
    intro g
    induction g with
    | nil => rfl
    | cons tg parent ih => rw [List.tails_cons, ← ih, rtSeParents, List.map_cons, rtRqOfSe]
  exact hparents (s.rtGroup p)

/-- The ends of a list differ in length. -/
theorem nodup_tails {α : Type*} (l : List α) : l.tails.Nodup := by
  induction l with
  | nil => simp
  | cons a l ih =>
    rw [List.tails_cons, List.nodup_cons]
    refine ⟨fun hmem => ?_, ih⟩
    have hlen := ((List.mem_tails _ _).mp hmem).length_le
    simp at hlen

/-- The charge depends on the account and the bandwidth only. -/
theorem account_charge_congr {rq rq' : RtRq} {b b' : RtBandwidth} (delta : UInt64)
    (h : rq'.account = rq.account) (hr : rq'.rtRuntime = rq.rtRuntime)
    (hp : b'.rtPeriod = b.rtPeriod) (hb : b'.rtRuntime = b.rtRuntime) :
    (rq'.charge b' delta).account = (rq.charge b delta).account := by
  have htime : rq'.rtTime = rq.rtTime := congrArg (·.1) h
  have hthr : rq'.rtThrottled = rq.rtThrottled := congrArg (·.2.1) h
  have hch : rq'.charged = rq.charged := congrArg (·.2.2.1) h
  have hper : rq'.periods = rq.periods := congrArg (·.2.2.2) h
  simp only [RtRq.charge, RtRq.limit, RtRq.accrue, RtRq.account, hr, hp, hb, htime, hthr, hch, hper]
  split_ifs <;> simp_all

/-- The loop of `update_curr_rt`. -/
theorem Consistent.chargeAll (h : s.Consistent) (delta : UInt64) {l : List RtGroup}
    (hl : ∀ q ∈ l, q <:+ g) (hnodup : l.Nodup) :
    let s' := l.foldl (chargeRtRq delta) s
    s'.Consistent ∧ TimeFrame g s s' ∧ (∀ q, s.Armed q → s'.Armed q) ∧
      ∀ q, (s'.rtRq q).account =
        if q ∈ l then ((s.rtRq q).charge (s.rtBandwidth q) delta).account
        else (s.rtRq q).account := by
  induction l generalizing s with
  | nil => exact ⟨h, .refl g s, fun _ hq => hq, fun q => by simp⟩
  | cons r l ih =>
    obtain ⟨hcons, hframe, harmed, haccount⟩ := chargeRtRq_spec (g := r) h delta
    obtain ⟨hnot, hnodup⟩ := List.nodup_cons.mp hnodup
    obtain ⟨hcons', hframe', harmed', haccount'⟩ :=
      ih hcons (fun q hq => hl q (List.mem_cons_of_mem r hq)) hnodup
    refine ⟨hcons', (hframe.mono (hl r List.mem_cons_self)).trans hframe',
      fun q hq => harmed' q (harmed q hq), fun q => ?_⟩
    rw [List.foldl_cons, haccount' q]
    by_cases hqr : q = r
    · subst hqr
      simp [hnot, haccount q]
    · have hsame : ((s.chargeRtRq delta r).rtRq q).account = (s.rtRq q).account := by
        rw [haccount q, if_neg hqr]
      rw [hsame, account_charge_congr delta hsame (hframe.rtRuntime q) (hframe.rtPeriod q)
        (hframe.bandwidthRuntime q)]
      simp [hqr]

/-- `update_curr_rt` charges the running task, if it is an RT task. -/
def Charges (s : RtState) (g : RtGroup) : Prop :=
  (s.core.task s.core.curr).schedClass = .rt ∧ s.rtBandwidthEnabled = true ∧
    g <:+ s.rtGroup s.core.curr

instance (s : RtState) (g : RtGroup) : Decidable (s.Charges g) := by
  unfold Charges
  infer_instance

/-- What `update_curr_rt` does. -/
theorem updateCurrRt_spec (h : s.Consistent) :
    let s' := s.updateCurrRt
    s'.Consistent ∧ TimeFrame (s.rtGroup s.core.curr) s s' ∧ (∀ q, s.Armed q → s'.Armed q) ∧
      ∀ q, (s'.rtRq q).account =
        if s.Charges q then ((s.rtRq q).charge (s.rtBandwidth q) s.deltaExec).account
        else (s.rtRq q).account := by
  intro s'
  by_cases hclass : (s.core.task s.core.curr).schedClass = .rt
  · -- the interval of the running task is closed first
    set t := s.modifyCore fun c => { c with
      se := Function.update c.se s.core.curr
        { execStart := c.clockTask
          sumExecRuntime := (c.se s.core.curr).sumExecRuntime + s.deltaExec } } with ht
    have htcons : t.Consistent := h.modifyCore fun p _ => ⟨rfl, rfl⟩
    have htframe : TimeFrame (s.rtGroup s.core.curr) s t :=
      { TimeFrame.refl _ s with core := ⟨_, _, _, rfl⟩ }
    -- then the groups above it are charged, if there is a limit at all
    have hs' : s' = if !s.rtBandwidthEnabled then t else
        (s.rtGroup s.core.curr).tails.foldl (chargeRtRq s.deltaExec) t := by
      rw [← map_rtRqOfSe_forEach]
      simp only [s', updateCurrRt, hclass, ne_eq, not_true, if_false]
      rfl
    by_cases hen : s.rtBandwidthEnabled = true
    · obtain ⟨hcons, hframe, harmed, haccount⟩ := htcons.chargeAll s.deltaExec
        (fun q hq => (List.mem_tails q (s.rtGroup s.core.curr)).mp hq) (nodup_tails _)
      rw [hs', hen]
      refine ⟨hcons, htframe.trans hframe, fun q hq => harmed q hq, fun q => ?_⟩
      rw [Bool.not_true, if_neg Bool.false_ne_true, haccount q]
      simp only [List.mem_tails, Charges, hclass, hen, true_and]
      rfl
    · rw [Bool.not_eq_true] at hen
      rw [hs', hen]
      refine ⟨htcons, htframe, fun q hq => hq, fun q => ?_⟩
      simp [Charges, hen]
      rfl
  · have hs' : s' = s := if_pos hclass
    rw [hs']
    exact ⟨h, .refl _ s, fun _ hq => hq, fun q => by simp [Charges, hclass]⟩

/-! ## The period timer -/

/-- An empty group is off, as it should be. -/
theorem LinkedBut.consistent_of_empty (h : s.LinkedBut g) (hnr : (s.rtRq g).rtNrRunning = 0) :
    s.Consistent := by
  refine h.consistent ?_
  cases g with
  | nil => trivial
  | cons tg parent =>
    have hoff : s.onRtRq (.group tg parent) ≠ true := fun hon => h.nonempty _ rfl hon hnr
    simp [Linked, hoff, groupIdle, groupRtRq, hnr]

/-- `sched_rt_rq_enqueue` of a group that is not throttled. -/
theorem LinkedBut.unthrottle (h : s.LinkedBut g) (hthr : s.rtRqThrottled g = false) :
    let s' := s.schedRtRqEnqueue g
    s'.Consistent ∧ TimeFrame g s s' ∧ (∀ q, s.Armed q → s'.Armed q) ∧
      ∀ q, (s'.rtRq q).account = (s.rtRq q).account := by
  intro s'
  by_cases hnr : (s.rtRq g).rtNrRunning = 0
  · have hs' : s' = s := by simp [s', schedRtRqEnqueue, hnr]
    rw [hs']
    exact ⟨h.consistent_of_empty hnr, .refl g s, fun _ hq => hq, fun _ => rfl⟩
  · obtain ⟨hcons, hstack, hrq⟩ := h.linkGroup hthr hnr
    have hs' : s' = _ := (schedRtRqEnqueue_eq s g).trans (if_pos hnr)
    rw [hs']
    exact ⟨hcons.modifyCore fun p _ => ⟨rfl, rfl⟩, (TimeFrame.of_stack hstack hrq).trans
      (.reschedCurr g _ _), fun q hq => hstack.armed q hq, hstack.frame.account⟩

/-- Before the group is linked again, the timer has refilled its account. -/
theorem refillRtRq_state (s : RtState) (g : RtGroup) (overrun : ℕ) :
    ∃ k, (s.refillRtRq g overrun).2.2 = (s.modifyRtRq g (RtRq.refill overrun)).modifyCore
      fun c => { c with skipClockUpdate := k } := by
  unfold refillRtRq
  by_cases htime : (s.rtRq g).rtTime = 0
  · -- without time on the account there is nothing to refill
    have hid : s.modifyRtRq g (RtRq.refill overrun) = s := by simp [modifyRtRq, RtRq.refill, htime]
    refine ⟨s.core.skipClockUpdate, ?_⟩
    rw [hid]
    split_ifs <;> first | rfl | contradiction
  · rw [if_pos htime]
    simp only [modifyRtRq_self, modifyRtRq_modifyRtRq]
    -- let go, or not
    by_cases henq : ((s.rtRq g).rtThrottled && decide ((s.rtRq g).rtTime -
        min (s.rtRq g).rtTime (UInt64.ofNat overrun * (s.rtRq g).rtRuntime) <
          (s.rtRq g).rtRuntime)) = true
    · have hmod : (s.modifyRtRq g fun rq => { rq with
            rtTime := rq.rtTime - min rq.rtTime (UInt64.ofNat overrun * (s.rtRq g).rtRuntime)
            periods := rq.periods + overrun
            rtThrottled := false }) = s.modifyRtRq g (RtRq.refill overrun) := by
        refine modifyRtRq_congr ?_
        rw [RtRq.refill, if_pos htime]
        simp_all
      rw [if_pos henq, hmod]
      split_ifs
      · exact ⟨_, rfl⟩
      · exact ⟨s.core.skipClockUpdate, rfl⟩
    · have hmod : (s.modifyRtRq g fun rq => { rq with
            rtTime := rq.rtTime - min rq.rtTime (UInt64.ofNat overrun * (s.rtRq g).rtRuntime)
            periods := rq.periods + overrun }) = s.modifyRtRq g (RtRq.refill overrun) := by
        refine modifyRtRq_congr ?_
        rw [RtRq.refill, if_pos htime]
        cases hthr : (s.rtRq g).rtThrottled <;> simp_all
      rw [if_neg henq, hmod]
      exact ⟨s.core.skipClockUpdate, rfl⟩

/-- When the group is to be queued it is not throttled, and otherwise it is as throttled as it
was. -/
theorem refillRtRq_enqueue (s : RtState) (g : RtGroup) (overrun : ℕ) :
    (s.modifyRtRq g (RtRq.refill overrun)).rtRqThrottled g =
      (!(s.refillRtRq g overrun).2.1 && s.rtRqThrottled g) := by
  have hboost : ((s.rtRq g).refill overrun).rtNrBoosted = (s.rtRq g).rtNrBoosted :=
    congrArg (·.2.2.2) (RtRq.queueing_refill overrun _)
  rw [rtRqThrottled, modifyRtRq_self, hboost, rtRqThrottled]
  unfold refillRtRq
  by_cases htime : (s.rtRq g).rtTime = 0
  · have hid : (s.rtRq g).refill overrun = s.rtRq g := by simp [RtRq.refill, htime]
    rw [hid, if_neg (not_not.mpr htime)]
    split_ifs
    · cases hthr : s.rtRqThrottled g <;> simp_all [rtRqThrottled]
    · simp
  · rw [if_pos htime]
    simp only [RtRq.refill, if_pos htime, modifyRtRq_self]
    cases (s.rtRq g).rtThrottled <;> simp

/-- An idle group has nothing to run and nothing on its account. -/
theorem refillRtRq_idle {overrun : ℕ} (h : (s.refillRtRq g overrun).1 = true) :
    (s.rtRq g).rtNrRunning = 0 := by
  have hnr : ((s.rtRq g).refill overrun).rtNrRunning = (s.rtRq g).rtNrRunning :=
    congrArg (·.2.1) (RtRq.queueing_refill overrun _)
  by_contra hne
  by_cases htime : (s.rtRq g).rtTime = 0
  · simp [refillRtRq, htime, hne] at h
  · obtain ⟨k, hstate⟩ := refillRtRq_state s g overrun
    have hnr' : ((s.refillRtRq g overrun).2.2.rtRq g).rtNrRunning ≠ 0 := by
      rw [hstate]
      simpa [modifyCore, hnr] using hne
    have hidle : (s.refillRtRq g overrun).1 =
        !(decide (((s.refillRtRq g overrun).2.2.rtRq g).rtTime ≠ 0) ||
          decide (((s.refillRtRq g overrun).2.2.rtRq g).rtNrRunning ≠ 0)) := by
      unfold refillRtRq
      rw [if_pos htime]
    rw [hidle] at h
    simp [hnr'] at h

/-- What `do_sched_rt_period_timer` does. -/
theorem doSchedRtPeriodTimer_spec (h : s.Consistent) (overrun : ℕ) :
    let r := s.doSchedRtPeriodTimer g overrun
    r.2.Consistent ∧ TimeFrame g s r.2 ∧ (∀ q, s.Armed q → r.2.Armed q) ∧
      (∀ q, (r.2.rtRq q).account =
        if q = g then ((s.rtRq g).refill overrun).account else (s.rtRq q).account) ∧
      (r.1 = true → (r.2.rtRq g).rtNrRunning = 0 ∨ r.2.rtBandwidthEnabled = false ∨
        (r.2.rtBandwidth g).rtRuntime = runtimeInf) := by
  intro r
  have hqueue : ((s.rtRq g).refill overrun).queueing = (s.rtRq g).queueing :=
    RtRq.queueing_refill _ _
  obtain ⟨k, hstate⟩ := refillRtRq_state s g overrun
  have henq := refillRtRq_enqueue s g overrun
  set u := s.modifyRtRq g (RtRq.refill overrun) with hu
  set t := u.modifyCore fun c => { c with skipClockUpdate := k } with ht
  have huframe : TimeFrame g s t :=
    (TimeFrame.modifyRtRq s g hqueue (RtRq.rtRuntime_refill _ _)).trans
      { TimeFrame.refl g u with core := ⟨_, _, _, rfl⟩ }
  have huaccount : ∀ q, (t.rtRq q).account =
      if q = g then ((s.rtRq g).refill overrun).account else (s.rtRq q).account :=
    account_modifyRtRq s g (f := RtRq.refill overrun)
  have huarmed : ∀ q, s.Armed q → t.Armed q := fun q hq => hq.modifyRtRq hqueue
  -- the group is linked again
  obtain ⟨v, hv, hcons, hframe, harmed, haccount, hidle⟩ : ∃ v : RtState,
      (if (s.refillRtRq g overrun).2.1 then t.schedRtRqEnqueue g else t) = v ∧ v.Consistent ∧
      TimeFrame g s v ∧ (∀ q, s.Armed q → v.Armed q) ∧
      (∀ q, (v.rtRq q).account = (t.rtRq q).account) ∧
      ((s.refillRtRq g overrun).1 = true → (v.rtRq g).rtNrRunning = 0) := by
    have hnr : (s.refillRtRq g overrun).1 = true → (t.rtRq g).rtNrRunning = 0 := by
      intro hi
      have hkeep : ((s.rtRq g).refill overrun).rtNrRunning = (s.rtRq g).rtNrRunning :=
        congrArg (·.2.1) hqueue
      simp only [ht, modifyCore, hu, modifyRtRq_self]
      rw [hkeep, refillRtRq_idle hi]
    refine ⟨_, rfl, ?_⟩
    split_ifs with hb
    · have hcore : (s.modifyCore fun c => { c with skipClockUpdate := k }).Consistent :=
        h.modifyCore fun p _ => ⟨rfl, rfl⟩
      have hbut : t.LinkedBut g := (hcore.linkedBut hqueue).1
      have hthr : t.rtRqThrottled g = false := by
        rw [hb] at henq
        exact henq
      obtain ⟨hcons, hframe, harmed, haccount⟩ := hbut.unthrottle hthr
      refine ⟨hcons, huframe.trans hframe, fun q hq => harmed q (huarmed q hq), haccount,
        fun hi => ?_⟩
      rw [schedRtRqEnqueue, if_neg (not_not.mpr (hnr hi))]
      exact hnr hi
    · rw [Bool.not_eq_true] at hb
      rw [hb] at henq
      refine ⟨?_, huframe, huarmed, fun _ => rfl, hnr⟩
      exact (h.modifyTime hqueue henq).modifyCore fun p _ => ⟨rfl, rfl⟩
  have hr : r = if !(t.rtRq g).rtThrottled &&
      (!v.rtBandwidthEnabled || decide ((v.rtBandwidth g).rtRuntime = runtimeInf)) then (true, v)
      else ((s.refillRtRq g overrun).1, v) := by
    simp only [r, doSchedRtPeriodTimer, hstate, hv]
  have hr2 : r.2 = v := by
    rw [hr]
    split_ifs <;> rfl
  rw [hr2]
  refine ⟨hcons, hframe, harmed, fun q => (haccount q).trans (huaccount q), fun h1 => ?_⟩
  rw [hr] at h1
  split_ifs at h1 with hstop
  · simp only [Bool.and_eq_true, Bool.or_eq_true, Bool.not_eq_true', decide_eq_true_eq] at hstop
    exact .inr hstop.2
  · exact .inl (hidle h1)

/-- The refill depends on the account and the runtime only. -/
theorem account_refill_congr {rq rq' : RtRq} (overrun : ℕ) (h : rq'.account = rq.account)
    (hr : rq'.rtRuntime = rq.rtRuntime) :
    (rq'.refill overrun).account = (rq.refill overrun).account := by
  have htime : rq'.rtTime = rq.rtTime := congrArg (·.1) h
  have hthr : rq'.rtThrottled = rq.rtThrottled := congrArg (·.2.1) h
  have hch : rq'.charged = rq.charged := congrArg (·.2.2.1) h
  have hper : rq'.periods = rq.periods := congrArg (·.2.2.2) h
  simp only [RtRq.refill, RtRq.account, hr, htime, hthr, hch, hper]
  split_ifs <;> simp_all

/-- Only the account and the runtime matter to the timer. -/
theorem account_foldl_refill_congr {rq rq' : RtRq} (overruns : List ℕ)
    (h : rq'.account = rq.account) (hr : rq'.rtRuntime = rq.rtRuntime) :
    (overruns.foldl (fun rq n => rq.refill n) rq').account =
      (overruns.foldl (fun rq n => rq.refill n) rq).account := by
  induction overruns generalizing rq rq' with
  | nil => exact h
  | cons n overruns ih =>
    exact ih (account_refill_congr n h hr) (by rw [RtRq.rtRuntime_refill, RtRq.rtRuntime_refill, hr])

/-- The loop of `sched_rt_period_timer`. -/
theorem periodTimerLoop_spec (h : s.Consistent) (overruns : List ℕ) {idle : Bool}
    (hidle : idle = true → (s.rtRq g).rtNrRunning = 0 ∨ s.rtBandwidthEnabled = false ∨
      (s.rtBandwidth g).rtRuntime = runtimeInf) :
    let r := periodTimerLoop g overruns idle s
    r.2.Consistent ∧ TimeFrame g s r.2 ∧ (∀ q, s.Armed q → r.2.Armed q) ∧
      (∀ q, (r.2.rtRq q).account =
        if q = g then (overruns.foldl (fun rq n => rq.refill n) (s.rtRq g)).account
        else (s.rtRq q).account) ∧
      (r.1 = true → (r.2.rtRq g).rtNrRunning = 0 ∨ r.2.rtBandwidthEnabled = false ∨
        (r.2.rtBandwidth g).rtRuntime = runtimeInf) := by
  induction overruns generalizing s idle with
  | nil =>
    refine ⟨h, .refl g s, fun _ hq => hq, fun q => ?_, hidle⟩
    split_ifs with hq
    · rw [hq]
      rfl
    · rfl
  | cons n overruns ih =>
    obtain ⟨hcons, hframe, harmed, haccount, hidle'⟩ := doSchedRtPeriodTimer_spec (g := g) h n
    obtain ⟨hcons', hframe', harmed', haccount', hidle''⟩ := ih hcons hidle'
    refine ⟨hcons', hframe.trans hframe', fun q hq => harmed' q (harmed q hq), fun q => ?_, hidle''⟩
    rw [periodTimerLoop, haccount' q]
    split_ifs with hq
    · have hself := haccount g
      rw [if_pos rfl] at hself
      refine account_foldl_refill_congr overruns hself ?_
      rw [hframe.rtRuntime, RtRq.rtRuntime_refill]
    · rw [haccount q, if_neg hq]

/-- What `sched_rt_period_timer` does: the timer stays active unless its group has nothing to run or
is not limited. -/
theorem schedRtPeriodTimer_spec (h : s.Consistent) (overruns : List ℕ) :
    let s' := s.schedRtPeriodTimer g overruns
    s'.Consistent ∧ TimeFrame g s s' ∧ (∀ q, s.Armed q → s'.Armed q) ∧
      ∀ q, (s'.rtRq q).account =
        if q = g then (overruns.foldl (fun rq n => rq.refill n) (s.rtRq g)).account
        else (s.rtRq q).account := by
  intro s'
  obtain ⟨hcons, hframe, harmed, haccount, hidle⟩ :=
    periodTimerLoop_spec (g := g) h overruns (fun hidle : false = true => Bool.noConfusion hidle)
  set r := periodTimerLoop g overruns false s with hr
  -- stopping the timer changes nothing but its flag
  have hcons' : s'.Consistent :=
    ⟨⟨fun q => ⟨(hcons.queues.rq q).ok, (hcons.queues.rq q).home, (hcons.queues.rq q).leaf⟩,
      hcons.queues.leafNodup⟩, fun q => by
        cases q with
        | nil => trivial
        | cons tg parent => exact hcons.linked (tg :: parent)⟩
  have hbw : ∀ {β : Type} (field : RtBandwidth → β) (q : RtGroup),
      field { r.2.rtBandwidth g with timerActive := !r.1 } = field (r.2.rtBandwidth g) →
      field (s'.rtBandwidth q) = field (r.2.rtBandwidth q) := by
    intro β field q hf
    have hs' : s'.rtBandwidth = Function.update r.2.rtBandwidth g
      { r.2.rtBandwidth g with timerActive := !r.1 } := rfl
    rw [hs']
    by_cases hq : q = g
    · subst hq
      rw [Function.update_self, hf]
    · rw [Function.update_of_ne hq]
  have hlast : TimeFrame g r.2 s' :=
    { TimeFrame.refl g r.2 with
      rtPeriod := fun q => hbw (·.rtPeriod) q rfl
      bandwidthRuntime := fun q => hbw (·.rtRuntime) q rfl }
  refine ⟨hcons', hframe.trans hlast, fun q hq => ?_, haccount⟩
  by_cases hqg : q = g
  · subst hqg
    intro hen hrt hnr
    -- the timer stops only when the group was idle in the last round
    have hnidle : r.1 = false := by
      rw [Bool.eq_false_iff]
      intro h1
      obtain h0 | h0 | h0 := hidle h1
      · exact hnr h0
      · have hen' : r.2.rtBandwidthEnabled = true := hen
        rw [h0] at hen'
        exact Bool.noConfusion hen'
      · exact hrt ((hlast.bandwidthRuntime q).trans h0)
    simp [s', schedRtPeriodTimer, ← hr, hnidle]
  · refine (harmed q hq).congr rfl ?_ rfl
    simp [s', schedRtPeriodTimer, ← hr, hqg]

end RtState

end WrrSched
