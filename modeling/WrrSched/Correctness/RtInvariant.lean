import WrrSched.Correctness.Invariant
import WrrSched.Correctness.RtPick
import WrrSched.Model.RtSystem

/-!
# The invariant of the RT class

In every reachable state of the RT class each run queue is in order, each group is queued exactly
when it has something to run and is not throttled, the groups form a tree, every queued task is a
living task of the RT class in a group that exists, and no `WARN_ON` or `BUG_ON` has fired.

- `RtInv`: the invariant;
- `RtInv.next`: one step keeps it;
- `rtSystem_inv`: it holds in every reachable state.
-/

namespace WrrSched

namespace RtState

variable {cfg : Config} {s s' : RtState} {g q : RtGroup} {p : TaskPtr}

/-- The invariant of the RT class. -/
structure RtInv (s : RtState) : Prop where
  consistent : s.Consistent
  groups : s.GroupsOk
  queued : ∀ p, s.onRtRq (.task p) = true → p ∈ s.core.live ∧ (s.core.task p).schedClass = .rt
  curr : s.core.curr ∈ s.core.live
  rtGroup : ∀ p ∈ s.core.live, s.rtGroup p ∈ s.taskGroups
  warned : s.warned = false
  bug : s.bug = false

/-! ## What the invariant depends on -/

/-- Only the run queues, the groups and the priorities of the tasks and the list of leaves matter to
the queues. -/
theorem Consistent.congr (h : s.Consistent) (hrq : s'.rtRq = s.rtRq)
    (hgroup : s'.rtGroup = s.rtGroup) (htask : s'.core.task = s.core.task)
    (hleaf : s'.leafRtRqList = s.leafRtRqList) : s'.Consistent := by
  have hprio : s'.rtSePrio = s.rtSePrio := by
    funext e
    cases e <;> simp [rtSePrio, hrq, htask]
  have hboosted : s'.rtSeBoosted = s.rtSeBoosted := by
    funext e
    cases e <;> simp [rtSeBoosted, hrq, htask]
  have hrqOf : s'.rtRqOfSe = s.rtRqOfSe := by
    funext e
    cases e <;> simp [rtRqOfSe, hgroup]
  refine ⟨⟨fun q => ⟨?_, ?_, ?_⟩, hleaf ▸ h.queues.leafNodup⟩, fun q => ?_⟩
  · rw [hrq, hprio, hboosted]
    exact (h.queues.rq q).ok
  · rw [hrq, hrqOf]
    exact (h.queues.rq q).home
  · rw [hrq, hleaf]
    exact (h.queues.rq q).leaf
  · cases q with
    | nil => trivial
    | cons tg parent =>
      have hlinked := h.linked (tg :: parent)
      simpa [Linked, onRtRq, hrqOf, groupIdle, groupRtRq, rtRqThrottled, hrq] using hlinked

/-! ## One step -/

/-- What the hooks keep, apart from the queues. -/
structure HookFrame (s s' : RtState) : Prop where
  taskGroups : s'.taskGroups = s.taskGroups
  children : s'.children = s.children
  rtGroup : s'.rtGroup = s.rtGroup
  warned : s'.warned = s.warned
  bug : s'.bug = s.bug
  task : s'.core.task = s.core.task
  live : s'.core.live = s.core.live

/-- What the queues alone change. -/
theorem QueueFrame.hookFrame (h : QueueFrame s s') : HookFrame s s' :=
  ⟨h.taskGroups, h.children, h.rtGroup, h.warned, h.bug, by rw [h.core], by rw [h.core]⟩

/-- What throttling and the timer change. -/
theorem TimeFrame.hookFrame (h : TimeFrame g s s') : HookFrame s s' := by
  obtain ⟨n, k, e, hc⟩ := h.core
  exact ⟨h.taskGroups, h.children, h.rtGroup, h.warned, h.bug, by rw [hc], by rw [hc]⟩

/-- A hook that works on the queues of an existing group keeps the invariant, if it leaves the run
queues in order and queues only living tasks of the RT class. -/
theorem RtInv.of_hook (h : s.RtInv) (hf : HookFrame s s') (hcons : s'.Consistent)
    (hg : g ∈ s.taskGroups)
    (houtside : ∀ q, ¬ q <:+ g → (s'.rtRq q).rtNrRunning = (s.rtRq q).rtNrRunning)
    (hcurr : s'.core.curr ∈ s.core.live)
    (hon : ∀ p, s'.onRtRq (.task p) = true →
      s.onRtRq (.task p) = true ∨ (p ∈ s.core.live ∧ (s.core.task p).schedClass = .rt)) :
    s'.RtInv where
  consistent := hcons
  groups :=
    { root := hf.taskGroups ▸ h.groups.root
      parent := hf.taskGroups ▸ h.groups.parent
      nodup := hf.taskGroups ▸ h.groups.nodup
      children := by rw [hf.taskGroups, hf.children]; exact h.groups.children
      childrenNodup := hf.children ▸ h.groups.childrenNodup
      existing := fun q hq => by
        rw [hf.taskGroups]
        by_cases hqg : q <:+ g
        · exact h.groups.suffix hg hqg
        · exact h.groups.existing q (houtside q hqg ▸ hq) }
  queued p hp := by
    rw [hf.live, hf.task]
    exact (hon p hp).elim (h.queued p) id
  curr := hf.live ▸ hcurr
  rtGroup := by
    rw [hf.live, hf.rtGroup, hf.taskGroups]
    exact h.rtGroup
  warned := hf.warned.trans h.warned
  bug := hf.bug.trans h.bug

/-- Charges and refills keep the invariant. -/
theorem RtInv.of_time (h : s.RtInv) (hf : TimeFrame g s s') (hcons : s'.Consistent)
    (hg : g ∈ s.taskGroups) : s'.RtInv := by
  refine h.of_hook hf.hookFrame hcons hg hf.outside ?_ fun p hp => .inl ?_
  · obtain ⟨n, k, e, hc⟩ := hf.core
    rw [hc]
    exact h.curr
  · rwa [hf.onRtRq_task h.consistent.queues hcons.queues] at hp

/-- So do changes of other fields of the scheduler core. -/
theorem RtInv.modifyCore (h : s.RtInv) {f : State → State} (htask : (f s.core).task = s.core.task)
    (hlive : (f s.core).live = s.core.live) (hcurr : (f s.core).curr ∈ s.core.live) :
    (s.modifyCore f).RtInv :=
  h.of_hook ⟨rfl, rfl, rfl, rfl, rfl, htask, hlive⟩
    (h.consistent.modifyCore fun p _ => by rw [htask]; exact ⟨rfl, rfl⟩) h.groups.root
    (fun _ _ => rfl) hcurr fun _ hp => .inl hp

/-- `update_curr_rt` keeps the invariant. -/
theorem RtInv.updateCurrRt (h : s.RtInv) : s.updateCurrRt.RtInv := by
  obtain ⟨hcons, hframe, -, -⟩ := updateCurrRt_spec h.consistent
  exact h.of_time hframe hcons (h.rtGroup _ h.curr)

/-- A task is on an RT queue exactly when it is in the queue of its group and priority. -/
theorem QueuesOk.onRtRq_task_iff (h : s.QueuesOk) :
    s.onRtRq (.task p) = true ↔ p ∈ s.taskQueue (s.rtGroup p) (s.core.task p).prio := by
  rw [h.mem_taskQueue_iff]
  simp

/-- `enqueue_task_rt` of a task that is off keeps the invariant. -/
theorem RtInv.enqueueTaskRt (h : s.RtInv) {flags : ℕ} (hen : s.Enabled (.enqueueTaskRt p flags)) :
    (s.enqueueTaskRt p flags).RtInv := by
  obtain ⟨hlive, hoff, hclass, h0, hN⟩ := hen
  obtain ⟨hcons, hframe, -, hrq, htask⟩ :=
    h.consistent.enqueueTask hoff h0 hN (decide (flags &&& enqueueHead ≠ 0))
  have hinv : (s.enqueueRtEntity (.task p) (decide (flags &&& enqueueHead ≠ 0))).RtInv := by
    refine h.of_hook hframe.hookFrame hcons (h.rtGroup p hlive) (fun q hq => by rw [hrq q hq])
      (by rw [hframe.core]; exact h.curr) fun q hq => ?_
    by_cases hqp : q = p
    · exact .inr (hqp ▸ ⟨hlive, hclass⟩)
    · refine .inl ?_
      rw [hcons.queues.onRtRq_task_iff, htask, hframe.rtGroup, hframe.core] at hq
      rw [h.consistent.queues.onRtRq_task_iff]
      split_ifs at hq <;> simpa [hqp] using hq
  exact hinv.modifyCore rfl rfl hinv.curr

/-- `dequeue_task_rt` of a queued task keeps the invariant. -/
theorem RtInv.dequeueTaskRt (h : s.RtInv) (hon : s.onRtRq (.task p) = true) :
    (s.dequeueTaskRt p).RtInv := by
  obtain ⟨hcons, hframe, -, -⟩ := updateCurrRt_spec h.consistent
  have hinv := h.updateCurrRt
  have hon' : s.updateCurrRt.onRtRq (.task p) = true := by
    rwa [hframe.onRtRq_task h.consistent.queues hcons.queues]
  obtain ⟨hcons', hframe', -, hrq', htask'⟩ := hcons.dequeueTask hon'
  have hinv' : (s.updateCurrRt.dequeueRtEntity (.task p)).RtInv := by
    refine hinv.of_hook hframe'.hookFrame hcons' (hinv.rtGroup p (hinv.queued p hon').1)
      (fun q hq => by rw [hrq' q hq]) (by rw [hframe'.core]; exact hinv.curr) fun q hq => .inl ?_
    rw [hcons'.queues.onRtRq_task_iff, htask', hframe'.rtGroup, hframe'.core] at hq
    rw [hcons.queues.onRtRq_task_iff]
    exact List.mem_of_mem_erase hq
  exact hinv'.modifyCore rfl rfl hinv'.curr

/-- `requeue_task_rt` keeps the invariant. -/
theorem RtInv.requeueTaskRt (h : s.RtInv) (p : TaskPtr) (head : Bool) :
    (s.requeueTaskRt p head).RtInv := by
  obtain ⟨hcons, hframe, hon, hnr, -, -⟩ := requeueTaskRt_spec h.consistent p head
  refine h.of_hook hframe.hookFrame hcons h.groups.root (fun q _ => hnr q)
    (by rw [hframe.core]; exact h.curr) fun q hq => .inl ?_
  rwa [hon] at hq

/-- The tick, once the running task is charged. -/
theorem taskTickRt_eq (cfg : Config) (s : RtState) (p : TaskPtr) :
    ∃ slice, taskTickRt cfg s p = { s.updateCurrRt with timeSlice := slice } ∨
      taskTickRt cfg s p = (({ s.updateCurrRt with timeSlice := slice } : RtState).requeueTaskRt p
        false).modifyCore fun c => c.setNeedResched p true := by
  unfold taskTickRt
  simp only
  split_ifs
  · exact ⟨_, .inl rfl⟩
  · exact ⟨_, .inl rfl⟩
  · exact ⟨_, .inr rfl⟩
  · exact ⟨_, .inl rfl⟩

/-- Time slices are no part of the invariant. -/
theorem RtInv.timeSlice (h : s.RtInv) (slice : TaskPtr → UInt32) :
    ({ s with timeSlice := slice } : RtState).RtInv := by
  exact h.of_hook ⟨rfl, rfl, rfl, rfl, rfl, rfl, rfl⟩ (h.consistent.congr rfl rfl rfl rfl)
    h.groups.root (fun _ _ => rfl) h.curr fun _ hp => .inl hp

/-- `task_tick_rt` keeps the invariant. -/
theorem RtInv.taskTickRt (h : s.RtInv) (cfg : Config) (p : TaskPtr) :
    (taskTickRt cfg s p).RtInv := by
  obtain ⟨slice, htick | htick⟩ := taskTickRt_eq cfg s p
  · rw [htick]
    exact h.updateCurrRt.timeSlice slice
  · rw [htick]
    have hinv := (h.updateCurrRt.timeSlice slice).requeueTaskRt p false
    exact hinv.modifyCore rfl rfl hinv.curr

/-- `pick_next_task_rt` keeps the invariant. -/
theorem RtInv.pickNextTaskRt (h : s.RtInv) : (s.next cfg .pickNextTaskRt).RtInv := by
  obtain ⟨hpick, -⟩ | ⟨p, hpick, hp, -⟩ := h.consistent.pickNextTaskRt_spec h.groups
  · simpa only [next, hpick] using h
  · simp only [next, hpick]
    exact h.modifyCore (f := fun c => { c with
      se := Function.update c.se p { c.se p with execStart := c.clockTask }, curr := p })
      rfl rfl (h.queued p hp.1).1

/-! ## Groups -/

/-- A task that is not queued is in no queue at all. -/
theorem QueuesOk.notMem_of_off (h : s.QueuesOk) (hoff : s.onRtRq (.task p) = false) (q : RtGroup)
    (i : ℤ) : .task p ∉ (s.rtRq q).active.queue i := by
  intro hmem
  rw [(h.rq q).onRtRq_of_mem hmem] at hoff
  exact Bool.noConfusion hoff

/-- A task that is off can go to another group. -/
theorem RtInv.setTaskRq (h : s.RtInv) (hoff : s.onRtRq (.task p) = false)
    (hg : g ∈ s.taskGroups) : (s.setTaskRq p g).RtInv := by
  have hnot := h.consistent.queues.notMem_of_off hoff
  have hother : ∀ q, q ≠ p → (s.setTaskRq p g).rtGroup q = s.rtGroup q := by
    intro q hq
    simp [RtState.setTaskRq, hq]
  -- no entity on a queue is the task that is moved
  have hhome : ∀ q i, ∀ x ∈ (s.rtRq q).active.queue i, (s.setTaskRq p g).rtRqOfSe x = s.rtRqOfSe x := by
    intro q i x hx
    cases x with
    | task r => exact hother r fun hr => hnot q i (hr ▸ hx)
    | group tg parent => rfl
  have hprio : (s.setTaskRq p g).rtSePrio = s.rtSePrio := by
    funext e
    cases e <;> rfl
  have hboosted : (s.setTaskRq p g).rtSeBoosted = s.rtSeBoosted := by
    funext e
    cases e <;> rfl
  have hcons : (s.setTaskRq p g).Consistent := by
    refine ⟨⟨fun q => ⟨?_, fun i x hx => ?_, (h.consistent.queues.rq q).leaf⟩,
      h.consistent.queues.leafNodup⟩, fun q => ?_⟩
    · rw [hprio, hboosted]
      exact (h.consistent.queues.rq q).ok
    · rw [hhome q i x hx]
      exact (h.consistent.queues.rq q).home i x hx
    · cases q with
      | nil => trivial
      | cons tg parent => exact h.consistent.linked (tg :: parent)
  refine
    { consistent := hcons
      groups := { h.groups with }
      queued := fun q hq => h.queued q ?_
      curr := h.curr
      rtGroup := fun q hq => ?_
      warned := h.warned
      bug := h.bug }
  · rw [hcons.queues.onRtRq_task_iff] at hq
    have hmem := mem_taskQueue.mp hq
    exact (h.consistent.queues.rq _).onRtRq_of_mem hmem
  · by_cases hqp : q = p
    · subst hqp
      simpa [RtState.setTaskRq] using hg
    · rw [hother q hqp]
      exact h.rtGroup q hq

/-- The tree of groups with a new leaf. -/
theorem GroupsOk.create (h : s.GroupsOk) {parent : RtGroup} {tg : TaskGroupPtr}
    (hparent : parent ∈ s.taskGroups) (hnew : tg :: parent ∉ s.taskGroups)
    (hempty : ((s.schedCreateGroup parent tg).rtRq (tg :: parent)).rtNrRunning = 0) :
    (s.schedCreateGroup parent tg).GroupsOk := by
  have hne : parent ≠ tg :: parent := fun heq => by
    have hlen := congrArg List.length heq
    simp at hlen
  -- a group that does not exist has no children
  have hnochild : s.children (tg :: parent) = [] := by
    refine List.eq_nil_iff_forall_not_mem.mpr fun c hc => hnew ?_
    exact h.parent c _ ((h.children c _).mp hc)
  have hchildren : ∀ q, (s.schedCreateGroup parent tg).children q =
      if q = parent then tg :: s.children parent else s.children q := by
    intro q
    simp only [RtState.schedCreateGroup, Function.update_apply]
    split_ifs with h1 h2
    · rfl
    · rw [h2, hnochild]
    · rfl
  refine
    { root := List.mem_cons_of_mem _ h.root
      parent := fun c q hq => ?_
      nodup := List.nodup_cons.mpr ⟨hnew, h.nodup⟩
      children := fun c q => ?_
      childrenNodup := fun q => ?_
      existing := fun q hq => ?_ }
  · obtain heq | hq := List.mem_cons.mp hq
    · obtain ⟨-, rfl⟩ := List.cons_eq_cons.mp heq
      exact List.mem_cons_of_mem _ hparent
    · exact List.mem_cons_of_mem _ (h.parent c q hq)
  · -- the new group is the new child, and nothing else changes
    have hmem : c :: q ∈ (s.schedCreateGroup parent tg).taskGroups ↔
        c :: q = tg :: parent ∨ c :: q ∈ s.taskGroups := List.mem_cons
    rw [hmem, hchildren, List.cons_eq_cons, ← h.children]
    split_ifs with hq
    · simp [hq]
    · simp [hq]
  · rw [hchildren]
    split_ifs with hq
    · exact List.nodup_cons.mpr ⟨fun hc => hnew ((h.children _ _).mp hc), h.childrenNodup _⟩
    · exact h.childrenNodup q
  · by_cases hqg : q = tg :: parent
    · exact absurd (hqg ▸ hempty) hq
    · refine List.mem_cons_of_mem _ (h.existing q ?_)
      simpa [RtState.schedCreateGroup, hqg] using hq

/-- A new group has an empty run queue and is not queued on its parent. -/
theorem RtInv.schedCreateGroup (h : s.RtInv) {parent : RtGroup} {tg : TaskGroupPtr}
    (hparent : parent ∈ s.taskGroups) (hnew : tg :: parent ∉ s.taskGroups) :
    (s.schedCreateGroup parent tg).RtInv := by
  set s' := s.schedCreateGroup parent tg with hs'
  have hnr : (s.rtRq (tg :: parent)).rtNrRunning = 0 := by
    by_contra hne
    exact hnew (h.groups.existing _ hne)
  -- the group that was there before is not queued
  have hoff : s.onRtRq (.group tg parent) = false := by
    rw [Bool.eq_false_iff]
    intro hon
    have hidle := (h.consistent.linked (tg :: parent)).mp hon
    simp [groupIdle, groupRtRq, hnr] at hidle
  have hself : s'.rtRq (tg :: parent) =
      { active := .empty rtPrioQueues, rtNrRunning := 0, highestPrio := maxRtPrio,
        rtThrottled := false, rtTime := 0, rtRuntime := 0, rtNrBoosted := 0, charged := 0,
        periods := 0 } := by
    simp [hs', RtState.schedCreateGroup]
  have hsame : SameBut (tg :: parent) s s' :=
    ⟨fun q hq => by simp [hs', RtState.schedCreateGroup, hq], rfl, rfl⟩
  have hhidden : s.Hidden (tg :: parent) := hidden_cons_iff.mpr hoff
  have hok : (s'.rtRq (tg :: parent)).Ok s.rtSePrio s.rtSeBoosted := by
    rw [hself]
    refine ⟨.empty, ?_, ?_, ?_⟩
    · simp [PrioArray.count, PrioArray.empty]
    · simp [PrioArray.count, PrioArray.empty]
    · exact (PrioArray.findFirstBit_empty rtPrioQueues).symm
  have hon : ∀ x, s'.onRtRq x = true → s.onRtRq x = true := by
    intro x hx
    by_cases hxg : s.rtRqOfSe x = tg :: parent
    · rw [onRtRq, hsame.rtRqOfSe, hxg, hself] at hx
      simp [PrioArray.onList, PrioArray.empty] at hx
    · rwa [hsame.onRtRq hxg] at hx
  have hqueues : s'.QueuesOk := by
    refine ⟨fun q => ?_, h.consistent.queues.leafNodup⟩
    by_cases hq : q = tg :: parent
    · subst hq
      refine RqOk.of_changed hsame hok (fun i x hx => ?_) ?_
      · rw [hself] at hx
        exact absurd hx List.not_mem_nil
      · rw [hself]
        have hleaf : tg :: parent ∉ s.leafRtRqList := fun hin =>
          (h.consistent.queues.rq (tg :: parent)).leaf.mp hin hnr
        exact iff_of_false hleaf (not_not.mpr rfl)
    · exact (h.consistent.queues.rq q).frame hsame hq hhidden Iff.rfl
  have hcons : s'.Consistent := by
    refine ⟨hqueues, fun q => ?_⟩
    by_cases hq : q = tg :: parent
    · subst hq
      have hoff' : s'.onRtRq (.group tg parent) ≠ true := fun hon' => by
        rw [hon _ hon'] at hoff
        exact Bool.noConfusion hoff
      simp [Linked, hoff', groupIdle, groupRtRq, hself]
    · refine (h.consistent.linked q).frame hsame hq fun e he => ?_
      by_cases hxg : s.rtRqOfSe e = tg :: parent
      · -- an entity that belongs on the new group was off before, since nothing was on it
        have hoffe : s.onRtRq e = false := by
          rw [Bool.eq_false_iff]
          intro hone
          exact (h.consistent.queues.highestPrio_le hone).1 (hxg ▸ hnr)
        rw [hoffe, Bool.eq_false_iff]
        exact fun hone => by
          rw [hon e hone] at hoffe
          exact Bool.noConfusion hoffe
      · exact hsame.onRtRq hxg
  exact
    { consistent := hcons
      groups := h.groups.create hparent hnew (by rw [← hs', hself])
      queued := fun q hq => h.queued q (hon _ hq)
      curr := h.curr
      rtGroup := fun q hq => List.mem_cons_of_mem _ (h.rtGroup q hq)
      warned := h.warned
      bug := h.bug }

/-- A group without tasks and children has nothing to run. -/
theorem RtInv.nr_eq_zero (h : s.RtInv) (hchildren : s.children g = [])
    (htasks : ∀ p ∈ s.core.live, s.rtGroup p ≠ g) : (s.rtRq g).rtNrRunning = 0 := by
  by_contra hne
  obtain ⟨i, x, hx⟩ := (h.consistent.queues.rq g).ok.nr_ne_zero_iff.mp hne
  have hhome := (h.consistent.queues.rq g).home i x hx
  have hon := (h.consistent.queues.rq g).onRtRq_of_mem hx
  cases x with
  | task p => exact htasks p (h.queued p hon).1 hhome
  | group tg parent =>
    have hparent : parent = g := hhome
    subst hparent
    have hidle := (h.consistent.linked (tg :: parent)).mp hon
    simp only [groupIdle, groupRtRq, Bool.or_eq_false_iff, decide_eq_false_iff_not] at hidle
    have hchild := (h.groups.children tg parent).mpr (h.groups.existing _ hidle.2)
    simp [hchildren] at hchild

/-- A group without children and tasks can go. -/
theorem RtInv.schedDestroyGroup (h : s.RtInv) {parent : RtGroup} {tg : TaskGroupPtr}
    (hchildren : s.children (tg :: parent) = [])
    (htasks : ∀ p ∈ s.core.live, s.rtGroup p ≠ tg :: parent) :
    (s.schedDestroyGroup tg parent).RtInv := by
  -- nothing can run in the group
  have hnr := h.nr_eq_zero hchildren htasks
  have hmem : ∀ q, q ∈ (s.schedDestroyGroup tg parent).taskGroups ↔
      q ≠ tg :: parent ∧ q ∈ s.taskGroups := fun q => mem_listDelInit_iff h.groups.nodup
  have hkids : ∀ q, (s.schedDestroyGroup tg parent).children q =
      if q = parent then listDelInit tg (s.children parent) else s.children q := by
    intro q
    simp only [RtState.schedDestroyGroup, Function.update_apply]
  refine
    { consistent := h.consistent.congr rfl rfl rfl rfl
      groups :=
        { root := (hmem []).mpr ⟨(List.cons_ne_nil _ _).symm, h.groups.root⟩
          parent := fun c q hq => ?_
          nodup := nodup_listDelInit h.groups.nodup _
          children := fun c q => ?_
          childrenNodup := fun q => ?_
          existing := fun q hq => ?_ }
      queued := h.queued
      curr := h.curr
      rtGroup := fun p hp => (hmem _).mpr ⟨htasks p hp, h.rtGroup p hp⟩
      warned := h.warned
      bug := h.bug }
  · obtain ⟨-, hq⟩ := (hmem _).mp hq
    refine (hmem q).mpr ⟨?_, h.groups.parent c q hq⟩
    rintro rfl
    -- the group that goes has no child
    have hc := (h.groups.children c _).mpr hq
    simp [hchildren] at hc
  · rw [hkids, hmem, ← h.groups.children]
    split_ifs with hq
    · rw [mem_listDelInit_iff (h.groups.childrenNodup _), ne_eq, ne_eq, List.cons_eq_cons]
      simp [hq]
    · simp [hq]
  · rw [hkids]
    split_ifs
    · exact nodup_listDelInit (h.groups.childrenNodup _) _
    · exact h.groups.childrenNodup q
  · refine (hmem q).mpr ⟨?_, h.groups.existing q hq⟩
    rintro rfl
    exact hq hnr

/-! ## Bandwidth -/

/-- `tg_set_rt_bandwidth` keeps the invariant. -/
theorem RtInv.tgSetRtBandwidth (h : s.RtInv) (g : RtGroup) (period runtime : UInt64) :
    (s.tgSetRtBandwidth g period runtime).2.RtInv := by
  unfold RtState.tgSetRtBandwidth
  simp only
  split_ifs
  · exact h
  · set t : RtState := { s with
      rtBandwidth := Function.update s.rtBandwidth g
        { s.rtBandwidth g with rtPeriod := period, rtRuntime := runtime } } with ht
    have htcons : t.Consistent := h.consistent.congr rfl rfl rfl rfl
    have hcons : (t.modifyRtRq g fun rq => { rq with rtRuntime := runtime }).Consistent := by
      refine htcons.modifyTime rfl ?_
      simp [rtRqThrottled, RtState.modifyRtRq]
    refine h.of_hook ⟨rfl, rfl, rfl, rfl, rfl, rfl, rfl⟩ hcons h.groups.root (fun q _ => ?_) h.curr
      fun p hp => .inl ?_
    · by_cases hq : q = g
      · subst hq
        rw [modifyRtRq_self]
      · simp [RtState.modifyRtRq, hq, ht]
    · have hon := (htcons.linkedBut (g := g) (f := fun rq => { rq with rtRuntime := runtime }) rfl).2
      rw [hon] at hp
      exact hp

/-- So does `sched_group_set_rt_period`, which refuses a period of zero. -/
theorem RtInv.schedGroupSetRtPeriod (h : s.RtInv) (g : RtGroup) (usec : Int32) :
    (s.schedGroupSetRtPeriod g usec).2.RtInv := by
  unfold RtState.schedGroupSetRtPeriod
  simp only
  split_ifs
  · exact h
  · exact h.tgSetRtBandwidth g _ _

/-- A sysctl changes nothing that concerns the queues. -/
theorem RtInv.schedRtHandler (h : s.RtInv) (w : RtSysctl) : (s.schedRtHandler w).2.RtInv := by
  have hframe : HookFrame s (s.schedRtHandler w).2 ∧ (s.schedRtHandler w).2.rtRq = s.rtRq ∧
      (s.schedRtHandler w).2.core = s.core ∧
      (s.schedRtHandler w).2.leafRtRqList = s.leafRtRqList := by
    unfold RtState.schedRtHandler
    simp only
    split_ifs <;> cases w <;>
      exact ⟨⟨rfl, rfl, rfl, rfl, rfl, rfl, rfl⟩, rfl, rfl, rfl⟩
  obtain ⟨hf, hrq, hcore, hleaf⟩ := hframe
  have hcons : (s.schedRtHandler w).2.Consistent := h.consistent.congr hrq hf.rtGroup hf.task hleaf
  refine h.of_hook hf hcons h.groups.root (fun q _ => by rw [hrq]) (hcore ▸ h.curr)
    fun p hp => .inl ?_
  simpa [onRtRq, rtRqOfSe, hrq, hf.rtGroup] using hp

/-- The rest of the kernel keeps the invariant. -/
theorem RtInv.other (h : s.RtInv) {core : State} (hk : s.Kept core) :
    ({ s with core := core } : RtState).RtInv :=
  { consistent := h.consistent.modifyCore (f := fun _ => core) fun p hp => (hk.queued p hp).2.2
    groups := { h.groups with }
    queued := fun p hp => ⟨(hk.queued p hp).1, (hk.queued p hp).2.1⟩
    curr := hk.curr
    rtGroup := hk.rtGroup
    warned := h.warned
    bug := h.bug }

/-- Every step keeps the invariant. -/
theorem RtInv.next (h : s.RtInv) (op : RtOp) (hen : s.Enabled op) : (s.next cfg op).RtInv := by
  cases op with
  | enqueueTaskRt p flags => exact h.enqueueTaskRt hen
  | dequeueTaskRt p => exact h.dequeueTaskRt hen
  | yieldTaskRt => exact h.requeueTaskRt _ false
  | pickNextTaskRt => exact h.pickNextTaskRt
  | putPrevTaskRt => exact h.updateCurrRt
  | setCurrTaskRt =>
    exact h.modifyCore (f := fun c => { c with
      se := Function.update c.se c.curr { c.se c.curr with execStart := c.clockTask } })
      rfl rfl h.curr
  | taskTickRt => exact h.taskTickRt cfg _
  | schedRtPeriodTimer g overruns =>
    obtain ⟨hcons, hframe, -, -⟩ := schedRtPeriodTimer_spec (g := g) h.consistent overruns
    exact h.of_time hframe hcons hen.1
  | setTaskRq p g => exact h.setTaskRq hen.1 hen.2
  | schedCreateGroup parent tg => exact h.schedCreateGroup hen.1 hen.2
  | schedDestroyGroup tg parent => exact h.schedDestroyGroup hen.2.1 hen.2.2
  | schedGroupSetRtRuntime g usec => exact h.tgSetRtBandwidth g _ _
  | schedGroupSetRtPeriod g usec => exact h.schedGroupSetRtPeriod g usec
  | schedRtHandler w => exact h.schedRtHandler w
  | other core => exact h.other hen

/-- The invariant holds after boot. -/
theorem RtInv.boot {core : State} (hcurr : core.curr ∈ core.live)
    (timeSlice : TaskPtr → UInt32) : (boot core timeSlice).RtInv := by
  have hoff : ∀ e, (RtState.boot core timeSlice).onRtRq e = false := by
    intro e
    simp [onRtRq, RtState.boot, PrioArray.onList, PrioArray.empty]
  refine
    { consistent := ⟨⟨fun q => ⟨⟨.empty, ?_, ?_, ?_⟩, fun i x hx => ?_, ?_⟩, List.nodup_nil⟩,
        fun q => ?_⟩
      groups :=
        { root := List.mem_singleton.mpr rfl
          parent := fun tg parent hq => absurd (List.mem_singleton.mp hq) (List.cons_ne_nil _ _)
          nodup := List.nodup_singleton _
          children := fun tg parent => ?_
          childrenNodup := fun _ => List.nodup_nil
          existing := fun q hq => absurd rfl hq }
      queued := fun p hp => ?_
      curr := hcurr
      rtGroup := fun _ _ => List.mem_singleton.mpr rfl
      warned := rfl
      bug := rfl }
  · simp [RtState.boot, PrioArray.count, PrioArray.empty]
  · simp [RtState.boot, PrioArray.count, PrioArray.empty]
  · exact (PrioArray.findFirstBit_empty rtPrioQueues).symm
  · exact absurd hx List.not_mem_nil
  · exact iff_of_false List.not_mem_nil (not_not.mpr rfl)
  · cases q with
    | nil => trivial
    | cons tg parent =>
      have hidle : (RtState.boot core timeSlice).groupIdle (.group tg parent) = true := by
        simp [groupIdle, groupRtRq, RtState.boot]
      simp [Linked, hoff, hidle]
  · simp [RtState.boot]
  · rw [hoff] at hp
    exact Bool.noConfusion hp

end RtState

open RtState in
/-- In every reachable state of the RT class every run queue is in order, every group is queued
exactly when it has something to run and is not throttled, and no `WARN_ON` or `BUG_ON` has
fired. -/
theorem rtSystem_inv {cfg : Config} {s : RtState} (h : (rtSystem cfg).Reachable s) : s.RtInv := by
  refine h.invariant (fun s hs => ?_) fun s op hs hen => hs.next op hen
  obtain ⟨core, timeSlice, hcurr, rfl⟩ := hs
  exact .boot hcurr timeSlice

/-! ## A small kernel

Two tasks of the RT class beside the boot task; they run for 960 ms. -/

namespace SmallRt

def core : State :=
  { Small.boot with
    live := {Small.idle, Small.taskA, Small.taskB}
    task := fun p =>
      if p = Small.idle then Small.boot.task p
      else { Small.boot.task Small.idle with
        schedClass := .rt, policy := .rr, prio := 50, normalPrio := 50 } }

def boot : RtState := RtState.boot core fun _ => 10

/-- Both tasks are queued, the second one first. -/
def queued : RtState :=
  (boot.next Small.cfg (.enqueueTaskRt Small.taskB 0)).next Small.cfg
    (.enqueueTaskRt Small.taskA 0)

/-- The second task runs. -/
def picked : RtState := queued.next Small.cfg .pickNextTaskRt

/-- The clock after 960 ms. -/
def later : State := { picked.core with clockTask := picked.core.clockTask + 960000000 }

/-- The second task has run for 960 ms. -/
def charged : RtState :=
  (picked.next Small.cfg (.other later)).next Small.cfg .putPrevTaskRt

/-- The machine may start there. -/
theorem init_boot : (rtSystem Small.cfg).init boot := ⟨core, _, by decide, rfl⟩

/-- One more step of a run. -/
theorem reachable_next {s : RtState} (h : (rtSystem Small.cfg).Reachable s) (op : RtOp)
    (hen : s.Enabled op) : (rtSystem Small.cfg).Reachable (s.next Small.cfg op) :=
  h.step hen

/-- One more step of a stretch. -/
theorem path_next {P : RtState → RtOp → Prop} {s s' : RtState}
    (h : (rtSystem Small.cfg).Path P s s') (op : RtOp) (hen : s'.Enabled op) (hP : P s' op) :
    (rtSystem Small.cfg).Path P s (s'.next Small.cfg op) :=
  h.step hen hP

/-- The rest of the kernel may always advance the clock. -/
theorem kept_clock {s : RtState} (h : s.RtInv) (clock : UInt64) :
    s.Enabled (.other { s.core with clockTask := clock }) :=
  ⟨fun p hp => ⟨(h.queued p hp).1, (h.queued p hp).2, rfl, rfl⟩, h.curr, h.rtGroup⟩

/-- Tasks B and A are queued from there. -/
theorem path_queued {P : RtState → RtOp → Prop} (h1 : P boot (.enqueueTaskRt Small.taskB 0))
    (h2 : P (boot.next Small.cfg (.enqueueTaskRt Small.taskB 0)) (.enqueueTaskRt Small.taskA 0)) :
    (rtSystem Small.cfg).Path P boot queued := by
  have hB : boot.Enabled (.enqueueTaskRt Small.taskB 0) :=
    ⟨by decide, by decide, by decide, by decide, by decide⟩
  have hA : (boot.next Small.cfg (.enqueueTaskRt Small.taskB 0)).Enabled
      (.enqueueTaskRt Small.taskA 0) :=
    ⟨by decide, by decide, by decide, by decide, by decide⟩
  exact path_next (path_next .refl _ hB h1) _ hA h2

theorem reachable_queued : (rtSystem Small.cfg).Reachable queued :=
  (path_queued (P := fun _ _ => True) trivial trivial).reachable (.init init_boot)

/-- The second task is picked and runs for some time. -/
theorem path_charged {P : RtState → RtOp → Prop} {s : RtState}
    (h : (rtSystem Small.cfg).Path P s queued) (h1 : P queued .pickNextTaskRt)
    (h2 : P picked (.other later)) (h3 : P (picked.next Small.cfg (.other later)) .putPrevTaskRt) :
    (rtSystem Small.cfg).Path P s charged := by
  have hinv := rtSystem_inv (s := picked) (reachable_next reachable_queued .pickNextTaskRt trivial)
  have hpicked : (rtSystem Small.cfg).Path P s picked :=
    path_next h .pickNextTaskRt trivial h1
  exact path_next (path_next hpicked _ (kept_clock hinv _) h2) .putPrevTaskRt trivial h3

theorem reachable_charged : (rtSystem Small.cfg).Reachable charged :=
  (path_charged (P := fun _ _ => True) .refl trivial trivial trivial).reachable reachable_queued

/-- The root group is throttled now, and its timer is active. -/
example : (charged.rtRq []).rtThrottled = true ∧ (charged.rtBandwidth []).timerActive = true := by
  decide +kernel

end SmallRt

theorem rtSystem_inv_charged : SmallRt.charged.RtInv :=
  rtSystem_inv SmallRt.reachable_charged

end WrrSched
