import WrrSched.Correctness.RtThrottle

/-!
# Requeueing RT entities

`requeue_task_rt` moves a task and the groups it is in to an end of their queues. It leaves every
queue in order and moves no task but the one it is called for.

- `Consistent.requeueOne`: one level;
- `requeueTaskRt_spec`: the whole function.
-/

namespace WrrSched

namespace RtState

variable {s s' : RtState} {g q : RtGroup} {e x : RtEntity} {p : TaskPtr} {head : Bool}

/-- Moving one entity within its queue. -/
theorem Consistent.requeueOne (h : s.Consistent) (e : RtEntity) (head : Bool) :
    let s' := s.requeueRtEntity (s.rtRqOfSe e) e head
    s'.Consistent ∧ QueueFrame s s' ∧ (∀ x, s'.onRtRq x = s.onRtRq x) ∧
      (∀ q, (s'.rtRq q).rtNrRunning = (s.rtRq q).rtNrRunning) ∧
      (∀ q, (s'.rtBandwidth q) = s.rtBandwidth q) := by
  intro s'
  -- an entity that is off is not moved
  by_cases hon : s.onRtRq e = true
  swap
  · have hs' : s' = s := if_neg hon
    rw [hs']
    exact ⟨h, .refl s, fun _ => rfl, fun _ => rfl, fun _ => rfl⟩
  set f : RtRq → RtRq := fun rq => { rq with active := rq.active.requeue e (s.rtSePrio e) head }
    with hf
  have hs' : s' = s.modifyRtRq (s.rtRqOfSe e) f := if_pos hon
  have hwf := (h.queues.rq (s.rtRqOfSe e)).ok.wf
  -- only the array of one run queue changes
  have hrq : ∀ q, s'.rtRq q = if q = s.rtRqOfSe e then f (s.rtRq q) else s.rtRq q := by
    intro q
    rw [hs']
    by_cases hq : q = s.rtRqOfSe e
    · subst hq
      simp
    · simp [modifyRtRq, hq]
  have hnr : ∀ q, (s'.rtRq q).rtNrRunning = (s.rtRq q).rtNrRunning := by
    intro q
    rw [hrq]
    split_ifs <;> rfl
  have hframe : QueueFrame s s' := by
    rw [hs']
    exact .modifyRtRq s _ fun _ => ⟨rfl, rfl, rfl, rfl, rfl⟩
  have hrqOf : ∀ x, s'.rtRqOfSe x = s.rtRqOfSe x := hframe.rtRqOfSe
  -- the keys of the entities stay, also those of the groups, which are read off their run queues
  have hprio : s'.rtSePrio = s.rtSePrio := by
    funext x
    cases x with
    | task p => rw [rtSePrio, rtSePrio, hframe.core]
    | group tg parent =>
      rw [rtSePrio, rtSePrio, hrq]
      split_ifs <;> rfl
  have hboosted : s'.rtSeBoosted = s.rtSeBoosted := by
    funext x
    cases x with
    | task p => rw [rtSeBoosted, rtSeBoosted, hframe.core]
    | group tg parent =>
      rw [rtSeBoosted, rtSeBoosted, hrq]
      split_ifs <;> rfl
  -- nothing gets on a queue or off it
  have honx : ∀ x, s'.onRtRq x = s.onRtRq x := by
    intro x
    rw [onRtRq, onRtRq, hrqOf, hrq]
    split_ifs with hx
    · rw [hx]
      exact hwf.onList_requeue hon head
    · rfl
  -- the counters stay right, since the array holds the same entities
  have hok : ∀ q, (s'.rtRq q).Ok s.rtSePrio s.rtSeBoosted := by
    intro q
    have hq := (h.queues.rq q).ok
    rw [hrq]
    split_ifs with hqe
    · subst hqe
      exact
        { wf := hq.wf.requeue hon head
          nr := by rw [hf, hq.wf.count_requeue _ hon head]; exact hq.nr
          boosted := by rw [hf, hq.wf.count_requeue _ hon head]; exact hq.boosted
          highest := hq.highest }
    · exact hq
  have hqueues : s'.QueuesOk := by
    refine ⟨fun q => ⟨?_, fun i x hx => ?_, ?_⟩, ?_⟩
    · rw [hprio, hboosted]
      exact hok q
    · rw [hrqOf]
      rw [hrq] at hx
      split_ifs at hx with hqe
      · subst hqe
        exact (h.queues.rq _).home i x ((hwf.mem_requeue hon).mp hx)
      · exact (h.queues.rq q).home i x hx
    · have hleaf : s'.leafRtRqList = s.leafRtRqList := by rw [hs']; rfl
      rw [hleaf, hnr]
      exact (h.queues.rq q).leaf
    · rw [hs']
      exact h.queues.leafNodup
  -- whether a group is to be queued depends on its counter and on throttling only
  refine ⟨⟨hqueues, fun q => ?_⟩, hframe, honx, hnr, fun q => by rw [hs']; rfl⟩
  cases q with
  | nil => trivial
  | cons tg parent =>
    have hidle : s'.groupIdle (.group tg parent) = s.groupIdle (.group tg parent) := by
      simp only [groupIdle, groupRtRq, rtRqThrottled, hrq]
      split_ifs <;> rfl
    rw [Linked, honx, hidle]
    exact h.linked (tg :: parent)

/-- A task that is moved within its queue. -/
theorem Consistent.taskQueue_requeueOne_task (h : s.Consistent) (p : TaskPtr) (head : Bool)
    (q : RtGroup) (i : ℤ) :
    (s.requeueRtEntity (s.rtGroup p) (.task p) head).taskQueue q i =
      if p ∈ s.taskQueue q i then
        if head then listMove p (s.taskQueue q i) else listMoveTail p (s.taskQueue q i)
      else s.taskQueue q i := by
  simp only [h.queues.mem_taskQueue_iff]
  by_cases hon : s.onRtRq (.task p) = true
  · have hs' : s.requeueRtEntity (s.rtGroup p) (.task p) head =
      s.modifyRtRq (s.rtGroup p) fun rq =>
        { rq with active := rq.active.requeue (.task p) (s.rtSePrio (.task p)) head } := if_pos hon
    rw [hs', taskQueue, taskQueue]
    by_cases hq : q = s.rtGroup p
    · subst hq
      rw [modifyRtRq_self]
      by_cases hi : i = (s.core.task p).prio
      · subst hi
        cases head <;> simp [PrioArray.requeue, rtSePrio, hon, filterMap_erase_task, listMove,
          listMoveTail, rtTaskOf]
      · have hnot : p ∉ s.taskQueue (s.rtGroup p) i := by
          rw [h.queues.mem_taskQueue_iff]
          exact fun hp => hi hp.2.2.symm
        have herase : (s.taskQueue (s.rtGroup p) i).erase p = s.taskQueue (s.rtGroup p) i :=
          List.erase_of_not_mem hnot
        simp only [taskQueue] at herase
        simp [PrioArray.requeue, rtSePrio, hi, Ne.symm hi, filterMap_erase_task, herase]
    · simp [modifyRtRq, hq, Ne.symm hq]
  · have hs' : s.requeueRtEntity (s.rtGroup p) (.task p) head = s := if_neg hon
    simp [hs', hon]

/-- A group that is moved within its queue. -/
theorem taskQueue_requeueOne_group (s : RtState) (tg : TaskGroupPtr) (parent : RtGroup)
    (head : Bool) (q : RtGroup) (i : ℤ) :
    (s.requeueRtEntity parent (.group tg parent) head).taskQueue q i = s.taskQueue q i := by
  unfold requeueRtEntity
  split_ifs with hon
  · rw [taskQueue, taskQueue]
    by_cases hq : q = parent
    · subst hq
      rw [modifyRtRq_self]
      by_cases hi : i = s.rtSePrio (.group tg q)
      · subst hi
        cases head <;> simp [PrioArray.requeue, filterMap_erase_group, rtTaskOf, List.filterMap_cons]
      · simp [PrioArray.requeue, hi, filterMap_erase_group]
    · simp [modifyRtRq, hq]
  · rfl

/-- The groups above a task. -/
theorem Consistent.requeueParents (h : s.Consistent) (g : RtGroup) (head : Bool) :
    let s' := (rtSeParents g).foldl (fun s e => s.requeueRtEntity (s.rtRqOfSe e) e head) s
    s'.Consistent ∧ QueueFrame s s' ∧ (∀ x, s'.onRtRq x = s.onRtRq x) ∧
      (∀ q, (s'.rtRq q).rtNrRunning = (s.rtRq q).rtNrRunning) ∧
      (∀ q, s'.rtBandwidth q = s.rtBandwidth q) ∧
      ∀ q i, s'.taskQueue q i = s.taskQueue q i := by
  induction g generalizing s with
  | nil => exact ⟨h, .refl s, fun _ => rfl, fun _ => rfl, fun _ => rfl, fun _ _ => rfl⟩
  | cons tg parent ih =>
    obtain ⟨hcons, hframe, hon, hnr, hbw⟩ := h.requeueOne (.group tg parent) head
    obtain ⟨hcons', hframe', hon', hnr', hbw', htask'⟩ := ih hcons
    refine ⟨hcons', hframe.trans hframe', fun x => (hon' x).trans (hon x),
      fun q => (hnr' q).trans (hnr q), fun q => (hbw' q).trans (hbw q), fun q i => ?_⟩
    exact (htask' q i).trans (taskQueue_requeueOne_group s tg parent head q i)

/-- What `requeue_task_rt` does. -/
theorem requeueTaskRt_spec (h : s.Consistent) (p : TaskPtr) (head : Bool) :
    let s' := s.requeueTaskRt p head
    s'.Consistent ∧ QueueFrame s s' ∧ (∀ x, s'.onRtRq x = s.onRtRq x) ∧
      (∀ q, (s'.rtRq q).rtNrRunning = (s.rtRq q).rtNrRunning) ∧
      (∀ q, s'.rtBandwidth q = s.rtBandwidth q) ∧
      ∀ q i, s'.taskQueue q i =
        if p ∈ s.taskQueue q i then
          if head then listMove p (s.taskQueue q i) else listMoveTail p (s.taskQueue q i)
        else s.taskQueue q i := by
  obtain ⟨hcons, hframe, hon, hnr, hbw⟩ := h.requeueOne (.task p) head
  obtain ⟨hcons', hframe', hon', hnr', hbw', htask'⟩ := hcons.requeueParents (s.rtGroup p) head
  refine ⟨hcons', hframe.trans hframe', fun x => (hon' x).trans (hon x),
    fun q => (hnr' q).trans (hnr q), fun q => (hbw' q).trans (hbw q), fun q i => ?_⟩
  exact (htask' q i).trans (h.taskQueue_requeueOne_task p head q i)

end RtState

end WrrSched
