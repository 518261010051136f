import WrrSched.Correctness.RtInvariant

/-!
# Order of RT tasks

Which task `pick_next_task_rt` picks in a reachable state, and which operations move a task in its
queue. The tasks of one priority in one group run in the order of their queue. Only the operations
on a task move it, whatever happens to the groups, to the other tasks and to the bandwidth, and a
task that is added or moved goes to the end of its queue, unless it is enqueued with
`ENQUEUE_HEAD`.

- `Moves`, `RtInv.moves`: what one step does to a queue;
- `rtSystem_pick`: the pick;
- `rtSystem_order`: the tasks no step is about stay in order;
- `rtSystem_ahead`: a waiting task is not overtaken.
-/

namespace WrrSched

/-- The tasks before `p` in a queue. -/
def aheadOf (p : TaskPtr) (l : List TaskPtr) : List TaskPtr :=
  l.takeWhile fun x => decide (x ≠ p)

section Queue

variable {p x : TaskPtr} {l l' : List TaskPtr}

/-- Nobody is ahead of the first task. -/
@[simp] theorem aheadOf_cons_self : aheadOf p (p :: l) = [] := by
  simp [aheadOf]

/-- The first task is ahead of the others. -/
theorem aheadOf_cons_of_ne (hx : x ≠ p) : aheadOf p (x :: l) = x :: aheadOf p l := by
  simp [aheadOf, hx]

/-- Tasks at the end are ahead of nobody. -/
theorem aheadOf_append (hp : p ∈ l) : aheadOf p (l ++ l') = aheadOf p l := by
  rw [aheadOf, List.takeWhile_append, if_neg, aheadOf]
  intro hlen
  have hself := (List.takeWhile_prefix _).eq_of_length hlen
  simpa using List.takeWhile_eq_self_iff.mp hself p hp

/-- When another task leaves, it is no longer ahead. -/
theorem aheadOf_erase (hx : x ≠ p) (l : List TaskPtr) :
    (aheadOf p (l.erase x)).Sublist (aheadOf p l) := by
  induction l with
  | nil => exact List.Sublist.refl _
  | cons y l ih =>
    by_cases hyx : y = x
    · subst hyx
      rw [List.erase_cons_head, aheadOf_cons_of_ne hx]
      exact List.sublist_cons_self y _
    · rw [List.erase_cons_tail (by simpa using hyx)]
      by_cases hyp : y = p
      · simp [hyp]
      · rw [aheadOf_cons_of_ne hyp, aheadOf_cons_of_ne hyp]
        exact ih.cons_cons y

/-- Taking a task out that the filter drops changes nothing. -/
theorem filter_erase {keep : TaskPtr → Bool} (hx : keep x = false) (l : List TaskPtr) :
    (l.erase x).filter keep = l.filter keep := by
  induction l with
  | nil => rfl
  | cons y l ih =>
    by_cases hyx : y = x
    · subst hyx
      rw [List.erase_cons_head, List.filter_cons_of_neg (by simp [hx])]
    · rw [List.erase_cons_tail (by simpa using hyx), List.filter_cons, List.filter_cons, ih]

end Queue

namespace RtState

variable {cfg : Config} {s s' : RtState} {op : RtOp} {g q : RtGroup} {p : TaskPtr}
  {l l' : List TaskPtr}

/-! ## One step -/

/-- The task an operation is about. -/
def target (s : RtState) : RtOp → Option TaskPtr
  | .enqueueTaskRt p _ | .dequeueTaskRt p => some p
  | .yieldTaskRt | .taskTickRt => some s.core.curr
  | _ => none

/-- The operation adds a task to the front of its queue. -/
def AtHead : RtOp → Prop
  | .enqueueTaskRt _ flags => flags &&& enqueueHead ≠ 0
  | _ => False

/-- What an operation may do to a queue `l` of tasks. -/
inductive Moves (s : RtState) (op : RtOp) (l : List TaskPtr) : List TaskPtr → Prop
  | same : Moves s op l l
  | head {p : TaskPtr} : s.target op = some p → AtHead op → Moves s op l (p :: l)
  | tail {p : TaskPtr} : s.target op = some p → Moves s op l (l ++ [p])
  | delete {p : TaskPtr} : s.target op = some p → Moves s op l (listDelInit p l)
  | moveTail {p : TaskPtr} : s.target op = some p → Moves s op l (listMoveTail p l)

/-- The tasks the operation is not about stay in order. -/
theorem Moves.filter (h : Moves s op l l') {keep : TaskPtr → Bool}
    (hkeep : ∀ p, s.target op = some p → keep p = false) : l'.filter keep = l.filter keep := by
  cases h with
  | same => rfl
  | head hp _ => rw [List.filter_cons_of_neg (by simp [hkeep _ hp])]
  | tail hp => simp [List.filter_append, hkeep _ hp]
  | delete hp => exact filter_erase (hkeep _ hp) l
  | moveTail hp =>
    rw [listMoveTail, List.filter_append, filter_erase (hkeep _ hp)]
    simp [hkeep _ hp]

/-- A task the operation is not about stays in its queue. -/
theorem Moves.mem (h : Moves s op l l') (hp : p ∈ l) (htarget : s.target op ≠ some p) :
    p ∈ l' := by
  have hfilter : (l'.filter fun x => decide (x = p)) = l.filter fun x => decide (x = p) :=
    h.filter fun x hx => decide_eq_false fun heq => htarget (heq ▸ hx)
  have hmem : p ∈ l.filter fun x => decide (x = p) := List.mem_filter.mpr ⟨hp, by simp⟩
  rw [← hfilter] at hmem
  exact (List.mem_filter.mp hmem).1

/-- A task the operation is not about is not overtaken. -/
theorem Moves.ahead (h : Moves s op l l') (hp : p ∈ l) (htarget : s.target op ≠ some p)
    (hhead : ¬ AtHead op) : p ∈ l' ∧ (aheadOf p l').Sublist (aheadOf p l) := by
  have hne : ∀ x, s.target op = some x → x ≠ p := fun x hx heq => htarget (heq ▸ hx)
  cases h with
  | same => exact ⟨hp, List.Sublist.refl _⟩
  | head _ hat => exact absurd hat hhead
  | tail hx =>
    rw [aheadOf_append hp]
    exact ⟨List.mem_append_left _ hp, List.Sublist.refl _⟩
  | delete hx =>
    exact ⟨(List.mem_erase_of_ne (hne _ hx).symm).mpr hp, aheadOf_erase (hne _ hx) l⟩
  | moveTail hx =>
    have hmem := (List.mem_erase_of_ne (hne _ hx).symm).mpr hp
    rw [listMoveTail, aheadOf_append hmem]
    exact ⟨List.mem_append_left _ hmem, aheadOf_erase (hne _ hx) l⟩

/-- A requeue to the end. -/
theorem Moves.of_requeue (h : s.target op = some p)
    (hl : l' = if p ∈ l then if false then listMove p l else listMoveTail p l else l) :
    Moves s op l l' := by
  rw [hl]
  split_ifs <;> first | exact .moveTail h | exact .same | contradiction

/-- A group that is created or whose bandwidth changes keeps its tasks. -/
theorem taskQueue_congr (h : ∀ q, (s'.rtRq q).active = (s.rtRq q).active) (q : RtGroup) (i : ℤ) :
    s'.taskQueue q i = s.taskQueue q i := by
  rw [taskQueue, taskQueue, h]

/-- A new bandwidth does not touch the queues. -/
theorem taskQueue_tgSetRtBandwidth (s : RtState) (g : RtGroup) (period runtime : UInt64)
    (q : RtGroup) (i : ℤ) :
    (s.tgSetRtBandwidth g period runtime).2.taskQueue q i = s.taskQueue q i := by
  refine taskQueue_congr (fun q => ?_) q i
  unfold tgSetRtBandwidth
  simp only
  split_ifs
  · rfl
  · by_cases hq : q = g
    · subst hq
      rw [modifyRtRq_self]
    · simp [modifyRtRq, hq]

/-- What one step does to a queue. -/
theorem RtInv.moves (h : s.RtInv) (cfg : Config) (op : RtOp) (hen : s.Enabled op) (q : RtGroup) (i : ℤ) :
    Moves s op (s.taskQueue q i) ((s.next cfg op).taskQueue q i) := by
  -- the charge that comes first in several hooks moves no task
  obtain ⟨-, hupdate, -, -⟩ := updateCurrRt_spec h.consistent
  cases op with
  | enqueueTaskRt p flags =>
    obtain ⟨-, hoff, -, h0, hN⟩ := hen
    obtain ⟨-, -, -, -, htask⟩ :=
      h.consistent.enqueueTask hoff h0 hN (decide (flags &&& enqueueHead ≠ 0))
    have hqueue : (s.next cfg (.enqueueTaskRt p flags)).taskQueue q i = _ := htask q i
    rw [hqueue]
    -- only the queue of its group and its priority gets the task
    by_cases hq : q = s.rtGroup p ∧ i = (s.core.task p).prio
    · rw [if_pos hq]
      cases hflag : decide (flags &&& enqueueHead ≠ 0) with
      | true =>
        have hhead : flags &&& enqueueHead ≠ 0 := of_decide_eq_true hflag
        exact .head rfl hhead
      | false => exact .tail rfl
    · rw [if_neg hq]
      exact .same
  | dequeueTaskRt p =>
    obtain ⟨hcons, -⟩ := updateCurrRt_spec h.consistent
    have hon : s.updateCurrRt.onRtRq (.task p) = true := by
      rw [hupdate.onRtRq_task h.consistent.queues hcons.queues]
      exact hen
    obtain ⟨-, -, -, -, htask⟩ := hcons.dequeueTask hon
    have hqueue : (s.next cfg (.dequeueTaskRt p)).taskQueue q i =
        listDelInit p (s.updateCurrRt.taskQueue q i) := htask q i
    rw [hqueue, hupdate.taskQueue]
    exact .delete rfl
  | yieldTaskRt =>
    obtain ⟨-, -, -, -, -, htask⟩ := requeueTaskRt_spec h.consistent s.core.curr false
    exact .of_requeue rfl (htask q i)
  | pickNextTaskRt =>
    -- picking reads the queues only
    obtain ⟨hpick, -⟩ | ⟨p, hpick, -⟩ := h.consistent.pickNextTaskRt_spec h.groups
    · simp only [RtState.next, hpick]
      exact .same
    · simp only [RtState.next, hpick]
      exact .same
  | putPrevTaskRt =>
    have hqueue : (s.next cfg .putPrevTaskRt).taskQueue q i = s.taskQueue q i :=
      hupdate.taskQueue q i
    rw [hqueue]
    exact .same
  | setCurrTaskRt => exact .same
  | taskTickRt =>
    -- the slice runs on, or the task goes to the end of its queue
    obtain ⟨slice, htick | htick⟩ := taskTickRt_eq cfg s s.core.curr
    · have hqueue : (s.next cfg .taskTickRt).taskQueue q i = s.updateCurrRt.taskQueue q i := by
        rw [RtState.next, htick]
        rfl
      rw [hqueue, hupdate.taskQueue]
      exact .same
    · have hinv := h.updateCurrRt.timeSlice slice
      obtain ⟨-, -, -, -, -, htask⟩ := requeueTaskRt_spec hinv.consistent s.core.curr false
      rw [← hupdate.taskQueue q i]
      refine .of_requeue rfl ?_
      rw [RtState.next, htick]
      exact htask q i
  | schedRtPeriodTimer g overruns =>
    -- groups are linked and unlinked, tasks stay where they are
    obtain ⟨-, hframe, -, -⟩ := schedRtPeriodTimer_spec (g := g) h.consistent overruns
    have hqueue : (s.next cfg (.schedRtPeriodTimer g overruns)).taskQueue q i = _ :=
      hframe.taskQueue q i
    rw [hqueue]
    exact .same
  | setTaskRq p g => exact .same
  | schedCreateGroup parent tg =>
    have hnr : (s.rtRq (tg :: parent)).rtNrRunning = 0 := by
      by_contra hne
      exact hen.2 (h.groups.existing _ hne)
    have hqueue : (s.next cfg (.schedCreateGroup parent tg)).taskQueue q i = s.taskQueue q i := by
      by_cases hq : q = tg :: parent
      · -- the run queue that is initialised was empty
        subst hq
        have hempty : s.taskQueue (tg :: parent) i = [] := by
          refine List.eq_nil_iff_forall_not_mem.mpr fun p hp => ?_
          exact (h.consistent.queues.rq _).ok.nr_ne_zero_iff.mpr ⟨i, _, mem_taskQueue.mp hp⟩ hnr
        rw [hempty]
        simp [RtState.taskQueue, RtState.next, RtState.schedCreateGroup, PrioArray.empty]
      · simp [RtState.taskQueue, RtState.next, RtState.schedCreateGroup, hq]
    rw [hqueue]
    exact .same
  | schedDestroyGroup tg parent => exact .same
  | schedGroupSetRtRuntime g usec =>
    have hqueue : (s.next cfg (.schedGroupSetRtRuntime g usec)).taskQueue q i = _ :=
      taskQueue_tgSetRtBandwidth s g _ _ q i
    rw [hqueue]
    exact .same
  | schedGroupSetRtPeriod g usec =>
    have hqueue : (s.next cfg (.schedGroupSetRtPeriod g usec)).taskQueue q i = s.taskQueue q i := by
      simp only [RtState.next, RtState.schedGroupSetRtPeriod]
      split_ifs
      · rfl
      · exact taskQueue_tgSetRtBandwidth s g _ _ q i
    rw [hqueue]
    exact .same
  | schedRtHandler w =>
    have hqueue : (s.next cfg (.schedRtHandler w)).taskQueue q i = s.taskQueue q i := by
      refine taskQueue_congr (fun q => ?_) q i
      simp only [RtState.next, RtState.schedRtHandler]
      split_ifs <;> cases w <;> rfl
    rw [hqueue]
    exact .same
  | other core => exact .same

end RtState

/-! ## The main results -/

open RtState

variable {cfg : Config} {s s' : RtState}

/-- `pick_next_task_rt` returns nothing exactly when no task is eligible. Otherwise it returns an
eligible task of the RT class that no eligible task precedes, and which is the first of the tasks of
its priority in its group. -/
theorem rtSystem_pick (h : (rtSystem cfg).Reachable s) :
    (s.pickNextTaskRt.1 = none ↔ ∀ p, ¬ s.Eligible p) ∧
      ∀ p, s.pickNextTaskRt.1 = some p →
        s.Eligible p ∧ p ∈ s.core.live ∧ (s.core.task p).schedClass = .rt ∧
          (∀ q, s.Eligible q → (s.core.task p).prio ≤ (s.core.task q).prio) ∧
          (s.taskQueue (s.rtGroup p) (s.core.task p).prio).head? = some p := by
  have hinv := rtSystem_inv h
  obtain ⟨hpick, hnone⟩ | ⟨p, hpick, hel, hbest, hhead⟩ :=
    hinv.consistent.pickNextTaskRt_spec hinv.groups
  · rw [hpick]
    exact ⟨iff_of_true rfl hnone, fun p hp => nomatch hp⟩
  · rw [hpick]
    refine ⟨iff_of_false (Option.some_ne_none p) fun hnone => hnone p hel, fun q hq => ?_⟩
    obtain rfl := Option.some.inj hq
    exact ⟨hel, (hinv.queued p hel.1).1, (hinv.queued p hel.1).2, hbest, hhead⟩

/-- The task that was queued first is picked. -/
theorem rtSystem_pick_queued : SmallRt.queued.Eligible Small.taskB :=
  ((rtSystem_pick SmallRt.reachable_queued).2 Small.taskB (by decide)).1

/-- The tasks that no step is about are in the same queues as before, in the same order. -/
theorem rtSystem_order {keep : TaskPtr → Bool} (h : (rtSystem cfg).Reachable s)
    (hp : (rtSystem cfg).Path (fun t op => ∀ p, t.target op = some p → keep p = false) s s')
    (q : RtGroup) (i : ℤ) :
    (s'.taskQueue q i).filter keep = (s.taskQueue q i).filter keep := by
  refine hp.invariant (I := fun t => (t.taskQueue q i).filter keep = (s.taskQueue q i).filter keep) h
    rfl fun t op ht hI hen hkeep => ?_
  exact (((rtSystem_inv ht).moves cfg op hen q i).filter hkeep).trans hI

/-- The second task runs and is dequeued. -/
theorem SmallRt.path_dequeued {P : RtState → RtOp → Prop}
    (hP : ∀ t op, t.target op ≠ some Small.taskA → ¬ AtHead op → P t op) :
    (rtSystem Small.cfg).Path P queued (charged.next Small.cfg (.dequeueTaskRt Small.taskB)) := by
  have hpath : (rtSystem Small.cfg).Path P queued charged :=
    path_charged .refl (hP _ _ nofun nofun) (hP _ _ nofun nofun) (hP _ _ nofun nofun)
  have hon : charged.onRtRq (.task Small.taskB) = true := by decide +kernel
  exact path_next hpath _ hon (hP _ _ (by decide) nofun)

/-- The first task stays when the second one leaves. -/
theorem rtSystem_order_dequeued :
    ((SmallRt.charged.next Small.cfg (.dequeueTaskRt Small.taskB)).taskQueue [] 50).filter
        (fun p => decide (p = Small.taskA)) =
      (SmallRt.queued.taskQueue [] 50).filter fun p => decide (p = Small.taskA) := by
  refine rtSystem_order SmallRt.reachable_queued (SmallRt.path_dequeued fun t op hne _ p hp => ?_)
    [] 50
  exact decide_eq_false fun heq => hne (heq ▸ hp)

/-- A queued task stays in its queue as long as no step is about it. No other task gets before it
either, as long as no task is added to the front of a queue. -/
theorem rtSystem_ahead {p : TaskPtr} {q : RtGroup} {i : ℤ} (h : (rtSystem cfg).Reachable s)
    (hq : p ∈ s.taskQueue q i) :
    ((rtSystem cfg).Path (fun t op => t.target op ≠ some p) s s' → p ∈ s'.taskQueue q i) ∧
      ((rtSystem cfg).Path (fun t op => t.target op ≠ some p ∧ ¬ AtHead op) s s' →
        (aheadOf p (s'.taskQueue q i)).Sublist (aheadOf p (s.taskQueue q i))) := by
  refine ⟨fun hp => ?_, fun hp => ?_⟩
  · exact hp.invariant (I := fun t => p ∈ t.taskQueue q i) h hq
      fun t op ht hI hen htarget => ((rtSystem_inv ht).moves cfg op hen q i).mem hI htarget
  · refine (hp.invariant (I := fun t => p ∈ t.taskQueue q i ∧
      (aheadOf p (t.taskQueue q i)).Sublist (aheadOf p (s.taskQueue q i))) h ⟨hq, .refl _⟩
      fun t op ht hI hen hP => ?_).2
    obtain ⟨hmem, hsub⟩ := ((rtSystem_inv ht).moves cfg op hen q i).ahead hI.1 hP.1 hP.2
    exact ⟨hmem, hsub.trans hI.2⟩

/-- The same for the tasks ahead of it. -/
theorem rtSystem_ahead_dequeued :
    Small.taskA ∈ (SmallRt.charged.next Small.cfg (.dequeueTaskRt Small.taskB)).taskQueue [] 50 ∧
      (aheadOf Small.taskA
        ((SmallRt.charged.next Small.cfg (.dequeueTaskRt Small.taskB)).taskQueue [] 50)).Sublist
        (aheadOf Small.taskA (SmallRt.queued.taskQueue [] 50)) := by
  obtain ⟨hmem, hahead⟩ := rtSystem_ahead SmallRt.reachable_queued (p := Small.taskA) (q := [])
    (i := 50) (by decide)
  exact ⟨hmem (SmallRt.path_dequeued fun _ _ hne _ => hne),
    hahead (SmallRt.path_dequeued fun _ _ hne hhead => ⟨hne, hhead⟩)⟩

end WrrSched
