import WrrSched.Correctness.Order
import WrrSched.Correctness.Params

/-!
# Priority inheritance boosts

`rt_mutex_setprio` takes a boosted WRR task out of the WRR queue, together with its share of the
counters, and puts it back when the boost ends.

- `State.rtMutexSetprio_counts`: the counters move with the share of the task;
- `Boosted`: what holds between the first call with an RT priority and the end of the boost;
- `boost_undone`: the end of the boost undoes it.
-/

namespace WrrSched

namespace TaskStruct

/-- What a task adds to `wrr_nr_running`. -/
def wrrCount (t : TaskStruct) : UInt32 :=
  if t.onRq ∧ t.schedClass = .wrr then 1 else 0

/-- What a task adds to `total_weight`. -/
def wrrShare (t : TaskStruct) : UInt32 :=
  if t.onRq ∧ t.schedClass = .wrr then t.wrr.weight else 0

end TaskStruct

namespace State

variable (cfg : Config) (env : Env)

/-! ## Counters -/

theorem enqueueTask_counts {s : State} {p : TaskPtr} (hclass : (s.task p).schedClass ≠ .idle)
    (flags n : ℕ) :
    let rq' := (s.enqueueTask cfg env p flags n).rq
    let t' := (s.task p).enqueued cfg s.group
    rq'.nrRunning = s.rq.nrRunning + 1 ∧
      rq'.wrrNrRunning = s.rq.wrrNrRunning + (if t'.schedClass = .wrr then 1 else 0) ∧
      rq'.totalWeight = s.rq.totalWeight + if t'.schedClass = .wrr then t'.wrr.weight else 0 := by
  intro rq' t'
  have hsame : t'.schedClass = (s.task p).schedClass := by
    unfold t'
    rw [TaskStruct.enqueued_eq]
  refine ⟨enqueueTask_nrRunning cfg env hclass flags n, ?_⟩
  rw [hsame]
  by_cases hwrr : (s.task p).schedClass = .wrr
  · rw [if_pos hwrr, if_pos hwrr]
    exact (enqueueTask_rq_wrr cfg env hwrr flags n).2
  · rw [if_neg hwrr, if_neg hwrr, UInt32.add_zero, UInt32.add_zero]
    exact (enqueueTask_rq_other cfg env hwrr flags n).2

theorem dequeueTask_counts {s : State} {p : TaskPtr} (hclass : (s.task p).schedClass ≠ .idle)
    (n : ℕ) :
    let rq' := (s.dequeueTask env p n).rq
    let t := s.task p
    rq'.nrRunning = s.rq.nrRunning - 1 ∧
      rq'.wrrNrRunning = s.rq.wrrNrRunning - (if t.schedClass = .wrr then 1 else 0) ∧
      rq'.totalWeight = s.rq.totalWeight - if t.schedClass = .wrr then t.wrr.weight else 0 := by
  intro rq' t
  refine ⟨dequeueTask_nrRunning env hclass n, ?_⟩
  by_cases hwrr : t.schedClass = .wrr
  · rw [if_pos hwrr, if_pos hwrr]
    exact (dequeueTask_rq_wrr env hwrr n).2
  · rw [if_neg hwrr, if_neg hwrr, UInt32.sub_zero, UInt32.sub_zero]
    exact (dequeueTask_rq_other env hwrr n).2

theorem changed_counts {s : State} {p : TaskPtr} (hclass : (s.task p).schedClass ≠ .idle)
    (running : Bool) (change : TaskStruct → TaskStruct) :
    let rq' := (s.changed env p running change).rq
    rq'.nrRunning = s.rq.nrRunning - (if (s.task p).onRq then 1 else 0) ∧
      rq'.wrrNrRunning = s.rq.wrrNrRunning - (s.task p).wrrCount ∧
      rq'.totalWeight = s.rq.totalWeight - (s.task p).wrrShare := by
  unfold TaskStruct.wrrCount TaskStruct.wrrShare
  rw [changed_rq]
  cases hon : (s.task p).onRq with
  | true =>
    simp only [if_true, true_and]
    exact s.dequeueTask_counts env hclass 0
  | false => simp

/-- The counters of WRR lose the share of the old task and gain that of the new one. -/
theorem changeQueued_counts {s : State} {p : TaskPtr} (running : Bool) (flags : ℕ)
    {change : TaskStruct → TaskStruct} (hclass : (s.task p).schedClass ≠ .idle)
    (hclass' : (change (s.task p)).schedClass ≠ .idle)
    (hon : (change (s.task p)).onRq = (s.task p).onRq) :
    let s' := s.changeQueued cfg env p running flags change
    s'.rq.nrRunning = s.rq.nrRunning ∧
      s'.rq.wrrNrRunning =
        s.rq.wrrNrRunning - (s.task p).wrrCount + (s'.task p).wrrCount ∧
      s'.rq.totalWeight = s.rq.totalWeight - (s.task p).wrrShare + (s'.task p).wrrShare := by
  intro s'
  obtain ⟨hnr, hcount, hshare⟩ := s.changed_counts env hclass running change
  have htask : (s.changed env p running change).task p = change (s.task p) := by
    rw [changed_task, Function.update_self]
  cases hq : (s.task p).onRq with
  | true =>
    -- a queued task is counted again with its new class and weight
    have hs' : s' = (s.changed env p running change).enqueueTask cfg env p flags 1 := by
      unfold s'
      rw [changeQueued_eq, if_pos hq]
    have htask' : s'.task p =
        ((s.changed env p running change).task p).enqueued cfg
          (s.changed env p running change).group := by
      rw [hs', enqueueTask_task, Function.update_self]
    have hon' : (s'.task p).onRq = true := by
      rw [htask', TaskStruct.enqueued_eq, htask, hon, hq]
    rw [← htask] at hclass'
    have henq := enqueueTask_counts cfg env hclass' flags 1
    dsimp only at henq
    rw [← hs', ← htask'] at henq
    obtain ⟨hnr', hcount', hshare'⟩ := henq
    refine ⟨?_, ?_, ?_⟩
    · rw [hnr', hnr, if_pos hq]
      exact UInt32.sub_add_cancel _ _
    · rw [hcount', hcount]
      congr 1
      simp [TaskStruct.wrrCount, hon']
    · rw [hshare', hshare]
      congr 1
      simp [TaskStruct.wrrShare, hon']
  | false =>
    -- a task that is off counts neither before nor after
    have hs' : s' = s.changed env p running change := by
      unfold s'
      rw [changeQueued_eq, if_neg (by simp [hq])]
    have hoff : (s'.task p).onRq = false := by
      rw [hs', htask, hon, hq]
    rw [hs'] at hoff ⊢
    rw [hnr, hcount, hshare]
    simp [TaskStruct.wrrCount, TaskStruct.wrrShare, hoff, hq]

/-! ## `rt_mutex_setprio` -/

theorem rtMutexSetprio_counts {s : State} {p : TaskPtr} (hp : p ≠ s.idle)
    (hclass : (s.task p).schedClass ≠ .idle) (prio : ℤ) :
    let s' := s.rtMutexSetprio cfg env p prio
    s'.rq.nrRunning = s.rq.nrRunning ∧
      s'.rq.wrrNrRunning =
        s.rq.wrrNrRunning - (s.task p).wrrCount + (s'.task p).wrrCount ∧
      s'.rq.totalWeight = s.rq.totalWeight - (s.task p).wrrShare + (s'.task p).wrrShare := by
  intro s'
  let flags := if (s.task p).prio < prio then enqueueHead else 0
  let bugged := s.bugOn (decide (prio < 0 ∨ prio > maxPrio))
  let moved := bugged.changeQueued cfg env p (decide (s.curr = p)) flags (·.boost prio)
  have hs' : s' = moved.checkClassChanged env p (s.task p).schedClass (s.task p).prio := by
    unfold s' rtMutexSetprio
    dsimp only
    rw [if_neg (show p ≠ (s.bugOn _).idle from hp)]
    rfl
  have hq := moved.checkClassChanged_quiet env p (s.task p).schedClass (s.task p).prio
  rw [hs', hq.rq, hq.task]
  have hclass' : ((bugged.task p).boost prio).schedClass ≠ .idle := (s.task p).setClass_ne_idle prio
  exact changeQueued_counts cfg env (decide (s.curr = p)) flags hclass hclass' rfl

theorem rtMutexSetprio_active {s : State} {p : TaskPtr} (hp : p ≠ s.idle) (prio : ℤ) :
    (s.rtMutexSetprio cfg env p prio).rq.active =
      QueueEvent.run s.rq.active
        (s.changeQueueEvents p (decide ((s.task p).prio < prio)) (·.boost prio)) := by
  have hactive := s.next_active cfg (.rtMutexSetprio p prio) env
  rw [queueEvents, if_neg hp] at hactive
  exact hactive

/-- An RT priority takes a task out of the WRR queue. -/
theorem rtMutexSetprio_boost {s : State} {p : TaskPtr} (hp : p ≠ s.idle)
    (hclass : (s.task p).schedClass ≠ .idle) {prio : ℤ} (hrt : rtPrio prio = true) :
    let s' := s.rtMutexSetprio cfg env p prio
    s'.task = Function.update s.task p { s.task p with prio := prio, schedClass := .rt } ∧
      s'.rq.active =
        (if (s.task p).onRq ∧ (s.task p).schedClass = .wrr then s.rq.active.erase p
          else s.rq.active) ∧
      s'.rq.nrRunning = s.rq.nrRunning ∧
      s'.rq.wrrNrRunning = s.rq.wrrNrRunning - (s.task p).wrrCount ∧
      s'.rq.totalWeight = s.rq.totalWeight - (s.task p).wrrShare := by
  intro s'
  have hboost : (s.task p).boost prio = { s.task p with prio := prio, schedClass := .rt } := by
    simp [TaskStruct.boost, TaskStruct.setClass, hrt]
  have htask : s'.task =
      Function.update s.task p { s.task p with prio := prio, schedClass := .rt } := by
    show (s.rtMutexSetprio cfg env p prio).task = _
    rw [rtMutexSetprio_task cfg env s hp, hboost]
    cases (s.task p).onRq <;> rfl
  -- the task counts no more, as it is an RT task now
  obtain ⟨hnr, hcount, hshare⟩ := rtMutexSetprio_counts cfg env hp hclass prio
  have hself : (s'.task p).schedClass = .rt := by
    rw [htask, Function.update_self]
  refine ⟨htask, ?_, hnr, ?_, ?_⟩
  · show (s.rtMutexSetprio cfg env p prio).rq.active = _
    rw [rtMutexSetprio_active cfg env hp, changeQueueEvents, hboost]
    cases (s.task p).onRq with
    | true =>
      simp only [if_true, true_and]
      rw [QueueEvent.run_append, run_removal]
      rfl
    | false => rfl
  · rw [hcount]
    show _ + (s'.task p).wrrCount = _
    simp [TaskStruct.wrrCount, hself]
  · rw [hshare]
    show _ + (s'.task p).wrrShare = _
    simp [TaskStruct.wrrShare, hself]

/-- A priority that is not RT puts a task of policy WRR back, at the head of the queue. -/
theorem rtMutexSetprio_deboost {s : State} {p : TaskPtr} (hp : p ≠ s.idle)
    (hclass : (s.task p).schedClass = .rt) (hpolicy : (s.task p).policy = .wrr) {prio : ℤ}
    (hrt : rtPrio prio = false) (hprio : (s.task p).prio < prio) :
    let s' := s.rtMutexSetprio cfg env p prio
    s'.task = Function.update s.task p
        (TaskStruct.requeued cfg s.group (s.task p).onRq
          { s.task p with prio := prio, schedClass := .wrr }) ∧
      s'.rq.active =
        (if (s.task p).onRq then p :: s.rq.active.erase p else s.rq.active) ∧
      s'.rq.nrRunning = s.rq.nrRunning ∧
      s'.rq.wrrNrRunning = s.rq.wrrNrRunning + (s'.task p).wrrCount ∧
      s'.rq.totalWeight = s.rq.totalWeight + (s'.task p).wrrShare := by
  intro s'
  have hboost : (s.task p).boost prio = { s.task p with prio := prio, schedClass := .wrr } := by
    simp [TaskStruct.boost, TaskStruct.setClass, hrt, hpolicy]
  obtain ⟨hnr, hcount, hshare⟩ := rtMutexSetprio_counts cfg env hp (by simp [hclass]) prio
  refine ⟨?_, ?_, hnr, ?_, ?_⟩
  · show (s.rtMutexSetprio cfg env p prio).task = _
    rw [rtMutexSetprio_task cfg env s hp, hboost]
  · show (s.rtMutexSetprio cfg env p prio).rq.active = _
    rw [rtMutexSetprio_active cfg env hp, changeQueueEvents, hboost, hclass, decide_eq_true hprio]
    cases (s.task p).onRq <;> rfl
  · -- the RT task did not count before
    have hzero : (s.task p).wrrCount = 0 := by simp [TaskStruct.wrrCount, hclass]
    rw [hcount, hzero, UInt32.sub_zero]
  · have hzero : (s.task p).wrrShare = 0 := by simp [TaskStruct.wrrShare, hclass]
    rw [hshare, hzero, UInt32.sub_zero]

/-- Calls of `rt_mutex_setprio` for one task, the first call first. -/
def rtMutexSetprios (s : State) (p : TaskPtr) (calls : List (ℤ × Env)) : State :=
  calls.foldl (fun s call => s.rtMutexSetprio cfg call.2 p call.1) s

end State

/-! ## Boosts -/

/-- In the state `s'`, the boost of `p` that began in the state `s` goes on. -/
structure Boosted (s : State) (p : TaskPtr) (s' : State) : Prop where
  idle : s'.idle = s.idle
  group : s'.group = s.group
  other : ∀ q, q ≠ p → s'.task q = s.task q
  self : s'.task p = { s.task p with prio := (s'.task p).prio, schedClass := .rt }
  prio_lt : (s'.task p).prio < maxRtPrio
  active : s'.rq.active = s.rq.active.erase p
  nrRunning : s'.rq.nrRunning = s.rq.nrRunning
  wrrNrRunning : s'.rq.wrrNrRunning = s.rq.wrrNrRunning - (s.task p).wrrCount
  totalWeight : s'.rq.totalWeight = s.rq.totalWeight - (s.task p).wrrShare

namespace Boosted

variable (cfg : Config) {s s' : State} {p : TaskPtr}

/-- The first call with an RT priority. -/
theorem start (hp : p ≠ s.idle) (hclass : (s.task p).schedClass = .wrr)
    (hmem : p ∈ s.rq.active → (s.task p).onRq = true) {prio : ℤ} (hrt : rtPrio prio = true)
    (env : Env) : Boosted s p (s.rtMutexSetprio cfg env p prio) := by
  have hframe := s.rtMutexSetprio_frame cfg env p prio
  obtain ⟨htask, hactive, hnr, hcount, hshare⟩ :=
    State.rtMutexSetprio_boost cfg env hp (by simp [hclass]) hrt
  refine ⟨hframe.idle, hframe.group, fun q hq => ?_, ?_, ?_, ?_, hnr, hcount, hshare⟩
  · rw [htask, Function.update_of_ne hq]
  · rw [htask, Function.update_self]
  · rw [htask, Function.update_self]
    exact of_decide_eq_true hrt
  · rw [hactive]
    split
    · rfl
    · next h =>
      rw [List.erase_of_not_mem fun hin => h ⟨hmem hin, hclass⟩]

/-- A further call with an RT priority. -/
theorem setprio (h : Boosted s p s') (hp : p ≠ s.idle) {prio : ℤ} (hrt : rtPrio prio = true)
    (env : Env) : Boosted s p (s'.rtMutexSetprio cfg env p prio) := by
  have hclass : (s'.task p).schedClass = .rt := by rw [h.self]
  have hframe := s'.rtMutexSetprio_frame cfg env p prio
  obtain ⟨htask, hactive, hnr, hcount, hshare⟩ :=
    State.rtMutexSetprio_boost cfg env (h.idle ▸ hp) (by simp [hclass]) hrt
  refine ⟨hframe.idle.trans h.idle, hframe.group.trans h.group, fun q hq => ?_, ?_, ?_, ?_,
    hnr.trans h.nrRunning, ?_, ?_⟩
  · rw [htask, Function.update_of_ne hq]
    exact h.other q hq
  · rw [htask, Function.update_self, h.self]
  · rw [htask, Function.update_self]
    exact of_decide_eq_true hrt
  · rw [hactive, if_neg (by simp [hclass])]
    exact h.active
  · rw [hcount, h.wrrNrRunning]
    simp [TaskStruct.wrrCount, hclass]
  · rw [hshare, h.totalWeight]
    simp [TaskStruct.wrrShare, hclass]

theorem setprios (h : Boosted s p s') (hp : p ≠ s.idle) {calls : List (ℤ × Env)}
    (hrt : ∀ call ∈ calls, rtPrio call.1 = true) :
    Boosted s p (s'.rtMutexSetprios cfg p calls) := by
  induction calls generalizing s' with
  | nil => exact h
  | cons call calls ih =>
    have hcall := h.setprio cfg hp (hrt call List.mem_cons_self) call.2
    exact ih hcall fun c hc => hrt c (List.mem_cons_of_mem call hc)

/-- The whole boost, from the state before it. -/
theorem of_calls (hp : p ≠ s.idle) (hclass : (s.task p).schedClass = .wrr)
    (hmem : p ∈ s.rq.active → (s.task p).onRq = true) {calls : List (ℤ × Env)}
    (hne : calls ≠ []) (hrt : ∀ call ∈ calls, rtPrio call.1 = true) :
    Boosted s p (s.rtMutexSetprios cfg p calls) := by
  obtain ⟨call, rest, rfl⟩ := List.exists_cons_of_ne_nil hne
  have hfirst := start cfg hp hclass hmem (hrt call List.mem_cons_self) call.2
  exact hfirst.setprios cfg hp fun c hc => hrt c (List.mem_cons_of_mem call hc)

/-- The call that ends the boost: the task has been requeued, at the head if it is queued. -/
theorem undo (h : Boosted s p s') (hp : p ≠ s.idle) (hpolicy : (s.task p).policy = .wrr)
    (hclass : (s.task p).schedClass = .wrr) (hprio : (s.task p).prio = (s.task p).normalPrio)
    (hnormal : rtPrio (s.task p).normalPrio = false) (env : Env) :
    let s'' := s'.rtMutexSetprio cfg env p (s.task p).normalPrio
    s''.task =
        Function.update s.task p ((s.task p).requeued cfg s.group (s.task p).onRq) ∧
      s''.rq.active = (if (s.task p).onRq then p :: (s.rq.active.erase p).erase p
        else s.rq.active.erase p) ∧
      s''.rq.nrRunning = s.rq.nrRunning ∧ s''.rq.wrrNrRunning = s.rq.wrrNrRunning ∧
      s''.rq.totalWeight =
        s.rq.totalWeight - (s.task p).wrrShare + (s''.task p).wrrShare := by
  intro s''
  have hself := h.self
  -- the normal priority is lower than any RT priority
  have hlower : (s'.task p).prio < (s.task p).normalPrio :=
    h.prio_lt.trans_le (not_lt.mp (of_decide_eq_false hnormal))
  obtain ⟨htask, hactive, hnr, hcount, hshare⟩ :=
    s'.rtMutexSetprio_deboost cfg env (h.idle ▸ hp) (by rw [hself]) (by rw [hself]; exact hpolicy)
      hnormal hlower
  have hback : ({ s'.task p with prio := (s.task p).normalPrio, schedClass := .wrr } :
      TaskStruct) = s.task p := by
    rw [hself, ← hprio, ← hclass]
  have hon : (s'.task p).onRq = (s.task p).onRq := by rw [hself]
  rw [hback, hon, h.group] at htask
  rw [hon] at hactive
  have hcount_eq : (s''.task p).wrrCount = (s.task p).wrrCount := by
    show ((s'.rtMutexSetprio cfg env p (s.task p).normalPrio).task p).wrrCount = _
    rw [htask, Function.update_self, TaskStruct.requeued_eq]
    rfl
  refine ⟨?_, ?_, hnr.trans h.nrRunning, ?_, ?_⟩
  · show (s'.rtMutexSetprio cfg env p (s.task p).normalPrio).task = _
    rw [htask]
    funext q
    by_cases hq : q = p
    · rw [hq, Function.update_self, Function.update_self]
    · rw [Function.update_of_ne hq, Function.update_of_ne hq, h.other q hq]
  · rw [← h.active]
    exact hactive
  · refine hcount.trans ?_
    rw [h.wrrNrRunning, hcount_eq]
    exact UInt32.sub_add_cancel _ _
  · rw [← h.totalWeight]
    exact hshare

end Boosted

/-- Queueing gives a task the weight it has, unless the path of its group has changed. -/
theorem GroupWeight.requeued_weight (cfg : Config) {group : TaskGroupPtr → TaskGroup}
    {t : TaskStruct} (h : GroupWeight group t) :
    (t.requeued cfg group t.onRq).wrr.weight = t.wrr.weight := by
  unfold TaskStruct.requeued
  split
  · next hon =>
    rw [TaskStruct.enqueued_weight]
    split
    · next hwrr => exact (h hon hwrr.1 hwrr.2).symm
    · rfl
  · rfl

section Undone

variable {cfg : Config} {rule : Rule} {s : State} {p : TaskPtr}

/-- A boost of a WRR task is undone by its end, whatever RT priorities it went through. While it is
boosted, the task is out of the WRR queue with its share of the counters. Afterwards class, policy,
priority, custom weight and counters are as before, the other tasks keep their order and fields, and
the task is at the head of the queue with a full slice. Queueing gives a task without a custom weight
that of the path its group has now: weight and total weight are as before unless that path has
changed. -/
theorem boost_undone (hs : (system cfg rule).Reachable s) (hp : p ∈ s.live)
    (hpolicy : (s.task p).policy = .wrr) (hprio : (s.task p).prio = (s.task p).normalPrio)
    {calls : List (ℤ × Env)} (hne : calls ≠ []) (hrt : ∀ call ∈ calls, rtPrio call.1 = true)
    (env : Env) :
    let t := s.task p
    let boosted := s.rtMutexSetprios cfg p calls
    let s' := boosted.rtMutexSetprio cfg env p t.normalPrio
    let t' := s'.task p
    (p ∉ boosted.rq.active ∧
      boosted.rq.wrrNrRunning = s.rq.wrrNrRunning - (if t.onRq then 1 else 0) ∧
      boosted.rq.totalWeight = s.rq.totalWeight - if t.onRq then t.wrr.weight else 0) ∧
    (t'.schedClass = .wrr ∧ t'.policy = t.policy ∧ t'.prio = t.prio ∧
      t'.wrr.customWeight = t.wrr.customWeight) ∧
    (s'.rq.wrrNrRunning = s.rq.wrrNrRunning ∧ s'.rq.nrRunning = s.rq.nrRunning) ∧
    (s'.rq.active = (if t.onRq then p :: s.rq.active.erase p else s.rq.active) ∧
      ∀ q, q ≠ p → s'.task q = s.task q) ∧
    (t.onRq = true → t'.wrr.timeSlice = t'.wrr.weight * cfg.wrrWeightUnit) ∧
    (GroupWeight s.group t →
      t'.wrr.weight = t.wrr.weight ∧ s'.rq.totalWeight = s.rq.totalWeight) ∧
    (¬rule.regroup → GroupWeight s.group t) := by
  intro t boosted s' t'
  have hinv := reachable_inv hs
  have hidle : p ≠ s.idle := by
    rintro rfl
    obtain ⟨tg, c, -, htask⟩ := hinv.idle_task
    rw [htask] at hpolicy
    cases hpolicy
  obtain ⟨hnormal, hclass⟩ := (reachable_params hs hp).wrr_class hpolicy hprio
  have hmem : p ∈ s.rq.active ↔ t.onRq = true :=
    (hinv.queue.mem_iff p).trans ⟨fun h => h.1, fun h => ⟨h, hclass⟩⟩
  have hcount : t.wrrCount = if t.onRq then 1 else 0 := by
    simp [TaskStruct.wrrCount, t, hclass]
  have hshare : t.wrrShare = if t.onRq then t.wrr.weight else 0 := by
    simp [TaskStruct.wrrShare, t, hclass]
  -- the boosts keep the task off the WRR queue
  have h : Boosted s p boosted := .of_calls cfg hidle hclass hmem.mp hne hrt
  -- the last call brings it back, to the head of the queue
  obtain ⟨htask, hactive, hnr, hcount', hshare'⟩ :=
    h.undo cfg hidle hpolicy hclass hprio hnormal env
  have ht' : t' = t.requeued cfg s.group t.onRq :=
    (congrFun htask p).trans (Function.update_self _ _ _)
  have hfields := t.requeued_eq cfg s.group t.onRq
  rw [← ht'] at hfields
  have herase : p ∉ s.rq.active.erase p := hinv.queue.nodup.not_mem_erase
  refine ⟨⟨?_, ?_, ?_⟩, ⟨?_, ?_, ?_, ?_⟩, ⟨hcount', hnr⟩, ⟨?_, fun q hq => ?_⟩, fun hon => ?_,
    fun hgroup => ?_, fun hrule => reachable_groupWeight hrule hs p hp hidle⟩
  · rw [h.active]
    exact herase
  · rw [h.wrrNrRunning, hcount]
  · rw [h.totalWeight, hshare]
  · rw [hfields]
    exact hclass
  · rw [hfields]
  · rw [hfields]
  · rw [ht', TaskStruct.requeued_customWeight]
  · refine hactive.trans ?_
    rw [List.erase_of_not_mem herase]
    split
    · rfl
    · next hon => rw [List.erase_of_not_mem fun hin => hon (hmem.mp hin)]
  · exact (congrFun htask q).trans (Function.update_of_ne hq _ _)
  · rw [ht', hon, TaskStruct.requeued, if_pos rfl, TaskStruct.enqueued, if_pos hclass]
    rfl
  · -- without a change of the path the enqueue gives the weight it had
    have hweight : t'.wrr.weight = t.wrr.weight := ht' ▸ hgroup.requeued_weight cfg
    have hshare_eq : t'.wrrShare = t.wrrShare := by
      unfold TaskStruct.wrrShare
      rw [hweight, hfields]
    refine ⟨hweight, hshare'.trans ?_⟩
    show _ + t'.wrrShare = _
    rw [hshare_eq]
    exact UInt32.sub_add_cancel _ _

end Undone

namespace Small

/-- Task A is WRR, and the path of its group has become `/bg` since it was queued. -/
def movedA : State :=
  (setWrr (start [taskA]) taskA 0).next cfg (.setGroupPath 0 (group 1)) (env [] 0)

theorem movedA_reachable : (system cfg .pi).Reachable movedA :=
  reachable_next (wrrA_reachable .pi (fun _ => rfl) 0) ⟨no_worker _ _ _, trivial⟩

end Small

theorem boost_undone_twice :
    let boosted := (Small.setWrr (Small.start [Small.taskA]) Small.taskA 0).rtMutexSetprios
      Small.cfg Small.taskA [(50, Small.env [] 0), (10, Small.env [] 0)]
    boosted.rq.active = [] ∧
      (boosted.rtMutexSetprio Small.cfg (Small.env [] 0) Small.taskA 120).rq.active =
        [Small.taskA] := by
  have hs := Small.wrrA_reachable .fixedPaths trivial 0
  have hne : [((50 : ℤ), Small.env [] 0), (10, Small.env [] 0)] ≠ [] := List.cons_ne_nil _ _
  have h := boost_undone hs (p := Small.taskA) (by decide) (by decide) (by decide) hne (by decide)
    (Small.env [] 0)
  exact ⟨by decide +kernel, h.2.2.2.1.1.trans (by decide +kernel)⟩

/-- A task that was queued before its group's path changed comes back with another weight. -/
theorem boost_not_undone :
    ¬∀ s, (system Small.cfg .pi).Reachable s → ∀ p ∈ s.live, (s.task p).policy = .wrr →
      (s.task p).prio = (s.task p).normalPrio → ∀ calls ≠ [],
        (∀ call ∈ calls, rtPrio call.1 = true) → ∀ env,
          (((s.rtMutexSetprios Small.cfg p calls).rtMutexSetprio Small.cfg env p
            (s.task p).normalPrio).task p).wrr.weight = (s.task p).wrr.weight := by
  intro hall
  have h := hall Small.movedA Small.movedA_reachable Small.taskA (by decide) (by decide) (by decide)
    [(50, Small.env [] 0)] (List.cons_ne_nil _ _) (by decide) (Small.env [] 0)
  revert h
  decide +kernel

end WrrSched
