import WrrSched.Correctness.RtOrder

/-!
# The RT class behind the scheduler core

The scheduling classes of `Model/Class` know the RT class by what `Env` says of it. Here the hooks
of `Model/RtClass` take that place. What each of them does to the scheduler core is what the hook of
`Model/Class` does in an environment that says what the RT queues say. Only the time accounts of RT
tasks are kept by the RT class alone.

- `Env.SameButRt`, `State.SameButSe`: what the two levels may differ in;
- `rtSystem_hooks`: the hooks of the RT class are those of `Model/Class`.
-/

namespace WrrSched

/-- The environment in which the RT class answers as given. It picks a queued task of its own only. -/
def Env.withRt (env : Env) (exceeded sliceExpired : Bool) (pick : Option TaskPtr) : Env :=
  { env with
    rtExceeded := exceeded
    rtSliceExpired := sliceExpired
    pickRt := fun s => pick.filter fun p => (s.task p).onRq && decide ((s.task p).schedClass = .rt)
    pickRt_queued := fun s p h => by
      have hp := (Option.filter_eq_some_iff.mp h).2
      simpa using hp }

/-- The environments differ at most in what the RT class says. -/
def Env.SameButRt (env env' : Env) : Prop :=
  ∃ exceeded sliceExpired pick, env' = env.withRt exceeded sliceExpired pick

/-- The states differ at most in the time accounts of the tasks. -/
def State.SameButSe (s s' : State) : Prop :=
  ∃ se, s' = { s with se := se }

namespace State

/-- Marking the running task twice. -/
theorem reschedCurr_reschedCurr (s : State) (b b' : Bool) :
    (s.reschedCurr b).reschedCurr b' = s.reschedCurr (b || b') := by
  simp only [reschedCurr, setNeedResched]
  congr 1
  funext q
  rw [Bool.or_assoc, Bool.and_or_distrib_right]
  rfl

/-- Nothing is marked. -/
theorem setNeedResched_false (s : State) (p : TaskPtr) : s.setNeedResched p false = s := by
  simp [setNeedResched]

/-- Neither is the running task. -/
theorem reschedCurr_false (s : State) : s.reschedCurr false = s :=
  s.setNeedResched_false s.curr

/-- The clock does not touch the tasks. -/
theorem task_updateRqClock (s : State) (delta : UInt64) :
    (s.updateRqClock delta).task = s.task := by
  unfold updateRqClock
  split_ifs <;> rfl

end State

namespace RtState

variable (s : RtState) (g : RtGroup) (e : RtEntity) (head : Bool)

/-- `update_rq_clock` in the scheduler core. -/
def updateRqClock (delta : UInt64) : RtState :=
  s.modifyCore fun c => c.updateRqClock delta

/-! ## The queues leave the core alone -/

/-- A fold of steps that each leave the core alone leaves it alone. -/
theorem core_foldl {α : Type*} {f : RtState → α → RtState} (hf : ∀ s a, (f s a).core = s.core)
    (l : List α) : (l.foldl f s).core = s.core := by
  induction l generalizing s with
  | nil => rfl
  | cons a l ih => rw [List.foldl_cons, ih, hf]

@[simp] theorem core_modifyRtRq (f : RtRq → RtRq) : (s.modifyRtRq g f).core = s.core := rfl

@[simp] theorem core_warnOn (b : Bool) : (s.warnOn b).core = s.core := rfl

@[simp] theorem core_bugOn (b : Bool) : (s.bugOn b).core = s.core := rfl

@[simp] theorem core_startRtBandwidth : (s.startRtBandwidth g).core = s.core := by
  unfold startRtBandwidth
  split_ifs <;> rfl

@[simp] theorem core_incRtGroup : (s.incRtGroup e g).core = s.core := by
  simp only [incRtGroup, core_startRtBandwidth]
  split_ifs <;> rfl

@[simp] theorem core_incRtTasks : (s.incRtTasks e g).core = s.core := by
  simp only [incRtTasks, incRtPrio, core_incRtGroup, core_modifyRtRq, core_warnOn]

@[simp] theorem core_decRtPrio (prio : ℤ) : (s.decRtPrio g prio).core = s.core := by
  unfold decRtPrio
  simp only
  split_ifs <;> rfl

@[simp] theorem core_decRtGroup : (s.decRtGroup e g).core = s.core := by
  simp only [decRtGroup, core_warnOn]
  split_ifs <;> rfl

@[simp] theorem core_decRtTasks : (s.decRtTasks e g).core = s.core := by
  simp only [decRtTasks, core_decRtGroup, core_decRtPrio, core_modifyRtRq, core_warnOn]

@[simp] theorem core_listAddLeafRtRq : (s.listAddLeafRtRq g).core = s.core := by
  unfold listAddLeafRtRq
  split_ifs <;> rfl

@[simp] theorem core_listDelLeafRtRq : (s.listDelLeafRtRq g).core = s.core := by
  unfold listDelLeafRtRq
  split_ifs <;> rfl

@[simp] theorem core_enqueueRtEntityOne : (s.enqueueRtEntityOne e head).core = s.core := by
  unfold enqueueRtEntityOne
  simp only
  split_ifs
  · rfl
  · rw [core_incRtTasks, core_modifyRtRq, core_listAddLeafRtRq]

@[simp] theorem core_dequeueRtEntityOne : (s.dequeueRtEntityOne e).core = s.core := by
  simp only [dequeueRtEntityOne, core_listDelLeafRtRq, core_decRtTasks, core_modifyRtRq]

@[simp] theorem core_dequeueRtStack : (s.dequeueRtStack e).core = s.core := by
  refine core_foldl s (fun t a => ?_) _
  unfold dequeueIfOnRtRq
  split_ifs <;> simp

@[simp] theorem core_enqueueRtEntity : (s.enqueueRtEntity e head).core = s.core := by
  rw [enqueueRtEntity, core_foldl _ fun t a => core_enqueueRtEntityOne t a head,
    core_dequeueRtStack]

@[simp] theorem core_dequeueRtEntity : (s.dequeueRtEntity e).core = s.core := by
  rw [dequeueRtEntity, core_foldl, core_dequeueRtStack]
  intro t a
  unfold enqueueIfRunning
  split
  · rfl
  · split_ifs <;> simp

@[simp] theorem core_requeueTaskRt (p : TaskPtr) : (s.requeueTaskRt p head).core = s.core := by
  refine core_foldl s (fun t a => ?_) _
  unfold requeueRtEntity
  split_ifs <;> rfl

@[simp] theorem core_schedRtRqDequeue : (s.schedRtRqDequeue g).core = s.core := by
  unfold schedRtRqDequeue
  split
  · rfl
  · split_ifs <;> simp

/-! ## Charging -/

@[simp] theorem core_schedRtRuntimeExceeded : (s.schedRtRuntimeExceeded g).2.core = s.core := by
  unfold schedRtRuntimeExceeded
  simp only
  split_ifs <;> simp

/-- A charge marks the running task, or does nothing to the core. -/
theorem core_chargeRtRq (delta : UInt64) :
    ∃ b, (chargeRtRq delta s g).core = s.core.reschedCurr b := by
  unfold chargeRtRq
  split_ifs
  · exact ⟨false, s.core.reschedCurr_false.symm⟩
  · exact ⟨_, congrArg (State.reschedCurr · _) (core_schedRtRuntimeExceeded _ g)⟩

/-- So does a charge of several groups. -/
theorem core_foldl_chargeRtRq (delta : UInt64) (l : List RtGroup) :
    ∃ b, (l.foldl (chargeRtRq delta) s).core = s.core.reschedCurr b := by
  induction l generalizing s with
  | nil => exact ⟨false, s.core.reschedCurr_false.symm⟩
  | cons g l ih =>
    obtain ⟨b, hb⟩ := core_chargeRtRq s g delta
    obtain ⟨b', hb'⟩ := ih (chargeRtRq delta s g)
    exact ⟨b || b', by rw [List.foldl_cons, hb', hb, State.reschedCurr_reschedCurr]⟩

/-- What `update_curr_rt` does to the core. -/
theorem core_updateCurrRt : ∃ exceeded se, s.updateCurrRt.core =
    { s.core.reschedCurr (decide ((s.core.task s.core.curr).schedClass = .rt) && exceeded) with
      se := se } := by
  have hnone (b : Bool) : s.core.reschedCurr (b && false) = s.core := by
    rw [Bool.and_false, State.reschedCurr_false]
  unfold updateCurrRt
  simp only
  split_ifs with hrt henabled
  · exact ⟨false, s.core.se, by rw [hnone]⟩
  · exact ⟨false, _, by rw [hnone]; rfl⟩
  · rw [ne_eq, not_not] at hrt
    obtain ⟨b, hb⟩ := core_foldl_chargeRtRq (s.modifyCore fun c => { c with
      se := Function.update c.se s.core.curr
        { execStart := c.clockTask
          sumExecRuntime := (c.se s.core.curr).sumExecRuntime + s.deltaExec } }) s.deltaExec
      ((s.forEachSchedRtEntity (.task s.core.curr)).map s.rtRqOfSe)
    simp only [hrt, decide_true, Bool.true_and]
    exact ⟨b, _, hb⟩

/-- What `task_tick_rt` does to the core after that. -/
theorem core_taskTickRt (cfg : Config) (p : TaskPtr) : ∃ expired,
    (taskTickRt cfg s p).core = s.updateCurrRt.core.setNeedResched p expired := by
  have hnone := (s.updateCurrRt.core.setNeedResched_false p).symm
  unfold taskTickRt
  simp only
  split_ifs
  · exact ⟨false, hnone⟩
  · exact ⟨false, hnone⟩
  · exact ⟨true, congrArg (State.setNeedResched · p true) (core_requeueTaskRt _ _ _)⟩
  · exact ⟨false, hnone⟩

/-! ## Picking -/

/-- The loop of `_pick_next_task_rt` reads only. -/
theorem core_pickLoop (n : ℕ) : (pickLoop n s g).2.core = s.core := by
  induction n generalizing s g with
  | zero => rfl
  | succ n ih =>
    have hcore : (s.pickNextRtEntity g).2.core = s.core := rfl
    rw [pickLoop]
    split <;> rename_i heq <;> rw [heq] at hcore
    · exact hcore
    · exact hcore
    · exact (ih _ _).trans hcore

/-- `pick_next_task_rt` starts an interval of the task it returns. -/
theorem core_pickNextTaskRt : s.core.SameButSe s.pickNextTaskRt.2.core := by
  have hloop := core_pickLoop s [] s.taskGroups.length
  unfold pickNextTaskRt
  split_ifs
  · exact ⟨_, rfl⟩
  · exact ⟨_, rfl⟩
  · split
    · next p t heq =>
      rw [heq] at hloop
      have hcore : t.core = s.core := hloop
      exact ⟨_, by rw [← hcore]; rfl⟩
    · next t heq =>
      rw [heq] at hloop
      exact ⟨_, hloop⟩

/-! ## Timers -/

/-- The first half of `do_sched_rt_period_timer` may ask for a clock update. -/
theorem core_refillRtRq (overrun : ℕ) :
    ∃ k, (s.refillRtRq g overrun).2.2.core = { s.core with skipClockUpdate := k } := by
  unfold refillRtRq
  simp only
  split_ifs <;> exact ⟨_, rfl⟩

/-- The group goes on the queue of its parent. -/
@[simp] theorem core_linkGroup : (s.linkGroup g).core = s.core := by
  unfold linkGroup
  split
  · rfl
  · split_ifs <;> simp

/-- The second half may mark the running task. -/
theorem core_schedRtRqEnqueue : ∃ b, (s.schedRtRqEnqueue g).core = s.core.reschedCurr b := by
  rw [schedRtRqEnqueue_eq]
  split_ifs
  · exact ⟨_, congrArg (State.reschedCurr · _) (core_linkGroup s g)⟩
  · exact ⟨false, s.core.reschedCurr_false.symm⟩

/-- One round of the loop of `sched_rt_period_timer`. -/
theorem core_doSchedRtPeriodTimer (overrun : ℕ) : ∃ b k,
    (s.doSchedRtPeriodTimer g overrun).2.core =
      { s.core.reschedCurr b with skipClockUpdate := k } := by
  obtain ⟨k, hk⟩ := core_refillRtRq s g overrun
  have hsecond : ∃ b, (s.doSchedRtPeriodTimer g overrun).2.core =
      (s.refillRtRq g overrun).2.2.core.reschedCurr b := by
    have henqueue := core_schedRtRqEnqueue (s.refillRtRq g overrun).2.2 g
    have hnone := (s.refillRtRq g overrun).2.2.core.reschedCurr_false.symm
    unfold doSchedRtPeriodTimer
    simp only
    split_ifs
    exacts [henqueue, henqueue, ⟨false, hnone⟩, ⟨false, hnone⟩]
  obtain ⟨b, hb⟩ := hsecond
  exact ⟨b, k, by rw [hb, hk]; rfl⟩

/-- What the period timer does to the core: it may mark the running task, and ask for a clock
update. -/
theorem core_schedRtPeriodTimer (overruns : List ℕ) : ∃ b k,
    (s.schedRtPeriodTimer g overruns).core = { s.core.reschedCurr b with skipClockUpdate := k } := by
  suffices hloop : ∀ idle, ∃ b k, (periodTimerLoop g overruns idle s).2.core =
      { s.core.reschedCurr b with skipClockUpdate := k } from hloop false
  intro idle
  induction overruns generalizing s idle with
  | nil =>
    exact ⟨false, s.core.skipClockUpdate, by rw [State.reschedCurr_false]; rfl⟩
  | cons overrun overruns ih =>
    obtain ⟨b, k, hk⟩ := core_doSchedRtPeriodTimer s g overrun
    obtain ⟨b', k', hk'⟩ := ih (s.doSchedRtPeriodTimer g overrun).2
      (s.doSchedRtPeriodTimer g overrun).1
    refine ⟨b || b', k', ?_⟩
    rw [periodTimerLoop, hk', hk, ← State.reschedCurr_reschedCurr]
    rfl

end RtState

/-! ## The hooks -/

open RtState

variable {cfg : Config} {s : RtState}

/-- The hooks of `Model/Class` for the RT class, in an environment that says what the RT queues say,
are the hooks of the RT class. The period timer, which `Model/System` leaves to the rest of the
kernel, marks the running task or does not. -/
structure RtHooks (cfg : Config) (env : Env) (s : RtState) : Prop where
  /-- `enqueue_task`. -/
  enqueueTask : ∀ p flags n, (s.core.task p).schedClass = .rt →
    ((s.updateRqClock (env.clockDelta n)).enqueueTaskRt p flags).core =
      s.core.enqueueTask cfg env p flags n
  /-- `dequeue_task`. -/
  dequeueTask : ∀ p n, (s.core.task p).schedClass = .rt → ∃ env', env.SameButRt env' ∧
    (s.core.dequeueTask env' p n).SameButSe
      ((s.updateRqClock (env.clockDelta n)).dequeueTaskRt p).core
  /-- `yield_task`. -/
  yieldTask : (s.core.task s.core.curr).schedClass = .rt →
    s.yieldTaskRt.core = s.core.classYieldTask
  /-- `pick_next_task`, when the tasks on the RT queues are on the run queue. -/
  pickNextTask : (∀ p, s.onRtRq (.task p) = true → (s.core.task p).onRq = true) →
    ∃ env', env.SameButRt env' ∧ (s.core.classPickNextTask env' .rt).1 = s.pickNextTaskRt.1 ∧
      (s.core.classPickNextTask env' .rt).2.SameButSe s.pickNextTaskRt.2.core
  /-- `put_prev_task`. -/
  putPrevTask : (s.core.task s.core.curr).schedClass = .rt → ∃ env', env.SameButRt env' ∧
    (s.core.classPutPrevTask env' s.core.curr).SameButSe s.updateCurrRt.core
  /-- `set_curr_task`. -/
  setCurrTask : (s.core.task s.core.curr).schedClass = .rt →
    (s.core.setCurrTask s.core.curr).SameButSe s.setCurrTaskRt.core
  /-- `task_tick`. -/
  taskTick : (s.core.task s.core.curr).schedClass = .rt → ∃ env', env.SameButRt env' ∧
    (s.core.taskTick cfg env' s.core.curr).SameButSe (taskTickRt cfg s s.core.curr).core
  /-- `sched_rt_period_timer`. -/
  schedRtPeriodTimer : ∀ g overruns, ∃ b k, (s.schedRtPeriodTimer g overruns).core =
    { s.core.reschedCurr b with skipClockUpdate := k }

/-- In every reachable state the RT class does to the scheduler core what `Model/Class` says of
it. -/
theorem rtSystem_hooks (h : (rtSystem cfg).Reachable s) (env : Env) : RtHooks cfg env s where
  enqueueTask p flags n hp := by
    rw [State.enqueueTask, State.task_updateRqClock, hp]
    exact congrArg State.incNrRunning (core_enqueueRtEntity _ _ _)
  dequeueTask p n hp := by
    obtain ⟨exceeded, se, hcore⟩ := core_updateCurrRt (s.updateRqClock (env.clockDelta n))
    refine ⟨env.withRt exceeded false none, ⟨_, _, _, rfl⟩, se, ?_⟩
    rw [State.dequeueTask, State.task_updateRqClock, hp]
    have hqueue := (core_dequeueRtEntity (s.updateRqClock (env.clockDelta n)).updateCurrRt
      (.task p)).trans hcore
    exact congrArg State.decNrRunning hqueue
  yieldTask hcurr := by
    rw [State.classYieldTask, hcurr]
    exact core_requeueTaskRt s _ _
  pickNextTask hon := by
    obtain ⟨-, hpick⟩ := rtSystem_pick h
    refine ⟨env.withRt false false s.pickNextTaskRt.1, ⟨_, _, _, rfl⟩, ?_,
      core_pickNextTaskRt s⟩
    -- the filter of the environment lets the task through
    cases hpicked : s.pickNextTaskRt.1 with
    | none => rfl
    | some p =>
      obtain ⟨hel, -, hclass, -⟩ := hpick p hpicked
      have hown : ((s.core.task p).onRq && decide ((s.core.task p).schedClass = .rt)) = true := by
        rw [hon p hel.1, hclass]
        rfl
      exact if_pos hown
  putPrevTask hcurr := by
    obtain ⟨exceeded, se, hcore⟩ := core_updateCurrRt s
    refine ⟨env.withRt exceeded false none, ⟨_, _, _, rfl⟩, se, ?_⟩
    rw [State.classPutPrevTask, hcurr]
    exact hcore
  setCurrTask hcurr := by
    rw [State.setCurrTask, hcurr]
    exact ⟨_, rfl⟩
  taskTick hcurr := by
    obtain ⟨exceeded, se, hcore⟩ := core_updateCurrRt s
    obtain ⟨expired, htick⟩ := core_taskTickRt s cfg s.core.curr
    refine ⟨env.withRt exceeded expired none, ⟨_, _, _, rfl⟩, se, ?_⟩
    rw [State.taskTick, hcurr]
    exact htick.trans (congrArg (State.setNeedResched · s.core.curr expired) hcore)
  schedRtPeriodTimer g overruns := core_schedRtPeriodTimer s g overruns

end WrrSched
