import WrrSched.Correctness.Invariant

/-!
# Policy, priority and class

Three functions choose the class of a task, and `set_user_nice` changes its priority only. Under
priority inheritance they agree: the class follows from priority and policy.

- `TaskStruct.boost_class`, `TaskStruct.setscheduler_class`, `TaskStruct.setUserNice_class`,
  `TaskStruct.schedFork_class`: when a function leaves a task in the class that is prescribed;
- `PrioOk`: what is kept about one task, priorities against normal priorities included;
- `reachable_stopClass`: only the task `rq->stop` is of the stop class;
- `sched_class_agrees`: the class of every other task follows from its priority and policy.
-/

namespace WrrSched

/-! ## One task -/

/-- The class that priority and policy of a task prescribe. -/
def TaskStruct.prescribedClass (t : TaskStruct) : SchedClass :=
  if t.prio < maxRtPrio then .rt else if t.policy = .wrr then .wrr else .fair

theorem TaskStruct.prescribedClass_cases (t : TaskStruct) :
    t.prescribedClass = .rt ∧ t.prio < maxRtPrio ∨ t.prescribedClass = .wrr ∨
      t.prescribedClass = .fair := by
  unfold prescribedClass
  split_ifs with hrt hwrr
  · exact .inl ⟨rfl, hrt⟩
  · exact .inr (.inl rfl)
  · exact .inr (.inr rfl)

/-- Both functions that change priority and policy of a task set the prescribed class. -/
theorem TaskStruct.boost_class (t : TaskStruct) (prio : ℤ) :
    (t.boost prio).schedClass = (t.boost prio).prescribedClass := by
  show (if rtPrio prio then _ else _) = _
  unfold rtPrio prescribedClass
  simp only [decide_eq_true_eq]
  rfl

theorem TaskStruct.setscheduler_class (t : TaskStruct) (policy : Policy) (prio : ℤ)
    (topWaiter : Option ℤ) :
    (t.setscheduler policy prio topWaiter).schedClass =
      (t.setscheduler policy prio topWaiter).prescribedClass := by
  unfold setscheduler setClass prescribedClass rtPrio
  simp only [decide_eq_true_eq]

theorem TaskStruct.setscheduler_normalPrio (t : TaskStruct) (policy : Policy) (prio : ℤ)
    (topWaiter : Option ℤ) :
    (t.setscheduler policy prio topWaiter).normalPrio =
      (t.setscheduler policy prio topWaiter).calcNormalPrio := by
  unfold setscheduler setClass
  dsimp only
  split_ifs <;> rfl

theorem TaskStruct.setscheduler_prio (t : TaskStruct) (policy : Policy) (prio : ℤ)
    (topWaiter : Option ℤ) :
    (t.setscheduler policy prio topWaiter).prio =
      (t.setscheduler policy prio topWaiter).rtMutexGetprio topWaiter := by
  unfold setscheduler setClass
  dsimp only
  split_ifs <;> rfl

/-- `set_user_nice` leaves the class; a priority that moves is not an RT priority before or after. -/
theorem TaskStruct.setUserNice_class (cfg : Config) (group : TaskGroupPtr → TaskGroup)
    {t : TaskStruct} (h : t.schedClass = t.prescribedClass) (nice : ℤ) :
    (t.setUserNice cfg group nice).schedClass =
      (t.setUserNice cfg group nice).prescribedClass := by
  rcases t.setUserNice_cases cfg group nice with heq | ⟨⟨hstatic, -⟩, ⟨-, heq⟩ | ⟨-, heq⟩⟩
  · rw [heq]
    exact h
  · rw [heq]
    exact h
  · rw [heq, requeued_eq]
    unfold prescribedClass at h ⊢
    -- an RT priority is kept, another one stays a nice value
    by_cases hboost : t.prio < maxRtPrio
    · simp only [rtPrio, hboost, decide_true, if_true] at h ⊢
      exact h
    · simp only [rtPrio, hboost, decide_false, if_false, Bool.false_eq_true] at h ⊢
      rw [if_neg (not_lt.mpr hstatic)]
      exact h

/-- `sched_fork` chooses the prescribed class, except that a child with an RT priority keeps the
class it was copied with. -/
theorem TaskStruct.schedFork_class (current p : TaskStruct)
    (h : (current.forked p).prio < maxRtPrio → p.schedClass = .rt) :
    (current.schedFork p).schedClass = (current.schedFork p).prescribedClass := by
  rw [schedFork_eq]
  unfold prescribedClass rtPrio
  simp only [decide_eq_true_eq]
  split_ifs with hrt
  · exact h hrt
  · rfl
  · rfl

/-- What is kept about the priorities of a task under priority inheritance. A boost only ever
raises the priority, and a task that has not run yet is not boosted. -/
structure PrioOk (t : TaskStruct) : Prop where
  prio_le : t.prio ≤ t.normalPrio
  normalPrio : t.normalPrio = t.calcNormalPrio
  staticPrio : maxRtPrio ≤ t.staticPrio
  rtPriority : t.hasRtPolicy = true → 0 < t.rtPriority
  unboosted : t.started = false → t.prio = t.normalPrio
  schedClass : t.schedClass = t.prescribedClass ∨ t.schedClass = .stop ∧ t.prio < maxRtPrio

namespace PrioOk

variable {cfg : Config} {group : TaskGroupPtr → TaskGroup} {t t' : TaskStruct}

/-- The normal priority of an RT policy is an RT priority, that of the others is not. -/
theorem normalPrio_lt_iff (h : PrioOk t) : t.normalPrio < maxRtPrio ↔ t.hasRtPolicy = true := by
  have hstatic := h.staticPrio
  rw [h.normalPrio, TaskStruct.calcNormalPrio]
  cases hrt : t.hasRtPolicy with
  | true =>
    have hpos := h.rtPriority hrt
    simp only [if_true, iff_true]
    omega
  | false =>
    simp only [Bool.false_eq_true, if_false, iff_false, not_lt]
    exact hstatic

/-- The invariant does not look at the other fields. -/
theorem congr (h : PrioOk t) (hprio : t'.prio = t.prio) (hnormal : t'.normalPrio = t.normalPrio)
    (hstatic : t'.staticPrio = t.staticPrio) (hrt : t'.rtPriority = t.rtPriority)
    (hpolicy : t'.policy = t.policy) (hclass : t'.schedClass = t.schedClass)
    (hstarted : t'.started = false → t.started = false) : PrioOk t' where
  prio_le := by rw [hprio, hnormal]; exact h.prio_le
  normalPrio := by
    rw [hnormal, TaskStruct.calcNormalPrio_congr hpolicy hrt hstatic, h.normalPrio]
  staticPrio := by rw [hstatic]; exact h.staticPrio
  rtPriority := by
    unfold TaskStruct.hasRtPolicy
    rw [hpolicy, hrt]
    exact h.rtPriority
  unboosted hst := by rw [hprio, hnormal]; exact h.unboosted (hstarted hst)
  schedClass := by
    unfold TaskStruct.prescribedClass
    rw [hclass, hprio, hpolicy]
    exact h.schedClass

theorem requeued (h : PrioOk t) (onRq : Bool) : PrioOk (t.requeued cfg group onRq) := by
  rw [TaskStruct.requeued_eq]
  exact h.congr rfl rfl rfl rfl rfl rfl id

/-- `rt_mutex_setprio` with the priority `rt_mutex_getprio` finds. -/
theorem boost (h : PrioOk t) {topWaiter : Option ℤ} (hw : Rule.Waiter t topWaiter) :
    PrioOk (t.boost (t.rtMutexGetprio topWaiter)) where
  prio_le := by
    show t.rtMutexGetprio topWaiter ≤ t.normalPrio
    unfold TaskStruct.rtMutexGetprio
    split
    · exact le_refl _
    · exact min_le_right _ _
  normalPrio := h.normalPrio
  staticPrio := h.staticPrio
  rtPriority := h.rtPriority
  unboosted hst := by
    show t.rtMutexGetprio topWaiter = t.normalPrio
    rw [hw hst]
    rfl
  schedClass := by
    exact .inl (t.boost_class _)

/-- `set_user_nice`, under which a task that is boosted stays boosted. -/
theorem setUserNice (h : PrioOk t) (nice : ℤ) : PrioOk (t.setUserNice cfg group nice) := by
  rcases t.setUserNice_cases cfg group nice with heq | ⟨⟨hstatic, -⟩, ⟨hrt, heq⟩ | ⟨hrt, heq⟩⟩
  · rw [heq]
    exact h
  · rw [heq]
    refine ⟨h.prio_le, ?_, hstatic, h.rtPriority, h.unboosted, h.schedClass⟩
    -- the nice value of an RT task does not count
    have hnormal := h.normalPrio
    rw [TaskStruct.calcNormalPrio_of_rt hrt] at hnormal
    exact hnormal.trans (.symm (TaskStruct.calcNormalPrio_of_rt hrt))
  · -- the policy is not RT, so the normal priority is not an RT priority
    have hnormal : ¬t.normalPrio < maxRtPrio := by
      rw [h.normalPrio_lt_iff, hrt]
      exact Bool.false_ne_true
    by_cases hboost : rtPrio t.prio = true
    · rw [if_pos hboost] at heq
      rw [heq]
      have hprio : t.prio < maxRtPrio := of_decide_eq_true hboost
      refine requeued ?_ t.onRq
      refine ⟨(hprio.trans_le hstatic).le, ?_, hstatic, h.rtPriority, fun hst => ?_, h.schedClass⟩
      · exact .symm (TaskStruct.calcNormalPrio_of_not_rt hrt)
      · exact absurd (h.unboosted hst ▸ hprio) hnormal
    · have hprio : ¬t.prio < maxRtPrio := fun hlt => hboost (decide_eq_true hlt)
      have hclass := TaskStruct.setUserNice_class cfg group
        (h.schedClass.resolve_right fun hstop => hprio hstop.2) nice
      rw [if_neg hboost] at heq
      rw [heq, TaskStruct.requeued_eq] at hclass
      rw [heq]
      refine requeued ?_ t.onRq
      refine ⟨le_refl _, ?_, hstatic, h.rtPriority, fun _ => rfl, .inl hclass⟩
      exact .symm (TaskStruct.calcNormalPrio_of_not_rt hrt)

/-- `__setscheduler` chooses the class last, from the priority it has stored. -/
theorem setscheduler (h : PrioOk t) {policy : Policy} {prio : ℤ} {topWaiter : Option ℤ}
    (hprio : rtPolicy policy = true → 0 < prio) (hw : Rule.Waiter t topWaiter) :
    PrioOk (t.setscheduler policy prio topWaiter) := by
  have hclass := t.setscheduler_class policy prio topWaiter
  have hstatic : (t.setscheduler policy prio topWaiter).staticPrio = t.staticPrio := by
    rw [TaskStruct.setscheduler_eq]
  have hpolicy : (t.setscheduler policy prio topWaiter).policy = policy :=
    TaskStruct.setscheduler_policy t policy prio topWaiter
  have hstarted : (t.setscheduler policy prio topWaiter).started = t.started := by
    rw [TaskStruct.setscheduler_eq]
  have hnormal := t.setscheduler_normalPrio policy prio topWaiter
  have hget := t.setscheduler_prio policy prio topWaiter
  -- the parameter is the RT priority, except for WRR where it is the weight
  have hrt : rtPolicy policy = true →
      (t.setscheduler policy prio topWaiter).rtPriority = prio.toNat := by
    intro hrt
    have hne : policy ≠ .wrr := by rintro rfl; cases hrt
    unfold TaskStruct.setscheduler TaskStruct.setClass
    dsimp only
    rw [if_pos hne]
  generalize t.setscheduler policy prio topWaiter = t' at *
  refine ⟨?_, hnormal, hstatic ▸ h.staticPrio, fun hp => ?_, fun hst => ?_, .inl hclass⟩
  · rw [hget]
    unfold TaskStruct.rtMutexGetprio
    split
    · exact le_refl _
    · exact min_le_right _ _
  · rw [TaskStruct.hasRtPolicy, hpolicy] at hp
    have hpos := hprio hp
    rw [hrt hp]
    omega
  · rw [hget, hw (hstarted ▸ hst)]
    rfl

/-- `sched_fork`: the child does not get the boost of its parent, and keeps the class it was copied
with only when the normal priority of the parent is an RT priority. -/
theorem schedFork (h : PrioOk t) (hstop : t.schedClass ≠ .stop) (mm : Bool) :
    PrioOk (t.schedFork { t with mm := mm, started := false }) := by
  have hclass := t.schedFork_class { t with mm := mm, started := false }
  by_cases hreset : t.schedResetOnFork = true
  case neg =>
    have hforked := t.forked_of_not_reset { t with mm := mm, started := false }
      (eq_false_of_ne_true hreset)
    rw [TaskStruct.schedFork_eq, hforked] at hclass ⊢
    refine ⟨le_refl _, h.normalPrio, h.staticPrio, h.rtPriority, fun _ => rfl,
      .inl (hclass fun hlt => ?_)⟩
    -- an RT normal priority is an RT priority, so the parent was in the RT class
    have hparent := h.schedClass.resolve_right fun hs => hstop hs.1
    exact hparent.trans (if_pos (h.prio_le.trans_lt hlt))
  case pos =>
    -- a child that reverts to the defaults is not an RT task
    have hforked := t.forked_of_reset { t with mm := mm, started := false } hreset
    have hstatic := TaskStruct.maxRtPrio_le_revertedStaticPrio
      { t with mm := mm, started := false }
    have hpolicy := t.revertedPolicy_not_rt
    rw [TaskStruct.schedFork_eq, hforked] at hclass ⊢
    refine ⟨le_refl _, ?_, hstatic, fun hrt => ?_, fun _ => rfl, .inl (hclass fun hlt => ?_)⟩
    · exact .symm (TaskStruct.calcNormalPrio_of_not_rt hpolicy)
    · exact absurd (hpolicy.symm.trans hrt) (by simp)
    · exact absurd hlt (not_lt.mpr hstatic)

/-- A new task of the WRR policy is not boosted, so that it is in the WRR class. -/
theorem of_unstarted_wrr (h : PrioOk t) (hst : t.started = false) (hpolicy : t.policy = .wrr) :
    t.schedClass = .wrr ∧ ¬t.prio < maxRtPrio := by
  have hprio : ¬t.prio < maxRtPrio := by
    rw [h.unboosted hst, h.normalPrio_lt_iff, TaskStruct.hasRtPolicy, hpolicy]
    exact Bool.false_ne_true
  refine ⟨?_, hprio⟩
  rw [h.schedClass.resolve_right fun hstop => hprio hstop.2, TaskStruct.prescribedClass,
    if_neg hprio, if_pos hpolicy]

theorem step (h : PrioOk t) (hs : TaskStep cfg .pi group t t') : PrioOk t' := by
  cases hs with
  | setState state hon => exact h.congr rfl rfl rfl rfl rfl rfl id
  | sleep hon hstate => exact h.congr rfl rfl rfl rfl rfl rfl id
  | wake state =>
    rw [TaskStruct.wake_eq]
    exact h.congr rfl rfl rfl rfl rfl rfl id
  | start fg hst =>
    rw [TaskStruct.start_eq]
    exact h.congr rfl rfl rfl rfl rfl rfl fun hfalse => by cases hfalse
  | tick hon hwrr =>
    rw [TaskStruct.tickWrr_eq]
    exact h.congr rfl rfl rfl rfl rfl rfl id
  | boost prio hrule =>
    -- under priority inheritance the new priority is the one `rt_mutex_getprio` finds
    obtain ⟨topWaiter, hw, rfl⟩ := hrule
    exact (h.boost hw).requeued t.onRq
  | setUserNice nice => exact h.setUserNice nice
  | setscheduler req prio topWaiter hprio hw =>
    have hset : PrioOk { t with schedResetOnFork := req.resetOnFork } :=
      h.congr rfl rfl rfl rfl rfl rfl id
    exact (hset.setscheduler (checkPriority_eq_ok hprio).2.2.1 hw).requeued t.onRq
  | move tg =>
    refine requeued ?_ t.onRq
    exact h.congr rfl rfl rfl rfl rfl rfl id
  | toStop hon hfifo =>
    -- a FIFO task has an RT priority, and keeps it in the stop class
    have hlt := h.normalPrio_lt_iff.mpr (by rw [TaskStruct.hasRtPolicy, hfifo]; rfl)
    exact ⟨h.prio_le, h.normalPrio, h.staticPrio, h.rtPriority, h.unboosted,
      .inr ⟨rfl, h.prio_le.trans_lt hlt⟩⟩
  | fromStop hon hfifo =>
    -- back in the RT class, where its RT priority belongs
    have hlt := h.normalPrio_lt_iff.mpr (by rw [TaskStruct.hasRtPolicy, hfifo]; rfl)
    refine ⟨h.prio_le, h.normalPrio, h.staticPrio, h.rtPriority, h.unboosted, .inl ?_⟩
    exact (if_pos (h.prio_le.trans_lt hlt)).symm

end PrioOk

/-! ## The stop class -/

namespace State

variable {cfg : Config} {rule : Rule} {env : Env} {s s' : State}

/-- Only `rq->stop` is of the stop class. -/
def StopClass (s : State) : Prop :=
  ∀ p, (s.task p).schedClass = .stop → s.stop = some p

/-- A change of one task that does not move it into the stop class. -/
theorem StopClass.of_update (h : s.StopClass) (hf : Frame s s') {q : TaskPtr} {t : TaskStruct}
    (htask : s'.task = Function.update s.task q t)
    (ht : t.schedClass = .stop → (s.task q).schedClass = .stop) : s'.StopClass := by
  intro p hp
  rw [hf.stop]
  rw [htask] at hp
  by_cases hpq : p = q
  · rw [hpq, Function.update_self] at hp
    rw [hpq]
    exact h q (ht hp)
  · rw [Function.update_of_ne hpq] at hp
    exact h p hp

/-- Only `sched_set_stop_task` moves a task into the stop class. -/
theorem StopClass.next (h : s.StopClass) {op : Op} (hen : s.Enabled rule op env) :
    (s.next cfg op env).StopClass := by
  obtain ⟨-, hop⟩ := hen
  cases op with
  | schedFork child mm =>
    intro p hp
    show s.stop = some p
    replace hp : (Function.update s.task child _ p).schedClass = .stop := hp
    by_cases hpc : p = child
    · rw [hpc, Function.update_self, TaskStruct.schedFork_eq] at hp
      dsimp only at hp
      split_ifs at hp
      exact absurd hp hop.2
    · rw [Function.update_of_ne hpc] at hp
      exact h p hp
  | wakeUpNewTask q =>
    refine h.of_update (s.wakeUpNewTask_frame cfg env q) (s.wakeUpNewTask_task cfg env q) ?_
    rw [TaskStruct.start_eq]
    exact id
  | setCurrentState state =>
    let f (t : TaskStruct) : TaskStruct := { t with state := state }
    exact h.of_update (s.modifyTask_frame s.curr f) (s.modifyTask_task s.curr f) id
  | schedule =>
    intro p hp
    rw [State.next, (s.schedule_spec cfg env).2.2.2.2.2.2.1]
    rw [State.next, s.schedule_task_eq cfg env] at hp
    exact h p hp
  | schedulerTick =>
    have htask := s.schedulerTick_task cfg env
    split at htask
    · refine h.of_update (s.schedulerTick_frame cfg env) htask ?_
      rw [TaskStruct.tickWrr_eq]
      exact id
    · intro p hp
      rw [State.next, (s.schedulerTick_frame cfg env).stop]
      rw [State.next, htask] at hp
      exact h p hp
  | schedYield =>
    intro p hp
    rw [State.next, schedYield, (s.classYieldTask.schedule_spec cfg env).2.2.2.2.2.2.1,
      s.classYieldTask_frame.stop]
    rw [State.next, schedYield, s.classYieldTask.schedule_task_eq cfg env,
      s.classYieldTask_task] at hp
    exact h p hp
  | tryToWakeUp q state =>
    refine h.of_update (s.tryToWakeUp_frame cfg env q state) (s.tryToWakeUp_task cfg env q state) ?_
    rw [TaskStruct.wake_eq]
    exact id
  | rtMutexSetprio q prio =>
    refine h.of_update (s.rtMutexSetprio_frame cfg env q prio)
      (s.rtMutexSetprio_task cfg env hop.1.2 prio) fun hstop => ?_
    rw [TaskStruct.requeued_eq] at hstop
    exact absurd hstop ((s.task q).setClass_ne_stop prio)
  | setUserNice q nice =>
    refine h.of_update (s.setUserNice_frame cfg env q nice) (s.setUserNice_task cfg env q nice) ?_
    rw [TaskStruct.setUserNice_eq]
    exact id
  | schedSetscheduler q policy prio user c topWaiter =>
    unfold State.next
    dsimp only
    rcases schedSetscheduler_cases cfg env s q policy prio user c topWaiter with
      hr | ⟨req, -, -, -, hr⟩
    · rw [hr]
      exact h
    · rw [hr]
      refine h.of_update (s.setschedulerCommit_frame cfg env q req prio topWaiter)
        (s.setschedulerCommit_task cfg env q req prio topWaiter) fun hstop => ?_
      rw [TaskStruct.requeued_eq] at hstop
      exact absurd hstop (TaskStruct.setscheduler_class_ne_stop _ _ _ topWaiter)
  | schedMoveTask q tg =>
    refine h.of_update (s.schedMoveTask_frame cfg env q tg) (s.schedMoveTask_task cfg env q tg) ?_
    rw [TaskStruct.requeued_eq]
    exact id
  | schedSetStopTask stop c topWaiter =>
    obtain ⟨-, -, -, hstop, -, -, -, hother, -, hold⟩ :=
      s.schedSetStopTask_spec cfg env stop c topWaiter
    intro p hp
    rw [State.next, hstop]
    rw [State.next] at hp
    -- the task is not the new stop task: the old one has left the class, the others are untouched
    by_contra hne
    by_cases hs : s.stop = some p
    · rw [hold p hs] at hp
      cases hp
    · rw [hother p hne hs] at hp
      exact hs (h p hp)
  | initIdleBootupTask =>
    let f (t : TaskStruct) : TaskStruct := { t with schedClass := .idle }
    refine h.of_update (s.modifyTask_frame s.idle f) (s.modifyTask_task s.idle f) fun hstop => ?_
    cases hstop
  | setGroupPath tg group => exact h
  | reschedTask => exact h

end State

/-! ## Reachable states -/

section Reachable

variable {cfg : Config} {s : State}

/-- Only `rq->stop` is of the stop class, under any rule. -/
theorem reachable_stopClass {rule : Rule} (hs : (system cfg rule).Reachable s) : s.StopClass := by
  refine hs.invariant ?_ fun s i h hi => h.next hi
  rintro s ⟨idle, tg, group, clockTask, rfl⟩ p hp
  cases hp

theorem reachable_prioOk (hs : (system cfg .pi).Reachable s) :
    ∀ p ∈ s.live, p ≠ s.idle → PrioOk (s.task p) := by
  refine forall_task (I := fun _ t => PrioOk t) (fun g t mm hidle => ?_)
    (fun g t mm h hstop => h.schedFork hstop mm) (fun _ g g' t h => h)
    (fun g t t' h hstep => h.step hstep) hs
  obtain ⟨tg, c, hc, rfl⟩ := hidle
  -- the idle task has the parameters of a normal task, whatever its class
  rw [TaskStruct.schedFork_eq]
  refine ⟨?_, rfl, ?_, fun hrt => ?_, fun _ => rfl, .inl rfl⟩
  · show maxPrio - 20 ≤ maxPrio - 20
    exact le_refl _
  · show maxRtPrio ≤ maxPrio - 20
    decide
  · cases hrt

/-- The class of a task other than the idle and stop tasks follows from priority and policy. -/
theorem class_eq_prescribedClass (hs : (system cfg .pi).Reachable s) {p : TaskPtr}
    (hp : p ∈ s.live) (hidle : p ≠ s.idle) (hstop : s.stop ≠ some p) :
    (s.task p).schedClass = (s.task p).prescribedClass :=
  (reachable_prioOk hs p hp hidle).schedClass.resolve_right fun h =>
    hstop (reachable_stopClass hs p h.1)

/-- The scheduling class agrees with policy and priority. In particular a task forked by a WRR task,
boosted or not, starts in the WRR class without an RT priority, and a new task whose policy is WRR
is in the WRR class when `wake_up_new_task` looks. -/
theorem sched_class_agrees (hs : (system cfg .pi).Reachable s) :
    (∀ p ∈ s.live, p ≠ s.idle → s.stop ≠ some p →
      (s.task p).schedClass = (s.task p).prescribedClass ∧
        ((s.task p).normalPrio < maxRtPrio → (s.task p).prio < maxRtPrio)) ∧
      (∀ child mm env, s.Enabled .pi (.schedFork child mm) env →
        (s.task s.curr).policy = .wrr →
          ((s.schedFork env child mm).task child).policy = .wrr ∧
          ((s.schedFork env child mm).task child).schedClass = .wrr ∧
          ¬((s.schedFork env child mm).task child).prio < maxRtPrio) ∧
      ∀ p env, s.Enabled .pi (.wakeUpNewTask p) env →
        ((s.wrrSetWeight cfg p).task p).schedClassMismatch = false := by
  have hinv := reachable_inv hs
  refine ⟨fun p hp hidle hstop => ⟨class_eq_prescribedClass hs hp hidle hstop, fun hlt => ?_⟩,
    fun child mm env hen hpolicy => ?_, fun p env hen => ?_⟩
  · exact (reachable_prioOk hs p hp hidle).prio_le.trans_lt hlt
  · -- the idle task has the normal policy
    have hcurr : s.curr ≠ s.idle := by
      intro heq
      obtain ⟨tg, c, -, ht⟩ := hinv.idle_task
      rw [heq, ht] at hpolicy
      cases hpolicy
    have hchild := (reachable_prioOk hs s.curr hinv.curr_live hcurr).schedFork hen.2.2 mm
    have htask : (s.schedFork env child mm).task child = (s.task s.curr).schedFork
        { s.task s.curr with mm := mm, started := false } := Function.update_self _ _ _
    have hwrr : ((s.task s.curr).schedFork
        { s.task s.curr with mm := mm, started := false }).policy = .wrr :=
      (s.task s.curr).schedFork_policy_of_wrr hpolicy
    rw [htask]
    exact ⟨hwrr, hchild.of_unstarted_wrr ((s.task s.curr).schedFork_started _ rfl) hwrr⟩
  · obtain ⟨⟨hlive, hidle⟩, hst⟩ := hen.2
    have hp := reachable_prioOk hs p hlive hidle
    rw [s.wrrSetWeight_task, Function.update_self, TaskStruct.wrrSetWeight_eq,
      TaskStruct.schedClassMismatch, decide_eq_false_iff_not]
    rintro ⟨hpolicy, hclass⟩
    exact hclass (hp.of_unstarted_wrr hst hpolicy).1

/-- A WRR task runs, is boosted into the RT class by a waiter and forks. -/
theorem sched_class_agrees_boosted :
    let s := Small.runA.next Small.cfg (.rtMutexSetprio Small.taskA 50) (Small.env [] 0)
    s.curr = Small.taskA ∧ (s.task Small.taskA).schedClass = .rt ∧
      ((s.schedFork (Small.env [] 0) Small.taskB true).task Small.taskB).schedClass = .wrr := by
  intro s
  have hboost : Small.runA.Enabled .pi (.rtMutexSetprio Small.taskA 50) (Small.env [] 0) :=
    ⟨Small.no_worker _ _ _, ⟨by decide, by decide⟩, by decide, by decide, some 50,
      fun hst => absurd hst (by decide), by decide⟩
  have hs : (system Small.cfg .pi).Reachable s :=
    reachable_next (Small.runA_reachable .pi fun _ => rfl) hboost
  obtain ⟨hclass, hfork, -⟩ := sched_class_agrees hs
  have hen : s.Enabled .pi (.schedFork Small.taskB true) (Small.env [] 0) :=
    ⟨Small.no_worker _ _ _, by decide, by decide⟩
  refine ⟨by decide, ?_, (hfork _ _ _ hen (by decide)).2.1⟩
  rw [(hclass Small.taskA (by decide) (by decide) (by decide)).1]
  decide

end Reachable

end WrrSched
