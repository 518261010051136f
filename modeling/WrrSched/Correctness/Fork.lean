import WrrSched.Correctness.Order
import WrrSched.Correctness.Params

/-!
# Reset on fork

`sched_fork` reverts the policy of a child to the default if its parent has the flag to reset on
fork, but it knows of the RT policies only: a WRR parent has a WRR child.

- `Demoted`: a task of the fair class, unless it is boosted;
- `descent`: the runs after a fork in which nobody calls `__sched_setscheduler` for a descendant;
- `fork_demotes_iff`: the reset demotes child and descendants exactly if the parent is not WRR.
-/

namespace WrrSched

/-! ## Demoted tasks -/

/-- The policy is not above `SCHED_NORMAL`, and the class is the fair one unless the task is
boosted. -/
structure Demoted (t : TaskStruct) : Prop where
  params : ParamsOk t
  hasRtPolicy : t.hasRtPolicy = false
  policy_ne : t.policy ≠ .wrr
  schedClass : t.schedClass = t.prescribedClass

namespace Demoted

variable {cfg : Config} {rule : Rule} {group : TaskGroupPtr → TaskGroup} {t t' : TaskStruct}

theorem class_fair (h : Demoted t) (hprio : rtPrio t.prio = false) : t.schedClass = .fair := by
  rw [h.schedClass, TaskStruct.prescribedClass, if_neg (of_decide_eq_false hprio),
    if_neg h.policy_ne]

/-- Nothing but `__setscheduler` promotes a task. -/
theorem step (h : Demoted t) (hrule : ∀ t w, ¬rule.topWaiter t w)
    (hs : TaskStep cfg rule group t t') : Demoted t' := by
  have hpolicy := (hs.keepsPolicy hrule).1
  refine ⟨h.params.step hs, ?_, by rw [hpolicy]; exact h.policy_ne, ?_⟩
  · rw [TaskStruct.hasRtPolicy, hpolicy]
    exact h.hasRtPolicy
  have hclass := h.schedClass
  -- the stop task has an RT policy
  have hfifo : t.policy ≠ .fifo := by
    intro hp
    have hrt := h.hasRtPolicy
    rw [TaskStruct.hasRtPolicy, hp] at hrt
    cases hrt
  cases hs with
  | setState state hon => exact hclass
  | sleep hon hstate => exact hclass
  | wake state =>
    rw [TaskStruct.wake_eq]
    exact hclass
  | start fg hst =>
    rw [TaskStruct.start_eq]
    exact hclass
  | tick hon hwrr =>
    rw [TaskStruct.tickWrr_eq]
    exact hclass
  | boost prio _ =>
    rw [TaskStruct.requeued_eq]
    exact t.boost_class prio
  | setUserNice nice => exact TaskStruct.setUserNice_class cfg group hclass nice
  | setscheduler req prio topWaiter _ hw => exact absurd hw (hrule t topWaiter)
  | move tg =>
    rw [TaskStruct.requeued_eq]
    exact hclass
  | toStop hon hp => exact absurd hp hfifo
  | fromStop hon hp => exact absurd hp hfifo

end Demoted

/-! ## Children -/

section Child

variable {t : TaskStruct} (mm : Bool)

/-- A child whose parent has the flag to reset, or no RT policy, starts with a nice value. -/
theorem ParamsOk.schedFork_prio (h : ParamsOk t)
    (hparent : t.schedResetOnFork = true ∨ t.hasRtPolicy = false) :
    rtPrio (t.schedFork { t with mm := mm, started := false }).prio = false := by
  apply decide_eq_false
  rw [TaskStruct.schedFork_eq, not_lt]
  by_cases hreset : t.schedResetOnFork = true
  · rw [t.forked_of_reset { t with mm := mm, started := false } hreset]
    exact TaskStruct.maxRtPrio_le_revertedStaticPrio _
  · rw [t.forked_of_not_reset { t with mm := mm, started := false } (eq_false_of_ne_true hreset)]
    show maxRtPrio ≤ t.normalPrio
    rw [h.normalPrio_eq (hparent.resolve_left hreset)]
    exact h.staticPrio.1

/-- The class of such a child follows from its policy. -/
theorem ParamsOk.schedFork_class (h : ParamsOk t)
    (hparent : t.schedResetOnFork = true ∨ t.hasRtPolicy = false) :
    (t.schedFork { t with mm := mm, started := false }).schedClass =
      (t.schedFork { t with mm := mm, started := false }).prescribedClass := by
  have hprio := of_decide_eq_false (h.schedFork_prio mm hparent)
  rw [TaskStruct.schedFork_eq] at hprio
  exact t.schedFork_class _ fun hlt => absurd hlt hprio

/-- A child is demoted if its parent has a policy of the fair class, or reverts an RT policy. -/
theorem ParamsOk.schedFork_demoted (h : ParamsOk t) (hwrr : t.policy ≠ .wrr)
    (hparent : t.schedResetOnFork = true ∨ t.hasRtPolicy = false) :
    Demoted (t.schedFork { t with mm := mm, started := false }) := by
  have hpolicy : (t.schedFork { t with mm := mm, started := false }).policy =
      if t.hasRtPolicy then .normal else t.policy := by
    rw [TaskStruct.schedFork_eq]
    by_cases hreset : t.schedResetOnFork = true
    · rw [t.forked_of_reset { t with mm := mm, started := false } hreset]
      rfl
    · rw [t.forked_of_not_reset { t with mm := mm, started := false } (eq_false_of_ne_true hreset),
        hparent.resolve_left hreset]
      rfl
  refine ⟨h.schedFork mm, ?_, ?_, h.schedFork_class mm hparent⟩
  · rw [TaskStruct.hasRtPolicy, hpolicy]
    exact t.revertedPolicy_not_rt
  · rw [hpolicy]
    split
    · simp
    · exact hwrr

/-- The children of a demoted task are demoted. -/
theorem Demoted.schedFork (h : Demoted t) :
    Demoted (t.schedFork { t with mm := mm, started := false }) :=
  h.params.schedFork_demoted mm h.policy_ne (.inr h.hasRtPolicy)

/-- What a reset does to the nice value. -/
theorem TaskStruct.schedFork_nice (hreset : t.schedResetOnFork = true) :
    let child := t.schedFork { t with mm := mm, started := false }
    child.schedResetOnFork = false ∧ 0 ≤ child.nice ∧
      (t.hasRtPolicy = false → 0 ≤ t.nice → child.nice = t.nice) := by
  intro child
  let copy : TaskStruct := { t with mm := mm, started := false }
  have hbound := copy.le_revertedStaticPrio
  have hchild : child.schedResetOnFork = false ∧ child.staticPrio = copy.revertedStaticPrio := by
    unfold child
    rw [TaskStruct.schedFork_eq, t.forked_of_reset copy hreset]
    exact ⟨rfl, rfl⟩
  refine ⟨hchild.1, ?_, fun hrt hnice => ?_⟩
  · rw [TaskStruct.nice, hchild.2, prioToNice]
    unfold niceToPrio at hbound
    omega
  · have hkeep : copy.revertedStaticPrio = t.staticPrio := by
      unfold TaskStruct.revertedStaticPrio
      rw [if_neg]
      · rintro (hc | hc)
        · exact absurd (hrt.symm.trans hc) (by simp)
        · exact absurd hc (not_lt.mpr hnice)
    rw [TaskStruct.nice, hchild.2, hkeep, TaskStruct.nice]

end Child

/-! ## Descendants -/

/-- The task for which an operation calls `__sched_setscheduler`. -/
def Op.setschedules : Op → Option TaskPtr
  | .schedSetscheduler p _ _ _ _ _ => some p
  | .schedSetStopTask stop _ _ => stop
  | _ => none

/-- The tasks in `D` with the children they fork. -/
def State.withChildren (s : State) (op : Op) (D : Finset TaskPtr) : Finset TaskPtr :=
  match op with
  | .schedFork child _ => if s.curr ∈ D then insert child D else D
  | _ => D

/-- The runs from `s` on in which nobody calls `__sched_setscheduler` for `p` or a descendant, with
the set of these. -/
def descent (cfg : Config) (rule : Rule) (s : State) (p : TaskPtr) :
    TransitionSystem (State × Finset TaskPtr) (Op × Env) where
  init x := x = (s, {p})
  enabled x i := x.1.Enabled rule i.1 i.2 ∧ ∀ q, i.1.setschedules = some q → q ∉ x.2
  next x i := (x.1.next cfg i.1 i.2, x.1.withChildren i.1 x.2)

section Descent

variable {cfg : Config} {rule : Rule} {s : State} {env : Env}

/-- An operation keeps a task demoted unless it calls `__sched_setscheduler` for it. -/
theorem State.next_demoted (hinv : Inv cfg s) {op : Op} (hen : s.Enabled rule op env)
    {p : TaskPtr} (hp : p ∈ s.live) (hidle : p ≠ s.idle) (hset : op.setschedules ≠ some p)
    (h : Demoted (s.task p)) : Demoted ((s.next cfg op env).task p) := by
  -- the rule under which nobody may call `__sched_setscheduler`
  let rule' : Rule := { rule with topWaiter := fun _ _ => False }
  have hrule' : ∀ t w, ¬rule'.topWaiter t w := fun _ _ h => h
  have hsteps (hen' : s.Enabled rule' op env) : Demoted ((s.next cfg op env).task p) := by
    have hrun := State.next_taskSteps hinv.toSettled hen' hp hidle
    generalize (s.next cfg op env).task p = t' at hrun
    induction hrun with
    | refl => exact h
    | tail _ hstep ih => exact ih.step hrule' hstep
  cases op with
  | schedSetscheduler q policy prio user c topWaiter =>
    have hne : p ≠ q := by
      rintro rfl
      exact hset rfl
    rw [State.next, State.schedSetscheduler_task_of_ne policy prio user c topWaiter hne]
    exact h
  | schedSetStopTask stop c topWaiter =>
    have hnot : p ∉ stop.toList ++ s.stop.toList := by
      rw [List.mem_append, Option.mem_toList, Option.mem_toList]
      rintro (hstop | hstop)
      · exact hset hstop
      · -- the old stop task is a FIFO task
        have hrt := h.hasRtPolicy
        rw [TaskStruct.hasRtPolicy, (hinv.stop_task p hstop).2.2] at hrt
        cases hrt
    rw [State.next, State.schedSetStopTask_task_of_notMem cfg env s c topWaiter hnot]
    exact h
  | _ => exact hsteps hen

/-- Descendants of a demoted task are demoted. -/
theorem descent_demoted {p : TaskPtr} (hs : (system cfg rule).Reachable s) (hp : p ∈ s.live)
    (hidle : p ≠ s.idle) (h : Demoted (s.task p)) {x : State × Finset TaskPtr}
    (hx : (descent cfg rule s p).Reachable x) :
    (system cfg rule).Reachable x.1 ∧
      ∀ q ∈ x.2, q ∈ x.1.live ∧ q ≠ x.1.idle ∧ Demoted (x.1.task q) := by
  refine hx.invariant (I := fun x => (system cfg rule).Reachable x.1 ∧
    ∀ q ∈ x.2, q ∈ x.1.live ∧ q ≠ x.1.idle ∧ Demoted (x.1.task q)) ?_ ?_
  · rintro x rfl
    refine ⟨hs, fun q hq => ?_⟩
    rw [Finset.mem_singleton.mp hq]
    exact ⟨hp, hidle, h⟩
  rintro ⟨s, D⟩ ⟨op, env⟩ ⟨hs, hD⟩ ⟨hen, hset⟩
  have hinv := reachable_inv hs
  obtain ⟨hidle_eq, -, hlive⟩ := s.next_fixed cfg op env
  -- the tasks that were there already
  have hold {q : TaskPtr} (hq : q ∈ D) : q ∈ (s.next cfg op env).live ∧
      q ≠ (s.next cfg op env).idle ∧ Demoted ((s.next cfg op env).task q) := by
    obtain ⟨hq_live, hq_idle, hq_dem⟩ := hD q hq
    refine ⟨?_, hidle_eq ▸ hq_idle,
      State.next_demoted hinv hen hq_live hq_idle (fun heq => hset q heq hq) hq_dem⟩
    rw [hlive]
    split
    · exact Finset.mem_insert_of_mem hq_live
    · exact hq_live
  refine ⟨reachable_next hs hen, fun q hq => ?_⟩
  replace hq : q ∈ s.withChildren op D := hq
  cases op with
  | schedFork child mm =>
    unfold State.withChildren at hq
    dsimp only at hq
    split at hq
    · next hparent =>
      rcases Finset.mem_insert.mp hq with rfl | hq
      · -- a new child, whose parent is demoted
        have htask : (s.next cfg (.schedFork q mm) env).task q =
            (s.task s.curr).schedFork { s.task s.curr with mm := mm, started := false } :=
          Function.update_self _ _ _
        refine ⟨Finset.mem_insert_self q s.live, ?_, ?_⟩
        · rintro heq
          exact hen.2.1 (heq ▸ hinv.idle_mem)
        · show Demoted ((s.next cfg (.schedFork q mm) env).task q)
          rw [htask]
          exact (hD s.curr hparent).2.2.schedFork mm
      · exact hold hq
    · exact hold hq
  | _ => exact hold hq

end Descent

/-! ## Reset on fork -/

/-- What the flag to reset on fork promises about a child. -/
structure ResetChild (parent child : TaskStruct) : Prop where
  schedResetOnFork : child.schedResetOnFork = false
  prio : rtPrio child.prio = false
  nice_nonneg : 0 ≤ child.nice
  nice_eq : parent.hasRtPolicy = false → 0 ≤ parent.nice → child.nice = parent.nice
  schedClass : child.schedClass = .fair

/-- A fork with the flag to reset demotes the child, and with it every descendant for which nobody
calls `__sched_setscheduler`, exactly if the policy of the parent is not WRR. -/
theorem fork_demotes_iff {cfg : Config} {rule : Rule} {s : State}
    (hs : (system cfg rule).Reachable s) {child : TaskPtr} {mm : Bool} {env : Env}
    (hen : s.Enabled rule (.schedFork child mm) env)
    (hreset : (s.task s.curr).schedResetOnFork = true) :
    let s' := s.next cfg (.schedFork child mm) env
    (ResetChild (s.task s.curr) (s'.task child) ∧
      ∀ x, (descent cfg rule s' child).Reachable x → ∀ q ∈ x.2,
        rtPrio (x.1.task q).prio = false → (x.1.task q).schedClass = .fair) ↔
      (s.task s.curr).policy ≠ .wrr := by
  intro s'
  have hinv := reachable_inv hs
  have hparams := reachable_params hs hinv.curr_live
  have htask : s'.task child =
      (s.task s.curr).schedFork { s.task s.curr with mm := mm, started := false } :=
    Function.update_self _ _ _
  constructor
  · -- the child of a WRR parent is WRR
    rintro ⟨hchild, -⟩ hwrr
    have hclass := hchild.schedClass
    have hpolicy : (s'.task child).policy = .wrr := by
      rw [htask]
      exact (s.task s.curr).schedFork_policy_of_wrr hwrr
    rw [htask, hparams.schedFork_class mm (.inl hreset), ← htask, TaskStruct.prescribedClass,
      if_neg (of_decide_eq_false hchild.prio), if_pos hpolicy] at hclass
    cases hclass
  · -- any other parent: the child and its descendants stay demoted
    intro hwrr
    have hdem : Demoted (s'.task child) := by
      rw [htask]
      exact hparams.schedFork_demoted mm hwrr (.inl hreset)
    have hprio : rtPrio (s'.task child).prio = false := by
      rw [htask]
      exact hparams.schedFork_prio mm (.inl hreset)
    have hnice := TaskStruct.schedFork_nice mm hreset
    rw [← htask] at hnice
    have hne : child ≠ s'.idle := by
      rintro heq
      exact hen.2.1 (heq ▸ hinv.idle_mem)
    refine ⟨⟨hnice.1, hprio, hnice.2.1, hnice.2.2, hdem.class_fair hprio⟩,
      fun x hx q hq hq_prio => ?_⟩
    have hdescent := descent_demoted (reachable_next hs hen) (Finset.mem_insert_self child s.live)
      hne hdem hx
    exact (hdescent.2 q hq).2.2.class_fair hq_prio

namespace Small

/-- Task A, of the given policy with the flag to reset on fork, has been picked. -/
def resetA (policy : Policy) : State :=
  ((start [taskA]).next cfg
    (.schedSetscheduler taskA (encodePolicy policy true) 0 true user none) (env [] 0)).next cfg
      .schedule (env [taskA] 72)

theorem resetA_reachable (policy : Policy) : (system cfg .pi).Reachable (resetA policy) := by
  have hs : (system cfg .pi).Reachable (start [taskA]) :=
    (reachable_start .pi [taskA] (by decide)).1
  have hset : (start [taskA]).Enabled .pi
      (.schedSetscheduler taskA (encodePolicy policy true) 0 true user none) (env [] 0) :=
    ⟨no_worker _ _ _, ⟨by decide, by decide⟩, fun _ => rfl⟩
  exact reachable_next (reachable_next hs hset) ⟨no_worker _ _ _, trivial⟩

end Small

theorem fork_demotes_iff_batch :
    ResetChild ((Small.resetA .batch).task Small.taskA)
      (((Small.resetA .batch).next Small.cfg (.schedFork Small.taskB true) (Small.env [] 0)).task
        Small.taskB) := by
  have hen : (Small.resetA .batch).Enabled .pi (.schedFork Small.taskB true) (Small.env [] 0) :=
    ⟨Small.no_worker _ _ _, by decide +kernel, by decide +kernel⟩
  have hcurr : (Small.resetA .batch).curr = Small.taskA := by decide +kernel
  have h := ((fork_demotes_iff (Small.resetA_reachable .batch) hen (by decide +kernel)).mpr
    (by decide +kernel)).1
  rwa [hcurr] at h

/-- A WRR parent with the flag to reset on fork has a child of the WRR class. -/
theorem fork_not_demoted :
    ¬∀ s, (system Small.cfg .pi).Reachable s → ∀ child mm env,
      s.Enabled .pi (.schedFork child mm) env → (s.task s.curr).schedResetOnFork = true →
        ((s.next Small.cfg (.schedFork child mm) env).task child).schedClass = .fair := by
  intro hall
  have h := hall (Small.resetA .wrr) (Small.resetA_reachable .wrr) Small.taskB true (Small.env [] 0)
    ⟨Small.no_worker _ _ _, by decide +kernel, by decide +kernel⟩ (by decide +kernel)
  revert h
  decide +kernel

end WrrSched
