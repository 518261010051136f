import WrrSched.Correctness.Policy
import WrrSched.Correctness.Weights

/-!
# The parameters of a task

Policy, RT priority, custom weight and nice value are only ever stored together with a check, so
they stay in range over every run, whatever priorities `rt_mutex_setprio` is called with.

- `ParamsOk`: what is kept about the parameters of one task;
- `reachable_params`: it holds of every task in every reachable state;
- `TaskStep.keepsPolicy`: only `__setscheduler` changes a policy or an RT priority.
-/

namespace WrrSched

/-- The parameters of a task are in range, and its class follows from them if its policy is WRR. -/
structure ParamsOk (t : TaskStruct) : Prop where
  rtPriority : t.hasRtPolicy = true → 1 ≤ t.rtPriority ∧ (t.rtPriority : ℤ) ≤ maxRtPrio - 1
  rtPriority_eq_zero : t.hasRtPolicy = false → t.rtPriority = 0
  customWeight : t.wrr.customWeight = true →
    1 ≤ t.wrr.weight.toNat ∧ (t.wrr.weight.toNat : ℤ) ≤ maxRtPrio - 1
  staticPrio : maxRtPrio ≤ t.staticPrio ∧ t.staticPrio ≤ maxPrio - 1
  normalPrio : t.normalPrio = t.calcNormalPrio
  schedClass : t.policy = .wrr → t.schedClass = t.prescribedClass

namespace ParamsOk

variable {cfg : Config} {rule : Rule} {group : TaskGroupPtr → TaskGroup} {t t' : TaskStruct}

/-- The normal priority of a task without an RT policy is its nice value. -/
theorem normalPrio_eq (h : ParamsOk t) (hrt : t.hasRtPolicy = false) :
    t.normalPrio = t.staticPrio := by
  rw [h.normalPrio, TaskStruct.calcNormalPrio_of_not_rt hrt]

/-- The invariant does not look at the other fields. -/
theorem congr (h : ParamsOk t) (hpolicy : t'.policy = t.policy)
    (hrt : t'.rtPriority = t.rtPriority) (hwrr : KeepsCustom t t')
    (hstatic : t'.staticPrio = t.staticPrio) (hnormal : t'.normalPrio = t.normalPrio)
    (hclass : t'.policy = .wrr → t'.schedClass = t'.prescribedClass) : ParamsOk t' where
  rtPriority := by
    unfold TaskStruct.hasRtPolicy
    rw [hpolicy, hrt]
    exact h.rtPriority
  rtPriority_eq_zero := by
    unfold TaskStruct.hasRtPolicy
    rw [hpolicy, hrt]
    exact h.rtPriority_eq_zero
  customWeight hc := by
    rw [hwrr.1] at hc
    rw [hwrr.2 hc]
    exact h.customWeight hc
  staticPrio := by rw [hstatic]; exact h.staticPrio
  normalPrio := by
    rw [hnormal, TaskStruct.calcNormalPrio_congr hpolicy hrt hstatic, h.normalPrio]
  schedClass := hclass

/-- The class of a task is not touched either. -/
theorem congr_class (h : ParamsOk t) (hpolicy : t'.policy = t.policy)
    (hrt : t'.rtPriority = t.rtPriority) (hwrr : KeepsCustom t t')
    (hstatic : t'.staticPrio = t.staticPrio) (hnormal : t'.normalPrio = t.normalPrio)
    (hprio : t'.prio = t.prio) (hclass : t'.schedClass = t.schedClass) : ParamsOk t' := by
  refine h.congr hpolicy hrt hwrr hstatic hnormal fun hp => ?_
  unfold TaskStruct.prescribedClass
  rw [hclass, hprio, hpolicy]
  exact h.schedClass (hpolicy.symm.trans hp)

theorem requeued (h : ParamsOk t) (onRq : Bool) : ParamsOk (t.requeued cfg group onRq) := by
  have hwrr : KeepsCustom t (t.requeued cfg group onRq) := (KeepsCustom.refl t).requeued onRq
  have heq := t.requeued_eq cfg group onRq
  refine h.congr_class ?_ ?_ hwrr ?_ ?_ ?_ ?_
  all_goals rw [heq]

/-- `rt_mutex_setprio`, whatever the priority. -/
theorem boost (h : ParamsOk t) (prio : ℤ) : ParamsOk (t.boost prio) :=
  h.congr rfl rfl (.of_wrr rfl) rfl rfl fun _ => t.boost_class prio

theorem setUserNice (h : ParamsOk t) (nice : ℤ) : ParamsOk (t.setUserNice cfg group nice) := by
  have hclass (hp : t.policy = .wrr) :=
    TaskStruct.setUserNice_class cfg group (h.schedClass hp) nice
  rcases t.setUserNice_cases cfg group nice with heq | ⟨hstatic, ⟨hrt, heq⟩ | ⟨hrt, heq⟩⟩
  · rw [heq]
    exact h
  · rw [heq]
    refine ⟨h.rtPriority, h.rtPriority_eq_zero, h.customWeight, hstatic, ?_, h.schedClass⟩
    -- the nice value of an RT task does not count
    have hnormal := h.normalPrio
    rw [TaskStruct.calcNormalPrio_of_rt hrt] at hnormal
    exact hnormal.trans (.symm (TaskStruct.calcNormalPrio_of_rt hrt))
  · rw [heq, TaskStruct.requeued_eq] at hclass
    rw [heq]
    refine requeued ?_ t.onRq
    refine ⟨h.rtPriority, h.rtPriority_eq_zero, h.customWeight, hstatic, ?_, hclass⟩
    exact .symm (TaskStruct.calcNormalPrio_of_not_rt hrt)

/-- `__setscheduler` stores the parameter of a request that has been checked. -/
theorem setscheduler (h : ParamsOk t) {t₀ : TaskStruct} {policy : Policy} {prio : ℤ}
    (hprio : checkPriority t₀ policy prio = .ok ()) (topWaiter : Option ℤ) :
    ParamsOk (t.setscheduler policy prio topWaiter) := by
  have hmax : maxRtPrio = 100 := rfl
  obtain ⟨hnonneg, hle, hpos, hzero⟩ := checkPriority_eq_ok hprio
  have hpolicy := t.setscheduler_policy policy prio topWaiter
  have hwrr := t.setscheduler_wrr policy prio topWaiter
  have hrt := t.setscheduler_rtPriority policy prio topWaiter
  have hstatic : (t.setscheduler policy prio topWaiter).staticPrio = t.staticPrio := by
    rw [TaskStruct.setscheduler_eq]
  refine ⟨fun hp => ?_, fun hp => ?_, fun hc => ?_, hstatic ▸ h.staticPrio,
    t.setscheduler_normalPrio policy prio topWaiter,
    fun _ => t.setscheduler_class policy prio topWaiter⟩
  · rw [TaskStruct.hasRtPolicy, hpolicy] at hp
    have hne : policy ≠ .wrr := by rintro rfl; cases hp
    have hprio := hpos hp
    rw [hrt, if_pos hne]
    omega
  · rw [TaskStruct.hasRtPolicy, hpolicy] at hp
    rw [hrt]
    split
    · next hne => rw [hzero hp hne, Int.toNat_zero]
    · rfl
  · rw [hwrr] at hc ⊢
    split_ifs at hc ⊢ with hne hne0
    · exact h.customWeight hc
    · show 1 ≤ (UInt32.ofNat prio.toNat).toNat ∧ ((UInt32.ofNat prio.toNat).toNat : ℤ) ≤ _
      rw [UInt32.toNat_ofNat', Nat.mod_eq_of_lt (by omega)]
      omega

/-- A child of a WRR task is a WRR task: it is not boosted, and its normal priority is a nice
value. -/
theorem schedFork (h : ParamsOk t) (mm : Bool) :
    ParamsOk (t.schedFork { t with mm := mm, started := false }) := by
  have hclass := t.schedFork_class { t with mm := mm, started := false }
  by_cases hreset : t.schedResetOnFork = true
  case neg =>
    have hforked := t.forked_of_not_reset { t with mm := mm, started := false }
      (eq_false_of_ne_true hreset)
    rw [TaskStruct.schedFork_eq, hforked] at hclass ⊢
    refine ⟨h.rtPriority, h.rtPriority_eq_zero, h.customWeight, h.staticPrio, h.normalPrio,
      fun hp => hclass fun hlt => ?_⟩
    -- a WRR task has no RT priority to pass on
    have hrt : t.hasRtPolicy = false := by
      rw [TaskStruct.hasRtPolicy, show t.policy = .wrr from hp]
      rfl
    have hlt : t.normalPrio < maxRtPrio := hlt
    rw [h.normalPrio_eq hrt] at hlt
    exact absurd hlt (not_lt.mpr h.staticPrio.1)
  case pos =>
    have hforked := t.forked_of_reset { t with mm := mm, started := false } hreset
    have hstatic := TaskStruct.maxRtPrio_le_revertedStaticPrio
      { t with mm := mm, started := false }
    have hle := TaskStruct.revertedStaticPrio_le
      (p := { t with mm := mm, started := false }) h.staticPrio.2
    have hpolicy := t.revertedPolicy_not_rt
    rw [TaskStruct.schedFork_eq, hforked] at hclass ⊢
    refine ⟨fun hrt => ?_, fun _ => ?_, h.customWeight, ⟨hstatic, hle⟩, ?_,
      fun _ => hclass fun hlt => ?_⟩
    · exact absurd (hpolicy.symm.trans hrt) (by simp)
    · show (if t.hasRtPolicy = true then 0 else t.rtPriority) = 0
      split
      · rfl
      · next hrt => exact h.rtPriority_eq_zero (eq_false_of_ne_true hrt)
    · exact .symm (TaskStruct.calcNormalPrio_of_not_rt hpolicy)
    · exact absurd hlt (not_lt.mpr hstatic)

/-- The idle task has the parameters it was booted with. -/
theorem of_idleTask (h : IdleTask cfg t) : ParamsOk t := by
  obtain ⟨tg, c, -, rfl⟩ := h
  refine ⟨?_, fun _ => rfl, ?_, ?_, rfl, ?_⟩
  · simp [initTask, TaskStruct.hasRtPolicy, rtPolicy]
  · simp [initTask]
  · simp [initTask, maxPrio, maxRtPrio, maxUserRtPrio]
  · simp [initTask]

theorem step (h : ParamsOk t) (hs : TaskStep cfg rule group t t') : ParamsOk t' := by
  cases hs with
  | setState state hon =>
    exact h.congr_class rfl rfl (.of_wrr rfl) rfl rfl rfl rfl
  | sleep hon hstate => exact h.congr_class rfl rfl (.of_wrr rfl) rfl rfl rfl rfl
  | wake state =>
    have hkeeps : KeepsCustom t (t.wake cfg group state) := .wake t state
    rw [TaskStruct.wake_eq] at hkeeps ⊢
    exact h.congr_class rfl rfl hkeeps rfl rfl rfl rfl
  | start fg hst =>
    have hkeeps : KeepsCustom t (t.start cfg group fg) := .start t fg
    rw [TaskStruct.start_eq] at hkeeps ⊢
    exact h.congr_class rfl rfl hkeeps rfl rfl rfl rfl
  | tick hon hwrr =>
    have hkeeps : KeepsCustom t (t.tickWrr cfg) := .tickWrr t
    rw [TaskStruct.tickWrr_eq] at hkeeps ⊢
    exact h.congr_class rfl rfl hkeeps rfl rfl rfl rfl
  | boost prio _ => exact (h.boost prio).requeued t.onRq
  | setUserNice nice => exact h.setUserNice nice
  | setscheduler req prio topWaiter hprio _ =>
    have hset : ParamsOk { t with schedResetOnFork := req.resetOnFork } :=
      h.congr_class rfl rfl (.of_wrr rfl) rfl rfl rfl rfl
    exact (hset.setscheduler hprio topWaiter).requeued t.onRq
  | move tg =>
    refine requeued ?_ t.onRq
    exact h.congr_class rfl rfl (.of_wrr rfl) rfl rfl rfl rfl
  | toStop hon hfifo =>
    exact h.congr rfl rfl (.of_wrr rfl) rfl rfl fun hp => by rw [hfifo] at hp; cases hp
  | fromStop hon hfifo =>
    exact h.congr rfl rfl (.of_wrr rfl) rfl rfl fun hp => by rw [hfifo] at hp; cases hp

/-- A task of policy WRR whose priority is its normal one is in the WRR class. -/
theorem wrr_class (h : ParamsOk t) (hpolicy : t.policy = .wrr)
    (hprio : t.prio = t.normalPrio) : rtPrio t.normalPrio = false ∧ t.schedClass = .wrr := by
  have hnormal : t.normalPrio = t.staticPrio :=
    h.normalPrio_eq (by rw [TaskStruct.hasRtPolicy, hpolicy]; rfl)
  have hstatic := h.staticPrio.1
  have hrt : ¬t.prio < maxRtPrio := by omega
  refine ⟨by rw [rtPrio, ← hprio]; exact decide_eq_false hrt, ?_⟩
  rw [h.schedClass hpolicy, TaskStruct.prescribedClass, if_neg hrt, if_pos hpolicy]

end ParamsOk

/-- The parameters of every task are in range in every reachable state. -/
theorem reachable_params {cfg : Config} {rule : Rule} {s : State}
    (hs : (system cfg rule).Reachable s) {p : TaskPtr} (hp : p ∈ s.live) :
    ParamsOk (s.task p) := by
  by_cases hidle : p = s.idle
  · rw [hidle]
    exact .of_idleTask (reachable_inv hs).idle_task
  · refine forall_task (I := fun _ t => ParamsOk t) ?_ ?_ ?_ ?_ hs p hp hidle
    · intro _ t mm ht
      exact (ParamsOk.of_idleTask ht).schedFork mm
    · intro _ t mm h _
      exact h.schedFork mm
    · intro _ _ _ t h
      exact h
    · intro _ t t' h hstep
      exact h.step hstep

/-! ## Policies -/

/-- Policy, RT priority and the flag to reset on fork change under `__setscheduler` only. -/
theorem TaskStep.keepsPolicy {cfg : Config} {rule : Rule} {group : TaskGroupPtr → TaskGroup}
    {t t' : TaskStruct} (hrule : ∀ t w, ¬rule.topWaiter t w) (hs : TaskStep cfg rule group t t') :
    t'.policy = t.policy ∧ t'.rtPriority = t.rtPriority ∧
      t'.schedResetOnFork = t.schedResetOnFork := by
  cases hs with
  | setState state hon => exact ⟨rfl, rfl, rfl⟩
  | sleep hon hstate => exact ⟨rfl, rfl, rfl⟩
  | wake state =>
    rw [TaskStruct.wake_eq]
    exact ⟨rfl, rfl, rfl⟩
  | start fg hst =>
    rw [TaskStruct.start_eq]
    exact ⟨rfl, rfl, rfl⟩
  | tick hon hwrr =>
    rw [TaskStruct.tickWrr_eq]
    exact ⟨rfl, rfl, rfl⟩
  | boost prio _ =>
    rw [TaskStruct.requeued_eq]
    exact ⟨rfl, rfl, rfl⟩
  | setUserNice nice =>
    rw [TaskStruct.setUserNice_eq]
    exact ⟨rfl, rfl, rfl⟩
  | setscheduler req prio topWaiter hprio hw => exact absurd hw (hrule t topWaiter)
  | move tg =>
    rw [TaskStruct.requeued_eq]
    exact ⟨rfl, rfl, rfl⟩
  | toStop hon hfifo => exact ⟨rfl, rfl, rfl⟩
  | fromStop hon hfifo => exact ⟨rfl, rfl, rfl⟩

end WrrSched
