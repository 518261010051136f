import WrrSched.Correctness.Policy

/-!
# `normalize_rt_tasks`

The key "nice all RT tasks" goes through all threads and leaves those without an address space
alone.

- `TaskStruct.normalized`: what becomes of one thread, by `normalized_policy` and
  `normalized_nice`;
- `Inv.normalizeRtTasks`: the scheduler stays consistent;
- `normalize_rt_tasks_policy`: no thread it has gone through keeps an RT policy;
- `normalize_rt_tasks_twice`: the nice values of RT tasks need a second pass.
-/

namespace WrrSched

/-! ## One thread -/

namespace TaskStruct

variable (cfg : Config) (group : TaskGroupPtr → TaskGroup) (topWaiter : Option ℤ) (t : TaskStruct)

/-- A thread as `normalize_rt_tasks` leaves it. -/
def normalized : TaskStruct :=
  if !t.mm then t
  else if !rtPrio t.prio then
    if t.nice < 0 ∧ t.mm then t.setUserNice cfg group 0 else t
  else TaskStruct.requeued cfg group t.onRq (t.setscheduler .normal 0 topWaiter)

variable {t}

/-- A kernel thread is left alone. -/
theorem normalized_of_kernel (h : t.mm = false) : t.normalized cfg group topWaiter = t := by
  unfold normalized
  rw [h]
  rfl

/-- A user task with an RT priority, by its policy or by a boost, becomes a normal task. -/
theorem normalized_of_rt (hmm : t.mm = true) (hrt : rtPrio t.prio = true) :
    t.normalized cfg group topWaiter =
      TaskStruct.requeued cfg group t.onRq (t.setscheduler .normal 0 topWaiter) := by
  unfold normalized
  rw [hmm, hrt]
  rfl

/-- A user thread without an RT priority. -/
theorem normalized_of_not_rt (hmm : t.mm = true) (hrt : rtPrio t.prio = false) :
    t.normalized cfg group topWaiter =
      if t.nice < 0 then t.setUserNice cfg group 0 else t := by
  unfold normalized
  rw [hmm, hrt]
  simp only [Bool.not_true, Bool.not_false, Bool.false_eq_true, if_false, if_true, and_true]

variable (t) in
/-- What becomes of a thread is a part of the life of a task. -/
theorem normalized_taskSteps {rule : Rule} (hw : rule.topWaiter t topWaiter) :
    TaskSteps cfg rule group t (t.normalized cfg group topWaiter) := by
  unfold normalized
  split_ifs
  · exact .refl
  · exact .single (.setUserNice 0)
  · exact .refl
  · let req : Request := { policy := .normal, resetOnFork := t.schedResetOnFork, oldpolicy := none }
    have hprio : checkPriority t req.policy 0 = .ok () := by
      have hcheck : ∀ mm : Bool, ¬((0 : ℤ) < 0 ∨ (mm = true ∧ (0 : ℤ) > maxUserRtPrio - 1) ∨
          (mm = false ∧ (0 : ℤ) > maxRtPrio - 1)) := by decide
      unfold checkPriority
      rw [if_neg (hcheck t.mm)]
      rfl
    exact .single (.setscheduler req 0 topWaiter hprio hw)

variable (t) in
/-- The fields that stay. -/
theorem normalized_eq :
    t.normalized cfg group topWaiter =
      { t with
        policy := (t.normalized cfg group topWaiter).policy
        rtPriority := (t.normalized cfg group topWaiter).rtPriority
        staticPrio := (t.normalized cfg group topWaiter).staticPrio
        normalPrio := (t.normalized cfg group topWaiter).normalPrio
        prio := (t.normalized cfg group topWaiter).prio
        schedClass := (t.normalized cfg group topWaiter).schedClass
        wrr := (t.normalized cfg group topWaiter).wrr } := by
  unfold normalized
  split_ifs
  · rfl
  · rw [setUserNice_eq]
  · rfl
  · rw [requeued_eq, setscheduler_eq]

variable (t) in
/-- The policy afterwards. -/
theorem normalized_policy :
    (t.normalized cfg group topWaiter).policy =
      if t.mm ∧ rtPrio t.prio then .normal else t.policy := by
  cases hmm : t.mm with
  | false =>
    rw [normalized_of_kernel cfg group topWaiter hmm]
    simp
  | true =>
    cases hrt : rtPrio t.prio with
    | false =>
      rw [normalized_of_not_rt cfg group topWaiter hmm hrt]
      split
      · rw [setUserNice_eq]
        simp
      · simp
    | true =>
      rw [normalized_of_rt cfg group topWaiter hmm hrt, requeued_eq]
      simp [setscheduler_policy]

variable (t) in
/-- The nice value of a task with an RT priority stays, negative or not. -/
theorem normalized_nice :
    (t.normalized cfg group topWaiter).nice =
      if t.mm ∧ rtPrio t.prio = false then max t.nice 0 else t.nice := by
  cases hmm : t.mm with
  | false =>
    rw [normalized_of_kernel cfg group topWaiter hmm]
    simp
  | true =>
    cases hrt : rtPrio t.prio with
    | false =>
      rw [normalized_of_not_rt cfg group topWaiter hmm hrt]
      split
      case isTrue hneg =>
        rw [setUserNice_nice cfg group t (by omega)]
        simp [hneg.le]
      case isFalse hpos => simp [not_lt.mp hpos]
    | true =>
      rw [normalized_of_rt cfg group topWaiter hmm hrt, requeued_eq, setscheduler_eq]
      simp [nice]

end TaskStruct

namespace PrioOk

variable {cfg : Config} {group : TaskGroupPtr → TaskGroup} {topWaiter : Option ℤ} {t : TaskStruct}

/-- The same for any changes of a task. -/
theorem steps {t' : TaskStruct} (h : PrioOk t) (hs : TaskSteps cfg .pi group t t') : PrioOk t' := by
  induction hs with
  | refl => exact h
  | tail _ hstep ih => exact ih.step hstep

/-- It is in order again after a pass. -/
theorem normalized (h : PrioOk t) (hw : Rule.Waiter t topWaiter) :
    PrioOk (t.normalized cfg group topWaiter) := by
  have hsteps : TaskSteps cfg .pi group t (t.normalized cfg group topWaiter) :=
    t.normalized_taskSteps cfg group topWaiter hw
  exact h.steps hsteps

/-- A task without an RT priority has no RT policy. -/
theorem hasRtPolicy_eq_false (h : PrioOk t) (hrt : rtPrio t.prio = false) :
    t.hasRtPolicy = false := by
  have hprio : ¬t.prio < maxRtPrio := of_decide_eq_false hrt
  refine eq_false_of_ne_true fun hpolicy => hprio ?_
  exact h.prio_le.trans_lt (h.normalPrio_lt_iff.mpr hpolicy)

/-- A user task has no RT policy afterwards. -/
theorem normalized_hasRtPolicy (h : PrioOk t) (hmm : t.mm = true) :
    (t.normalized cfg group topWaiter).hasRtPolicy = false := by
  rw [TaskStruct.hasRtPolicy, t.normalized_policy cfg group topWaiter]
  cases hrt : rtPrio t.prio with
  | false =>
    rw [if_neg fun hboth => Bool.false_ne_true hboth.2]
    exact h.hasRtPolicy_eq_false hrt
  | true =>
    rw [if_pos ⟨hmm, rfl⟩]
    rfl

/-- Without an RT priority before there is none afterwards. -/
theorem normalized_rtPrio_of_not_rt (h : PrioOk t) (hmm : t.mm = true)
    (hrt : rtPrio t.prio = false) : rtPrio (t.normalized cfg group topWaiter).prio = false := by
  have hpolicy := h.hasRtPolicy_eq_false hrt
  rw [TaskStruct.normalized_of_not_rt cfg group topWaiter hmm hrt]
  split
  · -- the priority stays or becomes that of the nice value
    rcases t.setUserNice_cases cfg group 0 with heq | ⟨-, ⟨hrt', -⟩ | ⟨-, heq⟩⟩
    · rw [heq, hrt]
    · exact absurd (hpolicy.symm.trans hrt') Bool.false_ne_true
    · rw [heq, TaskStruct.requeued_eq]
      show rtPrio (if rtPrio t.prio then t.prio else niceToPrio 0) = false
      rw [hrt]
      rfl
  · exact hrt

/-- If nobody waits for a mutex of the task, it has no RT priority afterwards. -/
theorem normalized_rtPrio (h : PrioOk t) (hmm : t.mm = true) :
    rtPrio (t.normalized cfg group none).prio = false := by
  cases hrt : rtPrio t.prio with
  | false => exact h.normalized_rtPrio_of_not_rt hmm hrt
  | true =>
    have hset : PrioOk (t.setscheduler .normal 0 none) :=
      h.setscheduler (fun hp => by cases hp) fun _ => rfl
    have hprio : (t.setscheduler .normal 0 none).prio = (t.setscheduler .normal 0 none).normalPrio :=
      t.setscheduler_prio .normal 0 none
    have hpolicy : (t.setscheduler .normal 0 none).hasRtPolicy = false := by
      rw [TaskStruct.hasRtPolicy, TaskStruct.setscheduler_policy]
      rfl
    rw [TaskStruct.normalized_of_rt cfg group none hmm hrt, TaskStruct.requeued_eq]
    refine decide_eq_false ?_
    show ¬(t.setscheduler .normal 0 none).prio < maxRtPrio
    rw [hprio, hset.normalPrio_lt_iff, hpolicy]
    exact Bool.false_ne_true

end PrioOk

/-! ## The state -/

namespace State

variable (cfg : Config)

/-- `normalize_task` changes one task. -/
theorem normalizeTask_task (env : Env) (s : State) (p : TaskPtr) (topWaiter : Option ℤ) :
    (s.normalizeTask cfg env p topWaiter).task =
      Function.update s.task p
        (TaskStruct.requeued cfg s.group (s.task p).onRq
          ((s.task p).setscheduler .normal 0 topWaiter)) := by
  unfold normalizeTask
  dsimp only
  rw [(checkClassChanged_quiet env _ p _ _).task]
  split
  · rw [(reschedCurr_quiet _ _).task, changeQueued_task]
  · rw [changeQueued_task]

/-- What `normalize_task` leaves alone. -/
theorem normalizeTask_frame (env : Env) (s : State) (p : TaskPtr) (topWaiter : Option ℤ) :
    Frame s (s.normalizeTask cfg env p topWaiter) := by
  unfold normalizeTask
  dsimp only
  refine Frame.trans ?_ (checkClassChanged_quiet env _ p _ _).toFrame
  split
  · exact (changeQueued_frame cfg env s p _ _ _).trans (reschedCurr_quiet _ _).toFrame
  · exact changeQueued_frame cfg env s p _ _ _

/-- The accounts of the tasks do not matter to the queues. -/
theorem setSe_quiet (s : State) (se : TaskPtr → SchedEntity) : Quiet s { s with se := se } :=
  ⟨⟨rfl, rfl, rfl, rfl, rfl, fun _ _ => rfl, id⟩, rfl, rfl⟩

/-- One round of the loop changes one task. -/
theorem normalizeThread_task (env : Env) (s : State) (p : TaskPtr) (topWaiter : Option ℤ) :
    (s.normalizeThread cfg env p topWaiter).task =
      Function.update s.task p ((s.task p).normalized cfg s.group topWaiter) := by
  unfold normalizeThread TaskStruct.normalized
  dsimp only
  split
  · rw [Function.update_eq_self]
  · split
    · split
      · rw [setUserNice_task]
      · rw [Function.update_eq_self]
    · rw [normalizeTask_task]

/-- What one round of the loop leaves alone. -/
theorem normalizeThread_frame (env : Env) (s : State) (p : TaskPtr) (topWaiter : Option ℤ) :
    Frame s (s.normalizeThread cfg env p topWaiter) := by
  have hse := (s.setSe_quiet (Function.update s.se p { s.se p with execStart := 0 })).toFrame
  unfold normalizeThread
  dsimp only
  split
  · exact .refl s
  · split
    · split
      · exact hse.trans (setUserNice_frame cfg env _ p 0)
      · exact hse
    · exact hse.trans (normalizeTask_frame cfg env _ p topWaiter)

variable (topWaiter : TaskPtr → Option ℤ) (envOf : TaskPtr → Env)

/-- What the loop leaves alone. -/
theorem normalizeRtTasks_frame (ps : List TaskPtr) (s : State) :
    Frame s (normalizeRtTasks cfg topWaiter envOf ps s) := by
  induction ps generalizing s with
  | nil => exact .refl s
  | cons p ps ih => exact (normalizeThread_frame cfg (envOf p) s p (topWaiter p)).trans (ih _)

/-- The loop changes every thread it comes to once. -/
theorem normalizeRtTasks_task {ps : List TaskPtr} (hps : ps.Nodup) (s : State) (q : TaskPtr) :
    (normalizeRtTasks cfg topWaiter envOf ps s).task q =
      if q ∈ ps then (s.task q).normalized cfg s.group (topWaiter q) else s.task q := by
  induction ps generalizing s with
  | nil => rw [if_neg List.not_mem_nil, normalizeRtTasks]
  | cons p ps ih =>
    obtain ⟨hp, hps⟩ := List.nodup_cons.mp hps
    have hgroup := (normalizeThread_frame cfg (envOf p) s p (topWaiter p)).group
    rw [normalizeRtTasks, ih hps, hgroup, normalizeThread_task]
    by_cases hq : q = p
    · subst hq
      rw [if_neg hp, if_pos List.mem_cons_self, Function.update_self]
    · rw [Function.update_of_ne hq]
      simp only [List.mem_cons, hq, false_or]

end State

/-! ## The invariant -/

section Invariant

variable {cfg : Config} {s : State} {p : TaskPtr}

/-- The queues after one round of the loop. -/
theorem QueueInv.normalizeThread (h : QueueInv s s.onRq) (hp : p ∈ s.live)
    (hidle : (s.task p).schedClass ≠ .idle) (hweight : (s.task p).wrr.weight.toNat ≤ maxWeight)
    (env : Env) (topWaiter : Option ℤ) :
    QueueInv (s.normalizeThread cfg env p topWaiter)
      (s.normalizeThread cfg env p topWaiter).onRq := by
  have hse := h.of_quiet_onRq
    (s.setSe_quiet (Function.update s.se p { s.se p with execStart := 0 }))
  unfold State.normalizeThread
  dsimp only
  split
  · exact h
  · split
    · split
      · exact hse.setUserNice cfg env hp hidle hweight 0
      · exact hse
    · unfold State.normalizeTask
      dsimp only
      refine QueueInv.of_quiet_onRq ?_ (State.checkClassChanged_quiet env _ p _ _)
      have hchanged := hse.changeQueued cfg env hp hidle (·.setscheduler .normal 0 topWaiter)
        (TaskStruct.setscheduler_onRq _ _ _ topWaiter)
        (TaskStruct.setscheduler_class_ne_idle _ _ _ topWaiter)
        (TaskStruct.setscheduler_weight_le _ _ topWaiter (by decide) hweight) false 0
      split
      · exact hchanged.of_quiet_onRq (State.reschedCurr_quiet _ _)
      · exact hchanged

/-- The stop task is a kernel thread. -/
def State.StopKernel (s : State) : Prop :=
  ∀ p, s.stop = some p → (s.task p).mm = false

/-- The stop task stays a kernel thread. -/
theorem State.StopKernel.normalizeThread (h : s.StopKernel) (env : Env)
    (topWaiter : Option ℤ) : (s.normalizeThread cfg env p topWaiter).StopKernel := by
  intro q hq
  rw [(s.normalizeThread_frame cfg env p topWaiter).stop] at hq
  rw [s.normalizeThread_task cfg env p topWaiter]
  by_cases hqp : q = p
  · subst hqp
    rw [Function.update_self, TaskStruct.normalized_eq]
    exact h q hq
  · rw [Function.update_of_ne hqp]
    exact h q hq

/-- A round of the loop keeps the invariant. -/
theorem Inv.normalizeThread (h : Inv cfg s) (hstop : s.StopKernel) (hp : s.Target p) (env : Env)
    (topWaiter : Option ℤ) : Inv cfg (s.normalizeThread cfg env p topWaiter) := by
  have hok := h.task p hp.1 hp.2
  have htask := s.normalizeThread_task cfg env p topWaiter
  refine h.of_update (s.normalizeThread_frame cfg env p topWaiter) htask hp.2
    (h.queue.normalizeThread hp.1 hok.class_ne_idle hok.weight_le env topWaiter) ?_ ?_ ?_
  · intro q hq hidle
    rw [htask]
    by_cases hqp : q = p
    · subst hqp
      have hsteps : TaskSteps cfg .any s.group (s.task q)
          ((s.task q).normalized cfg s.group topWaiter) :=
        (s.task q).normalized_taskSteps cfg s.group topWaiter trivial
      rw [Function.update_self]
      exact hok.steps hsteps
    · rw [Function.update_of_ne hqp]
      exact h.task q hq hidle
  · intro hon
    rw [TaskStruct.normalized_eq]
    exact hon
  · intro hs
    rw [TaskStruct.normalized_of_kernel cfg s.group topWaiter (hstop p hs)]

/-- The invariant after the loop. -/
theorem Inv.normalizeRtTasks (h : Inv cfg s) (hstop : s.StopKernel) {ps : List TaskPtr}
    (hps : ∀ p ∈ ps, s.Target p) (topWaiter : TaskPtr → Option ℤ) (envOf : TaskPtr → Env) :
    Inv cfg (State.normalizeRtTasks cfg topWaiter envOf ps s) := by
  induction ps generalizing s with
  | nil => exact h
  | cons p ps ih =>
    obtain ⟨hp, hps⟩ := List.forall_mem_cons.mp hps
    have hf := s.normalizeThread_frame cfg (envOf p) p (topWaiter p)
    refine ih (h.normalizeThread hstop hp (envOf p) (topWaiter p))
      (hstop.normalizeThread (envOf p) (topWaiter p)) fun q hq => ?_
    rw [State.Target, hf.live, hf.idle]
    exact hps q hq

end Invariant

/-! ## All threads -/

namespace Small

/-- The superuser. -/
def root : Caller where
  capSysNice := true
  rlimitRtprio := 0
  rlimitNice := 0
  sameOwner := true
  security := 0
  rtRuntimeZero := false

/-- Tasks A and B are user tasks, task C is a kernel thread. -/
def kernelC : State :=
  ((start [taskA, taskB]).next cfg (.schedFork taskC false) (env [] 0)).next cfg
    (.wakeUpNewTask taskC) (env [] 0)

/-- Tasks A and B have a negative nice value, tasks A and C are FIFO tasks. -/
def fifoAC : State :=
  (((kernelC.next cfg (.setUserNice taskA (-5)) (env [] 0)).next cfg
    (.setUserNice taskB (-5)) (env [] 0)).next cfg
      (.schedSetscheduler taskA Policy.fifo.toNat 1 true root none) (env [] 0)).next cfg
        (.schedSetscheduler taskC Policy.fifo.toNat 1 true root none) (env [] 0)

/-- Task C is forked and started. -/
theorem kernelC_reachable : (system cfg .pi).Reachable kernelC := by
  have hstart : (system cfg .pi).Reachable (start [taskA, taskB]) :=
    (reachable_start .pi [taskA, taskB] (by decide)).1
  have hfork : (start [taskA, taskB]).Enabled .pi (.schedFork taskC false) (env [] 0) :=
    ⟨no_worker _ _ _, by decide +kernel, by decide +kernel⟩
  have hwake : ((start [taskA, taskB]).next cfg (.schedFork taskC false) (env [] 0)).Enabled .pi
      (.wakeUpNewTask taskC) (env [] 0) :=
    ⟨no_worker _ _ _, ⟨by decide +kernel, by decide +kernel⟩, by decide +kernel⟩
  exact reachable_next (reachable_next hstart hfork) hwake

/-- The four calls on top of that. -/
theorem fifoAC_reachable : (system cfg .pi).Reachable fifoAC := by
  have hniceA : kernelC.Enabled .pi (.setUserNice taskA (-5)) (env [] 0) :=
    ⟨no_worker _ _ _, by decide +kernel, by decide +kernel⟩
  have hA : (system cfg .pi).Reachable (kernelC.next cfg (.setUserNice taskA (-5)) (env [] 0)) :=
    reachable_next kernelC_reachable hniceA
  have hniceB : (kernelC.next cfg (.setUserNice taskA (-5)) (env [] 0)).Enabled .pi
      (.setUserNice taskB (-5)) (env [] 0) :=
    ⟨no_worker _ _ _, by decide +kernel, by decide +kernel⟩
  have hB : (system cfg .pi).Reachable ((kernelC.next cfg (.setUserNice taskA (-5)) (env [] 0)).next
      cfg (.setUserNice taskB (-5)) (env [] 0)) :=
    reachable_next hA hniceB
  have hfifoA : ((kernelC.next cfg (.setUserNice taskA (-5)) (env [] 0)).next cfg
      (.setUserNice taskB (-5)) (env [] 0)).Enabled .pi
        (.schedSetscheduler taskA Policy.fifo.toNat 1 true root none) (env [] 0) :=
    ⟨no_worker _ _ _, ⟨by decide +kernel, by decide +kernel⟩, fun _ => rfl⟩
  exact reachable_next (reachable_next hB hfifoA)
    ⟨no_worker _ _ _, ⟨by decide +kernel, by decide +kernel⟩, fun _ => rfl⟩

/-- None of the three is the idle task. -/
theorem fifoAC_target : ∀ p ∈ [taskA, taskB, taskC], fifoAC.Target p := by
  intro p hp
  simp only [List.mem_cons, List.not_mem_nil, or_false] at hp
  obtain rfl | rfl | rfl := hp <;> exact ⟨by decide +kernel, by decide +kernel⟩

/-- There is no stop task. -/
theorem fifoAC_stopKernel : fifoAC.StopKernel := by
  have hnone : fifoAC.stop = none := by decide +kernel
  intro p hp
  rw [hnone] at hp
  cases hp

end Small

section Threads

variable {cfg : Config} {s : State} {ps : List TaskPtr}

/-- "Only normalize user tasks": the threads of `ps` with an address space lose an RT policy, and
those without an RT priority a negative nice value. -/
theorem normalize_rt_tasks_policy (hs : (system cfg .pi).Reachable s) (hstop : s.StopKernel)
    (hps : ∀ p ∈ ps, s.Target p) (hnodup : ps.Nodup) (topWaiter : TaskPtr → Option ℤ)
    (envOf : TaskPtr → Env) :
    Inv cfg (s.normalizeRtTasks cfg topWaiter envOf ps) ∧
      Frame s (s.normalizeRtTasks cfg topWaiter envOf ps) ∧
      (∀ p, p ∉ ps ∨ (s.task p).mm = false →
        (s.normalizeRtTasks cfg topWaiter envOf ps).task p = s.task p) ∧
      ∀ p ∈ ps, (s.task p).mm = true →
        ((s.normalizeRtTasks cfg topWaiter envOf ps).task p).hasRtPolicy = false ∧
        ((s.normalizeRtTasks cfg topWaiter envOf ps).task p).policy =
          (if rtPrio (s.task p).prio then .normal else (s.task p).policy) ∧
        ((s.normalizeRtTasks cfg topWaiter envOf ps).task p).nice =
          if rtPrio (s.task p).prio then (s.task p).nice else max (s.task p).nice 0 := by
  -- each thread of the list gets one pass, whatever happens to the others
  have htask := s.normalizeRtTasks_task cfg topWaiter envOf hnodup
  refine ⟨(reachable_inv hs).normalizeRtTasks hstop hps topWaiter envOf,
    s.normalizeRtTasks_frame cfg topWaiter envOf ps, fun p hp => ?_, fun p hp hmm => ?_⟩
  · rw [htask p]
    split
    case isTrue hmem =>
      exact TaskStruct.normalized_of_kernel cfg s.group _ (hp.resolve_left fun hn => hn hmem)
    case isFalse => rfl
  · have hok := reachable_prioOk hs p (hps p hp).1 (hps p hp).2
    rw [htask p, if_pos hp]
    refine ⟨hok.normalized_hasRtPolicy hmm, ?_, ?_⟩
    · rw [TaskStruct.normalized_policy, hmm]
      simp only [true_and]
    · rw [TaskStruct.normalized_nice, hmm]
      cases rtPrio (s.task p).prio <;> simp

/-- Task A loses its policy, task B its nice value, and task C nothing. -/
theorem normalize_rt_tasks_policy_fifo :
    let s := Small.fifoAC.normalizeRtTasks Small.cfg (fun _ => none) (fun _ => Small.env [] 0)
      [Small.taskA, Small.taskB, Small.taskC]
    ((s.task Small.taskA).policy = .normal ∧ (s.task Small.taskA).nice = -5) ∧
      ((s.task Small.taskB).policy = .normal ∧ (s.task Small.taskB).nice = 0) ∧
      (s.task Small.taskC).policy = .fifo := by
  obtain ⟨-, -, hkept, huser⟩ := normalize_rt_tasks_policy Small.fifoAC_reachable
    Small.fifoAC_stopKernel Small.fifoAC_target (by decide) (fun _ => none) fun _ => Small.env [] 0
  obtain ⟨-, hpolicyA, hniceA⟩ := huser Small.taskA (by decide) (by decide +kernel)
  obtain ⟨-, hpolicyB, hniceB⟩ := huser Small.taskB (by decide) (by decide +kernel)
  have hkeptC := hkept Small.taskC (.inr (by decide +kernel))
  refine ⟨⟨hpolicyA.trans ?_, hniceA.trans ?_⟩, ⟨hpolicyB.trans ?_, hniceB.trans ?_⟩,
    (congrArg TaskStruct.policy hkeptC).trans ?_⟩ <;> decide +kernel

/-- After one pass a negative nice value is left exactly where there was one under an RT priority.
If nobody waits for a mutex of these tasks, a second pass leaves none, and no RT priority. -/
theorem normalize_rt_tasks_twice (hs : (system cfg .pi).Reachable s)
    (hps : ∀ p ∈ ps, s.Target p) (hnodup : ps.Nodup) (topWaiter : TaskPtr → Option ℤ)
    (envOf envOf' : TaskPtr → Env) :
    let once := s.normalizeRtTasks cfg (fun _ => none) envOf ps
    let twice := once.normalizeRtTasks cfg topWaiter envOf' ps
    ∀ p ∈ ps, (s.task p).mm = true →
      ((once.task p).nice < 0 ↔ rtPrio (s.task p).prio = true ∧ (s.task p).nice < 0) ∧
      (twice.task p).nice = max (s.task p).nice 0 ∧ (twice.task p).hasRtPolicy = false ∧
      rtPrio (twice.task p).prio = false := by
  intro once twice p hp hmm
  have hok := reachable_prioOk hs p (hps p hp).1 (hps p hp).2
  -- after one pass nothing boosts the task, so it has no RT priority
  have honce : once.task p = (s.task p).normalized cfg s.group none := by
    rw [s.normalizeRtTasks_task cfg (fun _ => none) envOf hnodup p, if_pos hp]
  have hnice : (once.task p).nice =
      if rtPrio (s.task p).prio then (s.task p).nice else max (s.task p).nice 0 := by
    rw [honce, TaskStruct.normalized_nice, hmm]
    cases rtPrio (s.task p).prio <;> simp
  have hmm' : (once.task p).mm = true := by
    rw [honce, TaskStruct.normalized_eq]
    exact hmm
  have hrt : rtPrio (once.task p).prio = false := by
    rw [honce]
    exact hok.normalized_rtPrio hmm
  have hok' : PrioOk (once.task p) := by
    rw [honce]
    exact hok.normalized fun _ => rfl
  -- therefore the second pass sets a negative nice value
  have htwice : twice.task p = (once.task p).normalized cfg once.group (topWaiter p) := by
    rw [once.normalizeRtTasks_task cfg topWaiter envOf' hnodup p, if_pos hp]
  refine ⟨?_, ?_, ?_, ?_⟩
  · rw [hnice]
    cases rtPrio (s.task p).prio <;> simp
  · rw [htwice, TaskStruct.normalized_nice, hmm', hrt, hnice]
    cases rtPrio (s.task p).prio <;> simp
  · rw [htwice]
    exact hok'.normalized_hasRtPolicy hmm'
  · rw [htwice]
    exact hok'.normalized_rtPrio_of_not_rt hmm' hrt

/-- The first pass leaves the nice value of task A, and the second one does not. -/
theorem normalize_rt_tasks_twice_fifo :
    let ps := [Small.taskA, Small.taskB, Small.taskC]
    let once := Small.fifoAC.normalizeRtTasks Small.cfg (fun _ => none) (fun _ => Small.env [] 0) ps
    let twice := once.normalizeRtTasks Small.cfg (fun _ => none) (fun _ => Small.env [] 0) ps
    ((once.task Small.taskA).nice < 0 ∧ (twice.task Small.taskA).nice = 0) ∧
      ¬(once.task Small.taskB).nice < 0 ∧ (twice.task Small.taskB).nice = 0 := by
  have htwice := normalize_rt_tasks_twice Small.fifoAC_reachable Small.fifoAC_target
    (by decide) (fun _ => none) (fun _ => Small.env [] 0) fun _ => Small.env [] 0
  obtain ⟨honceA, htwiceA, -⟩ := htwice Small.taskA (by decide) (by decide +kernel)
  obtain ⟨honceB, htwiceB, -⟩ := htwice Small.taskB (by decide) (by decide +kernel)
  have hrtB : rtPrio (Small.fifoAC.task Small.taskB).prio = false := by decide +kernel
  refine ⟨⟨honceA.mpr ⟨by decide +kernel, by decide +kernel⟩, htwiceA.trans (by decide +kernel)⟩,
    fun hneg => ?_, htwiceB.trans (by decide +kernel)⟩
  rw [(honceB.mp hneg).1] at hrtB
  exact Bool.noConfusion hrtB

end Threads

end WrrSched
