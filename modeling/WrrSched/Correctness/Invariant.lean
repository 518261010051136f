import WrrSched.Correctness.Operations

/-!
# The invariant of the scheduler

`Inv` holds in every state of every run, under any rule: the run queue counts and lists what it
should, the idle task is as it was booted, another running task is queued, and only the running task
may be marked for rescheduling.

- `reachable_inv`: the invariant of runs;
- `Inv.pickState`: the queue is also consistent at the moment `__schedule` asks the classes;
- `forall_task`: invariants of single tasks, one case per change of a task.
-/

namespace WrrSched

/-! ## Single tasks -/

/-- What the queue relies on about a task other than the idle task. -/
structure TaskOk (t : TaskStruct) : Prop where
  class_ne_idle : t.schedClass ≠ .idle
  weight_le : t.wrr.weight.toNat ≤ maxWeight
  unstarted : t.started = false → t.onRq = false ∧ t.state = taskRunning

namespace TaskOk

variable {cfg : Config} {rule : Rule} {group : TaskGroupPtr → TaskGroup} {t t' : TaskStruct}

/-- Taking a task off and putting it back changes its WRR entity only. -/
theorem requeued (h : TaskOk t) (onRq : Bool) : TaskOk (t.requeued cfg group onRq) where
  class_ne_idle := by rw [TaskStruct.requeued_eq]; exact h.class_ne_idle
  weight_le := TaskStruct.requeued_weight_le cfg group onRq h.weight_le
  unstarted := by rw [TaskStruct.requeued_eq]; exact h.unstarted

/-- What one change of a task keeps. -/
theorem step (h : TaskOk t) (hs : TaskStep cfg rule group t t') : TaskOk t' := by
  cases hs with
  | setState state hon =>
    -- only a queued task sets its state
    refine ⟨h.class_ne_idle, h.weight_le, fun hst => ?_⟩
    simp [(h.unstarted hst).1] at hon
  | sleep hon hstate => exact ⟨h.class_ne_idle, h.weight_le, fun hst => ⟨rfl, (h.unstarted hst).2⟩⟩
  | wake state =>
    unfold TaskStruct.wake
    split_ifs with hstate hon
    · exact h
    · exact ⟨h.class_ne_idle, h.weight_le, fun hst => ⟨(h.unstarted hst).1, rfl⟩⟩
    · refine ⟨?_, TaskStruct.enqueued_weight_le cfg group h.weight_le, fun hst => ?_⟩
      · rw [TaskStruct.enqueued_eq]
        exact h.class_ne_idle
      · -- a task that has not been started is in state 0 and cannot be woken
        rw [TaskStruct.enqueued_eq] at hst
        rw [(h.unstarted hst).2, taskRunning, Nat.zero_and] at hstate
        exact absurd rfl hstate
  | start fg hst =>
    refine ⟨?_, ?_, fun hfalse => by cases hfalse⟩
    · rw [TaskStruct.start_eq]
      exact h.class_ne_idle
    · exact TaskStruct.enqueued_weight_le cfg group
        (TaskStruct.wrrSetWeight_weight_le cfg fg h.weight_le)
  | tick hon hwrr =>
    rw [TaskStruct.tickWrr_eq]
    exact ⟨h.class_ne_idle, h.weight_le, h.unstarted⟩
  | boost prio hrule =>
    refine requeued ?_ t.onRq
    exact ⟨t.setClass_ne_idle prio, h.weight_le, h.unstarted⟩
  | setUserNice nice =>
    unfold TaskStruct.setUserNice
    split_ifs
    · exact h
    · exact ⟨h.class_ne_idle, h.weight_le, h.unstarted⟩
    · refine requeued ?_ t.onRq
      rw [TaskStruct.effectivePrio_eq]
      exact ⟨h.class_ne_idle, h.weight_le, h.unstarted⟩
  | setscheduler req prio topWaiter hprio hw =>
    refine requeued ⟨?_, ?_, ?_⟩ t.onRq
    · exact TaskStruct.setscheduler_class_ne_idle _ _ _ _
    · have hrange := checkPriority_eq_ok hprio
      exact TaskStruct.setscheduler_weight_le _ _ _ hrange.2.1 h.weight_le
    · rw [TaskStruct.setscheduler_eq]
      exact h.unstarted
  | move tg =>
    refine requeued ?_ t.onRq
    exact ⟨h.class_ne_idle, h.weight_le, h.unstarted⟩
  | toStop hon hfifo => exact ⟨by simp, h.weight_le, h.unstarted⟩
  | fromStop hon hfifo => exact ⟨by simp, h.weight_le, h.unstarted⟩

/-- What any changes of it keep. -/
theorem steps (h : TaskOk t) (hs : TaskSteps cfg rule group t t') : TaskOk t' := by
  induction hs with
  | refl => exact h
  | tail _ hstep ih => exact ih.step hstep

/-- A child is fine if its parent is, or is the idle task. -/
theorem schedFork
    (hclass : t.schedClass = .idle → t.schedResetOnFork = false ∧ rtPrio t.normalPrio = false)
    (hweight : t.wrr.weight.toNat ≤ maxWeight) (mm : Bool) :
    TaskOk (t.schedFork { t with mm := mm, started := false }) := by
  rw [TaskStruct.schedFork_eq]
  refine ⟨?_, ?_, fun _ => ?_⟩
  · dsimp only
    split_ifs with hrt
    · intro hidle
      obtain ⟨hreset, hnormal⟩ := hclass hidle
      -- the child of the idle task has its normal priority, which is not an RT one
      have hforked := t.forked_of_not_reset { t with mm := mm, started := false } hreset
      rw [hforked, hnormal] at hrt
      cases hrt
    · simp
    · simp
  · rw [TaskStruct.forked, TaskStruct.revertOnFork_eq]
    exact hweight
  · rw [TaskStruct.forked, TaskStruct.revertOnFork_eq]
    exact ⟨rfl, rfl⟩

end TaskOk

/-! ## States -/

/-- The invariant of the scheduler. -/
structure Inv (cfg : Config) (s : State) : Prop extends s.Settled cfg where
  queue : QueueInv s s.onRq
  task : ∀ p ∈ s.live, p ≠ s.idle → TaskOk (s.task p)
  needResched : ∀ p, s.needResched p = true → p = s.curr

namespace Inv

variable {cfg : Config} {rule : Rule} {env : Env} {s s' : State} {p : TaskPtr}

/-- Only living tasks are queued. -/
theorem live_of_onRq (h : Inv cfg s) (hp : (s.task p).onRq = true) : p ∈ s.live :=
  h.queue.live p hp

/-- The idle task is never queued. -/
theorem ne_idle_of_onRq (h : Inv cfg s) (hp : (s.task p).onRq = true) : p ≠ s.idle := by
  rintro rfl
  rw [h.idle_onRq] at hp
  cases hp

/-- So the fields of a queued task are in order. -/
theorem taskOk_of_onRq (h : Inv cfg s) (hp : (s.task p).onRq = true) : TaskOk (s.task p) :=
  h.task p (h.live_of_onRq hp) (h.ne_idle_of_onRq hp)

/-- A task on the WRR list is queued. -/
theorem onRq_of_mem (h : Inv cfg s) (hp : p ∈ s.rq.active) : (s.task p).onRq = true :=
  ((h.queue.mem_iff p).mp hp).1

/-- A task on the WRR list is a WRR task. -/
theorem class_of_mem (h : Inv cfg s) (hp : p ∈ s.rq.active) : (s.task p).schedClass = .wrr :=
  ((h.queue.mem_iff p).mp hp).2

/-- The running task lives. -/
theorem curr_live (h : Inv cfg s) : s.curr ∈ s.live := by
  rcases h.curr_onRq with hc | hc
  · rw [hc]
    exact h.idle_mem
  · exact h.live_of_onRq hc

/-! ### Picking -/

/-- What `pick_next_task` returns is the idle task or queued. -/
theorem pickNextTask_onRq (hq : QueueInv s s.onRq) :
    (s.pickNextTask env).1 = s.idle ∨ (s.task (s.pickNextTask env).1).onRq = true := by
  rcases s.pickNextTask_spec env with hidle | hhead | ⟨hon, -⟩
  · exact .inl hidle
  · exact .inr ((hq.mem_iff _).mp (List.mem_of_head? hhead)).1
  · exact .inr hon

/-! ### Steps -/

/-- At boot there is the idle task alone. -/
theorem boot (cfg : Config) (idle : TaskPtr) (tg : TaskGroupPtr)
    (group : TaskGroupPtr → TaskGroup) (clockTask : UInt64) :
    Inv cfg (State.boot cfg idle tg group clockTask) where
  idle_mem := Finset.mem_singleton_self idle
  idle_task := ⟨tg, .fair, .inl rfl, rfl⟩
  curr_onRq := .inl rfl
  stop_task _ hp := by cases hp
  queue :=
    { nodup := List.nodup_nil
      mem_iff := fun q => by simp [State.boot, State.onRq, initTask]
      live := fun q hq => by cases hq
      weight_le := fun q hq => by cases hq
      wrrNrRunning := rfl
      totalWeight := rfl
      nrRunning := by simp [State.boot, State.onRq, initTask]
      hNrRunning := by simp [State.boot, State.onRq, initTask]
      wrapped := fun _ => rfl }
  task q hq hne := absurd (Finset.mem_singleton.mp hq) hne
  needResched _ hq := by cases hq

/-- Only the running task is asked to reschedule, also after an operation on the queues. -/
theorem needResched_eq_curr (h : Inv cfg s) (hf : Frame s s') (hp : s'.needResched p = true) :
    p = s'.curr := by
  rw [hf.curr]
  by_contra hne
  rw [hf.needResched_of_ne p hne] at hp
  exact hne (h.needResched p hp)

/-- An operation that keeps the run queue consistent and changes one task, and neither takes it off
the run queue nor changes the policy of the stop task, keeps the invariant. -/
theorem of_update {q : TaskPtr} {t : TaskStruct} (h : Inv cfg s) (hf : Frame s s')
    (htask : s'.task = Function.update s.task q t) (hq : q ≠ s.idle)
    (hqueue : QueueInv s' s'.onRq)
    (hok : ∀ p ∈ s.live, p ≠ s.idle → TaskOk (s'.task p))
    (hon : (s.task q).onRq = true → t.onRq = true)
    (hpolicy : s.stop = some q → t.policy = (s.task q).policy) : Inv cfg s' where
  idle_mem := by rw [hf.idle, hf.live]; exact h.idle_mem
  idle_task := by rw [hf.idle, htask, Function.update_of_ne (Ne.symm hq)]; exact h.idle_task
  curr_onRq := by
    rw [hf.curr, hf.idle, htask]
    by_cases hc : s.curr = q
    · rw [hc, Function.update_self]
      refine h.curr_onRq.imp (fun hi => ?_) fun ho => hon ?_
      · rw [← hc, hi]
      · rwa [← hc]
    · rw [Function.update_of_ne hc]
      exact h.curr_onRq
  stop_task p hp := by
    rw [hf.stop] at hp
    obtain ⟨hlive, hidle, hfifo⟩ := h.stop_task p hp
    rw [hf.live, hf.idle, htask]
    refine ⟨hlive, hidle, ?_⟩
    by_cases hpq : p = q
    · subst hpq
      rw [Function.update_self, hpolicy hp, hfifo]
    · rw [Function.update_of_ne hpq, hfifo]
  queue := hqueue
  task := by rw [hf.live, hf.idle]; exact hok
  needResched p hp := h.needResched_eq_curr hf hp

/-- An operation that leaves the tasks alone. -/
theorem of_frame (h : Inv cfg s) (hf : Frame s s') (ht : s'.task = s.task)
    (hqueue : QueueInv s' s'.onRq) : Inv cfg s' where
  toSettled := h.toSettled.of_frame hf ht
  queue := hqueue
  task := by rw [hf.live, hf.idle, ht]; exact h.task
  needResched p hp := h.needResched_eq_curr hf hp

/-- A step that touches neither the queues nor the tasks keeps the invariant. -/
theorem of_quiet (h : Inv cfg s) (hq : Quiet s s') : Inv cfg s' :=
  h.of_frame hq.toFrame hq.task (h.queue.of_quiet_onRq hq)

/-- The weight of a living task is at most the largest one. -/
theorem weight_le (h : Inv cfg s) (hp : p ∈ s.live) :
    (s.task p).wrr.weight.toNat ≤ maxWeight := by
  by_cases hidle : p = s.idle
  · obtain ⟨tg, c, -, ht⟩ := h.idle_task
    rw [hidle, ht]
    exact Nat.zero_le _
  · exact (h.task p hp hidle).weight_le

variable (env) in
/-- A new task is neither queued nor running. -/
theorem schedFork (h : Inv cfg s) {child : TaskPtr} (hchild : child ∉ s.live) (mm : Bool) :
    Inv cfg (s.schedFork env child mm) := by
  have hne (q : TaskPtr) (hq : q ∈ s.live) : q ≠ child := by rintro rfl; exact hchild hq
  have honRq : s.onRq child = false := by
    cases hc : s.onRq child with
    | true => exact absurd (h.queue.live child hc) hchild
    | false => rfl
  have hok : TaskOk ((s.task s.curr).schedFork
      { s.task s.curr with mm := mm, started := false }) := by
    refine TaskOk.schedFork (fun hclass => ?_) (h.weight_le h.curr_live) mm
    -- only the idle task is of the idle class, and it forks with the boot parameters
    have hcurr : s.curr = s.idle := by
      by_contra hc
      exact (h.task s.curr h.curr_live hc).class_ne_idle hclass
    obtain ⟨tg, c, -, ht⟩ := h.idle_task
    rw [hcurr, ht]
    exact ⟨rfl, rfl⟩
  have hoff := (s.task s.curr).schedFork_onRq { s.task s.curr with mm := mm, started := false }
  unfold State.schedFork
  dsimp only
  generalize (s.task s.curr).schedFork { s.task s.curr with mm := mm, started := false } = t
    at hok hoff
  -- the child has joined, and the fair class has not reacted yet
  let s' : State := { s with
    se := Function.update s.se child { execStart := 0, sumExecRuntime := 0 }
    needResched := Function.update s.needResched child false
    live := insert child s.live
    task := Function.update s.task child t }
  have htask (q : TaskPtr) (hq : q ∈ s.live) : s'.task q = s.task q :=
    Function.update_of_ne (hne q hq) _ _
  refine of_quiet (s := s') ?_ (s'.reschedCurr_quiet _)
  refine ⟨⟨?idle_mem, ?idle_task, ?curr_onRq, ?stop_task⟩, ?queue, ?task, ?needResched⟩
  case idle_mem => exact Finset.mem_insert_of_mem h.idle_mem
  case idle_task =>
    show IdleTask cfg (s'.task s.idle)
    rw [htask _ h.idle_mem]
    exact h.idle_task
  case curr_onRq =>
    show s.curr = s.idle ∨ (s'.task s.curr).onRq = true
    rw [htask _ h.curr_live]
    exact h.curr_onRq
  case stop_task =>
    intro q hq
    obtain ⟨hlive, hidle, hfifo⟩ := h.stop_task q hq
    refine ⟨Finset.mem_insert_of_mem hlive, hidle, ?_⟩
    rw [htask q hlive]
    exact hfifo
  case queue =>
    have hsame : s'.onRq = s.onRq := by
      funext q
      by_cases hq : q = child
      · rw [hq, honRq]
        show (Function.update s.task child t child).onRq = false
        rw [Function.update_self, hoff]
      · exact congrArg TaskStruct.onRq (Function.update_of_ne hq _ _)
    rw [hsame]
    exact h.queue.insert_live honRq rfl rfl fun q hq => Function.update_of_ne hq _ _
  case task =>
    intro q hq hidle
    rcases Finset.mem_insert.mp hq with rfl | hq
    · show TaskOk (Function.update s.task q t q)
      rw [Function.update_self]
      exact hok
    · rw [htask q hq]
      exact h.task q hq hidle
  case needResched =>
    intro q hq
    have hqc : q ≠ child := by
      rintro rfl
      have hchild : Function.update s.needResched q false q = true := hq
      simp at hchild
    have hq' : Function.update s.needResched child false q = true := hq
    rw [Function.update_of_ne hqc] at hq'
    exact h.needResched q hq'

variable (env) in
/-- The queue is consistent when `__schedule` asks the classes. -/
theorem pickState (h : Inv cfg s) (hworker : ∀ w, env.toWakeup = some w → s.Target w) :
    QueueInv (s.pickState cfg env) (s.pickState cfg env).onRq := by
  refine QueueInv.pickState (h.queue.deactivatePrev cfg env (fun hs => ?_) fun w hw => ?_)
  · have hon := h.onRq_of_ne (h.sleeps_ne_idle hs)
    exact ⟨hon, (h.taskOk_of_onRq hon).class_ne_idle⟩
  · obtain ⟨hlive, hidle⟩ := hworker w hw
    exact ⟨hlive, (h.task w hlive hidle).class_ne_idle, (h.task w hlive hidle).weight_le⟩

variable (env) in
/-- No task is marked after `__schedule`, which therefore does not go back to its start. -/
theorem schedule_needResched (h : Inv cfg s) (p : TaskPtr) :
    (s.schedule cfg env).needResched p = false := by
  obtain ⟨-, -, -, hneed, -⟩ := s.schedule_spec cfg env
  rw [hneed]
  by_cases hp : p = s.curr
  · rw [hp, Function.update_self]
  · -- only the task that ran could have been marked
    rw [Function.update_of_ne hp]
    exact eq_false_of_ne_true fun hn => hp (h.needResched p hn)

variable (env) in
/-- `__schedule` keeps the invariant. -/
theorem schedule (h : Inv cfg s) (hworker : ∀ w, env.toWakeup = some w → s.Target w) :
    Inv cfg (s.schedule cfg env) := by
  have hpick := h.pickState env hworker
  obtain ⟨htask, hrq, hcurr, -, hlive, hidle, hstop, -⟩ := s.schedule_spec cfg env
  have hidle_task : (s.deactivatePrev cfg env).task s.idle = s.task s.idle := by
    -- the idle task does not sleep and is not a worker
    by_cases hc : s.idle = s.curr
    · have hstate := h.idle_state
      rw [hc] at hstate ⊢
      rw [State.deactivatePrev_task_curr, TaskStruct.deactivate, if_neg (by simp [hstate])]
    · rw [State.deactivatePrev_task_of_ne cfg env s hc, if_neg]
      rintro ⟨-, hw⟩
      exact (hworker _ hw).2 rfl
  refine ⟨⟨?idle_mem, ?idle_task, ?curr_onRq, ?stop_task⟩, ?queue, ?task, ?needResched⟩
  case idle_mem => rw [hidle, hlive]; exact h.idle_mem
  case idle_task => rw [hidle, htask, hidle_task]; exact h.idle_task
  case curr_onRq =>
    rw [hcurr, hidle, htask, ← s.pickState_task cfg env, ← (s.pickState_frame cfg env).idle]
    exact pickNextTask_onRq hpick
  case stop_task =>
    intro q hq
    rw [hstop] at hq
    rw [hlive, hidle, s.schedule_task_eq cfg env]
    exact h.stop_task q hq
  case queue =>
    have honRq : (s.schedule cfg env).onRq = (s.pickState cfg env).onRq := by
      unfold State.onRq
      rw [htask, s.pickState_task]
    rw [honRq]
    refine hpick.congr hrq (hlive.trans (s.pickState_frame cfg env).live.symm) fun q _ => ?_
    rw [htask, s.pickState_task]
    exact ⟨rfl, rfl⟩
  case task =>
    intro q hq hne
    rw [hlive] at hq
    rw [hidle] at hne
    exact (h.task q hq hne).steps (State.schedule_taskSteps Rule.any env h.toSettled q)
  case needResched =>
    intro q hq
    rw [h.schedule_needResched env q] at hq
    cases hq

variable (env) in
/-- So does `sched_yield`, which calls it. -/
theorem schedYield (h : Inv cfg s) (hon : (s.task s.curr).onRq = true)
    (hworker : ∀ w, env.toWakeup = some w → s.Target w) : Inv cfg (s.schedYield cfg env) := by
  have hf := s.classYieldTask_frame
  have hyield := h.of_frame hf s.classYieldTask_task (h.queue.classYieldTask hon)
  refine hyield.schedule env fun w hw => ?_
  unfold State.Target
  rw [hf.live, hf.idle]
  exact hworker w hw

variable (env) in
/-- The old and the new stop task are not queued, so that their change of the class moves nothing.
-/
theorem schedSetStopTask (h : Inv cfg s) {stop : Option TaskPtr} (c : Caller)
    (topWaiter : Option ℤ)
    (hnew : ∀ p, stop = some p → s.Target p ∧ s.stop ≠ some p ∧ (s.task p).onRq = false)
    (hold : ∀ p, s.stop = some p → (s.task p).onRq = false)
    (hok : ∀ p ∈ s.live, p ≠ s.idle →
      TaskOk ((s.schedSetStopTask cfg env stop c topWaiter).task p)) :
    Inv cfg (s.schedSetStopTask cfg env stop c topWaiter) := by
  have hqueue := h.queue.schedSetStopTask cfg env stop c topWaiter (fun p hp => by
    obtain ⟨⟨hlive, hidle⟩, -, hoff⟩ := hnew p hp
    exact ⟨hlive, (h.task p hlive hidle).class_ne_idle, (h.task p hlive hidle).weight_le, hoff⟩)
    hold
  obtain ⟨hlive, hcurr, hidle, hstop, -, hneed, honRq, hother, hfifo, -⟩ :=
    s.schedSetStopTask_spec cfg env stop c topWaiter
  refine ⟨⟨?_, ?_, ?_, ?_⟩, hqueue, ?_, ?_⟩
  · rw [hidle, hlive]
    exact h.idle_mem
  · -- the idle task is neither of the two
    rw [hidle, hother s.idle (fun heq => (hnew _ heq).1.2 rfl)
      fun heq => (h.stop_task _ heq).2.1 rfl]
    exact h.idle_task
  · rw [hcurr, hidle, honRq]
    exact h.curr_onRq
  · intro p hp
    rw [hstop] at hp
    obtain ⟨⟨hl, hne⟩, hns, -⟩ := hnew p hp
    rw [hlive, hidle]
    exact ⟨hl, hne, hfifo p hp hns⟩
  · rw [hlive, hidle]
    exact hok
  · intro p hp
    rw [hcurr]
    by_contra hne
    rw [hneed p hne] at hp
    exact hne (h.needResched p hp)

/-- Every operation keeps the invariant. -/
theorem next (h : Inv cfg s) {op : Op} (hen : s.Enabled rule op env) :
    Inv cfg (s.next cfg op env) := by
  have hok : ∀ p ∈ s.live, p ≠ s.idle → TaskOk ((s.next cfg op env).task p) := fun p hp hidle =>
    (h.task p hp hidle).steps (State.next_taskSteps h.toSettled hen hp hidle)
  obtain ⟨hworker, hop⟩ := hen
  cases op with
  | schedFork child mm => exact h.schedFork env hop.1 mm
  | wakeUpNewTask q =>
    have hq := h.task q hop.1.1 hop.1.2
    exact h.of_update (s.wakeUpNewTask_frame cfg env q) (s.wakeUpNewTask_task cfg env q) hop.1.2
      (h.queue.wakeUpNewTask cfg env (hq.unstarted hop.2).1 hop.1.1 hq.class_ne_idle hq.weight_le)
      hok (fun _ => rfl) fun _ => by rw [TaskStruct.start_eq]
  | setCurrentState state =>
    let f (t : TaskStruct) : TaskStruct := { t with state := state }
    have hqueue : QueueInv (s.modifyTask s.curr f) (s.modifyTask s.curr f).onRq :=
      h.queue.modify_fields rfl rfl rfl
    exact h.of_update (s.modifyTask_frame s.curr f) (s.modifyTask_task s.curr f) hop hqueue hok id
      fun _ => rfl
  | schedule => exact h.schedule env hworker
  | schedulerTick =>
    -- the tick only touches a WRR task, which is queued
    have hqueue := h.queue.schedulerTick cfg env fun hwrr =>
      h.onRq_of_ne fun heq => h.idle_class (heq ▸ hwrr)
    have htask := s.schedulerTick_task cfg env
    by_cases hwrr : (s.task s.curr).schedClass = .wrr
    · have hne : s.curr ≠ s.idle := fun heq => h.idle_class (heq ▸ hwrr)
      rw [if_pos hwrr] at htask
      exact h.of_update (s.schedulerTick_frame cfg env) htask hne hqueue hok
        (fun hon => by rw [TaskStruct.tickWrr_eq]; exact hon)
        fun _ => by rw [TaskStruct.tickWrr_eq]
    · rw [if_neg hwrr] at htask
      exact h.of_frame (s.schedulerTick_frame cfg env) htask hqueue
  | schedYield => exact h.schedYield env (h.onRq_of_ne hop.1) hworker
  | tryToWakeUp q state =>
    have hq := h.task q hop.1 hop.2
    exact h.of_update (s.tryToWakeUp_frame cfg env q state) (s.tryToWakeUp_task cfg env q state)
      hop.2 (h.queue.wakeUp cfg env hop.1 hq.class_ne_idle hq.weight_le state 0) hok
      (fun hon => by
        unfold TaskStruct.wake
        split_ifs
        · exact hon
        · exact hon)
      fun _ => by rw [TaskStruct.wake_eq]
  | rtMutexSetprio q prio =>
    have hq := h.task q hop.1.1 hop.1.2
    exact h.of_update (s.rtMutexSetprio_frame cfg env q prio)
      (s.rtMutexSetprio_task cfg env hop.1.2 prio) hop.1.2
      (h.queue.rtMutexSetprio cfg env hop.1.1 hq.class_ne_idle hq.weight_le prio) hok
      (fun hon => by rw [TaskStruct.requeued_eq]; exact hon)
      fun _ => by rw [TaskStruct.requeued_eq]; rfl
  | setUserNice q nice =>
    have hq := h.task q hop.1 hop.2
    exact h.of_update (s.setUserNice_frame cfg env q nice) (s.setUserNice_task cfg env q nice)
      hop.2 (h.queue.setUserNice cfg env hop.1 hq.class_ne_idle hq.weight_le nice) hok
      (fun hon => by rw [TaskStruct.setUserNice_eq]; exact hon)
      fun _ => by rw [TaskStruct.setUserNice_eq]
  | schedSetscheduler q policy prio user c topWaiter =>
    have hq := h.task q hop.1.1 hop.1.2
    have hqueue := h.queue.schedSetscheduler cfg env hop.1.1 hq.class_ne_idle hq.weight_le policy
      prio user c topWaiter
    unfold State.next at hok ⊢
    dsimp only at hok ⊢
    -- a call that is rejected or has nothing to do leaves the state, the others change one task
    rcases State.schedSetscheduler_cases cfg env s q policy prio user c topWaiter with
      hr | ⟨req, -, hstop, -, hr⟩
    · rw [hr]
      exact h
    · rw [hr] at hok hqueue ⊢
      exact h.of_update (s.setschedulerCommit_frame cfg env q req prio topWaiter)
        (s.setschedulerCommit_task cfg env q req prio topWaiter) hop.1.2 hqueue hok
        (fun hon => by
          rw [TaskStruct.requeued_eq]
          exact (TaskStruct.setscheduler_onRq _ _ _ topWaiter).trans hon)
        fun hs => absurd hs hstop
  | schedMoveTask q tg =>
    have hq := h.task q hop.1 hop.2
    exact h.of_update (s.schedMoveTask_frame cfg env q tg) (s.schedMoveTask_task cfg env q tg)
      hop.2 (h.queue.schedMoveTask cfg env hop.1 hq.class_ne_idle hq.weight_le tg) hok
      (fun hon => by rw [TaskStruct.requeued_eq]; exact hon)
      fun _ => by rw [TaskStruct.requeued_eq]
  | schedSetStopTask stop c topWaiter =>
    exact h.schedSetStopTask env c topWaiter
      (fun p hp => ⟨(hop.1 p hp).1, (hop.1 p hp).2.1, (hop.1 p hp).2.2.1⟩) hop.2 hok
  | initIdleBootupTask =>
    have hoff := h.idle_onRq
    refine ⟨⟨h.idle_mem, ?_, ?_, ?_⟩, ?_, hok, h.needResched⟩
    · obtain ⟨tg, c, -, ht⟩ := h.idle_task
      refine ⟨tg, .idle, .inr rfl, ?_⟩
      show Function.update s.task s.idle _ s.idle = _
      rw [Function.update_self, ht]
    · by_cases hc : s.curr = s.idle
      · exact .inl hc
      · refine .inr ?_
        show (Function.update s.task s.idle _ s.curr).onRq = true
        rw [Function.update_of_ne hc]
        exact h.onRq_of_ne hc
    · intro q hq
      obtain ⟨hlive, hidle, hfifo⟩ := h.stop_task q hq
      refine ⟨hlive, hidle, ?_⟩
      show (Function.update s.task s.idle _ q).policy = .fifo
      rw [Function.update_of_ne hidle]
      exact hfifo
    · exact h.queue.modify_off (fun t => { t with schedClass := .idle }) hoff hoff
  | setGroupPath tg group =>
    exact ⟨⟨h.idle_mem, h.idle_task, h.curr_onRq, h.stop_task⟩,
      h.queue.congr rfl rfl fun _ _ => ⟨rfl, rfl⟩, hok, h.needResched⟩
  | reschedTask => exact h.of_quiet (s.reschedCurr_quiet true)

end Inv

/-! ## Runs -/

section Runs

variable {cfg : Config} {rule : Rule} {s : State}

/-- The invariant holds in every reachable state. -/
theorem reachable_inv (hs : (system cfg rule).Reachable s) : Inv cfg s := by
  refine hs.invariant ?_ fun s i h hi => h.next hi
  rintro s ⟨idle, tg, group, clockTask, rfl⟩
  exact Inv.boot cfg idle tg group clockTask

/-- A property of tasks that forks hand on and every change of a task keeps holds of every task but
the idle task. It may depend on the paths of the task groups if these do not change. -/
theorem forall_task {I : (TaskGroupPtr → TaskGroup) → TaskStruct → Prop}
    (hidle : ∀ g t mm, IdleTask cfg t → I g (t.schedFork { t with mm := mm, started := false }))
    (hfork : ∀ g t mm, I g t → t.schedClass ≠ .stop →
      I g (t.schedFork { t with mm := mm, started := false }))
    (hgroup : rule.regroup → ∀ g g' t, I g t → I g' t)
    (hstep : ∀ g t t', I g t → TaskStep cfg rule g t t' → I g t')
    (hs : (system cfg rule).Reachable s) : ∀ p ∈ s.live, p ≠ s.idle → I s.group (s.task p) := by
  refine hs.invariant_with (I := fun s => ∀ p ∈ s.live, p ≠ s.idle → I s.group (s.task p))
    (fun s hr => reachable_inv hr) ?_ ?_
  · rintro s ⟨idle, tg, group, clockTask, rfl⟩ p hp hne
    exact absurd (Finset.mem_singleton.mp hp) hne
  rintro s ⟨op, env⟩ hinv ih hen p hp hne
  replace hp : p ∈ (s.next cfg op env).live := hp
  replace hne : p ≠ (s.next cfg op env).idle := hne
  show I (s.next cfg op env).group ((s.next cfg op env).task p)
  obtain ⟨hidle_eq, hgroup_eq, hlive⟩ := s.next_fixed cfg op env
  rw [hidle_eq] at hne
  rw [hlive] at hp
  -- along the steps of the operation the paths are those of the state before it
  have hsteps {t t' : TaskStruct} (hs : TaskSteps cfg rule s.group t t') (ht : I s.group t) :
      I s.group t' := by
    induction hs with
    | refl => exact ht
    | tail _ hs ih => exact hstep _ _ _ ih hs
  have hold (hp : p ∈ s.live) : I s.group ((s.next cfg op env).task p) :=
    hsteps (State.next_taskSteps hinv.toSettled hen hp hne) (ih p hp hne)
  rw [hgroup_eq]
  cases op with
  | schedFork child mm =>
    rcases Finset.mem_insert.mp hp with rfl | hp
    · have htask : (s.next cfg (.schedFork p mm) env).task p =
          (s.task s.curr).schedFork { s.task s.curr with mm := mm, started := false } :=
        Function.update_self _ _ _
      rw [htask]
      -- the parent is the idle task, or a task the property holds of
      by_cases hc : s.curr = s.idle
      · exact hidle _ _ mm (by rw [hc]; exact hinv.idle_task)
      · exact hfork _ _ mm (ih s.curr hinv.curr_live hc) hen.2.2
    · exact hold hp
  | setGroupPath tg group => exact hgroup hen.2 s.group _ _ (hold hp)
  | _ => exact hold hp

/-- A run with one more step. -/
theorem run_next {h : List (State × (Op × Env))} {op : Op} (hr : (system cfg rule).Run h s)
    (hen : s.Enabled rule op env) :
    (system cfg rule).Run ((s, (op, env)) :: h) (s.next cfg op env) :=
  .step hr hen

/-- The same without the history. -/
theorem reachable_next (hs : (system cfg rule).Reachable s) {op : Op} {env : Env}
    (hen : s.Enabled rule op env) : (system cfg rule).Reachable (s.next cfg op env) :=
  hs.step (i := (op, env)) hen

end Runs

/-! ## A small kernel

The runs on fixed inputs in this and the other modules use one boot task, three other tasks, one
foreground and one background group, and an environment in which nothing happens but what the
operation does. -/

namespace Small

/-- `HZ = 100`: a unit of weight is one tick. -/
def cfg : Config := { wrrWeightUnit := 1, rrTimeslice := 10 }

/-- The idle task. -/
def idle : TaskPtr := ⟨0x1000, by decide⟩

/-- The first task. -/
def taskA : TaskPtr := ⟨0x2000, by decide⟩

/-- The second task. -/
def taskB : TaskPtr := ⟨0x3000, by decide⟩

/-- The third task. -/
def taskC : TaskPtr := ⟨0x4000, by decide⟩

/-- Group 0 is the root group, every other one is `/bg`. -/
def group (tg : TaskGroupPtr) : TaskGroup where
  autogroup := none
  cgroup :=
    if tg = 0 then some ⟨['/'], by decide, by decide, by decide⟩
    else some ⟨['/', 'b', 'g'], by decide, by decide, by decide⟩

/-- The fair class offers the first of the given tasks that is queued there; the throttle test reads
the given nanoseconds. -/
def env (fair : List TaskPtr) (tvNsec : ℕ) : Env where
  clockDelta _ := 0
  tvNsec := tvNsec
  hookResched := false
  rtExceeded := false
  rtSliceExpired := false
  preemptActive := false
  signalPending := false
  toWakeup := none
  pickStop _ := none
  pickRt _ := none
  pickFair s := fair.find? fun p => (s.task p).onRq && decide ((s.task p).schedClass = .fair)
  pickStop_queued _ _ h := by cases h
  pickRt_queued _ _ h := by cases h
  pickFair_queued s p h := by
    have := List.find?_some h
    simpa using this

/-- An unprivileged caller who owns the task and whose limits are zero. -/
def user : Caller where
  capSysNice := false
  rlimitRtprio := 0
  rlimitNice := 0
  sameOwner := true
  security := 0
  rtRuntimeZero := false

/-- The kernel before any other task is started. -/
def boot : State := State.boot cfg idle 0 group 0

/-- Start tasks in the fair class, each forked by the boot task. -/
def start : List TaskPtr → State
  | [] => boot
  | p :: ps =>
    ((start ps).next cfg (.schedFork p true) (env [] 0)).next cfg (.wakeUpNewTask p) (env [] 0)

/-- No worker is woken up in these runs. -/
theorem no_worker (s : State) (fair : List TaskPtr) (tvNsec : ℕ) :
    ∀ w, (env fair tvNsec).toWakeup = some w → s.Target w := by
  intro w hw
  cases hw

/-- The boot task can fork any tasks, each once. -/
theorem reachable_start (rule : Rule) (ps : List TaskPtr) (h : (idle :: ps).Nodup) :
    (system cfg rule).Reachable (start ps) ∧ (start ps).curr = idle ∧ (start ps).idle = idle ∧
      ∀ p, p ∈ (start ps).live ↔ p ∈ idle :: ps := by
  induction ps with
  | nil =>
    refine ⟨.init ⟨idle, 0, group, 0, rfl⟩, rfl, rfl, fun p => ?_⟩
    rw [List.mem_singleton]
    exact Finset.mem_singleton
  | cons q ps ih =>
    have hq : q ∉ idle :: ps := by
      rw [List.nodup_cons, List.mem_cons, not_or] at h
      rw [List.mem_cons, not_or]
      exact ⟨Ne.symm h.1.1, (List.nodup_cons.mp h.2).1⟩
    obtain ⟨hr, hcurr, hidle, hlive⟩ :=
      ih (h.sublist ((List.sublist_cons_self q ps).cons_cons idle))
    have hclass : ((start ps).task (start ps).curr).schedClass ≠ .stop := by
      obtain ⟨tg, c, hc, ht⟩ := (reachable_inv hr).idle_task
      rw [hcurr, ← hidle, ht]
      rcases hc with rfl | rfl <;> simp
    let forked := (start ps).next cfg (.schedFork q true) (env [] 0)
    have hfork : (start ps).Enabled rule (.schedFork q true) (env [] 0) :=
      ⟨no_worker _ _ _, by rwa [hlive], hclass⟩
    have hne : q ≠ (start ps).idle := fun heq => hq (by rw [heq, hidle]; exact List.mem_cons_self)
    have hstarted : (forked.task q).started = false := by
      show (Function.update (start ps).task q _ q).started = false
      rw [Function.update_self, TaskStruct.schedFork_eq, TaskStruct.forked,
        TaskStruct.revertOnFork_eq]
    have hwake : forked.Enabled rule (.wakeUpNewTask q) (env [] 0) :=
      ⟨no_worker _ _ _, ⟨Finset.mem_insert_self q _, hne⟩, hstarted⟩
    have hf := forked.wakeUpNewTask_frame cfg (env [] 0) q
    refine ⟨reachable_next (reachable_next hr hfork) hwake, hf.curr.trans hcurr,
      hf.idle.trans hidle, fun p => ?_⟩
    · show p ∈ (forked.wakeUpNewTask cfg (env [] 0) q).live ↔ _
      rw [hf.live]
      show p ∈ insert q (start ps).live ↔ _
      rw [Finset.mem_insert, hlive, List.mem_cons, List.mem_cons, List.mem_cons]
      tauto

/-- `sched_setscheduler(p, SCHED_WRR, w)` by an unprivileged user. -/
def setWrr (s : State) (p : TaskPtr) (w : ℤ) : State :=
  s.next cfg (.schedSetscheduler p Policy.wrr.toNat w true user none) (env [] 0)

/-- Nobody waits for a mutex of the task in the call. -/
theorem reachable_setWrr {rule : Rule} {s : State} (hs : (system cfg rule).Reachable s)
    {p : TaskPtr} (hp : s.Target p) (hrule : rule.topWaiter (s.task p) none) (w : ℤ) :
    (system cfg rule).Reachable (setWrr s p w) := by
  have hen : s.Enabled rule (.schedSetscheduler p Policy.wrr.toNat w true user none) (env [] 0) :=
    ⟨no_worker _ _ _, hp, hrule⟩
  exact reachable_next hs hen

/-- One task, of WRR. -/
theorem wrrA_reachable (rule : Rule)
    (hrule : rule.topWaiter ((start [taskA]).task taskA) none) (w : ℤ) :
    (system cfg rule).Reachable (setWrr (start [taskA]) taskA w) := by
  obtain ⟨hs, -, -, hlive⟩ := reachable_start rule [taskA] (by decide)
  exact reachable_setWrr hs ⟨(hlive taskA).mpr (by decide), by decide⟩ hrule w

/-- Two tasks, of WRR with the weights 1 and 2. -/
def wrrPair : State := setWrr (setWrr (start [taskA, taskB]) taskA 1) taskB 2

/-- The calls that lead there. -/
theorem wrrPair_reachable : (system cfg .any).Reachable wrrPair := by
  have hstart := (reachable_start .any [taskA, taskB] (by decide)).1
  have hA := reachable_setWrr hstart (p := taskA) ⟨by decide, by decide⟩ trivial 1
  exact reachable_setWrr hA (p := taskB) ⟨by decide, by decide⟩ trivial 2

/-- The task has been picked. -/
def runA : State :=
  (setWrr (start [taskA]) taskA 0).next cfg .schedule (env [] 72)

/-- Task A is started and picked. -/
theorem runA_reachable (rule : Rule) (hrule : rule.topWaiter ((start [taskA]).task taskA) none) :
    (system cfg rule).Reachable runA :=
  reachable_next (wrrA_reachable rule hrule 0) ⟨no_worker _ _ _, trivial⟩

end Small

end WrrSched
