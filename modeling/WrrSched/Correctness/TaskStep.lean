import Mathlib.Logic.Relation
import WrrSched.Correctness.Validation

/-!
# The life of one task

`TaskStep` lists everything that can happen to a task other than the idle task between two
operations. `next_taskSteps` says that every operation acts on every task by such steps, so that an
invariant of single tasks is proved by one case per constructor and not per operation:
`forall_task`.
-/

namespace WrrSched

/-- One change of a task, under the rule of the run and for the given paths of the task groups. -/
inductive TaskStep (cfg : Config) (rule : Rule) (group : TaskGroupPtr → TaskGroup) :
    TaskStruct → TaskStruct → Prop
  | setState {t} (state : ℕ) : t.onRq = true → TaskStep cfg rule group t { t with state := state }
  | sleep {t} : t.onRq = true → t.state ≠ taskRunning →
      TaskStep cfg rule group t { t with onRq := false }
  | wake {t} (state : ℕ) : TaskStep cfg rule group t (t.wake cfg group state)
  | start {t} (fg : Bool) : t.started = false →
      TaskStep cfg rule group t (t.start cfg group fg)
  | tick {t} : t.onRq = true → t.schedClass = .wrr → TaskStep cfg rule group t (t.tickWrr cfg)
  | boost {t} (prio : ℤ) : rule.setprio t prio →
      TaskStep cfg rule group t ((t.boost prio).requeued cfg group t.onRq)
  | setUserNice {t} (nice : ℤ) : TaskStep cfg rule group t (t.setUserNice cfg group nice)
  | setscheduler {t} (req : Request) (prio : ℤ) (topWaiter : Option ℤ) :
      checkPriority t req.policy prio = .ok () → rule.topWaiter t topWaiter →
      TaskStep cfg rule group t
        (TaskStruct.requeued cfg group t.onRq
          (TaskStruct.setscheduler { t with schedResetOnFork := req.resetOnFork }
            req.policy prio topWaiter))
  | move {t} (tg : TaskGroupPtr) :
      TaskStep cfg rule group t
        (TaskStruct.requeued cfg group t.onRq { t with schedTaskGroup := tg })
  /-- `sched_set_stop_task`, for the new stop task. -/
  | toStop {t} : t.onRq = false → t.policy = .fifo →
      TaskStep cfg rule group t { t with schedClass := .stop }
  /-- `sched_set_stop_task`, for the old stop task. -/
  | fromStop {t} : t.onRq = false → t.policy = .fifo →
      TaskStep cfg rule group t { t with schedClass := .rt }

/-- Any number of changes. -/
abbrev TaskSteps (cfg : Config) (rule : Rule) (group : TaskGroupPtr → TaskGroup) :
    TaskStruct → TaskStruct → Prop :=
  Relation.ReflTransGen (TaskStep cfg rule group)

/-- The idle task never leaves the state it was booted in, but for its class. -/
def IdleTask (cfg : Config) (t : TaskStruct) : Prop :=
  ∃ tg c, (c = SchedClass.fair ∨ c = .idle) ∧ t = { initTask cfg tg with schedClass := c }

/-- What the life of the tasks depends on in a state: the idle task is as it was booted, another
running task is queued, and the stop task is a FIFO task. -/
structure State.Settled (cfg : Config) (s : State) : Prop where
  idle_mem : s.idle ∈ s.live
  idle_task : IdleTask cfg (s.task s.idle)
  curr_onRq : s.curr = s.idle ∨ (s.task s.curr).onRq = true
  stop_task : ∀ p, s.stop = some p → p ∈ s.live ∧ p ≠ s.idle ∧ (s.task p).policy = .fifo

namespace State

variable {cfg : Config} {rule : Rule} {env : Env} {s : State}

/-- Every running task but the idle task is queued. -/
theorem Settled.onRq_of_ne (h : s.Settled cfg) (hne : s.curr ≠ s.idle) :
    (s.task s.curr).onRq = true :=
  h.curr_onRq.resolve_left hne

/-- The idle task never sleeps. -/
theorem Settled.idle_state (h : s.Settled cfg) : (s.task s.idle).state = taskRunning := by
  obtain ⟨tg, c, -, ht⟩ := h.idle_task
  rw [ht]
  rfl

/-- The idle task is never queued. -/
theorem Settled.idle_onRq (h : s.Settled cfg) : (s.task s.idle).onRq = false := by
  obtain ⟨tg, c, -, ht⟩ := h.idle_task
  rw [ht]
  rfl

/-- The idle task is never a WRR task. -/
theorem Settled.idle_class (h : s.Settled cfg) : (s.task s.idle).schedClass ≠ .wrr := by
  obtain ⟨tg, c, hc, ht⟩ := h.idle_task
  rw [ht]
  rcases hc with rfl | rfl <;> simp

/-- So `__schedule` never puts the idle task to sleep. -/
theorem Settled.sleeps_ne_idle (h : s.Settled cfg) (hs : s.sleeps env = true) :
    s.curr ≠ s.idle := by
  intro heq
  simp [sleeps, heq, h.idle_state] at hs

/-- A step that leaves the tasks alone leaves a settled state settled. -/
theorem Settled.of_frame {s' : State} (h : s.Settled cfg) (hf : Frame s s')
    (ht : s'.task = s.task) : s'.Settled cfg where
  idle_mem := by rw [hf.idle, hf.live]; exact h.idle_mem
  idle_task := by rw [hf.idle, ht]; exact h.idle_task
  curr_onRq := by rw [hf.curr, hf.idle, ht]; exact h.curr_onRq
  stop_task := by rw [hf.stop, hf.live, hf.idle, ht]; exact h.stop_task

/-! ## One operation -/

/-- An operation that changes the fields of one task only changes the other tasks by no step. -/
private theorem taskSteps_of_update {group : TaskGroupPtr → TaskGroup}
    {task' : TaskPtr → TaskStruct} {q : TaskPtr} {t : TaskStruct}
    (htask : task' = Function.update s.task q t)
    (hq : TaskSteps cfg rule group (s.task q) t) (p : TaskPtr) :
    TaskSteps cfg rule group (s.task p) (task' p) := by
  rw [htask]
  by_cases hpq : p = q
  · rw [hpq, Function.update_self]
    exact hq
  · rw [Function.update_of_ne hpq]

/-- `deactivate_task` in `__schedule`, where a signal may keep the task awake. -/
theorem deactivate_taskSteps {group : TaskGroupPtr → TaskGroup} {t : TaskStruct}
    (h : t.state ≠ taskRunning → t.onRq = true) :
    TaskSteps cfg rule group t (t.deactivate env) := by
  rw [TaskStruct.deactivate]
  split_ifs with hcond hsig
  · exact .single (.setState taskRunning (h hcond.1))
  · exact .single (.sleep (h hcond.1) hcond.1)
  · exact .refl

variable (rule env) in
/-- What `__schedule` does to a task, be it the one that sleeps, a worker or another one. -/
theorem schedule_taskSteps (h : s.Settled cfg) (p : TaskPtr) :
    TaskSteps cfg rule s.group (s.task p) ((s.schedule cfg env).task p) := by
  rw [(s.schedule_spec cfg env).1]
  by_cases hp : p = s.curr
  · rw [hp, deactivatePrev_task_curr]
    refine deactivate_taskSteps fun hstate => h.onRq_of_ne fun hidle => hstate ?_
    rw [hidle]
    exact h.idle_state
  · rw [deactivatePrev_task_of_ne cfg env s hp]
    split
    · exact .single (.wake taskNormal)
    · exact .refl

/-- What `__sched_setscheduler` does to a task, whatever it returns. -/
theorem schedSetscheduler_taskSteps {q : TaskPtr} {policy prio : ℤ} {user : Bool} {c : Caller}
    {topWaiter : Option ℤ} (hw : rule.topWaiter (s.task q) topWaiter) (p : TaskPtr) :
    TaskSteps cfg rule s.group (s.task p)
      ((s.schedSetscheduler cfg env q policy prio user c topWaiter).1.task p) := by
  rcases schedSetscheduler_cases cfg env s q policy prio user c topWaiter with
    h | ⟨req, hvalid, -, -, h⟩
  · rw [h]
  · rw [h]
    exact taskSteps_of_update (setschedulerCommit_task cfg env s q req prio topWaiter)
      (.single (.setscheduler req prio topWaiter (validate_eq_ok hvalid).2 hw)) p

variable (cfg env) in
/-- What `__sched_setscheduler` leaves alone. -/
theorem schedSetscheduler_frame (s : State) (q : TaskPtr) (policy prio : ℤ) (user : Bool)
    (c : Caller) (topWaiter : Option ℤ) :
    Frame s (s.schedSetscheduler cfg env q policy prio user c topWaiter).1 := by
  rcases schedSetscheduler_cases cfg env s q policy prio user c topWaiter with
    h | ⟨req, -, -, -, h⟩
  · rw [h]
    exact .refl s
  · rw [h]
    exact setschedulerCommit_frame cfg env s q req prio topWaiter

/-- The call of `sched_set_stop_task` is valid. -/
theorem validate_fifo (t : TaskStruct) (c : Caller) :
    validate t Policy.fifo.toNat (maxRtPrio - 1) false c =
      .ok { policy := .fifo, resetOnFork := false, oldpolicy := none } := by
  cases hmm : t.mm <;>
    simp [validate, decodePolicy, checkPriority, checkUnprivileged, checkSecurity, hmm, bind,
      Except.bind, pure, Except.pure, Policy.toNat, Policy.ofNat?, schedResetOnFork, maxRtPrio,
      maxUserRtPrio, rtPolicy]

/-- The call of `sched_set_stop_task` leaves a FIFO task. -/
theorem schedSetscheduler_fifo {q : TaskPtr} (hstop : s.stop ≠ some q) (c : Caller)
    (topWaiter : Option ℤ) :
    (((s.schedSetscheduler cfg env q Policy.fifo.toNat (maxRtPrio - 1) false c topWaiter).1.task
      q).policy = .fifo) := by
  have hvalid := validate_fifo (s.task q) c
  have hl := schedSetscheduler_of_ok cfg env topWaiter hvalid
  unfold setschedulerLocked at hl
  rw [if_neg hstop] at hl
  -- the shortcut is taken only by a task that is a FIFO task already
  split at hl
  · next hnothing =>
    simp only [nothingChanges, decide_eq_true_eq] at hnothing
    rw [Option.some.inj hl]
    exact hnothing.1.symm
  · simp only [Bool.false_eq_true, false_and, if_false, Option.mem_def, reduceCtorEq,
      exists_false] at hl
    rw [Option.some.inj hl, setschedulerCommit_task, Function.update_self,
      TaskStruct.requeued_eq]
    exact TaskStruct.setscheduler_policy _ _ _ topWaiter

variable (cfg env) in
/-- `__sched_setscheduler` queues a task again that it has taken off. -/
theorem schedSetscheduler_onRq (s : State) (q : TaskPtr) (policy prio : ℤ) (user : Bool)
    (c : Caller) (topWaiter : Option ℤ) (p : TaskPtr) :
    ((s.schedSetscheduler cfg env q policy prio user c topWaiter).1.task p).onRq =
      (s.task p).onRq := by
  rcases schedSetscheduler_cases cfg env s q policy prio user c topWaiter with
    h | ⟨req, -, -, -, h⟩
  · rw [h]
  · rw [h, setschedulerCommit_task]
    by_cases hpq : p = q
    · rw [hpq, Function.update_self, TaskStruct.requeued_eq]
      exact TaskStruct.setscheduler_onRq _ _ _ topWaiter
    · rw [Function.update_of_ne hpq]

/-- `__sched_setscheduler` leaves the other tasks alone. -/
theorem schedSetscheduler_task_of_ne {q : TaskPtr} (policy prio : ℤ) (user : Bool)
    (c : Caller) (topWaiter : Option ℤ) {p : TaskPtr} (hpq : p ≠ q) :
    (s.schedSetscheduler cfg env q policy prio user c topWaiter).1.task p = s.task p := by
  rcases schedSetscheduler_cases cfg env s q policy prio user c topWaiter with
    h | ⟨req, -, -, -, h⟩
  · rw [h]
  · rw [h, setschedulerCommit_task, Function.update_of_ne hpq]

/-- The other tasks are left alone when a task becomes the stop task. -/
theorem becomeStop_task_of_ne {q : TaskPtr} (c : Caller) (topWaiter : Option ℤ) {p : TaskPtr}
    (hpq : p ≠ q) : (s.becomeStop cfg env q c topWaiter).task p = s.task p := by
  unfold becomeStop
  rw [modifyTask_task, Function.update_of_ne hpq, schedSetscheduler_task_of_ne _ _ _ _ _ hpq]

variable (cfg env) in
/-- What the first half of `sched_set_stop_task` leaves alone. -/
theorem becomeStop_frame (s : State) (q : TaskPtr) (c : Caller) (topWaiter : Option ℤ) :
    Frame s (s.becomeStop cfg env q c topWaiter) := by
  unfold becomeStop
  exact (schedSetscheduler_frame cfg env s q _ _ _ c topWaiter).trans (modifyTask_frame _ q _)

variable (cfg env) in
/-- A task stays queued, or not, when it becomes the stop task. -/
theorem becomeStop_onRq (s : State) (q : TaskPtr) (c : Caller) (topWaiter : Option ℤ)
    (p : TaskPtr) : ((s.becomeStop cfg env q c topWaiter).task p).onRq = (s.task p).onRq := by
  unfold becomeStop
  rw [modifyTask_task, ← schedSetscheduler_onRq cfg env s q Policy.fifo.toNat (maxRtPrio - 1) false
    c topWaiter]
  by_cases hpq : p = q
  · rw [hpq, Function.update_self]
  · rw [Function.update_of_ne hpq]

variable (cfg env) in
/-- The new stop task gets a FIFO policy first and the stop class after that. -/
theorem becomeStop_taskSteps {q : TaskPtr} (c : Caller) {topWaiter : Option ℤ}
    (hstop : s.stop ≠ some q) (honRq : (s.task q).onRq = false)
    (hw : rule.topWaiter (s.task q) topWaiter) :
    TaskSteps cfg rule s.group (s.task q) ((s.becomeStop cfg env q c topWaiter).task q) := by
  unfold becomeStop
  rw [modifyTask_task, Function.update_self]
  refine (schedSetscheduler_taskSteps hw q).tail (.toStop ?_ ?_)
  · rw [schedSetscheduler_onRq, honRq]
  · exact schedSetscheduler_fifo hstop c topWaiter

/-- What `sched_set_stop_task` does to a task, be it the old stop task or the new one. -/
theorem schedSetStopTask_taskSteps (h : s.Settled cfg) {stop : Option TaskPtr} {c : Caller}
    {topWaiter : Option ℤ}
    (hnew : ∀ p, stop = some p → s.Target p ∧ s.stop ≠ some p ∧ (s.task p).onRq = false ∧
      rule.topWaiter (s.task p) topWaiter)
    (hold : ∀ p, s.stop = some p → (s.task p).onRq = false) (p : TaskPtr) :
    TaskSteps cfg rule s.group (s.task p)
      ((s.schedSetStopTask cfg env stop c topWaiter).task p) := by
  by_cases hp : stop = some p
  · -- the new stop task, which is not the old one
    obtain ⟨-, hne, honRq, hw⟩ := hnew p hp
    have hsteps := becomeStop_taskSteps cfg env c hne honRq hw
    unfold schedSetStopTask
    rw [hp]
    cases hs : s.stop with
    | none => exact hsteps
    | some q =>
      have hpq : p ≠ q := by rintro rfl; exact hne hs
      dsimp only
      rw [modifyTask_task, Function.update_of_ne hpq]
      exact hsteps
  · -- the old stop task, which goes back to the RT class, or a bystander
    have hsame : (stop.elim s (s.becomeStop cfg env · c topWaiter)).task p = s.task p := by
      cases stop with
      | none => rfl
      | some q => exact becomeStop_task_of_ne c topWaiter (by rintro rfl; exact hp rfl)
    unfold schedSetStopTask
    cases hs : s.stop with
    | none =>
      dsimp only
      rw [hsame]
    | some q =>
      dsimp only
      rw [modifyTask_task]
      by_cases hpq : p = q
      · subst hpq
        rw [Function.update_self]
        dsimp only
        rw [hsame]
        exact .single (.fromStop (hold p hs) (h.stop_task p hs).2.2)
      · rw [Function.update_of_ne hpq]
        dsimp only
        rw [hsame]

variable (cfg env) in
/-- What `sched_set_stop_task` does: two tasks change class, the new one becomes a FIFO task. -/
theorem schedSetStopTask_spec (s : State) (stop : Option TaskPtr) (c : Caller)
    (topWaiter : Option ℤ) :
    let s' := s.schedSetStopTask cfg env stop c topWaiter
    s'.live = s.live ∧ s'.curr = s.curr ∧ s'.idle = s.idle ∧ s'.stop = stop ∧
      s'.group = s.group ∧ (∀ p, p ≠ s.curr → s'.needResched p = s.needResched p) ∧
      (∀ p, (s'.task p).onRq = (s.task p).onRq) ∧
      (∀ p, stop ≠ some p → s.stop ≠ some p → s'.task p = s.task p) ∧
      (∀ p, stop = some p → s.stop ≠ some p → (s'.task p).policy = .fifo) ∧
      ∀ p, s.stop = some p → (s'.task p).schedClass = .rt := by
  -- the first half, which gives the new stop task its policy
  have hframe : Frame s (stop.elim s (s.becomeStop cfg env · c topWaiter)) := by
    cases stop with
    | none => exact .refl s
    | some q => exact s.becomeStop_frame cfg env q c topWaiter
  have honRq (p : TaskPtr) :
      ((stop.elim s (s.becomeStop cfg env · c topWaiter)).task p).onRq = (s.task p).onRq := by
    cases stop with
    | none => rfl
    | some q => exact s.becomeStop_onRq cfg env q c topWaiter p
  have hother (p : TaskPtr) (hp : stop ≠ some p) :
      (stop.elim s (s.becomeStop cfg env · c topWaiter)).task p = s.task p := by
    cases stop with
    | none => rfl
    | some q => exact becomeStop_task_of_ne c topWaiter (by rintro rfl; exact hp rfl)
  have hfifo (p : TaskPtr) (hp : stop = some p) (hns : s.stop ≠ some p) :
      ((stop.elim s (s.becomeStop cfg env · c topWaiter)).task p).policy = .fifo := by
    subst hp
    show ((s.becomeStop cfg env p c topWaiter).task p).policy = .fifo
    unfold becomeStop
    rw [modifyTask_task, Function.update_self]
    exact schedSetscheduler_fifo hns c topWaiter
  -- the second half touches the old stop task only
  unfold schedSetStopTask
  dsimp only
  generalize stop.elim s (s.becomeStop cfg env · c topWaiter) = s' at hframe honRq hother hfifo
  cases hs : s.stop with
  | none =>
    exact ⟨hframe.live, hframe.curr, hframe.idle, rfl, hframe.group, hframe.needResched_of_ne,
      honRq, fun p hp _ => hother p hp, fun p hp hns => hfifo p hp (by rw [hs]; exact hns),
      fun p hp => by cases hp⟩
  | some q =>
    refine ⟨hframe.live, hframe.curr, hframe.idle, rfl, hframe.group, hframe.needResched_of_ne,
      fun p => ?_, fun p hp hns => ?_, fun p hp hns => ?_, fun p hp => ?_⟩
    · rw [← honRq, modifyTask_task]
      by_cases hpq : p = q
      · rw [hpq, Function.update_self]
      · rw [Function.update_of_ne hpq]
    · have hpq : p ≠ q := by rintro rfl; exact hns rfl
      rw [modifyTask_task, Function.update_of_ne hpq]
      exact hother p hp
    · have hpq : p ≠ q := by rintro rfl; exact hns rfl
      rw [modifyTask_task, Function.update_of_ne hpq]
      exact hfifo p hp (by rw [hs]; exact hns)
    · obtain rfl : q = p := Option.some.inj hp
      rw [modifyTask_task, Function.update_self]

/-- Every operation acts on every task that exists by steps of its life. -/
theorem next_taskSteps (h : s.Settled cfg) {op : Op} (hen : s.Enabled rule op env) {p : TaskPtr}
    (hp : p ∈ s.live) (hidle : p ≠ s.idle) :
    TaskSteps cfg rule s.group (s.task p) ((s.next cfg op env).task p) := by
  obtain ⟨-, hop⟩ := hen
  cases op with
  | schedFork child mm =>
    have hne : p ≠ child := by rintro rfl; exact hop.1 hp
    show TaskSteps cfg rule s.group _ (Function.update s.task child _ p)
    rw [Function.update_of_ne hne]
  | wakeUpNewTask q =>
    exact taskSteps_of_update (s.wakeUpNewTask_task cfg env q) (.single (.start _ hop.2)) p
  | setCurrentState state =>
    exact taskSteps_of_update (s.modifyTask_task s.curr fun t => { t with state := state })
      (.single (.setState state (h.onRq_of_ne hop))) p
  | schedule => exact schedule_taskSteps rule env h p
  | schedulerTick =>
    rw [State.next, schedulerTick_task]
    split
    · next hwrr =>
      have hne : s.curr ≠ s.idle := fun heq => h.idle_class (heq ▸ hwrr)
      exact taskSteps_of_update rfl (.single (.tick (h.onRq_of_ne hne) hwrr)) p
    · exact .refl
  | schedYield =>
    -- the yield itself changes no task
    have hf := s.classYieldTask_frame
    have ht := s.classYieldTask_task
    have hsteps := schedule_taskSteps rule env (h.of_frame hf ht) p
    rwa [hf.group, ht] at hsteps
  | tryToWakeUp q state =>
    exact taskSteps_of_update (s.tryToWakeUp_task cfg env q state) (.single (.wake state)) p
  | rtMutexSetprio q prio =>
    exact taskSteps_of_update (s.rtMutexSetprio_task cfg env hop.1.2 prio)
      (.single (.boost prio hop.2.2.2)) p
  | setUserNice q nice =>
    exact taskSteps_of_update (s.setUserNice_task cfg env q nice) (.single (.setUserNice nice)) p
  | schedSetscheduler q policy prio user c topWaiter => exact schedSetscheduler_taskSteps hop.2 p
  | schedMoveTask q tg =>
    exact taskSteps_of_update (s.schedMoveTask_task cfg env q tg) (.single (.move tg)) p
  | schedSetStopTask stop c topWaiter => exact schedSetStopTask_taskSteps h hop.1 hop.2 p
  | initIdleBootupTask =>
    rw [State.next, initIdleBootupTask, modifyTask_task, Function.update_of_ne hidle]
  | setGroupPath tg group => exact .refl
  | reschedTask => exact .refl

private theorem fixed_of_frame {s' : State} (hf : Frame s s') :
    s'.idle = s.idle ∧ s'.group = s.group ∧ s'.live = s.live :=
  ⟨hf.idle, hf.group, hf.live⟩

variable (cfg) in
private theorem schedule_fixed (s : State) (env : Env) :
    (s.schedule cfg env).idle = s.idle ∧ (s.schedule cfg env).group = s.group ∧
      (s.schedule cfg env).live = s.live := by
  obtain ⟨-, -, -, -, hlive, hidle, -, hgroup⟩ := s.schedule_spec cfg env
  exact ⟨hidle, hgroup, hlive⟩

variable (cfg) in
/-- The idle task stays, paths of task groups change by themselves only, and only a fork brings a
task into being. -/
theorem next_fixed (s : State) (op : Op) (env : Env) :
    (s.next cfg op env).idle = s.idle ∧
      ((s.next cfg op env).group =
        match op with
        | .setGroupPath tg group => Function.update s.group tg group
        | _ => s.group) ∧
      (s.next cfg op env).live =
        match op with
        | .schedFork child _ => insert child s.live
        | _ => s.live := by
  cases op with
  | schedFork child mm => exact ⟨rfl, rfl, rfl⟩
  | wakeUpNewTask q => exact fixed_of_frame (s.wakeUpNewTask_frame cfg env q)
  | setCurrentState state => exact ⟨rfl, rfl, rfl⟩
  | schedule => exact s.schedule_fixed cfg env
  | schedulerTick => exact fixed_of_frame (s.schedulerTick_frame cfg env)
  | schedYield =>
    obtain ⟨hidle, hgroup, hlive⟩ := s.classYieldTask.schedule_fixed cfg env
    have hf := s.classYieldTask_frame
    exact ⟨hidle.trans hf.idle, hgroup.trans hf.group, hlive.trans hf.live⟩
  | tryToWakeUp q state => exact fixed_of_frame (s.tryToWakeUp_frame cfg env q state)
  | rtMutexSetprio q prio => exact fixed_of_frame (s.rtMutexSetprio_frame cfg env q prio)
  | setUserNice q nice => exact fixed_of_frame (s.setUserNice_frame cfg env q nice)
  | schedSetscheduler q policy prio user c topWaiter =>
    exact fixed_of_frame (schedSetscheduler_frame cfg env s q policy prio user c topWaiter)
  | schedMoveTask q tg => exact fixed_of_frame (s.schedMoveTask_frame cfg env q tg)
  | schedSetStopTask stop c topWaiter =>
    obtain ⟨hlive, -, hidle, -, hgroup, -⟩ := s.schedSetStopTask_spec cfg env stop c topWaiter
    exact ⟨hidle, hgroup, hlive⟩
  | initIdleBootupTask => exact ⟨rfl, rfl, rfl⟩
  | setGroupPath tg group => exact ⟨rfl, rfl, rfl⟩
  | reschedTask => exact ⟨rfl, rfl, rfl⟩

end State

end WrrSched
