import WrrSched.Correctness.Params

/-!
# Nice values

A nice value is set by `set_user_nice` and by nothing else, so that the checks of `sys_nice` bound
what a task without `CAP_SYS_NICE` can get in a whole run.

- `State.next_staticPrio`: no other operation moves a nice value;
- `State.sysNice_cases`: what `sys_nice` does when it returns 0;
- `nice_floor`: the bound.
-/

namespace WrrSched

namespace State

variable {cfg : Config} {rule : Rule} {env : Env} {s s' : State} {p q : TaskPtr}

/-! ## What moves a nice value -/

private theorem staticPrio_of_update {t : TaskStruct} (htask : s'.task = Function.update s.task q t)
    (ht : t.staticPrio = (s.task q).staticPrio) (p : TaskPtr) :
    (s'.task p).staticPrio = (s.task p).staticPrio := by
  rw [htask]
  by_cases hp : p = q
  · rw [hp, Function.update_self, ht]
  · rw [Function.update_of_ne hp]

variable (cfg env) in
theorem schedSetscheduler_staticPrio (s : State) (q : TaskPtr) (policy prio : ℤ) (user : Bool)
    (c : Caller) (topWaiter : Option ℤ) (p : TaskPtr) :
    ((s.schedSetscheduler cfg env q policy prio user c topWaiter).1.task p).staticPrio =
      (s.task p).staticPrio := by
  rcases schedSetscheduler_cases cfg env s q policy prio user c topWaiter with
    hr | ⟨req, -, -, -, hr⟩
  · rw [hr]
  · rw [hr]
    refine staticPrio_of_update (s.setschedulerCommit_task cfg env q req prio topWaiter) ?_ p
    rw [TaskStruct.requeued_eq, TaskStruct.setscheduler_eq]

variable (cfg env) in
theorem schedSetStopTask_staticPrio (s : State) (stop : Option TaskPtr) (c : Caller)
    (topWaiter : Option ℤ) (p : TaskPtr) :
    ((s.schedSetStopTask cfg env stop c topWaiter).task p).staticPrio = (s.task p).staticPrio := by
  have hnew : ((stop.elim s (s.becomeStop cfg env · c topWaiter)).task p).staticPrio =
      (s.task p).staticPrio := by
    cases stop with
    | none => rfl
    | some q =>
      have hset := s.schedSetscheduler_staticPrio cfg env q Policy.fifo.toNat (maxRtPrio - 1) false c
        topWaiter p
      refine Eq.trans ?_ hset
      exact staticPrio_of_update
        (modifyTask_task (s.schedSetscheduler cfg env q Policy.fifo.toNat (maxRtPrio - 1) false c
          topWaiter).1 q fun t => { t with schedClass := .stop }) rfl p
  unfold schedSetStopTask
  dsimp only
  generalize stop.elim s (s.becomeStop cfg env · c topWaiter) = s₁ at hnew
  split
  · exact hnew
  · next q _ =>
    have hold := staticPrio_of_update (modifyTask_task s₁ q fun t => { t with schedClass := .rt })
      rfl p
    exact hold.trans hnew

/-- An operation that does not set the nice value of a task leaves it. -/
theorem next_staticPrio {op : Op} (hen : s.Enabled rule op env) (hp : p ∈ s.live)
    (hop : ∀ nice, op ≠ .setUserNice p nice) :
    ((s.next cfg op env).task p).staticPrio = (s.task p).staticPrio := by
  obtain ⟨-, henabled⟩ := hen
  cases op with
  | schedFork child mm =>
    -- the child is a new task
    have hne : p ≠ child := by
      rintro rfl
      exact henabled.1 hp
    show (Function.update s.task child _ p).staticPrio = _
    rw [Function.update_of_ne hne]
  | wakeUpNewTask q =>
    refine staticPrio_of_update (s.wakeUpNewTask_task cfg env q) ?_ p
    rw [TaskStruct.start_eq]
  | setCurrentState state =>
    exact staticPrio_of_update (s.modifyTask_task s.curr fun t => { t with state := state }) rfl p
  | schedule => rw [next, s.schedule_task_eq cfg env p]
  | schedulerTick =>
    have htick := s.schedulerTick_task cfg env
    split at htick
    · refine staticPrio_of_update htick ?_ p
      rw [TaskStruct.tickWrr_eq]
    · rw [next, htick]
  | schedYield =>
    have hschedule := s.classYieldTask.schedule_task_eq cfg env p
    rw [next, schedYield, hschedule, s.classYieldTask_task]
  | tryToWakeUp q state =>
    refine staticPrio_of_update (s.tryToWakeUp_task cfg env q state) ?_ p
    rw [TaskStruct.wake_eq]
  | rtMutexSetprio q prio =>
    refine staticPrio_of_update (s.rtMutexSetprio_task cfg env henabled.1.2 prio) ?_ p
    rw [TaskStruct.requeued_eq]
    rfl
  | setUserNice q nice =>
    have hne : p ≠ q := by
      rintro rfl
      exact hop nice rfl
    rw [next, setUserNice_task, Function.update_of_ne hne]
  | schedSetscheduler q policy prio user c topWaiter =>
    exact s.schedSetscheduler_staticPrio cfg env q policy prio user c topWaiter p
  | schedMoveTask q tg =>
    refine staticPrio_of_update (s.schedMoveTask_task cfg env q tg) ?_ p
    rw [TaskStruct.requeued_eq]
  | schedSetStopTask stop c topWaiter => exact s.schedSetStopTask_staticPrio cfg env stop c topWaiter p
  | initIdleBootupTask =>
    exact staticPrio_of_update (s.modifyTask_task s.idle fun t => { t with schedClass := .idle }) rfl p
  | setGroupPath tg group => rfl
  | reschedTask => rfl

/-! ## `sys_nice` -/

/-- A call that returns 0 has set a nice value that is no smaller than the old one, or that the
caller may ask for. -/
theorem sysNice_cases (h : ParamsOk (s.task s.curr)) {increment : ℤ} {c : Caller} {security : ℤ}
    (h0 : (s.sysNice cfg env increment c security).2 = 0) :
    ∃ nice, (s.sysNice cfg env increment c security).1 = s.setUserNice cfg env s.curr nice ∧
      (-20 ≤ nice ∧ nice ≤ 19) ∧ ((s.task s.curr).nice ≤ nice ∨ c.canNice nice = true) := by
  have hmax : (s.task s.curr).nice ≤ 19 := by
    have hstatic := h.staticPrio.2
    unfold TaskStruct.nice prioToNice
    unfold maxPrio at hstatic
    omega
  unfold sysNice at h0 ⊢
  dsimp only at h0 ⊢
  -- the two clamps
  generalize (if (if increment < -40 then -40 else increment) > 40 then 40
    else if increment < -40 then -40 else increment) = increment at h0 ⊢
  generalize hnice : (if (if (s.task s.curr).nice + increment < -20 then -20
    else (s.task s.curr).nice + increment) > 19 then 19
    else if (s.task s.curr).nice + increment < -20 then -20
    else (s.task s.curr).nice + increment) = nice at h0 ⊢
  have hrange : -20 ≤ nice ∧ nice ≤ 19 := by
    split_ifs at hnice <;> omega
  have hge : 0 ≤ increment → (s.task s.curr).nice ≤ nice := by
    intro hpos
    split_ifs at hnice <;> omega
  split_ifs at h0 ⊢ with hperm hsec
  · have hne : -eperm ≠ 0 := by decide
    exact absurd h0 hne
  · exact absurd h0 hsec
  · refine ⟨nice, rfl, hrange, ?_⟩
    by_cases hneg : increment < 0
    · refine .inr (eq_true_of_ne_false fun hcan => hperm ⟨hneg, hcan⟩)
    · exact .inl (hge (not_lt.mp hneg))

end State

/-- The step sets the nice value of `p` only by a call of `sys_nice` of `p`, without `CAP_SYS_NICE`
and with an `RLIMIT_NICE` of at most `limit`. -/
def NiceBySelf (cfg : Config) (p : TaskPtr) (limit : ℕ) (s : State) (i : Op × Env) : Prop :=
  ∀ nice, i.1 = .setUserNice p nice →
    s.curr = p ∧ ∃ increment c security, c.capSysNice = false ∧ c.rlimitNice ≤ limit ∧
      s.sysNice cfg i.2 increment c security = (s.next cfg i.1 i.2, 0)

/-- In such a run the nice value of a task does not go below its old value and the value the limit
stands for. -/
theorem nice_floor {cfg : Config} {rule : Rule} {s s' : State} {p : TaskPtr} {limit : ℕ}
    (hs : (system cfg rule).Reachable s) (hp : p ∈ s.live)
    (hpath : (system cfg rule).Path (NiceBySelf cfg p limit) s s') :
    min (s.task p).nice (20 - limit) ≤ (s'.task p).nice := by
  refine (hpath.invariant (I := fun t => p ∈ t.live ∧
    min (s.task p).nice (20 - limit) ≤ (t.task p).nice) hs ⟨hp, min_le_left _ _⟩ ?_).2
  rintro t ⟨op, env⟩ ht ⟨hlive, hmin⟩ hen hset
  have hlive' : p ∈ (t.next cfg op env).live := by
    rw [(t.next_fixed cfg op env).2.2]
    split
    · exact Finset.mem_insert_of_mem hlive
    · exact hlive
  refine ⟨hlive', ?_⟩
  show _ ≤ ((t.next cfg op env).task p).nice
  -- either its own call of `sys_nice`, or a step that leaves the nice value
  by_cases hop : ∃ nice, op = .setUserNice p nice
  · obtain ⟨nice, rfl⟩ := hop
    obtain ⟨hcurr, increment, c, security, hcap, hlimit, heq⟩ := hset nice rfl
    have hok : ParamsOk (t.task t.curr) := reachable_params ht (hcurr ▸ hlive)
    obtain ⟨n, hstate, hrange, hfloor⟩ := State.sysNice_cases hok (congrArg Prod.snd heq)
    have hnext : t.next cfg (.setUserNice p nice) env = t.setUserNice cfg env p n := by
      rw [← hcurr, ← hstate, hcurr]
      exact (congrArg Prod.fst heq).symm
    rw [hcurr] at hfloor
    rw [hnext, State.setUserNice_task, Function.update_self,
      TaskStruct.setUserNice_nice cfg t.group _ hrange]
    rcases hfloor with hle | hcan
    · exact hmin.trans hle
    · -- the value the caller may ask for is bounded by the limit
      rw [Caller.canNice, hcap, Bool.or_false, decide_eq_true_eq] at hcan
      have hbound : (20 : ℤ) - limit ≤ n := by omega
      exact (min_le_right _ _).trans hbound
  · have hstatic : ((t.next cfg op env).task p).staticPrio = (t.task p).staticPrio :=
      State.next_staticPrio hen hlive fun nice heq => hop ⟨nice, heq⟩
    have hnice : ((t.next cfg op env).task p).nice = (t.task p).nice := congrArg prioToNice hstatic
    rw [hnice]
    exact hmin

namespace Small

/-- Task A runs. -/
def runningA : State := (start [taskA]).next cfg .schedule (env [taskA] 0)

theorem runningA_reachable : (system cfg .pi).Reachable runningA :=
  reachable_next (reachable_start .pi [taskA] (by decide)).1 ⟨no_worker _ _ _, trivial⟩

end Small

/-- An increment of 5 is granted to everybody. -/
theorem nice_floor_running :
    0 ≤ ((Small.runningA.next Small.cfg (.setUserNice Small.taskA 5) (Small.env [] 0)).task
      Small.taskA).nice := by
  have hen : (system Small.cfg .pi).enabled Small.runningA
      (.setUserNice Small.taskA 5, Small.env [] 0) :=
    ⟨Small.no_worker _ _ _, by decide +kernel, by decide +kernel⟩
  have hcurr : Small.runningA.curr = Small.taskA := by decide +kernel
  have hzero : (Small.runningA.task Small.taskA).nice = 0 := by decide +kernel
  have hcall : Small.runningA.sysNice Small.cfg (Small.env [] 0) 5 Small.user 0 =
      (Small.runningA.next Small.cfg (.setUserNice Small.taskA 5) (Small.env [] 0), 0) := by
    rw [State.sysNice, hcurr, hzero]
    rfl
  have hpath : (system Small.cfg .pi).Path (NiceBySelf Small.cfg Small.taskA 0) Small.runningA
      (Small.runningA.next Small.cfg (.setUserNice Small.taskA 5) (Small.env [] 0)) :=
    .step .refl hen fun _ _ => ⟨hcurr, 5, Small.user, 0, rfl, le_rfl, hcall⟩
  have hfloor := nice_floor Small.runningA_reachable (by decide +kernel) hpath
  rwa [hzero] at hfloor

end WrrSched
