import WrrSched.Correctness.Policy

/-!
# Unprivileged changes of policy

The checks of `__sched_setscheduler` for callers without `CAP_SYS_NICE` keep them from moving a task
to an RT policy, and out of `SCHED_IDLE` without a nice value that permits it. They say nothing of
`SCHED_WRR`, whose class is asked between the two: a user call raises the precedence of a task
exactly if it moves a task of the fair class to WRR.

- `user_calls_raise_iff`: in every sequence of calls, which of the accepted ones raise their target;
- `user_call_raises`: one that does.
-/

namespace WrrSched

/-- The class of a task that is not boosted. -/
def Policy.schedClass (policy : Policy) : SchedClass :=
  if rtPolicy policy then .rt else if policy = .wrr then .wrr else .fair

/-- The class follows from the policy as long as a boost does not make the priority an RT one. -/
theorem PrioOk.prescribedClass_eq {t : TaskStruct} (h : PrioOk t)
    (hprio : t.prio < maxRtPrio ↔ t.normalPrio < maxRtPrio) :
    t.prescribedClass = t.policy.schedClass := by
  unfold TaskStruct.prescribedClass Policy.schedClass
  by_cases hrt : t.hasRtPolicy = true
  · rw [if_pos (hprio.mpr (h.normalPrio_lt_iff.mpr hrt)), if_pos (by exact hrt)]
  · have hrt' : ¬rtPolicy t.policy = true := hrt
    rw [if_neg (mt (h.normalPrio_lt_iff.mp ∘ hprio.mp) hrt), if_neg hrt']

/-- A call of `sched_setscheduler`, or of `sched_setparam` with a negative policy, by a user. -/
structure UserCall where
  /-- The target. -/
  p : TaskPtr
  policy : ℤ
  prio : ℤ
  /-- The caller. -/
  c : Caller
  /-- The priority of the first task that waits for a mutex of the target, if there is one. -/
  topWaiter : Option ℤ

namespace UserCall

variable (cfg : Config)

/-- The operation. -/
def op (call : UserCall) : Op :=
  .schedSetscheduler call.p call.policy call.prio true call.c call.topWaiter

/-- The value the call returns. -/
def result (call : UserCall) (s : State) (env : Env) : ℤ :=
  (s.schedSetscheduler cfg env call.p call.policy call.prio true call.c call.topWaiter).2

/-- The policy argument is `SCHED_WRR`, with or without `SCHED_RESET_ON_FORK`. -/
def AsksWrr (call : UserCall) : Prop :=
  ∃ resetOnFork, call.policy = encodePolicy .wrr resetOnFork

/-- The call leaves its target in a class that is asked earlier than before. -/
def Raises (call : UserCall) (s : State) (env : Env) : Prop :=
  ((s.next cfg call.op env).task call.p).schedClass.Precedes (s.task call.p).schedClass

/-- The caller does not have `CAP_SYS_NICE`, and the target has no RT limit and is not boosted, also
not by the task that waits for it in the call. -/
structure Unprivileged (call : UserCall) (s : State) : Prop where
  capSysNice : call.c.capSysNice = false
  rlimitRtprio : call.c.rlimitRtprio = 0
  unboosted : (s.task call.p).prio = (s.task call.p).normalPrio
  topWaiter : ∀ w, call.topWaiter = some w → (s.task call.p).normalPrio ≤ w

end UserCall

/-- Sequences of unprivileged user calls, from any state the scheduler can be in. -/
def userCalls (cfg : Config) : TransitionSystem State (UserCall × Env) where
  init s := (system cfg .pi).Reachable s
  enabled s i := s.Enabled .pi i.1.op i.2 ∧ i.1.Unprivileged s
  next s i := s.next cfg i.1.op i.2

section Calls

variable {cfg : Config} {s : State} {call : UserCall} {env : Env}

theorem userCalls_reachable {h : List (State × (UserCall × Env))}
    (hrun : (userCalls cfg).Run h s) : (system cfg .pi).Reachable s := by
  induction hrun with
  | init hs => exact hs
  | step _ hen ih => exact reachable_next ih hen.1

/-- What the checks let through: an RT policy only for a task that has it. -/
theorem policy_of_unprivileged {t : TaskStruct} {policy prio : ℤ} {c : Caller} {req : Request}
    (hcap : c.capSysNice = false) (hlimit : c.rlimitRtprio = 0)
    (h : validate t policy prio true c = .ok req) (hrt : rtPolicy req.policy = true) :
    req.policy = t.policy := by
  have hunpriv := validate_unprivileged h
  unfold checkUnprivileged at hunpriv
  rw [if_neg (by simp [hcap])] at hunpriv
  split at hunpriv
  · cases hunpriv
  · next hne =>
    by_contra hpolicy
    exact hne ⟨hrt, hpolicy, hlimit⟩

/-- Without a boost to an RT priority, the class after a change of policy is that of the new
policy. -/
theorem setschedulerCommit_class {p : TaskPtr} (h : PrioOk (s.task p)) {req : Request} {prio : ℤ}
    {topWaiter : Option ℤ} (hprio : rtPolicy req.policy = true → 0 < prio)
    (hw : Rule.Waiter (s.task p) topWaiter) (hboost : ∀ w, topWaiter = some w → maxRtPrio ≤ w) :
    ((s.setschedulerCommit cfg env p req prio topWaiter).task p).schedClass =
      req.policy.schedClass := by
  have hset : PrioOk { s.task p with schedResetOnFork := req.resetOnFork } :=
    h.congr rfl rfl rfl rfl rfl rfl id
  have hok : PrioOk (TaskStruct.setscheduler _ req.policy prio topWaiter) :=
    hset.setscheduler hprio hw
  have hget := TaskStruct.setscheduler_prio
    { s.task p with schedResetOnFork := req.resetOnFork } req.policy prio topWaiter
  rw [State.setschedulerCommit_task, Function.update_self, TaskStruct.requeued_eq]
  show (TaskStruct.setscheduler _ req.policy prio topWaiter).schedClass = _
  rw [TaskStruct.setscheduler_class, hok.prescribedClass_eq, TaskStruct.setscheduler_policy]
  rw [hget]
  cases topWaiter with
  | none => rfl
  | some w =>
    have hle := hboost w rfl
    exact min_lt_iff.trans (or_iff_right (not_lt.mpr hle))

/-- Only the stop class is asked before the RT class, and no change of policy leads there. -/
theorem setschedulerCommit_not_precedes_rt {p : TaskPtr} {req : Request} {prio : ℤ}
    {topWaiter : Option ℤ} :
    ¬((s.setschedulerCommit cfg env p req prio topWaiter).task p).schedClass.Precedes .rt := by
  rw [State.setschedulerCommit_task, Function.update_self, TaskStruct.requeued_eq]
  show ¬(TaskStruct.setscheduler _ req.policy prio topWaiter).schedClass.Precedes .rt
  rw [TaskStruct.setscheduler_class, TaskStruct.prescribedClass]
  split_ifs <;> decide

/-- A call that is accepted raises its target exactly if it moves a fair task to WRR. -/
theorem UserCall.raises_iff (hs : (system cfg .pi).Reachable s)
    (hen : s.Enabled .pi call.op env) (hunpriv : call.Unprivileged s)
    (h0 : call.result cfg s env = 0) :
    call.Raises cfg s env ↔ call.AsksWrr ∧ (s.task call.p).schedClass = .fair := by
  obtain ⟨hcap, hlimit, hunboosted, hwaiter⟩ := hunpriv
  obtain ⟨⟨hlive, hidle⟩, hw⟩ := hen.2
  obtain ⟨req, hvalid, hstop, hnext⟩ := State.schedSetscheduler_eq_zero cfg env h0
  have hok := reachable_prioOk hs call.p hlive hidle
  have hclass : (s.task call.p).schedClass = (s.task call.p).policy.schedClass :=
    (class_eq_prescribedClass hs hlive hidle hstop).trans
      (hok.prescribedClass_eq (by rw [hunboosted]))
  have hrt := policy_of_unprivileged hcap hlimit hvalid
  -- the argument is `SCHED_WRR`, or the task is of that policy already
  have hasks : call.AsksWrr ∧ (s.task call.p).schedClass = .fair ↔
      req.policy = .wrr ∧ (s.task call.p).schedClass = .fair := by
    obtain ⟨hdecode, -⟩ := validate_eq_ok hvalid
    refine and_congr_left fun hfair => ⟨?_, fun hwrr => ?_⟩
    · rintro ⟨resetOnFork, hpolicy⟩
      rw [hpolicy, decodePolicy_encodePolicy] at hdecode
      rw [← Except.ok.inj hdecode]
    · by_cases hpos : 0 ≤ call.policy
      · exact ⟨req.resetOnFork, by rw [(decodePolicy_eq_ok hdecode hpos).1, hwrr]⟩
      · rw [decodePolicy, if_pos (not_le.mp hpos)] at hdecode
        rw [← Except.ok.inj hdecode] at hwrr
        simp [hclass, Policy.schedClass, show (s.task call.p).policy = .wrr from hwrr, rtPolicy]
          at hfair
  have hnext' : (s.next cfg call.op env).task call.p =
      (if State.nothingChanges (s.task call.p) req.policy call.prio then s
        else s.setschedulerCommit cfg env call.p req call.prio call.topWaiter).task call.p :=
    congrArg (fun s : State => s.task call.p) hnext
  by_cases hboost : ∀ w, call.topWaiter = some w → maxRtPrio ≤ w
  · have hclass' : ((s.next cfg call.op env).task call.p).schedClass = req.policy.schedClass := by
      rw [hnext']
      split
      · next hnothing =>
        simp only [State.nothingChanges, decide_eq_true_eq] at hnothing
        rw [hclass, hnothing.1]
      · exact setschedulerCommit_class hok (checkPriority_eq_ok (validate_eq_ok hvalid).2).2.2.1
          hw hboost
    rw [hasks, UserCall.Raises, hclass', hclass]
    revert hrt
    cases req.policy <;> cases (s.task call.p).policy <;> decide
  · -- the waiter has an RT priority without boosting the target, so the target is of the RT class
    push Not at hboost
    obtain ⟨w, htop, hlt⟩ := hboost
    have hrtPolicy : rtPolicy (s.task call.p).policy = true :=
      hok.normalPrio_lt_iff.mp ((hwaiter w htop).trans_lt hlt)
    have hrtClass : (s.task call.p).schedClass = .rt := by
      rw [hclass, Policy.schedClass, if_pos hrtPolicy]
    have hnot : ¬ call.Raises cfg s env := by
      rw [UserCall.Raises, hrtClass, hnext']
      split
      · rw [hrtClass]
        decide
      · exact setschedulerCommit_not_precedes_rt
    exact iff_of_false hnot (by simp [hrtClass])

/-- In a sequence of user calls without `CAP_SYS_NICE`, on tasks without an RT limit that are not
boosted, a call that returns 0 leaves its target in a class that is asked no earlier than before,
unless it asks for `SCHED_WRR` and its target is of the fair class. -/
theorem user_calls_raise_iff {h : List (State × (UserCall × Env))} (hrun : (userCalls cfg).Run h s) :
    ∀ x ∈ h, x.2.1.result cfg x.1 x.2.2 = 0 →
      (¬x.2.1.Raises cfg x.1 x.2.2 ↔
        ¬(x.2.1.AsksWrr ∧ (x.1.task x.2.1.p).schedClass = .fair)) := by
  induction hrun with
  | init _ => simp
  | step hrun hen ih =>
    intro x hx h0
    rcases List.mem_cons.mp hx with rfl | hx
    · exact not_congr (UserCall.raises_iff (userCalls_reachable hrun) hen.1 hen.2 h0)
    · exact ih x hx h0

end Calls

namespace Small

/-- `sched_setscheduler(taskA, SCHED_WRR, 0)`. -/
def callA : UserCall := ⟨taskA, Policy.wrr.toNat, 0, user, none⟩

theorem callA_run : (userCalls cfg).Run [(start [taskA], (callA, env [] 0))]
    (setWrr (start [taskA]) taskA 0) := by
  have hen : (userCalls cfg).enabled (start [taskA]) (callA, env [] 0) :=
    ⟨⟨no_worker _ _ _, ⟨by decide, by decide⟩, fun _ => rfl⟩, rfl, rfl, by decide, nofun⟩
  exact .step (.init (reachable_start .pi [taskA] (by decide)).1) hen

theorem callA_result : callA.result cfg (start [taskA]) (env [] 0) = 0 := by
  decide +kernel

end Small

/-- The call raises a task of the fair class. -/
theorem user_calls_raise_iff_callA :
    ¬Small.callA.Raises Small.cfg (Small.start [Small.taskA]) (Small.env [] 0) ↔
      ¬(Small.callA.AsksWrr ∧
        ((Small.start [Small.taskA]).task Small.taskA).schedClass = .fair) :=
  user_calls_raise_iff Small.callA_run
    (Small.start [Small.taskA], (Small.callA, Small.env [] 0)) (List.mem_singleton_self _)
    Small.callA_result

/-- Without the condition, an unprivileged call can raise its target. -/
theorem user_call_raises :
    ¬∀ h s, (userCalls Small.cfg).Run h s → ∀ x ∈ h, x.2.1.result Small.cfg x.1 x.2.2 = 0 →
      ¬x.2.1.Raises Small.cfg x.1 x.2.2 := by
  intro hall
  have hraises : Small.callA.Raises Small.cfg (Small.start [Small.taskA]) (Small.env [] 0) := by
    unfold UserCall.Raises
    decide +kernel
  exact hall _ _ Small.callA_run (Small.start [Small.taskA], (Small.callA, Small.env [] 0))
    (List.mem_singleton_self _) Small.callA_result hraises

end WrrSched
