import WrrSched.Correctness.Policy

/-!
# Class precedence

No queued task is of a class that precedes the one of the running task, unless the running task is
marked for rescheduling. A change of class is reported to the new class only, and `switched_to_wrr`
does nothing: a task that comes to WRR and waits behind a fair task goes unnoticed, and so does the
RT task that a running task leaves behind when it comes to WRR.

- `changeQueued_precedence_iff`: which changes of a task keep the precedence;
- `class_precedence_iff`: the same for `__sched_setscheduler` and `rt_mutex_setprio`;
- `class_precedence_broken`: a run in which a WRR task waits behind a fair one unnoticed.
-/

namespace WrrSched

namespace State

variable {cfg : Config} {env : Env} {s : State} {p : TaskPtr}

/-- A reschedule is pending, or no queued task is of a class that precedes that of the running
task. -/
def Precedence (s : State) : Prop :=
  s.needResched s.curr = true ∨
    ∀ q, (s.task q).onRq = true → ¬(s.task q).schedClass.Precedes (s.task s.curr).schedClass

/-- `update_curr_rt` reschedules: the running task is an RT task whose run time is exceeded. -/
def rtLeaves (s : State) (env : Env) : Bool :=
  decide ((s.task s.curr).schedClass = .rt) && env.rtExceeded

/-- A queued task `p` of another class must not come to WRR unnoticed: it waits behind a task of a
later class, or it runs and another task of an earlier class waits. -/
def Overlooked (s : State) (env : Env) (p : TaskPtr) : Prop :=
  (s.task p).schedClass ≠ .wrr ∧ (s.task p).onRq = true ∧
    (p ≠ s.curr ∧ SchedClass.wrr.Precedes (s.task s.curr).schedClass ∨
      p = s.curr ∧ s.rtLeaves env = false ∧
        ∃ q, q ≠ p ∧ (s.task q).onRq = true ∧ (s.task q).schedClass.Precedes .wrr)

/-! ## Rescheduling -/

theorem updateRqClock_needResched (s : State) (delta : UInt64) :
    (s.updateRqClock delta).needResched = s.needResched := by
  unfold updateRqClock
  split <;> rfl

theorem updateCurrWrr_needResched (s : State) : s.updateCurrWrr.needResched = s.needResched := by
  unfold updateCurrWrr
  split <;> rfl

theorem reschedCurr_needResched_curr (s : State) (b : Bool) :
    (s.reschedCurr b).needResched s.curr = (s.needResched s.curr || b) := by
  simp [reschedCurr, setNeedResched]

variable (env) in
theorem dequeueTask_needResched_curr (s : State) (p : TaskPtr) (n : ℕ) :
    (s.dequeueTask env p n).needResched s.curr =
      (s.needResched s.curr || (decide ((s.task p).schedClass = .rt) && s.rtLeaves env)) := by
  have hq := s.updateRqClock_quiet (env.clockDelta n)
  have hneed := s.updateRqClock_needResched (env.clockDelta n)
  unfold dequeueTask rtLeaves
  dsimp only
  rw [← hneed, ← hq.task, ← hq.curr]
  generalize s.updateRqClock (env.clockDelta n) = s
  split
  · next h =>
    show s.updateCurrWrr.needResched s.curr = _
    rw [s.updateCurrWrr_needResched, h]
    simp
  · next h =>
    show (s.updateCurrRt env).needResched s.curr = _
    rw [updateCurrRt, reschedCurr_needResched_curr, h]
    simp
  all_goals
    next h =>
      rw [h]
      simp [decNrRunning, decHNrRunning, bugOn]

variable (env) in
theorem classPutPrevTask_needResched_curr (s : State) (p : TaskPtr) :
    (s.classPutPrevTask env p).needResched s.curr =
      (s.needResched s.curr || (decide ((s.task p).schedClass = .rt) && s.rtLeaves env)) := by
  unfold classPutPrevTask
  split
  · next h =>
    show s.updateCurrWrr.needResched s.curr = _
    rw [s.updateCurrWrr_needResched, h]
    simp
  · next h =>
    rw [updateCurrRt, reschedCurr_needResched_curr, h]
    simp [rtLeaves]
  all_goals
    next h =>
      rw [h]
      simp

variable (cfg env) in
theorem enqueueTask_needResched (s : State) (p : TaskPtr) (flags n : ℕ) :
    (s.enqueueTask cfg env p flags n).needResched = s.needResched := by
  rw [← s.updateRqClock_needResched (env.clockDelta n)]
  unfold enqueueTask
  dsimp only
  split <;> rfl

theorem setCurrTask_needResched (s : State) (p : TaskPtr) :
    (s.setCurrTask p).needResched = s.needResched := by
  unfold setCurrTask
  split <;> rfl

variable (cfg env) in
/-- Taking a task off and putting it back reschedules only through `update_curr_rt`. -/
theorem changeQueued_needResched_curr (s : State) (p : TaskPtr) (running : Bool) (flags : ℕ)
    (change : TaskStruct → TaskStruct) :
    (s.changeQueued cfg env p running flags change).needResched s.curr =
      (s.needResched s.curr || (((s.task p).onRq || running) &&
        (decide ((s.task p).schedClass = .rt) && s.rtLeaves env))) := by
  -- only charging an RT task that leaves its queue or the CPU can set the flag
  have htaken : (s.takenOff env p running).needResched s.curr =
      (s.needResched s.curr || (((s.task p).onRq || running) &&
        (decide ((s.task p).schedClass = .rt) && s.rtLeaves env))) := by
    have hdeq := s.dequeueTask_needResched_curr env p 0
    have hf := s.dequeueTask_frame env p 0
    have hput := (s.dequeueTask env p 0).classPutPrevTask_needResched_curr env p
    have hput' := s.classPutPrevTask_needResched_curr env p
    have hleaves : (s.dequeueTask env p 0).rtLeaves env = s.rtLeaves env := by
      unfold rtLeaves
      rw [hf.curr, s.dequeueTask_task env p 0]
    rw [hf.curr, s.dequeueTask_task env p 0, hdeq, hleaves] at hput
    unfold takenOff
    cases (s.task p).onRq <;> cases running
    · simp
    · simpa using hput'
    · simpa using hdeq
    · simpa [Bool.or_assoc] using hput
  -- neither the change nor the enqueue does
  have hchanged : (s.changed env p running change).needResched =
      (s.takenOff env p running).needResched := by
    unfold changed
    split
    · rw [setCurrTask_needResched]
      rfl
    · rfl
  rw [changeQueued_eq, ← htaken, ← hchanged]
  split
  · rw [enqueueTask_needResched]
  · rfl

section CheckClassChanged

variable {prevClass : SchedClass} (oldprio : ℤ)

/-- A task that comes to WRR is reported to `switched_to_wrr`. -/
theorem checkClassChanged_wrr (h : (s.task p).schedClass = .wrr) (hprev : prevClass ≠ .wrr) :
    s.checkClassChanged env p prevClass oldprio = s := by
  unfold checkClassChanged
  rw [if_pos (by rwa [h]), h]
  rfl

/-- A running task that comes to the fair class is rescheduled. -/
theorem checkClassChanged_fair (h : (s.task p).schedClass = .fair) (hprev : prevClass ≠ .fair)
    (hcurr : p = s.curr) :
    (s.checkClassChanged env p prevClass oldprio).needResched s.curr = true := by
  unfold checkClassChanged
  rw [if_pos (by rwa [h]), h]
  show (s.switchedToFair env p).needResched s.curr = true
  rw [switchedToFair, if_pos hcurr.symm, reschedCurr_needResched_curr, Bool.or_true]

/-- A waiting task that comes to the RT class is compared with the running one. -/
theorem checkClassChanged_rt (h : (s.task p).schedClass = .rt) (hprev : prevClass ≠ .rt)
    (hon : (s.task p).onRq = true) (hcurr : p ≠ s.curr)
    (hprio : (s.task p).prio < (s.task s.curr).prio) :
    (s.checkClassChanged env p prevClass oldprio).needResched s.curr = true := by
  unfold checkClassChanged
  rw [if_pos (by rwa [h]), h]
  show (s.switchedToRt p).needResched s.curr = true
  rw [switchedToRt, if_pos ⟨hon, Ne.symm hcurr⟩, reschedCurr_needResched_curr,
    decide_eq_true hprio, Bool.or_true]

end CheckClassChanged

/-! ## Changes of one task -/

section Change

variable {s' : State} {t : TaskStruct} {prevClass : SchedClass} {oldprio : ℤ}

/-- The precedence after a change of the task `p` alone. -/
theorem precedence_of_update (htask : s'.task = Function.update s.task p t)
    (hcurr : s'.curr = s.curr)
    (h : ∀ q, (Function.update s.task p t q).onRq = true →
      ¬(Function.update s.task p t q).schedClass.Precedes
        (Function.update s.task p t s.curr).schedClass) : s'.Precedence := by
  right
  rw [htask, hcurr]
  exact h

/-- The change of a waiting task is noticed unless the task comes to WRR. -/
theorem checkClassChanged_precedence_of_waiting (htask : s'.task = Function.update s.task p t)
    (hcurr : s'.curr = s.curr) (hp : p ≠ s.curr) (honRq : t.onRq = (s.task p).onRq)
    (hclass : t.schedClass = t.prescribedClass) (hidle : (s.task p).schedClass ≠ .idle)
    (hlow : SchedClass.rt.Precedes (s.task s.curr).schedClass →
      ¬(s.task s.curr).prio < maxRtPrio)
    (hq : ∀ q, (s.task q).onRq = true →
      ¬(s.task q).schedClass.Precedes (s.task s.curr).schedClass)
    (hnot : ¬(t.schedClass = .wrr ∧ s.Overlooked env p)) :
    (s'.checkClassChanged env p (s.task p).schedClass oldprio).Precedence := by
  have hquiet := s'.checkClassChanged_quiet env p (s.task p).schedClass oldprio
  have hts : s'.task p = t := by rw [htask, Function.update_self]
  have htc : s'.task s.curr = s.task s.curr := by rw [htask, Function.update_of_ne (Ne.symm hp)]
  -- all is well unless `p` is queued and its class now precedes that of the running task
  by_cases hprec : t.onRq = true ∧ t.schedClass.Precedes (s.task s.curr).schedClass
  case neg =>
    refine precedence_of_update (hquiet.task.trans htask) (hquiet.curr.trans hcurr) fun q hon => ?_
    rw [Function.update_of_ne (Ne.symm hp)]
    by_cases hqp : q = p
    · rw [hqp, Function.update_self] at hon ⊢
      exact fun hpre => hprec ⟨hon, hpre⟩
    · rw [Function.update_of_ne hqp] at hon ⊢
      exact hq q hon
  case pos =>
    obtain ⟨hon, hpre⟩ := hprec
    have hbefore := hq p (honRq.symm.trans hon)
    left
    rw [hquiet.curr]
    have hcases := t.prescribedClass_cases
    rw [← hclass] at hcases
    rcases hcases with ⟨hrt, hprio⟩ | hwrr | hfair
    · have hne : (s.task p).schedClass ≠ .rt := by
        intro heq
        rw [hrt, ← heq] at hpre
        exact hbefore hpre
      refine checkClassChanged_rt oldprio (by rw [hts, hrt]) hne (by rw [hts, hon])
        (by rwa [hcurr]) ?_
      rw [hcurr, htc, hts]
      rw [hrt] at hpre
      exact lt_of_lt_of_le hprio (not_lt.mp (hlow hpre))
    · -- `switched_to_wrr` does not look at the running task: this is the task that is overlooked
      refine absurd ⟨hwrr, fun heq => ?_, honRq.symm.trans hon, .inl ⟨hp, ?_⟩⟩ hnot
      swap
      · rwa [hwrr] at hpre
      rw [hwrr, ← heq] at hpre
      exact hbefore hpre
    · -- only the idle class comes after the fair one, and then `p` preceded it before
      exfalso
      rw [hfair] at hpre
      revert hbefore hpre hidle
      cases (s.task s.curr).schedClass <;> cases (s.task p).schedClass <;> decide

/-- The change of the running task is noticed unless the task comes to WRR. -/
theorem checkClassChanged_precedence_of_running (htask : s'.task = Function.update s.task p t)
    (hcurr : s'.curr = s.curr) (hp : p = s.curr) (hon : (s.task p).onRq = true)
    (hclass : t.schedClass = t.prescribedClass) (hstop : s.StopClass)
    (hleaves : (s.task p).schedClass = .rt → s.rtLeaves env = true → s'.needResched s.curr = true)
    (hq : ∀ q, (s.task q).onRq = true →
      ¬(s.task q).schedClass.Precedes (s.task s.curr).schedClass)
    (hnot : ¬(t.schedClass = .wrr ∧ s.Overlooked env p)) :
    (s'.checkClassChanged env p (s.task p).schedClass oldprio).Precedence := by
  have hquiet := s'.checkClassChanged_quiet env p (s.task p).schedClass oldprio
  have hts : s'.task p = t := by rw [htask, Function.update_self]
  -- it is enough that no other queued task precedes the new class
  have hothers (h : ∀ q, q ≠ p → (s.task q).onRq = true →
      ¬(s.task q).schedClass.Precedes t.schedClass) :
      (s'.checkClassChanged env p (s.task p).schedClass oldprio).Precedence := by
    refine precedence_of_update (hquiet.task.trans htask) (hquiet.curr.trans hcurr) fun q hqon => ?_
    rw [← hp, Function.update_self]
    by_cases hqp : q = p
    · rw [hqp, Function.update_self]
      exact lt_irrefl _
    · rw [Function.update_of_ne hqp] at hqon ⊢
      exact h q hqp hqon
  by_cases hsame : t.schedClass = (s.task p).schedClass
  · refine hothers fun q _ hqon => ?_
    rw [hsame, hp]
    exact hq q hqon
  have hcases := t.prescribedClass_cases
  rw [← hclass] at hcases
  rcases hcases with ⟨hrt, -⟩ | hwrr | hfair
  · -- only the stop class precedes the RT class, and a queued stop task would have preceded `p`
    refine hothers fun q hqp hqon hpre => ?_
    have hqstop : (s.task q).schedClass = .stop := by
      rw [hrt] at hpre
      revert hpre
      cases (s.task q).schedClass <;> decide
    have hpstop : (s.task s.curr).schedClass = .stop := by
      have hbefore := hq q hqon
      rw [hqstop] at hbefore
      revert hbefore
      cases (s.task s.curr).schedClass <;> decide
    rw [← hp] at hpstop
    exact hqp (Option.some.inj ((hstop q hqstop).symm.trans (hstop p hpstop)))
  · by_cases hl : s.rtLeaves env = true
    · -- the RT class had the task rescheduled on its way out
      have hpclass : (s.task p).schedClass = .rt := by
        unfold rtLeaves at hl
        rw [Bool.and_eq_true, decide_eq_true_eq, ← hp] at hl
        exact hl.1
      left
      rw [hquiet.curr, hcurr]
      have hneed := hquiet.needResched_curr
      rw [hcurr] at hneed
      exact hneed (hleaves hpclass hl)
    · refine hothers fun q hqp hqon hpre => hnot ⟨hwrr, fun heq => ?_, hon,
        .inr ⟨hp, eq_false_of_ne_true hl, q, hqp, hqon, hwrr ▸ hpre⟩⟩
      exact hsame (hwrr.trans heq.symm)
  · left
    rw [hquiet.curr]
    exact checkClassChanged_fair oldprio (by rw [hts, hfair])
      (fun heq => hsame (hfair.trans heq.symm)) (hp.trans hcurr.symm)

/-- The running task of a later class than RT has no RT priority. -/
def LowPrio (s : State) : Prop :=
  SchedClass.rt.Precedes (s.task s.curr).schedClass → ¬(s.task s.curr).prio < maxRtPrio

variable (env) in
/-- A task that is taken off, changed and put back keeps the precedence unless it is overlooked. -/
theorem changeQueued_precedence_iff (hinv : Inv cfg s) (hstop : s.StopClass) (hlow : s.LowPrio)
    (hp : p ∈ s.live) (hidle : p ≠ s.idle) (change : TaskStruct → TaskStruct)
    (honRq : (change (s.task p)).onRq = (s.task p).onRq)
    (hclass : (change (s.task p)).schedClass = (change (s.task p)).prescribedClass)
    (flags : ℕ) (hprec : s.Precedence) :
    ((s.changeQueued cfg env p (decide (s.curr = p)) flags change).checkClassChanged env p
        (s.task p).schedClass oldprio).Precedence ↔
      s.needResched s.curr = true ∨
        ¬((change (s.task p)).schedClass = .wrr ∧ s.Overlooked env p) := by
  have htask := s.changeQueued_task cfg env p (decide (s.curr = p)) flags change
  have hf := s.changeQueued_frame cfg env p (decide (s.curr = p)) flags change
  have hneed := s.changeQueued_needResched_curr cfg env p (decide (s.curr = p)) flags change
  generalize s.changeQueued cfg env p (decide (s.curr = p)) flags change = s' at htask hf hneed
  -- queueing leaves the class and the flag that the change has given
  have htonRq : ((change (s.task p)).requeued cfg s.group (s.task p).onRq).onRq =
      (s.task p).onRq := by
    rw [TaskStruct.requeued_eq, honRq]
  have htclass : ((change (s.task p)).requeued cfg s.group (s.task p).onRq).schedClass =
      (change (s.task p)).schedClass := by
    rw [TaskStruct.requeued_eq]
  have htpre : ((change (s.task p)).requeued cfg s.group (s.task p).onRq).schedClass =
      ((change (s.task p)).requeued cfg s.group (s.task p).onRq).prescribedClass := by
    rw [TaskStruct.requeued_eq]
    exact hclass
  rw [← htclass]
  generalize (change (s.task p)).requeued cfg s.group (s.task p).onRq = t at htask htonRq htpre
  have hquiet := s'.checkClassChanged_quiet env p (s.task p).schedClass oldprio
  constructor
  · intro h
    rw [or_iff_not_imp_right, not_not]
    intro hover
    obtain ⟨hwrr, hne, hon, hwaits⟩ := hover
    have hts : s'.task p = t := by rw [htask, Function.update_self]
    rw [checkClassChanged_wrr oldprio (by rw [hts, hwrr]) hne] at h
    -- the class of `p` does not reschedule it when it is taken off
    have hleaves : (decide ((s.task p).schedClass = .rt) && s.rtLeaves env) = false := by
      rcases hwaits with ⟨-, hpre⟩ | ⟨-, hl, -⟩
      · have hrt : (s.task s.curr).schedClass ≠ .rt := by
          intro heq
          rw [heq] at hpre
          exact absurd hpre (by decide)
        simp [rtLeaves, hrt]
      · rw [hl, Bool.and_false]
    rw [hleaves, Bool.and_false, Bool.or_false] at hneed
    rcases h with h | h
    · rwa [hf.curr, hneed] at h
    · exfalso
      rw [htask, hf.curr] at h
      rcases hwaits with ⟨hpc, hpre⟩ | ⟨hpc, -, q, hqp, hqon, hqpre⟩
      · -- `p` itself precedes the running task
        have hbad := h p
        rw [Function.update_self, Function.update_of_ne (Ne.symm hpc), hwrr] at hbad
        exact hbad (htonRq.trans hon) hpre
      · -- `q` precedes `p`, which still runs
        have hbad := h q
        rw [Function.update_of_ne hqp, ← hpc, Function.update_self, hwrr] at hbad
        exact hbad hqon hqpre
  · intro h
    by_cases hpending : s.needResched s.curr = true
    · left
      rw [hquiet.curr]
      have hs' : s'.needResched s.curr = true := hf.needResched_curr hpending
      rw [← hf.curr] at hs'
      exact hquiet.needResched_curr hs'
    · have hnot := h.resolve_left hpending
      have hq := hprec.resolve_left hpending
      by_cases hpc : p = s.curr
      · have hon : (s.task p).onRq = true := by
          rw [hpc]
          exact hinv.onRq_of_ne (hpc ▸ hidle)
        refine checkClassChanged_precedence_of_running htask hf.curr hpc hon htpre hstop
          (fun hrt hl => ?_) hq hnot
        rw [hneed, hon, hrt, hl]
        simp
      · exact checkClassChanged_precedence_of_waiting htask hf.curr hpc htonRq htpre
          (hinv.task p hp hidle).class_ne_idle hlow hq hnot

end Change

/-! ## Calls -/

section Calls

/-- The operation is a call that moves `p` into the WRR class: a deboost of a task of the WRR
policy, or a request for that policy which is carried out while no RT task waits for a mutex of
`p`. -/
def MovesToWrr (s : State) (op : Op) (p : TaskPtr) : Prop :=
  match op with
  | .rtMutexSetprio q prio => q = p ∧ (s.task p).policy = .wrr ∧ ¬prio < maxRtPrio
  | .schedSetscheduler q policy prio user c topWaiter =>
    q = p ∧ (∃ req, s.setschedulerRequest p policy prio user c = some req ∧ req.policy = .wrr) ∧
      ∀ w, topWaiter = some w → ¬w < maxRtPrio
  | _ => False

theorem boost_class_eq_wrr (t : TaskStruct) (prio : ℤ) :
    (t.boost prio).schedClass = .wrr ↔ t.policy = .wrr ∧ ¬prio < maxRtPrio := by
  rw [t.boost_class, TaskStruct.prescribedClass]
  show (if prio < maxRtPrio then _ else if t.policy = .wrr then _ else _) = _ ↔ _
  by_cases hrt : prio < maxRtPrio
  · simp [hrt]
  · by_cases hp : t.policy = .wrr <;> simp [hrt, hp]

/-- The normal priority of the WRR policy is a nice value, so only a waiter can make the priority an
RT one. -/
theorem setscheduler_class_eq_wrr {t : TaskStruct} (hstatic : maxRtPrio ≤ t.staticPrio)
    (policy : Policy) (prio : ℤ) (topWaiter : Option ℤ) :
    (t.setscheduler policy prio topWaiter).schedClass = .wrr ↔
      policy = .wrr ∧ ∀ w, topWaiter = some w → ¬w < maxRtPrio := by
  have hpolicy := t.setscheduler_policy policy prio topWaiter
  have hprio := t.setscheduler_prio policy prio topWaiter
  have hnormal := t.setscheduler_normalPrio policy prio topWaiter
  have hstatic' : maxRtPrio ≤ (t.setscheduler policy prio topWaiter).staticPrio := by
    rw [TaskStruct.setscheduler_eq]
    exact hstatic
  rw [t.setscheduler_class, TaskStruct.prescribedClass, hpolicy]
  generalize t.setscheduler policy prio topWaiter = t' at hpolicy hprio hnormal hstatic'
  by_cases hwrr : policy = .wrr
  · have hnice : maxRtPrio ≤ t'.normalPrio := by
      rw [hnormal, TaskStruct.calcNormalPrio, TaskStruct.hasRtPolicy, hpolicy, hwrr,
        if_neg (by decide)]
      exact hstatic'
    -- `rt_mutex_getprio` takes the smaller of the nice value and the priority of the waiter
    have hlt : t'.prio < maxRtPrio ↔ ∃ w, topWaiter = some w ∧ w < maxRtPrio := by
      rw [hprio]
      unfold TaskStruct.rtMutexGetprio
      cases topWaiter with
      | none => simpa using hnice
      | some w => simp [not_lt.mpr hnice]
    by_cases hrt : t'.prio < maxRtPrio
    · obtain ⟨w, hw, hwlt⟩ := hlt.mp hrt
      rw [if_pos hrt]
      exact ⟨fun h => absurd h (by simp), fun h => absurd hwlt (h.2 w hw)⟩
    · rw [if_neg hrt, if_pos hwrr]
      exact ⟨fun _ => ⟨hwrr, fun w hw hwlt => hrt (hlt.mpr ⟨w, hw, hwlt⟩)⟩, fun _ => rfl⟩
  · constructor
    · intro h
      split_ifs at h
    · exact fun h => absurd h.1 hwrr

end Calls

end State

/-! ## Reachable states -/

section Reachable

open State

variable {cfg : Config} {env : Env} {s : State}

theorem reachable_lowPrio (hs : (system cfg .pi).Reachable s) : s.LowPrio := by
  intro hpre hlt
  have hinv := reachable_inv hs
  by_cases hc : s.curr = s.idle
  · obtain ⟨tg, c, -, ht⟩ := hinv.idle_task
    rw [hc, ht] at hlt
    have hlt : maxPrio - 20 < maxRtPrio := hlt
    exact absurd hlt (by decide)
  · rcases (reachable_prioOk hs s.curr hinv.curr_live hc).schedClass with h | ⟨h, -⟩
    · rw [h, TaskStruct.prescribedClass, if_pos hlt] at hpre
      exact absurd hpre (by decide)
    · rw [h] at hpre
      exact absurd hpre (by decide)

/-- A call of `rt_mutex_setprio` or `__sched_setscheduler` keeps the class precedence if and only if
a reschedule was pending or the call does not bring a task to WRR that is overlooked there. -/
theorem class_precedence_iff (hs : (system cfg .pi).Reachable s) (hprec : s.Precedence) {op : Op}
    (hen : s.Enabled .any op env)
    (hop : (∃ p prio, op = .rtMutexSetprio p prio) ∨
      ∃ p policy prio user c topWaiter,
        op = .schedSetscheduler p policy prio user c topWaiter) :
    (s.next cfg op env).Precedence ↔
      s.needResched s.curr = true ∨ ¬∃ p, s.MovesToWrr op p ∧ s.Overlooked env p := by
  have hinv := reachable_inv hs
  have hstop := reachable_stopClass hs
  have hlow := reachable_lowPrio hs
  rcases hop with ⟨p, prio, rfl⟩ | ⟨p, policy, prio, user, c, topWaiter, rfl⟩
  · -- a boost, or the end of one
    obtain ⟨hlive, hidle⟩ := hen.2.1
    have hmoves : ((s.task p).boost prio).schedClass = .wrr ∧ s.Overlooked env p ↔
        ∃ q, s.MovesToWrr (.rtMutexSetprio p prio) q ∧ s.Overlooked env q := by
      rw [boost_class_eq_wrr]
      constructor
      · rintro ⟨hwrr, hover⟩
        exact ⟨p, ⟨rfl, hwrr⟩, hover⟩
      · rintro ⟨q, ⟨rfl, hwrr⟩, hover⟩
        exact ⟨hwrr, hover⟩
    have hbug := s.bugOn_quiet (decide (prio < 0 ∨ prio > maxPrio))
    rw [← hmoves]
    show (s.rtMutexSetprio cfg env p prio).Precedence ↔ _
    unfold rtMutexSetprio
    dsimp only
    rw [if_neg (by rw [hbug.idle]; exact hidle)]
    exact changeQueued_precedence_iff env (hinv.of_quiet hbug) hstop hlow hlive hidle
      (fun t => t.boost prio) rfl ((s.task p).boost_class prio) _ hprec
  · -- a policy change, which may be refused
    obtain ⟨hlive, hidle⟩ := hen.2.1
    have hstatic := (reachable_prioOk hs p hlive hidle).staticPrio
    cases hreq : s.setschedulerRequest p policy prio user c with
    | none =>
      -- nothing is moved, so nothing can be overlooked
      have hnone : ¬∃ q, s.MovesToWrr (.schedSetscheduler p policy prio user c topWaiter) q ∧
          s.Overlooked env q := by
        rintro ⟨q, ⟨rfl, ⟨req, hsome, -⟩, -⟩, -⟩
        rw [hreq] at hsome
        cases hsome
      rw [State.next, schedSetscheduler_of_no_request cfg env topWaiter hreq]
      exact ⟨fun _ => .inr hnone, fun _ => hprec⟩
    | some req =>
      -- the class the task gets depends on policy and waiter only
      let t : TaskStruct := { s.task p with schedResetOnFork := req.resetOnFork }
      have hmoves : (t.setscheduler req.policy prio topWaiter).schedClass = .wrr ∧
          s.Overlooked env p ↔
          ∃ q, s.MovesToWrr (.schedSetscheduler p policy prio user c topWaiter) q ∧
            s.Overlooked env q := by
        have hnice : maxRtPrio ≤ t.staticPrio := hstatic
        rw [setscheduler_class_eq_wrr hnice]
        constructor
        · rintro ⟨⟨hwrr, hwaiter⟩, hover⟩
          exact ⟨p, ⟨rfl, ⟨req, hreq, hwrr⟩, hwaiter⟩, hover⟩
        · rintro ⟨q, ⟨rfl, ⟨req', hreq', hwrr⟩, hwaiter⟩, hover⟩
          obtain rfl : req = req' := Option.some.inj (hreq.symm.trans hreq')
          exact ⟨⟨hwrr, hwaiter⟩, hover⟩
      rw [State.next, schedSetscheduler_of_request cfg env topWaiter hreq, ← hmoves]
      exact changeQueued_precedence_iff env hinv hstop hlow hlive hidle
        (fun t => TaskStruct.setscheduler { t with schedResetOnFork := req.resetOnFork }
          req.policy prio topWaiter)
        (t.setscheduler_onRq req.policy prio topWaiter)
        (t.setscheduler_class req.policy prio topWaiter) 0 hprec

/-- Two tasks of the fair class, one of which runs. -/
def Small.fairPair : State :=
  (Small.start [Small.taskB, Small.taskA]).next Small.cfg .schedule (Small.env [Small.taskA] 0)

theorem Small.fairPair_spec (rule : Rule) :
    (system Small.cfg rule).Reachable Small.fairPair ∧ Small.fairPair.Precedence ∧
      Small.fairPair.Target Small.taskB := by
  obtain ⟨hs, -, -, -⟩ := Small.reachable_start rule [Small.taskB, Small.taskA] (by decide)
  have hr : (system Small.cfg rule).Reachable Small.fairPair :=
    reachable_next hs ⟨Small.no_worker _ _ _, trivial⟩
  refine ⟨hr, .inr fun q hon => ?_, by decide, by decide⟩
  have hlive := (reachable_inv hr).live_of_onRq hon
  have hall : ∀ q ∈ Small.fairPair.live, ¬(Small.fairPair.task q).schedClass.Precedes .fair := by
    decide
  exact hall q hlive

/-- A boost of the waiting task to an RT priority is noticed. -/
theorem class_precedence_boost :
    (Small.fairPair.next Small.cfg (.rtMutexSetprio Small.taskB 50)
      (Small.env [] 0)).Precedence := by
  obtain ⟨hs, hprec, htarget⟩ := Small.fairPair_spec .pi
  have hen : Small.fairPair.Enabled .any (.rtMutexSetprio Small.taskB 50) (Small.env [] 0) :=
    ⟨Small.no_worker _ _ _, htarget, by decide, by decide, trivial⟩
  refine (class_precedence_iff hs hprec hen (.inl ⟨_, _, rfl⟩)).mpr (.inr ?_)
  rintro ⟨q, ⟨-, -, hprio⟩, -⟩
  exact hprio (by decide)

/-- The waiting task becomes a WRR task, and the fair task goes on running: the call returns 0, and
no reschedule is pending. -/
theorem class_precedence_broken :
    (system Small.cfg .pi).Reachable Small.fairPair ∧ Small.fairPair.Precedence ∧
      Small.fairPair.Enabled .pi
        (.schedSetscheduler Small.taskB Policy.wrr.toNat 0 true Small.user none)
        (Small.env [] 0) ∧
      (Small.fairPair.schedSetscheduler Small.cfg (Small.env [] 0) Small.taskB Policy.wrr.toNat 0
        true Small.user none).2 = 0 ∧
      ¬(Small.setWrr Small.fairPair Small.taskB 0).Precedence := by
  obtain ⟨hs, hprec, htarget⟩ := Small.fairPair_spec .pi
  refine ⟨hs, hprec, ⟨Small.no_worker _ _ _, htarget, fun _ => rfl⟩, by decide, ?_⟩
  rintro (h | h)
  · exact absurd h (by decide)
  · exact h Small.taskB (by decide) (by decide)

end Reachable

end WrrSched
