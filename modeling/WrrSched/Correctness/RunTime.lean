import WrrSched.Correctness.Invariant
import WrrSched.Lib.Timeline

/-!
# Run time

`update_curr_wrr` charges the running WRR task for the time since its `exec_start`. The functions
`…Events` say what a call does to the clock and to the running WRR task, in the order of the source:
where `update_rq_clock` advances the clock, where `update_curr_wrr` is called, and where
`sched_class` or `rq->curr` may change. The `Timeline` of a run follows these events and knows
nothing of `exec_start` and `sum_exec_runtime`. `Accounted` relates the two, one lemma for each
function.
-/

namespace WrrSched

open Timeline (Event)

namespace State

variable (cfg : Config) (env : Env)

/-! ## Events -/

/-- The running task, if WRR is its class. -/
def wrrCurr (s : State) : Option TaskPtr :=
  if (s.task s.curr).schedClass = .wrr then some s.curr else none

/-- `update_rq_clock`. -/
def clockEvents (s : State) (delta : UInt64) : List (Event TaskPtr) :=
  if 0 < s.skipClockUpdate then [] else [.advance delta.toNat]

/-- A hook of the class of `p` that begins with `update_curr_wrr` if that class is WRR. -/
def updateEvents (s : State) (p : TaskPtr) : List (Event TaskPtr) :=
  if (s.task p).schedClass = .wrr then [.update] else []

/-- `dequeue_task`. -/
def dequeueEvents (s : State) (p : TaskPtr) (n : ℕ) : List (Event TaskPtr) :=
  s.clockEvents (env.clockDelta n) ++ s.updateEvents p

/-- `changeQueued`, the scheme of `__sched_setscheduler`, `rt_mutex_setprio` and
`sched_move_task`. -/
def changeEvents (s : State) (p : TaskPtr) (running : Bool) (change : TaskStruct → TaskStruct) :
    List (Event TaskPtr) :=
  let s' := s.changed env p running change
  (if (s.task p).onRq then s.dequeueEvents env p 0 else []) ++
    (if running then s.updateEvents p else []) ++ [.setOwner s'.wrrCurr] ++
    if (s.task p).onRq then s'.clockEvents (env.clockDelta 1) else []

/-- `__sched_setscheduler`. -/
def setschedulerEvents (s : State) (p : TaskPtr) (policy prio : ℤ) (user : Bool) (c : Caller)
    (topWaiter : Option ℤ) : List (Event TaskPtr) :=
  match s.setschedulerRequest p policy prio user c with
  | none => []
  | some req =>
    s.changeEvents env p (decide (s.curr = p)) fun t =>
      { t with schedResetOnFork := req.resetOnFork }.setscheduler req.policy prio topWaiter

/-- The wake-up of a task, which is queued unless it still is. -/
def wakeEvents (s : State) (p : TaskPtr) (state n : ℕ) : List (Event TaskPtr) :=
  if (s.task p).state &&& state = 0 ∨ (s.task p).onRq then []
  else s.clockEvents (env.clockDelta n)

/-- The first half of `__schedule`. -/
def deactivateEvents (s : State) : List (Event TaskPtr) :=
  if s.sleeps env then
    s.dequeueEvents env s.curr 0 ++
      match env.toWakeup with
      | some p => if p = s.curr then [] else (s.parked env).wakeEvents env p taskNormal 1
      | none => []
  else []

/-- The second half of `__schedule`. -/
def switchEvents (s : State) : List (Event TaskPtr) :=
  (if (s.task s.curr).onRq ∨ s.skipClockUpdate < 0 then s.clockEvents (env.clockDelta 2) else []) ++
    s.updateEvents s.curr ++ [.setOwner (s.switchTask env).wrrCurr]

/-- `__schedule`. -/
def scheduleEvents (s : State) : List (Event TaskPtr) :=
  s.deactivateEvents env ++ (s.deactivatePrev cfg env).switchEvents env

/-- What an operation does to the clock and to the running WRR task. -/
def events (s : State) (op : Op) (env : Env) : List (Event TaskPtr) :=
  match op with
  | .wakeUpNewTask _ => s.clockEvents (env.clockDelta 0)
  | .schedule => s.scheduleEvents cfg env
  | .schedulerTick => s.clockEvents (env.clockDelta 0) ++ s.updateEvents s.curr
  | .schedYield => s.classYieldTask.scheduleEvents cfg env
  | .tryToWakeUp p state => s.wakeEvents env p state 0
  | .rtMutexSetprio p prio =>
    let s := s.bugOn (decide (prio < 0 ∨ prio > maxPrio))
    if p = s.idle then [] else s.changeEvents env p (decide (s.curr = p)) (·.boost prio)
  | .setUserNice p nice =>
    if (s.task p).nice = nice ∨ nice < -20 ∨ nice > 19 then []
    else if (s.task p).hasRtPolicy then []
    else s.changeEvents env p false fun t => { t with staticPrio := niceToPrio nice }.effectivePrio
  | .schedSetscheduler p policy prio user c topWaiter =>
    s.setschedulerEvents env p policy prio user c topWaiter
  | .schedMoveTask p tg =>
    s.changeEvents env p (decide (s.curr = p)) fun t => { t with schedTaskGroup := tg }
  | .schedSetStopTask stop c topWaiter =>
    stop.elim [] (s.setschedulerEvents env · Policy.fifo.toNat (maxRtPrio - 1) false c topWaiter)
  | .schedFork _ _ | .setCurrentState _ | .initIdleBootupTask | .setGroupPath _ _
  | .reschedTask => []

end State

/-- The timeline of a run, from boot on. -/
def timeline (cfg : Config) : List (State × (Op × Env)) → Timeline TaskPtr
  | [] => .empty
  | (s, (op, env)) :: h => (timeline cfg h).run (s.events cfg op env)

/-- The state in which a run with the given history has started. -/
def bootState : List (State × (Op × Env)) → State → State
  | [], s => s
  | (s, _) :: h, _ => bootState h s

/-! ## Accounts -/

/-- Neither the time accounts nor the running WRR task have changed. -/
structure Timeless (s s' : State) : Prop where
  clockTask : s'.clockTask = s.clockTask
  se : s'.se = s.se
  curr : s'.curr = s.curr
  live : s'.live = s.live
  wrrCurr : s'.wrrCurr = s.wrrCurr

namespace Timeless

variable {s s' s'' : State}

/-- Two such steps after one another. -/
theorem trans (h : Timeless s s') (h' : Timeless s' s'') : Timeless s s'' where
  clockTask := h'.clockTask.trans h.clockTask
  se := h'.se.trans h.se
  curr := h'.curr.trans h.curr
  live := h'.live.trans h.live
  wrrCurr := h'.wrrCurr.trans h.wrrCurr

/-- A running task stays in its class. -/
theorem modifyTask (s : State) (p : TaskPtr) {f : TaskStruct → TaskStruct}
    (h : p = s.curr → (f (s.task p)).schedClass = (s.task p).schedClass) :
    Timeless s (s.modifyTask p f) where
  clockTask := rfl
  se := rfl
  curr := rfl
  live := rfl
  wrrCurr := by
    by_cases hp : p = s.curr
    · subst hp
      simp [State.wrrCurr, State.modifyTask, State.setTask, h rfl]
    · simp [State.wrrCurr, State.modifyTask, State.setTask, Ne.symm hp]

/-- Nothing but the run queue and the requests to reschedule has changed. -/
theorem of_quiet (h : Quiet s s') (hclock : s'.clockTask = s.clockTask) (hse : s'.se = s.se) :
    Timeless s s' where
  clockTask := hclock
  se := hse
  curr := h.curr
  live := h.live
  wrrCurr := by simp only [State.wrrCurr, h.curr, h.task]

end Timeless

/-- The accounts of the tasks agree with the timeline of a CPU that was booted at `clock`. -/
structure Accounts (clock : UInt64) (s : State) (tl : Timeline TaskPtr) : Prop where
  clockTask : s.clockTask = clock + UInt64.ofNat tl.now
  owner : tl.owner = s.wrrCurr
  execStart : ∀ p, s.wrrCurr = some p → (s.se p).execStart = clock + UInt64.ofNat tl.last
  sumExecRuntime : ∀ p, (s.se p).sumExecRuntime = UInt64.ofNat (tl.total p)
  ordered : tl.Ordered
  settled : tl.Settled
  curr_live : s.curr ∈ s.live
  /-- A task that does not exist yet has never been charged. -/
  total_eq_zero : ∀ p, p ∉ s.live → tl.total p = 0

/-- The accounts agree as long as the clock has not run for `2 ^ 63` nanoseconds. -/
def Accounted (clock : UInt64) (s : State) (tl : Timeline TaskPtr) : Prop :=
  tl.now < 2 ^ 63 → Accounts clock s tl

/-- The difference of two readings of the clock is the time between them. -/
theorem elapsed_eq (clock : UInt64) {m n : ℕ} (h : m ≤ n) :
    clock + UInt64.ofNat n - (clock + UInt64.ofNat m) = UInt64.ofNat (n - m) := by
  obtain ⟨d, rfl⟩ := Nat.exists_eq_add_of_le h
  rw [UInt64.ofNat_add, Nat.add_sub_cancel_left]
  grind

namespace Accounted

variable {clock : UInt64} {s s' : State} {tl : Timeline TaskPtr}

/-- A step that takes no time and charges nobody. -/
theorem of_timeless (h : Accounted clock s tl) (ht : Timeless s s') : Accounted clock s' tl := by
  intro hnow
  obtain ⟨hclock, howner, hexec, hsum, hordered, hsettled, hcurr, hzero⟩ := h hnow
  refine ⟨?_, ?_, ?_, ?_, hordered, hsettled, ?_, ?_⟩
  · rw [ht.clockTask, hclock]
  · rw [ht.wrrCurr, howner]
  · rw [ht.wrrCurr, ht.se]
    exact hexec
  · rw [ht.se]
    exact hsum
  · rw [ht.curr, ht.live]
    exact hcurr
  · rw [ht.live]
    exact hzero

/-- The clock moves. -/
theorem updateRqClock (h : Accounted clock s tl) (delta : UInt64) :
    Accounted clock (s.updateRqClock delta) (tl.run (s.clockEvents delta)) := by
  unfold State.updateRqClock State.clockEvents
  split
  · exact h
  · intro hnow
    obtain ⟨hclock, howner, hexec, hsum, hordered, hsettled, hcurr, hzero⟩ :=
      h (lt_of_le_of_lt (tl.now_le_run _) hnow)
    refine ⟨?_, howner, hexec, fun p => ?_, hordered.run _, hsettled.advance _, hcurr,
      fun p hp => ?_⟩
    · show s.clockTask + delta = clock + UInt64.ofNat (tl.now + delta.toNat)
      rw [hclock, UInt64.ofNat_add, UInt64.ofNat_toNat, UInt64.add_assoc]
    · rw [Timeline.run_cons, Timeline.run_nil, Timeline.total_advance]
      exact hsum p
    · rw [Timeline.run_cons, Timeline.run_nil, Timeline.total_advance]
      exact hzero p hp

/-- `update_curr_wrr` charges the time since the last update to the running WRR task. -/
theorem updateCurrWrr (h : Accounted clock s tl) :
    Accounted clock s.updateCurrWrr (tl.step .update) := by
  intro hnow
  have hnow' : tl.now < 2 ^ 63 := hnow
  obtain ⟨hclock, howner, hexec, hsum, hordered, hsettled, hcurr, hzero⟩ := h hnow'
  have htotal := Timeline.total_update hordered
  unfold State.updateCurrWrr
  split
  · next hclass =>
    have hnone : s.wrrCurr = none := by rw [State.wrrCurr, if_neg hclass]
    have htotal' (p : TaskPtr) : (tl.step .update).total p = tl.total p := by
      rw [htotal, howner, hnone]
      simp
    refine ⟨hclock, howner, fun p hp => ?_, fun p => ?_, hordered.step _, hsettled.update, hcurr,
      fun p hp => ?_⟩
    · rw [hnone] at hp
      cases hp
    · rw [htotal', hsum]
    · rw [htotal', hzero p hp]
  · next hclass =>
    have hcurrent : s.wrrCurr = some s.curr := by rw [State.wrrCurr, if_pos (not_ne_iff.mp hclass)]
    -- the difference is what has passed since the last update, and it is not negative
    have hdelta : s.clockTask - (s.se s.curr).execStart = UInt64.ofNat (tl.now - tl.last) := by
      have hlast := hordered.last_le
      rw [hclock, hexec _ hcurrent, elapsed_eq clock hlast]
    have hnonneg : ¬2 ^ 63 ≤ (s.clockTask - (s.se s.curr).execStart).toNat := by
      rw [hdelta, UInt64.toNat_ofNat', Nat.mod_eq_of_lt (by omega)]
      omega
    dsimp only
    rw [if_neg hnonneg, hdelta]
    refine ⟨hclock, howner, fun p hp => ?_, fun p => ?_, hordered.step _, hsettled.update, hcurr,
      fun p hp => ?_⟩
    · obtain rfl : s.curr = p := Option.some.inj (hcurrent.symm.trans hp)
      simp only [Function.update_self]
      exact hclock
    · rw [htotal, howner, hcurrent]
      by_cases hp : p = s.curr
      · subst hp
        simp [hsum, UInt64.ofNat_add]
      · simp [hsum, hp, Ne.symm hp]
    · have hp' : p ≠ s.curr := by rintro rfl; exact hp hcurr
      rw [htotal, howner, hcurrent, hzero p hp]
      simp [Ne.symm hp']

/-- The running WRR task may change when its time has just been taken, and the new one starts from
the current clock. -/
theorem setOwner (h : Accounted clock s tl) (hlast : s.wrrCurr = none ∨ tl.last = tl.now)
    (hclock : s'.clockTask = s.clockTask)
    (hsum : ∀ p, (s'.se p).sumExecRuntime = (s.se p).sumExecRuntime)
    (hexec : ∀ p, s'.wrrCurr = some p → (s'.se p).execStart = s.clockTask)
    (hlive : s'.live = s.live) (hcurr : s.curr ∈ s.live → s'.curr ∈ s.live) :
    Accounted clock s' (tl.step (.setOwner s'.wrrCurr)) := by
  intro hnow
  obtain ⟨hclock', howner, hexec', hsum', hordered, hsettled, hcurr', hzero⟩ :=
    h (lt_of_le_of_lt (tl.now_le_step _) hnow)
  have htotal := Timeline.total_setOwner tl s'.wrrCurr
  refine ⟨?_, ?_, fun p hp => ?_, fun p => ?_, hordered.step _, ?_, ?_, fun p hp => ?_⟩
  · rw [hclock, Timeline.step_setOwner_now, hclock']
  · rw [Timeline.step_setOwner_owner]
  · rw [hexec p hp, hclock']
    simp only [Timeline.step]
    split
    · next howner' =>
      -- the task goes on running, and its last update is now
      rcases hlast with hnone | hlast
      · rw [← howner', hp] at howner
        rw [← howner] at hnone
        cases hnone
      · rw [hlast]
    · rfl
  · rw [htotal, hsum, hsum']
  · exact hsettled.setOwner (.inr (by rwa [howner]))
  · rw [hlive]
    exact hcurr hcurr'
  · rw [hlive] at hp
    rw [htotal, hzero p hp]

/-- The running WRR task is still the same. -/
theorem setOwner_of_timeless (h : Accounted clock s tl) (ht : Timeless s s') :
    Accounted clock s' (tl.step (.setOwner s'.wrrCurr)) := by
  intro hnow
  have hnow' := lt_of_le_of_lt (tl.now_le_step _) hnow
  have howner : s'.wrrCurr = tl.owner := by rw [ht.wrrCurr, (h hnow').owner]
  rw [howner, Timeline.step_setOwner_self]
  exact h.of_timeless ht hnow'

end Accounted

/-! ## Hooks -/

namespace State

variable (cfg : Config) (env : Env)

/-- Asking for a reschedule takes no time. -/
theorem reschedCurr_timeless (s : State) (b : Bool) : Timeless s (s.reschedCurr b) :=
  ⟨rfl, rfl, rfl, rfl, rfl⟩

/-- Nor does a check for preemption. -/
theorem checkPreemptCurr_timeless (s : State) (p : TaskPtr) :
    Timeless s (s.checkPreemptCurr env p) := by
  refine .of_quiet (s.checkPreemptCurr_quiet env p) ?_ ?_
  all_goals
    unfold checkPreemptCurr classCheckPreemptCurr
    dsimp only
    split_ifs
    all_goals first | rfl | (split <;> rfl)

/-- Nor does a change of the class. -/
theorem checkClassChanged_timeless (s : State) (p : TaskPtr) (prevClass : SchedClass)
    (oldprio : ℤ) : Timeless s (s.checkClassChanged env p prevClass oldprio) := by
  have hcheck := s.checkPreemptCurr_timeless env p
  refine .of_quiet (s.checkClassChanged_quiet env p prevClass oldprio) ?_ ?_
  all_goals
    unfold checkClassChanged switchedToRt switchedToFair prioChangedRt
    split_ifs
    all_goals try split
    all_goals first | rfl | exact hcheck.clockTask | exact hcheck.se

/-- Nor does a yield. -/
theorem classYieldTask_timeless (s : State) : Timeless s s.classYieldTask := by
  unfold classYieldTask
  split <;> exact ⟨rfl, rfl, rfl, rfl, rfl⟩

/-- `set_curr_task` does not move the clock. -/
theorem setCurrTask_clockTask (s : State) (p : TaskPtr) :
    (s.setCurrTask p).clockTask = s.clockTask := by
  unfold setCurrTask
  split <;> rfl

/-- Nor does it charge anybody. -/
theorem setCurrTask_sumExecRuntime (s : State) (p q : TaskPtr) :
    ((s.setCurrTask p).se q).sumExecRuntime = (s.se q).sumExecRuntime := by
  unfold setCurrTask setCurrTaskWrr
  split
  · by_cases hq : q = s.curr
    · simp [hq]
    · simp [hq]
  all_goals rfl

/-- `set_curr_task_wrr` starts a new account. -/
theorem setCurrTask_execStart {s : State} {p : TaskPtr} (hp : s.curr = p)
    (h : (s.task p).schedClass = .wrr) : ((s.setCurrTask p).se p).execStart = s.clockTask := by
  simp [setCurrTask, setCurrTaskWrr, hp, h]

/-- Queueing a task advances the clock and does nothing else to the accounts. -/
theorem enqueueTask_timeless (s : State) (p : TaskPtr) (flags n : ℕ) :
    Timeless (s.updateRqClock (env.clockDelta n)) (s.enqueueTask cfg env p flags n) := by
  have hframe := s.enqueueTask_frame cfg env p flags n
  have hquiet := s.updateRqClock_quiet (env.clockDelta n)
  refine ⟨?_, ?_, hframe.curr.trans hquiet.curr.symm, hframe.live.trans hquiet.live.symm, ?_⟩
  · unfold enqueueTask
    dsimp only
    split <;> rfl
  · unfold enqueueTask
    dsimp only
    split <;> rfl
  · unfold wrrCurr
    rw [enqueueTask_task, hframe.curr, hquiet.curr, hquiet.task]
    by_cases hp : s.curr = p
    · rw [hp, Function.update_self, TaskStruct.enqueued_eq]
    · rw [Function.update_of_ne hp]

/-- `wrr_set_weight` takes no time. -/
theorem wrrSetWeight_timeless (s : State) (p : TaskPtr) : Timeless s (s.wrrSetWeight cfg p) := by
  have hframe := s.wrrSetWeight_frame cfg p
  refine ⟨?_, ?_, hframe.curr, hframe.live, ?_⟩
  · unfold wrrSetWeight wrrSetGroupWeight
    dsimp only
    split_ifs <;> rfl
  · unfold wrrSetWeight wrrSetGroupWeight
    dsimp only
    split_ifs <;> rfl
  · unfold wrrCurr
    rw [wrrSetWeight_task, hframe.curr]
    by_cases hp : s.curr = p
    · rw [hp, Function.update_self, TaskStruct.wrrSetWeight_eq]
    · rw [Function.update_of_ne hp]

/-- After its `update_curr_wrr`, the tick leaves the accounts alone. -/
theorem taskTickWrr_timeless (s : State) (tvNsec : ℕ) :
    Timeless s.updateCurrWrr (s.taskTickWrr cfg s.curr tvNsec) := by
  rcases Nat.lt_or_ge 1 (s.task s.curr).wrr.timeSlice.toNat with hslice | hslice
  · rw [taskTickWrr_of_one_lt cfg tvNsec hslice]
    exact .modifyTask _ _ fun _ => rfl
  · rw [taskTickWrr_of_le_one cfg tvNsec hslice]
    have hrefilled : Timeless s.updateCurrWrr (s.refilled cfg s.curr) := by
      unfold refilled setTimeSlice
      refine Timeless.trans ?_ (.modifyTask _ _ fun _ => rfl)
      exact ⟨rfl, rfl, rfl, rfl, rfl⟩
    split
    · exact hrefilled.trans ⟨rfl, rfl, rfl, rfl, rfl⟩
    · exact hrefilled

end State

namespace Accounted

variable (cfg : Config) {rule : Rule} (env : Env) {clock : UInt64} {s s' : State}
  {tl : Timeline TaskPtr} {p : TaskPtr}

/-- `enqueue_task` moves the clock and charges nobody. -/
theorem enqueueTask (h : Accounted clock s tl) (p : TaskPtr) (flags n : ℕ) :
    Accounted clock (s.enqueueTask cfg env p flags n)
      (tl.run (s.clockEvents (env.clockDelta n))) :=
  (h.updateRqClock _).of_timeless (s.enqueueTask_timeless cfg env p flags n)

/-- Whatever task is taken off the queue, the running one is charged. -/
theorem dequeueTask (h : Accounted clock s tl) (p : TaskPtr) (n : ℕ) :
    Accounted clock (s.dequeueTask env p n) (tl.run (s.dequeueEvents env p n)) := by
  have hclock := h.updateRqClock (env.clockDelta n)
  have htask := (s.updateRqClock_quiet (env.clockDelta n)).task
  unfold State.dequeueTask State.dequeueEvents State.updateEvents
  rw [Timeline.run_append, ← htask]
  dsimp only
  generalize s.updateRqClock (env.clockDelta n) = s₁ at hclock
  split
  · next hclass =>
    rw [if_pos hclass]
    exact hclock.updateCurrWrr.of_timeless ⟨rfl, rfl, rfl, rfl, rfl⟩
  all_goals
    next hclass =>
      rw [if_neg (by simp [hclass])]
      exact hclock.of_timeless ⟨rfl, rfl, rfl, rfl, rfl⟩

/-- `put_prev_task` charges the running WRR task. -/
theorem classPutPrevTask (h : Accounted clock s tl) (p : TaskPtr) :
    Accounted clock (s.classPutPrevTask env p) (tl.run (s.updateEvents p)) := by
  unfold State.classPutPrevTask State.updateEvents
  split
  · next hclass =>
    rw [if_pos hclass]
    exact h.updateCurrWrr
  all_goals
    next hclass =>
      rw [if_neg (by simp [hclass])]
      exact h.of_timeless ⟨rfl, rfl, rfl, rfl, rfl⟩

/-- After `put_prev_task` of the running task, nothing is outstanding. -/
theorem last_updateEvents (tl : Timeline TaskPtr) (s : State) :
    s.wrrCurr = none ∨
      (tl.run (s.updateEvents s.curr)).last = (tl.run (s.updateEvents s.curr)).now := by
  unfold State.wrrCurr State.updateEvents
  split
  · exact .inr rfl
  · exact .inl rfl

/-- A running task that is taken off is charged. -/
theorem takenOff (h : Accounted clock s tl) (p : TaskPtr) (running : Bool) :
    Accounted clock (s.takenOff env p running)
      ((tl.run (if (s.task p).onRq then s.dequeueEvents env p 0 else [])).run
        (if running then s.updateEvents p else [])) := by
  have hdeq : Accounted clock (if (s.task p).onRq then s.dequeueTask env p 0 else s)
      (tl.run (if (s.task p).onRq then s.dequeueEvents env p 0 else [])) := by
    split
    · exact h.dequeueTask env p 0
    · exact h
  have htask : (if (s.task p).onRq then s.dequeueTask env p 0 else s).task = s.task :=
    s.takenOff_task env p false
  unfold State.takenOff
  dsimp only
  generalize (if (s.task p).onRq then s.dequeueTask env p 0 else s) = s₁ at hdeq htask
  cases running with
  | false => exact hdeq
  | true =>
    have hput := hdeq.classPutPrevTask env p
    unfold State.updateEvents at hput ⊢
    rwa [htask] at hput

/-- A change of a task keeps the accounts right if a running task is taken off the CPU for it or
keeps its class. -/
theorem changeQueued (h : Accounted clock s tl) {running : Bool} (flags : ℕ)
    {change : TaskStruct → TaskStruct}
    (hr : running = decide (s.curr = p) ∨
      running = false ∧ (change (s.task p)).schedClass = (s.task p).schedClass) :
    Accounted clock (s.changeQueued cfg env p running flags change)
      (tl.run (s.changeEvents env p running change)) := by
  have hoff := h.takenOff env p running
  have htask := s.takenOff_task env p running
  have hframe := s.takenOff_frame env p running
  have hchanged : Accounted clock (s.changed env p running change)
      (((tl.run (if (s.task p).onRq then s.dequeueEvents env p 0 else [])).run
        (if running then s.updateEvents p else [])).step
          (.setOwner (s.changed env p running change).wrrCurr)) := by
    cases running with
    | false =>
      refine hoff.setOwner_of_timeless (.modifyTask _ p fun hp => ?_)
      rcases hr with hne | ⟨-, hclass⟩
      · rw [hframe.curr] at hp
        simp [hp] at hne
      · rwa [htask]
    | true =>
      obtain rfl : s.curr = p := by simpa using hr
      have howner : (s.takenOff env s.curr true).wrrCurr = s.wrrCurr := by
        unfold State.wrrCurr
        rw [htask, hframe.curr]
      have hcurr := (s.changed_frame env s.curr true change).curr
      -- the task after its change, still off the CPU
      have hset : s.changed env s.curr true change =
          ((s.takenOff env s.curr true).modifyTask s.curr change).setCurrTask s.curr := rfl
      refine hoff.setOwner ?_ ?_ (fun q => ?_) (fun q hq => ?_) ?_ ?_
      · rw [howner]
        exact last_updateEvents _ s
      · rw [hset, State.setCurrTask_clockTask]
        rfl
      · rw [hset, State.setCurrTask_sumExecRuntime]
        rfl
      · -- `set_curr_task` has been called for the class the task has now
        unfold State.wrrCurr at hq
        split at hq
        · next hclass =>
          obtain rfl := Option.some.inj hq
          rw [hcurr, hset] at hclass ⊢
          rw [(State.setCurrTask_quiet _ s.curr).task] at hclass
          exact State.setCurrTask_execStart hframe.curr hclass
        · cases hq
      · rw [(s.changed_frame env s.curr true change).live, hframe.live]
      · rw [hcurr, hframe.live, hframe.curr]
        exact id
  rw [State.changeQueued_eq, State.changeEvents]
  simp only [Timeline.run_append, Timeline.run_cons, Timeline.run_nil]
  by_cases hon : (s.task p).onRq
  · simp only [if_pos hon] at hchanged ⊢
    exact hchanged.enqueueTask cfg env p flags 1
  · simp only [if_neg hon] at hchanged ⊢
    exact hchanged

/-! ### Sleep, wake-up and pick -/

/-- `ttwu_do_wakeup` charges nobody. -/
theorem ttwuDoWakeup (h : Accounted clock s tl) (p : TaskPtr) :
    Accounted clock (s.ttwuDoWakeup env p) tl := by
  unfold State.ttwuDoWakeup
  have hcheck := h.of_timeless (s.checkPreemptCurr_timeless env p)
  exact hcheck.of_timeless (.modifyTask _ p fun _ => rfl)

/-- `ttwu_activate` moves the clock and charges nobody. -/
theorem ttwuActivate (h : Accounted clock s tl) (p : TaskPtr) (n : ℕ) :
    Accounted clock (s.ttwuActivate cfg env p n) (tl.run (s.clockEvents (env.clockDelta n))) := by
  unfold State.ttwuActivate
  exact (h.enqueueTask cfg env p enqueueWakeup n).of_timeless (.modifyTask _ p fun _ => rfl)

/-- `try_to_wake_up` does so too, when it wakes the task up. -/
theorem wakeUp (h : Accounted clock s tl) (p : TaskPtr) (state n : ℕ) :
    Accounted clock (s.wakeUp cfg env p state n) (tl.run (s.wakeEvents env p state n)) := by
  unfold State.wakeUp State.wakeEvents
  split
  · next hstate =>
    rw [if_pos (.inl hstate)]
    exact h
  · next hstate =>
    split
    · next hon =>
      rw [if_pos (.inr hon)]
      exact h.ttwuDoWakeup env p
    · next hon =>
      rw [if_neg (by simp [hstate, hon])]
      exact (h.ttwuActivate cfg env p n).ttwuDoWakeup env p

/-- So does `try_to_wake_up_local`. -/
theorem tryToWakeUpLocal (h : Accounted clock s tl) (p : TaskPtr) (n : ℕ) :
    Accounted clock (s.tryToWakeUpLocal cfg env p n)
      (tl.run (if p = s.curr then [] else s.wakeEvents env p taskNormal n)) := by
  rw [State.tryToWakeUpLocal_eq]
  split
  · exact h
  · exact h.wakeUp cfg env p taskNormal n

/-- The task that sleeps is charged before the worker wakes up. -/
theorem deactivatePrev (h : Accounted clock s tl) :
    Accounted clock (s.deactivatePrev cfg env) (tl.run (s.deactivateEvents env)) := by
  unfold State.deactivateEvents
  cases hs : s.sleeps env with
  | true =>
    have hparked : Accounted clock (s.parked env) (tl.run (s.dequeueEvents env s.curr 0)) :=
      (h.dequeueTask env s.curr 0).of_timeless (.modifyTask _ s.curr fun _ => rfl)
    rw [State.deactivatePrev_of_sleeps cfg env hs, if_pos rfl, Timeline.run_append]
    split
    · next w hw =>
      have hwake := hparked.tryToWakeUpLocal cfg env w 1
      rw [(s.parked_frame env).curr] at hwake
      simpa [hw] using hwake
    · next hw => simpa [hw] using hparked
  | false =>
    rw [if_neg (by simp)]
    rcases State.deactivatePrev_of_not_sleeps cfg env hs with heq | heq
    · rw [heq]
      exact h
    · rw [heq]
      exact h.of_timeless (.modifyTask s s.curr fun _ => rfl)

/-- The clock is moved first, then the task is charged. -/
theorem putPrevTask (h : Accounted clock s tl) (p : TaskPtr) (n : ℕ) :
    Accounted clock (s.putPrevTask env p n)
      ((tl.run (if (s.task p).onRq ∨ s.skipClockUpdate < 0 then s.clockEvents (env.clockDelta n)
        else [])).run (s.updateEvents p)) := by
  unfold State.putPrevTask
  split
  · have hput := (h.updateRqClock (env.clockDelta n)).classPutPrevTask env p
    unfold State.updateEvents at hput ⊢
    rwa [(s.updateRqClock_quiet _).task] at hput
  · exact h.classPutPrevTask env p

end Accounted

namespace State

variable (env : Env)

/-- What a class that is asked for a task does to the accounts: WRR starts the account of the task
it offers. -/
structure Picked (s : State) (next : Option TaskPtr) (s' : State) : Prop where
  clockTask : s'.clockTask = s.clockTask
  sumExecRuntime : ∀ p, (s'.se p).sumExecRuntime = (s.se p).sumExecRuntime
  execStart : ∀ p ∈ next, (s.task p).schedClass = .wrr →
    p = s.idle ∨ (s'.se p).execStart = s.clockTask

/-- A class starts an interval of the task it returns, or does nothing. -/
theorem classPickNextTask_picked (s : State) (c : SchedClass) :
    s.Picked (s.classPickNextTask env c).1 (s.classPickNextTask env c).2 := by
  have hother {d : SchedClass} (hd : d ≠ .wrr) {next : Option TaskPtr}
      (h : ∀ p, next = some p → (s.task p).onRq = true ∧ (s.task p).schedClass = d) :
      s.Picked next s :=
    ⟨rfl, fun _ => rfl, fun p hp hwrr => absurd ((h p hp).2.symm.trans hwrr) hd⟩
  cases c with
  | stop => exact hother (by decide) (env.pickStop_queued s)
  | rt => exact hother (by decide) (env.pickRt_queued s)
  | fair => exact hother (by decide) (env.pickFair_queued s)
  | idle => exact ⟨rfl, fun _ => rfl, fun p hp _ => .inl (Option.some.inj hp).symm⟩
  | wrr =>
    have hnone : s.Picked none s := ⟨rfl, fun _ => rfl, fun p hp => by cases hp⟩
    unfold classPickNextTask pickNextTaskWrr
    dsimp only
    split_ifs
    · exact hnone
    · exact hnone
    · split
      · exact ⟨rfl, fun _ => rfl, fun p hp => by cases hp⟩
      · next q hq =>
        refine ⟨rfl, fun p => ?_, fun p hp _ => .inr ?_⟩
        · by_cases hpq : p = q
          · simp [hpq]
          · simp [hpq]
        · simp [← Option.some.inj hp]

/-- So does the walk over the classes. -/
theorem pickWalk_picked (s : State) (cs : List SchedClass) :
    s.Picked (some (s.pickWalk env cs).1) (s.pickWalk env cs).2 := by
  induction cs generalizing s with
  | nil => exact ⟨rfl, fun _ => rfl, fun p hp _ => .inl (Option.some.inj hp).symm⟩
  | cons c cs ih =>
    have hc := s.classPickNextTask_picked env c
    have hq := s.classPickNextTask_quiet env c
    rw [pickWalk]
    split
    · next p s' h =>
      rw [h] at hc
      exact hc
    · next s' h =>
      rw [h] at hc hq
      obtain ⟨hclock, hsum, hexec⟩ := ih s'
      refine ⟨hclock.trans hc.clockTask, fun p => (hsum p).trans (hc.sumExecRuntime p), ?_⟩
      rw [← hc.clockTask, ← hq.idle, ← hq.task]
      exact hexec

/-- So does `pick_next_task`. -/
theorem pickNextTask_picked (s : State) :
    s.Picked (some (s.pickNextTask env).1) (s.pickNextTask env).2 := by
  unfold pickNextTask
  split
  · split
    · next p hp =>
      have hfair := s.classPickNextTask_picked env .fair
      rw [classPickNextTask, hp] at hfair
      exact hfair
    · exact s.pickWalk_picked env _
  · exact s.pickWalk_picked env _

end State

namespace Accounted

variable (cfg : Config) {rule : Rule} (env : Env) {clock : UInt64} {s s' : State}
  {tl : Timeline TaskPtr} {p : TaskPtr}

/-- The task that is picked starts from the clock at which the one before it has stopped. -/
theorem switchTask (h : Accounted clock s tl)
    (hidle : (s.task s.idle).schedClass ≠ .wrr)
    (hlive : (s.switchTask env).curr ∈ s.live) :
    Accounted clock (s.switchTask env) (tl.run (s.switchEvents env)) := by
  -- the last task is charged first, and the owner changes when the next one starts
  have hput := h.putPrevTask env s.curr 2
  have hquiet := s.putPrevTask_quiet env s.curr 2
  have hpick := (s.putPrevTask env s.curr 2).pickNextTask_picked env
  have hpquiet := (s.putPrevTask env s.curr 2).pickNextTask_quiet env
  have hcurr : (s.switchTask env).curr = ((s.putPrevTask env s.curr 2).pickNextTask env).1 := by
    unfold State.switchTask
    dsimp only
    split
    · rfl
    · next hne =>
      rw [← not_ne_iff.mp hne]
      exact hpquiet.curr.trans hquiet.curr
  have htask : (s.switchTask env).task = s.task := by
    rw [← hquiet.task, ← hpquiet.task]
    unfold State.switchTask
    dsimp only
    split <;> rfl
  -- in between the last task is still the owner
  have howner : (s.putPrevTask env s.curr 2).wrrCurr = s.wrrCurr := by
    unfold State.wrrCurr
    rw [hquiet.task, hquiet.curr]
  have hse : (s.switchTask env).se = ((s.putPrevTask env s.curr 2).pickNextTask env).2.se := by
    unfold State.switchTask
    dsimp only
    split <;> rfl
  have hclock : (s.switchTask env).clockTask =
      ((s.putPrevTask env s.curr 2).pickNextTask env).2.clockTask := by
    unfold State.switchTask
    dsimp only
    split <;> rfl
  have hlive' : (s.switchTask env).live = s.live := by
    rw [← hquiet.live, ← hpquiet.live]
    unfold State.switchTask
    dsimp only
    split <;> rfl
  unfold State.switchEvents
  simp only [Timeline.run_append, Timeline.run_cons, Timeline.run_nil]
  refine hput.setOwner ?_ (hclock.trans hpick.clockTask) (fun q => ?_) (fun q hq => ?_) ?_ fun _ => ?_
  · rw [howner]
    exact last_updateEvents _ s
  · rw [hse]
    exact hpick.sumExecRuntime q
  · -- the interval of the next task starts now, if it is a WRR task
    unfold State.wrrCurr at hq
    split at hq
    · next hclass =>
      obtain rfl := Option.some.inj hq
      rw [htask] at hclass
      rw [hse]
      refine (hpick.execStart _ (congrArg some hcurr.symm) ?_).resolve_left fun heq => ?_
      · rwa [hquiet.task]
      · -- the idle task is not of the WRR class
        rw [heq, hquiet.idle] at hclass
        exact hidle hclass
    · cases hq
  · rw [hlive', hquiet.live]
  · rw [hquiet.live]
    exact hlive

/-- `__schedule` charges the last task and starts an interval of the next one. -/
theorem schedule (h : Accounted clock s tl) (hidle : (s.task s.idle).schedClass ≠ .wrr)
    (hlive : (s.schedule cfg env).curr ∈ s.live) :
    Accounted clock (s.schedule cfg env) (tl.run (s.scheduleEvents cfg env)) := by
  have hframe := s.deactivatePrev_frame cfg env
  unfold State.schedule at hlive
  unfold State.schedule State.scheduleEvents
  rw [Timeline.run_append]
  refine (h.deactivatePrev cfg env).switchTask env ?_ ?_
  · rw [hframe.idle, ← (s.schedule_spec cfg env).1, s.schedule_task_eq cfg env]
    exact hidle
  · rw [hframe.live]
    exact hlive

/-! ### Operations -/

/-- `scheduler_tick` charges the running task. -/
theorem schedulerTick (h : Accounted clock s tl) :
    Accounted clock (s.schedulerTick cfg env)
      (tl.run (s.clockEvents (env.clockDelta 0) ++ s.updateEvents s.curr)) := by
  have hclock := h.updateRqClock (env.clockDelta 0)
  have hquiet := s.updateRqClock_quiet (env.clockDelta 0)
  unfold State.schedulerTick State.taskTick State.updateEvents
  rw [Timeline.run_append, ← hquiet.task, ← hquiet.curr]
  dsimp only
  generalize s.updateRqClock (env.clockDelta 0) = s₁ at hclock
  split
  · next hclass =>
    rw [if_pos hclass]
    exact hclock.updateCurrWrr.of_timeless (s₁.taskTickWrr_timeless cfg env.tvNsec)
  all_goals
    next hclass =>
      rw [if_neg (by simp [hclass])]
      exact hclock.of_timeless ⟨rfl, rfl, rfl, rfl, rfl⟩

/-- The locked part of `__sched_setscheduler` charges a running target. -/
theorem setschedulerCommit (h : Accounted clock s tl) (p : TaskPtr) (req : Request) (prio : ℤ)
    (topWaiter : Option ℤ) :
    Accounted clock (s.setschedulerCommit cfg env p req prio topWaiter)
      (tl.run (s.changeEvents env p (decide (s.curr = p)) fun t =>
        { t with schedResetOnFork := req.resetOnFork }.setscheduler req.policy prio topWaiter)) := by
  unfold State.setschedulerCommit
  exact (h.changeQueued cfg env 0 (.inl rfl)).of_timeless (State.checkClassChanged_timeless env _ p _ _)

/-- So does the whole call, when it is accepted. -/
theorem schedSetscheduler (h : Accounted clock s tl) (p : TaskPtr) (policy prio : ℤ) (user : Bool)
    (c : Caller) (topWaiter : Option ℤ) :
    Accounted clock (s.schedSetscheduler cfg env p policy prio user c topWaiter).1
      (tl.run (s.setschedulerEvents env p policy prio user c topWaiter)) := by
  unfold State.setschedulerEvents
  split
  · next hreq =>
    rw [State.schedSetscheduler_of_no_request cfg env topWaiter hreq]
    exact h
  · next req hreq =>
    rw [State.schedSetscheduler_of_request cfg env topWaiter hreq]
    exact h.setschedulerCommit cfg env p req prio topWaiter

/-- A new stop task and the old one are not running when their classes are set. -/
theorem schedSetStopTask (h : Accounted clock s tl) {stop : Option TaskPtr} (c : Caller)
    (topWaiter : Option ℤ) (hnew : ∀ p, stop = some p → p ≠ s.curr)
    (hold : ∀ p, s.stop = some p → p ≠ s.curr) :
    Accounted clock (s.schedSetStopTask cfg env stop c topWaiter)
      (tl.run (stop.elim []
        (s.setschedulerEvents env · Policy.fifo.toNat (maxRtPrio - 1) false c topWaiter))) := by
  -- only the policy change of the new stop task takes time
  have hbecome : Accounted clock (stop.elim s (s.becomeStop cfg env · c topWaiter))
      (tl.run (stop.elim []
        (s.setschedulerEvents env · Policy.fifo.toNat (maxRtPrio - 1) false c topWaiter))) ∧
      (stop.elim s (s.becomeStop cfg env · c topWaiter)).curr = s.curr := by
    cases stop with
    | none => exact ⟨h, rfl⟩
    | some p =>
      have hframe := s.schedSetscheduler_frame cfg env p Policy.fifo.toNat (maxRtPrio - 1) false c
        topWaiter
      refine ⟨?_, (s.becomeStop_frame cfg env p c topWaiter).curr⟩
      have hset := h.schedSetscheduler cfg env p Policy.fifo.toNat (maxRtPrio - 1)
        false c topWaiter
      show Accounted clock (s.becomeStop cfg env p c topWaiter) _
      unfold State.becomeStop
      exact hset.of_timeless
        (.modifyTask _ p fun hp => absurd (hp.trans hframe.curr) (hnew p rfl))
  obtain ⟨hbecome, hcurr⟩ := hbecome
  unfold State.schedSetStopTask
  dsimp only
  generalize stop.elim s (s.becomeStop cfg env · c topWaiter) = s₁ at hbecome hcurr
  have hstop : Accounted clock { s₁ with stop := stop } _ :=
    hbecome.of_timeless ⟨rfl, rfl, rfl, rfl, rfl⟩
  cases hs : s.stop with
  | none => exact hstop
  | some q =>
    exact hstop.of_timeless (.modifyTask _ q fun hq => absurd (hq.trans hcurr) (hold q hs))

/-- A child starts with an empty account. -/
theorem schedFork (h : Accounted clock s tl) {child : TaskPtr} (hchild : child ∉ s.live)
    (mm : Bool) : Accounted clock (s.schedFork env child mm) tl := by
  intro hnow
  obtain ⟨hclock, howner, hexec, hsum, hordered, hsettled, hcurr, hzero⟩ := h hnow
  have hne (q : TaskPtr) (hq : q ∈ s.live) : q ≠ child := by rintro rfl; exact hchild hq
  have hwrr : (s.schedFork env child mm).wrrCurr = s.wrrCurr := by
    simp [State.wrrCurr, State.schedFork, State.reschedCurr, State.setNeedResched, State.setTask,
      hne _ hcurr]
  refine ⟨hclock, howner.trans hwrr.symm, fun p hp => ?_, fun p => ?_, hordered, hsettled, ?_,
    fun p hp => ?_⟩
  · rw [hwrr] at hp
    have hp' : p ≠ child := by
      unfold State.wrrCurr at hp
      split at hp
      · rw [← Option.some.inj hp]
        exact hne _ hcurr
      · cases hp
    rw [← hexec p hp]
    simp [State.schedFork, State.reschedCurr, State.setNeedResched, State.setTask, hp']
  · by_cases hp : p = child
    · rw [hp, hzero child hchild]
      simp [State.schedFork, State.reschedCurr, State.setNeedResched, State.setTask]
    · rw [← hsum p]
      simp [State.schedFork, State.reschedCurr, State.setNeedResched, State.setTask, hp]
  · exact Finset.mem_insert_of_mem hcurr
  · exact hzero p fun hp' => hp (Finset.mem_insert_of_mem hp')

/-- Every operation keeps the accounts right. -/
theorem next {op : Op} (hinv : Inv cfg s) (hop : s.Enabled rule op env)
    (h : Accounted clock s tl) :
    Accounted clock (s.next cfg op env) (tl.run (s.events cfg op env)) := by
  have hcurr_live : (s.next cfg op env).curr ∈ (s.next cfg op env).live :=
    (hinv.next hop).curr_live
  -- a task that is off is not the running one
  have hoff (q : TaskPtr) (hq : s.Target q) (hon : (s.task q).onRq = false) : q ≠ s.curr := by
    rintro rfl
    rcases hinv.curr_onRq with hc | hc
    · exact hq.2 hc
    · rw [hon] at hc
      cases hc
  obtain ⟨hworker, henabled⟩ := hop
  cases op with
  | schedFork child mm => exact h.schedFork env henabled.1 mm
  | wakeUpNewTask p =>
    -- the weight is set before the clock moves
    have hset := h.of_timeless (s.wrrSetWeight_timeless cfg p)
    have hskip : (s.wrrSetWeight cfg p).skipClockUpdate = s.skipClockUpdate := by
      unfold State.wrrSetWeight State.wrrSetGroupWeight
      dsimp only
      split_ifs <;> rfl
    have henq := hset.enqueueTask cfg env p 0 0
    simp only [State.clockEvents, hskip] at henq
    unfold State.next State.wakeUpNewTask State.events
    exact (henq.of_timeless (.modifyTask _ p fun _ => rfl)).of_timeless
      (State.checkPreemptCurr_timeless env _ p)
  | setCurrentState state =>
    unfold State.next
    exact h.of_timeless (.modifyTask s s.curr fun _ => rfl)
  | schedule =>
    refine h.schedule cfg env hinv.idle_class ?_
    rwa [State.next, (s.schedule_spec cfg env).2.2.2.2.1] at hcurr_live
  | schedulerTick => exact h.schedulerTick cfg env
  | schedYield =>
    -- the yield moves the queue only; then `__schedule` does the accounting
    have hframe := s.classYieldTask_frame
    refine (h.of_timeless s.classYieldTask_timeless).schedule cfg env ?_ ?_
    · rw [hframe.idle, s.classYieldTask_task]
      exact hinv.idle_class
    · rwa [State.next, State.schedYield, (s.classYieldTask.schedule_spec cfg env).2.2.2.2.1]
        at hcurr_live
  | tryToWakeUp p state => exact h.wakeUp cfg env p state 0
  | rtMutexSetprio p prio =>
    have hbug : Accounted clock (s.bugOn (decide (prio < 0 ∨ prio > maxPrio))) tl :=
      h.of_timeless ⟨rfl, rfl, rfl, rfl, rfl⟩
    unfold State.next State.rtMutexSetprio State.events
    dsimp only
    split
    · exact hbug
    · exact (hbug.changeQueued cfg env _ (.inl rfl)).of_timeless
        (State.checkClassChanged_timeless env _ p _ _)
  | setUserNice p nice =>
    unfold State.next State.setUserNice State.events
    dsimp only
    split
    · exact h
    · split
      · exact h.of_timeless (.modifyTask s p fun _ => rfl)
      · -- a running task keeps its class, and stays on the CPU
        have hchange : Accounted clock
            (s.changeQueued cfg env p false 0 fun t =>
              { t with staticPrio := niceToPrio nice }.effectivePrio) _ :=
          h.changeQueued cfg env 0 (.inr ⟨rfl, by rw [TaskStruct.effectivePrio_eq]⟩)
        split
        · exact hchange.of_timeless (State.reschedCurr_timeless _ true)
        · exact hchange
  | schedSetscheduler p policy prio user c topWaiter =>
    exact h.schedSetscheduler cfg env p policy prio user c topWaiter
  | schedMoveTask p tg => exact h.changeQueued cfg env 0 (.inl rfl)
  | schedSetStopTask stop c topWaiter =>
    refine h.schedSetStopTask cfg env c topWaiter (fun p hp => ?_) fun p hp => ?_
    · exact hoff p (henabled.1 p hp).1 (henabled.1 p hp).2.2.1
    · have hstop := hinv.stop_task p hp
      exact hoff p ⟨hstop.1, hstop.2.1⟩ (henabled.2 p hp)
  | initIdleBootupTask =>
    refine h.of_timeless ⟨rfl, rfl, rfl, rfl, ?_⟩
    by_cases hcurr : s.curr = s.idle
    · -- neither class is WRR
      have hclass := hinv.idle_class
      rw [State.next, State.initIdleBootupTask]
      simp [State.wrrCurr, State.modifyTask, State.setTask, hcurr, hclass]
    · simp [State.wrrCurr, State.next, State.initIdleBootupTask, State.modifyTask, State.setTask,
        hcurr]
  | setGroupPath tg group => exact h.of_timeless ⟨rfl, rfl, rfl, rfl, rfl⟩
  | reschedTask => exact h.of_timeless (s.reschedCurr_timeless true)

/-- The accounts of every run agree with its timeline. -/
theorem run {h : List (State × (Op × Env))} (hrun : (system cfg rule).Run h s) :
    Accounted (bootState h s).clockTask s (timeline cfg h) := by
  induction hrun with
  | init h0 =>
    obtain ⟨idle, tg, group, clock, rfl⟩ := h0
    refine fun _ => ⟨?_, rfl, fun p hp => ?_, fun _ => rfl, .empty, ?_, ?_, fun _ _ => rfl⟩
    · simp [bootState, timeline, Timeline.empty]
    · cases hp
    · intro i hi
      cases hi
    · exact Finset.mem_singleton_self idle
  | step hr hen ih => exact ih.next cfg _ (reachable_inv hr.reachable) hen

end Accounted

/-! ## Charges -/

/-- WRR run time is charged exactly once: in a run of less than `2 ^ 63` nanoseconds, every task has
been charged the time from the start to the last update, summed over the intervals in which it was
running in the WRR class, and nothing was outstanding when such an interval ended. -/
theorem run_time_charged_once (cfg : Config) (rule : Rule) {h : List (State × (Op × Env))}
    {s : State} (hrun : (system cfg rule).Run h s) (hnow : (timeline cfg h).now < 2 ^ 63) :
    s.clockTask = (bootState h s).clockTask + UInt64.ofNat (timeline cfg h).now ∧
      (timeline cfg h).owner = s.wrrCurr ∧
      (∀ p, (s.se p).sumExecRuntime.toNat = (timeline cfg h).total p) ∧
      ∀ i ∈ (timeline cfg h).closed, i.last = i.stop := by
  have haccounts := Accounted.run cfg hrun hnow
  refine ⟨haccounts.clockTask, haccounts.owner, fun p => ?_, haccounts.settled⟩
  have hle := Timeline.total_le_now haccounts.ordered p
  rw [haccounts.sumExecRuntime, UInt64.toNat_ofNat', Nat.mod_eq_of_lt (by omega)]

namespace Small

/-- The clock advances by `delta` at each update. -/
def clocked (delta : UInt64) (e : Env) : Env :=
  { e with clockDelta := fun _ => delta }

/-- A task becomes WRR, is picked, and runs for 1000 ns up to a tick. -/
def ticked : List (State × (Op × Env)) :=
  [(runA, (.schedulerTick, clocked 1000 (env [] 72))),
    (setWrr (start [taskA]) taskA 0, (.schedule, env [] 72)),
    (start [taskA], (.schedSetscheduler taskA Policy.wrr.toNat 0 true user none, env [] 0)),
    (boot.next cfg (.schedFork taskA true) (env [] 0), (.wakeUpNewTask taskA, env [] 0)),
    (boot, (.schedFork taskA true, env [] 0))]

/-- One tick after task A was picked. -/
theorem ticked_run : (system cfg .any).Run ticked
    (runA.next cfg .schedulerTick (clocked 1000 (env [] 72))) := by
  have hboot : (system cfg .any).Run [] boot := .init ⟨idle, 0, group, 0, rfl⟩
  let forked := boot.next cfg (.schedFork taskA true) (env [] 0)
  have hfork : boot.Enabled .any (.schedFork taskA true) (env [] 0) :=
    ⟨no_worker _ _ _, by decide, by decide⟩
  have hwake : forked.Enabled .any (.wakeUpNewTask taskA) (env [] 0) :=
    ⟨no_worker _ _ _, ⟨by decide, by decide⟩, by decide⟩
  have hset : (start [taskA]).Enabled .any
      (.schedSetscheduler taskA Policy.wrr.toNat 0 true user none) (env [] 0) :=
    ⟨no_worker _ _ _, ⟨by decide, by decide⟩, trivial⟩
  have hpick : (setWrr (start [taskA]) taskA 0).Enabled .any .schedule (env [] 72) :=
    ⟨no_worker _ _ _, trivial⟩
  have htick : runA.Enabled .any .schedulerTick (clocked 1000 (env [] 72)) :=
    ⟨no_worker _ [] 72, trivial⟩
  exact run_next (run_next (run_next (run_next (run_next hboot hfork) hwake) hset) hpick) htick

end Small

/-- A thousand nanoseconds of task A. -/
theorem run_time_charged_once_ticked :
    (timeline Small.cfg Small.ticked).total Small.taskA = 1000 ∧
      ∀ p, ((Small.runA.next Small.cfg .schedulerTick
        (Small.clocked 1000 (Small.env [] 72))).se p).sumExecRuntime.toNat =
          (timeline Small.cfg Small.ticked).total p :=
  ⟨by decide +kernel,
    (run_time_charged_once Small.cfg .any Small.ticked_run (by decide +kernel)).2.2.1⟩

end WrrSched
