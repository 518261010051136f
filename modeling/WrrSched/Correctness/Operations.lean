import WrrSched.Correctness.Queue

/-!
# The queue under the operations of the core

Each operation keeps `QueueInv` for the `on_rq` flags, also the first half of `__schedule` alone,
after which the classes are asked for the next task.
-/

namespace WrrSched

/-- `wrr_set_weight` does not look at the run queue. -/
theorem State.wrrSetWeight_rq (cfg : Config) (s : State) (p : TaskPtr) :
    (s.wrrSetWeight cfg p).rq = s.rq := by
  have hgroup : (s.wrrSetGroupWeight p).rq = s.rq := by
    unfold wrrSetGroupWeight
    split <;> rfl
  unfold wrrSetWeight
  dsimp only
  split <;> exact hgroup

namespace QueueInv

variable {cfg : Config} {env : Env} {s : State} {p : TaskPtr}

/-- Steps that leave queues and tasks alone keep the invariant. -/
theorem of_quiet_onRq {s' : State} (h : QueueInv s s.onRq) (hq : Quiet s s') :
    QueueInv s' s'.onRq := by
  have honRq : s'.onRq = s.onRq := by
    unfold State.onRq
    rw [hq.task]
  rw [honRq]
  exact h.of_quiet hq

/-! ## Wake-up -/

variable (cfg env) in
/-- `ttwu_activate` queues a task that is not queued. -/
theorem ttwuActivate (h : QueueInv s s.onRq) (hon : (s.task p).onRq = false) (hp : p ∈ s.live)
    (hidle : (s.task p).schedClass ≠ .idle) (hweight : (s.task p).wrr.weight.toNat ≤ maxWeight)
    (n : ℕ) : QueueInv (s.ttwuActivate cfg env p n) (s.ttwuActivate cfg env p n).onRq := by
  unfold State.ttwuActivate
  exact h.activate cfg env hon hp hidle hweight enqueueWakeup n (fun _ => rfl) (fun _ => rfl)
    fun _ => rfl

variable (env) in
/-- `ttwu_do_wakeup` sets the state of the task and may reschedule. -/
theorem ttwuDoWakeup (h : QueueInv s s.onRq) (p : TaskPtr) :
    QueueInv (s.ttwuDoWakeup env p) (s.ttwuDoWakeup env p).onRq := by
  unfold State.ttwuDoWakeup
  exact (h.of_quiet_onRq (s.checkPreemptCurr_quiet env p)).modify_fields rfl rfl rfl

variable (cfg env) in
/-- A wake-up queues the task unless it is queued already. -/
theorem wakeUp (h : QueueInv s s.onRq) (hp : p ∈ s.live) (hidle : (s.task p).schedClass ≠ .idle)
    (hweight : (s.task p).wrr.weight.toNat ≤ maxWeight) (state n : ℕ) :
    QueueInv (s.wakeUp cfg env p state n) (s.wakeUp cfg env p state n).onRq := by
  unfold State.wakeUp
  split_ifs with hstate hon
  · exact h
  · exact h.ttwuDoWakeup env p
  · exact (h.ttwuActivate cfg env (by simpa using hon) hp hidle hweight n).ttwuDoWakeup env p

variable (cfg env) in
/-- A worker is woken up in the same way. -/
theorem tryToWakeUpLocal (h : QueueInv s s.onRq) (hp : p ∈ s.live)
    (hidle : (s.task p).schedClass ≠ .idle) (hweight : (s.task p).wrr.weight.toNat ≤ maxWeight)
    (n : ℕ) :
    QueueInv (s.tryToWakeUpLocal cfg env p n) (s.tryToWakeUpLocal cfg env p n).onRq := by
  rw [State.tryToWakeUpLocal_eq]
  split
  · exact h
  · exact h.wakeUp cfg env hp hidle hweight taskNormal n

variable (cfg env) in
/-- `wake_up_new_task` gives the weight first and queues the task then. -/
theorem wakeUpNewTask (h : QueueInv s s.onRq) (hon : (s.task p).onRq = false) (hp : p ∈ s.live)
    (hidle : (s.task p).schedClass ≠ .idle)
    (hweight : (s.task p).wrr.weight.toNat ≤ maxWeight) :
    QueueInv (s.wakeUpNewTask cfg env p) (s.wakeUpNewTask cfg env p).onRq := by
  have hf := s.wrrSetWeight_frame cfg p
  have ht := s.wrrSetWeight_task cfg p
  have htp : (s.wrrSetWeight cfg p).task p = (s.task p).wrrSetWeight cfg (s.wrrIfFg p).1 := by
    rw [ht, Function.update_self]
  have honRq : (s.wrrSetWeight cfg p).onRq = s.onRq := by
    funext q
    by_cases hq : q = p
    · rw [State.onRq, hq, htp, TaskStruct.wrrSetWeight_eq]
      rfl
    · simp [State.onRq, ht, hq]
  -- `wrr_set_weight` stores a weight, but into a task that is not queued yet
  have hset : QueueInv (s.wrrSetWeight cfg p) (s.wrrSetWeight cfg p).onRq := by
    rw [honRq]
    refine h.congr (s.wrrSetWeight_rq cfg p) hf.live fun q hq => ?_
    have hne : q ≠ p := by rintro rfl; simp [State.onRq, hon] at hq
    rw [ht, Function.update_of_ne hne]
    exact ⟨rfl, rfl⟩
  refine of_quiet_onRq ?_ (State.checkPreemptCurr_quiet env _ p)
  refine hset.activate cfg env ?_ (by rw [hf.live]; exact hp) ?_ ?_ 0 0 (fun _ => rfl)
    (fun _ => rfl) fun _ => rfl
  · rw [htp, TaskStruct.wrrSetWeight_eq]
    exact hon
  · rw [htp, TaskStruct.wrrSetWeight_eq]
    exact hidle
  · rw [htp]
    exact TaskStruct.wrrSetWeight_weight_le cfg _ hweight

/-! ## Schedule and tick -/

variable (cfg env) in
/-- The first half of `__schedule`. -/
theorem deactivatePrev (h : QueueInv s s.onRq)
    (hcurr : s.sleeps env = true →
      (s.task s.curr).onRq = true ∧ (s.task s.curr).schedClass ≠ .idle)
    (hworker : ∀ w, env.toWakeup = some w → w ∈ s.live ∧ (s.task w).schedClass ≠ .idle ∧
      (s.task w).wrr.weight.toNat ≤ maxWeight) :
    QueueInv (s.deactivatePrev cfg env) (s.deactivatePrev cfg env).onRq := by
  cases hs : s.sleeps env with
  | true =>
    have hparked : QueueInv (s.parked env) (s.parked env).onRq :=
      h.deactivate env (hcurr hs).1 (hcurr hs).2 0
    rw [State.deactivatePrev_of_sleeps cfg env hs]
    split
    · next w hw =>
      obtain ⟨hlive, hidle, hweight⟩ := hworker w hw
      -- parking only clears `on_rq`, so what the wake-up needs to know of the worker still holds
      have hfields : ((s.parked env).task w).schedClass = (s.task w).schedClass ∧
          ((s.parked env).task w).wrr = (s.task w).wrr := by
        rw [State.parked_task]
        by_cases hwc : w = s.curr
        · rw [hwc, Function.update_self]
          exact ⟨rfl, rfl⟩
        · rw [Function.update_of_ne hwc]
          exact ⟨rfl, rfl⟩
      refine hparked.tryToWakeUpLocal cfg env ?_ ?_ ?_ 1
      · rw [(s.parked_frame env).live]
        exact hlive
      · rw [hfields.1]
        exact hidle
      · rw [hfields.2]
        exact hweight
    · exact hparked
  | false =>
    rcases State.deactivatePrev_of_not_sleeps cfg env hs with hd | hd
    · rw [hd]
      exact h
    · rw [hd]
      exact h.modify_fields rfl rfl rfl

/-- The state in which the classes are asked. -/
theorem pickState (h : QueueInv (s.deactivatePrev cfg env) (s.deactivatePrev cfg env).onRq) :
    QueueInv (s.pickState cfg env) (s.pickState cfg env).onRq :=
  h.of_quiet_onRq (State.putPrevTask_quiet env _ _ 2)

/-- Requeueing a queued task at the tail, by an expired slice or a yield. -/
theorem requeueTaskWrr (h : QueueInv s s.onRq) (hon : (s.task p).onRq = true)
    (hwrr : (s.task p).schedClass = .wrr) :
    QueueInv (s.requeueTaskWrr p false) (s.requeueTaskWrr p false).onRq :=
  h.perm (listMoveTail_perm_of_mem ((h.mem_iff p).mpr ⟨hon, hwrr⟩))

/-- A WRR task that yields stays in the queue. -/
theorem classYieldTask (h : QueueInv s s.onRq) (hon : (s.task s.curr).onRq = true) :
    QueueInv s.classYieldTask s.classYieldTask.onRq := by
  unfold State.classYieldTask
  split
  · next hwrr => exact h.requeueTaskWrr hon hwrr
  · exact h
  · exact h
  · exact h.of_quiet_onRq (s.bugOn_quiet true)
  · exact h.of_quiet_onRq (s.bugOn_quiet true)

/-- The invariant does not look at slices. -/
theorem setTimeSlice (h : QueueInv s s.onRq) (n : UInt32) :
    QueueInv (s.setTimeSlice p n) (s.setTimeSlice p n).onRq :=
  h.modify_fields rfl rfl rfl

/-- A tick of the running WRR task refills its slice or moves it to the tail, if at all. -/
theorem taskTickWrr (h : QueueInv s s.onRq) (hon : (s.task s.curr).onRq = true)
    (hwrr : (s.task s.curr).schedClass = .wrr) (tvNsec : ℕ) :
    QueueInv (s.taskTickWrr cfg s.curr tvNsec) (s.taskTickWrr cfg s.curr tvNsec).onRq := by
  have hcharged := h.of_quiet_onRq s.updateCurrWrr_quiet
  rcases Nat.lt_or_ge 1 (s.task s.curr).wrr.timeSlice.toNat with hslice | hslice
  · rw [State.taskTickWrr_of_one_lt cfg tvNsec hslice]
    exact hcharged.setTimeSlice _
  · have hrefilled : QueueInv (s.refilled cfg s.curr) (s.refilled cfg s.curr).onRq :=
      (hcharged.of_quiet_onRq (State.bugOn_quiet _ _)).setTimeSlice _
    rw [State.taskTickWrr_of_le_one cfg tvNsec hslice]
    split
    · have hrequeued := hrefilled.requeueTaskWrr (p := s.curr)
        (by rw [State.refilled_task, Function.update_self]; exact hon)
        (by rw [State.refilled_task, Function.update_self]; exact hwrr)
      exact hrequeued.congr rfl rfl fun _ _ => ⟨rfl, rfl⟩
    · exact hrefilled

variable (cfg env) in
/-- `scheduler_tick` calls the hook of the class of the running task. -/
theorem schedulerTick (h : QueueInv s s.onRq)
    (hcurr : (s.task s.curr).schedClass = .wrr → (s.task s.curr).onRq = true) :
    QueueInv (s.schedulerTick cfg env) (s.schedulerTick cfg env).onRq := by
  have hq := s.updateRqClock_quiet (env.clockDelta 0)
  have hclock := h.of_quiet_onRq hq
  unfold State.schedulerTick State.taskTick
  rw [← hq.task, ← hq.curr] at hcurr
  dsimp only
  generalize s.updateRqClock (env.clockDelta 0) = s at hcurr hclock
  split
  · next hwrr => exact hclock.taskTickWrr (hcurr hwrr) hwrr env.tvNsec
  · exact (hclock.of_quiet_onRq (s.updateCurrRt_quiet env)).congr rfl rfl fun _ _ => ⟨rfl, rfl⟩
  · exact hclock.of_quiet_onRq (s.reschedCurr_quiet _)
  · exact hclock.of_quiet_onRq (s.reschedCurr_quiet _)
  · exact hclock

/-! ## Priorities and policies -/

variable (cfg env) in
/-- `rt_mutex_setprio` takes the task off, changes it and queues it again. -/
theorem rtMutexSetprio (h : QueueInv s s.onRq) (hp : p ∈ s.live)
    (hidle : (s.task p).schedClass ≠ .idle) (hweight : (s.task p).wrr.weight.toNat ≤ maxWeight)
    (prio : ℤ) :
    QueueInv (s.rtMutexSetprio cfg env p prio) (s.rtMutexSetprio cfg env p prio).onRq := by
  have hbug := h.of_quiet_onRq (s.bugOn_quiet (decide (prio < 0 ∨ prio > maxPrio)))
  unfold State.rtMutexSetprio
  dsimp only
  split
  · exact hbug
  · refine of_quiet_onRq ?_ (State.checkClassChanged_quiet env _ p _ _)
    exact hbug.changeQueued cfg env hp hidle (·.boost prio) rfl
      (TaskStruct.setClass_ne_idle _ prio) hweight _ _

variable (cfg env) in
/-- So does `set_user_nice`, unless the nice value stays or does not count. -/
theorem setUserNice (h : QueueInv s s.onRq) (hp : p ∈ s.live)
    (hidle : (s.task p).schedClass ≠ .idle) (hweight : (s.task p).wrr.weight.toNat ≤ maxWeight)
    (nice : ℤ) :
    QueueInv (s.setUserNice cfg env p nice) (s.setUserNice cfg env p nice).onRq := by
  unfold State.setUserNice
  dsimp only
  split
  · exact h
  · split
    · exact h.modify_fields rfl rfl rfl
    · have hchanged := h.changeQueued cfg env hp hidle
        (fun t => { t with staticPrio := niceToPrio nice }.effectivePrio)
        (by rw [TaskStruct.effectivePrio_eq]) (by rw [TaskStruct.effectivePrio_eq]; exact hidle)
        (by rw [TaskStruct.effectivePrio_eq]; exact hweight) false 0
      split
      · exact hchanged.of_quiet_onRq (State.reschedCurr_quiet _ _)
      · exact hchanged

variable (cfg env) in
/-- So does `__setscheduler`, whose weight is in range because the priority is. -/
theorem setschedulerCommit (h : QueueInv s s.onRq) (hp : p ∈ s.live)
    (hidle : (s.task p).schedClass ≠ .idle) (hweight : (s.task p).wrr.weight.toNat ≤ maxWeight)
    (req : Request) {prio : ℤ} (hprio : prio ≤ maxRtPrio - 1) (topWaiter : Option ℤ) :
    QueueInv (s.setschedulerCommit cfg env p req prio topWaiter)
      (s.setschedulerCommit cfg env p req prio topWaiter).onRq := by
  unfold State.setschedulerCommit
  dsimp only
  refine of_quiet_onRq ?_ (State.checkClassChanged_quiet env _ p _ _)
  refine h.changeQueued cfg env hp hidle _ ?_ ?_ ?_ _ _
  · exact TaskStruct.setscheduler_onRq _ _ _ topWaiter
  · exact TaskStruct.setscheduler_class_ne_idle _ _ _ topWaiter
  · exact TaskStruct.setscheduler_weight_le _ _ topWaiter hprio hweight

variable (cfg env) in
/-- So does `sched_move_task`. -/
theorem schedMoveTask (h : QueueInv s s.onRq) (hp : p ∈ s.live)
    (hidle : (s.task p).schedClass ≠ .idle) (hweight : (s.task p).wrr.weight.toNat ≤ maxWeight)
    (tg : TaskGroupPtr) :
    QueueInv (s.schedMoveTask cfg env p tg) (s.schedMoveTask cfg env p tg).onRq := by
  unfold State.schedMoveTask
  exact h.changeQueued cfg env hp hidle _ rfl hidle hweight _ _

/-- A change of a task that is off its queue. -/
theorem modify_off (h : QueueInv s s.onRq) (f : TaskStruct → TaskStruct)
    (hoff : (s.task p).onRq = false) (hoff' : (f (s.task p)).onRq = false) :
    QueueInv (s.modifyTask p f) (s.modifyTask p f).onRq := by
  have hsame : (s.modifyTask p f).onRq = s.onRq := by
    funext q
    by_cases hq : q = p
    · simp [State.onRq, State.modifyTask_task, hq, hoff, hoff']
    · simp [State.onRq, State.modifyTask_task, hq]
  rw [hsame]
  exact h.modifyTask hoff f

variable (cfg env) in
/-- `__sched_setscheduler` commits a request that has passed every check, or does nothing. -/
theorem schedSetscheduler (h : QueueInv s s.onRq) (hp : p ∈ s.live)
    (hidle : (s.task p).schedClass ≠ .idle) (hweight : (s.task p).wrr.weight.toNat ≤ maxWeight)
    (policy prio : ℤ) (user : Bool) (c : Caller) (topWaiter : Option ℤ) :
    QueueInv (s.schedSetscheduler cfg env p policy prio user c topWaiter).1
      (s.schedSetscheduler cfg env p policy prio user c topWaiter).1.onRq := by
  rcases State.schedSetscheduler_cases cfg env s p policy prio user c topWaiter with
    hr | ⟨req, hvalid, -, -, hr⟩
  · rw [hr]
    exact h
  · rw [hr]
    exact h.setschedulerCommit cfg env hp hidle hweight req
      (checkPriority_eq_ok (validate_eq_ok hvalid).2).2.1 topWaiter

variable (cfg env) in
/-- `sched_set_stop_task` changes the class of tasks that are not queued. -/
theorem schedSetStopTask (h : QueueInv s s.onRq) (stop : Option TaskPtr) (c : Caller)
    (topWaiter : Option ℤ)
    (hnew : ∀ p, stop = some p → p ∈ s.live ∧ (s.task p).schedClass ≠ .idle ∧
      (s.task p).wrr.weight.toNat ≤ maxWeight ∧ (s.task p).onRq = false)
    (hold : ∀ p, s.stop = some p → (s.task p).onRq = false) :
    QueueInv (s.schedSetStopTask cfg env stop c topWaiter)
      (s.schedSetStopTask cfg env stop c topWaiter).onRq := by
  -- the new stop task has been through `sched_setscheduler` and is off its queue
  have hbecome : QueueInv (stop.elim s (s.becomeStop cfg env · c topWaiter))
        (stop.elim s (s.becomeStop cfg env · c topWaiter)).onRq ∧
      ∀ p, ((stop.elim s (s.becomeStop cfg env · c topWaiter)).task p).onRq = (s.task p).onRq := by
    cases stop with
    | none => exact ⟨h, fun _ => rfl⟩
    | some q =>
      obtain ⟨hlive, hidle, hweight, hoff⟩ := hnew q rfl
      have hset := h.schedSetscheduler cfg env hlive hidle hweight Policy.fifo.toNat
        (maxRtPrio - 1) false c topWaiter
      have hoff' := State.schedSetscheduler_onRq cfg env s q Policy.fifo.toNat (maxRtPrio - 1)
        false c topWaiter q
      rw [hoff] at hoff'
      exact ⟨hset.modify_off (fun t => { t with schedClass := .stop }) hoff' hoff',
        s.becomeStop_onRq cfg env q c topWaiter⟩
  obtain ⟨hqueue, honRq⟩ := hbecome
  unfold State.schedSetStopTask
  dsimp only
  generalize stop.elim s (s.becomeStop cfg env · c topWaiter) = s' at hqueue honRq
  have hstop : QueueInv { s' with stop := stop } { s' with stop := stop }.onRq :=
    hqueue.congr rfl rfl fun _ _ => ⟨rfl, rfl⟩
  cases hs : s.stop with
  | none => exact hstop
  | some q =>
    have hoff : (s'.task q).onRq = false := by rw [honRq, hold q hs]
    exact hstop.modify_off (fun t => { t with schedClass := .rt }) hoff hoff

end QueueInv

end WrrSched
