import WrrSched.Correctness.Invariant
import WrrSched.Lib.Stamps

/-!
# Insertion order

The functions `…QueueEvents` say where a call inserts tasks into the WRR list and removes tasks from
it, in the order of the source. The `stamps` of a run follow these events. The list is in the order
of the stamps in every state, and an operation neither moves nor changes tasks that are not among
its `targets`.
-/

namespace WrrSched

namespace State

variable (cfg : Config) (env : Env)

/-! ## Events -/

/-- `enqueue_task` for a task of the class `c`. -/
def insertion (c : SchedClass) (p : TaskPtr) (head : Bool) : List (QueueEvent TaskPtr) :=
  if c = .wrr then [.insert p head] else []

/-- `dequeue_task` for a task of the class `c`. -/
def removal (c : SchedClass) (p : TaskPtr) : List (QueueEvent TaskPtr) :=
  if c = .wrr then [.remove p] else []

/-- `changeQueued`: the task leaves the queue of its old class for that of its new one. -/
def changeQueueEvents (s : State) (p : TaskPtr) (head : Bool)
    (change : TaskStruct → TaskStruct) : List (QueueEvent TaskPtr) :=
  if (s.task p).onRq then
    removal (s.task p).schedClass p ++ insertion (change (s.task p)).schedClass p head
  else []

/-- `__sched_setscheduler`. -/
def setschedulerQueueEvents (s : State) (p : TaskPtr) (policy prio : ℤ) (user : Bool) (c : Caller)
    (topWaiter : Option ℤ) : List (QueueEvent TaskPtr) :=
  match s.setschedulerRequest p policy prio user c with
  | none => []
  | some req =>
    s.changeQueueEvents p false fun t =>
      { t with schedResetOnFork := req.resetOnFork }.setscheduler req.policy prio topWaiter

/-- The wake-up of a task, which is queued unless it still is. -/
def wakeQueueEvents (s : State) (p : TaskPtr) (state : ℕ) : List (QueueEvent TaskPtr) :=
  if (s.task p).state &&& state = 0 ∨ (s.task p).onRq then []
  else insertion (s.task p).schedClass p false

/-- `__schedule`: a sleep of the running task and the wake-up of a worker. -/
def scheduleQueueEvents (s : State) : List (QueueEvent TaskPtr) :=
  if s.sleeps env then
    removal (s.task s.curr).schedClass s.curr ++
      match env.toWakeup with
      | some p => if p = s.curr then [] else s.wakeQueueEvents p taskNormal
      | none => []
  else []

/-- `task_tick_wrr`, which requeues the running task when its slice is used up. -/
def tickQueueEvents (s : State) : List (QueueEvent TaskPtr) :=
  if (s.task s.curr).wrr.timeSlice.toNat ≤ 1 ∧
      (listPrev s.curr s.rq.active ≠ listNext s.curr s.rq.active ∨ wrrThrottled env.tvNsec) then
    insertion (s.task s.curr).schedClass s.curr false
  else []

/-- What an operation does to the WRR list. -/
def queueEvents (s : State) (op : Op) (env : Env) : List (QueueEvent TaskPtr) :=
  match op with
  | .wakeUpNewTask p => insertion (s.task p).schedClass p false
  | .schedule => s.scheduleQueueEvents env
  | .schedulerTick => s.tickQueueEvents env
  | .schedYield =>
    insertion (s.task s.curr).schedClass s.curr false ++ s.classYieldTask.scheduleQueueEvents env
  | .tryToWakeUp p state => s.wakeQueueEvents p state
  | .rtMutexSetprio p prio =>
    -- `ENQUEUE_HEAD` when the priority gets worse
    if p = s.idle then []
    else s.changeQueueEvents p (decide ((s.task p).prio < prio)) (·.boost prio)
  | .setUserNice p nice =>
    if (s.task p).nice = nice ∨ nice < -20 ∨ nice > 19 then []
    else if (s.task p).hasRtPolicy then []
    else s.changeQueueEvents p false fun t => { t with staticPrio := niceToPrio nice }.effectivePrio
  | .schedSetscheduler p policy prio user c topWaiter =>
    s.setschedulerQueueEvents p policy prio user c topWaiter
  | .schedMoveTask p tg => s.changeQueueEvents p false fun t => { t with schedTaskGroup := tg }
  | .schedSetStopTask stop c topWaiter =>
    stop.elim []
      (s.setschedulerQueueEvents · Policy.fifo.toNat (maxRtPrio - 1) false c topWaiter)
  | .schedFork _ _ | .setCurrentState _ | .initIdleBootupTask | .setGroupPath _ _
  | .reschedTask => []

/-- The tasks an operation is about: the running task for a tick and a yield; for `__schedule` the
running task if it goes to sleep, and the worker that is woken then. -/
def targets (s : State) (op : Op) (env : Env) : List TaskPtr :=
  match op with
  | .schedFork p _ | .wakeUpNewTask p | .tryToWakeUp p _ | .rtMutexSetprio p _ | .setUserNice p _
  | .schedSetscheduler p _ _ _ _ _ | .schedMoveTask p _ => [p]
  | .setCurrentState _ | .schedulerTick => [s.curr]
  | .schedule => if s.sleeps env then s.curr :: env.toWakeup.toList else []
  | .schedYield => s.curr :: if s.sleeps env then env.toWakeup.toList else []
  | .schedSetStopTask stop _ _ => stop.toList ++ s.stop.toList
  | .initIdleBootupTask => [s.idle]
  | .setGroupPath _ _ | .reschedTask => []

end State

/-- The stamps of a run, from boot on. -/
def stamps : List (State × (Op × Env)) → Stamps TaskPtr
  | [] => .empty
  | (s, (op, env)) :: h => (stamps h).run (s.queueEvents op env)

/-! ## The list follows the events -/

namespace State

variable (cfg : Config) (env : Env)

/-- An insertion moves the task to one end of the list. -/
theorem run_insertion (l : List TaskPtr) (c : SchedClass) (p : TaskPtr) (head : Bool) :
    QueueEvent.run l (insertion c p head) =
      if c = .wrr then if head then listMove p l else listMoveTail p l else l := by
  unfold insertion
  split
  · cases head <;> rfl
  · rfl

/-- A removal takes the task out of the list. -/
theorem run_removal (l : List TaskPtr) (c : SchedClass) (p : TaskPtr) :
    QueueEvent.run l (removal c p) = if c = .wrr then listDelInit p l else l := by
  unfold removal
  split <;> rfl

/-- The list after `enqueue_task`. -/
theorem enqueueTask_active (s : State) (p : TaskPtr) (flags n : ℕ) :
    (s.enqueueTask cfg env p flags n).rq.active =
      QueueEvent.run s.rq.active
        (insertion (s.task p).schedClass p (decide (flags &&& enqueueHead ≠ 0))) := by
  rw [run_insertion]
  split
  · next hclass => exact (enqueueTask_rq_wrr cfg env hclass flags n).1
  · next hclass => exact (enqueueTask_rq_other cfg env hclass flags n).1

/-- The list after `dequeue_task`. -/
theorem dequeueTask_active (s : State) (p : TaskPtr) (n : ℕ) :
    (s.dequeueTask env p n).rq.active =
      QueueEvent.run s.rq.active (removal (s.task p).schedClass p) := by
  rw [run_removal]
  split
  · next hclass => exact (dequeueTask_rq_wrr env hclass n).1
  · next hclass => exact (dequeueTask_rq_other env hclass n).1

/-- The list after a change of a task that is taken off and put back. -/
theorem changeQueued_active (s : State) (p : TaskPtr) (running : Bool) (flags : ℕ)
    (change : TaskStruct → TaskStruct) :
    (s.changeQueued cfg env p running flags change).rq.active =
      QueueEvent.run s.rq.active
        (s.changeQueueEvents p (decide (flags &&& enqueueHead ≠ 0)) change) := by
  have hchanged : (s.changed env p running change).rq.active =
      QueueEvent.run s.rq.active
        (if (s.task p).onRq then removal (s.task p).schedClass p else []) := by
    rw [changed_rq]
    split
    · exact s.dequeueTask_active env p 0
    · rfl
  rw [changeQueued_eq, changeQueueEvents]
  split
  · next hon =>
    rw [enqueueTask_active, changed_task, Function.update_self, hchanged, if_pos hon,
      QueueEvent.run_append]
  · next hon => rw [hchanged, if_neg hon]

/-- `check_class_changed` does not touch the list. -/
theorem checkClassChanged_active (s : State) (p : TaskPtr) (prevClass : SchedClass)
    (oldprio : ℤ) : (s.checkClassChanged env p prevClass oldprio).rq.active = s.rq.active :=
  congrArg RunQueue.active (s.checkClassChanged_quiet env p prevClass oldprio).rq

/-- The list after `__sched_setscheduler`. -/
theorem schedSetscheduler_active (s : State) (p : TaskPtr) (policy prio : ℤ) (user : Bool)
    (c : Caller) (topWaiter : Option ℤ) :
    (s.schedSetscheduler cfg env p policy prio user c topWaiter).1.rq.active =
      QueueEvent.run s.rq.active
        (s.setschedulerQueueEvents p policy prio user c topWaiter) := by
  unfold setschedulerQueueEvents
  split
  · next hreq => rw [schedSetscheduler_of_no_request cfg env topWaiter hreq, QueueEvent.run_nil]
  · next req hreq =>
    rw [schedSetscheduler_of_request cfg env topWaiter hreq]
    show (s.setschedulerCommit cfg env p req prio topWaiter).rq.active = _
    rw [setschedulerCommit, checkClassChanged_active]
    exact s.changeQueued_active cfg env p _ 0 _

/-- The list after `sched_set_stop_task`. -/
theorem schedSetStopTask_active (s : State) (stop : Option TaskPtr) (c : Caller)
    (topWaiter : Option ℤ) :
    (s.schedSetStopTask cfg env stop c topWaiter).rq.active =
      QueueEvent.run s.rq.active (stop.elim []
        (s.setschedulerQueueEvents · Policy.fifo.toNat (maxRtPrio - 1) false c topWaiter)) := by
  have hbecome : (stop.elim s (s.becomeStop cfg env · c topWaiter)).rq.active =
      QueueEvent.run s.rq.active (stop.elim []
        (s.setschedulerQueueEvents · Policy.fifo.toNat (maxRtPrio - 1) false c topWaiter)) := by
    cases stop with
    | none => rfl
    | some p => exact s.schedSetscheduler_active cfg env p _ _ false c topWaiter
  rw [← hbecome, schedSetStopTask]
  cases s.stop <;> rfl

/-- `ttwu_do_wakeup` does not touch the list. -/
theorem ttwuDoWakeup_active (s : State) (p : TaskPtr) :
    (s.ttwuDoWakeup env p).rq.active = s.rq.active :=
  congrArg RunQueue.active (s.checkPreemptCurr_quiet env p).rq

/-- The list after `ttwu_activate`. -/
theorem ttwuActivate_active (s : State) (p : TaskPtr) (n : ℕ) :
    (s.ttwuActivate cfg env p n).rq.active =
      QueueEvent.run s.rq.active (insertion (s.task p).schedClass p false) :=
  s.enqueueTask_active cfg env p enqueueWakeup n

/-- The list after `try_to_wake_up`. -/
theorem wakeUp_active (s : State) (p : TaskPtr) (state n : ℕ) :
    (s.wakeUp cfg env p state n).rq.active =
      QueueEvent.run s.rq.active (s.wakeQueueEvents p state) := by
  unfold wakeUp wakeQueueEvents
  split
  · next hstate => rw [if_pos (.inl hstate), QueueEvent.run_nil]
  · next hstate =>
    split
    · next hon => rw [if_pos (.inr hon), ttwuDoWakeup_active, QueueEvent.run_nil]
    · next hon =>
      rw [if_neg (by simp [hstate, hon]), ttwuDoWakeup_active, ttwuActivate_active]

/-- The list after the first half of `__schedule`, where a task may sleep and a worker wake up. -/
theorem deactivatePrev_active (s : State) :
    (s.deactivatePrev cfg env).rq.active =
      QueueEvent.run s.rq.active (s.scheduleQueueEvents env) := by
  unfold scheduleQueueEvents
  cases hs : s.sleeps env with
  | true =>
    have hparked : (s.parked env).rq.active =
        QueueEvent.run s.rq.active (removal (s.task s.curr).schedClass s.curr) :=
      s.dequeueTask_active env s.curr 0
    have hcurr := (s.parked_frame env).curr
    rw [deactivatePrev_of_sleeps cfg env hs, if_pos rfl, QueueEvent.run_append, ← hparked]
    cases env.toWakeup with
    | some w =>
      dsimp only
      by_cases hwc : w = s.curr
      · rw [if_pos hwc, QueueEvent.run_nil,
          tryToWakeUpLocal_of_curr cfg env (hwc.trans hcurr.symm)]
      · have htask : (s.parked env).task w = s.task w := by
          rw [parked_task, Function.update_of_ne hwc]
        rw [tryToWakeUpLocal_eq, if_neg (by rwa [hcurr]), wakeUp_active, if_neg hwc,
          wakeQueueEvents, wakeQueueEvents, htask]
    | none => rfl
  | false =>
    rw [if_neg (by simp), QueueEvent.run_nil]
    rcases deactivatePrev_of_not_sleeps cfg env hs with h | h <;> rw [h]
    rfl

/-- Picking and switching do not touch the list. -/
theorem schedule_active (s : State) :
    (s.schedule cfg env).rq.active = QueueEvent.run s.rq.active (s.scheduleQueueEvents env) := by
  rw [(s.schedule_spec cfg env).2.1, ← deactivatePrev_active cfg env s]
  exact congrArg RunQueue.active (putPrevTask_quiet env _ s.curr 2).rq

/-- The list after `sched_yield`. -/
theorem classYieldTask_active (s : State) :
    s.classYieldTask.rq.active =
      QueueEvent.run s.rq.active (insertion (s.task s.curr).schedClass s.curr false) := by
  rw [run_insertion]
  unfold classYieldTask
  split
  · next hclass =>
    rw [if_pos hclass]
    rfl
  all_goals next hclass => rw [if_neg (by simp [hclass])]; try rfl

/-- The list after `scheduler_tick`. -/
theorem schedulerTick_active (s : State) :
    (s.schedulerTick cfg env).rq.active =
      QueueEvent.run s.rq.active (s.tickQueueEvents env) := by
  have hq := s.updateRqClock_quiet (env.clockDelta 0)
  rw [tickQueueEvents, ← hq.task, ← hq.rq, ← hq.curr]
  unfold schedulerTick taskTick
  dsimp only
  generalize s.updateRqClock (env.clockDelta 0) = s
  split
  · next hclass =>
    rcases Nat.lt_or_ge 1 (s.task s.curr).wrr.timeSlice.toNat with hslice | hslice
    · rw [taskTickWrr_of_one_lt cfg env.tvNsec hslice, if_neg (by omega), QueueEvent.run_nil]
      exact congrArg RunQueue.active s.updateCurrWrr_quiet.rq
    · rw [taskTickWrr_of_le_one cfg env.tvNsec hslice]
      simp only [hslice, true_and]
      split
      · rw [run_insertion, if_pos hclass]
        exact congrArg (fun rq : RunQueue => listMoveTail s.curr rq.active)
          (s.refilled_rq cfg s.curr)
      · exact congrArg RunQueue.active (s.refilled_rq cfg s.curr)
  all_goals
    next hclass =>
      have hnil : insertion (s.task s.curr).schedClass s.curr false = [] :=
        if_neg (by simp [hclass])
      rw [hnil, ite_self]
      rfl

/-- Every operation does to the list what its events say. -/
theorem next_active (s : State) (op : Op) (env : Env) :
    (s.next cfg op env).rq.active = QueueEvent.run s.rq.active (s.queueEvents op env) := by
  cases op with
  | wakeUpNewTask p =>
    -- the class decides about the insertion, and the weight does not change it
    have hclass : ((s.wrrSetWeight cfg p).task p).schedClass = (s.task p).schedClass := by
      rw [wrrSetWeight_task, Function.update_self, TaskStruct.wrrSetWeight_eq]
    have henq := (s.wrrSetWeight cfg p).enqueueTask_active cfg env p 0 0
    rw [hclass, s.wrrSetWeight_rq] at henq
    exact (congrArg RunQueue.active (checkPreemptCurr_quiet env _ p).rq).trans henq
  | schedule => exact s.schedule_active cfg env
  | schedulerTick => exact s.schedulerTick_active cfg env
  | schedYield =>
    rw [queueEvents, QueueEvent.run_append, ← s.classYieldTask_active]
    exact s.classYieldTask.schedule_active cfg env
  | tryToWakeUp p state => exact s.wakeUp_active cfg env p state 0
  | rtMutexSetprio p prio =>
    unfold next rtMutexSetprio queueEvents
    dsimp only
    split
    · next hp =>
      rw [if_pos (show p = s.idle from hp)]
      rfl
    · next hp =>
      rw [if_neg (show p ≠ s.idle from hp), checkClassChanged_active, changeQueued_active]
      -- a task whose priority gets worse goes to the head
      have hhead : decide ((if (s.task p).prio < prio then enqueueHead else 0) &&& enqueueHead ≠ 0) =
          decide ((s.task p).prio < prio) := by
        split
        · next h => simp [h, enqueueHead]
        · next h => simp [h]
      rw [← hhead]
      rfl
  | setUserNice p nice =>
    unfold next setUserNice queueEvents
    dsimp only
    split
    · rfl
    · split
      · rfl
      · have hchange := s.changeQueued_active cfg env p false 0 fun t =>
          { t with staticPrio := niceToPrio nice }.effectivePrio
        split <;> exact hchange
  | schedSetscheduler p policy prio user c topWaiter =>
    exact s.schedSetscheduler_active cfg env p policy prio user c topWaiter
  | schedMoveTask p tg => exact s.changeQueued_active cfg env p _ 0 _
  | schedSetStopTask stop c topWaiter => exact s.schedSetStopTask_active cfg env stop c topWaiter
  | schedFork child mm => rfl
  | setCurrentState state => rfl
  | initIdleBootupTask => rfl
  | setGroupPath tg group => rfl
  | reschedTask => rfl

/-! ## Targets -/

/-- An insertion is about the task that is inserted. -/
theorem node_of_mem_insertion {c : SchedClass} {p : TaskPtr} {head : Bool}
    {e : QueueEvent TaskPtr} (he : e ∈ insertion c p head) : e.node = p := by
  unfold insertion at he
  split at he
  · rw [List.mem_singleton.mp he]
    rfl
  · cases he

/-- A removal is about the task that is removed. -/
theorem node_of_mem_removal {c : SchedClass} {p : TaskPtr} {e : QueueEvent TaskPtr}
    (he : e ∈ removal c p) : e.node = p := by
  unfold removal at he
  split at he
  · rw [List.mem_singleton.mp he]
    rfl
  · cases he

/-- A change of a task is about that task only. -/
theorem node_of_mem_changeQueueEvents {s : State} {p : TaskPtr} {head : Bool}
    {change : TaskStruct → TaskStruct} {e : QueueEvent TaskPtr}
    (he : e ∈ s.changeQueueEvents p head change) : e.node = p := by
  unfold changeQueueEvents at he
  split at he
  · rcases List.mem_append.mp he with he | he
    · exact node_of_mem_removal he
    · exact node_of_mem_insertion he
  · cases he

/-- `__sched_setscheduler` moves only the task it is called for. -/
theorem node_of_mem_setschedulerQueueEvents {s : State} {p : TaskPtr} {policy prio : ℤ}
    {user : Bool} {c : Caller} {topWaiter : Option ℤ} {e : QueueEvent TaskPtr}
    (he : e ∈ s.setschedulerQueueEvents p policy prio user c topWaiter) : e.node = p := by
  unfold setschedulerQueueEvents at he
  split at he
  · cases he
  · exact node_of_mem_changeQueueEvents he

/-- A wake-up moves only the task it is called for. -/
theorem node_of_mem_wakeQueueEvents {s : State} {p : TaskPtr} {state : ℕ}
    {e : QueueEvent TaskPtr} (he : e ∈ s.wakeQueueEvents p state) : e.node = p := by
  unfold wakeQueueEvents at he
  split at he
  · cases he
  · exact node_of_mem_insertion he

/-- `__schedule` moves only the task that sleeps and the worker that wakes up for it. -/
theorem node_of_mem_scheduleQueueEvents {s : State} {env : Env} {e : QueueEvent TaskPtr}
    (he : e ∈ s.scheduleQueueEvents env) :
    s.sleeps env = true ∧ (e.node = s.curr ∨ env.toWakeup = some e.node) := by
  unfold scheduleQueueEvents at he
  split at he
  · next hs =>
    refine ⟨hs, ?_⟩
    rcases List.mem_append.mp he with he | he
    · exact .inl (node_of_mem_removal he)
    · right
      split at he
      · next w hw =>
        split at he
        · cases he
        · rw [hw, node_of_mem_wakeQueueEvents he]
      · cases he
  · cases he

/-- The events of an operation are about its targets. -/
theorem node_mem_targets {s : State} {op : Op} {env : Env} {e : QueueEvent TaskPtr}
    (he : e ∈ s.queueEvents op env) : e.node ∈ s.targets op env := by
  unfold queueEvents at he
  cases op with
  | wakeUpNewTask p => exact List.mem_singleton.mpr (node_of_mem_insertion he)
  | schedule =>
    obtain ⟨hs, hnode⟩ := node_of_mem_scheduleQueueEvents he
    simp only [targets, if_pos hs, List.mem_cons, Option.mem_toList]
    exact hnode
  | schedulerTick =>
    dsimp only at he
    unfold tickQueueEvents at he
    split at he
    · exact List.mem_singleton.mpr (node_of_mem_insertion he)
    · cases he
  | schedYield =>
    have hyield := s.classYieldTask_frame
    -- the yield moves the running task, `__schedule` the two tasks it may put to sleep and wake up
    rcases List.mem_append.mp he with he | he
    · exact List.mem_cons.mpr (.inl (node_of_mem_insertion he))
    · obtain ⟨hs, hnode⟩ := node_of_mem_scheduleQueueEvents he
      rw [sleeps, s.classYieldTask_task, hyield.curr] at hs
      rw [hyield.curr] at hnode
      simp only [targets, sleeps, hs, if_true, List.mem_cons, Option.mem_toList]
      exact hnode
  | tryToWakeUp p state => exact List.mem_singleton.mpr (node_of_mem_wakeQueueEvents he)
  | rtMutexSetprio p prio =>
    dsimp only at he
    split at he
    · cases he
    · exact List.mem_singleton.mpr (node_of_mem_changeQueueEvents he)
  | setUserNice p nice =>
    dsimp only at he
    split_ifs at he
    · cases he
    · cases he
    · exact List.mem_singleton.mpr (node_of_mem_changeQueueEvents he)
  | schedSetscheduler p policy prio user c topWaiter =>
    exact List.mem_singleton.mpr (node_of_mem_setschedulerQueueEvents he)
  | schedMoveTask p tg => exact List.mem_singleton.mpr (node_of_mem_changeQueueEvents he)
  | schedSetStopTask stop c topWaiter =>
    cases stop with
    | none => cases he
    | some p =>
      exact List.mem_cons.mpr (.inl (node_of_mem_setschedulerQueueEvents he))
  | _ => cases he

/-- A task that is not the updated one. -/
theorem task_of_update {s s' : State} {p q : TaskPtr} {t : TaskStruct}
    (h : s'.task = Function.update s.task q t) (hp : p ∉ [q]) :
    s'.task p = { s.task p with state := (s'.task p).state } := by
  rw [h, Function.update_of_ne (List.ne_of_not_mem_cons hp)]

/-- A task that `__schedule` does not move keeps all but its state. -/
theorem schedule_task_of_notMem (s : State) {p : TaskPtr}
    (hp : p ∉ if s.sleeps env then s.curr :: env.toWakeup.toList else []) :
    (s.schedule cfg env).task p =
      { s.task p with state := ((s.schedule cfg env).task p).state } := by
  rw [(s.schedule_spec cfg env).1]
  by_cases hcurr : p = s.curr
  · cases hs : s.sleeps env with
    | true => simp [hs, hcurr] at hp
    | false =>
      rcases deactivatePrev_of_not_sleeps cfg env hs with h | h
      · rw [h]
      · rw [h, hcurr, modifyTask_task, Function.update_self]
  · have hworker : ¬(s.sleeps env = true ∧ env.toWakeup = some p) := by
      rintro ⟨hs, hw⟩
      simp [hs, hw] at hp
    rw [deactivatePrev_task_of_ne cfg env s hcurr, if_neg hworker]

/-- `sched_set_stop_task` changes only the old and the new stop task. -/
theorem schedSetStopTask_task_of_notMem (s : State) {stop : Option TaskPtr} (c : Caller)
    (topWaiter : Option ℤ) {p : TaskPtr} (hp : p ∉ stop.toList ++ s.stop.toList) :
    (s.schedSetStopTask cfg env stop c topWaiter).task p = s.task p := by
  rw [List.mem_append, not_or, Option.mem_toList, Option.mem_toList] at hp
  have hbecome : (stop.elim s (s.becomeStop cfg env · c topWaiter)).task p = s.task p := by
    cases stop with
    | none => rfl
    | some q =>
      apply becomeStop_task_of_ne
      rintro rfl
      exact hp.1 rfl
  rw [schedSetStopTask]
  split
  · exact hbecome
  · next q hq =>
    rw [modifyTask_task, Function.update_of_ne]
    · exact hbecome
    · rintro rfl
      exact hp.2 hq

/-- A task that is not a target of an operation keeps its fields, but `__schedule` sets the state of
the running task when a signal is pending. -/
theorem next_task_of_notMem (s : State) {op : Op} {env : Env} {p : TaskPtr}
    (hp : p ∉ s.targets op env) :
    (s.next cfg op env).task p =
      { s.task p with state := ((s.next cfg op env).task p).state } := by
  cases op with
  | schedFork child mm => exact task_of_update rfl hp
  | wakeUpNewTask q => exact task_of_update (s.wakeUpNewTask_task cfg env q) hp
  | setCurrentState state => exact task_of_update rfl hp
  | schedule => exact s.schedule_task_of_notMem cfg env hp
  | schedulerTick =>
    have htick := s.schedulerTick_task cfg env
    split at htick
    · exact task_of_update htick hp
    · rw [next, htick]
  | schedYield =>
    have hyield := s.classYieldTask_frame
    have htask := s.classYieldTask_task
    -- the yield does not change who sleeps
    have hnot : p ∉ if s.classYieldTask.sleeps env then
        s.classYieldTask.curr :: env.toWakeup.toList else [] := by
      rw [sleeps, htask, hyield.curr]
      rw [targets, List.mem_cons, not_or, sleeps] at hp
      split
      · next hs =>
        rw [if_pos hs] at hp
        rw [List.mem_cons, not_or]
        exact hp
      · exact List.not_mem_nil
    have hschedule := s.classYieldTask.schedule_task_of_notMem cfg env hnot
    rw [htask] at hschedule
    exact hschedule
  | tryToWakeUp q state => exact task_of_update (s.tryToWakeUp_task cfg env q state) hp
  | rtMutexSetprio q prio =>
    by_cases hq : q = s.idle
    · rw [next, rtMutexSetprio]
      dsimp only
      rw [if_pos (show q = (s.bugOn _).idle from hq)]
      rfl
    · exact task_of_update (s.rtMutexSetprio_task cfg env hq prio) hp
  | setUserNice q nice => exact task_of_update (s.setUserNice_task cfg env q nice) hp
  | schedSetscheduler q policy prio user c topWaiter =>
    rw [next, schedSetscheduler_task_of_ne policy prio user c topWaiter
      (List.ne_of_not_mem_cons hp)]
  | schedMoveTask q tg => exact task_of_update (s.schedMoveTask_task cfg env q tg) hp
  | schedSetStopTask stop c topWaiter =>
    rw [next, schedSetStopTask_task_of_notMem cfg env s c topWaiter hp]
  | initIdleBootupTask => exact task_of_update rfl hp
  | setGroupPath tg group => rfl
  | reschedTask => rfl

end State

/-! ## Order -/

/-- The list is in the order of the stamps. -/
theorem run_inOrder {cfg : Config} {rule : Rule} {h : List (State × (Op × Env))} {s : State}
    (hrun : (system cfg rule).Run h s) : (stamps h).InOrder s.rq.active := by
  induction hrun with
  | init h0 =>
    obtain ⟨idle, tg, group, clock, rfl⟩ := h0
    exact List.Pairwise.nil
  | @step h s i hrun hen ih =>
    obtain ⟨op, env⟩ := i
    show (stamps _).InOrder (s.next cfg op env).rq.active
    rw [s.next_active]
    exact ih.run _

/-- The order of the queue is exactly the order of insertion: in every state of every run, the list
is strictly increasing in the stamps of the last insertions of its tasks. And operations touch only
their targets: every operation does to the list what its events say, which are about its targets, so
that the list without them stays, as do weight, slice, policy and class of every other task. -/
theorem queue_in_insertion_order (cfg : Config) (rule : Rule) {h : List (State × (Op × Env))}
    {s : State} (hrun : (system cfg rule).Run h s) :
    (stamps h).InOrder s.rq.active ∧
      ∀ op env,
        let s' := s.next cfg op env
        s'.rq.active = QueueEvent.run s.rq.active (s.queueEvents op env) ∧
          (s'.rq.active.filter fun p => p ∉ s.targets op env) =
            s.rq.active.filter (fun p => p ∉ s.targets op env) ∧
          ∀ p ∉ s.targets op env, (s'.task p).wrr = (s.task p).wrr ∧
            (s'.task p).policy = (s.task p).policy ∧
            (s'.task p).schedClass = (s.task p).schedClass := by
  refine ⟨run_inOrder hrun, fun op env => ⟨s.next_active cfg op env, ?_, fun p hp => ?_⟩⟩
  · rw [s.next_active]
    apply QueueEvent.run_filter
    intro e he
    simpa using State.node_mem_targets he
  · rw [s.next_task_of_notMem cfg hp]
    exact ⟨rfl, rfl, rfl⟩

namespace Small

/-- Tasks A and B are WRR; B, queued last, is boosted. -/
def boostedB : State :=
  (setWrr (setWrr (start [taskB, taskA]) taskA 0) taskB 0).next cfg (.rtMutexSetprio taskB 50)
    (env [] 0)

/-- The run in which B is boosted and deboosted. -/
def deboosted : List (State × (Op × Env)) :=
  [(boostedB, (.rtMutexSetprio taskB 120, env [] 0)),
    (setWrr (setWrr (start [taskB, taskA]) taskA 0) taskB 0, (.rtMutexSetprio taskB 50, env [] 0)),
    (setWrr (start [taskB, taskA]) taskA 0,
      (.schedSetscheduler taskB Policy.wrr.toNat 0 true user none, env [] 0)),
    (start [taskB, taskA],
      (.schedSetscheduler taskA Policy.wrr.toNat 0 true user none, env [] 0)),
    ((start [taskA]).next cfg (.schedFork taskB true) (env [] 0),
      (.wakeUpNewTask taskB, env [] 0)),
    (start [taskA], (.schedFork taskB true, env [] 0)),
    (boot.next cfg (.schedFork taskA true) (env [] 0), (.wakeUpNewTask taskA, env [] 0)),
    (boot, (.schedFork taskA true, env [] 0))]

/-- The boosted task B loses its boost again. -/
theorem deboosted_run :
    (system cfg .any).Run deboosted (boostedB.next cfg (.rtMutexSetprio taskB 120) (env [] 0)) := by
  have hboot : (system cfg .any).Run [] boot := .init ⟨idle, 0, group, 0, rfl⟩
  have hforkA : boot.Enabled .any (.schedFork taskA true) (env [] 0) :=
    ⟨no_worker _ _ _, by decide, by decide⟩
  have hwakeA : (boot.next cfg (.schedFork taskA true) (env [] 0)).Enabled .any
      (.wakeUpNewTask taskA) (env [] 0) := ⟨no_worker _ _ _, ⟨by decide, by decide⟩, by decide⟩
  have hforkB : (start [taskA]).Enabled .any (.schedFork taskB true) (env [] 0) :=
    ⟨no_worker _ _ _, by decide, by decide⟩
  have hwakeB : ((start [taskA]).next cfg (.schedFork taskB true) (env [] 0)).Enabled .any
      (.wakeUpNewTask taskB) (env [] 0) := ⟨no_worker _ _ _, ⟨by decide, by decide⟩, by decide⟩
  have hsetA : (start [taskB, taskA]).Enabled .any
      (.schedSetscheduler taskA Policy.wrr.toNat 0 true user none) (env [] 0) :=
    ⟨no_worker _ _ _, ⟨by decide, by decide⟩, trivial⟩
  have hsetB : (setWrr (start [taskB, taskA]) taskA 0).Enabled .any
      (.schedSetscheduler taskB Policy.wrr.toNat 0 true user none) (env [] 0) :=
    ⟨no_worker _ _ _, ⟨by decide, by decide⟩, trivial⟩
  have hboost : (setWrr (setWrr (start [taskB, taskA]) taskA 0) taskB 0).Enabled .any
      (.rtMutexSetprio taskB 50) (env [] 0) :=
    ⟨no_worker _ _ _, ⟨by decide, by decide⟩, by decide, by decide, trivial⟩
  have hdeboost : boostedB.Enabled .any (.rtMutexSetprio taskB 120) (env [] 0) :=
    ⟨no_worker _ _ _, ⟨by decide, by decide⟩, by decide, by decide, trivial⟩
  have hstart := run_next (run_next (run_next (run_next hboot hforkA) hwakeA) hforkB) hwakeB
  exact run_next (run_next (run_next (run_next hstart hsetA) hsetB) hboost) hdeboost

end Small

/-- The task that has been deboosted is ahead of the one that was queued first. -/
theorem queue_in_insertion_order_deboosted :
    (stamps Small.deboosted).stamp Small.taskB < (stamps Small.deboosted).stamp Small.taskA := by
  have horder := (queue_in_insertion_order Small.cfg .any Small.deboosted_run).1
  have hactive : (Small.boostedB.next Small.cfg (.rtMutexSetprio Small.taskB 120)
      (Small.env [] 0)).rq.active = [Small.taskB, Small.taskA] := by decide +kernel
  rw [hactive] at horder
  exact List.rel_of_pairwise_cons horder List.mem_cons_self

end WrrSched
