import WrrSched.Correctness.Frame
import WrrSched.Correctness.Tasks

/-!
# What the operations do to the tasks

Each function that changes tasks gets an equation for the tasks after it, in terms of functions on
`TaskStruct`, and a `Frame` fact for the rest.

- `enqueueTask_task`, `dequeueTask_task`, `changeQueued_task`: queueing recomputes weight and slice
  of a WRR task and nothing else;
- `enqueueTask_rq_wrr`, `dequeueTask_rq_wrr`, `enqueueTask_rq_other`, `dequeueTask_rq_other`: the
  queue and the counters of WRR;
- `wakeUp`: what the two wake-ups share;
- `schedule_spec`: what `__schedule` leaves, in terms of the state in which the classes are asked;
- `taskTickWrr_of_one_lt`, `taskTickWrr_of_le_one`: the two kinds of ticks.
-/

namespace WrrSched

namespace State

variable (cfg : Config) (env : Env)

/-! ## Queueing -/

/-- One task is stored. -/
theorem modifyTask_frame (s : State) (p : TaskPtr) (f : TaskStruct → TaskStruct) :
    Frame s (s.modifyTask p f) :=
  ⟨rfl, rfl, rfl, rfl, rfl, fun _ _ => rfl, id⟩

/-- The other tasks stay. -/
theorem modifyTask_task (s : State) (p : TaskPtr) (f : TaskStruct → TaskStruct) :
    (s.modifyTask p f).task = Function.update s.task p (f (s.task p)) := rfl

/-- Only the run queue is stored. -/
theorem setRq_frame (s : State) (rq : RunQueue) : Frame s { s with rq := rq } :=
  ⟨rfl, rfl, rfl, rfl, rfl, fun _ _ => rfl, id⟩

/-- `inc_nr_running` stores a counter. -/
theorem incNrRunning_frame (s : State) : Frame s s.incNrRunning :=
  s.setRq_frame _

/-- `dec_nr_running` stores a counter. -/
theorem decNrRunning_frame (s : State) : Frame s s.decNrRunning :=
  s.setRq_frame _

/-- `enqueue_wrr_entity` computes the weight and the slice of the task. -/
theorem enqueueWrrEntity_task (s : State) (p : TaskPtr) (head : Bool) :
    (s.enqueueWrrEntity cfg p head).task =
      Function.update s.task p
        ((s.task p).enqueueWrr cfg (s.group (s.task p).schedTaskGroup)) := by
  have hweight := SchedWrrEntity.updateWeight_taskGroupPath (s.task p).wrr
    (s.group (s.task p).schedTaskGroup) s.wrrGroupPath
  simp only [enqueueWrrEntity, incWrrTasks, requeueWrrEntity, setTimeSlice, updateWeight,
    modifyTask, setTask, Function.update_self, Function.update_idem, hweight]
  rfl

/-- It leaves the rest alone but for the run queue. -/
theorem enqueueWrrEntity_frame (s : State) (p : TaskPtr) (head : Bool) :
    Frame s (s.enqueueWrrEntity cfg p head) :=
  ⟨rfl, rfl, rfl, rfl, rfl, fun _ _ => rfl, id⟩

/-- `enqueue_task` changes a WRR task only. -/
theorem enqueueTask_task (s : State) (p : TaskPtr) (flags n : ℕ) :
    (s.enqueueTask cfg env p flags n).task =
      Function.update s.task p ((s.task p).enqueued cfg s.group) := by
  have hq := s.updateRqClock_quiet (env.clockDelta n)
  unfold enqueueTask
  rw [TaskStruct.enqueued, ← hq.task, ← hq.group]
  dsimp only
  split
  · next h =>
    rw [if_pos h]
    exact enqueueWrrEntity_task cfg _ p (decide (flags &&& enqueueHead ≠ 0))
  all_goals
    next h =>
      rw [if_neg (by simp [h]), Function.update_eq_self]
      rfl

/-- The hooks of the classes stay within the run queue, the clock and the tasks. -/
theorem enqueueTask_frame (s : State) (p : TaskPtr) (flags n : ℕ) :
    Frame s (s.enqueueTask cfg env p flags n) := by
  refine (s.updateRqClock_quiet (env.clockDelta n)).toFrame.trans ?_
  unfold enqueueTask
  dsimp only
  generalize s.updateRqClock (env.clockDelta n) = s
  split
  · exact (s.enqueueWrrEntity_frame cfg p _).trans (incNrRunning_frame _)
  · exact s.incNrRunning_frame
  · exact s.incNrRunning_frame
  · exact (s.setRq_frame _).trans (incNrRunning_frame _)
  · exact (s.bugOn_quiet true).toFrame

/-- `dequeue_wrr_entity` stores the run queue. -/
theorem dequeueWrrEntity_frame (s : State) (p : TaskPtr) : Frame s (s.dequeueWrrEntity p) :=
  s.setRq_frame _

/-- Dequeueing charges the running task and leaves all tasks alone. -/
theorem dequeueTask_task (s : State) (p : TaskPtr) (n : ℕ) :
    (s.dequeueTask env p n).task = s.task := by
  rw [← (s.updateRqClock_quiet (env.clockDelta n)).task]
  unfold dequeueTask
  dsimp only
  generalize s.updateRqClock (env.clockDelta n) = s
  split
  · exact s.updateCurrWrr_quiet.task
  all_goals rfl

/-- `dequeue_task` stays within the run queue, the clock and `TIF_NEED_RESCHED`. -/
theorem dequeueTask_frame (s : State) (p : TaskPtr) (n : ℕ) :
    Frame s (s.dequeueTask env p n) := by
  refine (s.updateRqClock_quiet (env.clockDelta n)).toFrame.trans ?_
  unfold dequeueTask
  dsimp only
  generalize s.updateRqClock (env.clockDelta n) = s
  split
  · have hentity := s.updateCurrWrr.dequeueWrrEntity_frame p
    exact (s.updateCurrWrr_quiet.toFrame.trans hentity).trans (decNrRunning_frame _)
  · exact (s.updateCurrRt_quiet env).toFrame.trans (decNrRunning_frame _)
  · exact s.decNrRunning_frame
  · exact (s.setRq_frame _).trans (decNrRunning_frame _)
  · exact (s.bugOn_quiet true).toFrame

/-! ## Queue and counters -/

section Counters

variable {s : State} {p : TaskPtr}

/-- A WRR task is linked at one end of the queue and counted with the weight it gets. -/
theorem enqueueTask_rq_wrr (hwrr : (s.task p).schedClass = .wrr) (flags n : ℕ) :
    let rq' := (s.enqueueTask cfg env p flags n).rq
    rq'.active = (if decide (flags &&& enqueueHead ≠ 0) then listMove p s.rq.active
        else listMoveTail p s.rq.active) ∧
      rq'.wrrNrRunning = s.rq.wrrNrRunning + 1 ∧
      rq'.totalWeight = s.rq.totalWeight + ((s.task p).enqueued cfg s.group).wrr.weight := by
  have hq := s.updateRqClock_quiet (env.clockDelta n)
  have hweight : ((s.task p).enqueued cfg s.group).wrr.weight =
      ((s.enqueueTask cfg env p flags n).task p).wrr.weight := by
    rw [enqueueTask_task, Function.update_self]
  intro rq'
  rw [hweight, ← hq.rq]
  rw [← hq.task] at hwrr
  unfold rq' enqueueTask
  dsimp only
  rw [hwrr]
  exact ⟨rfl, rfl, rfl⟩

/-- Enqueueing a task of another class leaves WRR alone. -/
theorem enqueueTask_rq_other (hwrr : (s.task p).schedClass ≠ .wrr) (flags n : ℕ) :
    let rq' := (s.enqueueTask cfg env p flags n).rq
    rq'.active = s.rq.active ∧ rq'.wrrNrRunning = s.rq.wrrNrRunning ∧
      rq'.totalWeight = s.rq.totalWeight := by
  have hq := s.updateRqClock_quiet (env.clockDelta n)
  intro rq'
  rw [← hq.rq]
  rw [← hq.task] at hwrr
  unfold rq' enqueueTask
  dsimp only
  split
  · next hclass => exact absurd hclass hwrr
  all_goals exact ⟨rfl, rfl, rfl⟩

/-- Every class but the idle one counts the task in. -/
theorem enqueueTask_nrRunning (hidle : (s.task p).schedClass ≠ .idle) (flags n : ℕ) :
    (s.enqueueTask cfg env p flags n).rq.nrRunning = s.rq.nrRunning + 1 := by
  have hq := s.updateRqClock_quiet (env.clockDelta n)
  rw [← hq.rq]
  rw [← hq.task] at hidle
  unfold enqueueTask
  dsimp only
  split
  case h_5 hclass => exact absurd hclass hidle
  all_goals rfl

/-- A WRR task is unlinked and counted out with the weight it has. -/
theorem dequeueTask_rq_wrr (hwrr : (s.task p).schedClass = .wrr) (n : ℕ) :
    let rq' := (s.dequeueTask env p n).rq
    rq'.active = listDelInit p s.rq.active ∧ rq'.wrrNrRunning = s.rq.wrrNrRunning - 1 ∧
      rq'.totalWeight = s.rq.totalWeight - (s.task p).wrr.weight := by
  have hq := s.updateRqClock_quiet (env.clockDelta n)
  have hcurr := updateCurrWrr_quiet (s.updateRqClock (env.clockDelta n))
  intro rq'
  rw [← hq.rq, ← hq.task, ← hcurr.rq, ← hcurr.task]
  rw [← hq.task] at hwrr
  unfold rq' dequeueTask
  dsimp only
  rw [hwrr]
  exact ⟨rfl, rfl, rfl⟩

/-- Dequeueing a task of another class leaves WRR alone. -/
theorem dequeueTask_rq_other (hwrr : (s.task p).schedClass ≠ .wrr) (n : ℕ) :
    let rq' := (s.dequeueTask env p n).rq
    rq'.active = s.rq.active ∧ rq'.wrrNrRunning = s.rq.wrrNrRunning ∧
      rq'.totalWeight = s.rq.totalWeight := by
  have hq := s.updateRqClock_quiet (env.clockDelta n)
  intro rq'
  rw [← hq.rq]
  rw [← hq.task] at hwrr
  unfold rq' dequeueTask
  dsimp only
  split
  · next hclass => exact absurd hclass hwrr
  · -- the RT class charges the running task first
    rw [← (updateCurrRt_quiet env (s.updateRqClock (env.clockDelta n))).rq]
    exact ⟨rfl, rfl, rfl⟩
  all_goals exact ⟨rfl, rfl, rfl⟩

/-- Every class but the idle one counts the task out. -/
theorem dequeueTask_nrRunning (hidle : (s.task p).schedClass ≠ .idle) (n : ℕ) :
    (s.dequeueTask env p n).rq.nrRunning = s.rq.nrRunning - 1 := by
  have hq := s.updateRqClock_quiet (env.clockDelta n)
  rw [← hq.rq]
  rw [← hq.task] at hidle
  unfold dequeueTask
  dsimp only
  split
  -- WRR and RT charge the running task first
  case h_1 =>
    rw [← (updateCurrWrr_quiet (s.updateRqClock (env.clockDelta n))).rq]
    rfl
  case h_2 =>
    rw [← (updateCurrRt_quiet env (s.updateRqClock (env.clockDelta n))).rq]
    rfl
  case h_5 hclass => exact absurd hclass hidle
  all_goals rfl

end Counters

/-! ## Changing a task -/

section ChangeQueued

variable (s : State) (p : TaskPtr) (running : Bool) (flags : ℕ) (change : TaskStruct → TaskStruct)

/-- The steps of `changeQueued` before the task is put back. -/
def takenOff : State :=
  let s := if (s.task p).onRq then s.dequeueTask env p 0 else s
  if running then s.classPutPrevTask env p else s

/-- The task has been changed, but is not back on its queue yet. -/
def changed : State :=
  let s := (s.takenOff env p running).modifyTask p change
  if running then s.setCurrTask p else s

/-- A change of a queued task, from the state in which it is taken off. -/
theorem changeQueued_eq :
    s.changeQueued cfg env p running flags change =
      if (s.task p).onRq then (s.changed env p running change).enqueueTask cfg env p flags 1
      else s.changed env p running change := rfl

/-- Taking a task off changes no task. -/
theorem takenOff_task : (s.takenOff env p running).task = s.task := by
  have hdeq : (if (s.task p).onRq then s.dequeueTask env p 0 else s).task = s.task := by
    split
    · exact s.dequeueTask_task env p 0
    · rfl
  rw [takenOff]
  split
  · exact (classPutPrevTask_quiet env _ p).task.trans hdeq
  · exact hdeq

/-- Neither does it change anything else the frame speaks of. -/
theorem takenOff_frame : Frame s (s.takenOff env p running) := by
  have hdeq : Frame s (if (s.task p).onRq then s.dequeueTask env p 0 else s) := by
    split
    · exact s.dequeueTask_frame env p 0
    · exact .refl s
  rw [takenOff]
  split
  · exact hdeq.trans (classPutPrevTask_quiet env _ p).toFrame
  · exact hdeq

/-- Then the task is changed. -/
theorem changed_task :
    (s.changed env p running change).task = Function.update s.task p (change (s.task p)) := by
  rw [changed]
  split
  · rw [(setCurrTask_quiet _ p).task, modifyTask_task, takenOff_task]
  · rw [modifyTask_task, takenOff_task]

/-- The change is the only one. -/
theorem changed_frame : Frame s (s.changed env p running change) := by
  rw [changed]
  have h := (s.takenOff_frame env p running).trans (modifyTask_frame _ p change)
  split
  · exact h.trans (setCurrTask_quiet _ p).toFrame
  · exact h

/-- Only the dequeueing concerns the run queue. -/
theorem changed_rq :
    (s.changed env p running change).rq =
      (if (s.task p).onRq then s.dequeueTask env p 0 else s).rq := by
  have htaken : (s.takenOff env p running).rq =
      (if (s.task p).onRq then s.dequeueTask env p 0 else s).rq := by
    rw [takenOff]
    split
    · exact (classPutPrevTask_quiet env _ p).rq
    · rfl
  rw [changed]
  split
  · exact (setCurrTask_quiet _ p).rq.trans htaken
  · exact htaken

/-- A queued task is queued again, which recomputes the weight and the slice of a WRR task. -/
theorem changeQueued_task :
    (s.changeQueued cfg env p running flags change).task =
      Function.update s.task p
        ((change (s.task p)).requeued cfg s.group (s.task p).onRq) := by
  rw [changeQueued_eq, TaskStruct.requeued]
  split
  · rw [enqueueTask_task, (s.changed_frame env p running change).group, changed_task,
      Function.update_self, Function.update_idem]
  · rw [changed_task]

/-- The rest stays. -/
theorem changeQueued_frame : Frame s (s.changeQueued cfg env p running flags change) := by
  rw [changeQueued_eq]
  split
  · exact (s.changed_frame env p running change).trans (enqueueTask_frame cfg env _ p flags 1)
  · exact s.changed_frame env p running change

end ChangeQueued

/-! ## Priorities, policies and groups -/

/-- `rt_mutex_setprio` stores the priority and the class that follows from it. -/
theorem rtMutexSetprio_task (s : State) {p : TaskPtr} (hp : p ≠ s.idle) (prio : ℤ) :
    (s.rtMutexSetprio cfg env p prio).task =
      Function.update s.task p (((s.task p).boost prio).requeued cfg s.group (s.task p).onRq) := by
  unfold rtMutexSetprio
  dsimp only
  split
  · next h => exact absurd h hp
  · rw [(checkClassChanged_quiet env _ p _ _).task, changeQueued_task]
    rfl

/-- It changes this task only. -/
theorem rtMutexSetprio_frame (s : State) (p : TaskPtr) (prio : ℤ) :
    Frame s (s.rtMutexSetprio cfg env p prio) := by
  have hbug := (s.bugOn_quiet (decide (prio < 0 ∨ prio > maxPrio))).toFrame
  unfold rtMutexSetprio
  dsimp only
  split
  · exact hbug
  · exact hbug.trans ((changeQueued_frame cfg env _ p _ _ _).trans
      (checkClassChanged_quiet env _ p _ _).toFrame)

/-- `set_user_nice` changes the static priority, and the priorities of a task they count for. -/
theorem setUserNice_task (s : State) (p : TaskPtr) (nice : ℤ) :
    (s.setUserNice cfg env p nice).task =
      Function.update s.task p ((s.task p).setUserNice cfg s.group nice) := by
  unfold setUserNice TaskStruct.setUserNice
  dsimp only
  split
  · rw [Function.update_eq_self]
  · split
    · rfl
    · split
      · rw [(reschedCurr_quiet _ _).task, changeQueued_task]
      · rw [changeQueued_task]

/-- It changes this task only. -/
theorem setUserNice_frame (s : State) (p : TaskPtr) (nice : ℤ) :
    Frame s (s.setUserNice cfg env p nice) := by
  unfold setUserNice
  dsimp only
  split
  · exact .refl s
  · split
    · exact modifyTask_frame s p _
    · split
      · exact (changeQueued_frame cfg env s p _ _ _).trans (reschedCurr_quiet _ _).toFrame
      · exact changeQueued_frame cfg env s p _ _ _

/-- The committed part of `__sched_setscheduler` stores the flag and calls `__setscheduler`. -/
theorem setschedulerCommit_task (s : State) (p : TaskPtr) (req : Request) (prio : ℤ)
    (topWaiter : Option ℤ) :
    (s.setschedulerCommit cfg env p req prio topWaiter).task =
      Function.update s.task p
        (TaskStruct.requeued cfg s.group (s.task p).onRq
          (TaskStruct.setscheduler { s.task p with schedResetOnFork := req.resetOnFork }
            req.policy prio topWaiter)) := by
  unfold setschedulerCommit
  rw [(checkClassChanged_quiet env _ p _ _).task, changeQueued_task]

/-- It changes this task only. -/
theorem setschedulerCommit_frame (s : State) (p : TaskPtr) (req : Request) (prio : ℤ)
    (topWaiter : Option ℤ) : Frame s (s.setschedulerCommit cfg env p req prio topWaiter) := by
  unfold setschedulerCommit
  exact (changeQueued_frame cfg env s p _ _ _).trans (checkClassChanged_quiet env _ p _ _).toFrame

/-- `sched_move_task` stores the group. -/
theorem schedMoveTask_task (s : State) (p : TaskPtr) (tg : TaskGroupPtr) :
    (s.schedMoveTask cfg env p tg).task =
      Function.update s.task p
        (TaskStruct.requeued cfg s.group (s.task p).onRq
          { s.task p with schedTaskGroup := tg }) :=
  changeQueued_task cfg env s p _ _ _

/-- It changes this task only. -/
theorem schedMoveTask_frame (s : State) (p : TaskPtr) (tg : TaskGroupPtr) :
    Frame s (s.schedMoveTask cfg env p tg) :=
  changeQueued_frame cfg env s p _ _ _

/-! ## Fork and wake-up -/

/-- `wrr_set_group_weight` gives the weight of a foreground or a background task. -/
theorem wrrSetGroupWeight_task (s : State) (p : TaskPtr) :
    (s.wrrSetGroupWeight p).task =
      Function.update s.task p ((s.task p).wrrSetGroupWeight (s.wrrIfFg p).1) := by
  unfold wrrSetGroupWeight TaskStruct.wrrSetGroupWeight
  split
  · rw [Function.update_eq_self]
  · rfl

/-- It also writes the buffer of `core.c`, which the frame does not speak of. -/
theorem wrrSetGroupWeight_frame (s : State) (p : TaskPtr) : Frame s (s.wrrSetGroupWeight p) := by
  unfold wrrSetGroupWeight
  split
  · exact .refl s
  · exact ⟨rfl, rfl, rfl, rfl, rfl, fun _ _ => rfl, id⟩

/-- `wrr_set_weight` leaves a custom weight alone and fills the slice. -/
theorem wrrSetWeight_task (s : State) (p : TaskPtr) :
    (s.wrrSetWeight cfg p).task =
      Function.update s.task p ((s.task p).wrrSetWeight cfg (s.wrrIfFg p).1) := by
  have hgroup := s.wrrSetGroupWeight_task p
  unfold wrrSetWeight TaskStruct.wrrSetWeight
  dsimp only
  rw [hgroup, Function.update_self]
  split
  · rw [setTimeSlice, modifyTask_task, hgroup, Function.update_self, Function.update_idem]
  · exact hgroup

/-- It changes this task only. -/
theorem wrrSetWeight_frame (s : State) (p : TaskPtr) : Frame s (s.wrrSetWeight cfg p) := by
  unfold wrrSetWeight
  dsimp only
  split
  · exact (s.wrrSetGroupWeight_frame p).trans (modifyTask_frame _ p _)
  · exact s.wrrSetGroupWeight_frame p

/-- A new task gets its weight, is queued and counts as started. -/
theorem wakeUpNewTask_task (s : State) (p : TaskPtr) :
    (s.wakeUpNewTask cfg env p).task =
      Function.update s.task p ((s.task p).start cfg s.group (s.wrrIfFg p).1) := by
  unfold wakeUpNewTask
  rw [(checkPreemptCurr_quiet env _ p).task, modifyTask_task, enqueueTask_task,
    (s.wrrSetWeight_frame cfg p).group, wrrSetWeight_task]
  simp only [Function.update_self, Function.update_idem]
  rfl

/-- `wake_up_new_task` changes this task only. -/
theorem wakeUpNewTask_frame (s : State) (p : TaskPtr) : Frame s (s.wakeUpNewTask cfg env p) := by
  unfold wakeUpNewTask
  exact (((s.wrrSetWeight_frame cfg p).trans (enqueueTask_frame cfg env _ p 0 0)).trans
    (modifyTask_frame _ p _)).trans (checkPreemptCurr_quiet env _ p).toFrame

/-- `ttwu_activate` queues the task and sets `on_rq`. -/
theorem ttwuActivate_task (s : State) (p : TaskPtr) (n : ℕ) :
    (s.ttwuActivate cfg env p n).task =
      Function.update s.task p { (s.task p).enqueued cfg s.group with onRq := true } := by
  unfold ttwuActivate
  rw [modifyTask_task, enqueueTask_task, Function.update_self, Function.update_idem]

/-- It changes this task only. -/
theorem ttwuActivate_frame (s : State) (p : TaskPtr) (n : ℕ) :
    Frame s (s.ttwuActivate cfg env p n) := by
  unfold ttwuActivate
  exact (enqueueTask_frame cfg env s p _ n).trans (modifyTask_frame _ p _)

/-- `ttwu_do_wakeup` makes the task runnable. -/
theorem ttwuDoWakeup_task (s : State) (p : TaskPtr) :
    (s.ttwuDoWakeup env p).task =
      Function.update s.task p { s.task p with state := taskRunning } := by
  unfold ttwuDoWakeup
  rw [modifyTask_task, (s.checkPreemptCurr_quiet env p).task]

/-- It changes this task only. -/
theorem ttwuDoWakeup_frame (s : State) (p : TaskPtr) : Frame s (s.ttwuDoWakeup env p) := by
  unfold ttwuDoWakeup
  exact (s.checkPreemptCurr_quiet env p).toFrame.trans (modifyTask_frame _ p _)

/-- What `try_to_wake_up`, with 0 for `n`, and `try_to_wake_up_local` share; `n` numbers the update of
the clock. -/
def wakeUp (s : State) (p : TaskPtr) (state n : ℕ) : State :=
  if (s.task p).state &&& state = 0 then s
  else if (s.task p).onRq then s.ttwuDoWakeup env p
  else (s.ttwuActivate cfg env p n).ttwuDoWakeup env p

/-- A worker that is not the running task is woken up like any task. -/
theorem tryToWakeUpLocal_eq (s : State) (p : TaskPtr) (n : ℕ) :
    s.tryToWakeUpLocal cfg env p n =
      if p = s.curr then s else s.wakeUp cfg env p taskNormal n := rfl

/-- `try_to_wake_up_local` does nothing to the running task, even if it has just gone to sleep. -/
theorem tryToWakeUpLocal_of_curr {s : State} {p : TaskPtr} (hp : p = s.curr) (n : ℕ) :
    s.tryToWakeUpLocal cfg env p n = s := by
  rw [tryToWakeUpLocal_eq, if_pos hp]

/-- What a wake-up does to the task, queued or not, in a matching state or not. -/
theorem wakeUp_task (s : State) (p : TaskPtr) (state n : ℕ) :
    (s.wakeUp cfg env p state n).task =
      Function.update s.task p ((s.task p).wake cfg s.group state) := by
  unfold wakeUp TaskStruct.wake
  split
  · rw [Function.update_eq_self]
  · split
    · exact s.ttwuDoWakeup_task env p
    · rw [ttwuDoWakeup_task, ttwuActivate_task, Function.update_self, Function.update_idem]

/-- It changes this task only. -/
theorem wakeUp_frame (s : State) (p : TaskPtr) (state n : ℕ) :
    Frame s (s.wakeUp cfg env p state n) := by
  unfold wakeUp
  split_ifs
  · exact .refl s
  · exact s.ttwuDoWakeup_frame env p
  · exact (s.ttwuActivate_frame cfg env p n).trans (ttwuDoWakeup_frame env _ p)

/-- `try_to_wake_up` does what a wake-up does. -/
theorem tryToWakeUp_task (s : State) (p : TaskPtr) (state : ℕ) :
    (s.tryToWakeUp cfg env p state).task =
      Function.update s.task p ((s.task p).wake cfg s.group state) :=
  s.wakeUp_task cfg env p state 0

/-- It changes this task only. -/
theorem tryToWakeUp_frame (s : State) (p : TaskPtr) (state : ℕ) :
    Frame s (s.tryToWakeUp cfg env p state) :=
  s.wakeUp_frame cfg env p state 0

/-- So does `try_to_wake_up_local`. -/
theorem tryToWakeUpLocal_task (s : State) {p : TaskPtr} (hp : p ≠ s.curr) (n : ℕ) :
    (s.tryToWakeUpLocal cfg env p n).task =
      Function.update s.task p ((s.task p).wake cfg s.group taskNormal) := by
  rw [tryToWakeUpLocal_eq, if_neg hp]
  exact s.wakeUp_task cfg env p taskNormal n

/-- It changes this task only. -/
theorem tryToWakeUpLocal_frame (s : State) (p : TaskPtr) (n : ℕ) :
    Frame s (s.tryToWakeUpLocal cfg env p n) := by
  rw [tryToWakeUpLocal_eq]
  split
  · exact .refl s
  · exact s.wakeUp_frame cfg env p taskNormal n

/-! ## Schedule and tick -/

/-- The running task has gone to sleep, and no worker has been woken yet. -/
def parked (s : State) : State :=
  (s.dequeueTask env s.curr 0).modifyTask s.curr fun t => { t with onRq := false }

/-- `deactivate_task` of the running task changes this task only. -/
theorem parked_frame (s : State) : Frame s (s.parked env) :=
  (s.dequeueTask_frame env s.curr 0).trans (modifyTask_frame _ s.curr _)

/-- It clears `on_rq`. -/
theorem parked_task (s : State) :
    (s.parked env).task = Function.update s.task s.curr { s.task s.curr with onRq := false } := by
  rw [parked, modifyTask_task, dequeueTask_task]

/-- A task that goes to sleep is taken off, and a worker may be woken up in its place. -/
theorem deactivatePrev_of_sleeps {s : State} (h : s.sleeps env = true) :
    s.deactivatePrev cfg env =
      match env.toWakeup with
      | some p => (s.parked env).tryToWakeUpLocal cfg env p 1
      | none => s.parked env := by
  simp only [sleeps, Bool.and_eq_true, decide_eq_true_eq, Bool.not_eq_true'] at h
  unfold deactivatePrev
  dsimp only
  rw [if_pos h.1, if_neg (by simp [h.2])]
  rfl

/-- Without a sleep, only a pending signal can change the state of the running task. -/
theorem deactivatePrev_of_not_sleeps {s : State} (h : s.sleeps env = false) :
    s.deactivatePrev cfg env = s ∨
      s.deactivatePrev cfg env =
        s.modifyTask s.curr fun t => { t with state := taskRunning } := by
  unfold deactivatePrev
  dsimp only
  split
  · next hcond =>
    split
    · exact .inr rfl
    · next hsig => simp [sleeps, hcond.1, hcond.2, hsig] at h
  · exact .inl rfl

/-- The first part of `__schedule` changes the running task and a worker at most. -/
theorem deactivatePrev_frame (s : State) : Frame s (s.deactivatePrev cfg env) := by
  cases hs : s.sleeps env with
  | true =>
    rw [deactivatePrev_of_sleeps cfg env hs]
    split
    · exact (s.parked_frame env).trans (tryToWakeUpLocal_frame cfg env _ _ 1)
    · exact s.parked_frame env
  | false =>
    rcases deactivatePrev_of_not_sleeps cfg env hs with h | h
    · rw [h]; exact .refl s
    · rw [h]; exact s.modifyTask_frame _ _

/-- A task other than the running one is changed by the first half of `__schedule` only if it is
the worker that is woken. -/
theorem deactivatePrev_task_of_ne (s : State) {p : TaskPtr} (hp : p ≠ s.curr) :
    (s.deactivatePrev cfg env).task p =
      if s.sleeps env ∧ env.toWakeup = some p then (s.task p).wake cfg s.group taskNormal
      else s.task p := by
  have hparked : (s.parked env).task p = s.task p := by
    rw [parked_task, Function.update_of_ne hp]
  cases hs : s.sleeps env with
  | true =>
    rw [deactivatePrev_of_sleeps cfg env hs]
    split
    · next w hw =>
      by_cases hwc : w = s.curr
      · have hne : w ≠ p := by rintro rfl; exact hp hwc
        rw [tryToWakeUpLocal_of_curr cfg env (hwc.trans (s.parked_frame env).curr.symm), hparked]
        simp [hw, hne]
      · rw [tryToWakeUpLocal_task cfg env _ (by rwa [(s.parked_frame env).curr]),
          (s.parked_frame env).group]
        by_cases hwp : w = p
        · subst hwp
          rw [Function.update_self, hparked]
          simp [hw]
        · rw [Function.update_of_ne (Ne.symm hwp), hparked]
          simp [hw, hwp]
    · next hw => simp [hw, hparked]
  | false =>
    rcases deactivatePrev_of_not_sleeps cfg env hs with h | h
    · simp [h]
    · rw [h, modifyTask_task, Function.update_of_ne hp]
      simp

/-- The worker is not the running task, which stays runnable or goes to sleep. -/
theorem deactivatePrev_task_curr (s : State) :
    (s.deactivatePrev cfg env).task s.curr = (s.task s.curr).deactivate env := by
  have hparked : (s.parked env).task s.curr = { s.task s.curr with onRq := false } := by
    rw [parked_task, Function.update_self]
  cases hs : s.sleeps env with
  | true =>
    have hdeact : (s.task s.curr).deactivate env = { s.task s.curr with onRq := false } := by
      simp only [sleeps, Bool.and_eq_true, decide_eq_true_eq, Bool.not_eq_true'] at hs
      rw [TaskStruct.deactivate, if_pos hs.1, if_neg (by simp [hs.2])]
    rw [deactivatePrev_of_sleeps cfg env hs, hdeact]
    split
    · next w hw =>
      by_cases hwc : w = s.curr
      · rw [tryToWakeUpLocal_of_curr cfg env (hwc.trans (s.parked_frame env).curr.symm), hparked]
      · rw [tryToWakeUpLocal_task cfg env _ (by rwa [(s.parked_frame env).curr]),
          Function.update_of_ne (Ne.symm hwc), hparked]
    · exact hparked
  | false =>
    unfold deactivatePrev TaskStruct.deactivate
    dsimp only
    split
    · next hcond =>
      split
      · rw [modifyTask_task, Function.update_self]
      · next hsig => simp [sleeps, hcond.1, hcond.2, hsig] at hs
    · rfl

/-- The state in which `__schedule` asks the classes. -/
def pickState (s : State) : State :=
  (s.deactivatePrev cfg env).putPrevTask env s.curr 2

/-- The classes are asked after the first part of `__schedule` and `put_prev_task`. -/
theorem pickState_frame (s : State) : Frame s (s.pickState cfg env) :=
  (s.deactivatePrev_frame cfg env).trans (putPrevTask_quiet env _ _ 2).toFrame

/-- `put_prev_task` changes no task. -/
theorem pickState_task (s : State) :
    (s.pickState cfg env).task = (s.deactivatePrev cfg env).task :=
  (putPrevTask_quiet env _ _ 2).task

/-- `__schedule` runs what is picked and clears the request to reschedule the task that ran. -/
theorem schedule_spec (s : State) :
    (s.schedule cfg env).task = (s.deactivatePrev cfg env).task ∧
      (s.schedule cfg env).rq = (s.pickState cfg env).rq ∧
      (s.schedule cfg env).curr = ((s.pickState cfg env).pickNextTask env).1 ∧
      (s.schedule cfg env).needResched = Function.update s.needResched s.curr false ∧
      (s.schedule cfg env).live = s.live ∧ (s.schedule cfg env).idle = s.idle ∧
      (s.schedule cfg env).stop = s.stop ∧ (s.schedule cfg env).group = s.group := by
  have hd := s.deactivatePrev_frame cfg env
  have hf := s.pickState_frame cfg env
  have hq := (s.pickState cfg env).pickNextTask_quiet env
  -- whatever the hooks have asked for is cleared with the flag of the task that ran
  have hne : Function.update ((s.pickState cfg env).pickNextTask env).2.needResched s.curr false =
      Function.update s.needResched s.curr false := by
    funext p
    by_cases hp : p = s.curr
    · simp [hp]
    · rw [Function.update_of_ne hp, Function.update_of_ne hp,
        hq.needResched_of_ne p (by rwa [hf.curr]), hf.needResched_of_ne p hp]
  unfold schedule switchTask
  rw [hd.curr]
  dsimp only
  rw [← pickState]
  split
  · exact ⟨hq.task.trans (s.pickState_task cfg env), hq.rq, rfl, hne, hq.live.trans hf.live,
      hq.idle.trans hf.idle, hq.stop.trans hf.stop, hq.group.trans hf.group⟩
  · next hcurr =>
    exact ⟨hq.task.trans (s.pickState_task cfg env), hq.rq,
      (hq.curr.trans hf.curr).trans (not_ne_iff.mp hcurr), hne, hq.live.trans hf.live,
      hq.idle.trans hf.idle, hq.stop.trans hf.stop, hq.group.trans hf.group⟩

/-- `__schedule` queues and dequeues tasks; it does not change their policies. -/
theorem schedule_task_eq (s : State) (p : TaskPtr) :
    (s.schedule cfg env).task p =
      { s.task p with
        state := ((s.schedule cfg env).task p).state
        onRq := ((s.schedule cfg env).task p).onRq
        wrr := ((s.schedule cfg env).task p).wrr } := by
  rw [(s.schedule_spec cfg env).1]
  by_cases hp : p = s.curr
  · rw [hp, deactivatePrev_task_curr, TaskStruct.deactivate_eq]
  · rw [deactivatePrev_task_of_ne cfg env s hp]
    split
    · rw [TaskStruct.wake_eq]
    · rfl

/-- A yield moves the task in its queue only. -/
theorem classYieldTask_task (s : State) : s.classYieldTask.task = s.task := by
  unfold classYieldTask
  split <;> rfl

/-- The rest stays. -/
theorem classYieldTask_frame (s : State) : Frame s s.classYieldTask := by
  unfold classYieldTask
  split <;> exact ⟨rfl, rfl, rfl, rfl, rfl, fun _ _ => rfl, id⟩

/-! ## Tick -/

/-- The slice that is stored last counts. -/
theorem setTimeSlice_idem (s : State) (p : TaskPtr) (m n : UInt32) :
    (s.setTimeSlice p m).setTimeSlice p n = s.setTimeSlice p n := by
  simp only [setTimeSlice, modifyTask, setTask, Function.update_self, Function.update_idem,
    TaskStruct.setTimeSlice]

/-- Before the slice is used up, the tick counts it down and returns. -/
theorem taskTickWrr_of_one_lt {s : State} {p : TaskPtr} (tvNsec : ℕ)
    (h : 1 < (s.task p).wrr.timeSlice.toNat) :
    s.taskTickWrr cfg p tvNsec =
      s.updateCurrWrr.setTimeSlice p ((s.task p).wrr.timeSlice - 1) := by
  have hq := s.updateCurrWrr_quiet
  have hzero : (s.task p).wrr.timeSlice ≠ 0 := by
    intro h0
    simp [h0] at h
  have hone : (s.task p).wrr.timeSlice - 1 ≠ 0 := by
    intro h1
    rw [← UInt32.toNat_inj, UInt32.toNat_sub_of_le _ _ (by
      rw [UInt32.le_iff_toNat_le]; exact h.le)] at h1
    simp only [UInt32.reduceToNat] at h1
    omega
  unfold taskTickWrr
  simp only [hq.task, if_neg hzero]
  rw [if_pos]
  rw [setTimeSlice, modifyTask_task, Function.update_self, hq.task]
  exact hone

/-- The running task has used its slice up and has got a new one. -/
def refilled (s : State) (p : TaskPtr) : State :=
  (s.updateCurrWrr.bugOn (decide ((s.task p).wrr.timeSlice = 0))).setTimeSlice p
    ((s.task p).wrr.weight * cfg.wrrWeightUnit)

/-- The slice is filled from the weight. -/
theorem refilled_task (s : State) (p : TaskPtr) :
    (s.refilled cfg p).task =
      Function.update s.task p
        ((s.task p).setTimeSlice ((s.task p).wrr.weight * cfg.wrrWeightUnit)) := by
  rw [refilled, setTimeSlice, modifyTask_task, (bugOn_quiet _ _).task, s.updateCurrWrr_quiet.task]

/-- Only this task changes. -/
theorem refilled_frame (s : State) (p : TaskPtr) : Frame s (s.refilled cfg p) := by
  unfold refilled setTimeSlice
  exact (s.updateCurrWrr_quiet.trans (bugOn_quiet _ _)).toFrame.trans (modifyTask_frame _ p _)

/-- The run queue stays. -/
theorem refilled_rq (s : State) (p : TaskPtr) : (s.refilled cfg p).rq = s.rq :=
  s.updateCurrWrr_quiet.rq

/-- The tick that uses the slice up refills it, and asks for a reschedule if another task is queued
or the class is throttled. -/
theorem taskTickWrr_of_le_one {s : State} {p : TaskPtr} (tvNsec : ℕ)
    (h : (s.task p).wrr.timeSlice.toNat ≤ 1) :
    s.taskTickWrr cfg p tvNsec =
      if listPrev p s.rq.active ≠ listNext p s.rq.active ∨ wrrThrottled tvNsec then
        ((s.refilled cfg p).requeueTaskWrr p false).setNeedResched p true
      else s.refilled cfg p := by
  have hq := s.updateCurrWrr_quiet
  have hslice (t : State) (n : UInt32) : ((t.setTimeSlice p n).task p).wrr.timeSlice = n := by
    rw [setTimeSlice, modifyTask_task, Function.update_self]; rfl
  have hweight (t : State) (n : UInt32) :
      ((t.setTimeSlice p n).task p).wrr.weight = (t.task p).wrr.weight := by
    rw [setTimeSlice, modifyTask_task, Function.update_self]; rfl
  have hrq (t : State) (n : UInt32) : (t.setTimeSlice p n).rq = t.rq := rfl
  have hone : (1 : UInt32) - 1 = 0 := by decide
  unfold taskTickWrr refilled
  -- the assertion sets a slice of 0 to 1, so that both come down to 0
  by_cases h0 : (s.task p).wrr.timeSlice = 0
  · have hbug := s.updateCurrWrr.bugOn_quiet true
    simp only [hq.task, h0, if_true, decide_true, hslice, hone, ne_eq, not_true_eq_false,
      if_false, hweight, setTimeSlice_idem, hrq, hbug.task, hbug.rq, hq.rq]
  · have h1 : (s.task p).wrr.timeSlice = 1 := by
      rw [← UInt32.toNat_inj] at h0 ⊢
      simp only [UInt32.reduceToNat] at h0 ⊢
      omega
    have hne : ¬(1 : UInt32) = 0 := by decide
    have hbug : s.updateCurrWrr.bugOn false = s.updateCurrWrr := by simp [bugOn]
    simp only [hq.task, h1, hne, if_false, decide_false, hslice, hone, ne_eq, not_true_eq_false,
      hweight, setTimeSlice_idem, hrq, hbug, hq.rq]

/-- A tick counts the slice down and refills it at the end. -/
theorem taskTickWrr_task (s : State) (p : TaskPtr) (tvNsec : ℕ) :
    (s.taskTickWrr cfg p tvNsec).task = Function.update s.task p ((s.task p).tickWrr cfg) := by
  rw [TaskStruct.tickWrr]
  split
  · next h =>
    rw [taskTickWrr_of_le_one cfg tvNsec h, ← refilled_task]
    split <;> rfl
  · next h =>
    rw [taskTickWrr_of_one_lt cfg tvNsec (not_le.mp h), setTimeSlice, modifyTask_task,
      s.updateCurrWrr_quiet.task]

/-- It changes the running task only. -/
theorem taskTickWrr_frame (s : State) (tvNsec : ℕ) :
    Frame s (s.taskTickWrr cfg s.curr tvNsec) := by
  rcases Nat.lt_or_ge 1 (s.task s.curr).wrr.timeSlice.toNat with h | h
  · rw [taskTickWrr_of_one_lt cfg tvNsec h]
    exact s.updateCurrWrr_quiet.toFrame.trans (modifyTask_frame _ _ _)
  · rw [taskTickWrr_of_le_one cfg tvNsec h]
    have hf := s.refilled_frame cfg s.curr
    split
    · -- the tick marks the task it was called for, which is the running one
      have hr := (reschedCurr_quiet ((s.refilled cfg s.curr).requeueTaskWrr s.curr false) true)
      rw [reschedCurr, show ((s.refilled cfg s.curr).requeueTaskWrr s.curr false).curr = s.curr
        from hf.curr] at hr
      have hm : Frame (s.refilled cfg s.curr)
          ((s.refilled cfg s.curr).requeueTaskWrr s.curr false) :=
        ⟨rfl, rfl, rfl, rfl, rfl, fun _ _ => rfl, id⟩
      exact (hf.trans hm).trans hr.toFrame
    · exact hf

/-- Only a WRR task is changed by a tick. -/
theorem schedulerTick_task (s : State) :
    (s.schedulerTick cfg env).task =
      if (s.task s.curr).schedClass = .wrr then
        Function.update s.task s.curr ((s.task s.curr).tickWrr cfg)
      else s.task := by
  have hq := s.updateRqClock_quiet (env.clockDelta 0)
  unfold schedulerTick taskTick
  dsimp only
  rw [← hq.task, ← hq.curr]
  split
  · next h => rw [if_pos h, taskTickWrr_task]
  · next h =>
    rw [if_neg (by simp [h])]
    exact (updateCurrRt_quiet env _).task
  · next h =>
    rw [if_neg (by simp [h])]
    exact (reschedCurr_quiet _ _).task
  · next h =>
    rw [if_neg (by simp [h])]
    exact (reschedCurr_quiet _ _).task
  · next h => rw [if_neg (by simp [h])]

/-- Only the running task changes. -/
theorem schedulerTick_frame (s : State) : Frame s (s.schedulerTick cfg env) := by
  refine (s.updateRqClock_quiet (env.clockDelta 0)).toFrame.trans ?_
  unfold schedulerTick taskTick
  dsimp only
  generalize s.updateRqClock (env.clockDelta 0) = s
  split
  · exact s.taskTickWrr_frame cfg _
  · have hr := s.updateCurrRt_quiet env
    have hr' := reschedCurr_quiet (s.updateCurrRt env) env.rtSliceExpired
    rw [reschedCurr, hr.curr] at hr'
    exact (hr.trans hr').toFrame
  · exact (s.reschedCurr_quiet _).toFrame
  · exact (s.reschedCurr_quiet _).toFrame
  · exact .refl s

end State

end WrrSched
