import WrrSched.Model.System

/-!
# What the hooks leave alone

Most of what a scheduling operation calls does time accounting or asks for a reschedule. `Quiet`
collects what such a step leaves alone, `Frame` what queueing and changing a task leaves alone as
well. Later proofs use these facts and do not unfold the hooks again.
-/

namespace WrrSched

/-- `s'` has the tasks, the run queue's owner fields and the groups of `s`, and only the running
task may have been marked for rescheduling. -/
structure Frame (s s' : State) : Prop where
  live : s'.live = s.live
  curr : s'.curr = s.curr
  idle : s'.idle = s.idle
  stop : s'.stop = s.stop
  group : s'.group = s.group
  needResched_of_ne : ∀ p, p ≠ s.curr → s'.needResched p = s.needResched p
  needResched_curr : s.needResched s.curr = true → s'.needResched s.curr = true

/-- Moreover, no task and nothing in the run queue has changed. -/
structure Quiet (s s' : State) : Prop extends Frame s s' where
  task : s'.task = s.task
  rq : s'.rq = s.rq

namespace Frame

variable {s s' s'' : State}

/-- A state is framed by itself. -/
theorem refl (s : State) : Frame s s :=
  ⟨rfl, rfl, rfl, rfl, rfl, fun _ _ => rfl, id⟩

/-- Frames compose. -/
theorem trans (h : Frame s s') (h' : Frame s' s'') : Frame s s'' where
  live := h'.live.trans h.live
  curr := h'.curr.trans h.curr
  idle := h'.idle.trans h.idle
  stop := h'.stop.trans h.stop
  group := h'.group.trans h.group
  needResched_of_ne p hp := by
    rw [h'.needResched_of_ne p (by rwa [h.curr]), h.needResched_of_ne p hp]
  needResched_curr hn := by
    have hn' := h.needResched_curr hn
    rw [← h.curr] at hn' ⊢
    exact h'.needResched_curr hn'

end Frame

namespace Quiet

variable {s s' s'' : State}

/-- Nothing changes. -/
theorem refl (s : State) : Quiet s s :=
  ⟨.refl s, rfl, rfl⟩

/-- Quiet steps compose. -/
theorem trans (h : Quiet s s') (h' : Quiet s' s'') : Quiet s s'' :=
  ⟨h.toFrame.trans h'.toFrame, h'.task.trans h.task, h'.rq.trans h.rq⟩

end Quiet

namespace State

variable (cfg : Config) (env : Env)

/-! ## Accounting -/

/-- A `BUG` touches no task and no queue. -/
theorem bugOn_quiet (s : State) (b : Bool) : Quiet s (s.bugOn b) :=
  ⟨⟨rfl, rfl, rfl, rfl, rfl, fun _ _ => rfl, id⟩, rfl, rfl⟩

/-- `update_rq_clock` moves the clock only. -/
theorem updateRqClock_quiet (s : State) (delta : UInt64) : Quiet s (s.updateRqClock delta) := by
  rw [updateRqClock]
  split
  · exact .refl s
  · exact ⟨⟨rfl, rfl, rfl, rfl, rfl, fun _ _ => rfl, id⟩, rfl, rfl⟩

/-- `update_curr_wrr` moves the time accounts only. -/
theorem updateCurrWrr_quiet (s : State) : Quiet s s.updateCurrWrr := by
  rw [updateCurrWrr]
  split
  · exact .refl s
  · exact ⟨⟨rfl, rfl, rfl, rfl, rfl, fun _ _ => rfl, id⟩, rfl, rfl⟩

/-- `resched_task` moves `TIF_NEED_RESCHED` only. -/
theorem reschedCurr_quiet (s : State) (b : Bool) : Quiet s (s.reschedCurr b) := by
  refine ⟨⟨rfl, rfl, rfl, rfl, rfl, fun p hp => ?_, fun hn => ?_⟩, rfl, rfl⟩
  · simp [reschedCurr, setNeedResched, hp]
  · simp [reschedCurr, setNeedResched, hn]

/-- `update_curr_rt`, as far as the core sees it, only reschedules. -/
theorem updateCurrRt_quiet (s : State) : Quiet s (s.updateCurrRt env) :=
  s.reschedCurr_quiet _

/-- No class changes its queue in `put_prev_task`. -/
theorem classPutPrevTask_quiet (s : State) (p : TaskPtr) : Quiet s (s.classPutPrevTask env p) := by
  unfold classPutPrevTask
  split
  · exact s.updateCurrWrr_quiet
  · exact s.updateCurrRt_quiet env
  all_goals exact .refl s

/-- Neither does the function around it, which may update the clock. -/
theorem putPrevTask_quiet (s : State) (p : TaskPtr) (n : ℕ) : Quiet s (s.putPrevTask env p n) := by
  unfold putPrevTask
  split
  · exact (s.updateRqClock_quiet _).trans (classPutPrevTask_quiet env _ p)
  · exact s.classPutPrevTask_quiet env p

/-- `set_curr_task` starts a new interval of the running task. -/
theorem setCurrTask_quiet (s : State) (p : TaskPtr) : Quiet s (s.setCurrTask p) := by
  unfold setCurrTask
  split
  · exact ⟨⟨rfl, rfl, rfl, rfl, rfl, fun _ _ => rfl, id⟩, rfl, rfl⟩
  all_goals exact .refl s

/-! ## Preemption -/

/-- The hook of the class may reschedule. -/
theorem classCheckPreemptCurr_quiet (s : State) (p : TaskPtr) :
    Quiet s (s.classCheckPreemptCurr env p) := by
  unfold classCheckPreemptCurr
  split
  · exact .refl s
  all_goals exact s.reschedCurr_quiet _

/-- `check_preempt_curr` may reschedule and spare the next clock update. -/
theorem checkPreemptCurr_quiet (s : State) (p : TaskPtr) : Quiet s (s.checkPreemptCurr env p) := by
  have hskip (t : State) :
      Quiet t (if (t.task t.curr).onRq ∧ t.needResched t.curr then { t with skipClockUpdate := 1 }
        else t) := by
    split
    · exact ⟨⟨rfl, rfl, rfl, rfl, rfl, fun _ _ => rfl, id⟩, rfl, rfl⟩
    · exact .refl t
  unfold checkPreemptCurr
  refine Quiet.trans ?_ (hskip _)
  split
  · exact s.classCheckPreemptCurr_quiet env p
  · exact s.reschedCurr_quiet _

/-- `switched_to_rt` may reschedule. -/
theorem switchedToRt_quiet (s : State) (p : TaskPtr) : Quiet s (s.switchedToRt p) := by
  unfold switchedToRt
  split
  · exact s.reschedCurr_quiet _
  · exact .refl s

/-- `switched_to_fair` may reschedule. -/
theorem switchedToFair_quiet (s : State) (p : TaskPtr) : Quiet s (s.switchedToFair env p) := by
  unfold switchedToFair
  split
  · exact s.reschedCurr_quiet _
  · exact s.checkPreemptCurr_quiet env p

/-- `prio_changed_rt` may reschedule. -/
theorem prioChangedRt_quiet (s : State) (p : TaskPtr) (oldprio : ℤ) :
    Quiet s (s.prioChangedRt p oldprio) := by
  unfold prioChangedRt
  split_ifs
  · exact .refl s
  all_goals exact s.reschedCurr_quiet _

/-- `check_class_changed` reschedules at most, whichever hook it calls. -/
theorem checkClassChanged_quiet (s : State) (p : TaskPtr) (prevClass : SchedClass) (oldprio : ℤ) :
    Quiet s (s.checkClassChanged env p prevClass oldprio) := by
  unfold checkClassChanged
  split_ifs
  · split
    · exact s.switchedToRt_quiet p
    · exact .refl s
    · exact s.switchedToFair_quiet env p
    all_goals exact s.reschedCurr_quiet _
  · split
    · exact s.prioChangedRt_quiet p oldprio
    · exact .refl s
    all_goals exact s.reschedCurr_quiet _
  · exact .refl s

/-! ## Picking -/

/-- A class that is asked for a task may start an interval of it. -/
theorem classPickNextTask_quiet (s : State) (c : SchedClass) :
    Quiet s (s.classPickNextTask env c).2 := by
  cases c with
  | wrr =>
    unfold classPickNextTask pickNextTaskWrr
    dsimp only
    split_ifs
    · exact .refl s
    · exact .refl s
    · split <;> exact ⟨⟨rfl, rfl, rfl, rfl, rfl, fun _ _ => rfl, id⟩, rfl, rfl⟩
  | _ => exact .refl s

/-- The walk over the classes leaves queues and tasks alone. -/
theorem pickWalk_quiet (s : State) (cs : List SchedClass) : Quiet s (s.pickWalk env cs).2 := by
  induction cs generalizing s with
  | nil => exact ⟨⟨rfl, rfl, rfl, rfl, rfl, fun _ _ => rfl, id⟩, rfl, rfl⟩
  | cons c cs ih =>
    have hc := s.classPickNextTask_quiet env c
    rw [pickWalk]
    split
    · next h => rwa [h] at hc
    · next h =>
      rw [h] at hc
      exact hc.trans (ih _)

/-- So does `pick_next_task` with its shortcut. -/
theorem pickNextTask_quiet (s : State) : Quiet s (s.pickNextTask env).2 := by
  unfold pickNextTask
  split
  · split
    · exact .refl s
    · exact s.pickWalk_quiet env _
  · exact s.pickWalk_quiet env _

/-- What a class offers: WRR the head of its list, the idle class the idle task, the others a queued
task of their own. -/
theorem classPickNextTask_spec {s : State} {c : SchedClass} {p : TaskPtr}
    (hp : (s.classPickNextTask env c).1 = some p) :
    p = s.idle ∨ s.rq.active.head? = some p ∨
      (s.task p).onRq = true ∧ (s.task p).schedClass ≠ .wrr := by
  have hother {c : SchedClass} (hne : c ≠ .wrr)
      (h : (s.task p).onRq = true ∧ (s.task p).schedClass = c) :
      (s.task p).onRq = true ∧ (s.task p).schedClass ≠ .wrr := ⟨h.1, h.2.symm ▸ hne⟩
  cases c with
  | stop => exact .inr (.inr (hother (by decide) (env.pickStop_queued s p hp)))
  | rt => exact .inr (.inr (hother (by decide) (env.pickRt_queued s p hp)))
  | fair => exact .inr (.inr (hother (by decide) (env.pickFair_queued s p hp)))
  | wrr =>
    unfold classPickNextTask pickNextTaskWrr at hp
    dsimp only at hp
    split_ifs at hp
    split at hp
    · cases hp
    · next head hhead => exact .inr (.inl (hhead.trans hp))
  | idle => exact .inl (Option.some.inj hp).symm

/-- The walk ends at the idle task, the head of the WRR queue or a queued task of another class. -/
theorem pickWalk_spec (s : State) (cs : List SchedClass) :
    (s.pickWalk env cs).1 = s.idle ∨ s.rq.active.head? = some (s.pickWalk env cs).1 ∨
      (s.task (s.pickWalk env cs).1).onRq = true ∧
        (s.task (s.pickWalk env cs).1).schedClass ≠ .wrr := by
  induction cs generalizing s with
  | nil => exact .inl rfl
  | cons c cs ih =>
    have hquiet := s.classPickNextTask_quiet env c
    rw [pickWalk]
    split
    · next p s' h => exact classPickNextTask_spec env (by rw [h])
    · next s' h =>
      -- a class that offers nothing leaves queue and tasks alone
      rw [h] at hquiet
      have hwalk := ih s'
      rwa [hquiet.idle, hquiet.rq, hquiet.task] at hwalk

/-- What `pick_next_task` returns is the idle task, the head of the WRR list, or a queued task of
another class. -/
theorem pickNextTask_spec (s : State) :
    (s.pickNextTask env).1 = s.idle ∨ s.rq.active.head? = some (s.pickNextTask env).1 ∨
      (s.task (s.pickNextTask env).1).onRq = true ∧
        (s.task (s.pickNextTask env).1).schedClass ≠ .wrr := by
  unfold pickNextTask
  split
  · split
    · next p hp => exact classPickNextTask_spec (c := .fair) env hp
    · exact s.pickWalk_spec env _
  · exact s.pickWalk_spec env _

end State

end WrrSched
