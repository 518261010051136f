import WrrSched.Correctness.RunQueue

/-!
# Throttling and the idle task

`pick_next_task_wrr` returns `NULL` while the class is throttled. If no other class has a task, the
idle class is asked last and the idle task runs; its tick does nothing, `__schedule` has cleared the
request to reschedule, and no timer looks at the WRR queue again.

- `pickNextTask_eq_idle_iff`: when the idle task is picked;
- `schedule_not_stranded_iff`: when `__schedule` leaves no WRR task behind the idle task;
- `schedule_stranded`: a run in which it leaves one.
-/

namespace WrrSched

namespace State

variable {cfg : Config} {env : Env} {s : State}

/-- The idle task runs, nothing will reschedule it, and WRR tasks are runnable. -/
def Stranded (s : State) : Prop :=
  s.curr = s.idle ∧ s.needResched s.idle = false ∧ 0 < s.rq.wrrNrRunning.toNat

/-- Another class than WRR has a task to offer when `__schedule` asks. -/
def OthersOffer (cfg : Config) (s : State) (env : Env) : Prop :=
  env.pickStop (s.pickState cfg env) ≠ none ∨ env.pickRt (s.pickState cfg env) ≠ none ∨
    env.pickFair (s.pickState cfg env) ≠ none

/-- A WRR task stays runnable when `__schedule` has put the running task to sleep, or is woken up as
a worker then. -/
def StaysRunnable (s : State) (env : Env) (p : TaskPtr) : Prop :=
  (p ∈ s.rq.active ∧ ¬(s.sleeps env = true ∧ p = s.curr)) ∨
    s.sleeps env = true ∧ p ≠ s.curr ∧ env.toWakeup = some p ∧
      (s.task p).state &&& taskNormal ≠ 0 ∧ (s.task p).schedClass = .wrr

/-! ## The pick -/

/-- WRR returns `NULL` if its list is empty or the class is throttled. -/
theorem pickNextTaskWrr_of_none (h : s.rq.wrrNrRunning = 0 ∨ wrrThrottled env.tvNsec = true) :
    s.classPickNextTask env .wrr = (none, s) := by
  rw [classPickNextTask, pickNextTaskWrr]
  split
  · rfl
  · next hnr => rw [if_pos (h.resolve_left hnr)]

end State

namespace QueueInv

variable {cfg : Config} {env : Env} {s : State}

/-- The class walk ends at the idle task if and only if no class offers another one. -/
theorem pickWalk_eq_idle_iff (h : QueueInv s s.onRq) (hidle : (s.task s.idle).onRq = false) :
    (s.pickWalk env forEachClass).1 = s.idle ↔
      env.pickStop s = none ∧ env.pickRt s = none ∧ env.pickFair s = none ∧
        (s.rq.wrrNrRunning = 0 ∨ wrrThrottled env.tvNsec = true) := by
  have hqueued (p : TaskPtr) (hp : (s.task p).onRq = true) : p ≠ s.idle := by
    rintro rfl
    rw [hidle] at hp
    cases hp
  rw [forEachClass]
  -- one class after the other: what a class offers is queued, and so is not the idle task
  cases hstop : env.pickStop s with
  | some p =>
    rw [State.pickWalk_cons_some (p := p) (by rw [State.classPickNextTask, hstop])]
    have hne := hqueued p (env.pickStop_queued s p hstop).1
    simp [hne]
  | none =>
    rw [State.pickWalk_cons_none (by rw [State.classPickNextTask, hstop])]
    cases hrt : env.pickRt s with
    | some p =>
      rw [State.pickWalk_cons_some (p := p) (by rw [State.classPickNextTask, hrt])]
      have hne := hqueued p (env.pickRt_queued s p hrt).1
      simp [hne]
    | none =>
      rw [State.pickWalk_cons_none (by rw [State.classPickNextTask, hrt])]
      by_cases hwrr : s.rq.wrrNrRunning = 0 ∨ wrrThrottled env.tvNsec = true
      · rw [State.pickWalk_cons_none (State.pickNextTaskWrr_of_none hwrr)]
        cases hfair : env.pickFair s with
        | some p =>
          rw [State.pickWalk_cons_some (p := p) (by rw [State.classPickNextTask, hfair])]
          have hne := hqueued p (env.pickFair_queued s p hfair).1
          simp [hne]
        | none =>
          rw [State.pickWalk_cons_none (by rw [State.classPickNextTask, hfair]),
            State.pickWalk_cons_some (p := s.idle) rfl]
          simp [hwrr]
      · rw [not_or] at hwrr
        have hthrottled := eq_false_of_ne_true hwrr.2
        obtain ⟨p, hhead, hpick, -⟩ := h.picksHead env.tvNsec hwrr.1 hthrottled
        have hoffer : (s.classPickNextTask env .wrr).1 = some p := hpick
        rw [State.pickWalk_cons_some hoffer]
        have hne := hqueued p ((h.mem_iff p).mp (List.mem_of_head? hhead)).1
        simp [hne, hwrr]

variable (env) in
/-- The fast path offers a queued task, so that the idle task is only picked by the walk. -/
theorem pickNextTask_eq_idle_iff (h : QueueInv s s.onRq)
    (hidle : (s.task s.idle).onRq = false) :
    (s.pickNextTask env).1 = s.idle ↔
      env.pickStop s = none ∧ env.pickRt s = none ∧ env.pickFair s = none ∧
        (s.rq.wrrNrRunning = 0 ∨ wrrThrottled env.tvNsec = true) := by
  rw [← h.pickWalk_eq_idle_iff hidle]
  unfold State.pickNextTask
  split
  · next heq =>
    split
    · next p hp => rw [(h.fastPathSound env).fair p heq hp |>.2]
    · rfl
  · rfl

end QueueInv

namespace Inv

variable {cfg : Config} {env : Env} {s : State}

/-- The WRR queue at the pick: the running task leaves it if it goes to sleep, and a worker may
join. -/
theorem mem_pickState_iff (h : Inv cfg s) (hworker : ∀ w, env.toWakeup = some w → s.Target w)
    (p : TaskPtr) : p ∈ (s.pickState cfg env).rq.active ↔ s.StaysRunnable env p := by
  have hmem := (h.pickState env hworker).mem_iff p
  unfold State.onRq at hmem
  rw [s.pickState_task] at hmem
  rw [hmem, State.StaysRunnable, h.queue.mem_iff, State.onRq]
  by_cases hp : p = s.curr
  · subst hp
    rw [State.deactivatePrev_task_curr]
    -- the running task leaves the queue if it goes to sleep, whatever its class
    by_cases hs : s.sleeps env = true
    · have hoff : ((s.task s.curr).deactivate env).onRq = false := by
        have hcond := hs
        simp only [State.sleeps, Bool.and_eq_true, decide_eq_true_eq, Bool.not_eq_true'] at hcond
        rw [TaskStruct.deactivate, if_pos hcond.1, if_neg (by simp [hcond.2])]
      simp [hoff, hs]
    · have hsame : ((s.task s.curr).deactivate env).onRq = (s.task s.curr).onRq := by
        unfold TaskStruct.deactivate
        split_ifs with hcond hsig
        · rfl
        · exact absurd (by simp [State.sleeps, hcond.1, hcond.2, hsig]) hs
        · rfl
      rw [hsame, TaskStruct.deactivate_eq]
      simp [hs]
  · rw [State.deactivatePrev_task_of_ne cfg env s hp]
    -- another task can only be the worker that is woken up
    by_cases hw : s.sleeps env = true ∧ env.toWakeup = some p
    · rw [if_pos hw, TaskStruct.wake]
      by_cases hstate : (s.task p).state &&& taskNormal = 0
      · simp [hp, hw, hstate]
      · cases hon : (s.task p).onRq with
        | true => simp [hp, hw, hstate]
        | false =>
          rw [TaskStruct.enqueued_eq]
          simp [hp, hw, hstate]
    · rw [if_neg hw]
      simp only [hp, and_false, not_false_eq_true, and_true, ne_eq, true_and]
      constructor
      · exact .inl
      · rintro (h | ⟨hs, ht, -⟩)
        · exact h
        · exact absurd ⟨hs, ht⟩ hw

/-- When `__schedule` strands WRR tasks. -/
theorem schedule_stranded_iff (h : Inv cfg s)
    (hworker : ∀ w, env.toWakeup = some w → s.Target w) :
    (s.schedule cfg env).Stranded ↔ wrrThrottled env.tvNsec = true ∧ ¬s.OthersOffer cfg env ∧
      ∃ p, s.StaysRunnable env p := by
  have hq := h.pickState env hworker
  obtain ⟨htask, hrq, hcurr, -, -, hidle, -⟩ := s.schedule_spec cfg env
  have hoff : ((s.pickState cfg env).task (s.pickState cfg env).idle).onRq = false := by
    rw [s.pickState_task, ← htask, (s.pickState_frame cfg env).idle, ← hidle]
    exact (h.schedule env hworker).idle_onRq
  -- nothing is pending after `__schedule`, so what remains is whether idle is picked
  have hclear : (s.schedule cfg env).needResched s.idle = false :=
    h.schedule_needResched env s.idle
  have hnr : 0 < (s.pickState cfg env).rq.wrrNrRunning.toNat ↔ ∃ p, s.StaysRunnable env p := by
    rw [hq.toNat_wrrNrRunning, List.length_pos_iff_exists_mem]
    exact exists_congr fun p => h.mem_pickState_iff hworker p
  have hzero : (s.pickState cfg env).rq.wrrNrRunning = 0 ↔ ¬∃ p, s.StaysRunnable env p := by
    rw [← hnr, Nat.not_lt, Nat.le_zero, ← UInt32.toNat_inj]
    rfl
  have hpick := hq.pickNextTask_eq_idle_iff env hoff
  rw [(s.pickState_frame cfg env).idle] at hpick
  unfold State.Stranded State.OthersOffer
  rw [hidle, hcurr, hclear, hrq, hpick, hnr, hzero]
  constructor
  · rintro ⟨⟨hstop, hrt, hfair, hwrr⟩, -, hsome⟩
    refine ⟨hwrr.resolve_left (not_not.mpr hsome), ?_, hsome⟩
    rintro (h | h | h)
    · exact h hstop
    · exact h hrt
    · exact h hfair
  · rintro ⟨hthrottled, hnone, hsome⟩
    rw [not_or, not_or, not_not, not_not, not_not] at hnone
    exact ⟨⟨hnone.1, hnone.2.1, hnone.2.2, .inr hthrottled⟩, rfl, hsome⟩

end Inv

/-! ## Reachable states -/

section Reachable

variable {cfg : Config} {rule : Rule} {env : Env} {s t : State}

/-- After `__schedule`, in every reachable state, no WRR task is stranded behind the idle task if
and only if the class is not throttled, another class offers a task, or no WRR task is runnable. -/
theorem schedule_not_stranded_iff (hs : (system cfg rule).Reachable s)
    (ht : s.CallsSchedule rule env t) :
    ¬(t.schedule cfg env).Stranded ↔
      wrrThrottled env.tvNsec = false ∨ t.OthersOffer cfg env ∨ ∀ p, ¬t.StaysRunnable env p := by
  obtain ⟨hinv, hworker⟩ := (reachable_inv hs).of_callsSchedule ht
  rw [hinv.schedule_stranded_iff hworker, not_and_or, not_and_or, not_not, not_exists,
    Bool.not_eq_true]

/-- The class is not throttled, and the WRR task runs. -/
theorem schedule_not_stranded_small : ¬Small.runA.Stranded := by
  have hs := Small.wrrA_reachable .any trivial 0
  have ht : (Small.setWrr (Small.start [Small.taskA]) Small.taskA 0).CallsSchedule .any
      (Small.env [] 72) (Small.setWrr (Small.start [Small.taskA]) Small.taskA 0) :=
    .inl ⟨⟨Small.no_worker _ _ _, trivial⟩, rfl⟩
  exact (schedule_not_stranded_iff hs ht).mpr (.inl (by decide))

/-- The class is throttled when the only task, one of WRR, could run: the idle task runs instead,
and nothing will reschedule it. -/
theorem schedule_stranded :
    let s := Small.setWrr (Small.start [Small.taskA]) Small.taskA 0
    (system Small.cfg .any).Reachable s ∧ s.Enabled .any .schedule (Small.env [] 0) ∧
      (s.schedule Small.cfg (Small.env [] 0)).Stranded := by
  intro s
  exact ⟨Small.wrrA_reachable .any trivial 0, ⟨Small.no_worker _ _ _, trivial⟩, by decide,
    by decide, by decide⟩

end Reachable

end WrrSched
