import WrrSched.Lib.RoundRobin
import WrrSched.Correctness.Weights

/-!
# Ticks and the WRR queue

The active list with the slices of its tasks is a `RoundRobin`. A tick of a WRR task at the head of
the list serves it once, and `__schedule` leaves the head of the list, or a task of another class,
running. `ticking` is the scheduler in runs of which the ticks are counted, in which `__schedule`
follows a tick that asks for it.

- `State.schedulerTick_roundRobin`: a tick that is charged is one `RoundRobin.serve`;
- `State.schedule_runsHead`: what runs after `__schedule`;
- `State.tickResched_or_runsHead`: after a tick that does not ask for a reschedule, the head still
  runs.
-/

namespace WrrSched

namespace State

variable (cfg : Config) (env : Env) (s : State)

/-! ## The queue as a round robin -/

/-- The active list with the ticks that remain to each task. -/
def roundRobin : RoundRobin TaskPtr where
  queue := s.rq.active
  slice p := (s.task p).wrr.timeSlice.toNat

/-- The ticks of a full slice. -/
def quota (p : TaskPtr) : ℕ := (s.task p).wrr.weight.toNat * cfg.wrrWeightUnit.toNat

/-- The running task is the head of the list or not a WRR task. -/
def RunsHead : Prop :=
  s.rq.active.head? = some s.curr ∨ (s.task s.curr).schedClass ≠ .wrr

/-- The task `task_tick_wrr` charges with a tick, if any. -/
def charged : List TaskPtr :=
  if (s.task s.curr).schedClass = .wrr then [s.curr] else []

/-- The tick sets `need_resched`, whether or not it was set before. -/
def tickResched : Bool :=
  ({ s with needResched := fun _ => false }.schedulerTick cfg env).needResched s.curr

/-! ## The tick -/

variable {cfg env s}

/-- The tick of a WRR task is that of its class. -/
theorem schedulerTick_of_wrr (hwrr : (s.task s.curr).schedClass = .wrr) :
    s.schedulerTick cfg env =
      (s.updateRqClock (env.clockDelta 0)).taskTickWrr cfg s.curr env.tvNsec := by
  have hq := s.updateRqClock_quiet (env.clockDelta 0)
  unfold schedulerTick taskTick
  dsimp only
  rw [hq.curr, hq.task, hwrr]

theorem schedulerTick_rq_of_ne_wrr (cfg : Config) (env : Env)
    (hwrr : (s.task s.curr).schedClass ≠ .wrr) :
    (s.schedulerTick cfg env).rq = s.rq := by
  have hq := s.updateRqClock_quiet (env.clockDelta 0)
  unfold schedulerTick taskTick
  dsimp only
  rw [← hq.curr, ← hq.task] at hwrr
  rw [← hq.rq]
  split
  · next h => exact absurd h hwrr
  all_goals rfl

/-- At the head of the list, only the other tasks make both neighbours differ. -/
theorem listPrev_ne_listNext_iff {p : TaskPtr} {l : List TaskPtr} (hnodup : (p :: l).Nodup) :
    listPrev p (p :: l) ≠ listNext p (p :: l) ↔ l ≠ [] := by
  have hprev : listPrev p ([] ++ p :: l) = none := listPrev_append (List.nodup_cons.mp hnodup).1
  have hnext : listNext p ([] ++ p :: l) = l.head? := listNext_append List.not_mem_nil
  rw [List.nil_append] at hprev hnext
  rw [hprev, hnext, ne_comm, Ne, List.head?_eq_none_iff]

/-- What the tick of the head of the list does to the run queue: a slice that is used up sends it to
the tail. The code does not requeue a task that is alone, which would not move. -/
theorem taskTickWrr_rq (cfg : Config) {p : TaskPtr} {l : List TaskPtr} (tvNsec : ℕ)
    (hactive : s.rq.active = p :: l) (hnodup : (p :: l).Nodup)
    (hpos : 0 < (s.task p).wrr.timeSlice.toNat) :
    (s.taskTickWrr cfg p tvNsec).rq =
      { s.rq with active := if (s.task p).wrr.timeSlice.toNat = 1 then l ++ [p] else p :: l } := by
  rcases Nat.lt_or_ge 1 (s.task p).wrr.timeSlice.toNat with hlt | hle
  · rw [taskTickWrr_of_one_lt cfg tvNsec hlt, if_neg hlt.ne', ← hactive]
    exact s.updateCurrWrr_quiet.rq
  · have hone : (s.task p).wrr.timeSlice.toNat = 1 := by omega
    rw [taskTickWrr_of_le_one cfg tvNsec hle, if_pos hone]
    split
    · show { (s.refilled cfg p).rq with active := listMoveTail p (s.refilled cfg p).rq.active } = _
      rw [refilled_rq, hactive, listMoveTail, List.erase_cons_head]
    · next hstay =>
      -- a task that is not requeued is alone, or else its neighbours would differ
      have hnil : l = [] := by
        by_contra hl
        rw [hactive] at hstay
        exact hstay (.inl ((listPrev_ne_listNext_iff hnodup).mpr hl))
      rw [refilled_rq, hnil, List.nil_append, ← hnil, ← hactive]

/-- The tick takes one off the slice of the running task, or fills it. -/
theorem schedulerTick_timeSlice (env : Env) (hcfg : cfg.Fits)
    (hwrr : (s.task s.curr).schedClass = .wrr)
    (hpos : 0 < (s.task s.curr).wrr.timeSlice.toNat)
    (hweight : (s.task s.curr).wrr.weight.toNat ≤ maxWeight) :
    (s.schedulerTick cfg env).roundRobin.slice =
      Function.update s.roundRobin.slice s.curr
        (if s.roundRobin.slice s.curr = 1 then s.quota cfg s.curr
          else s.roundRobin.slice s.curr - 1) := by
  funext p
  show ((s.schedulerTick cfg env).task p).wrr.timeSlice.toNat = _
  rw [schedulerTick_task, if_pos hwrr]
  by_cases hp : p = s.curr
  · -- a slice of one is used up by this tick and filled again
    rw [hp, Function.update_self, Function.update_self, TaskStruct.tickWrr]
    show _ = if (s.task s.curr).wrr.timeSlice.toNat = 1 then _
      else (s.task s.curr).wrr.timeSlice.toNat - 1
    by_cases hone : (s.task s.curr).wrr.timeSlice.toNat = 1
    · rw [if_pos hone.le, if_pos hone]
      exact hcfg.toNat_mul hweight
    · have hle : 1 ≤ (s.task s.curr).wrr.timeSlice := UInt32.le_iff_toNat_le.mpr hpos
      rw [if_neg (by omega), if_neg hone]
      exact UInt32.toNat_sub_of_le _ _ hle
  · rw [Function.update_of_ne hp, Function.update_of_ne hp]
    rfl

/-- A tick that is charged to the head of the list serves it once. -/
theorem schedulerTick_roundRobin (env : Env) (hcfg : cfg.Fits)
    (hwrr : (s.task s.curr).schedClass = .wrr)
    (hhead : s.rq.active.head? = some s.curr) (hnodup : s.rq.active.Nodup)
    (hpos : 0 < (s.task s.curr).wrr.timeSlice.toNat)
    (hweight : (s.task s.curr).wrr.weight.toNat ≤ maxWeight) :
    (s.schedulerTick cfg env).roundRobin = RoundRobin.serve (s.quota cfg) s.roundRobin ∧
      (s.schedulerTick cfg env).rq =
        { s.rq with active := (RoundRobin.serve (s.quota cfg) s.roundRobin).queue } := by
  obtain ⟨l, hactive⟩ := List.head?_eq_some_iff.mp hhead
  have hq := s.updateRqClock_quiet (env.clockDelta 0)
  have hslice := schedulerTick_timeSlice env hcfg hwrr hpos hweight
  have hrq : (s.schedulerTick cfg env).rq =
      { s.rq with active := if s.roundRobin.slice s.curr = 1 then l ++ [s.curr]
          else s.curr :: l } := by
    rw [schedulerTick_of_wrr hwrr, taskTickWrr_rq cfg env.tvNsec (hq.rq ▸ hactive)
      (hactive ▸ hnodup) (hq.task.symm ▸ hpos), hq.rq, hq.task]
    rfl
  have hserve : RoundRobin.serve (s.quota cfg) s.roundRobin =
      ⟨if s.roundRobin.slice s.curr = 1 then l ++ [s.curr] else s.curr :: l,
        (s.schedulerTick cfg env).roundRobin.slice⟩ := by
    rw [hslice, RoundRobin.serve]
    simp only [roundRobin, hactive]
    split_ifs <;> rfl
  have hqueue := congrArg RunQueue.active hrq
  rw [hserve]
  refine ⟨?_, hrq⟩
  show (⟨(s.schedulerTick cfg env).rq.active, _⟩ : RoundRobin TaskPtr) = _
  rw [hqueue]
  rfl

/-- A tick that moves a task in the list sets `need_resched`. -/
theorem taskTickWrr_rq_or_resched (cfg : Config) (s : State) (p : TaskPtr) (tvNsec : ℕ) :
    (s.taskTickWrr cfg p tvNsec).rq = s.rq ∨
      ∀ s' : State, s'.task = s.task → s'.rq = s.rq →
        (s'.taskTickWrr cfg p tvNsec).needResched p = true := by
  rcases Nat.lt_or_ge 1 (s.task p).wrr.timeSlice.toNat with hlt | hle
  · rw [taskTickWrr_of_one_lt cfg tvNsec hlt]
    exact .inl s.updateCurrWrr_quiet.rq
  · by_cases hmove : listPrev p s.rq.active ≠ listNext p s.rq.active ∨ wrrThrottled tvNsec
    · refine .inr fun s' htask hrq => ?_
      rw [taskTickWrr_of_le_one cfg tvNsec (by rw [htask]; exact hle), hrq, if_pos hmove]
      simp [setNeedResched]
    · rw [taskTickWrr_of_le_one cfg tvNsec hle, if_neg hmove]
      exact .inl (s.refilled_rq cfg p)

/-- After a tick, the head of the list still runs, or the tick has asked for a reschedule. -/
theorem tickResched_or_runsHead (h : s.RunsHead) :
    s.tickResched cfg env = true ∨ (s.schedulerTick cfg env).RunsHead := by
  have hf := s.schedulerTick_frame cfg env
  have hclass : ((s.schedulerTick cfg env).task s.curr).schedClass =
      (s.task s.curr).schedClass := by
    rw [schedulerTick_task]
    split
    · rw [Function.update_self, TaskStruct.tickWrr_eq]
    · rfl
  -- the running task and its class stay, so an unchanged queue is enough
  have hkeep (hrq : (s.schedulerTick cfg env).rq = s.rq) : (s.schedulerTick cfg env).RunsHead := by
    unfold RunsHead
    rw [hrq, hf.curr, hclass]
    exact h
  by_cases hwrr : (s.task s.curr).schedClass = .wrr
  · have hq := s.updateRqClock_quiet (env.clockDelta 0)
    -- either the list is as it was, or the tick sets a `need_resched` that was clear
    rcases taskTickWrr_rq_or_resched cfg (s.updateRqClock (env.clockDelta 0)) s.curr env.tvNsec with
      hrq | hresched
    · refine .inr (hkeep ?_)
      rw [schedulerTick_of_wrr hwrr, hrq, hq.rq]
    · refine .inl ?_
      have hq' := updateRqClock_quiet { s with needResched := fun _ => false } (env.clockDelta 0)
      unfold tickResched
      rw [schedulerTick_of_wrr (s := { s with needResched := fun _ => false }) hwrr]
      exact hresched _ (hq'.task.trans hq.task.symm) (hq'.rq.trans hq.rq.symm)
  · exact .inr (hkeep (schedulerTick_rq_of_ne_wrr cfg env hwrr))

/-! ## The pick -/

/-- What runs after `__schedule` is the head of the list or not a WRR task. -/
theorem schedule_runsHead (hidle : (s.task s.idle).schedClass ≠ .wrr) :
    (s.schedule cfg env).RunsHead := by
  obtain ⟨htask, hrq, hcurr, -⟩ := s.schedule_spec cfg env
  have hf := s.pickState_frame cfg env
  unfold RunsHead
  rw [hrq, hcurr, htask, ← s.pickState_task]
  -- the pick is the idle task, the head of the list, or a task of another class
  rcases (s.pickState cfg env).pickNextTask_spec env with hnext | hhead | ⟨-, hclass⟩
  · refine .inr ?_
    rw [hnext, hf.idle, s.pickState_task, ← htask, schedule_task_eq]
    exact hidle
  · exact .inl hhead
  · exact .inr hclass

end State

/-! ## Steps that keep the queue -/

/-- The WRR queue is as it was, and so are weight and slice of every task. -/
structure SameWrr (s s' : State) : Prop where
  active : s'.rq.active = s.rq.active
  wrrNrRunning : s'.rq.wrrNrRunning = s.rq.wrrNrRunning
  totalWeight : s'.rq.totalWeight = s.rq.totalWeight
  wrr : ∀ p, (s'.task p).wrr = (s.task p).wrr

namespace SameWrr

variable {s s' s'' : State}

theorem refl (s : State) : SameWrr s s :=
  ⟨rfl, rfl, rfl, fun _ => rfl⟩

theorem trans (h : SameWrr s s') (h' : SameWrr s' s'') : SameWrr s s'' where
  active := h'.active.trans h.active
  wrrNrRunning := h'.wrrNrRunning.trans h.wrrNrRunning
  totalWeight := h'.totalWeight.trans h.totalWeight
  wrr p := (h'.wrr p).trans (h.wrr p)

theorem of_quiet (h : Quiet s s') : SameWrr s s' where
  active := by rw [h.rq]
  wrrNrRunning := by rw [h.rq]
  totalWeight := by rw [h.rq]
  wrr p := by rw [h.task]

theorem roundRobin (h : SameWrr s s') : s'.roundRobin = s.roundRobin := by
  unfold State.roundRobin
  rw [h.active]
  congr 1
  funext p
  rw [h.wrr]

end SameWrr

namespace State

variable (cfg : Config) (env : Env) (s : State)

theorem modifyTask_sameWrr (p : TaskPtr) {f : TaskStruct → TaskStruct}
    (hwrr : (f (s.task p)).wrr = (s.task p).wrr) : SameWrr s (s.modifyTask p f) := by
  refine ⟨rfl, rfl, rfl, fun q => ?_⟩
  rw [modifyTask_task]
  by_cases hq : q = p
  · rw [hq, Function.update_self, hwrr]
  · rw [Function.update_of_ne hq]

variable {s}

/-- Queueing a task of another class. -/
theorem enqueueTask_sameWrr {p : TaskPtr} (hwrr : (s.task p).schedClass ≠ .wrr) (flags n : ℕ) :
    SameWrr s (s.enqueueTask cfg env p flags n) := by
  obtain ⟨hactive, hcount, hweight⟩ := enqueueTask_rq_other cfg env hwrr flags n
  refine ⟨hactive, hcount, hweight, fun q => ?_⟩
  rw [enqueueTask_task, TaskStruct.enqueued, if_neg hwrr, Function.update_eq_self]

theorem dequeueTask_sameWrr {p : TaskPtr} (hwrr : (s.task p).schedClass ≠ .wrr) (n : ℕ) :
    SameWrr s (s.dequeueTask env p n) := by
  obtain ⟨hactive, hcount, hweight⟩ := dequeueTask_rq_other env hwrr n
  exact ⟨hactive, hcount, hweight, fun q => by rw [dequeueTask_task]⟩

theorem ttwuDoWakeup_sameWrr (s : State) (p : TaskPtr) : SameWrr s (s.ttwuDoWakeup env p) := by
  have hq := s.checkPreemptCurr_quiet env p
  unfold ttwuDoWakeup
  exact (SameWrr.of_quiet hq).trans (modifyTask_sameWrr _ p rfl)

end State

/-! ## Counted runs -/

/-- The scheduler in a run of which the ticks are counted. -/
structure Ticking where
  /-- The state the run has reached. -/
  state : State
  /-- A tick has set `need_resched`, and `__schedule` has not been called since. -/
  pending : Bool
  /-- The tasks that were charged with a tick so far, in order. -/
  charged : List TaskPtr

/-- Whether a tick waits for its `__schedule` after an operation. -/
def State.pendingAfter (cfg : Config) (s : State) (op : Op) (env : Env) (pending : Bool) : Bool :=
  match op with
  | .schedulerTick => s.tickResched cfg env
  | .schedule | .schedYield => false
  | _ => pending

/-- The tasks an operation charges with a tick. -/
def State.chargedBy (s : State) (op : Op) : List TaskPtr :=
  match op with
  | .schedulerTick => s.charged
  | _ => []

/-- Runs from `s` of the steps `steps` admits, in which no tick comes between a tick that sets
`need_resched` and the next `__schedule`. -/
def ticking (cfg : Config) (rule : Rule) (steps : State → Op → Env → Prop) (s : State) :
    TransitionSystem Ticking (Op × Env) where
  init x := x = ⟨s, false, []⟩
  enabled x i := x.state.Enabled rule i.1 i.2 ∧ steps x.state i.1 i.2 ∧
    (i.1 = .schedulerTick → x.pending = false)
  next x i := ⟨x.state.next cfg i.1 i.2, x.state.pendingAfter cfg i.1 i.2 x.pending,
    x.charged ++ x.state.chargedBy i.1⟩

/-- A counted run from a reachable state stays in reachable states. -/
theorem Ticking.reachable {cfg : Config} {rule : Rule} {steps : State → Op → Env → Prop}
    {s : State} (hs : (system cfg rule).Reachable s) {x : Ticking}
    (hx : (ticking cfg rule steps s).Reachable x) : (system cfg rule).Reachable x.state := by
  refine hx.invariant (I := fun x => (system cfg rule).Reachable x.state) ?_ ?_
  · rintro x rfl
    exact hs
  · rintro x ⟨op, env⟩ hr hen
    exact reachable_next hr hen.1

namespace Small

/-- Two WRR tasks with slices of one and two ticks, the first of them running. -/
def wrrAB : State := wrrPair.next cfg .schedule (env [] 72)

theorem wrrAB_reachable : (system cfg .any).Reachable wrrAB :=
  reachable_next wrrPair_reachable ⟨no_worker _ _ _, trivial⟩

end Small

end WrrSched
