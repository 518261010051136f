import WrrSched.Correctness.Ticks
import WrrSched.Correctness.RunQueue

/-!
# How long a WRR task waits

While a WRR task is queued and another task runs, the ticks left to the tasks ahead of it bound the
ticks that are charged to them. Wake-ups and forks join the queue at the tail (`Joins`), sleeps and
yields move the running task away from its place, and a charged tick serves the head.

- `State.deactivatePrev_waits`, `State.classYieldTask_waits`: nobody gets ahead of a waiting task;
- `WaitsInv.next`: what one step of the run does to the slices ahead;
- `waiting_bounded`: the bound, and who is picked when it is reached.
-/

namespace WrrSched

/-- The sum of `time_slice` over the tasks ahead of `p` in the active list. -/
def State.slicesAhead (s : State) (p : TaskPtr) : ℕ :=
  RoundRobin.rank s.roundRobin p

/-! ## Joining the queue -/

/-- The same task runs, in the same class, and the WRR queue is as it was up to tasks that have
joined it at the tail. -/
structure Joins (s s' : State) : Prop where
  curr : s'.curr = s.curr
  active : s.rq.active <+: s'.rq.active
  timeSlice : ∀ p ∈ s.rq.active, (s'.task p).wrr.timeSlice = (s.task p).wrr.timeSlice
  schedClass : (s'.task s.curr).schedClass = (s.task s.curr).schedClass

namespace Joins

variable {s s' s'' : State} {p : TaskPtr}

/-- Nothing happens. -/
theorem refl (s : State) : Joins s s :=
  ⟨rfl, List.prefix_refl _, fun _ _ => rfl, rfl⟩

/-- Two steps after one another. -/
theorem trans (h : Joins s s') (h' : Joins s' s'') : Joins s s'' where
  curr := h'.curr.trans h.curr
  active := h.active.trans h'.active
  timeSlice p hp := (h'.timeSlice p (h.active.subset hp)).trans (h.timeSlice p hp)
  schedClass := by
    have hclass := h'.schedClass
    rw [h.curr] at hclass
    exact hclass.trans h.schedClass

/-- A step that leaves the WRR queue and the running task alone. -/
theorem of_sameWrr (h : SameWrr s s') (hcurr : s'.curr = s.curr)
    (hclass : (s'.task s.curr).schedClass = (s.task s.curr).schedClass) : Joins s s' where
  curr := hcurr
  active := by rw [h.active]
  timeSlice p _ := by rw [h.wrr]
  schedClass := hclass

/-- A step that touches no task and no queue. -/
theorem of_quiet (h : Quiet s s') : Joins s s' :=
  of_sameWrr (.of_quiet h) h.curr (by rw [h.task])

/-- Tasks join at the tail, and only a task that is off the list is changed. -/
theorem of_update {t : TaskStruct} (hcurr : s'.curr = s.curr)
    (hactive : s.rq.active <+: s'.rq.active) (htask : s'.task = Function.update s.task p t)
    (hp : p ∉ s.rq.active) (hclass : t.schedClass = (s.task p).schedClass) : Joins s s' := by
  refine ⟨hcurr, hactive, fun q hq => ?_, ?_⟩
  · have hne : q ≠ p := by
      rintro rfl
      exact hp hq
    rw [htask, Function.update_of_ne hne]
  · rw [htask]
    by_cases hc : s.curr = p
    · rw [hc, Function.update_self, hclass]
    · rw [Function.update_of_ne hc]

/-- A task that waits goes on waiting. -/
theorem waits (h : Joins s s') (hp : p ∈ s.rq.active) :
    RoundRobin.Waits p s.roundRobin s'.roundRobin :=
  .of_joins hp h.active fun q hq => congrArg UInt32.toNat (h.timeSlice q hq)

/-- The running task stays the head of the queue if it was. -/
theorem runsHead (h : Joins s s') (hrun : s.RunsHead) : s'.RunsHead := by
  unfold State.RunsHead
  rw [h.curr, h.schedClass]
  refine hrun.imp (fun hhead => ?_) id
  obtain ⟨l, hl⟩ := h.active
  rw [← hl, List.head?_append, hhead]
  rfl

end Joins

namespace State

variable (cfg : Config) (env : Env) {s : State} {p : TaskPtr}

/-- A change outside the WRR entity and the class. -/
theorem modifyTask_joins (s : State) (p : TaskPtr) {f : TaskStruct → TaskStruct}
    (hwrr : (f (s.task p)).wrr = (s.task p).wrr)
    (hclass : (f (s.task p)).schedClass = (s.task p).schedClass) :
    Joins s (s.modifyTask p f) := by
  refine .of_sameWrr (s.modifyTask_sameWrr p hwrr) rfl ?_
  rw [modifyTask_task]
  by_cases hp : s.curr = p
  · rw [← hp, Function.update_self, hp, hclass]
  · rw [Function.update_of_ne hp]

/-- A task that is off the queue and is not put at the head joins at the tail. -/
theorem enqueueTask_joins (hp : p ∉ s.rq.active) {flags : ℕ} (hflags : flags &&& enqueueHead = 0)
    (n : ℕ) : Joins s (s.enqueueTask cfg env p flags n) := by
  refine .of_update (s.enqueueTask_frame cfg env p flags n).curr ?_
    (s.enqueueTask_task cfg env p flags n) hp (by rw [TaskStruct.enqueued_eq])
  by_cases hwrr : (s.task p).schedClass = .wrr
  · -- without `ENQUEUE_HEAD` a WRR task goes to the tail
    rw [(enqueueTask_rq_wrr cfg env hwrr flags n).1, if_neg (by simp [hflags])]
    show _ <+: s.rq.active.erase p ++ [p]
    rw [List.erase_of_not_mem hp]
    exact List.prefix_append _ _
  · rw [(enqueueTask_rq_other cfg env hwrr flags n).1]

/-- `ttwu_do_wakeup` moves nothing. -/
theorem ttwuDoWakeup_joins (s : State) (p : TaskPtr) : Joins s (s.ttwuDoWakeup env p) := by
  unfold ttwuDoWakeup
  exact (Joins.of_quiet (s.checkPreemptCurr_quiet env p)).trans (modifyTask_joins _ p rfl rfl)

/-- A task that wakes up joins at the end. -/
theorem ttwuActivate_joins (hp : p ∉ s.rq.active) (n : ℕ) :
    Joins s (s.ttwuActivate cfg env p n) := by
  unfold ttwuActivate
  exact (enqueueTask_joins cfg env hp (by decide) n).trans (modifyTask_joins _ p rfl rfl)

end State

namespace QueueInv

variable (cfg : Config) (env : Env) {s : State} {p : TaskPtr}

/-- So it does in `try_to_wake_up`. -/
theorem wakeUp_joins (h : QueueInv s s.onRq) (p : TaskPtr) (state n : ℕ) :
    Joins s (s.wakeUp cfg env p state n) := by
  unfold State.wakeUp
  split_ifs with hstate hon
  · exact .refl s
  · exact s.ttwuDoWakeup_joins env p
  · exact (State.ttwuActivate_joins cfg env (h.notMem (eq_false_of_ne_true hon)) n).trans
      (State.ttwuDoWakeup_joins env _ p)

/-- And in `try_to_wake_up_local`. -/
theorem tryToWakeUpLocal_joins (h : QueueInv s s.onRq) (p : TaskPtr) (n : ℕ) :
    Joins s (s.tryToWakeUpLocal cfg env p n) := by
  rw [State.tryToWakeUpLocal_eq]
  split
  · exact .refl s
  · exact h.wakeUp_joins cfg env p taskNormal n

/-- A new task gets its weight before it joins the queue. -/
theorem wakeUpNewTask_joins (h : QueueInv s s.onRq) (hon : (s.task p).onRq = false) :
    Joins s (s.wakeUpNewTask cfg env p) := by
  have hp : p ∉ s.rq.active := h.notMem hon
  have hrq := s.wrrSetWeight_rq cfg p
  have hweight : Joins s (s.wrrSetWeight cfg p) := by
    refine .of_update (s.wrrSetWeight_frame cfg p).curr (by rw [hrq]) (s.wrrSetWeight_task cfg p) hp
      ?_
    rw [TaskStruct.wrrSetWeight_eq]
  rw [← hrq] at hp
  unfold State.wakeUpNewTask
  exact ((hweight.trans (State.enqueueTask_joins cfg env hp rfl 0)).trans
    (State.modifyTask_joins _ p rfl rfl)).trans (.of_quiet (State.checkPreemptCurr_quiet env _ p))

end QueueInv

/-! ## Leaving the place -/

namespace State

variable (cfg : Config) (env : Env) {s : State} {p : TaskPtr}

/-- A running WRR task that sleeps leaves the queue. -/
theorem parked_roundRobin (hwrr : (s.task s.curr).schedClass = .wrr) :
    (s.parked env).roundRobin = ⟨s.rq.active.erase s.curr, s.roundRobin.slice⟩ := by
  have hactive : (s.dequeueTask env s.curr 0).rq.active = s.rq.active.erase s.curr :=
    (dequeueTask_rq_wrr env hwrr 0).1
  have hslice : (s.parked env).roundRobin.slice = s.roundRobin.slice := by
    funext q
    show ((s.parked env).task q).wrr.timeSlice.toNat = _
    rw [parked_task]
    by_cases hc : q = s.curr
    · rw [hc, Function.update_self]
      rfl
    · rw [Function.update_of_ne hc]
      rfl
  rw [← hslice, ← hactive]
  rfl

/-- A yield takes the running task to the tail. -/
theorem classYieldTask_waits (hp : p ∈ s.rq.active) (hne : s.curr ≠ p) :
    RoundRobin.Waits p s.roundRobin s.classYieldTask.roundRobin := by
  unfold classYieldTask
  split
  · exact .of_moveTail hne hp
  all_goals exact (Joins.refl s).waits hp

end State

namespace Inv

variable {cfg : Config} {env : Env} {s : State} {p : TaskPtr}

variable (env) in
/-- The running task leaves the queue if it goes to sleep, and a worker may join. -/
theorem deactivatePrev_waits (h : Inv cfg s) (hp : p ∈ s.rq.active) (hne : s.curr ≠ p) :
    RoundRobin.Waits p s.roundRobin (s.deactivatePrev cfg env).roundRobin := by
  cases hs : s.sleeps env with
  | true =>
    have hon := h.onRq_of_ne (h.sleeps_ne_idle hs)
    -- a WRR worker joins at the tail of the queue the task has left
    have hqueue : QueueInv (s.parked env) (s.parked env).onRq :=
      h.queue.deactivate env hon (h.taskOk_of_onRq hon).class_ne_idle 0
    have hparked : RoundRobin.Waits p s.roundRobin (s.parked env).roundRobin := by
      -- a WRR task leaves its place in the queue, any other one had none
      by_cases hwrr : (s.task s.curr).schedClass = .wrr
      · rw [State.parked_roundRobin env hwrr]
        exact .of_erase hne hp
      · have hsame : SameWrr s (s.parked env) :=
          (State.dequeueTask_sameWrr env hwrr 0).trans (State.modifyTask_sameWrr _ s.curr rfl)
        rw [hsame.roundRobin]
        exact (Joins.refl s).waits hp
    rw [State.deactivatePrev_of_sleeps cfg env hs]
    split
    · next w hw =>
      exact hparked.trans ((hqueue.tryToWakeUpLocal_joins cfg env w 1).waits hparked.mem)
    · exact hparked
  | false =>
    rcases State.deactivatePrev_of_not_sleeps cfg env hs with hd | hd
    · rw [hd]
      exact (Joins.refl s).waits hp
    · rw [hd]
      exact (s.modifyTask_joins s.curr rfl rfl).waits hp

variable (env) in
/-- A waiting task does not fall back when another one sleeps. -/
theorem pickState_waits (h : Inv cfg s) (hp : p ∈ s.rq.active) (hne : s.curr ≠ p) :
    RoundRobin.Waits p s.roundRobin (s.pickState cfg env).roundRobin := by
  have hd := h.deactivatePrev_waits env hp hne
  exact hd.trans ((Joins.of_quiet (State.putPrevTask_quiet env _ _ 2)).waits hd.mem)

variable (env) in
/-- So `__schedule` as a whole does not let it fall back. -/
theorem schedule_waits (h : Inv cfg s) (hp : p ∈ s.rq.active) (hne : s.curr ≠ p) :
    RoundRobin.Waits p s.roundRobin (s.schedule cfg env).roundRobin := by
  obtain ⟨htask, hrq, -⟩ := s.schedule_spec cfg env
  have heq : (s.schedule cfg env).roundRobin = (s.pickState cfg env).roundRobin := by
    unfold State.roundRobin
    rw [htask, hrq, s.pickState_task]
  rw [heq]
  exact h.pickState_waits env hp hne

end Inv

/-! ## Steps while a task waits -/

/-- The steps of the run: ticks, `__schedule` with its sleeps and picks, yields, wake-ups, forks and
requests to reschedule. -/
def Op.Waiting : Op → Prop
  | .schedFork _ _ | .wakeUpNewTask _ | .setCurrentState _ | .schedule | .schedulerTick
  | .schedYield | .tryToWakeUp _ _ | .reschedTask => True
  | .rtMutexSetprio _ _ | .setUserNice _ _ | .schedSetscheduler _ _ _ _ _ _ | .schedMoveTask _ _
  | .schedSetStopTask _ _ _ | .initIdleBootupTask | .setGroupPath _ _ => False

/-- Such a step, after which `p` does not run. -/
def State.WaitingStep (cfg : Config) (p : TaskPtr) (s : State) (op : Op) (env : Env) : Prop :=
  op.Waiting ∧ (s.next cfg op env).curr ≠ p

section Steps

variable {cfg : Config} {rule : Rule} {env : Env} {s : State} {p : TaskPtr}

/-- Steps that neither tick nor call `__schedule` only add tasks at the tail. -/
theorem Inv.next_joins (h : Inv cfg s) {op : Op} (hen : s.Enabled rule op env)
    (hop : op.Waiting) (htick : op ≠ .schedulerTick) (hschedule : op ≠ .schedule)
    (hyield : op ≠ .schedYield) : Joins s (s.next cfg op env) := by
  obtain ⟨-, hen⟩ := hen
  cases op with
  | schedFork child mm =>
    -- the child is a fresh task, neither queued nor running
    have hne {q : TaskPtr} (hq : q ∈ s.live) : q ≠ child := by
      rintro rfl
      exact hen.1 hq
    have htask {q : TaskPtr} (hq : q ∈ s.live) :
        (s.next cfg (.schedFork child mm) env).task q = s.task q :=
      Function.update_of_ne (hne hq) _ _
    refine ⟨rfl, List.prefix_refl _, fun q hq => ?_, ?_⟩
    · rw [htask (h.live_of_onRq (h.onRq_of_mem hq))]
    · rw [htask h.curr_live]
  | wakeUpNewTask q =>
    exact h.queue.wakeUpNewTask_joins cfg env ((h.task q hen.1.1 hen.1.2).unstarted hen.2).1
  | setCurrentState state =>
    exact s.modifyTask_joins s.curr (f := fun t => { t with state := state }) rfl rfl
  | tryToWakeUp q state => exact h.queue.wakeUp_joins cfg env q state 0
  | reschedTask => exact .of_quiet (s.reschedCurr_quiet true)
  | schedulerTick => exact absurd rfl htick
  | schedule => exact absurd rfl hschedule
  | schedYield => exact absurd rfl hyield
  | _ => exact hop.elim

variable (env) in
/-- A tick that is charged to the head of the queue takes one off the slices ahead of the others. -/
theorem schedulerTick_slicesAhead (hcfg : cfg.Fits) (hs : (system cfg rule).Reachable s)
    (hwrr : (s.task s.curr).schedClass = .wrr) (hhead : s.rq.active.head? = some s.curr)
    (hp : p ∈ s.rq.active) (hne : s.curr ≠ p) :
    p ∈ (s.schedulerTick cfg env).rq.active ∧
      (s.schedulerTick cfg env).slicesAhead p + 1 = s.slicesAhead p := by
  have hinv := reachable_inv hs
  have hon : (s.task s.curr).onRq = true := hinv.onRq_of_mem (List.mem_of_head? hhead)
  have hok := reachable_sliceOk hcfg hs s.curr hinv.curr_live (hinv.ne_idle_of_onRq hon)
  have hpos := (hok.slice hon hwrr).1
  obtain ⟨hserve, -⟩ := State.schedulerTick_roundRobin env hcfg hwrr hhead hinv.queue.nodup hpos
    hok.weight_le
  -- `p` is behind the task that is served
  obtain ⟨t, ht⟩ := List.head?_eq_some_iff.mp hhead
  have hrr : s.roundRobin = ⟨s.curr :: t, s.roundRobin.slice⟩ := by
    rw [← ht]
    rfl
  have hpt : p ∈ t := by
    rw [ht] at hp
    exact (List.mem_cons.mp hp).resolve_left hne.symm
  constructor
  · have hmem : p ∈ (s.schedulerTick cfg env).roundRobin.queue := by
      rw [hserve]
      exact (RoundRobin.serve_perm _ _).mem_iff.mpr hp
    exact hmem
  · unfold State.slicesAhead
    rw [hserve, hrr]
    exact RoundRobin.rank_serve _ (ht ▸ hinv.queue.nodup) hne hpt hpos

/-- No step raises the slices ahead of a waiting task, and a charged tick lowers them. -/
theorem next_slicesAhead (hcfg : cfg.Fits) (hs : (system cfg rule).Reachable s) {op : Op}
    (hen : s.Enabled rule op env) (hop : op.Waiting) (hrun : op = .schedulerTick → s.RunsHead)
    (hp : p ∈ s.rq.active) (hne : s.curr ≠ p) :
    p ∈ (s.next cfg op env).rq.active ∧
      (s.chargedBy op).length + (s.next cfg op env).slicesAhead p ≤ s.slicesAhead p := by
  have hinv := reachable_inv hs
  have hwaits {s' : State} (h : RoundRobin.Waits p s.roundRobin s'.roundRobin) :
      p ∈ s'.rq.active ∧ 0 + s'.slicesAhead p ≤ s.slicesAhead p := by
    rw [Nat.zero_add]
    exact ⟨h.mem, h.rank_le⟩
  by_cases htick : op = .schedulerTick
  · subst htick
    show p ∈ (s.schedulerTick cfg env).rq.active ∧ s.charged.length +
      (s.schedulerTick cfg env).slicesAhead p ≤ _
    unfold State.charged
    split
    · next hwrr =>
      have hhead := (hrun rfl).resolve_right (not_not.mpr hwrr)
      obtain ⟨hmem, hrank⟩ := schedulerTick_slicesAhead env hcfg hs hwrr hhead hp hne
      rw [List.length_singleton, Nat.add_comm, hrank]
      exact ⟨hmem, le_refl _⟩
    · next hwrr =>
      refine hwaits ((Joins.of_sameWrr ?_ (s.schedulerTick_frame cfg env).curr ?_).waits hp)
      · have hrq := State.schedulerTick_rq_of_ne_wrr cfg env hwrr
        exact ⟨by rw [hrq], by rw [hrq], by rw [hrq], fun q => by
          rw [State.schedulerTick_task, if_neg hwrr]⟩
      · rw [State.schedulerTick_task, if_neg hwrr]
  by_cases hschedule : op = .schedule
  · subst hschedule
    exact hwaits (hinv.schedule_waits env hp hne)
  by_cases hyield : op = .schedYield
  · subst hyield
    -- `sched_yield` requeues the running task and then calls `__schedule`
    have hyielded := s.classYieldTask_waits hp hne
    have hinv' := (hinv.of_callsSchedule (.inr ⟨hen, rfl⟩)).1
    exact hwaits (hyielded.trans
      (hinv'.schedule_waits env hyielded.mem (s.classYieldTask_frame.curr ▸ hne)))
  have hcharged : s.chargedBy op = [] := by
    cases op <;> first | rfl | exact absurd rfl htick
  rw [hcharged]
  exact hwaits ((hinv.next_joins hen hop htick hschedule hyield).waits hp)

/-- The running WRR task is the head of the queue unless a reschedule is pending. -/
theorem next_runsHead (h : Inv cfg s) {op : Op} (hen : s.Enabled rule op env)
    (hop : op.Waiting) {pending : Bool} (hpending : op = .schedulerTick → pending = false)
    (hrun : pending = true ∨ s.RunsHead) :
    s.pendingAfter cfg op env pending = true ∨ (s.next cfg op env).RunsHead := by
  by_cases htick : op = .schedulerTick
  · subst htick
    exact State.tickResched_or_runsHead (hrun.resolve_left (by rw [hpending rfl]; decide))
  by_cases hschedule : op = .schedule
  · subst hschedule
    exact .inr (State.schedule_runsHead h.idle_class)
  by_cases hyield : op = .schedYield
  · subst hyield
    exact .inr (State.schedule_runsHead (h.of_callsSchedule (.inr ⟨hen, rfl⟩)).1.idle_class)
  have hafter : s.pendingAfter cfg op env pending = pending := by
    cases op <;> first | rfl | contradiction
  rw [hafter]
  exact hrun.imp id (h.next_joins hen hop htick hschedule hyield).runsHead

/-- What a run in which `p` waits keeps. -/
structure WaitsInv (s : State) (p : TaskPtr) (x : Ticking) : Prop where
  mem : p ∈ x.state.rq.active
  curr_ne : x.state.curr ≠ p
  runsHead : x.pending = true ∨ x.state.RunsHead
  notMem : p ∉ x.charged
  bound : x.charged.length + x.state.slicesAhead p ≤ s.slicesAhead p

/-- The waiting task in every state of such a run. -/
theorem reachable_waitsInv (hcfg : cfg.Fits) (hs : (system cfg rule).Reachable s)
    (hp : p ∈ s.rq.active) (hne : s.curr ≠ p) (hhead : s.RunsHead) {x : Ticking}
    (hx : (ticking cfg rule (State.WaitingStep cfg p) s).Reachable x) : WaitsInv s p x := by
  refine hx.invariant_with (J := fun x => (system cfg rule).Reachable x.state)
    (fun x hx => Ticking.reachable hs hx) ?_ ?_
  · rintro x rfl
    exact ⟨hp, hne, .inr hhead, List.not_mem_nil, by simp⟩
  · rintro x ⟨op, env⟩ hr h ⟨hen, ⟨hop, hnext⟩, hpending⟩
    obtain ⟨hmem, hrank⟩ := next_slicesAhead hcfg hr hen hop
      (fun htick => h.runsHead.resolve_left (by rw [hpending htick]; decide)) h.mem h.curr_ne
    refine ⟨hmem, hnext, next_runsHead (reachable_inv hr) hen hop hpending h.runsHead, ?_, ?_⟩
    · -- only the running task is charged, and `p` does not run
      show p ∉ x.charged ++ x.state.chargedBy op
      have hcharged : p ∉ x.state.chargedBy op := by
        unfold State.chargedBy State.charged
        split
        · split
          · exact fun h' => h.curr_ne (List.mem_singleton.mp h').symm
          · exact List.not_mem_nil
        · exact List.not_mem_nil
      exact fun h' => (List.mem_append.mp h').elim h.notMem hcharged
    · have hbound := h.bound
      show (x.charged ++ x.state.chargedBy op).length + (x.state.next cfg op env).slicesAhead p ≤ _
      rw [List.length_append]
      dsimp only at hrank
      omega

/-- Nothing is ahead of a task only if it is the head of the queue. -/
theorem slicesAhead_eq_zero (hcfg : cfg.Fits) (hs : (system cfg rule).Reachable s)
    (hp : p ∈ s.rq.active) (h : s.slicesAhead p = 0) : s.rq.active.head? = some p := by
  have hinv := reachable_inv hs
  refine (RoundRobin.rank_eq_zero_iff hp fun q hq => ?_).mp h
  have hon := hinv.onRq_of_mem hq
  exact ((reachable_sliceOk hcfg hs q (hinv.live_of_onRq hon) (hinv.ne_idle_of_onRq hon)).slice
    hon (hinv.class_of_mem hq)).1

/-- While `p` waits, no step raises the slices ahead of it, and every tick charged to another WRR
task takes one off. So at most as many ticks are charged as the slices ahead of it were at the
start, and after that many `p` is what an unthrottled `pick_next_task_wrr` returns. -/
theorem waiting_bounded (hcfg : cfg.Fits) (hs : (system cfg rule).Reachable s)
    (hp : p ∈ s.rq.active) (hne : s.curr ≠ p) (hhead : s.RunsHead) {x : Ticking}
    (hx : (ticking cfg rule (State.WaitingStep cfg p) s).Reachable x) :
    (∀ op env, x.state.Enabled rule op env → op.Waiting →
        (op = .schedulerTick → x.pending = false) →
        (x.state.chargedBy op).length + (x.state.next cfg op env).slicesAhead p ≤
          x.state.slicesAhead p) ∧
      p ∈ x.state.rq.active ∧ p ∉ x.charged ∧
      x.charged.length + x.state.slicesAhead p ≤ s.slicesAhead p ∧
      (x.charged.length = s.slicesAhead p → ∀ env t, x.state.CallsSchedule rule env t →
        wrrThrottled env.tvNsec = false →
          ((t.pickState cfg env).pickNextTaskWrr env.tvNsec).1 = some p) := by
  have hr := Ticking.reachable hs hx
  have hinv := reachable_inv hr
  have h := reachable_waitsInv hcfg hs hp hne hhead hx
  refine ⟨fun op env hen hop hpending => ?_, h.mem, h.notMem, h.bound,
    fun hlen env t ht hthrottled => ?_⟩
  · exact (next_slicesAhead hcfg hr hen hop
      (fun htick => h.runsHead.resolve_left (by rw [hpending htick]; decide)) h.mem h.curr_ne).2
  · have hzero : x.state.slicesAhead p = 0 := by
      have hbound := h.bound
      omega
    have hfirst := slicesAhead_eq_zero hcfg hr h.mem hzero
    -- the yield and the sleep of the running task leave `p` where it is
    have hcalled : RoundRobin.Waits p x.state.roundRobin t.roundRobin ∧ t.curr ≠ p := by
      rcases ht with ⟨-, rfl⟩ | ⟨-, rfl⟩
      · exact ⟨(Joins.refl x.state).waits h.mem, h.curr_ne⟩
      · exact ⟨x.state.classYieldTask_waits h.mem h.curr_ne,
          x.state.classYieldTask_frame.curr ▸ h.curr_ne⟩
    obtain ⟨hwaits, hcurr⟩ := hcalled
    have hpick := ((hinv.of_callsSchedule ht).1.pickState_waits env hwaits.mem hcurr).head?
      (hwaits.head? hfirst)
    have hq := hinv.queue_of_callsSchedule ht
    -- `p` is queued, so `pick_next_task_wrr` does not leave at its first test
    have hnr : (t.pickState cfg env).rq.wrrNrRunning ≠ 0 := by
      rw [Ne, hq.wrrNrRunning_eq_zero_iff]
      intro hnil
      rw [State.roundRobin, hnil] at hpick
      cases hpick
    rw [State.pickNextTaskWrr_of_head hnr hthrottled hpick]

/-- The second of two tasks waits for the one tick the first one has left, and is picked then. -/
theorem waiting_bounded_small :
    Small.wrrAB.slicesAhead Small.taskB = 1 ∧
      ((((Small.wrrAB.next Small.cfg .schedulerTick (Small.env [] 72)).pickState Small.cfg
        (Small.env [] 72)).pickNextTaskWrr 72).1 = some Small.taskB) := by
  have hcfg : Small.cfg.Fits := ⟨by decide, by decide⟩
  let T := ticking Small.cfg .any (State.WaitingStep Small.cfg Small.taskB) Small.wrrAB
  have hen : T.enabled ⟨Small.wrrAB, false, []⟩ (.schedulerTick, Small.env [] 72) :=
    ⟨⟨Small.no_worker _ _ _, trivial⟩, ⟨trivial, by decide⟩, fun _ => rfl⟩
  have hstep := (TransitionSystem.Reachable.init (T := T) rfl).step hen
  obtain ⟨-, -, -, -, hpick⟩ := waiting_bounded hcfg Small.wrrAB_reachable (by decide) (by decide)
    (.inl (by decide)) hstep
  exact ⟨by decide, hpick (by decide) (Small.env [] 72) _
    (.inl ⟨⟨Small.no_worker _ _ _, trivial⟩, rfl⟩) (by decide)⟩

end Steps

end WrrSched
