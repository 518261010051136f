import WrrSched.Correctness.Ticks

/-!
# Weighted fairness over whole rounds

From a state with full slices, ticks and calls of `__schedule` that leave the members of the WRR
queue alone simulate `RoundRobin.serve`, one charged tick a unit. Whole rounds therefore share the
ticks by weight and bring the queue back to where it was.

- `State.schedule_sameWrr`: what such a call of `__schedule` leaves alone;
- `RoundsInv`: the simulation, kept by every step of the run;
- `wrr_rounds_fair`: the shares after `k` rounds, and the state of the queue.
-/

namespace WrrSched

/-! ## Calls of `__schedule` that keep the queue -/

namespace State

variable (cfg : Config) (env : Env) {s : State}

/-- Waking up a worker that is not of WRR, or has nothing to be woken up from. -/
theorem tryToWakeUpLocal_sameWrr {p : TaskPtr} (n : ℕ)
    (hwrr : p ≠ s.curr → (s.task p).schedClass = .wrr →
      (s.task p).onRq = true ∨ (s.task p).state &&& taskNormal = 0) :
    SameWrr s (s.tryToWakeUpLocal cfg env p n) := by
  unfold tryToWakeUpLocal
  split_ifs with hcurr hstate hon
  · exact .refl s
  · exact .refl s
  · exact s.ttwuDoWakeup_sameWrr env p
  · -- a WRR worker would be queued already, or the state test would have turned it away
    have hclass : (s.task p).schedClass ≠ .wrr := fun hc => by
      rcases hwrr hcurr hc with h | h
      · exact hon h
      · exact hstate h
    refine SameWrr.trans ?_ (ttwuDoWakeup_sameWrr env _ p)
    unfold ttwuActivate
    exact (enqueueTask_sameWrr cfg env hclass _ n).trans (modifyTask_sameWrr _ p rfl)

/-- `__schedule` takes no WRR task off the queue and puts none on it: no WRR task goes to sleep,
and no WRR worker is woken up. -/
def KeepsWrrQueue (s : State) (env : Env) : Prop :=
  s.sleeps env = true → (s.task s.curr).schedClass ≠ .wrr ∧
    ∀ w, env.toWakeup = some w → (s.task w).schedClass = .wrr →
      (s.task w).onRq = true ∨ (s.task w).state &&& taskNormal = 0

theorem schedule_sameWrr (h : s.KeepsWrrQueue env) : SameWrr s (s.schedule cfg env) := by
  have hdeactivate : SameWrr s (s.deactivatePrev cfg env) := by
    cases hs : s.sleeps env with
    | true =>
      obtain ⟨hcurr, hworker⟩ := h hs
      have hparked : SameWrr s (s.parked env) :=
        (dequeueTask_sameWrr env hcurr 0).trans (modifyTask_sameWrr _ s.curr rfl)
      rw [deactivatePrev_of_sleeps cfg env hs]
      split
      · next w hw =>
        refine hparked.trans (tryToWakeUpLocal_sameWrr cfg env 1 fun hne hc => ?_)
        -- the worker is not the task that was parked, so `h` is still about it
        rw [(s.parked_frame env).curr] at hne
        rw [parked_task, Function.update_of_ne hne] at hc ⊢
        exact hworker w hw hc
      · exact hparked
    | false =>
      rcases deactivatePrev_of_not_sleeps cfg env hs with hd | hd
      · rw [hd]
        exact .refl s
      · rw [hd]
        exact s.modifyTask_sameWrr s.curr rfl
  -- `put_prev_task` and the pick itself leave the queue alone
  have hpick : SameWrr s (s.pickState cfg env) :=
    hdeactivate.trans (.of_quiet (putPrevTask_quiet env _ _ 2))
  obtain ⟨htask, hrq, -⟩ := s.schedule_spec cfg env
  refine ⟨?_, ?_, ?_, fun p => ?_⟩
  · rw [hrq, hpick.active]
  · rw [hrq, hpick.wrrNrRunning]
  · rw [hrq, hpick.totalWeight]
  · rw [htask, hdeactivate.wrr]

/-! ## Rounds -/

/-- Ticks and calls of `__schedule` that keep the WRR queue. -/
def TicksAndSchedules (s : State) (op : Op) (env : Env) : Prop :=
  op = .schedulerTick ∨ op = .schedule ∧ s.KeepsWrrQueue env

/-- A round begins: the slices are full, and the running task is the head of the queue or not a WRR
task. -/
structure RoundStart (cfg : Config) (s : State) : Prop where
  nodup : s.rq.active.Nodup
  weight_pos : ∀ p ∈ s.rq.active, 0 < (s.task p).wrr.weight.toNat
  weight_le : ∀ p ∈ s.rq.active, (s.task p).wrr.weight.toNat ≤ maxWeight
  full : ∀ p ∈ s.rq.active, (s.task p).wrr.timeSlice = (s.task p).wrr.weight * cfg.wrrWeightUnit
  idle_class : (s.task s.idle).schedClass ≠ .wrr
  runsHead : s.RunsHead

end State

section Rounds

variable {cfg : Config} {rule : Rule} {s : State}

/-- In a reachable state only the slices and the running task are to be checked. -/
theorem State.RoundStart.of_reachable (hcfg : cfg.Fits) (hs : (system cfg rule).Reachable s)
    (hfull : ∀ p ∈ s.rq.active,
      (s.task p).wrr.timeSlice = (s.task p).wrr.weight * cfg.wrrWeightUnit)
    (hhead : s.RunsHead) : s.RoundStart cfg := by
  have hinv := reachable_inv hs
  have hok (p : TaskPtr) (hp : p ∈ s.rq.active) : SliceOk cfg (s.task p) :=
    reachable_sliceOk hcfg hs p (hinv.live_of_onRq (hinv.onRq_of_mem hp))
      (hinv.ne_idle_of_onRq (hinv.onRq_of_mem hp))
  refine ⟨hinv.queue.nodup, fun p hp => ?_, fun p hp => (hok p hp).weight_le, hfull,
    hinv.idle_class, hhead⟩
  exact (hok p hp).policy ((hok p hp).schedClass (hinv.class_of_mem hp))

/-- The round robin the run goes through starts full. -/
theorem State.RoundStart.roundRobin_full (hcfg : cfg.Fits) (h : s.RoundStart cfg) :
    RoundRobin.Full (s.quota cfg) s.roundRobin := by
  intro p hp
  refine ⟨?_, Nat.mul_pos (h.weight_pos p hp) hcfg.one_le⟩
  show (s.task p).wrr.timeSlice.toNat = _
  rw [h.full p hp, hcfg.toNat_mul (h.weight_le p hp)]
  rfl

/-- What a run of ticks and calls of `__schedule` keeps: the queue and the slices are those of the
round robin after as many units as ticks were charged, to the tasks it serves. -/
structure RoundsInv (cfg : Config) (s : State) (x : Ticking) : Prop where
  roundRobin : x.state.roundRobin =
    (RoundRobin.serve (s.quota cfg))^[x.charged.length] s.roundRobin
  charged : x.charged = RoundRobin.served (s.quota cfg) x.charged.length s.roundRobin
  weight : ∀ p, (x.state.task p).wrr.weight = (s.task p).wrr.weight
  wrrNrRunning : x.state.rq.wrrNrRunning = s.rq.wrrNrRunning
  totalWeight : x.state.rq.totalWeight = s.rq.totalWeight
  idle_class : (x.state.task x.state.idle).schedClass ≠ .wrr
  runsHead : x.pending = true ∨ x.state.RunsHead

namespace RoundsInv

variable {x : Ticking} {env : Env}

theorem quota (h : RoundsInv cfg s x) : x.state.quota cfg = s.quota cfg := by
  funext p
  unfold State.quota
  rw [h.weight]

theorem active (h : RoundsInv cfg s x) :
    x.state.rq.active =
      ((RoundRobin.serve (s.quota cfg))^[x.charged.length] s.roundRobin).queue :=
  congrArg RoundRobin.queue h.roundRobin

theorem perm (h : RoundsInv cfg s x) : x.state.rq.active.Perm s.rq.active := by
  rw [h.active]
  exact RoundRobin.iterate_serve_perm _ _ _

/-- The tick of a WRR task is the next unit of the round robin. -/
theorem tick_wrr (hcfg : cfg.Fits) (hs : s.RoundStart cfg) (h : RoundsInv cfg s x)
    (hpending : x.pending = false) (hwrr : (x.state.task x.state.curr).schedClass = .wrr) :
    RoundsInv cfg s ⟨x.state.schedulerTick cfg env, x.state.tickResched cfg env,
      x.charged ++ [x.state.curr]⟩ := by
  have hrun : x.state.RunsHead := h.runsHead.resolve_left (by rw [hpending]; decide)
  have hhead : x.state.rq.active.head? = some x.state.curr := hrun.resolve_right (not_not.mpr hwrr)
  have hmem : x.state.curr ∈ s.rq.active := h.perm.mem_iff.mp (List.mem_of_head? hhead)
  -- the round robin never leaves an empty slice behind, so `--time_slice` does not wrap
  have hpos : 0 < (x.state.task x.state.curr).wrr.timeSlice.toNat := by
    have hslice := congrFun (congrArg RoundRobin.slice h.roundRobin) x.state.curr
    show 0 < x.state.roundRobin.slice x.state.curr
    rw [hslice]
    exact RoundRobin.iterate_serve_pos _ (hs.roundRobin_full hcfg) _ hmem
  have hweight : (x.state.task x.state.curr).wrr.weight.toNat ≤ maxWeight := by
    rw [h.weight]
    exact hs.weight_le _ hmem
  obtain ⟨hserve, hrq⟩ := State.schedulerTick_roundRobin env hcfg hwrr hhead
    (h.perm.nodup_iff.mpr hs.nodup) hpos hweight
  -- outside `wrr` the tick leaves every task as it was
  have htask (p : TaskPtr) : ((x.state.schedulerTick cfg env).task p) =
      { x.state.task p with wrr := ((x.state.schedulerTick cfg env).task p).wrr } := by
    rw [State.schedulerTick_task, if_pos hwrr]
    by_cases hp : p = x.state.curr
    · rw [hp, Function.update_self, TaskStruct.tickWrr_eq]
    · rw [Function.update_of_ne hp]
  have hlen : (x.charged ++ [x.state.curr]).length = x.charged.length + 1 := by simp
  refine ⟨?_, ?_, fun p => ?_, ?_, ?_, ?_, ?_⟩
  · rw [hlen, Function.iterate_succ_apply', ← h.roundRobin, hserve, h.quota]
  · -- the round robin serves the head, which is the task that was charged
    rw [hlen, RoundRobin.served_succ, ← h.charged, ← h.active, hhead]
    rfl
  · show ((x.state.schedulerTick cfg env).task p).wrr.weight = _
    rw [← h.weight p, State.schedulerTick_task, if_pos hwrr]
    by_cases hp : p = x.state.curr
    · rw [hp, Function.update_self, TaskStruct.tickWrr_eq]
    · rw [Function.update_of_ne hp]
  · show (x.state.schedulerTick cfg env).rq.wrrNrRunning = _
    rw [hrq]
    exact h.wrrNrRunning
  · show (x.state.schedulerTick cfg env).rq.totalWeight = _
    rw [hrq]
    exact h.totalWeight
  · show ((x.state.schedulerTick cfg env).task (x.state.schedulerTick cfg env).idle).schedClass ≠ _
    rw [(x.state.schedulerTick_frame cfg env).idle, htask]
    exact h.idle_class
  · exact State.tickResched_or_runsHead hrun

/-- A step that charges nobody and keeps the queue. -/
theorem of_sameWrr (h : RoundsInv cfg s x) {s' : State} {pending : Bool}
    (hsame : SameWrr x.state s') (hidle : (s'.task s'.idle).schedClass ≠ .wrr)
    (hrun : pending = true ∨ s'.RunsHead) : RoundsInv cfg s ⟨s', pending, x.charged⟩ where
  roundRobin := hsame.roundRobin.trans h.roundRobin
  charged := h.charged
  weight p := by rw [hsame.wrr, h.weight]
  wrrNrRunning := hsame.wrrNrRunning.trans h.wrrNrRunning
  totalWeight := hsame.totalWeight.trans h.totalWeight
  idle_class := hidle
  runsHead := hrun

/-- The tick of another class. -/
theorem tick_other (h : RoundsInv cfg s x) (hpending : x.pending = false)
    (hwrr : (x.state.task x.state.curr).schedClass ≠ .wrr) :
    RoundsInv cfg s ⟨x.state.schedulerTick cfg env, x.state.tickResched cfg env, x.charged⟩ := by
  have hrq := State.schedulerTick_rq_of_ne_wrr cfg env hwrr
  have htask : (x.state.schedulerTick cfg env).task = x.state.task := by
    rw [State.schedulerTick_task, if_neg hwrr]
  have hrun : x.state.RunsHead := h.runsHead.resolve_left (by rw [hpending]; decide)
  refine h.of_sameWrr ⟨by rw [hrq], by rw [hrq], by rw [hrq], fun p => by rw [htask]⟩ ?_
    (State.tickResched_or_runsHead hrun)
  rw [htask, (x.state.schedulerTick_frame cfg env).idle]
  exact h.idle_class

theorem schedule (h : RoundsInv cfg s x) (hkeeps : x.state.KeepsWrrQueue env) :
    RoundsInv cfg s ⟨x.state.schedule cfg env, false, x.charged⟩ := by
  obtain ⟨-, -, -, -, -, hidle, -⟩ := x.state.schedule_spec cfg env
  refine h.of_sameWrr (State.schedule_sameWrr cfg env hkeeps) ?_
    (.inr (State.schedule_runsHead h.idle_class))
  rw [hidle, State.schedule_task_eq]
  exact h.idle_class

end RoundsInv

/-- The round robin is simulated in every run. -/
theorem reachable_roundsInv (hcfg : cfg.Fits) (hs : s.RoundStart cfg) {x : Ticking}
    (hx : (ticking cfg rule State.TicksAndSchedules s).Reachable x) : RoundsInv cfg s x := by
  refine hx.invariant ?_ ?_
  · rintro x rfl
    exact ⟨rfl, rfl, fun _ => rfl, rfl, rfl, hs.idle_class, .inr hs.runsHead⟩
  · rintro x ⟨op, env⟩ h ⟨-, hstep, hpending⟩
    rcases hstep with hop | ⟨hop, hkeeps⟩
    · -- no reschedule is pending here, so the tick meets the head of the queue
      obtain rfl : op = .schedulerTick := hop
      show RoundsInv cfg s ⟨_, _, x.charged ++ x.state.charged⟩
      unfold State.charged
      split
      · next hwrr => exact h.tick_wrr hcfg hs (hpending rfl) hwrr
      · next hwrr =>
        rw [List.append_nil]
        exact h.tick_other (hpending rfl) hwrr
    · obtain rfl : op = .schedule := hop
      show RoundsInv cfg s ⟨_, _, x.charged ++ []⟩
      rw [List.append_nil]
      exact h.schedule hkeeps

/-- Once `k` times the sum of the slices has been charged, every WRR task has been charged `k` times
its slice, and order, slices, weights and counters are those of the beginning. This holds before
and after the reschedule that may be pending. -/
theorem wrr_rounds_fair (hcfg : cfg.Fits) (hs : s.RoundStart cfg) {x : Ticking}
    (hx : (ticking cfg rule State.TicksAndSchedules s).Reachable x) (k : ℕ)
    (hk : x.charged.length = k * (s.rq.active.map (s.quota cfg)).sum) :
    (∀ p ∈ s.rq.active, x.charged.count p = k * s.quota cfg p) ∧
      x.state.rq.active = s.rq.active ∧
      (∀ p ∈ s.rq.active, (x.state.task p).wrr.timeSlice = (s.task p).wrr.timeSlice ∧
        (x.state.task p).wrr.weight = (s.task p).wrr.weight) ∧
      x.state.rq.wrrNrRunning = s.rq.wrrNrRunning ∧
      x.state.rq.totalWeight = s.rq.totalWeight := by
  have h := reachable_roundsInv hcfg hs hx
  have hfull := hs.roundRobin_full hcfg
  -- `k` whole rounds are the identity on a round robin with full slices
  have hround : x.state.roundRobin = s.roundRobin := by
    rw [h.roundRobin, hk]
    exact RoundRobin.serve_rounds _ k s.roundRobin hfull
  refine ⟨fun p hp => ?_, congrArg RoundRobin.queue hround, fun p _ => ⟨?_, h.weight p⟩,
    h.wrrNrRunning, h.totalWeight⟩
  · rw [h.charged, hk]
    exact RoundRobin.count_served_rounds _ k s.roundRobin hfull hs.nodup hp
  · exact UInt32.toNat_inj.mp (congrFun (congrArg RoundRobin.slice hround) p)

end Rounds

/-! ## Small runs -/

namespace Small

/-- One round, in which the first pick is throttled and the idle task runs for a tick. -/
def roundAB : Ticking :=
  ([(.schedulerTick, env [] 72), (.schedule, env [] 0), (.schedulerTick, env [] 0),
    (.schedule, env [] 72), (.schedulerTick, env [] 72), (.schedulerTick, env [] 72)] :
    List (Op × Env)).foldl
    (ticking cfg .any State.TicksAndSchedules wrrAB).next ⟨wrrAB, false, []⟩

theorem roundAB_reachable :
    (ticking cfg .any State.TicksAndSchedules wrrAB).Reachable roundAB := by
  have hstart : (ticking cfg .any State.TicksAndSchedules wrrAB).Reachable ⟨wrrAB, false, []⟩ :=
    .init rfl
  have htick (x : Ticking) (tvNsec : ℕ) (hpending : x.pending = false) :
      (ticking cfg .any State.TicksAndSchedules wrrAB).enabled x (.schedulerTick, env [] tvNsec) :=
    ⟨⟨no_worker _ _ _, trivial⟩, .inl rfl, fun _ => hpending⟩
  have hschedule (x : Ticking) (tvNsec : ℕ) (hrun : x.state.sleeps (env [] tvNsec) = false) :
      (ticking cfg .any State.TicksAndSchedules wrrAB).enabled x (.schedule, env [] tvNsec) := by
    refine ⟨⟨no_worker _ _ _, trivial⟩, .inr ⟨rfl, fun hs => ?_⟩, fun h => by cases h⟩
    rw [hrun] at hs
    cases hs
  have h₁ := hstart.step (htick _ 72 rfl)
  have h₂ := h₁.step (hschedule _ 0 (by decide))
  have h₃ := h₂.step (htick _ 0 rfl)
  have h₄ := h₃.step (hschedule _ 72 (by decide))
  have h₅ := h₄.step (htick _ 72 rfl)
  exact h₅.step (htick _ 72 (by decide))

/-- The running WRR task is about to go to sleep. -/
def sleepA : State := runA.next cfg (.setCurrentState 1) (env [] 0)

/-- A fair task is about to go to sleep, while one WRR task is queued and another one sleeps. -/
def sleepC : State :=
  let s := (setWrr (start [taskA, taskB, taskC]) taskB 0).next cfg .schedule (env [] 72)
  let s := s.next cfg (.setCurrentState 1) (env [] 0)
  let s := s.next cfg .schedule (env [taskC] 72)
  (setWrr s taskA 0).next cfg (.setCurrentState 1) (env [] 0)

theorem sleepC_reachable : (system cfg .any).Reachable sleepC := by
  have hschedule (s : State) (fair : List TaskPtr) : s.Enabled .any .schedule (env fair 72) :=
    ⟨no_worker _ _ _, trivial⟩
  have hstate (s : State) (hne : s.curr ≠ s.idle) :
      s.Enabled .any (.setCurrentState 1) (env [] 0) := ⟨no_worker _ _ _, hne⟩
  have hstart := (reachable_start .any [taskA, taskB, taskC] (by decide)).1
  have hB := reachable_setWrr hstart (p := taskB) ⟨by decide, by decide⟩ trivial 0
  have hrunB := reachable_next hB (hschedule _ [])
  have hsleep := reachable_next hrunB (hstate _ (by decide))
  have hrunC := reachable_next hsleep (hschedule _ [taskC])
  have hA := reachable_setWrr hrunC (p := taskA) ⟨by decide, by decide⟩ trivial 0
  exact reachable_next hA (hstate _ (by decide))

end Small

/-- Three charged ticks are a round: one for the first task, two for the second. -/
theorem wrr_rounds_fair_small :
    Small.roundAB.charged.count Small.taskA = 1 ∧ Small.roundAB.charged.count Small.taskB = 2 ∧
      Small.roundAB.state.rq.active = [Small.taskA, Small.taskB] := by
  have hcfg : Small.cfg.Fits := ⟨by decide, by decide⟩
  have hs : Small.wrrAB.RoundStart Small.cfg :=
    .of_reachable hcfg Small.wrrAB_reachable (by decide) (.inl (by decide))
  obtain ⟨hcount, hactive, -⟩ := wrr_rounds_fair hcfg hs Small.roundAB_reachable 1 (by decide)
  exact ⟨hcount Small.taskA (by decide), hcount Small.taskB (by decide), hactive⟩

/-- A call of `__schedule` may put the running WRR task to sleep, or wake up a WRR worker. Then the
queue is another one, though no tick has been charged. -/
theorem wrr_rounds_queue_changes :
    (Small.sleepA.RoundStart Small.cfg ∧
        ∃ x, (ticking Small.cfg .any (fun _ op _ => op = .schedule) Small.sleepA).Reachable x ∧
          x.charged = [] ∧ x.pending = false ∧ x.state.rq.active ≠ Small.sleepA.rq.active) ∧
      Small.sleepC.RoundStart Small.cfg ∧
        ∃ x, (ticking Small.cfg .any (fun _ op _ => op = .schedule) Small.sleepC).Reachable x ∧
          x.charged = [] ∧ x.pending = false ∧ x.state.rq.active ≠ Small.sleepC.rq.active := by
  have hcfg : Small.cfg.Fits := ⟨by decide, by decide⟩
  have hstate : Small.runA.Enabled .any (.setCurrentState 1) (Small.env [] 0) :=
    ⟨Small.no_worker _ _ _, by decide⟩
  have hsleepA : (system Small.cfg .any).Reachable Small.sleepA :=
    reachable_next (Small.runA_reachable .any trivial) hstate
  have hworker : ∀ w, ({ Small.env [] 72 with toWakeup := some Small.taskB } : Env).toWakeup =
      some w → Small.sleepC.Target w := by
    rintro w hw
    obtain rfl : Small.taskB = w := Option.some.inj hw
    exact ⟨by decide +kernel, by decide +kernel⟩
  refine ⟨⟨.of_reachable hcfg hsleepA (by decide +kernel) (.inl (by decide +kernel)), _,
    (TransitionSystem.Reachable.init rfl).step (i := (.schedule, Small.env [] 72))
      ⟨⟨Small.no_worker _ _ _, trivial⟩, rfl, fun h => by cases h⟩, rfl, rfl, by decide +kernel⟩,
    .of_reachable hcfg Small.sleepC_reachable (by decide +kernel) (.inr (by decide +kernel)), _,
    (TransitionSystem.Reachable.init rfl).step
      (i := (.schedule, { Small.env [] 72 with toWakeup := some Small.taskB }))
      ⟨⟨hworker, trivial⟩, rfl, fun h => by cases h⟩, rfl, rfl, by decide +kernel⟩

end WrrSched
