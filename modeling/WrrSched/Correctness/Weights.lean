import WrrSched.Correctness.Invariant

/-!
# Weights and slices

The weight of a task is recomputed when it is queued, and its slice counted down by the tick. Both
stay in range over every run, and a queued task has the weight its group or its own setting
prescribes.

- `time_slice_in_range`: weights and slices stay in range, so that the assertion of `task_tick_wrr`
  holds and a refill is never empty;
- `weight_prescribed`: the weight of a queued task is that of its group, or the custom one that the
  history of the run gave it.
-/

namespace WrrSched

variable {cfg : Config} {rule : Rule} {group : TaskGroupPtr → TaskGroup} {t t' : TaskStruct}

/-! ## Ranges -/

/-- `WRR_WEIGHT_UNIT` is at least one tick, and the longest slice is an `unsigned int`. -/
structure Config.Fits (cfg : Config) : Prop where
  one_le : 1 ≤ cfg.wrrWeightUnit.toNat
  mul_lt : maxWeight * cfg.wrrWeightUnit.toNat < 2 ^ 32

/-- The product that fills a slice does not wrap. -/
theorem Config.Fits.toNat_mul (hcfg : cfg.Fits) {weight : UInt32} (h : weight.toNat ≤ maxWeight) :
    (weight * cfg.wrrWeightUnit).toNat = weight.toNat * cfg.wrrWeightUnit.toNat := by
  have hle := Nat.mul_le_mul_right cfg.wrrWeightUnit.toNat h
  rw [UInt32.toNat_mul, Nat.mod_eq_of_lt (hle.trans_lt hcfg.mul_lt)]

/-- What is kept about the weight of a task. -/
structure WeightOk (t : TaskStruct) : Prop where
  custom : t.wrr.customWeight = true → 0 < t.wrr.weight.toNat
  started : t.started = true → 0 < t.wrr.weight.toNat
  /-- A task of WRR got a weight when it came to WRR or was forked by such a task. -/
  policy : t.policy = .wrr → 0 < t.wrr.weight.toNat
  schedClass : t.schedClass = .wrr → t.policy = .wrr
  weight_le : t.wrr.weight.toNat ≤ maxWeight

/-- The slice is not used up and at most what it was filled with. -/
def TaskStruct.SliceInRange (cfg : Config) (t : TaskStruct) : Prop :=
  0 < t.wrr.timeSlice.toNat ∧
    t.wrr.timeSlice.toNat ≤ t.wrr.weight.toNat * cfg.wrrWeightUnit.toNat

/-- What is kept about weight and slice of a task. -/
structure SliceOk (cfg : Config) (t : TaskStruct) : Prop extends WeightOk t where
  slice : t.onRq = true → t.schedClass = .wrr → t.SliceInRange cfg

/-- A full slice is in range. -/
theorem SliceOk.full (hcfg : cfg.Fits) (hpos : 0 < t.wrr.weight.toNat)
    (hle : t.wrr.weight.toNat ≤ maxWeight)
    (hfull : t.wrr.timeSlice = t.wrr.weight * cfg.wrrWeightUnit) : t.SliceInRange cfg := by
  unfold TaskStruct.SliceInRange
  rw [hfull, hcfg.toNat_mul hle]
  exact ⟨Nat.mul_pos hpos hcfg.one_le, le_refl _⟩

namespace WeightOk

/-- The invariant does not look at the other fields. -/
theorem congr (h : WeightOk t) (hwrr : t'.wrr = t.wrr) (hpolicy : t'.policy = t.policy)
    (hclass : t'.schedClass = .wrr → t'.policy = .wrr) (hstarted : t'.started = t.started) :
    WeightOk t' where
  custom := by rw [hwrr]; exact h.custom
  started := by rw [hwrr, hstarted]; exact h.started
  policy := by rw [hwrr, hpolicy]; exact h.policy
  schedClass := hclass
  weight_le := by rw [hwrr]; exact h.weight_le

/-- An enqueue does not lower the weight to zero. -/
theorem enqueued_pos (h : 0 < t.wrr.weight.toNat) :
    0 < (t.enqueued cfg group).wrr.weight.toNat := by
  rw [TaskStruct.enqueued_weight]
  split
  · exact (TaskGroup.weight_bounds _).1
  · exact h

/-- An enqueue gives a task the weight of its group, or keeps its own. -/
theorem enqueued (h : WeightOk t) : WeightOk (t.enqueued cfg group) where
  custom hc := by
    rw [TaskStruct.enqueued_customWeight] at hc
    exact enqueued_pos (h.custom hc)
  started hst := by
    rw [TaskStruct.enqueued_eq] at hst
    exact enqueued_pos (h.started hst)
  policy hp := by
    rw [TaskStruct.enqueued_eq] at hp
    exact enqueued_pos (h.policy hp)
  schedClass := by
    rw [TaskStruct.enqueued_eq]
    exact h.schedClass
  weight_le := TaskStruct.enqueued_weight_le cfg group h.weight_le

/-- Queueing gives a task of WRR a full slice. -/
theorem slice_enqueued (h : WeightOk t) (hcfg : cfg.Fits) (hclass : t.schedClass = .wrr) :
    (t.enqueued cfg group).SliceInRange cfg := by
  refine SliceOk.full hcfg (enqueued_pos (h.policy (h.schedClass hclass)))
    h.enqueued.weight_le ?_
  unfold TaskStruct.enqueued
  rw [if_pos hclass]
  rfl

/-- A task is taken off its queue, changed and put back: only its weight matters in between. -/
theorem requeued (h : WeightOk t) (hcfg : cfg.Fits) {onRq : Bool} (honRq : t.onRq = onRq) :
    SliceOk cfg (t.requeued cfg group onRq) := by
  unfold TaskStruct.requeued
  split
  · refine ⟨h.enqueued, fun _ hclass => h.slice_enqueued hcfg ?_⟩
    rwa [TaskStruct.enqueued_eq] at hclass
  · next hoff => exact ⟨h, fun hon => absurd (honRq.symm.trans hon) hoff⟩

/-- Only a WRR policy gives the WRR class. -/
theorem setClass_policy (prio : ℤ) (h : (t.setClass prio).schedClass = .wrr) :
    t.policy = .wrr := by
  unfold TaskStruct.setClass at h
  dsimp only at h
  split_ifs at h with hrt hpolicy
  exact hpolicy

/-- `__setscheduler` stores a weight for every task it moves to WRR, the placeholder 1 if the group
is to decide. -/
theorem setscheduler (h : WeightOk t) {policy : Policy} {prio : ℤ}
    (hrange : 0 ≤ prio ∧ prio ≤ maxRtPrio - 1) (topWaiter : Option ℤ) :
    WeightOk (t.setscheduler policy prio topWaiter) := by
  have hmax : maxRtPrio = 100 := rfl
  have hpolicy := t.setscheduler_policy policy prio topWaiter
  have hwrr : policy = .wrr → 0 < (t.setscheduler policy prio topWaiter).wrr.weight.toNat := by
    intro hp
    rw [TaskStruct.setscheduler_wrr, if_neg (not_not.mpr hp)]
    split
    · next hne =>
      show 0 < (UInt32.ofNat prio.toNat).toNat
      rw [UInt32.toNat_ofNat', Nat.mod_eq_of_lt (by omega)]
      omega
    · exact Nat.one_pos
  have hother : policy ≠ .wrr → (t.setscheduler policy prio topWaiter).wrr = t.wrr := by
    intro hp
    rw [TaskStruct.setscheduler_wrr, if_pos hp]
  refine ⟨fun hc => ?_, fun hst => ?_, fun hp => hwrr (hpolicy.symm.trans hp), fun hc => ?_,
    TaskStruct.setscheduler_weight_le _ _ _ hrange.2 h.weight_le⟩
  · by_cases hp : policy = .wrr
    · exact hwrr hp
    · rw [hother hp] at hc ⊢
      exact h.custom hc
  · by_cases hp : policy = .wrr
    · exact hwrr hp
    · rw [TaskStruct.setscheduler_eq] at hst
      rw [hother hp]
      exact h.started hst
  · unfold TaskStruct.setscheduler at hc ⊢
    exact setClass_policy _ hc

/-- A new task gets its weight right before it is queued for the first time. -/
theorem start (h : WeightOk t) (hcfg : cfg.Fits) (fg : Bool) :
    SliceOk cfg (t.start cfg group fg) := by
  -- a custom weight is positive, the others are set to one of the two group weights
  have hpos : 0 < (t.wrrSetWeight cfg fg).wrr.weight.toNat := by
    rw [TaskStruct.wrrSetWeight_weight]
    split
    · next hc => exact h.custom hc
    · split <;> decide
  have hclass : (t.wrrSetWeight cfg fg).schedClass = .wrr →
      (t.wrrSetWeight cfg fg).policy = .wrr := by
    rw [TaskStruct.wrrSetWeight_eq]
    exact h.schedClass
  have hset : WeightOk (t.wrrSetWeight cfg fg) :=
    ⟨fun _ => hpos, fun _ => hpos, fun _ => hpos, hclass,
      TaskStruct.wrrSetWeight_weight_le cfg fg h.weight_le⟩
  have henq : WeightOk ((t.wrrSetWeight cfg fg).enqueued cfg group) := hset.enqueued
  refine ⟨⟨henq.custom, fun _ => enqueued_pos hpos, henq.policy, henq.schedClass,
    henq.weight_le⟩, fun _ hc => hset.slice_enqueued hcfg ?_⟩
  rw [TaskStruct.start_eq] at hc
  rw [TaskStruct.wrrSetWeight_eq]
  exact hc

end WeightOk

namespace SliceOk

/-- A step that leaves the fields of WRR alone and does not queue the task. -/
theorem congr (h : SliceOk cfg t) (hwrr : t'.wrr = t.wrr) (hpolicy : t'.policy = t.policy)
    (hclass : t'.schedClass = .wrr → t.schedClass = .wrr) (hstarted : t'.started = t.started)
    (honRq : t'.onRq = true → t.onRq = true) : SliceOk cfg t' where
  toWeightOk := h.toWeightOk.congr hwrr hpolicy
    (fun hc => hpolicy.trans (h.schedClass (hclass hc))) hstarted
  slice hon hc := by
    unfold TaskStruct.SliceInRange
    rw [hwrr]
    exact h.slice (honRq hon) (hclass hc)

/-- The tick counts a slice down to 1, and refills it then. -/
theorem tickWrr (hcfg : cfg.Fits) (h : SliceOk cfg t) (hon : t.onRq = true)
    (hwrr : t.schedClass = .wrr) : SliceOk cfg (t.tickWrr cfg) := by
  obtain ⟨hpos, hle⟩ := h.slice hon hwrr
  unfold TaskStruct.tickWrr
  split
  · refine ⟨⟨h.custom, h.started, h.policy, h.schedClass, h.weight_le⟩, fun _ _ => ?_⟩
    -- the refill uses the weight the task has now, which is positive
    exact full hcfg (h.policy (h.schedClass hwrr)) h.weight_le rfl
  · next hlt =>
    refine ⟨⟨h.custom, h.started, h.policy, h.schedClass, h.weight_le⟩, fun _ _ => ?_⟩
    have hone : (1 : UInt32) ≤ t.wrr.timeSlice := UInt32.le_iff_toNat_le.mpr hpos
    have hsub := UInt32.toNat_sub_of_le _ _ hone
    have h1 : (1 : UInt32).toNat = 1 := rfl
    show 0 < (t.wrr.timeSlice - 1).toNat ∧ (t.wrr.timeSlice - 1).toNat ≤ _
    rw [hsub, h1]
    exact ⟨by omega, (Nat.sub_le _ _).trans hle⟩

/-- What one change of a task keeps. -/
theorem step (hcfg : cfg.Fits) (h : SliceOk cfg t) (hs : TaskStep cfg rule group t t') :
    SliceOk cfg t' := by
  cases hs with
  | setState state hon => exact h.congr rfl rfl id rfl id
  | sleep hon hstate => exact h.congr rfl rfl id rfl fun hfalse => by cases hfalse
  | wake state =>
    unfold TaskStruct.wake
    split_ifs with hstate hon
    · exact h
    · exact h.congr rfl rfl id rfl id
    · have henq : WeightOk (t.enqueued cfg group) := h.toWeightOk.enqueued
      refine ⟨⟨henq.custom, henq.started, henq.policy, henq.schedClass, henq.weight_le⟩,
        fun _ hc => h.toWeightOk.slice_enqueued hcfg ?_⟩
      rw [TaskStruct.enqueued_eq] at hc
      exact hc
  | start fg hst => exact h.toWeightOk.start hcfg fg
  | tick hon hwrr => exact h.tickWrr hcfg hon hwrr
  | boost prio hrule =>
    refine WeightOk.requeued ?_ hcfg rfl
    exact h.toWeightOk.congr rfl rfl (WeightOk.setClass_policy prio) rfl
  | setUserNice nice =>
    unfold TaskStruct.setUserNice
    split_ifs
    · exact h
    · exact h.congr rfl rfl id rfl id
    · rw [TaskStruct.effectivePrio_eq]
      refine WeightOk.requeued ?_ hcfg rfl
      exact h.toWeightOk.congr rfl rfl h.schedClass rfl
  | setscheduler req prio topWaiter hprio hw =>
    obtain ⟨h0, hmax, -⟩ := checkPriority_eq_ok hprio
    have hset : WeightOk { t with schedResetOnFork := req.resetOnFork } :=
      h.toWeightOk.congr rfl rfl h.schedClass rfl
    refine (hset.setscheduler ⟨h0, hmax⟩ topWaiter).requeued hcfg ?_
    exact TaskStruct.setscheduler_onRq _ _ _ topWaiter
  | move tg =>
    refine WeightOk.requeued ?_ hcfg rfl
    exact h.toWeightOk.congr rfl rfl h.schedClass rfl
  | toStop hon hfifo => exact h.congr rfl rfl (fun hc => by cases hc) rfl id
  | fromStop hon hfifo => exact h.congr rfl rfl (fun hc => by cases hc) rfl id

/-- A child starts with the weight of its parent. -/
theorem schedFork (h : WeightOk t) (mm : Bool) :
    SliceOk cfg (t.schedFork { t with mm := mm, started := false }) := by
  have hwrr := t.schedFork_wrr { t with mm := mm, started := false }
  have hon := t.schedFork_onRq { t with mm := mm, started := false }
  have hst := t.schedFork_started { t with mm := mm, started := false } rfl
  have hpolicy : (t.schedFork { t with mm := mm, started := false }).policy = .wrr →
      t.policy = .wrr := by
    rcases t.schedFork_policy { t with mm := mm, started := false } with hp | ⟨-, hp⟩
    · exact fun hc => hp.symm.trans hc
    · intro hc
      rw [hp] at hc
      cases hc
  have hclass : (t.schedFork { t with mm := mm, started := false }).schedClass = .wrr →
      (t.schedFork { t with mm := mm, started := false }).policy = .wrr := by
    intro hc
    rw [TaskStruct.schedFork_eq] at hc
    dsimp only at hc
    split_ifs at hc with hprio hp
    · -- the class was copied, and so was the policy, which is not RT
      have hp : t.policy = .wrr := h.schedClass hc
      exact t.schedFork_policy_of_wrr hp
    · rw [TaskStruct.schedFork_eq]
      exact hp
  refine ⟨⟨?_, ?_, ?_, hclass, ?_⟩, fun hfalse => absurd (hon.symm.trans hfalse) (by simp)⟩
  · rw [hwrr]
    exact h.custom
  · rw [hst]
    exact fun hfalse => by cases hfalse
  · rw [hwrr]
    exact fun hc => h.policy (hpolicy hc)
  · rw [hwrr]
    exact h.weight_le

end SliceOk

/-! ## The tick -/

namespace State

variable {env : Env} {s : State}

/-- Accounting hits no BUG. -/
theorem updateCurrWrr_bug (s : State) : s.updateCurrWrr.bug = s.bug := by
  unfold updateCurrWrr
  split <;> rfl

/-- Nor does the clock. -/
theorem updateRqClock_bug (s : State) (delta : UInt64) : (s.updateRqClock delta).bug = s.bug := by
  unfold updateRqClock
  split <;> rfl

/-- The assertion of `task_tick_wrr` holds for a slice that is not used up. -/
theorem schedulerTick_bug (hwrr : (s.task s.curr).schedClass = .wrr)
    (hslice : 0 < (s.task s.curr).wrr.timeSlice.toNat) :
    (s.schedulerTick cfg env).bug = s.bug := by
  have hq := s.updateRqClock_quiet (env.clockDelta 0)
  have hbug := s.updateRqClock_bug (env.clockDelta 0)
  unfold schedulerTick
  dsimp only
  rw [← hbug]
  rw [← hq.task, ← hq.curr] at hwrr hslice
  generalize s.updateRqClock (env.clockDelta 0) = s at hwrr hslice
  unfold taskTick
  rw [hwrr]
  dsimp only
  rcases Nat.lt_or_ge 1 (s.task s.curr).wrr.timeSlice.toNat with hlt | hle
  · rw [taskTickWrr_of_one_lt cfg env.tvNsec hlt]
    exact s.updateCurrWrr_bug
  · -- the slice is 1, so `BUG_ON` is not hit
    have hne : (s.task s.curr).wrr.timeSlice ≠ 0 := by
      intro h0
      rw [h0] at hslice
      exact Nat.lt_irrefl 0 hslice
    have hrefilled : (s.refilled cfg s.curr).bug = s.bug := by
      show (s.updateCurrWrr.bug || decide ((s.task s.curr).wrr.timeSlice = 0)) = s.bug
      rw [s.updateCurrWrr_bug, decide_eq_false hne, Bool.or_false]
    rw [taskTickWrr_of_le_one cfg env.tvNsec hle]
    split <;> exact hrefilled

/-- The tick of a WRR task changes the slice of that task only. -/
theorem schedulerTick_task_curr (hwrr : (s.task s.curr).schedClass = .wrr) :
    (s.schedulerTick cfg env).task s.curr = (s.task s.curr).tickWrr cfg := by
  rw [schedulerTick_task, if_pos hwrr, Function.update_self]

end State

/-! ## Reachable states -/

section Reachable

variable {s : State}

/-- The slices of all tasks in every reachable state. -/
theorem reachable_sliceOk (hcfg : cfg.Fits) (hs : (system cfg rule).Reachable s) :
    ∀ p ∈ s.live, p ≠ s.idle → SliceOk cfg (s.task p) := by
  refine forall_task (I := fun _ t => SliceOk cfg t) (fun g t mm hidle => ?_)
    (fun g t mm h _ => SliceOk.schedFork h.toWeightOk mm) (fun _ g g' t h => h)
    (fun g t t' h hstep => h.step hcfg hstep) hs
  obtain ⟨tg, c, hc, rfl⟩ := hidle
  refine SliceOk.schedFork ⟨?_, ?_, ?_, fun hwrr => ?_, Nat.zero_le _⟩ mm
  · exact fun hfalse => by cases hfalse
  · exact fun hfalse => by cases hfalse
  · exact fun hfalse => by cases hfalse
  · rcases hc with rfl | rfl <;> cases hwrr

/-- Weights and slices stay in range: the tick of a WRR task never finds its slice used up, and
neither a refill nor the interval reported for a WRR task is zero. -/
theorem time_slice_in_range (hcfg : cfg.Fits) (hs : (system cfg rule).Reachable s) :
    (∀ p ∈ s.live, p ≠ s.idle → (s.task p).started = true →
      1 ≤ (s.task p).wrr.weight.toNat ∧ ((s.task p).wrr.weight.toNat : ℤ) ≤ maxRtPrio - 1) ∧
      (∀ p ∈ s.rq.active, 1 ≤ (s.task p).wrr.timeSlice.toNat ∧
        (s.task p).wrr.timeSlice.toNat ≤
          (s.task p).wrr.weight.toNat * cfg.wrrWeightUnit.toNat) ∧
      (∀ p ∈ s.live, p ≠ s.idle → (s.task p).schedClass = .wrr →
        (s.task p).getRrIntervalWrr cfg ≠ 0) ∧
      ((s.task s.curr).schedClass = .wrr → ∀ env,
        (s.schedulerTick cfg env).bug = s.bug ∧
          Counter.subWraps (s.task s.curr).wrr.timeSlice 1 = false ∧
          (s.task s.curr).wrr.weight * cfg.wrrWeightUnit ≠ 0 ∧
          ((s.schedulerTick cfg env).task s.curr).wrr.timeSlice ≠ 0) := by
  have hinv := reachable_inv hs
  have hok := reachable_sliceOk hcfg hs
  have hzero {n : UInt32} (hn : 0 < n.toNat) : n ≠ 0 := by
    rintro rfl
    exact Nat.lt_irrefl 0 hn
  -- the full slice of a WRR task fits its type and is not zero
  have hfull (t : TaskStruct) (ht : SliceOk cfg t) (hwrr : t.schedClass = .wrr) :
      t.wrr.weight * cfg.wrrWeightUnit ≠ 0 := by
    refine hzero ?_
    rw [hcfg.toNat_mul ht.weight_le]
    exact Nat.mul_pos (ht.policy (ht.schedClass hwrr)) hcfg.one_le
  refine ⟨fun p hp hidle hst => ?_, fun p hp => ?_, fun p hp hidle hwrr => ?_, fun hwrr env => ?_⟩
  · have h := hok p hp hidle
    have hle := h.weight_le
    refine ⟨h.started hst, ?_⟩
    unfold maxWeight at hle
    unfold maxRtPrio maxUserRtPrio
    omega
  · have hon := hinv.onRq_of_mem hp
    exact (hok p (hinv.live_of_onRq hon) (hinv.ne_idle_of_onRq hon)).slice hon
      (hinv.class_of_mem hp)
  · exact hfull _ (hok p hp hidle) hwrr
  · -- the running WRR task is queued, so that its slice is in range
    have hne : s.curr ≠ s.idle := fun heq => hinv.idle_class (heq ▸ hwrr)
    have hon := hinv.onRq_of_ne hne
    have h := hok s.curr hinv.curr_live hne
    have hpos := (h.slice hon hwrr).1
    refine ⟨State.schedulerTick_bug hwrr hpos, ?_, hfull _ h hwrr, ?_⟩
    · exact decide_eq_false (Nat.not_lt.mpr hpos)
    · have htick := h.tickWrr hcfg hon hwrr
      rw [State.schedulerTick_task_curr hwrr]
      refine hzero (htick.slice ?_ ?_).1
      · rw [TaskStruct.tickWrr_eq]
        exact hon
      · rw [TaskStruct.tickWrr_eq]
        exact hwrr

/-- With `HZ = 100`, for one running task of weight 10. -/
theorem time_slice_in_range_small :
    (Small.runA.task Small.taskA).wrr.timeSlice = 10 ∧
      (Small.runA.schedulerTick Small.cfg (Small.env [] 72)).bug = Small.runA.bug := by
  have hcfg : Small.cfg.Fits := ⟨by decide, by decide⟩
  have h := time_slice_in_range hcfg (Small.runA_reachable .any trivial)
  exact ⟨by decide, (h.2.2.2 (by decide) (Small.env [] 72)).1⟩

end Reachable

/-! ## Where a weight comes from -/

/-- Queued tasks of WRR without a custom weight have the weight of their group. -/
def GroupWeight (group : TaskGroupPtr → TaskGroup) (t : TaskStruct) : Prop :=
  t.onRq = true → t.schedClass = .wrr → t.wrr.customWeight = false →
    t.wrr.weight = (group t.schedTaskGroup).weight

namespace GroupWeight

/-- Queueing recomputes the weight. -/
theorem of_enqueued (hwrr : t'.wrr = (t.enqueued cfg group).wrr)
    (hclass : t'.schedClass = t.schedClass) (hgroup : t'.schedTaskGroup = t.schedTaskGroup) :
    GroupWeight group t' := by
  intro _ hc hcustom
  rw [hwrr, TaskStruct.enqueued_customWeight] at hcustom
  rw [hclass] at hc
  rw [hwrr, hgroup, TaskStruct.enqueued_weight, if_pos ⟨hc, hcustom⟩]

/-- A requeue gives the weight of the group again. -/
theorem requeued {onRq : Bool} (honRq : t.onRq = onRq) :
    GroupWeight group (t.requeued cfg group onRq) := by
  unfold TaskStruct.requeued
  split
  · refine of_enqueued rfl ?_ ?_
    · rw [TaskStruct.enqueued_eq]
    · rw [TaskStruct.enqueued_eq]
  · next hoff => exact fun hon => absurd (honRq.symm.trans hon) hoff

/-- Nothing is said of a task that is off. -/
theorem of_off (h : t.onRq = false) : GroupWeight group t :=
  fun hon => absurd (h.symm.trans hon) (by simp)

/-- What one change of a task keeps. -/
theorem step (h : GroupWeight group t) (hs : TaskStep cfg rule group t t') :
    GroupWeight group t' := by
  cases hs with
  | setState state hon => exact h
  | sleep hon hstate => exact of_off rfl
  | wake state =>
    unfold TaskStruct.wake
    split_ifs with hstate hon
    · exact h
    · exact h
    · refine of_enqueued rfl ?_ ?_
      · rw [TaskStruct.enqueued_eq]
      · rw [TaskStruct.enqueued_eq]
  | start fg hst =>
    refine of_enqueued rfl ?_ ?_
    · rw [TaskStruct.start_eq, TaskStruct.wrrSetWeight_eq]
    · rw [TaskStruct.start_eq, TaskStruct.wrrSetWeight_eq]
  | tick hon hwrr =>
    rw [TaskStruct.tickWrr_eq]
    exact h
  | boost prio hrule => exact requeued rfl
  | setUserNice nice =>
    unfold TaskStruct.setUserNice
    split_ifs
    · exact h
    · exact h
    · rw [TaskStruct.effectivePrio_eq]
      exact requeued rfl
  | setscheduler req prio topWaiter hprio hw =>
    exact requeued (TaskStruct.setscheduler_onRq _ _ _ topWaiter)
  | move tg => exact requeued rfl
  | toStop hon hfifo => exact of_off hon
  | fromStop hon hfifo => exact of_off hon

end GroupWeight

/-- A custom weight is kept, and a task without one does not get one. -/
def KeepsCustom (t t' : TaskStruct) : Prop :=
  t'.wrr.customWeight = t.wrr.customWeight ∧
    (t.wrr.customWeight = true → t'.wrr.weight = t.wrr.weight)

namespace KeepsCustom

/-- A change outside the WRR entity. -/
theorem of_wrr (h : t'.wrr = t.wrr) : KeepsCustom t t' := by
  unfold KeepsCustom
  rw [h]
  exact ⟨rfl, fun _ => rfl⟩

/-- No change. -/
theorem refl (t : TaskStruct) : KeepsCustom t t := of_wrr rfl

/-- Two changes after one another. -/
theorem trans {t'' : TaskStruct} (h : KeepsCustom t t') (h' : KeepsCustom t' t'') :
    KeepsCustom t t'' := by
  refine ⟨h'.1.trans h.1, fun hc => ?_⟩
  rw [h'.2 (h.1.trans hc), h.2 hc]

/-- An enqueue keeps a custom weight. -/
theorem enqueued (t : TaskStruct) : KeepsCustom t (t.enqueued cfg group) :=
  ⟨t.enqueued_customWeight cfg group, fun hc => TaskStruct.enqueued_weight_of_custom cfg group hc⟩

/-- So does a requeue. -/
theorem requeued (h : KeepsCustom t t') (onRq : Bool) :
    KeepsCustom t (t'.requeued cfg group onRq) := by
  unfold TaskStruct.requeued
  split
  · exact h.trans (enqueued t')
  · exact h

/-- So does a wake-up. -/
theorem wake (t : TaskStruct) (state : ℕ) : KeepsCustom t (t.wake cfg group state) := by
  unfold TaskStruct.wake
  split_ifs
  · exact refl t
  · exact of_wrr rfl
  · exact enqueued t

/-- So does the start of a new task. -/
theorem start (t : TaskStruct) (fg : Bool) : KeepsCustom t (t.start cfg group fg) := by
  have hset : KeepsCustom t (t.wrrSetWeight cfg fg) := by
    refine ⟨t.wrrSetWeight_customWeight cfg fg, fun hc => ?_⟩
    rw [TaskStruct.wrrSetWeight_weight, if_pos hc]
  exact hset.trans (enqueued _)

/-- So does a tick. -/
theorem tickWrr (t : TaskStruct) : KeepsCustom t (t.tickWrr cfg) := by
  rw [TaskStruct.tickWrr_eq]
  exact ⟨rfl, fun _ => rfl⟩

/-- Only `__setscheduler` sets a custom weight: a run without it keeps all of them. -/
theorem step (hrule : ∀ t w, ¬rule.topWaiter t w) (hs : TaskStep cfg rule group t t') :
    KeepsCustom t t' := by
  cases hs with
  | setState state hon => exact of_wrr rfl
  | sleep hon hstate => exact of_wrr rfl
  | wake state => exact wake t state
  | start fg hst => exact start t fg
  | tick hon hwrr => exact tickWrr t
  | boost prio _ =>
    refine requeued ?_ t.onRq
    exact of_wrr rfl
  | setUserNice nice =>
    unfold TaskStruct.setUserNice
    split_ifs
    · exact refl t
    · exact of_wrr rfl
    · rw [TaskStruct.effectivePrio_eq]
      refine requeued ?_ t.onRq
      exact of_wrr rfl
  | setscheduler req prio topWaiter hprio hw => exact absurd hw (hrule t topWaiter)
  | move tg =>
    refine requeued ?_ t.onRq
    exact of_wrr rfl
  | toStop hon hfifo => exact of_wrr rfl
  | fromStop hon hfifo => exact of_wrr rfl

/-- So do any changes, when nobody sets the weight. -/
theorem steps (hrule : ∀ t w, ¬rule.topWaiter t w) (hs : TaskSteps cfg rule group t t') :
    KeepsCustom t t' := by
  induction hs with
  | refl => exact refl _
  | tail _ hstep ih => exact ih.trans (step hrule hstep)

end KeepsCustom

namespace State

variable {env : Env} {s : State}

/-- The priority with which an operation executes `__setscheduler(SCHED_WRR, ·)` on `p`. -/
def setsWrr (s : State) (op : Op) (p : TaskPtr) : Option ℤ :=
  match op with
  | .schedSetscheduler q policy prio user c _ =>
    match s.setschedulerRequest q policy prio user c with
    | some req => if q = p ∧ req.policy = .wrr then some prio else none
    | none => none
  | _ => none

/-- Only `__sched_setscheduler` gives a custom weight. -/
theorem setsWrr_eq_some {op : Op} {p : TaskPtr} {prio : ℤ} (h : s.setsWrr op p = some prio) :
    ∃ policy user c topWaiter req, op = .schedSetscheduler p policy prio user c topWaiter ∧
      s.setschedulerRequest p policy prio user c = some req ∧ req.policy = .wrr := by
  unfold setsWrr at h
  split at h
  · next q policy prio' user c topWaiter =>
    split at h
    · next req hreq =>
      split_ifs at h with hcond
      obtain rfl := Option.some.inj h
      obtain ⟨rfl, hwrr⟩ := hcond
      exact ⟨policy, user, c, topWaiter, req, rfl, hreq, hwrr⟩
    · cases h
  · cases h

/-- A call for another policy leaves the weight to the next enqueue. -/
theorem schedSetscheduler_keepsCustom {q : TaskPtr} {policy prio : ℤ} {user : Bool} {c : Caller}
    (topWaiter : Option ℤ) (p : TaskPtr)
    (h : ∀ req, q = p → s.setschedulerRequest q policy prio user c = some req →
      req.policy ≠ .wrr) :
    KeepsCustom (s.task p)
      ((s.schedSetscheduler cfg env q policy prio user c topWaiter).1.task p) := by
  cases hreq : s.setschedulerRequest q policy prio user c with
  | none =>
    rw [schedSetscheduler_of_no_request cfg env topWaiter hreq]
    exact .refl _
  | some req =>
    by_cases hqp : q = p
    · subst hqp
      rw [schedSetscheduler_of_request cfg env topWaiter hreq, setschedulerCommit_task,
        Function.update_self]
      refine KeepsCustom.requeued (KeepsCustom.of_wrr ?_) _
      rw [TaskStruct.setscheduler_wrr, if_pos (h req rfl hreq)]
    · rw [schedSetscheduler_task_of_ne _ _ _ _ _ (Ne.symm hqp)]
      exact .refl _

/-- Becoming the stop task keeps a custom weight. -/
theorem becomeStop_keepsCustom (q : TaskPtr) (c : Caller) (topWaiter : Option ℤ) (p : TaskPtr) :
    KeepsCustom (s.task p) ((s.becomeStop cfg env q c topWaiter).task p) := by
  have hset : KeepsCustom (s.task p)
      ((s.schedSetscheduler cfg env q Policy.fifo.toNat (maxRtPrio - 1) false c topWaiter).1.task
        p) := by
    refine schedSetscheduler_keepsCustom topWaiter p fun req _ hreq hwrr => ?_
    have hvalid := (setschedulerRequest_eq_some hreq).1
    rw [validate_fifo] at hvalid
    rw [← Except.ok.inj hvalid] at hwrr
    cases hwrr
  unfold becomeStop
  rw [modifyTask_task]
  by_cases hpq : p = q
  · subst hpq
    rw [Function.update_self]
    exact hset
  · rw [Function.update_of_ne hpq]
    exact hset

/-- So does a change of the stop task. -/
theorem schedSetStopTask_keepsCustom (stop : Option TaskPtr) (c : Caller) (topWaiter : Option ℤ)
    (p : TaskPtr) :
    KeepsCustom (s.task p) ((s.schedSetStopTask cfg env stop c topWaiter).task p) := by
  have hnew : KeepsCustom (s.task p)
      ((stop.elim s (s.becomeStop cfg env · c topWaiter)).task p) := by
    cases stop with
    | none => exact .refl _
    | some q => exact becomeStop_keepsCustom q c topWaiter p
  unfold schedSetStopTask
  cases s.stop with
  | none => exact hnew
  | some q =>
    dsimp only
    rw [modifyTask_task]
    by_cases hpq : p = q
    · subst hpq
      rw [Function.update_self]
      exact hnew
    · rw [Function.update_of_ne hpq]
      exact hnew

/-- The same calls, but none of `__sched_setscheduler`. -/
def withoutSetscheduler (rule : Rule) : Rule :=
  { rule with topWaiter := fun _ _ => False }

/-- No operation other than `__setscheduler` for WRR touches a custom weight. -/
theorem next_keepsCustom (h : s.Settled cfg) {op : Op} (hen : s.Enabled rule op env) {p : TaskPtr}
    (hp : p ∈ s.live) (hidle : p ≠ s.idle) (hset : s.setsWrr op p = none) :
    KeepsCustom (s.task p) ((s.next cfg op env).task p) := by
  -- the other operations are enabled also under a rule that allows no `__sched_setscheduler`
  have hother (hen' : s.Enabled (withoutSetscheduler rule) op env) :
      KeepsCustom (s.task p) ((s.next cfg op env).task p) :=
    KeepsCustom.steps (fun _ _ => id) (next_taskSteps h hen' hp hidle)
  cases op with
  | schedSetscheduler q policy prio user c topWaiter =>
    refine schedSetscheduler_keepsCustom topWaiter p fun req hqp hreq hwrr => ?_
    unfold setsWrr at hset
    dsimp only at hset
    rw [hreq] at hset
    dsimp only at hset
    rw [if_pos ⟨hqp, hwrr⟩] at hset
    cases hset
  | schedSetStopTask stop c topWaiter =>
    exact schedSetStopTask_keepsCustom stop c topWaiter p
  | _ => exact hother hen

/-- The weight of a task whose weight is a custom one. -/
def customWeight (s : State) (p : TaskPtr) : Option ℕ :=
  if (s.task p).wrr.customWeight then some (s.task p).wrr.weight.toNat else none

/-- The custom weight the history of a run gives `p`: the non-zero priority of the last
`__setscheduler(SCHED_WRR, ·)` executed on it, or the custom weight of its parent at the fork. -/
def givenWeight (p : TaskPtr) : List (State × (Op × Env)) → Option ℕ
  | [] => none
  | (s, op, _) :: h =>
    match s.setsWrr op p, op with
    | some prio, _ => if prio = 0 then none else some prio.toNat
    | none, .schedFork child _ => if child = p then s.customWeight s.curr else givenWeight p h
    | none, _ => givenWeight p h

/-- The last call counts. -/
theorem givenWeight_of_set {op : Op} {p : TaskPtr} {prio : ℤ} (hset : s.setsWrr op p = some prio)
    (h : List (State × (Op × Env))) :
    givenWeight p ((s, op, env) :: h) = if prio = 0 then none else some prio.toNat := by
  simp only [givenWeight, hset]

/-- A child starts with the custom weight of its parent. -/
theorem givenWeight_fork (child : TaskPtr) (mm : Bool) (h : List (State × (Op × Env))) :
    givenWeight child ((s, .schedFork child mm, env) :: h) = s.customWeight s.curr := by
  simp only [givenWeight, setsWrr, if_true]

/-- The other operations say nothing about the weight of `p`. -/
theorem givenWeight_of_none {op : Op} {p : TaskPtr} (hset : s.setsWrr op p = none)
    (hfork : ∀ mm, op ≠ .schedFork p mm) (h : List (State × (Op × Env))) :
    givenWeight p ((s, op, env) :: h) = givenWeight p h := by
  cases op with
  | schedFork child mm =>
    have hne : child ≠ p := by
      rintro rfl
      exact hfork mm rfl
    simp only [givenWeight, setsWrr, if_neg hne]
  | _ => simp only [givenWeight, hset]

end State

/-! ### Runs -/

section Runs

variable {s : State} {h : List (State × (Op × Env))}

/-- The custom weight of every task is the one its history gives it. -/
theorem givenWeight_of_run (hr : (system cfg rule).Run h s) :
    ∀ p ∈ s.live, p ≠ s.idle → (s.task p).wrr.customWeight = true →
      State.givenWeight p h = some (s.task p).wrr.weight.toNat := by
  induction hr with
  | init h0 =>
    obtain ⟨idle, tg, group, clockTask, rfl⟩ := h0
    intro p _ _ hc
    cases hc
  | @step h s i hr hen ih =>
    obtain ⟨op, env⟩ := i
    have hinv := reachable_inv hr.reachable
    intro p hp hidle hc
    replace hp : p ∈ (s.next cfg op env).live := hp
    replace hidle : p ≠ (s.next cfg op env).idle := hidle
    replace hc : ((s.next cfg op env).task p).wrr.customWeight = true := hc
    show State.givenWeight p ((s, op, env) :: h) =
      some ((s.next cfg op env).task p).wrr.weight.toNat
    obtain ⟨hidle_eq, -, hlive⟩ := s.next_fixed cfg op env
    rw [hidle_eq] at hidle
    cases hset : s.setsWrr op p with
    | some prio =>
      obtain ⟨policy, user, c, topWaiter, req, rfl, hreq, hwrr⟩ := State.setsWrr_eq_some hset
      have hrange :=
        checkPriority_eq_ok (validate_eq_ok (State.setschedulerRequest_eq_some hreq).1).2
      have hmax : maxRtPrio = 100 := rfl
      rw [State.next, State.schedSetscheduler_of_request cfg env topWaiter hreq,
        State.setschedulerCommit_task, Function.update_self] at hc ⊢
      rw [TaskStruct.requeued_customWeight] at hc
      -- the enqueue that follows keeps the custom weight
      have hweight : (TaskStruct.requeued cfg s.group (s.task p).onRq (TaskStruct.setscheduler
          { s.task p with schedResetOnFork := req.resetOnFork } req.policy prio
          topWaiter)).wrr.weight = _ :=
        ((KeepsCustom.refl _).requeued (s.task p).onRq).2 hc
      rw [hweight]
      rw [TaskStruct.setscheduler_wrr, hwrr, if_neg (not_not.mpr rfl)] at hc ⊢
      split at hc
      · next hne =>
        rw [if_pos hne, State.givenWeight_of_set hset, if_neg hne]
        show _ = some (UInt32.ofNat prio.toNat).toNat
        rw [UInt32.toNat_ofNat', Nat.mod_eq_of_lt (by omega)]
      · cases hc
    | none =>
      by_cases hfork : ∃ mm, op = .schedFork p mm
      · obtain ⟨mm, rfl⟩ := hfork
        have htask : (s.next cfg (.schedFork p mm) env).task p =
            (s.task s.curr).schedFork { s.task s.curr with mm := mm, started := false } :=
          Function.update_self _ _ _
        rw [htask, TaskStruct.schedFork_wrr] at hc ⊢
        rw [State.givenWeight_fork, State.customWeight, if_pos hc]
      · -- `p` is older than the operation, which does not set its weight
        have hold : p ∈ s.live := by
          rw [hlive] at hp
          split at hp
          · next child mm =>
            refine (Finset.mem_insert.mp hp).resolve_left ?_
            rintro rfl
            exact hfork ⟨mm, rfl⟩
          · exact hp
        obtain ⟨hflag, hweight⟩ :=
          State.next_keepsCustom hinv.toSettled hen hold hidle hset
        rw [hflag] at hc
        rw [State.givenWeight_of_none hset fun mm heq => hfork ⟨mm, heq⟩, hweight hc]
        exact ih p hold hidle hc

/-- If group paths do not change, queued WRR tasks without a custom weight have that of their
group. -/
theorem reachable_groupWeight (hrule : ¬rule.regroup) (hs : (system cfg rule).Reachable s) :
    ∀ p ∈ s.live, p ≠ s.idle → GroupWeight s.group (s.task p) := by
  refine forall_task (I := GroupWeight) (fun g t mm _ => ?_) (fun g t mm _ _ => ?_)
    (fun hregroup => absurd hregroup hrule) (fun g t t' h hstep => h.step hstep) hs
  · exact .of_off (t.schedFork_onRq _)
  · exact .of_off (t.schedFork_onRq _)

/-- Every queued WRR task has the weight its group or its own setting prescribes, no operation but
`__setscheduler` changes a custom weight, and a slice is refilled by that weight. -/
theorem weight_prescribed (hr : (system cfg .fixedPaths).Run h s) :
    (∀ p ∈ s.rq.active,
      ((s.task p).wrr.customWeight = false →
        (s.task p).wrr.weight =
          if (s.group (s.task p).schedTaskGroup).second = 'b' then wrrBgWeight
          else wrrFgWeight) ∧
      ((s.task p).wrr.customWeight = true →
        State.givenWeight p h = some (s.task p).wrr.weight.toNat)) ∧
      (∀ op env p, s.Enabled .fixedPaths op env → p ∈ s.live → p ≠ s.idle →
        (s.task p).wrr.customWeight = true → s.setsWrr op p = none →
          ((s.next cfg op env).task p).wrr.customWeight = true ∧
            ((s.next cfg op env).task p).wrr.weight = (s.task p).wrr.weight) ∧
      ∀ env, (s.task s.curr).schedClass = .wrr → (s.task s.curr).wrr.timeSlice.toNat ≤ 1 →
        s.curr ∈ s.rq.active ∧
          ((s.schedulerTick cfg env).task s.curr).wrr =
            { (s.task s.curr).wrr with
              timeSlice := (s.task s.curr).wrr.weight * cfg.wrrWeightUnit } := by
  have hinv := reachable_inv hr.reachable
  have hgroup := reachable_groupWeight (fun hfalse => hfalse) hr.reachable
  refine ⟨fun p hp => ⟨fun hc => ?_, fun hc => ?_⟩, fun op env p hen hp hidle hc hset => ?_,
    fun env hwrr hslice => ⟨?_, ?_⟩⟩
  · -- the weight of the group
    have hon := hinv.onRq_of_mem hp
    exact hgroup p (hinv.live_of_onRq hon) (hinv.ne_idle_of_onRq hon) hon (hinv.class_of_mem hp) hc
  · -- the weight that was given last
    have hon := hinv.onRq_of_mem hp
    exact givenWeight_of_run hr p (hinv.live_of_onRq hon) (hinv.ne_idle_of_onRq hon) hc
  · -- nobody else writes it
    obtain ⟨hflag, hweight⟩ := State.next_keepsCustom hinv.toSettled hen hp hidle hset
    exact ⟨hflag.trans hc, hweight hc⟩
  · -- the refill
    have hne : s.curr ≠ s.idle := fun heq => hinv.idle_class (heq ▸ hwrr)
    exact (hinv.queue.mem_iff s.curr).mpr ⟨hinv.onRq_of_ne hne, hwrr⟩
  · rw [State.schedulerTick_task_curr hwrr, TaskStruct.tickWrr, if_pos hslice]
    rfl

/-- After `sched_setscheduler(p, SCHED_WRR, 7)` the task has the weight 7. -/
theorem weight_prescribed_small :
    ∃ h, (system Small.cfg .fixedPaths).Run h
        (Small.setWrr (Small.start [Small.taskA]) Small.taskA 7) ∧
      State.givenWeight Small.taskA h = some 7 := by
  obtain ⟨h, hr⟩ := Small.wrrA_reachable .fixedPaths trivial 7
  exact ⟨h, hr, ((weight_prescribed hr).1 Small.taskA (by decide)).2 (by decide)⟩

end Runs

end WrrSched
