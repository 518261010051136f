import WrrSched.Correctness.Invariant

/-!
# The run queue between operations

What `Inv` says about `struct wrr_rq` and about the choice of the next task.

- `wrr_rq_consistent`: list, counters and tasks agree in every reachable state, and the pick takes
  the head of the list;
- `pick_next_task_fast_path`: asking the fair class first does not change the choice.
-/

namespace WrrSched

/-! ## Counters -/

namespace State

variable (cfg : Config) (s : State) (p : TaskPtr)

/-- `rq->nr_running - rq->wrr.wrr_nr_running`: the queued tasks of the other classes. -/
def otherNrRunning : UInt32 := s.rq.nrRunning - s.rq.wrrNrRunning

/-- `enqueue_task_wrr` counts the task in both counters, whether or not it is a WRR task. -/
theorem enqueueTaskWrr_otherNrRunning (flags : ℕ) :
    (s.enqueueTaskWrr cfg p flags).otherNrRunning = s.otherNrRunning := by
  show s.rq.nrRunning + 1 - (s.rq.wrrNrRunning + 1) = s.rq.nrRunning - s.rq.wrrNrRunning
  exact Counter.add_sub_add_right _ _ 1

theorem dequeueTaskWrr_otherNrRunning :
    (s.dequeueTaskWrr p).otherNrRunning = s.otherNrRunning := by
  have hrq := s.updateCurrWrr_quiet.rq
  show s.updateCurrWrr.rq.nrRunning - 1 - (s.updateCurrWrr.rq.wrrNrRunning - 1) = _
  rw [hrq, Counter.sub_sub_sub_right, otherNrRunning]

/-! ## The pick -/

/-- `pick_next_task_wrr` takes the head of a list that the counter says is not empty. -/
def PicksHead : Prop :=
  ∀ tvNsec, s.rq.wrrNrRunning ≠ 0 → wrrThrottled tvNsec = false →
    ∃ p, s.rq.active.head? = some p ∧ (s.pickNextTaskWrr tvNsec).1 = some p ∧
      (s.pickNextTaskWrr tvNsec).2.bug = s.bug

/-- The shortcut of `pick_next_task` is sound: what it returns is what the class walk would, and it
never keeps the head of the WRR queue from being picked. -/
structure FastPathSound (env : Env) : Prop where
  fair : ∀ p, s.rq.nrRunning = s.rq.hNrRunning → env.pickFair s = some p →
    s.rq.active = [] ∧ (s.pickWalk env forEachClass).1 = p
  head : ∀ p, s.rq.active.head? = some p → env.pickStop s = none → env.pickRt s = none →
    wrrThrottled env.tvNsec = false → (s.pickNextTask env).1 = p

variable {s p}

/-- The pick of WRR when it has something to offer. -/
theorem pickNextTaskWrr_of_head {tvNsec : ℕ} (hnr : s.rq.wrrNrRunning ≠ 0)
    (hthrottled : wrrThrottled tvNsec = false) (hhead : s.rq.active.head? = some p) :
    s.pickNextTaskWrr tvNsec =
      (some p, { s with
        se := Function.update s.se p { s.se p with execStart := s.clockTask } }) := by
  unfold pickNextTaskWrr
  rw [if_neg hnr, if_neg (by simp [hthrottled]), hhead]

/-- The class walk passes over classes that offer nothing. -/
theorem pickWalk_cons_none {env : Env} {c : SchedClass} {cs : List SchedClass}
    (h : s.classPickNextTask env c = (none, s)) :
    s.pickWalk env (c :: cs) = s.pickWalk env cs := by
  rw [pickWalk, h]

theorem pickWalk_cons_some {env : Env} {c : SchedClass} {cs : List SchedClass}
    (h : (s.classPickNextTask env c).1 = some p) : (s.pickWalk env (c :: cs)).1 = p := by
  rw [pickWalk]
  generalize s.classPickNextTask env c = r at h
  obtain ⟨next, s'⟩ := r
  dsimp only at h
  rw [h]

end State

namespace QueueInv

variable {cfg : Config} {env : Env} {s : State} {p : TaskPtr}

/-- `wrr_nr_running` tests whether the list is empty. -/
theorem wrrNrRunning_eq_zero_iff {on : TaskPtr → Bool} (h : QueueInv s on) :
    s.rq.wrrNrRunning = 0 ↔ s.rq.active = [] := by
  rw [← UInt32.toNat_inj, h.toNat_wrrNrRunning]
  exact List.length_eq_zero_iff

theorem picksHead (h : QueueInv s s.onRq) : s.PicksHead := by
  intro tvNsec hnr hthrottled
  have hne : s.rq.active ≠ [] := fun hnil => hnr (h.wrrNrRunning_eq_zero_iff.mpr hnil)
  obtain ⟨p, hp⟩ := Option.isSome_iff_exists.mp (List.isSome_head?.mpr hne)
  refine ⟨p, hp, ?_, ?_⟩
  · rw [State.pickNextTaskWrr_of_head hnr hthrottled hp]
  · rw [State.pickNextTaskWrr_of_head hnr hthrottled hp]

/-- If all of `nr_running` is counted in `cfs.h_nr_running`, every queued task is a fair one. -/
theorem fair_of_nrRunning_eq {on : TaskPtr → Bool} (h : QueueInv s on)
    (heq : s.rq.nrRunning = s.rq.hNrRunning) (hp : on p = true) :
    (s.task p).schedClass = .fair := by
  have hsub : (s.live.filter fun q => on q && decide ((s.task q).schedClass = .fair)) ⊆
      s.live.filter fun q => on q := by
    intro q hq
    rw [Finset.mem_filter, Bool.and_eq_true] at hq
    exact Finset.mem_filter.mpr ⟨hq.1, hq.2.1⟩
  -- the smaller set has as many elements
  have hcard : (s.live.filter fun q => on q).card ≤
      (s.live.filter fun q => on q && decide ((s.task q).schedClass = .fair)).card := by
    rw [← h.toNat_nrRunning, heq, h.toNat_hNrRunning]
  have hmem : p ∈ s.live.filter fun q => on q := Finset.mem_filter.mpr ⟨h.live p hp, hp⟩
  rw [← Finset.eq_of_subset_of_card_le hsub hcard, Finset.mem_filter, Bool.and_eq_true,
    decide_eq_true_eq] at hmem
  exact hmem.2.2

variable (env) in
theorem fastPathSound (h : QueueInv s s.onRq) : s.FastPathSound env where
  fair p heq hp := by
    -- all queued tasks are fair ones, so the classes before the fair one offer nothing
    have hempty : s.rq.active = [] := by
      refine List.eq_nil_iff_forall_not_mem.mpr fun q hq => ?_
      obtain ⟨hon, hwrr⟩ := (h.mem_iff q).mp hq
      rw [h.fair_of_nrRunning_eq heq hon] at hwrr
      cases hwrr
    have hstop : env.pickStop s = none := by
      refine Option.eq_none_iff_forall_ne_some.mpr fun q hq => ?_
      obtain ⟨hon, hclass⟩ := env.pickStop_queued s q hq
      rw [h.fair_of_nrRunning_eq heq hon] at hclass
      cases hclass
    have hrt : env.pickRt s = none := by
      refine Option.eq_none_iff_forall_ne_some.mpr fun q hq => ?_
      obtain ⟨hon, hclass⟩ := env.pickRt_queued s q hq
      rw [h.fair_of_nrRunning_eq heq hon] at hclass
      cases hclass
    have hwrr : s.classPickNextTask env .wrr = (none, s) := by
      rw [State.classPickNextTask, State.pickNextTaskWrr,
        if_pos (h.wrrNrRunning_eq_zero_iff.mpr hempty)]
    refine ⟨hempty, ?_⟩
    rw [forEachClass, State.pickWalk_cons_none (by rw [State.classPickNextTask, hstop]),
      State.pickWalk_cons_none (by rw [State.classPickNextTask, hrt]),
      State.pickWalk_cons_none hwrr]
    exact State.pickWalk_cons_some hp
  head p hhead hstop hrt hthrottled := by
    obtain ⟨hon, hwrr⟩ := (h.mem_iff p).mp (List.mem_of_head? hhead)
    -- a queued WRR task is counted in `nr_running` only, so the shortcut is not taken
    have hne : s.rq.nrRunning ≠ s.rq.hNrRunning := by
      intro heq
      rw [h.fair_of_nrRunning_eq heq hon] at hwrr
      cases hwrr
    have hnr : s.rq.wrrNrRunning ≠ 0 := by
      rw [Ne, h.wrrNrRunning_eq_zero_iff]
      intro hnil
      rw [hnil] at hhead
      cases hhead
    unfold State.pickNextTask
    rw [if_neg hne, forEachClass,
      State.pickWalk_cons_none (by rw [State.classPickNextTask, hstop]),
      State.pickWalk_cons_none (by rw [State.classPickNextTask, hrt])]
    refine State.pickWalk_cons_some ?_
    rw [State.classPickNextTask, State.pickNextTaskWrr_of_head hnr hthrottled hhead]

end QueueInv

/-! ## Reachable states -/

section Reachable

variable {cfg : Config} {rule : Rule} {s : State}

/-- `__schedule` is called in `t`: in a reachable state, or in a yield there. -/
def State.CallsSchedule (rule : Rule) (s : State) (env : Env) (t : State) : Prop :=
  s.Enabled rule .schedule env ∧ t = s ∨ s.Enabled rule .schedYield env ∧ t = s.classYieldTask

theorem Inv.of_callsSchedule (h : Inv cfg s) {env : Env} {t : State}
    (ht : s.CallsSchedule rule env t) :
    Inv cfg t ∧ ∀ w, env.toWakeup = some w → t.Target w := by
  rcases ht with ⟨hen, rfl⟩ | ⟨hen, rfl⟩
  · exact ⟨h, hen.1⟩
  · have hf := s.classYieldTask_frame
    refine ⟨h.of_frame hf s.classYieldTask_task
      (h.queue.classYieldTask (h.onRq_of_ne hen.2.1)), fun w hw => ?_⟩
    unfold State.Target
    rw [hf.live, hf.idle]
    exact hen.1 w hw

/-- The queue is consistent wherever the next task is picked. -/
theorem Inv.queue_of_callsSchedule (h : Inv cfg s) {env : Env} {t : State}
    (ht : s.CallsSchedule rule env t) :
    QueueInv (t.pickState cfg env) (t.pickState cfg env).onRq := by
  obtain ⟨hinv, hworker⟩ := h.of_callsSchedule ht
  exact hinv.pickState env hworker

/-- The representation invariant of the WRR run queue. Two of the counters are exact because there
are fewer tasks than addresses; the weights add up modulo `2 ^ 32`, and exactly while there are
fewer than `2 ^ 25` tasks. -/
theorem wrr_rq_consistent (hs : (system cfg rule).Reachable s) :
    s.rq.active.Nodup ∧
      (∀ p, p ∈ s.rq.active ↔ (s.task p).onRq = true ∧ (s.task p).schedClass = .wrr) ∧
      s.rq.wrrNrRunning.toNat = s.rq.active.length ∧
      s.rq.nrRunning.toNat = (s.live.filter fun p => (s.task p).onRq).card ∧
      s.rq.totalWeight = UInt32.ofNat s.weightSum ∧
      (s.live.card < 2 ^ 25 → s.rq.totalWeight.toNat = s.weightSum ∧ s.rq.wrapped = false) ∧
      (∀ p flags, (s.enqueueTaskWrr cfg p flags).otherNrRunning = s.otherNrRunning) ∧
      (∀ p, (s.dequeueTaskWrr p).otherNrRunning = s.otherNrRunning) ∧
      s.PicksHead ∧
      ∀ env t, s.CallsSchedule rule env t → (t.pickState cfg env).PicksHead := by
  have hinv := reachable_inv hs
  have hq := hinv.queue
  refine ⟨hq.nodup, hq.mem_iff, hq.toNat_wrrNrRunning, hq.toNat_nrRunning, hq.totalWeight,
    fun hlive => ⟨hq.toNat_totalWeight hlive, hq.wrapped hlive⟩,
    fun p flags => s.enqueueTaskWrr_otherNrRunning cfg p flags,
    fun p => s.dequeueTaskWrr_otherNrRunning p, hq.picksHead, fun env t ht => ?_⟩
  exact (hinv.queue_of_callsSchedule ht).picksHead

/-- A run that ends with two queued WRR tasks of weights 1 and 2, beside the idle task. -/
theorem wrr_rq_consistent_wrrPair :
    let s := Small.wrrPair
    s.rq.active = [Small.taskA, Small.taskB] ∧ s.rq.wrrNrRunning.toNat = s.rq.active.length ∧
      s.rq.nrRunning.toNat = (s.live.filter fun p => (s.task p).onRq).card ∧
      s.rq.totalWeight.toNat = s.weightSum ∧ s.weightSum = 3 ∧ s.PicksHead := by
  intro s
  obtain ⟨-, -, hnr, hrunning, -, hweight, -, -, hpick, -⟩ :=
    wrr_rq_consistent Small.wrrPair_reachable
  exact ⟨by decide +kernel, hnr, hrunning, (hweight (by decide)).1, by decide +kernel, hpick⟩

/-- In every reachable state, and wherever the next task is picked, the fast path agrees with the
class walk. -/
theorem pick_next_task_fast_path (hs : (system cfg rule).Reachable s) (env : Env) :
    s.FastPathSound env ∧
      ∀ t, s.CallsSchedule rule env t → (t.pickState cfg env).FastPathSound env := by
  have hinv := reachable_inv hs
  refine ⟨hinv.queue.fastPathSound env, fun t ht => ?_⟩
  exact (hinv.queue_of_callsSchedule ht).fastPathSound env

/-- With a fair task alone the shortcut is taken; a WRR task is picked by the walk. -/
theorem pick_next_task_fast_path_small :
    ((Small.start [Small.taskA]).pickWalk (Small.env [Small.taskA] 0) forEachClass).1 =
        Small.taskA ∧
      ((Small.setWrr (Small.start [Small.taskA]) Small.taskA 0).pickNextTask (Small.env [] 72)).1 =
        Small.taskA := by
  have hstart := (Small.reachable_start .any [Small.taskA] (by decide)).1
  have hfair := (pick_next_task_fast_path hstart (Small.env [Small.taskA] 0)).1
  have hwrr := (pick_next_task_fast_path (Small.wrrA_reachable .any trivial 0) (Small.env [] 72)).1
  exact ⟨(hfair.fair Small.taskA (by decide) (by decide)).2,
    hwrr.head Small.taskA (by decide) rfl rfl (by decide)⟩

end Reachable

end WrrSched
