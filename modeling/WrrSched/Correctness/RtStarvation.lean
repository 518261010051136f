import WrrSched.Correctness.RtAdmission
import WrrSched.Correctness.RtOrder

/-!
# Groups without RT runtime

No task is to be put into a group without runtime, "when there is no way for them to run". But a
group that has tasks can lose its runtime, since `tg_has_rt_tasks` knows only the root group, and
from then on `rt_throttled` keeps the value it has.

- `rtSystem_unguarded`: when a group can lose its runtime;
- `rtSystem_frozen`: neither a charge nor the timer moves `rt_throttled`.
-/

namespace WrrSched

/-! ## Accounts -/

namespace RtRq

variable {b : RtBandwidth} {rq rq' : RtRq}

/-- "Don't actually throttle groups that have no runtime assigned". -/
theorem rtThrottled_charge (hb : b.rtRuntime = 0) (delta : UInt64) :
    (rq.charge b delta).rtThrottled = rq.rtThrottled := by
  unfold charge limit accrue
  dsimp only
  split_ifs with _ _ hb'
  · rfl
  · rfl
  · exact absurd hb hb'
  · rfl

/-- "Replenishment is a joke, since it will replenish us with exactly 0 ns". -/
theorem rtThrottled_refill (hR : rq.rtRuntime = 0) (n : ℕ) :
    (rq.refill n).rtThrottled = rq.rtThrottled := by
  unfold refill
  split
  · have hlt (x : UInt64) : decide (x < rq.rtRuntime) = false := by
      rw [hR]
      exact decide_eq_false UInt64.not_lt_zero
    dsimp only
    rw [hlt, Bool.not_false, Bool.and_true]
  · rfl

theorem rtThrottled_refills (hR : rq.rtRuntime = 0) (overruns : List ℕ) :
    (rq.refills overruns).rtThrottled = rq.rtThrottled := by
  induction overruns generalizing rq with
  | nil => rfl
  | cons n overruns ih =>
    exact (ih ((rtRuntime_refill n rq).trans hR)).trans (rtThrottled_refill hR n)

theorem Billed.rtThrottled (h : Billed b rq rq') (hb : b.rtRuntime = 0) (hR : rq.rtRuntime = 0) :
    rq'.rtThrottled = rq.rtThrottled := by
  cases h with
  | same ha => exact congrArg (·.2.1) ha
  | charge delta ha => exact (congrArg (·.2.1) ha).trans (rtThrottled_charge hb delta)
  | refill overruns ha => exact (congrArg (·.2.1) ha).trans (rtThrottled_refills hR overruns)

end RtRq

/-! ## A small group -/

namespace SmallRt

/-- The second task is in a group with 300 ms of each second. -/
def limited : RtState :=
  (((boot.next Small.cfg (.schedCreateGroup [] 1)).next Small.cfg
    (.schedGroupSetRtRuntime [1] 300000)).next Small.cfg (.setTaskRq Small.taskB [1])).next Small.cfg
      (.enqueueTaskRt Small.taskB 0)

/-- The second task runs for 400 ms. -/
def spent : RtState :=
  let s := limited.next Small.cfg .pickNextTaskRt
  (s.next Small.cfg (.other { s.core with clockTask := 400000000 })).next Small.cfg .putPrevTaskRt

/-- The group loses its runtime. -/
def stranded : RtState := spent.next Small.cfg (.schedGroupSetRtRuntime [1] 0)

theorem reachable_limited : (rtSystem Small.cfg).Reachable limited := by
  have hcreate : boot.Enabled (.schedCreateGroup [] 1) := ⟨by decide, by decide⟩
  have h1 := reachable_next (.init init_boot) _ hcreate
  have hruntime : (boot.next Small.cfg (.schedCreateGroup [] 1)).Enabled
      (.schedGroupSetRtRuntime [1] 300000) := List.mem_cons_self
  have h2 := reachable_next h1 _ hruntime
  have h3 := reachable_next h2 (.setTaskRq Small.taskB [1]) ⟨by decide +kernel, by decide +kernel⟩
  exact reachable_next h3 (.enqueueTaskRt Small.taskB 0)
    ⟨by decide +kernel, by decide +kernel, by decide +kernel, by decide +kernel, by decide +kernel⟩

theorem reachable_spent : (rtSystem Small.cfg).Reachable spent := by
  have hpicked := reachable_next reachable_limited .pickNextTaskRt trivial
  have hlater := reachable_next hpicked _ (kept_clock (rtSystem_inv hpicked) 400000000)
  exact reachable_next hlater .putPrevTaskRt trivial

theorem reachable_stranded : (rtSystem Small.cfg).Reachable stranded := by
  have hg : [1] ∈ spent.taskGroups := by decide +kernel
  exact reachable_next reachable_spent (.schedGroupSetRtRuntime [1] 0) hg

end SmallRt

/-! ## Runs -/

open RtState

variable {cfg : Config} {s s' : RtState} {g : RtGroup}

/-- Unless the root group has no runtime either, a group can lose its runtime exactly when its
children have no share, whatever RT tasks it has; a new RT task cannot be put into it then. -/
theorem rtSystem_unguarded (h : (rtSystem cfg).Reachable s) (hg : g ∈ s.taskGroups)
    (hroot : g ≠ []) :
    ((s.schedGroupSetRtRuntime g 0).1 = 0 ↔ s.childShares g = 0 ∧
        ¬(s.rtBandwidthEnabled = true ∧ (s.rtBandwidth []).rtRuntime = 0 ∧
          s.tgHasRtTasks [] = true)) ∧
      ((s.schedGroupSetRtRuntime g 0).1 = 0 →
        ∀ p, (s.schedGroupSetRtRuntime g 0).2.schedRtCanAttach g p =
          !rtPrio ((s.schedGroupSetRtRuntime g 0).2.core.task p).prio) := by
  -- a runtime of zero has the share zero, so only the children can be in its way
  have hshare : (toRatio (s.rtBandwidth g).rtPeriod 0).toNat = 0 := by
    have hzero : ((0 : UInt64) <<< 20) / (s.rtBandwidth g).rtPeriod = 0 := by
      apply UInt64.toNat_inj.mp
      rw [UInt64.toNat_div]
      exact Nat.zero_div _
    rw [toRatio, if_neg (by decide), hzero]
    rfl
  have hset : s.schedGroupSetRtRuntime g 0 = s.tgSetRtBandwidth g (s.rtBandwidth g).rtPeriod 0 :=
    rfl
  have hstarves : s.Starves (requestFor g (s.rtBandwidth g).rtPeriod 0) ↔
      s.rtBandwidthEnabled = true ∧ (s.rtBandwidth []).rtRuntime = 0 ∧ s.tgHasRtTasks [] = true := by
    have hne : some g ≠ some [] := fun heq => hroot (Option.some.inj heq)
    rw [Starves, requested, requestFor, if_neg hne]
  rw [hset]
  refine ⟨?_, fun hgranted p => ?_⟩
  · rw [rtSystem_grants h hg, hshare, hstarves]
    refine ⟨fun hreq => ⟨Nat.le_zero.mp hreq.2.2.2.1, hreq.2.1⟩, fun hzero =>
      ⟨.inl UInt64.zero_le, hzero.2, Nat.zero_le _, hzero.1.le, fun tg parent heq => ?_⟩⟩
    have hparent := (rtSystem_inv h).groups.parent tg parent (heq ▸ hg)
    have hfit := (rtSystem_admitted h).childShares_le parent hparent
    omega
  · rw [schedRtCanAttach, (tgSetRtBandwidth_granted hgranted).2]
    simp

theorem rtSystem_unguarded_spent :
    (SmallRt.spent.schedGroupSetRtRuntime [1] 0).1 = 0 ∧
      SmallRt.spent.onRtRq (.task Small.taskB) = true ∧ SmallRt.spent.rtGroup Small.taskB = [1] :=
  ⟨(rtSystem_unguarded SmallRt.reachable_spent (by decide +kernel) (by decide)).1.mpr
    ⟨by decide +kernel, by decide +kernel⟩, by decide +kernel, by decide +kernel⟩

/-- As long as the bandwidth of a group without runtime stays, the group stays throttled, and only
boosted tasks in it run, or it stays free, and its tasks run without a limit. -/
theorem rtSystem_frozen (h : (rtSystem cfg).Reachable s) (hR : (s.rtBandwidth g).rtRuntime = 0)
    (hp : (rtSystem cfg).Path (fun _ op => ¬ Retunes g op) s s') :
    (s'.rtRq g).rtThrottled = (s.rtRq g).rtThrottled ∧
      ((s.rtRq g).rtThrottled = true → ∀ p, s'.pickNextTaskRt.1 = some p →
        g <:+ s'.rtGroup p → (s'.rtRq g).rtNrBoosted ≠ 0) := by
  obtain ⟨hthr, -⟩ := hp.invariant
    (I := fun t => (t.rtRq g).rtThrottled = (s.rtRq g).rtThrottled ∧
      (t.rtBandwidth g).rtRuntime = 0) h ⟨rfl, hR⟩ fun t op ht ⟨hthr, hbw⟩ hen hop => by
      have hstep := (rtSystem_inv ht).timeStep cfg op hen hop
      have hrt := (rtSystem_accountOk ht g).rtRuntime.trans hbw
      exact ⟨(hstep.billed.rtThrottled hbw hrt).trans hthr, hstep.bandwidthRuntime.trans hbw⟩
  refine ⟨hthr, fun hthrottled p hpick hgroup hboost => ?_⟩
  have heligible := ((rtSystem_pick (hp.reachable h)).2 p hpick).1
  have hfree := heligible.2 g hgroup
  rw [rtRqThrottled, hthr, hthrottled, hboost] at hfree
  cases hfree

/-- The timer does not let the small group go. -/
theorem rtSystem_frozen_stranded :
    ((SmallRt.stranded.next Small.cfg (.schedRtPeriodTimer [1] [5])).rtRq [1]).rtThrottled = true := by
  have hen : SmallRt.stranded.Enabled (.schedRtPeriodTimer [1] [5]) :=
    ⟨by decide +kernel, by decide +kernel⟩
  have hpath : (rtSystem Small.cfg).Path (fun _ op => ¬ Retunes [1] op) SmallRt.stranded
      (SmallRt.stranded.next Small.cfg (.schedRtPeriodTimer [1] [5])) :=
    SmallRt.path_next .refl _ hen nofun
  have hthrottled : (SmallRt.stranded.rtRq [1]).rtThrottled = true := by decide +kernel
  exact (rtSystem_frozen SmallRt.reachable_stranded (by decide +kernel) hpath).1.trans hthrottled

end WrrSched
