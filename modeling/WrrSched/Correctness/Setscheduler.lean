import WrrSched.Correctness.Weights

/-!
# Does an accepted weight take effect?

`__sched_setscheduler` returns 0 without doing anything if the policy stays and is not an RT policy.
The weight of a WRR task is not looked at, so a new weight for such a task is accepted and lost.

- `sched_setscheduler_weight_iff`: an accepted weight is in force afterwards if and only if the task
  was not a WRR task or the request repeats the setting it had;
- `sched_setscheduler_weight_lost`: a run in which a weight is lost.
-/

namespace WrrSched

namespace State

/-- The policy argument asks for WRR: it names the policy, or it is that of `sched_setparam` on a
WRR task. -/
def AsksWrr (t : TaskStruct) (policy : ℤ) : Prop :=
  ∃ req, decodePolicy t policy = .ok req ∧ req.policy = .wrr

/-- The weight `w` asked for is in force: a custom weight if it is not 0, else that of the group,
which the task has from its next enqueue on. If it is queued, the queue counts it with its
weight. -/
structure WeightInForce (cfg : Config) (s : State) (p : TaskPtr) (w : ℤ) : Prop where
  custom : 0 < w → (s.task p).wrr.customWeight = true ∧ ((s.task p).wrr.weight.toNat : ℤ) = w
  group : w = 0 → (s.task p).wrr.customWeight = false ∧ ∀ flags,
    ((s.enqueueTaskWrr cfg p flags).task p).wrr.weight = (s.group (s.task p).schedTaskGroup).weight
  queued : p ∈ s.rq.active → w = 0 →
    (s.task p).wrr.weight = (s.group (s.task p).schedTaskGroup).weight
  counted : p ∈ s.rq.active → s.rq.totalWeight = UInt32.ofNat s.weightSum

/-- The request repeats the setting that the task has. -/
def RepeatsWeight (s : State) (p : TaskPtr) (w : ℤ) : Prop :=
  if w = 0 then
    (s.task p).wrr.customWeight = false ∧
      (p ∈ s.rq.active → (s.task p).wrr.weight = (s.group (s.task p).schedTaskGroup).weight)
  else (s.task p).wrr.customWeight = true ∧ ((s.task p).wrr.weight.toNat : ℤ) = w

variable {cfg : Config} {rule : Rule} {env : Env} {s : State} {p : TaskPtr} {policy w : ℤ}

/-- For WRR, only the policy is compared. -/
theorem nothingChanges_wrr (t : TaskStruct) (w : ℤ) :
    nothingChanges t .wrr w = decide (t.policy = .wrr) := by
  unfold nothingChanges
  rw [decide_eq_decide]
  constructor
  · rintro ⟨h, -⟩
    exact h.symm
  · intro h
    exact ⟨h.symm, .inl rfl⟩

theorem enqueueTaskWrr_weight (h : (s.task p).wrr.customWeight = false) (flags : ℕ) :
    ((s.enqueueTaskWrr cfg p flags).task p).wrr.weight =
      (s.group (s.task p).schedTaskGroup).weight := by
  have htask := s.enqueueWrrEntity_task cfg p (decide (flags &&& enqueueHead ≠ 0))
  have hp : (s.enqueueTaskWrr cfg p flags).task p =
      (s.task p).enqueueWrr cfg (s.group (s.task p).schedTaskGroup) := by
    refine (congrFun htask p).trans ?_
    rw [Function.update_self]
  rw [hp, TaskStruct.enqueueWrr, h]
  rfl

/-- A call that changes nothing leaves the weight in force that was in force before. -/
theorem weightInForce_iff (hq : QueueInv s s.onRq) (hw : 0 ≤ w) :
    s.WeightInForce cfg p w ↔ s.RepeatsWeight p w := by
  unfold RepeatsWeight
  constructor
  · intro h
    split_ifs with h0
    · exact ⟨(h.group h0).1, fun hp => h.queued hp h0⟩
    · exact h.custom (lt_of_le_of_ne hw (Ne.symm h0))
  · intro h
    split_ifs at h with h0
    · refine ⟨fun hlt => absurd h0 hlt.ne', fun _ => ⟨h.1, enqueueTaskWrr_weight h.1⟩,
        fun hp _ => h.2 hp, fun _ => hq.totalWeight⟩
    · exact ⟨fun _ => h, fun h0' => absurd h0' h0, fun _ h0' => absurd h0' h0,
        fun _ => hq.totalWeight⟩

/-- A call that gets as far as `__setscheduler` puts the weight in force: the task is enqueued
after the weight is stored. -/
theorem setschedulerCommit_weightInForce {req : Request} {topWaiter : Option ℤ}
    (hreq : req.policy = .wrr) (hrange : 0 ≤ w ∧ w ≤ maxRtPrio - 1)
    (hq : QueueInv (s.setschedulerCommit cfg env p req w topWaiter)
      (s.setschedulerCommit cfg env p req w topWaiter).onRq) :
    (s.setschedulerCommit cfg env p req w topWaiter).WeightInForce cfg p w := by
  have hmax : maxRtPrio = 100 := rfl
  have hf := s.setschedulerCommit_frame cfg env p req w topWaiter
  have htask : (s.setschedulerCommit cfg env p req w topWaiter).task p =
      TaskStruct.requeued cfg s.group (s.task p).onRq
        (TaskStruct.setscheduler { s.task p with schedResetOnFork := req.resetOnFork } .wrr w
          topWaiter) := by
    rw [setschedulerCommit_task, Function.update_self, hreq]
  have hwrr := TaskStruct.setscheduler_wrr
    { s.task p with schedResetOnFork := req.resetOnFork } .wrr w topWaiter
  have hon := TaskStruct.setscheduler_onRq
    { s.task p with schedResetOnFork := req.resetOnFork } .wrr w topWaiter
  rw [if_neg (not_not.mpr rfl)] at hwrr
  generalize TaskStruct.setscheduler { s.task p with schedResetOnFork := req.resetOnFork } .wrr w
    topWaiter = t at htask hwrr hon
  -- the enqueue at the end respects the custom flag that was stored
  obtain ⟨hcustom, hweight⟩ : KeepsCustom t (t.requeued cfg s.group (s.task p).onRq) :=
    (KeepsCustom.refl t).requeued (s.task p).onRq
  have hgroup : GroupWeight s.group (t.requeued cfg s.group (s.task p).onRq) :=
    GroupWeight.requeued hon
  have hflag : w = 0 → (t.requeued cfg s.group (s.task p).onRq).wrr.customWeight = false := by
    intro h0
    rw [hcustom, hwrr, if_neg (not_not.mpr h0)]
  refine ⟨fun hlt => ?_, fun h0 => ?_, fun hp h0 => ?_, fun _ => hq.totalWeight⟩
  · rw [if_pos hlt.ne'] at hwrr
    have ht : t.wrr.customWeight = true := by rw [hwrr]
    rw [htask, hcustom, hweight ht, hwrr]
    refine ⟨rfl, ?_⟩
    show ((UInt32.ofNat w.toNat).toNat : ℤ) = w
    rw [UInt32.toNat_ofNat', Nat.mod_eq_of_lt (by omega)]
    omega
  · rw [← htask] at hflag
    exact ⟨hflag h0, enqueueTaskWrr_weight (hflag h0)⟩
  · obtain ⟨hpon, hclass⟩ := (hq.mem_iff p).mp hp
    unfold State.onRq at hpon
    rw [htask] at hpon hclass
    rw [hf.group, htask]
    exact hgroup hpon hclass (hflag h0)

end State

/-! ## Reachable states -/

section Reachable

open State

variable {cfg : Config} {rule : Rule} {env : Env} {s : State} {p : TaskPtr} {policy w : ℤ}
  {user : Bool} {c : Caller} {topWaiter : Option ℤ}

/-- An accepted weight is in force after the call if and only if the task was not a WRR task before
or the request repeats the setting it had. -/
theorem sched_setscheduler_weight_iff (hs : (system cfg rule).Reachable s)
    (hen : s.Enabled rule (.schedSetscheduler p policy w user c topWaiter) env)
    (hwrr : AsksWrr (s.task p) policy)
    (h0 : (s.schedSetscheduler cfg env p policy w user c topWaiter).2 = 0) :
    (s.schedSetscheduler cfg env p policy w user c topWaiter).1.WeightInForce cfg p w ↔
      (s.task p).policy ≠ .wrr ∨ s.RepeatsWeight p w := by
  have hq := (reachable_inv hs).queue
  have hq' := (reachable_inv (reachable_next hs hen)).queue
  obtain ⟨req, hvalid, -, hr⟩ := schedSetscheduler_eq_zero cfg env h0
  obtain ⟨req', hdecode, hpolicy⟩ := hwrr
  have hpair := validate_eq_ok hvalid
  rw [hdecode] at hpair
  obtain ⟨heq, hprio⟩ := hpair
  obtain rfl : req' = req := Except.ok.inj heq
  have hrange := checkPriority_eq_ok hprio
  rw [hpolicy, nothingChanges_wrr] at hr
  by_cases hold : (s.task p).policy = .wrr
  · -- the shortcut is taken
    rw [hr, if_pos (decide_eq_true hold), weightInForce_iff hq hrange.1]
    exact ⟨.inr, fun h => h.resolve_left (not_not.mpr hold)⟩
  · rw [if_neg (by simpa using hold)] at hr
    rw [State.next, hr] at hq'
    rw [hr]
    exact ⟨fun _ => .inl hold, fun _ =>
      setschedulerCommit_weightInForce hpolicy ⟨hrange.1, hrange.2.1⟩ hq'⟩

/-- The first weight of a task is in force. -/
theorem sched_setscheduler_weight_small :
    (Small.setWrr (Small.start [Small.taskA]) Small.taskA 5).WeightInForce Small.cfg Small.taskA
      5 := by
  obtain ⟨hs, -, -, hlive⟩ := Small.reachable_start .any [Small.taskA] (by decide)
  have hen : (Small.start [Small.taskA]).Enabled .any
      (.schedSetscheduler Small.taskA Policy.wrr.toNat 5 true Small.user none) (Small.env [] 0) :=
    ⟨Small.no_worker _ _ _, ⟨(hlive _).mpr (by decide), by decide⟩, trivial⟩
  have hwrr : AsksWrr ((Small.start [Small.taskA]).task Small.taskA) Policy.wrr.toNat :=
    ⟨⟨.wrr, false, none⟩, rfl, rfl⟩
  exact (sched_setscheduler_weight_iff hs hen hwrr (by decide)).mpr (.inl (by decide))

/-- A second one is accepted and lost. -/
theorem sched_setscheduler_weight_lost :
    let s := Small.setWrr (Small.start [Small.taskA]) Small.taskA 5
    let r := s.schedSetscheduler Small.cfg (Small.env [] 0) Small.taskA Policy.wrr.toNat 10 true
      Small.user none
    (system Small.cfg .fixedPaths).Reachable s ∧ AsksWrr (s.task Small.taskA) Policy.wrr.toNat ∧
      r.2 = 0 ∧ (r.1.task Small.taskA).wrr.weight = 5 ∧
      ¬r.1.WeightInForce Small.cfg Small.taskA 10 := by
  intro s r
  refine ⟨Small.wrrA_reachable .fixedPaths trivial 5, ⟨⟨.wrr, false, none⟩, rfl, rfl⟩, by decide,
    by decide, fun h => ?_⟩
  exact absurd (h.custom (by decide)).2 (by decide)

end Reachable

end WrrSched
