import WrrSched.Correctness.Params
import WrrSched.Model.Concurrent

/-!
# Concurrent changes of policy

A request is validated against one state of the task and committed in another. The bounds the
priority is checked against are the same for all tasks, and a call that took its policy from the
task commits only if the task still has it, so that a commit is what one atomic call from the kernel
would have done: `cpu_reachable`. Every property of the reachable states of the scheduler therefore
holds with concurrent calls.

- `cpu_reachable`: with any number of calls under way, the CPU only reaches states it also reaches
  with atomic calls;
- `concurrent_policy_changes`: no invalid policy and no invalid parameter is committed, and a call
  of `sched_setparam` never changes a policy.
-/

namespace WrrSched

/-! ## A commit is an atomic call -/

namespace State

variable {cfg : Config} {env : Env} {s s' : State} {p : TaskPtr} {req : Request} {prio e : ℤ}
  {user : Bool} {c : Caller} {topWaiter : Option ℤ}

/-- Under the lock, a call is carried out only if the task still has the policy it was validated
for. -/
theorem setschedulerLocked_eq_some
    (h : s.setschedulerLocked cfg env p req prio user c topWaiter = some (s', e)) :
    s' = s ∨ s.stop ≠ some p ∧ nothingChanges (s.task p) req.policy prio = false ∧
      (∀ oldpolicy ∈ req.oldpolicy, oldpolicy = (s.task p).policy) ∧
      s' = s.setschedulerCommit cfg env p req prio topWaiter := by
  unfold setschedulerLocked at h
  split at h
  · exact .inl (congrArg Prod.fst (Option.some.inj h)).symm
  next hstop =>
    split at h
    · exact .inl (congrArg Prod.fst (Option.some.inj h)).symm
    next hnothing =>
      split at h
      · exact .inl (congrArg Prod.fst (Option.some.inj h)).symm
      split at h
      · cases h
      next hold =>
        refine .inr ⟨hstop, eq_false_of_ne_true hnothing, fun oldpolicy hmem => ?_,
          (congrArg Prod.fst (Option.some.inj h)).symm⟩
        by_contra hne
        exact hold ⟨oldpolicy, hmem, hne⟩

/-- What is committed is what an atomic call from the kernel does. -/
theorem setschedulerCommit_eq_next (hstop : s.stop ≠ some p)
    (hnothing : nothingChanges (s.task p) req.policy prio = false)
    (hprio : checkPriority (s.task p) req.policy prio = .ok ()) (c : Caller) :
    s.setschedulerCommit cfg env p req prio topWaiter =
      s.next cfg (.schedSetscheduler p (encodePolicy req.policy req.resetOnFork) prio false c
        topWaiter) env := by
  let kernelReq : Request := { req with oldpolicy := none }
  have hvalid : validate (s.task p) (encodePolicy req.policy req.resetOnFork) prio false c =
      .ok kernelReq :=
    validate_kernel (decodePolicy_encodePolicy _ _ _) hprio c
  have hreq : s.setschedulerRequest p (encodePolicy req.policy req.resetOnFork) prio false c =
      some kernelReq := by
    unfold setschedulerRequest
    rw [hvalid]
    simp [kernelReq, hstop, hnothing]
  unfold next
  dsimp only
  rw [schedSetscheduler_of_request cfg env topWaiter hreq]
  rfl

end State

namespace Concurrent

variable {ι : Type*} [DecidableEq ι] {cfg : Config} {rule : Rule} {k : Concurrent ι}

/-! ## Calls under way -/

/-- What is kept about the calls that are under way. -/
structure Pending (k : Concurrent ι) : Prop where
  target : ∀ i call stage, k.call i = some (call, stage) → k.cpu.Target call.p
  /-- `sched_setparam` reads the policy of the task in every validation. -/
  recheck : ∀ i call policy, k.call i = some (call, .recheck policy) → call.policy < 0 → policy < 0
  oldpolicy : ∀ i call req, k.call i = some (call, .validated req) → call.policy < 0 →
    req.oldpolicy = some req.policy
  checked : ∀ i call req t, k.call i = some (call, .validated req) →
    checkPriority t req.policy call.prio = .ok ()

/-- One call goes on to its next stage. -/
theorem Pending.setStage (h : k.Pending) {i : ι} {call : SetschedulerCall} {stage : CallStage}
    (htarget : k.cpu.Target call.p)
    (hrecheck : ∀ policy, stage = .recheck policy → call.policy < 0 → policy < 0)
    (hvalidated : ∀ req, stage = .validated req →
      (call.policy < 0 → req.oldpolicy = some req.policy) ∧
        ∀ t, checkPriority t req.policy call.prio = .ok ()) :
    (k.setStage i call stage).Pending := by
  have hcases {j : ι} {call' : SetschedulerCall} {stage' : CallStage}
      (hj : (k.setStage i call stage).call j = some (call', stage')) :
      call' = call ∧ stage' = stage ∨ k.call j = some (call', stage') := by
    by_cases hji : j = i
    · subst hji
      simp only [Concurrent.setStage, Function.update_self, Option.some.injEq, Prod.mk.injEq] at hj
      exact .inl ⟨hj.1.symm, hj.2.symm⟩
    · simp only [Concurrent.setStage, Function.update_of_ne hji] at hj
      exact .inr hj
  refine ⟨fun j call' stage' hj => ?_, fun j call' policy hj => ?_, fun j call' req hj => ?_,
    fun j call' req t hj => ?_⟩
  · rcases hcases hj with ⟨rfl, -⟩ | hj
    · exact htarget
    · exact h.target j call' stage' hj
  · rcases hcases hj with ⟨rfl, hstage⟩ | hj
    · exact hrecheck policy hstage.symm
    · exact h.recheck j call' policy hj
  · rcases hcases hj with ⟨rfl, hstage⟩ | hj
    · exact (hvalidated req hstage.symm).1
    · exact h.oldpolicy j call' req hj
  · rcases hcases hj with ⟨rfl, hstage⟩ | hj
    · exact (hvalidated req hstage.symm).2 t
    · exact h.checked j call' req t hj

omit [DecidableEq ι] in
/-- Operations of the CPU do not end the existence of a task. -/
theorem Pending.setCpu (h : k.Pending) {s : State} (htarget : ∀ p, k.cpu.Target p → s.Target p) :
    ({ k with cpu := s } : Concurrent ι).Pending :=
  ⟨fun i call stage hi => htarget _ (h.target i call stage hi), h.recheck, h.oldpolicy, h.checked⟩

/-- A task that can be asked for stays one. -/
theorem target_next {s : State} {p : TaskPtr} (h : s.Target p) (op : Op) (env : Env) :
    (s.next cfg op env).Target p := by
  obtain ⟨hidle, -, hlive⟩ := s.next_fixed cfg op env
  unfold State.Target
  rw [hidle, hlive]
  refine ⟨?_, h.2⟩
  split
  · exact Finset.mem_insert_of_mem h.1
  · exact h.1

/-- The validation only reads. -/
theorem validateStep_cpu (k : Concurrent ι) (i : ι) (c : Caller) :
    (k.validateStep i c).cpu = k.cpu := by
  unfold validateStep
  split
  · split <;> rfl
  · rfl

/-- What the validation of one call keeps. -/
theorem Pending.validateStep (h : k.Pending) (i : ι) (c : Caller) :
    (k.validateStep i c).Pending := by
  unfold Concurrent.validateStep
  split
  · next call policy hi =>
    have htarget := h.target i call _ hi
    split
    · exact h.setStage htarget (fun _ hs => by cases hs) fun _ hs => by cases hs
    · next req hvalid =>
      obtain ⟨hdecode, hprio⟩ := validate_eq_ok hvalid
      refine h.setStage htarget (fun _ hs => by cases hs) ?_
      intro req' hs
      obtain rfl := CallStage.validated.inj hs
      refine ⟨fun hneg => ?_, fun t => ?_⟩
      · -- a negative policy stands for the policy of the task, which is remembered
        have hpolicy := h.recheck i call policy hi hneg
        unfold decodePolicy at hdecode
        rw [if_pos hpolicy] at hdecode
        rw [← Except.ok.inj hdecode]
      · rw [← hprio]
        exact checkPriority_congr _ _ _ _
  · exact h

/-- The locked part leaves the CPU alone, or does what an atomic call does in its place. -/
theorem lockedStep_cpu (h : k.Pending) (i : ι) (c : Caller) (topWaiter : Option ℤ) (env : Env) :
    (k.lockedStep cfg i c topWaiter env).cpu = k.cpu ∨
      ∃ call req, k.call i = some (call, .validated req) ∧
        (∀ oldpolicy ∈ req.oldpolicy, oldpolicy = (k.cpu.task call.p).policy) ∧
        (k.lockedStep cfg i c topWaiter env).cpu =
          k.cpu.setschedulerCommit cfg env call.p req call.prio topWaiter ∧
        (k.lockedStep cfg i c topWaiter env).cpu =
          k.cpu.next cfg (.schedSetscheduler call.p
            (encodePolicy req.policy req.resetOnFork) call.prio false c topWaiter) env := by
  unfold lockedStep
  split
  · next call req hi =>
    split
    · next s e hlocked =>
      rcases State.setschedulerLocked_eq_some hlocked with hs | ⟨hstop, hnothing, hold, hs⟩
      · exact .inl hs
      · have hprio := h.checked i call req (k.cpu.task call.p) hi
        exact .inr ⟨call, req, hi, hold, hs,
          hs.trans (State.setschedulerCommit_eq_next hstop hnothing hprio c)⟩
    · exact .inl rfl
  · exact .inl rfl

/-- What the locked part of one call keeps. -/
theorem Pending.lockedStep (h : k.Pending) (i : ι) (c : Caller) (topWaiter : Option ℤ)
    (env : Env) : (k.lockedStep cfg i c topWaiter env).Pending := by
  have htarget (p : TaskPtr) (hp : k.cpu.Target p) :
      (k.lockedStep cfg i c topWaiter env).cpu.Target p := by
    rcases lockedStep_cpu h i c topWaiter env with hs | ⟨call, req, -, -, -, hs⟩
    · rwa [hs]
    · rw [hs]
      exact target_next hp _ env
  have hstage : ({ k.lockedStep cfg i c topWaiter env with cpu := k.cpu } : Concurrent ι).Pending := by
    unfold Concurrent.lockedStep
    split
    · next call req hi =>
      have hcall := h.target i call _ hi
      split
      · exact h.setStage hcall (fun _ hs => by cases hs) fun _ hs => by cases hs
      · refine h.setStage hcall (fun policy hs _ => ?_) fun _ hs => by cases hs
        rw [← CallStage.recheck.inj hs]
        decide
    · exact h
  exact hstage.setCpu htarget

/-- What one step of any call keeps. -/
theorem Pending.next (h : k.Pending) {op : ConcurrentOp ι} (hop : k.Enabled rule op) :
    (k.next cfg op).Pending := by
  cases op with
  | enter i call =>
    refine h.setStage hop.2 (fun policy hs hneg => ?_) fun _ hs => by cases hs
    rwa [← CallStage.recheck.inj hs]
  | validate i c => exact h.validateStep i c
  | locked i c topWaiter env => exact h.lockedStep i c topWaiter env
  | other op env => exact h.setCpu fun p hp => target_next hp op env

/-! ## Runs -/

/-- The pending calls in every reachable state. -/
theorem reachable_pending (hk : (concurrent cfg rule ι).Reachable k) : k.Pending := by
  refine hk.invariant (fun k hk => ?_) fun k op h hop => h.next hop
  have hcall (i : ι) (x : SetschedulerCall × CallStage) : k.call i ≠ some x := by
    rw [hk.2 i]
    exact fun hfalse => by cases hfalse
  exact ⟨fun i call stage hi => absurd hi (hcall i _), fun i call policy hi => absurd hi (hcall i _),
    fun i call req hi => absurd hi (hcall i _), fun i call req t hi => absurd hi (hcall i _)⟩

/-- Concurrent calls bring the CPU into no state that atomic calls do not bring it into. -/
theorem cpu_reachable (hk : (concurrent cfg rule ι).Reachable k) :
    (system cfg rule).Reachable k.cpu := by
  refine hk.invariant_with (I := fun k => (system cfg rule).Reachable k.cpu)
    (fun k hk => reachable_pending hk) ?_ ?_
  · intro k hinit
    exact .init hinit.1
  intro k op hpending hr hop
  show (system cfg rule).Reachable (k.next cfg op).cpu
  cases op with
  | enter i call => exact hr
  | validate i c =>
    show (system cfg rule).Reachable (k.validateStep i c).cpu
    rwa [validateStep_cpu]
  | locked i c topWaiter env =>
    obtain ⟨hworker, hrule⟩ := hop
    show (system cfg rule).Reachable (k.lockedStep cfg i c topWaiter env).cpu
    rcases lockedStep_cpu hpending i c topWaiter env with hs | ⟨call, req, hi, -, -, hs⟩
    · rwa [hs]
    · rw [hs]
      exact reachable_next hr ⟨hworker, hpending.target i call _ hi, hrule call _ hi⟩
  | other op env => exact reachable_next hr hop

/-- With any number of calls of `__sched_setscheduler` in any order of their steps, no policy is
committed with a parameter that is out of range for it, and no step of a `sched_setparam` call
changes the policy of any task. -/
theorem concurrent_policy_changes (hk : (concurrent cfg rule ι).Reachable k) :
    (∀ p ∈ k.cpu.live,
      ((k.cpu.task p).policy = .fifo ∨ (k.cpu.task p).policy = .rr →
        1 ≤ (k.cpu.task p).rtPriority ∧ ((k.cpu.task p).rtPriority : ℤ) ≤ maxRtPrio - 1) ∧
      ((k.cpu.task p).policy ≠ .fifo ∧ (k.cpu.task p).policy ≠ .rr →
        (k.cpu.task p).rtPriority = 0) ∧
      ((k.cpu.task p).wrr.customWeight = true →
        1 ≤ (k.cpu.task p).wrr.weight.toNat ∧
          ((k.cpu.task p).wrr.weight.toNat : ℤ) ≤ maxRtPrio - 1)) ∧
    ∀ i call stage, k.call i = some (call, stage) → call.policy < 0 →
      (∀ c q, ((k.next cfg (.validate i c)).cpu.task q).policy = (k.cpu.task q).policy) ∧
      ∀ c topWaiter env q,
        ((k.next cfg (.locked i c topWaiter env)).cpu.task q).policy = (k.cpu.task q).policy := by
  have hpending := reachable_pending hk
  refine ⟨fun p hp => ?_, fun i call stage hi hneg => ⟨fun c q => ?_, fun c topWaiter env q => ?_⟩⟩
  · have hparams := reachable_params (cpu_reachable hk) hp
    refine ⟨fun hrt => hparams.rtPriority ?_, fun hrt => hparams.rtPriority_eq_zero ?_,
      hparams.customWeight⟩
    · simpa [TaskStruct.hasRtPolicy, rtPolicy] using hrt
    · simpa [TaskStruct.hasRtPolicy, rtPolicy] using hrt
  · show ((k.validateStep i c).cpu.task q).policy = _
    rw [validateStep_cpu]
  · show ((k.lockedStep cfg i c topWaiter env).cpu.task q).policy = _
    rcases lockedStep_cpu hpending i c topWaiter env with hs | ⟨call', req, hi', hold, hs, -⟩
    · rw [hs]
    · obtain ⟨rfl, -⟩ := Prod.mk.inj (Option.some.inj (hi.symm.trans hi'))
      -- the policy that is committed is the one the task has under the lock
      have hpolicy := hold req.policy (hpending.oldpolicy i call req hi' hneg)
      rw [hs, State.setschedulerCommit_task]
      by_cases hq : q = call.p
      · rw [hq, Function.update_self, TaskStruct.requeued_eq]
        exact (TaskStruct.setscheduler_policy _ _ _ topWaiter).trans hpolicy
      · rw [Function.update_of_ne hq]

/-- One more step of a run. -/
theorem reachable_concurrent_next (hk : (concurrent cfg rule ι).Reachable k) (op : ConcurrentOp ι)
    (hop : k.Enabled rule op) : (concurrent cfg rule ι).Reachable (k.next cfg op) :=
  hk.step hop

/-- Conversely, the CPU can get everywhere without a call under way. -/
theorem reachable_of_cpu {s : State} (hs : (system cfg rule).Reachable s) :
    (concurrent cfg rule ι).Reachable ⟨s, fun _ => none⟩ := by
  refine hs.invariant (I := fun s => (concurrent cfg rule ι).Reachable ⟨s, fun _ => none⟩) ?_ ?_
  · intro s hinit
    exact .init ⟨hinit, fun _ => rfl⟩
  · intro s i hk hop
    exact reachable_concurrent_next hk (.other i.1 i.2) hop

end Concurrent

namespace Small

/-- `sched_setparam(taskA, 0)` has been validated for a task of the fair class; before it takes the
lock, `sched_setscheduler(taskA, SCHED_WRR, 5)` is carried out. -/
def race : Concurrent Bool :=
  [.enter false ⟨taskA, -1, 0, true⟩, .validate false user, .enter true ⟨taskA, 6, 5, true⟩,
    .validate true user, .locked true user none (env [] 0)].foldl (·.next cfg)
      ⟨start [taskA], fun _ => none⟩

/-- The steps that lead there. -/
theorem race_reachable : (concurrent cfg .any Bool).Reachable race := by
  have hstart : (concurrent cfg .any Bool).Reachable ⟨start [taskA], fun _ => none⟩ :=
    Concurrent.reachable_of_cpu (reachable_start .any [taskA] (by decide)).1
  have htarget : (start [taskA]).Target taskA := ⟨by decide, by decide⟩
  have hparam := Concurrent.reachable_concurrent_next hstart
    (.enter false ⟨taskA, -1, 0, true⟩) ⟨rfl, htarget⟩
  have hvalid := Concurrent.reachable_concurrent_next hparam (.validate false user) trivial
  have hset := Concurrent.reachable_concurrent_next hvalid
    (.enter true ⟨taskA, 6, 5, true⟩) ⟨by decide, by decide, by decide⟩
  have hvalid' := Concurrent.reachable_concurrent_next hset (.validate true user) trivial
  exact Concurrent.reachable_concurrent_next hvalid' (.locked true user none (env [] 0))
    ⟨no_worker _ _ _, fun _ _ _ => trivial⟩

end Small

/-- The `sched_setparam` call does not take the policy back. -/
theorem concurrent_policy_changes_race :
    (Small.race.cpu.task Small.taskA).policy = .wrr ∧
      (∀ c topWaiter env q,
        ((Small.race.next Small.cfg (.locked false c topWaiter env)).cpu.task q).policy =
          (Small.race.cpu.task q).policy) :=
  ⟨by decide +kernel, ((Concurrent.concurrent_policy_changes Small.race_reachable).2 false
    ⟨Small.taskA, -1, 0, true⟩ (.validated ⟨.normal, false, some .normal⟩) (by rfl)
    (by decide)).2⟩

end WrrSched
