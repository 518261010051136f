import WrrSched.Correctness.Params
import WrrSched.Model.Query

/-!
# Which requests `__sched_setscheduler` accepts, and what can be read back

- `setscheduler_accepts`: a rejected call changes nothing, and a call from the kernel is accepted
  exactly if it asks for a known policy with a priority in the range of that policy;
- `get_after_set`: what `sched_getscheduler` and `sched_getparam` return after a call that was
  accepted. A weight is not an RT priority, so that `sched_getparam` returns 0 for WRR;
- `advertised_iff_accepted`: the requests on which `sched_get_priority_min` and
  `sched_get_priority_max` agree with `__sched_setscheduler`. The two calls do not know WRR.
-/

namespace WrrSched

variable {cfg : Config} {rule : Rule} {s : State} {p : TaskPtr} {policy prio : ℤ} {env : Env}

/-- The request asks for a known policy, a negative one standing for that of the task, with or
without `SCHED_RESET_ON_FORK`, and its priority lies in the range of that policy. -/
def ValidRequest (t : TaskStruct) (policy prio : ℤ) : Prop :=
  ∃ pol : Policy,
    (if policy < 0 then pol = t.policy else ∃ resetOnFork, policy = encodePolicy pol resetOnFork) ∧
      pol.ValidPrio prio

theorem validRequest_of_ok {t : TaskStruct} {req : Request}
    (hdecode : decodePolicy t policy = .ok req)
    (hprio : checkPriority t req.policy prio = .ok ()) : ValidRequest t policy prio := by
  refine ⟨req.policy, ?_, (checkPriority_eq_ok_iff t req.policy prio).mp hprio⟩
  split
  · next hneg =>
    rw [decodePolicy, if_pos hneg] at hdecode
    rw [← Except.ok.inj hdecode]
  · next hpos => exact ⟨req.resetOnFork, (decodePolicy_eq_ok hdecode (not_lt.mp hpos)).1⟩

theorem validRequest_decode {t : TaskStruct} (h : ValidRequest t policy prio) :
    ∃ req, decodePolicy t policy = .ok req ∧ checkPriority t req.policy prio = .ok () := by
  obtain ⟨pol, hpolicy, hprio⟩ := h
  have hcheck := (checkPriority_eq_ok_iff t pol prio).mpr hprio
  split at hpolicy
  · next hneg =>
    subst hpolicy
    exact ⟨_, if_pos hneg, hcheck⟩
  · obtain ⟨resetOnFork, rfl⟩ := hpolicy
    exact ⟨_, decodePolicy_encodePolicy t pol resetOnFork, hcheck⟩

/-- A call from the kernel, on a task that is not the stop task, is judged by its arguments alone. -/
theorem schedSetscheduler_kernel (cfg : Config) {s : State} {p : TaskPtr} (policy prio : ℤ)
    (c : Caller) (topWaiter : Option ℤ) (env : Env) (hstop : s.stop ≠ some p) :
    ((s.schedSetscheduler cfg env p policy prio false c topWaiter).2 = 0 ↔
      ValidRequest (s.task p) policy prio) ∧
      (¬ValidRequest (s.task p) policy prio →
        (s.schedSetscheduler cfg env p policy prio false c topWaiter).2 = -einval) := by
  cases hvalid : validate (s.task p) policy prio false c with
  | error e =>
    have hinvalid : ¬ValidRequest (s.task p) policy prio := by
      intro h
      obtain ⟨req, hdecode, hprio⟩ := validRequest_decode h
      rw [validate_kernel hdecode hprio c] at hvalid
      cases hvalid
    rw [State.schedSetscheduler_of_error cfg env topWaiter hvalid]
    have heinval := validate_kernel_error hvalid
    exact ⟨⟨fun h0 => absurd h0 (validate_error_ne_zero hvalid), fun h => absurd h hinvalid⟩,
      fun _ => heinval⟩
  | ok req =>
    obtain ⟨hdecode, hprio⟩ := validate_eq_ok hvalid
    have h := validRequest_of_ok hdecode hprio
    have hlocked := State.schedSetscheduler_of_ok cfg env topWaiter hvalid
    -- under the lock, a call from the kernel can only find the stop task in its way
    have h0 : (s.schedSetscheduler cfg env p policy prio false c topWaiter).2 = 0 := by
      unfold State.setschedulerLocked at hlocked
      rw [if_neg hstop] at hlocked
      split at hlocked
      · rw [Option.some.inj hlocked]
      · rw [if_neg (by simp)] at hlocked
        split at hlocked
        · cases hlocked
        · rw [Option.some.inj hlocked]
    exact ⟨⟨fun _ => h, fun _ => h0⟩, fun hinvalid => absurd h hinvalid⟩

/-- The outcome of a call: a result other than 0 leaves the whole state as it was. A call from the
kernel, on a task that is not the stop task, returns 0 exactly if the request is valid, and `-EINVAL`
otherwise. -/
theorem setscheduler_accepts (cfg : Config) (s : State) (p : TaskPtr) (policy prio : ℤ)
    (user : Bool) (c : Caller) (topWaiter : Option ℤ) (env : Env) :
    ((s.schedSetscheduler cfg env p policy prio user c topWaiter).2 ≠ 0 →
      (s.schedSetscheduler cfg env p policy prio user c topWaiter).1 = s) ∧
      (user = false → s.stop ≠ some p →
        ((s.schedSetscheduler cfg env p policy prio user c topWaiter).2 = 0 ↔
          ValidRequest (s.task p) policy prio) ∧
        (¬ValidRequest (s.task p) policy prio →
          (s.schedSetscheduler cfg env p policy prio user c topWaiter).2 = -einval)) := by
  refine ⟨fun hne => ?_, ?_⟩
  · rcases State.schedSetscheduler_cases cfg env s p policy prio user c topWaiter with
      hsame | ⟨req, -, -, -, hcommit⟩
    · exact hsame
    · rw [hcommit] at hne
      exact absurd rfl hne
  · rintro rfl hstop
    exact schedSetscheduler_kernel cfg policy prio c topWaiter env hstop

/-! ## Reading back -/

theorem schedGetscheduler_eq (t : TaskStruct) :
    t.schedGetscheduler 0 = encodePolicy t.policy t.schedResetOnFork := by
  unfold TaskStruct.schedGetscheduler
  rw [if_neg (by simp)]
  cases t.policy <;> cases t.schedResetOnFork <;> decide

/-- The policy that is asked for is the policy the task has after a call that returns 0. -/
theorem policy_after_set {user : Bool} {c : Caller} {topWaiter : Option ℤ} {req : Request}
    (hstate : (s.schedSetscheduler cfg env p policy prio user c topWaiter).1 =
      if State.nothingChanges (s.task p) req.policy prio then s
      else s.setschedulerCommit cfg env p req prio topWaiter) :
    ((s.schedSetscheduler cfg env p policy prio user c topWaiter).1.task p).policy = req.policy := by
  rw [hstate]
  split
  · next hnothing =>
    simp only [State.nothingChanges, decide_eq_true_eq] at hnothing
    exact hnothing.1.symm
  · rw [State.setschedulerCommit_task, Function.update_self, TaskStruct.requeued_eq]
    exact TaskStruct.setscheduler_policy _ _ _ topWaiter

/-- What can be read back after a call that returns 0, with no other operation in between.
`sched_getscheduler` returns the policy that was passed, with the flag to reset on fork that was
passed, or with the one the task had if the call was found not to change anything. `sched_getparam`
returns the priority that was passed, or 0 for WRR, where the parameter is not an RT priority. -/
theorem get_after_set (hs : (system cfg rule).Reachable s) (hp : p ∈ s.live) {user : Bool}
    {c : Caller} {topWaiter : Option ℤ}
    (h0 : (s.schedSetscheduler cfg env p policy prio user c topWaiter).2 = 0) :
    let t' := (s.schedSetscheduler cfg env p policy prio user c topWaiter).1.task p
    (0 ≤ policy → ∃ pol resetOnFork, policy = encodePolicy pol resetOnFork ∧
      (State.nothingChanges (s.task p) pol prio = false → t'.schedGetscheduler 0 = policy) ∧
      (State.nothingChanges (s.task p) pol prio = true →
        t'.schedGetscheduler 0 = encodePolicy pol (s.task p).schedResetOnFork)) ∧
    t'.schedGetparam 0 = .ok (if t'.policy = .wrr then 0 else prio) := by
  intro t'
  obtain ⟨req, hvalid, -, hstate⟩ := State.schedSetscheduler_eq_zero cfg env h0
  obtain ⟨hdecode, hprio⟩ := validate_eq_ok hvalid
  have hpolicy : t'.policy = req.policy := policy_after_set hstate
  have hcommit (hnothing : State.nothingChanges (s.task p) req.policy prio = false) :
      t' = TaskStruct.requeued cfg s.group (s.task p).onRq
        (TaskStruct.setscheduler { s.task p with schedResetOnFork := req.resetOnFork } req.policy
          prio topWaiter) := by
    rw [if_neg (by simp [hnothing])] at hstate
    show (s.schedSetscheduler cfg env p policy prio user c topWaiter).1.task p = _
    rw [hstate, State.setschedulerCommit_task, Function.update_self]
  have hkept (hnothing : State.nothingChanges (s.task p) req.policy prio = true) :
      t' = s.task p := by
    rw [if_pos hnothing] at hstate
    exact congrArg (fun s : State => s.task p) hstate
  refine ⟨fun hpos => ?_, ?_⟩
  · have hencode := (decodePolicy_eq_ok hdecode hpos).1
    refine ⟨req.policy, req.resetOnFork, hencode, fun hnothing => ?_, fun hnothing => ?_⟩
    · have hflag : t'.schedResetOnFork = req.resetOnFork := by
        rw [hcommit hnothing, TaskStruct.requeued_eq]
        show (TaskStruct.setscheduler _ _ _ topWaiter).schedResetOnFork = _
        rw [TaskStruct.setscheduler_eq]
      rw [schedGetscheduler_eq, hpolicy, hflag, hencode]
    · rw [schedGetscheduler_eq, hpolicy, hkept hnothing]
  · obtain ⟨hnonneg, -, -, hzero⟩ := checkPriority_eq_ok hprio
    unfold TaskStruct.schedGetparam
    rw [if_neg (by simp), hpolicy]
    congr 1
    cases hnothing : State.nothingChanges (s.task p) req.policy prio with
    | false =>
      have hrt : t'.rtPriority = if req.policy ≠ .wrr then prio.toNat else 0 := by
        rw [hcommit hnothing, TaskStruct.requeued_eq]
        exact TaskStruct.setscheduler_rtPriority _ req.policy prio topWaiter
      rw [hrt]
      by_cases hwrr : req.policy = .wrr
      · simp [hwrr]
      · rw [if_pos hwrr, if_neg hwrr, Int.toNat_of_nonneg hnonneg]
    | true =>
      -- the task has the parameters already
      have hparams := reachable_params hs hp
      have hsame := hkept hnothing
      simp only [State.nothingChanges, decide_eq_true_eq] at hnothing
      obtain ⟨hreq, hrt⟩ := hnothing
      rw [hsame]
      rcases hrt with hrt | hrt
      · rw [hparams.rtPriority_eq_zero (by rw [TaskStruct.hasRtPolicy, ← hreq, hrt])]
        by_cases hwrr : req.policy = .wrr
        · simp [hwrr]
        · rw [if_neg hwrr, hzero hrt hwrr]
          rfl
      · rw [← hrt]
        by_cases hwrr : req.policy = .wrr
        · have hnot : (s.task p).hasRtPolicy = false := by
            rw [TaskStruct.hasRtPolicy, ← hreq, hwrr]
            rfl
          rw [hrt, hparams.rtPriority_eq_zero hnot, if_pos hwrr]
          rfl
        · rw [if_neg hwrr]

/-- `SCHED_FIFO | SCHED_RESET_ON_FORK` with priority 5. -/
theorem get_after_set_small :
    let t := ((Small.start [Small.taskA]).schedSetscheduler Small.cfg (Small.env [] 0) Small.taskA
      0x40000001 5 false Small.user none).1.task Small.taskA
    t.schedGetscheduler 0 = 0x40000001 ∧ t.schedGetparam 0 = .ok 5 := by
  intro t
  have hs : (system Small.cfg .any).Reachable (Small.start [Small.taskA]) :=
    (Small.reachable_start .any [Small.taskA] (by decide)).1
  have h0 : ((Small.start [Small.taskA]).schedSetscheduler Small.cfg (Small.env [] 0) Small.taskA
      0x40000001 5 false Small.user none).2 = 0 := by decide +kernel
  have h := get_after_set hs (p := Small.taskA) (by decide) h0
  obtain ⟨hpolicy, hparam⟩ := h
  obtain ⟨pol, resetOnFork, hencode, hget, -⟩ := hpolicy (by decide)
  have hpol : pol = .fifo := by
    revert hencode
    cases pol <;> cases resetOnFork <;> decide
  subst hpol
  exact ⟨hget (by decide), hparam.trans (by decide +kernel)⟩

/-- `sched_getparam` does not return the weight a WRR task was given. -/
theorem get_after_set_weight :
    ¬∀ s, (system Small.cfg .any).Reachable s → ∀ p ∈ s.live, s.stop ≠ some p →
      ∀ (policy : ℕ) (v : ℤ) user c topWaiter env,
        (s.schedSetscheduler Small.cfg env p policy v user c topWaiter).2 = 0 →
        ((s.schedSetscheduler Small.cfg env p policy v user c topWaiter).1.task p).schedGetparam 0 =
          .ok v := by
  intro hall
  have h := hall (Small.start [Small.taskA])
    (Small.reachable_start .any [Small.taskA] (by decide)).1 Small.taskA (by decide) (by decide)
    6 5 true Small.user none (Small.env [] 0) (by decide +kernel)
  revert h
  decide +kernel

/-- `sched_getscheduler` does not return a flag to reset on fork that was passed along with the
policy of the task: the call returns before the flag is stored. -/
theorem get_after_set_flag :
    ¬∀ s, (system Small.cfg .any).Reachable s → ∀ p ∈ s.live, s.stop ≠ some p →
      ∀ (policy : ℕ) (v : ℤ) user c topWaiter env,
        (s.schedSetscheduler Small.cfg env p policy v user c topWaiter).2 = 0 →
        ((s.schedSetscheduler Small.cfg env p policy v user c topWaiter).1.task
          p).schedGetscheduler 0 = policy := by
  intro hall
  have h := hall (Small.start [Small.taskA])
    (Small.reachable_start .any [Small.taskA] (by decide)).1 Small.taskA (by decide) (by decide)
    0x40000000 0 true Small.user none (Small.env [] 0) (by decide +kernel)
  revert h
  decide +kernel

/-! ## The advertised range -/

/-- `sched_get_priority_min` and `sched_get_priority_max` both know the policy, and the priority is
between what they return. -/
def AdvertisedPrio (policy prio : ℤ) : Prop :=
  0 ≤ schedGetPriorityMin policy ∧ 0 ≤ schedGetPriorityMax policy ∧
    schedGetPriorityMin policy ≤ prio ∧ prio ≤ schedGetPriorityMax policy

/-- For a policy other than WRR the two calls return the bounds of its range, and for WRR an
error. -/
theorem advertisedPrio_toNat (pol : Policy) (prio : ℤ) :
    AdvertisedPrio pol.toNat prio ↔ pol ≠ .wrr ∧ pol.ValidPrio prio := by
  have hmax : maxUserRtPrio = 100 := rfl
  have hmax' : maxRtPrio = 100 := rfl
  unfold AdvertisedPrio schedGetPriorityMin schedGetPriorityMax Policy.ValidPrio einval
  cases pol <;> simp [Policy.toNat, rtPolicy, hmax, hmax'] <;> omega

/-- The two calls know no other policies. -/
theorem exists_of_advertisedPrio (h : AdvertisedPrio policy prio) :
    ∃ pol : Policy, policy = pol.toNat := by
  have hmin := h.1
  unfold schedGetPriorityMin at hmin
  split_ifs at hmin with hrt hfair
  · rcases hrt with hfifo | hrr
    · exact ⟨.fifo, hfifo⟩
    · exact ⟨.rr, hrr⟩
  · rcases hfair with hnormal | hbatch | hidle
    · exact ⟨.normal, hnormal⟩
    · exact ⟨.batch, hbatch⟩
    · exact ⟨.idle, hidle⟩
  · exact absurd hmin (by decide)

/-- Without `SCHED_RESET_ON_FORK`, a request names its policy by the number of the policy. -/
theorem validRequest_iff_of_flag_clear (t : TaskStruct) (hpolicy : 0 ≤ policy)
    (hflag : policy.toNat &&& schedResetOnFork = 0) :
    ValidRequest t policy prio ↔ ∃ pol : Policy, policy = pol.toNat ∧ pol.ValidPrio prio := by
  have hencode (pol : Policy) :
      (if policy < 0 then pol = t.policy
        else ∃ resetOnFork, policy = encodePolicy pol resetOnFork) ↔ policy = pol.toNat := by
    rw [if_neg (not_lt.mpr hpolicy)]
    refine ⟨?_, fun h => ⟨false, h⟩⟩
    rintro ⟨resetOnFork, rfl⟩
    rw [Int.toNat_natCast, encodePolicy_flag] at hflag
    cases resetOnFork with
    | false => rfl
    | true => cases hflag
  simp only [ValidRequest, hencode]

/-- The advertised range is the accepted one exactly for the requests that do not ask for WRR with a
weight or 0: those `__sched_setscheduler` accepts from the kernel, while the two calls return
`-EINVAL` for WRR. -/
theorem advertised_iff_accepted (cfg : Config) {s : State} {p : TaskPtr} {policy : ℤ} (prio : ℤ)
    (c : Caller) (topWaiter : Option ℤ) (env : Env) (hpolicy : 0 ≤ policy)
    (hflag : policy.toNat &&& schedResetOnFork = 0) (hstop : s.stop ≠ some p) :
    ((s.schedSetscheduler cfg env p policy prio false c topWaiter).2 = 0 ↔
      AdvertisedPrio policy prio) ↔
      ¬(policy = Policy.wrr.toNat ∧ 0 ≤ prio ∧ prio ≤ maxRtPrio - 1) := by
  rw [(schedSetscheduler_kernel cfg policy prio c topWaiter env hstop).1,
    validRequest_iff_of_flag_clear _ hpolicy hflag]
  by_cases hknown : ∃ pol : Policy, policy = pol.toNat
  · obtain ⟨pol, rfl⟩ := hknown
    have haccepted : (∃ pol' : Policy, (pol.toNat : ℤ) = pol'.toNat ∧ pol'.ValidPrio prio) ↔
        pol.ValidPrio prio := by
      refine ⟨?_, fun h => ⟨pol, rfl, h⟩⟩
      rintro ⟨pol', hpol, h⟩
      rwa [Policy.toNat_injective (Int.ofNat.inj hpol)]
    rw [haccepted, advertisedPrio_toNat]
    by_cases hwrr : pol = .wrr
    · subst hwrr
      simp [Policy.ValidPrio, rtPolicy]
    · have hne : (pol.toNat : ℤ) ≠ Policy.wrr.toNat := fun h =>
        hwrr (Policy.toNat_injective (Int.ofNat.inj h))
      simp [hwrr, hne]
  · -- an unknown policy is neither accepted nor advertised
    have hrejected : ¬∃ pol : Policy, policy = pol.toNat ∧ pol.ValidPrio prio := by
      rintro ⟨pol, hpol, -⟩
      exact hknown ⟨pol, hpol⟩
    have hhidden : ¬AdvertisedPrio policy prio := fun h => hknown (exists_of_advertisedPrio h)
    have hother : policy ≠ Policy.wrr.toNat := fun h => hknown ⟨.wrr, h⟩
    simp [hrejected, hhidden, hother]

/-- `SCHED_FIFO` with priority 5. -/
theorem advertised_iff_accepted_small :
    ((Small.start [Small.taskA]).schedSetscheduler Small.cfg (Small.env [] 0) Small.taskA 1 5 false
      Small.user none).2 = 0 ↔ AdvertisedPrio 1 5 :=
  (advertised_iff_accepted Small.cfg 5 Small.user none (Small.env [] 0) (by decide) (by decide)
    (by decide)).mpr (by decide)

/-- A request for `SCHED_WRR` with weight 5 is accepted, while `sched_get_priority_min` and
`sched_get_priority_max` return `-EINVAL`. -/
theorem advertised_iff_accepted_wrr :
    ¬∀ (s : State) p (policy prio : ℤ) c topWaiter env, 0 ≤ policy →
      policy.toNat &&& schedResetOnFork = 0 → s.stop ≠ some p →
      ((s.schedSetscheduler Small.cfg env p policy prio false c topWaiter).2 = 0 ↔
        AdvertisedPrio policy prio) := by
  intro hall
  have h := hall (Small.start [Small.taskA]) Small.taskA 6 5 Small.user none (Small.env [] 0)
    (by decide) (by decide) (by decide)
  have haccepted : ((Small.start [Small.taskA]).schedSetscheduler Small.cfg (Small.env [] 0)
      Small.taskA 6 5 false Small.user none).2 = 0 := by decide +kernel
  have hmin := (h.mp haccepted).1
  revert hmin
  decide

end WrrSched
