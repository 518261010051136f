import Mathlib.Data.Nat.Bitwise
import WrrSched.Correctness.Effects

/-!
# The outcome of `__sched_setscheduler`

A call that is not interrupted between its validation and its locked part ends in one of two ways:
it leaves the state alone, or it returns 0 and commits a request that has passed every check.
-/

namespace WrrSched

/-! ## Validation -/

section Except

variable {ε α β : Type} {x : Except ε α} {f : α → Except ε β}

/-- Both steps succeed. -/
private theorem except_bind_eq_ok {b : β} (h : x >>= f = .ok b) : ∃ a, x = .ok a ∧ f a = .ok b := by
  cases x with
  | error e => cases h
  | ok a => exact ⟨a, rfl, h⟩

/-- One of the steps fails. -/
private theorem except_bind_eq_error {e : ε} (h : x >>= f = .error e) :
    x = .error e ∨ ∃ a, x = .ok a ∧ f a = .error e := by
  cases x with
  | error e' => exact .inl (congrArg Except.error (Except.error.inj h))
  | ok a => exact .inr ⟨a, rfl, h⟩

end Except

section Validate

variable {t : TaskStruct} {policy prio : ℤ} {user : Bool} {c : Caller} {req : Request}

/-- What a validated request has passed. -/
theorem validate_eq_ok (h : validate t policy prio user c = .ok req) :
    decodePolicy t policy = .ok req ∧ checkPriority t req.policy prio = .ok () := by
  obtain ⟨r, hd, h⟩ := except_bind_eq_ok h
  obtain ⟨_, hp, h⟩ := except_bind_eq_ok h
  obtain ⟨_, -, h⟩ := except_bind_eq_ok h
  obtain ⟨_, -, h⟩ := except_bind_eq_ok h
  obtain rfl : r = req := Except.ok.inj h
  exact ⟨hd, hp⟩

/-- What was checked of an unprivileged caller. -/
theorem validate_unprivileged (h : validate t policy prio user c = .ok req) :
    checkUnprivileged t req prio user c = .ok () := by
  obtain ⟨r, -, h⟩ := except_bind_eq_ok h
  obtain ⟨_, -, h⟩ := except_bind_eq_ok h
  obtain ⟨_, hu, h⟩ := except_bind_eq_ok h
  obtain ⟨_, -, h⟩ := except_bind_eq_ok h
  obtain rfl : r = req := Except.ok.inj h
  exact hu

/-- For a call from the kernel, no other check is made. -/
theorem validate_kernel (hpolicy : decodePolicy t policy = .ok req)
    (hprio : checkPriority t req.policy prio = .ok ()) (c : Caller) :
    validate t policy prio false c = .ok req := by
  simp [validate, hpolicy, hprio, checkUnprivileged, checkSecurity, bind, Except.bind, pure,
    Except.pure]

/-- An unknown policy is `EINVAL`. -/
theorem decodePolicy_error {e : ℤ} (h : decodePolicy t policy = .error e) : e = -einval := by
  unfold decodePolicy at h
  split at h
  · cases h
  · dsimp only at h
    split at h
    · cases h
    · exact (Except.error.inj h).symm

/-- So is a priority out of range. -/
theorem checkPriority_error {pol : Policy} {e : ℤ} (h : checkPriority t pol prio = .error e) :
    e = -einval := by
  unfold checkPriority at h
  split_ifs at h <;> exact (Except.error.inj h).symm

/-- A caller without the right gets `EPERM`. -/
theorem checkUnprivileged_error {e : ℤ} (h : checkUnprivileged t req prio user c = .error e) :
    e = -eperm := by
  unfold checkUnprivileged at h
  split_ifs at h <;> exact (Except.error.inj h).symm

/-- An error of the security module is not zero. -/
theorem checkSecurity_error {e : ℤ} (h : checkSecurity user c = .error e) : e ≠ 0 := by
  unfold checkSecurity at h
  split_ifs at h with hsec
  rw [← Except.error.inj h]
  exact hsec.2

/-- A rejected call does not return 0. -/
theorem validate_error_ne_zero {e : ℤ} (h : validate t policy prio user c = .error e) : e ≠ 0 := by
  have heinval : -einval ≠ 0 := by decide
  have heperm : -eperm ≠ 0 := by decide
  -- the checks in the order of the source
  rcases except_bind_eq_error h with hd | ⟨req, -, h⟩
  · rw [decodePolicy_error hd]
    exact heinval
  rcases except_bind_eq_error h with hp | ⟨_, -, h⟩
  · rw [checkPriority_error hp]
    exact heinval
  rcases except_bind_eq_error h with hu | ⟨_, -, h⟩
  · rw [checkUnprivileged_error hu]
    exact heperm
  rcases except_bind_eq_error h with hs | ⟨_, -, h⟩
  · exact checkSecurity_error hs
  · cases h

/-- A call from the kernel is only rejected for its arguments. -/
theorem validate_kernel_error {e : ℤ} (h : validate t policy prio false c = .error e) :
    e = -einval := by
  rcases except_bind_eq_error h with hd | ⟨req, -, h⟩
  · exact decodePolicy_error hd
  rcases except_bind_eq_error h with hp | ⟨_, -, h⟩
  · exact checkPriority_error hp
  simp [checkUnprivileged, checkSecurity, bind, Except.bind, pure, Except.pure] at h

/-- The priority of a validated request lies in the range of its policy. -/
theorem checkPriority_eq_ok {pol : Policy} (h : checkPriority t pol prio = .ok ()) :
    0 ≤ prio ∧ prio ≤ maxRtPrio - 1 ∧ (rtPolicy pol = true → 0 < prio) ∧
      (rtPolicy pol = false → pol ≠ .wrr → prio = 0) := by
  have hmax : maxUserRtPrio = maxRtPrio := rfl
  unfold checkPriority at h
  split_ifs at h with hrange hpol
  refine ⟨by omega, ?_, fun hrt => ?_, fun hrt hwrr => ?_⟩
  · cases hmm : t.mm <;> simp only [hmm, not_or] at hrange <;> simp at hrange <;> omega
  · by_contra hneg
    have h0 : prio = 0 := by omega
    have hne : pol ≠ .wrr := by rintro rfl; simp [rtPolicy] at hrt
    simp [hrt, h0] at hpol
  · by_contra hne
    simp [hrt, hne, hwrr] at hpol

/-- A negative policy stands for that of the task. -/
theorem decodePolicy_oldpolicy {old : Policy} (h : decodePolicy t policy = .ok req)
    (hold : req.oldpolicy = some old) : old = t.policy := by
  unfold decodePolicy at h
  split at h
  · rw [← Except.ok.inj h] at hold
    exact (Option.some.inj hold).symm
  · dsimp only at h
    split at h
    · rw [← Except.ok.inj h] at hold
      cases hold
    · cases h

end Validate

/-! ## The requests that pass -/

/-- The priorities a policy admits: an RT priority, a weight or 0 for WRR, and 0 otherwise. -/
def Policy.ValidPrio (policy : Policy) (prio : ℤ) : Prop :=
  if rtPolicy policy then 1 ≤ prio ∧ prio ≤ maxRtPrio - 1
  else if policy = .wrr then 0 ≤ prio ∧ prio ≤ maxRtPrio - 1
  else prio = 0

/-- User and kernel tasks have the same bound. -/
theorem checkPriority_congr (t t' : TaskStruct) (policy : Policy) (prio : ℤ) :
    checkPriority t policy prio = checkPriority t' policy prio := by
  have hmax : maxUserRtPrio = maxRtPrio := rfl
  unfold checkPriority
  rw [hmax]
  cases t.mm <;> cases t'.mm <;> simp

/-- The range of a policy. -/
theorem checkPriority_eq_ok_iff (t : TaskStruct) (policy : Policy) (prio : ℤ) :
    checkPriority t policy prio = .ok () ↔ policy.ValidPrio prio := by
  have hmax : maxRtPrio = 100 := rfl
  refine ⟨fun h => ?_, fun h => ?_⟩
  · obtain ⟨hnonneg, hle, hpos, hzero⟩ := checkPriority_eq_ok h
    unfold Policy.ValidPrio
    split_ifs with hrt hwrr
    · exact ⟨hpos hrt, hle⟩
    · exact ⟨hnonneg, hle⟩
    · exact hzero (eq_false_of_ne_true hrt) hwrr
  · have hmax' : maxUserRtPrio = maxRtPrio := rfl
    unfold Policy.ValidPrio at h
    have hrange : ¬(prio < 0 ∨ (t.mm = true ∧ prio > maxUserRtPrio - 1) ∨
        (t.mm = false ∧ prio > maxRtPrio - 1)) := by
      split_ifs at h <;> omega
    unfold checkPriority
    rw [if_neg hrange, if_neg]
    rintro ⟨hne, hwrr⟩
    split_ifs at h with hrt hp
    · exact hne (hrt.trans (decide_eq_true (by omega)).symm)
    · -- only the weight 0 is not positive, and 0 passes the first comparison
      refine hne ((eq_false_of_ne_true hrt).trans (decide_eq_false ?_).symm)
      intro h0
      exact hwrr ⟨hp, by omega⟩
    · exact hne ((eq_false_of_ne_true hrt).trans (decide_eq_false (by omega)).symm)

/-- The policy argument that asks for a policy, with or without `SCHED_RESET_ON_FORK`. -/
def encodePolicy (policy : Policy) (resetOnFork : Bool) : ℕ :=
  policy.toNat + if resetOnFork then schedResetOnFork else 0

/-- The flag can be read off the argument. -/
theorem encodePolicy_flag (policy : Policy) (resetOnFork : Bool) :
    encodePolicy policy resetOnFork &&& schedResetOnFork =
      if resetOnFork then schedResetOnFork else 0 := by
  cases policy <;> cases resetOnFork <;> decide

/-- The policy can be read off as well. -/
theorem decodePolicy_encodePolicy (t : TaskStruct) (policy : Policy) (resetOnFork : Bool) :
    decodePolicy t (encodePolicy policy resetOnFork) =
      .ok { policy, resetOnFork, oldpolicy := none } := by
  have hne : schedResetOnFork ≠ 0 := by decide
  unfold decodePolicy
  rw [if_neg (by omega), Int.toNat_natCast, encodePolicy_flag, encodePolicy]
  dsimp only
  rw [Nat.add_sub_cancel, Policy.ofNat?_toNat]
  cases resetOnFork <;> simp [hne]

/-- A policy is its number. -/
theorem Policy.ofNat?_eq_some {n : ℕ} {policy : Policy} (h : Policy.ofNat? n = some policy) :
    policy.toNat = n := by
  unfold Policy.ofNat? at h
  split at h <;> first | cases h; rfl | cases h

/-- The other policy arguments are rejected. -/
theorem decodePolicy_eq_ok {t : TaskStruct} {policy : ℤ} {req : Request}
    (h : decodePolicy t policy = .ok req) (hpolicy : 0 ≤ policy) :
    policy = encodePolicy req.policy req.resetOnFork ∧ req.oldpolicy = none := by
  have hflag : policy.toNat &&& schedResetOnFork = 0 ∨
      policy.toNat &&& schedResetOnFork = schedResetOnFork := by
    have hpow : schedResetOnFork = 2 ^ 30 := by decide
    rw [hpow, Nat.and_two_pow]
    cases policy.toNat.testBit 30 <;> simp
  have hle : policy.toNat &&& schedResetOnFork ≤ policy.toNat := Nat.and_le_left
  have hne : schedResetOnFork ≠ 0 := by decide
  unfold decodePolicy at h
  rw [if_neg (not_lt.mpr hpolicy)] at h
  dsimp only at h
  split at h
  · next q hq =>
    have htoNat := Policy.ofNat?_eq_some hq
    rw [← Except.ok.inj h]
    refine ⟨?_, rfl⟩
    unfold encodePolicy
    rcases hflag with hflag | hflag
    · rw [hflag] at htoNat ⊢
      simp only [ne_eq, not_true_eq_false, decide_false, Bool.false_eq_true, if_false]
      omega
    · rw [hflag] at htoNat hle ⊢
      simp only [ne_eq, hne, not_false_eq_true, decide_true, if_true]
      omega
  · cases h

namespace State

variable (cfg : Config) (env : Env) {s : State} {p : TaskPtr} {policy prio : ℤ} {user : Bool}
  {c : Caller} (topWaiter : Option ℤ) {req : Request}

/-! ## The locked part -/

/-- Under the lock nothing has changed since the validation, so the call does not go back. -/
theorem setschedulerLocked_isSome (h : validate (s.task p) policy prio user c = .ok req) :
    ∃ r, s.setschedulerLocked cfg env p req prio user c topWaiter = some r := by
  unfold setschedulerLocked
  split
  · exact ⟨_, rfl⟩
  split
  · exact ⟨_, rfl⟩
  split
  · exact ⟨_, rfl⟩
  split
  · next hold =>
    obtain ⟨old, hmem, hne⟩ := hold
    exact absurd (decodePolicy_oldpolicy (validate_eq_ok h).1 hmem) hne
  · exact ⟨_, rfl⟩

/-- The bound on the number of attempts does not matter. -/
theorem schedSetschedulerLoop_succ (n : ℕ) :
    s.schedSetschedulerLoop cfg env p prio user c topWaiter (n + 1) policy =
      some (s.schedSetscheduler cfg env p policy prio user c topWaiter) := by
  unfold schedSetscheduler schedSetschedulerLoop
  split
  · rfl
  · next h =>
    obtain ⟨r, hr⟩ := setschedulerLocked_isSome cfg env topWaiter h
    rw [hr]
    rfl

/-- A call that is refused by its validation leaves the state alone. -/
theorem schedSetscheduler_of_error {e : ℤ}
    (h : validate (s.task p) policy prio user c = .error e) :
    s.schedSetscheduler cfg env p policy prio user c topWaiter = (s, e) := by
  refine Option.some.inj ((schedSetschedulerLoop_succ cfg env topWaiter 0).symm.trans ?_)
  simp only [schedSetschedulerLoop, h]

/-- A call that passes its validation is decided by the locked part. -/
theorem schedSetscheduler_of_ok (h : validate (s.task p) policy prio user c = .ok req) :
    some (s.schedSetscheduler cfg env p policy prio user c topWaiter) =
      s.setschedulerLocked cfg env p req prio user c topWaiter := by
  obtain ⟨r, hr⟩ := setschedulerLocked_isSome cfg env topWaiter h
  rw [← schedSetschedulerLoop_succ cfg env topWaiter 0]
  simp only [schedSetschedulerLoop, h, hr]

/-- The request that a call carries out, if it gets as far as `__setscheduler`. -/
def setschedulerRequest (s : State) (p : TaskPtr) (policy prio : ℤ) (user : Bool) (c : Caller) :
    Option Request :=
  match validate (s.task p) policy prio user c with
  | .error _ => none
  | .ok req =>
    if s.stop = some p ∨ nothingChanges (s.task p) req.policy prio ∨
      (user ∧ rtPolicy req.policy ∧ c.rtRuntimeZero) then none
    else some req

/-- A request that is carried out has passed every check. -/
theorem setschedulerRequest_eq_some (h : s.setschedulerRequest p policy prio user c = some req) :
    validate (s.task p) policy prio user c = .ok req ∧ s.stop ≠ some p ∧
      nothingChanges (s.task p) req.policy prio = false := by
  unfold setschedulerRequest at h
  split at h
  · cases h
  · next hvalid =>
    split_ifs at h with hcond
    simp only [not_or] at hcond
    obtain rfl := Option.some.inj h
    exact ⟨hvalid, hcond.1, eq_false_of_ne_true hcond.2.1⟩

/-- An accepted request that changes something is carried out. -/
theorem schedSetscheduler_of_request
    (h : s.setschedulerRequest p policy prio user c = some req) :
    s.schedSetscheduler cfg env p policy prio user c topWaiter =
      (s.setschedulerCommit cfg env p req prio topWaiter, 0) := by
  unfold setschedulerRequest at h
  split at h
  · cases h
  · next hvalid =>
    split_ifs at h with hcond
    simp only [not_or] at hcond
    obtain rfl := Option.some.inj h
    have hl := schedSetscheduler_of_ok cfg env topWaiter hvalid
    unfold setschedulerLocked at hl
    rw [if_neg hcond.1, if_neg hcond.2.1, if_neg hcond.2.2] at hl
    split at hl
    · cases hl
    · exact Option.some.inj hl

/-- A call that carries nothing out changes nothing. -/
theorem schedSetscheduler_of_no_request
    (h : s.setschedulerRequest p policy prio user c = none) :
    (s.schedSetscheduler cfg env p policy prio user c topWaiter).1 = s := by
  unfold setschedulerRequest at h
  split at h
  · next hvalid => rw [schedSetscheduler_of_error cfg env topWaiter hvalid]
  · next req hvalid =>
    have hl := schedSetscheduler_of_ok cfg env topWaiter hvalid
    unfold setschedulerLocked at hl
    split_ifs at h with hcond
    split at hl
    · exact congrArg Prod.fst (Option.some.inj hl)
    next hstop =>
      split at hl
      · exact congrArg Prod.fst (Option.some.inj hl)
      next hnothing =>
        rw [if_pos ((hcond.resolve_left hstop).resolve_left hnothing)] at hl
        exact congrArg Prod.fst (Option.some.inj hl)

/-- A call either changes nothing or commits a valid request. -/
theorem schedSetscheduler_cases (s : State) (p : TaskPtr) (policy prio : ℤ) (user : Bool)
    (c : Caller) (topWaiter : Option ℤ) :
    (s.schedSetscheduler cfg env p policy prio user c topWaiter).1 = s ∨
      ∃ req, validate (s.task p) policy prio user c = .ok req ∧ s.stop ≠ some p ∧
        nothingChanges (s.task p) req.policy prio = false ∧
        s.schedSetscheduler cfg env p policy prio user c topWaiter =
          (s.setschedulerCommit cfg env p req prio topWaiter, 0) := by
  cases h : s.setschedulerRequest p policy prio user c with
  | none => exact .inl (schedSetscheduler_of_no_request cfg env topWaiter h)
  | some req =>
    obtain ⟨hvalid, hstop, hnothing⟩ := setschedulerRequest_eq_some h
    exact .inr ⟨req, hvalid, hstop, hnothing, schedSetscheduler_of_request cfg env topWaiter h⟩

/-- A call that returns 0 was valid, and did nothing only if there was nothing to do. -/
theorem schedSetscheduler_eq_zero {topWaiter : Option ℤ}
    (h0 : (s.schedSetscheduler cfg env p policy prio user c topWaiter).2 = 0) :
    ∃ req, validate (s.task p) policy prio user c = .ok req ∧ s.stop ≠ some p ∧
      (s.schedSetscheduler cfg env p policy prio user c topWaiter).1 =
        if nothingChanges (s.task p) req.policy prio then s
        else s.setschedulerCommit cfg env p req prio topWaiter := by
  have heinval : -einval ≠ 0 := by decide
  have heperm : -eperm ≠ 0 := by decide
  cases h : validate (s.task p) policy prio user c with
  | error e =>
    -- a refused call does not return zero
    rw [schedSetscheduler_of_error cfg env topWaiter h] at h0
    exact absurd h0 (validate_error_ne_zero h)
  | ok req =>
    have hl := schedSetscheduler_of_ok cfg env topWaiter h
    unfold setschedulerLocked at hl
    -- the stop task, the shortcut, the RT runtime of the group, the commit
    split at hl
    · rw [Option.some.inj hl] at h0
      exact absurd h0 heinval
    next hstop =>
      split at hl
      · next hnothing =>
        refine ⟨req, rfl, hstop, ?_⟩
        rw [if_pos hnothing, Option.some.inj hl]
      next hnothing =>
        split at hl
        · rw [Option.some.inj hl] at h0
          exact absurd h0 heperm
        split at hl
        · cases hl
        · refine ⟨req, rfl, hstop, ?_⟩
          rw [if_neg hnothing, Option.some.inj hl]

end State

end WrrSched
