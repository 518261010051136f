import WrrSched.Correctness.RtInvariant

/-!
# The budget of an RT group

Whatever the tasks of a group do, and whatever happens to the other groups, the account of a group
moves in two ways only: the running task is charged, or the period timer takes the runtime off
again. So a group that is not throttled has had at most its runtime for each period, and one period
more. And the timer of a group that may be throttled does not stop, so that a throttled group is let
go again.

- `Billed`, `RtInv.timeStep`: what one step does to the account of a group;
- `rtSystem_budget`: the bound on the time a group is charged;
- `rtSystem_armed`: no timer is lost;
- `rtSystem_release`: the timer ends the throttling.
-/

namespace WrrSched

/-- What is left of `a` when `x` is taken off, as far as there is any. -/
theorem toNat_sub_min (a x : UInt64) : (a - min a x).toNat = a.toNat - x.toNat := by
  have hmin : min a x = if a ≤ x then a else x := rfl
  rw [hmin]
  split_ifs with hle
  · rw [UInt64.le_iff_toNat_le] at hle
    rw [UInt64.sub_self, UInt64.toNat_zero, Nat.sub_eq_zero_of_le hle]
  · exact UInt64.toNat_sub_of_le _ _ (UInt64.le_of_lt (UInt64.not_le.mp hle))

/-! ## Accounts -/

namespace RtRq

variable {b : RtBandwidth} {rq rq' : RtRq} {n : ℕ}

/-- The end of the periods in `overruns`. -/
def refills (overruns : List ℕ) (rq : RtRq) : RtRq :=
  overruns.foldl (fun rq n => rq.refill n) rq

/-- The timer does not set the runtime. -/
@[simp] theorem rtRuntime_refills (overruns : List ℕ) (rq : RtRq) :
    (rq.refills overruns).rtRuntime = rq.rtRuntime := by
  induction overruns generalizing rq with
  | nil => rfl
  | cons n overruns ih => exact (ih _).trans (rtRuntime_refill n rq)

/-- What one step may do to the account of a run queue whose bandwidth is `b`. -/
inductive Billed (b : RtBandwidth) (rq rq' : RtRq) : Prop
  | same : rq'.account = rq.account → Billed b rq rq'
  | charge (delta : UInt64) : rq'.account = (rq.charge b delta).account → Billed b rq rq'
  | refill (overruns : List ℕ) : rq'.account = (rq.refills overruns).account → Billed b rq rq'

/-! ### Throttling -/

/-- The run queue has not used more than its runtime, or it is throttled. -/
def Within (rq : RtRq) : Prop :=
  rq.rtThrottled = true ∨ rq.rtTime ≤ rq.rtRuntime

/-- A step that leaves account and runtime alone. -/
theorem Within.congr (h : rq.Within) (ha : rq'.account = rq.account)
    (hr : rq'.rtRuntime = rq.rtRuntime) : rq'.Within := by
  have htime : rq'.rtTime = rq.rtTime := congrArg (·.1) ha
  have hthr : rq'.rtThrottled = rq.rtThrottled := congrArg (·.2.1) ha
  rw [Within, hthr, htime, hr]
  exact h

/-- A charge throttles a limited run queue that has used more than its runtime. -/
theorem within_charge (hper : rq.rtRuntime < b.rtPeriod) (hb : b.rtRuntime ≠ 0) (delta : UInt64) :
    (rq.charge b delta).Within := by
  have hlim : rq.rtRuntime ≠ runtimeInf := by
    intro hinf
    rw [hinf, UInt64.lt_iff_toNat_lt] at hper
    exact absurd hper (Nat.not_lt.mpr (Nat.le_of_lt_succ b.rtPeriod.toNat_lt))
  unfold RtRq.charge
  rw [if_neg hlim]
  unfold RtRq.limit
  split_ifs with hlimit
  · obtain hthr | hle | hle := hlimit
    · exact .inl hthr
    · exact absurd hper (UInt64.not_lt.mpr hle)
    · exact .inr hle
  · exact .inl rfl

/-- The timer lets go only a run queue that is below its runtime. -/
theorem Within.refill (h : rq.Within) (n : ℕ) : (rq.refill n).Within := by
  unfold RtRq.refill
  split_ifs with htime
  · by_cases hlt : rq.rtTime - min rq.rtTime (UInt64.ofNat n * rq.rtRuntime) < rq.rtRuntime
    · exact .inr (UInt64.le_of_lt hlt)
    · obtain hthr | hle := h
      · exact .inl (by simp [hthr, hlt])
      · refine .inr (UInt64.le_trans ?_ hle)
        rw [UInt64.le_iff_toNat_le, toNat_sub_min]
        exact Nat.sub_le _ _
  · exact h

/-- The same for several periods. -/
theorem Within.refills (h : rq.Within) (overruns : List ℕ) : (rq.refills overruns).Within := by
  induction overruns generalizing rq with
  | nil => exact h
  | cons n overruns ih => exact ih (h.refill n)

/-- A step takes a run queue over its runtime only if it throttles it. -/
theorem Within.billed (h : rq.Within) (hbill : Billed b rq rq') (hr : rq'.rtRuntime = rq.rtRuntime)
    (hper : rq.rtRuntime < b.rtPeriod) (hb : b.rtRuntime ≠ 0) : rq'.Within := by
  cases hbill with
  | same ha => exact h.congr ha hr
  | charge delta ha =>
    exact (within_charge hper hb delta).congr ha (hr.trans (rtRuntime_charge b delta rq).symm)
  | refill overruns ha =>
    exact (h.refills overruns).congr ha (hr.trans (rtRuntime_refills overruns rq).symm)

/-! ### Balance -/

/-- Between two states of an account with runtime `R` everything that was charged is still in
`rt_time`, or was taken off at the end of a period. -/
structure Balance (R : ℕ) (rq rq' : RtRq) : Prop where
  charged : rq.charged ≤ rq'.charged
  periods : rq.periods ≤ rq'.periods
  balance : rq'.charged + rq.rtTime.toNat ≤
    rq.charged + rq'.rtTime.toNat + (rq'.periods - rq.periods) * R

/-- Charges are not lost as long as `rt_time` does not wrap around. -/
def Exact (rq : RtRq) : Prop :=
  rq.charged < 2 ^ 64 → rq.rtTime.toNat ≤ rq.charged

/-- Nothing happens. -/
theorem Balance.refl (R : ℕ) (rq : RtRq) : Balance R rq rq :=
  ⟨le_rfl, le_rfl, by simp⟩

/-- Two stretches after one another. -/
theorem Balance.trans {R : ℕ} {rq'' : RtRq} (h : Balance R rq rq') (h' : Balance R rq' rq'') :
    Balance R rq rq'' where
  charged := h.charged.trans h'.charged
  periods := h.periods.trans h'.periods
  balance := by
    have hsplit : (rq''.periods - rq.periods) * R =
        (rq''.periods - rq'.periods) * R + (rq'.periods - rq.periods) * R := by
      rw [← Nat.add_mul, Nat.sub_add_sub_cancel h'.periods h.periods]
    have hb := h.balance
    have hb' := h'.balance
    omega

/-- The account alone counts. -/
theorem Balance.congr {R : ℕ} {rq'' : RtRq} (h : Balance R rq rq')
    (ha : rq''.account = rq'.account) : Balance R rq rq'' := by
  have htime : rq''.rtTime = rq'.rtTime := congrArg (·.1) ha
  have hch : rq''.charged = rq'.charged := congrArg (·.2.2.1) ha
  have hper : rq''.periods = rq'.periods := congrArg (·.2.2.2) ha
  obtain ⟨h1, h2, h3⟩ := h
  exact ⟨by omega, by omega, by rw [hper, hch, htime]; exact h3⟩

/-- The account alone counts. -/
theorem Exact.congr (h : rq.Exact) (ha : rq'.account = rq.account) : rq'.Exact := by
  have htime : rq'.rtTime = rq.rtTime := congrArg (·.1) ha
  have hch : rq'.charged = rq.charged := congrArg (·.2.2.1) ha
  rw [Exact, htime, hch]
  exact h

/-- The sum does not wrap around. -/
theorem toNat_rtTime_accrue {delta : UInt64} (h : rq.Exact)
    (hlt : (rq.accrue delta).charged < 2 ^ 64) :
    (rq.accrue delta).rtTime.toNat = rq.rtTime.toNat + delta.toNat := by
  have hle := h (lt_of_le_of_lt (Nat.le_add_right _ _) hlt)
  have hsum : rq.charged + delta.toNat < 2 ^ 64 := hlt
  have hadd : (rq.accrue delta).rtTime = rq.rtTime + delta := rfl
  rw [hadd, UInt64.toNat_add, Nat.mod_eq_of_lt]
  omega

/-- A charge counts unless the run queue has no limit. -/
theorem charged_charge (b : RtBandwidth) (delta : UInt64) (rq : RtRq) :
    (rq.charge b delta).charged =
      if rq.rtRuntime = runtimeInf then rq.charged else (rq.accrue delta).charged := by
  unfold charge limit
  split_ifs <;> rfl

/-- A charge ends no period. -/
theorem periods_charge (b : RtBandwidth) (delta : UInt64) (rq : RtRq) :
    (rq.charge b delta).periods = rq.periods := by
  unfold charge limit
  split_ifs <;> rfl

/-- A charge forgets the time only of a group without runtime. -/
theorem rtTime_charge (b : RtBandwidth) (delta : UInt64) (rq : RtRq) :
    (rq.charge b delta).rtTime =
        (if rq.rtRuntime = runtimeInf then rq.rtTime else (rq.accrue delta).rtTime) ∨
      b.rtRuntime = 0 ∧ (rq.charge b delta).rtTime = 0 := by
  unfold charge limit
  split_ifs with h1 h2 h3
  · exact .inl rfl
  · exact .inl rfl
  · exact .inl rfl
  · exact .inr ⟨not_not.mp h3, rfl⟩

/-- A charge adds no more to the account than to what was charged. -/
theorem Exact.charge (h : rq.Exact) (delta : UInt64) : (rq.charge b delta).Exact := by
  intro hlt
  rw [charged_charge] at hlt ⊢
  obtain htime | ⟨-, htime⟩ := rtTime_charge b delta rq
  · rw [htime]
    split_ifs at hlt ⊢ with hinf
    · exact h hlt
    · rw [toNat_rtTime_accrue h hlt]
      exact Nat.add_le_add_right (h (lt_of_le_of_lt (Nat.le_add_right _ _) hlt)) _
  · rw [htime]
    exact Nat.zero_le _

/-- What is charged goes on the account. -/
theorem Balance.charge {R : ℕ} (h : rq.Exact) (hb : b.rtRuntime ≠ 0) {delta : UInt64}
    (hlt : (rq.charge b delta).charged < 2 ^ 64) : Balance R rq (rq.charge b delta) := by
  have hcharged := charged_charge b delta rq
  have htime := (rtTime_charge b delta rq).resolve_right fun h0 => hb h0.1
  have hself : (rq.accrue delta).charged = rq.charged + delta.toNat := rfl
  refine ⟨?_, (periods_charge b delta rq).ge, ?_⟩
  · rw [hcharged]
    split_ifs <;> omega
  · rw [periods_charge, Nat.sub_self, Nat.zero_mul, htime, hcharged]
    rw [hcharged] at hlt
    split_ifs at hlt ⊢ with hinf
    · omega
    · rw [toNat_rtTime_accrue h hlt]
      omega

/-- The timer charges nothing. -/
theorem charged_refill (n : ℕ) (rq : RtRq) : (rq.refill n).charged = rq.charged := by
  unfold refill
  split_ifs <;> rfl

/-- At the end of `n` periods at most the runtime of `n` periods is taken off. -/
theorem Balance.refill (n : ℕ) (rq : RtRq) : Balance rq.rtRuntime.toNat rq (rq.refill n) := by
  refine ⟨(charged_refill n rq).ge, ?_, ?_⟩
  · unfold RtRq.refill
    split_ifs
    · exact Nat.le_add_right _ _
    · exact le_rfl
  · rw [charged_refill]
    unfold RtRq.refill
    split_ifs with htime
    · simp only [toNat_sub_min, Nat.add_sub_cancel_left]
      have hle : (UInt64.ofNat n * rq.rtRuntime).toNat ≤ n * rq.rtRuntime.toNat := by
        rw [UInt64.toNat_mul]
        refine (Nat.mod_le _ _).trans (Nat.mul_le_mul_right _ ?_)
        rw [UInt64.toNat_ofNat']
        exact Nat.mod_le _ _
      omega
    · omega

/-- The timer only lowers the account. -/
theorem Exact.refill (h : rq.Exact) (n : ℕ) : (rq.refill n).Exact := by
  intro hlt
  rw [charged_refill] at hlt ⊢
  refine le_trans ?_ (h hlt)
  unfold RtRq.refill
  split_ifs
  · simp only [toNat_sub_min]
    exact Nat.sub_le _ _
  · exact le_rfl

/-- What the ended periods take off the account. -/
theorem Balance.refills (overruns : List ℕ) (rq : RtRq) :
    Balance rq.rtRuntime.toNat rq (rq.refills overruns) := by
  induction overruns generalizing rq with
  | nil => exact .refl _ rq
  | cons n overruns ih =>
    have hlast := ih (rq.refill n)
    rw [rtRuntime_refill] at hlast
    exact (Balance.refill n rq).trans hlast

/-- Neither do several periods. -/
theorem charged_refills (overruns : List ℕ) (rq : RtRq) :
    (rq.refills overruns).charged = rq.charged := by
  induction overruns generalizing rq with
  | nil => rfl
  | cons n overruns ih => exact (ih _).trans (charged_refill n rq)

/-- So do several periods. -/
theorem Exact.refills (h : rq.Exact) (overruns : List ℕ) : (rq.refills overruns).Exact := by
  induction overruns generalizing rq with
  | nil => exact h
  | cons n overruns ih => exact ih (h.refill n)

/-- A throttled run queue owes time, as long as `rt_time` does not wrap around. -/
def Owing (rq : RtRq) : Prop :=
  rq.charged < 2 ^ 64 → rq.rtThrottled = true → rq.rtTime ≠ 0

/-- The account alone counts. -/
theorem Owing.congr (h : rq.Owing) (ha : rq'.account = rq.account) : rq'.Owing := by
  have htime : rq'.rtTime = rq.rtTime := congrArg (·.1) ha
  have hthr : rq'.rtThrottled = rq.rtThrottled := congrArg (·.2.1) ha
  have hch : rq'.charged = rq.charged := congrArg (·.2.2.1) ha
  rw [Owing, htime, hthr, hch]
  exact h

/-- A charge throttles only a run queue with time on its account. -/
theorem Owing.charge (h : rq.Owing) (hex : rq.Exact) (delta : UInt64) :
    (rq.charge b delta).Owing := by
  intro hlt
  rw [charged_charge] at hlt
  unfold RtRq.charge
  split_ifs at hlt ⊢ with hinf
  · exact h hlt
  · have hsum := toNat_rtTime_accrue hex hlt
    unfold RtRq.limit
    split_ifs with hlimit hb
    · intro hthr h0
      rw [h0, UInt64.toNat_zero] at hsum
      -- it was throttled before, and its time has grown
      refine h (lt_of_le_of_lt (Nat.le_add_right _ _) hlt) hthr (UInt64.toNat_inj.mp ?_)
      rw [UInt64.toNat_zero]
      omega
    · intro _ h0
      refine hlimit (.inr (.inr ?_))
      rw [UInt64.le_iff_toNat_le]
      have h0' : (rq.accrue delta).rtTime = 0 := h0
      rw [h0', UInt64.toNat_zero]
      exact Nat.zero_le _
    · intro hthr
      exact absurd (.inl hthr) hlimit

/-- The timer leaves a run queue throttled only when time is left on its account. -/
theorem Owing.refill (h : rq.Owing) (n : ℕ) : (rq.refill n).Owing := by
  intro hlt
  rw [charged_refill] at hlt
  unfold RtRq.refill
  split_ifs with htime
  · simp only [Bool.and_eq_true, Bool.not_eq_true', decide_eq_false_iff_not]
    rintro ⟨hthr, hle⟩ h0
    rw [h0] at hle
    -- nothing is left, so the runtime is zero, but then nothing was taken off
    have hzero : rq.rtRuntime = 0 := by
      rw [← UInt64.toNat_inj, UInt64.toNat_zero]
      rw [UInt64.not_lt, UInt64.le_iff_toNat_le, UInt64.toNat_zero] at hle
      omega
    have hsub := toNat_sub_min rq.rtTime (UInt64.ofNat n * rq.rtRuntime)
    rw [h0, hzero, UInt64.mul_zero, UInt64.toNat_zero, Nat.sub_zero] at hsub
    exact htime (UInt64.toNat_inj.mp hsub.symm)
  · exact h hlt

/-- The same for several periods. -/
theorem Owing.refills (h : rq.Owing) (overruns : List ℕ) : (rq.refills overruns).Owing := by
  induction overruns generalizing rq with
  | nil => exact h
  | cons n overruns ih => exact ih (h.refill n)

/-- The same for any step. -/
theorem Owing.billed (h : rq.Owing) (hex : rq.Exact) (hbill : Billed b rq rq') : rq'.Owing := by
  cases hbill with
  | same ha => exact h.congr ha
  | charge delta ha => exact (h.charge hex delta).congr ha
  | refill overruns ha => exact (h.refills overruns).congr ha

/-- Charges are not lost in any step. -/
theorem Exact.billed (h : rq.Exact) (hbill : Billed b rq rq') : rq'.Exact := by
  cases hbill with
  | same ha => exact h.congr ha
  | charge delta ha => exact (h.charge delta).congr ha
  | refill overruns ha => exact (h.refills overruns).congr ha

/-- What was charged stays charged. -/
theorem Billed.charged_le (h : Billed b rq rq') : rq.charged ≤ rq'.charged := by
  cases h with
  | same ha => exact (congrArg (·.2.2.1) ha).ge
  | charge delta ha =>
    have hch : rq'.charged = (rq.charge b delta).charged := congrArg (·.2.2.1) ha
    rw [hch, charged_charge]
    split_ifs
    · exact le_rfl
    · exact Nat.le_add_right _ _
  | refill overruns ha => exact ((Balance.refills overruns rq).congr ha).charged

/-- The balance of any step. -/
theorem Balance.billed (h : rq.Exact) (hbill : Billed b rq rq') (hb : b.rtRuntime ≠ 0)
    (hlt : rq'.charged < 2 ^ 64) : Balance rq.rtRuntime.toNat rq rq' := by
  cases hbill with
  | same ha => exact (Balance.refl _ rq).congr ha
  | charge delta ha =>
    have hch : rq'.charged = (rq.charge b delta).charged := congrArg (·.2.2.1) ha
    exact (Balance.charge h hb (hch ▸ hlt)).congr ha
  | refill overruns ha => exact (Balance.refills overruns rq).congr ha

/-- A step that charges a limited run queue sees to it that it is within its runtime, or throttled. -/
theorem Billed.charged_or_within (hbill : Billed b rq rq') (hr : rq'.rtRuntime = rq.rtRuntime)
    (hper : rq.rtRuntime < b.rtPeriod) (hb : b.rtRuntime ≠ 0) :
    rq'.charged = rq.charged ∨ rq'.Within := by
  cases hbill with
  | same ha => exact .inl (congrArg (·.2.2.1) ha)
  | charge delta ha =>
    refine .inr ((within_charge hper hb delta).congr ha ?_)
    exact hr.trans (rtRuntime_charge b delta rq).symm
  | refill overruns ha =>
    have hch : rq'.charged = (rq.refills overruns).charged := congrArg (·.2.2.1) ha
    exact .inl (hch.trans (charged_refills overruns rq))

/-! ### The end of throttling -/

/-- The timer throttles nothing. -/
theorem not_throttled_refill (h : rq.rtThrottled = false) (n : ℕ) :
    (rq.refill n).rtThrottled = false := by
  unfold refill
  split_ifs
  · simp [h]
  · exact h

/-- What the timer leaves of the account of a run queue that stays throttled. -/
theorem refill_of_throttled (hR : rq.rtRuntime ≠ 0) (h0 : rq.rtTime ≠ 0)
    (hlt : n * rq.rtRuntime.toNat < 2 ^ 64) (h : (rq.refill n).rtThrottled = true) :
    (rq.refill n).rtTime ≠ 0 ∧
      (rq.refill n).rtTime.toNat = rq.rtTime.toNat - n * rq.rtRuntime.toNat := by
  have hpos : 0 < rq.rtRuntime.toNat :=
    Nat.pos_of_ne_zero fun hz => hR (UInt64.toNat_inj.mp (by simpa using hz))
  have hn : n < 2 ^ 64 := lt_of_le_of_lt (Nat.le_mul_of_pos_right n hpos) hlt
  have hmul : (UInt64.ofNat n * rq.rtRuntime).toNat = n * rq.rtRuntime.toNat := by
    rw [UInt64.toNat_mul, UInt64.toNat_ofNat', Nat.mod_eq_of_lt hn, Nat.mod_eq_of_lt hlt]
  have htime : (rq.refill n).rtTime = rq.rtTime - min rq.rtTime (UInt64.ofNat n * rq.rtRuntime) := by
    rw [refill, if_pos h0]
  have hthr : (rq.refill n).rtThrottled =
      (rq.rtThrottled && !decide ((rq.refill n).rtTime < rq.rtRuntime)) := by
    rw [htime, refill, if_pos h0]
  refine ⟨fun hz => ?_, ?_⟩
  · rw [hthr, hz] at h
    have hlt0 : (0 : UInt64) < rq.rtRuntime := by
      rw [UInt64.lt_iff_toNat_lt, UInt64.toNat_zero]
      exact hpos
    simp [hlt0] at h
  · rw [htime, toNat_sub_min, hmul]

/-- A throttled run queue is let go when the periods that have ended cover what it owes. -/
theorem not_throttled_refills {overruns : List ℕ} (hR : rq.rtRuntime ≠ 0)
    (hlt : overruns.sum * rq.rtRuntime.toNat < 2 ^ 64)
    (howe : rq.rtThrottled = true →
      rq.rtTime ≠ 0 ∧ rq.rtTime.toNat ≤ overruns.sum * rq.rtRuntime.toNat) :
    (rq.refills overruns).rtThrottled = false := by
  induction overruns generalizing rq with
  | nil =>
    refine Bool.eq_false_iff.mpr fun hthr => ?_
    obtain ⟨hne, hle⟩ := howe hthr
    rw [List.sum_nil, Nat.zero_mul, Nat.le_zero] at hle
    exact hne (UInt64.toNat_inj.mp (by simpa using hle))
  | cons n overruns ih =>
    rw [List.sum_cons, Nat.add_mul] at hlt howe
    change ((rq.refill n).refills overruns).rtThrottled = false
    refine ih (by rwa [rtRuntime_refill]) ?_ fun hthr => ?_
    · rw [rtRuntime_refill]
      omega
    · -- it was throttled before, and owes less now
      have hthr0 : rq.rtThrottled = true := by
        by_contra hfalse
        rw [not_throttled_refill (Bool.eq_false_iff.mpr hfalse)] at hthr
        exact Bool.noConfusion hthr
      obtain ⟨hne, hle⟩ := howe hthr0
      obtain ⟨hne', htime⟩ := refill_of_throttled hR hne (by omega) hthr
      rw [rtRuntime_refill]
      exact ⟨hne', by omega⟩

end RtRq

/-! ## One step -/

namespace RtState

variable {cfg : Config} {s s' s'' : RtState} {op : RtOp} {g q : RtGroup}

/-- The operation sets the bandwidth of the group, or initialises its run queue. -/
def Retunes (g : RtGroup) : RtOp → Prop
  | .schedCreateGroup parent tg => g = tg :: parent
  | .schedGroupSetRtRuntime q _ | .schedGroupSetRtPeriod q _ => g = q
  | _ => False

/-- The time of the group is limited. -/
def Limited (s : RtState) (g : RtGroup) : Prop :=
  s.rtBandwidthEnabled = true ∧ (s.rtBandwidth g).rtRuntime ≠ runtimeInf

/-- What a step does to the account and the timer of a group whose bandwidth it leaves alone. -/
structure TimeStep (g : RtGroup) (s s' : RtState) : Prop where
  billed : RtRq.Billed (s.rtBandwidth g) (s.rtRq g) (s'.rtRq g)
  rtRuntime : (s'.rtRq g).rtRuntime = (s.rtRq g).rtRuntime
  rtPeriod : (s'.rtBandwidth g).rtPeriod = (s.rtBandwidth g).rtPeriod
  bandwidthRuntime : (s'.rtBandwidth g).rtRuntime = (s.rtBandwidth g).rtRuntime
  armed : ((s.rtRq g).rtNrRunning ≠ 0 → s'.Limited g → s.Limited g) → s.Armed g → s'.Armed g

namespace TimeStep

/-- Nothing happens. -/
theorem refl (g : RtGroup) (s : RtState) : TimeStep g s s :=
  ⟨.same rfl, rfl, rfl, rfl, fun _ h => h⟩

/-- A step of throttling or of the timer. -/
theorem of_time (hf : TimeFrame q s s') (harmed : ∀ q, s.Armed q → s'.Armed q)
    (hb : RtRq.Billed (s.rtBandwidth g) (s.rtRq g) (s'.rtRq g)) : TimeStep g s s' :=
  ⟨hb, hf.rtRuntime g, hf.rtPeriod g, hf.bandwidthRuntime g, fun _ => harmed g⟩

/-- Queueing moves no account. -/
theorem queue (h : TimeStep g s s') (hf : QueueFrame s' s'')
    (harmed : s'.Armed g → s''.Armed g) : TimeStep g s s'' where
  billed := by
    have ha := hf.account g
    cases h.billed with
    | same hs => exact .same (ha.trans hs)
    | charge delta hs => exact .charge delta (ha.trans hs)
    | refill overruns hs => exact .refill overruns (ha.trans hs)
  rtRuntime := (hf.rtRuntime g).trans h.rtRuntime
  rtPeriod := (hf.rtPeriod g).trans h.rtPeriod
  bandwidthRuntime := (hf.bandwidthRuntime g).trans h.bandwidthRuntime
  armed hlim ha := by
    rw [Limited, rtBandwidthEnabled_congr hf.sysctlSchedRtRuntime, hf.bandwidthRuntime] at hlim
    exact harmed (h.armed hlim ha)

/-- Neither does anything that leaves the run queue and the bandwidth of the group alone. -/
theorem congr (h : TimeStep g s s') (hrq : s''.rtRq g = s'.rtRq g)
    (hbw : s''.rtBandwidth g = s'.rtBandwidth g)
    (hsys : s''.sysctlSchedRtRuntime = s'.sysctlSchedRtRuntime) : TimeStep g s s'' where
  billed := hrq ▸ h.billed
  rtRuntime := hrq ▸ h.rtRuntime
  rtPeriod := hbw ▸ h.rtPeriod
  bandwidthRuntime := hbw ▸ h.bandwidthRuntime
  armed hlim ha := by
    rw [Limited, rtBandwidthEnabled_congr hsys, hbw] at hlim
    exact (h.armed hlim ha).congr (by rw [hrq]) hbw hsys

end TimeStep

/-- `update_curr_rt` charges every run queue above the running task at most once. -/
theorem RtInv.timeStep_updateCurrRt (h : s.RtInv) (g : RtGroup) : TimeStep g s s.updateCurrRt := by
  obtain ⟨-, hframe, harmed, haccount⟩ := updateCurrRt_spec h.consistent
  refine .of_time hframe harmed ?_
  have ha := haccount g
  split_ifs at ha
  · exact .charge _ ha
  · exact .same ha

/-- A new bandwidth of another group. -/
theorem timeStep_tgSetRtBandwidth (hg : g ≠ q) (period runtime : UInt64) :
    TimeStep g s (s.tgSetRtBandwidth q period runtime).2 := by
  unfold tgSetRtBandwidth
  simp only
  split_ifs
  · exact .refl g s
  · refine (TimeStep.refl g s).congr ?_ ?_ rfl <;> simp [modifyRtRq, hg]

/-- One step charges the running task to a group, or ends periods of the group, or leaves its
account alone, unless it is about its bandwidth. -/
theorem RtInv.timeStep (h : s.RtInv) (cfg : Config) (op : RtOp) (hen : s.Enabled op) (hop : ¬ Retunes g op) :
    TimeStep g s (s.next cfg op) := by
  cases op with
  | enqueueTaskRt p flags =>
    -- queueing moves no account and stops no timer
    obtain ⟨-, hoff, -, h0, hN⟩ := hen
    obtain ⟨-, hframe, harmed, -⟩ :=
      h.consistent.enqueueTask hoff h0 hN (decide (flags &&& enqueueHead ≠ 0))
    exact ((TimeStep.refl g s).queue hframe (harmed g)).congr rfl rfl rfl
  | dequeueTaskRt p =>
    -- first the charge, then the queueing
    obtain ⟨hcons, hupdate, -, -⟩ := updateCurrRt_spec h.consistent
    have hon : s.updateCurrRt.onRtRq (.task p) = true := by
      rw [hupdate.onRtRq_task h.consistent.queues hcons.queues]
      exact hen
    obtain ⟨-, hframe, harmed, -⟩ := hcons.dequeueTask hon
    exact ((h.timeStep_updateCurrRt g).queue hframe (harmed g)).congr rfl rfl rfl
  | yieldTaskRt =>
    obtain ⟨-, hframe, -, hnr, hbw, -⟩ := requeueTaskRt_spec h.consistent s.core.curr false
    exact (TimeStep.refl g s).queue hframe fun ha =>
      ha.congr (hnr g) (hbw g) hframe.sysctlSchedRtRuntime
  | pickNextTaskRt =>
    obtain ⟨hpick, -⟩ | ⟨p, hpick, -⟩ := h.consistent.pickNextTaskRt_spec h.groups
    · simp only [RtState.next, hpick]
      exact .refl g s
    · simp only [RtState.next, hpick]
      exact (TimeStep.refl g s).congr rfl rfl rfl
  | putPrevTaskRt => exact h.timeStep_updateCurrRt g
  | setCurrTaskRt => exact (TimeStep.refl g s).congr rfl rfl rfl
  | taskTickRt =>
    have hupdate := h.timeStep_updateCurrRt g
    -- the requeue at the end of a slice moves no account
    obtain ⟨slice, htick | htick⟩ := taskTickRt_eq cfg s s.core.curr
    · simp only [RtState.next, htick]
      exact hupdate.congr rfl rfl rfl
    · have hinv := h.updateCurrRt.timeSlice slice
      obtain ⟨-, hframe, -, hnr, hbw, -⟩ :=
        requeueTaskRt_spec hinv.consistent s.core.curr false
      have hslice : TimeStep g s { s.updateCurrRt with timeSlice := slice } :=
        hupdate.congr rfl rfl rfl
      simp only [RtState.next, htick]
      refine (hslice.queue hframe fun ha => ?_).congr rfl rfl rfl
      exact ha.congr (hnr g) (hbw g) hframe.sysctlSchedRtRuntime
  | schedRtPeriodTimer q overruns =>
    obtain ⟨-, hframe, harmed, haccount⟩ :=
      schedRtPeriodTimer_spec (g := q) h.consistent overruns
    -- the timer of one group refills that group only
    refine .of_time hframe harmed ?_
    have ha := haccount g
    split_ifs at ha with hg
    · subst hg
      exact .refill overruns ha
    · exact .same ha
  | setTaskRq p q => exact (TimeStep.refl g s).congr rfl rfl rfl
  | schedCreateGroup parent tg =>
    have hne : g ≠ tg :: parent := hop
    refine (TimeStep.refl g s).congr ?_ ?_ rfl <;>
      simp [RtState.next, RtState.schedCreateGroup, hne]
  | schedDestroyGroup tg parent =>
    by_cases hg : g = tg :: parent
    · subst hg
      -- the group has nothing to run, so that its timer may stop
      have hnr := h.nr_eq_zero hen.2.1 hen.2.2
      refine ⟨.same rfl, rfl, ?_, ?_, fun _ _ _ _ hne => absurd hnr hne⟩ <;>
        simp [RtState.next, RtState.schedDestroyGroup]
    · refine (TimeStep.refl g s).congr rfl ?_ rfl
      simp [RtState.next, RtState.schedDestroyGroup, hg]
  | schedGroupSetRtRuntime q usec => exact timeStep_tgSetRtBandwidth hop _ _
  | schedGroupSetRtPeriod q usec =>
    simp only [RtState.next, RtState.schedGroupSetRtPeriod]
    split_ifs
    · exact .refl g s
    · exact timeStep_tgSetRtBandwidth hop _ _
  | schedRtHandler w =>
    -- the limit of the system switches the timers on or off, the groups keep their runtimes
    obtain ⟨hrq, hbw⟩ : (s.schedRtHandler w).2.rtRq = s.rtRq ∧
        (s.schedRtHandler w).2.rtBandwidth = s.rtBandwidth := by
      unfold RtState.schedRtHandler
      simp only
      split_ifs <;> cases w <;> exact ⟨rfl, rfl⟩
    have hrq' : (s.next cfg (.schedRtHandler w)).rtRq = s.rtRq := hrq
    have hbw' : (s.next cfg (.schedRtHandler w)).rtBandwidth = s.rtBandwidth := hbw
    refine ⟨.same (by rw [hrq']), by rw [hrq'], by rw [hbw'], by rw [hbw'], fun hlim ha hen' => ?_⟩
    rw [hbw', hrq']
    intro hrt hnr
    obtain ⟨hen, hrt⟩ := hlim hnr ⟨hen', by rwa [hbw']⟩
    exact ha hen hrt hnr
  | other core => exact (TimeStep.refl g s).congr rfl rfl rfl

/-! ## Bandwidth -/

/-- A request for another bandwidth is refused, or it sets the bandwidth and the runtime of the run
queue. -/
theorem tgSetRtBandwidth_snd (s : RtState) (g : RtGroup) (period runtime : UInt64) :
    (s.tgSetRtBandwidth g period runtime).2 = s ∨
      (s.tgSetRtBandwidth g period runtime).2 =
        ({ s with
          rtBandwidth := Function.update s.rtBandwidth g
            { s.rtBandwidth g with rtPeriod := period, rtRuntime := runtime } } :
          RtState).modifyRtRq g fun rq => { rq with rtRuntime := runtime } := by
  unfold tgSetRtBandwidth
  simp only
  split_ifs
  · exact .inl rfl
  · exact .inr rfl

/-- What an operation on the bandwidth of a group may be. -/
theorem retunes_cases (s : RtState) (cfg : Config) (hop : Retunes g op) :
    (∃ parent tg, op = .schedCreateGroup parent tg ∧ g = tg :: parent) ∨ s.next cfg op = s ∨
      ∃ period runtime, s.next cfg op = ({ s with
          rtBandwidth := Function.update s.rtBandwidth g
            { s.rtBandwidth g with rtPeriod := period, rtRuntime := runtime } } :
          RtState).modifyRtRq g fun rq => { rq with rtRuntime := runtime } := by
  cases op with
  | schedCreateGroup parent tg => exact .inl ⟨parent, tg, rfl, hop⟩
  | schedGroupSetRtRuntime q usec =>
    obtain rfl : g = q := hop
    exact .inr ((s.tgSetRtBandwidth_snd g _ _).imp id fun h => ⟨_, _, h⟩)
  | schedGroupSetRtPeriod q usec =>
    obtain rfl : g = q := hop
    simp only [RtState.next, RtState.schedGroupSetRtPeriod]
    split_ifs
    · exact .inr (.inl rfl)
    · exact .inr ((s.tgSetRtBandwidth_snd g _ _).imp id fun h => ⟨_, _, h⟩)
  | _ => exact absurd hop id

/-- The runtime of a run queue is that of its group. -/
theorem RtInv.rtRuntime_next (h : s.RtInv) (op : RtOp) (hen : s.Enabled op)
    (hg : (s.rtRq g).rtRuntime = (s.rtBandwidth g).rtRuntime) :
    ((s.next cfg op).rtRq g).rtRuntime = ((s.next cfg op).rtBandwidth g).rtRuntime := by
  by_cases hop : Retunes g op
  · obtain ⟨parent, tg, rfl, rfl⟩ | hs | ⟨period, runtime, hs⟩ :=
      retunes_cases s cfg hop
    · simp [RtState.next, RtState.schedCreateGroup]
    · rw [hs, hg]
    · rw [hs]
      simp [modifyRtRq]
  · have hstep := h.timeStep cfg op hen hop
    rw [hstep.rtRuntime, hstep.bandwidthRuntime, hg]

/-- What holds of the account of every group: the run queue has the runtime of its group, charges
are not lost, and a throttled group owes time. -/
structure AccountOk (s : RtState) (g : RtGroup) : Prop where
  rtRuntime : (s.rtRq g).rtRuntime = (s.rtBandwidth g).rtRuntime
  exact : (s.rtRq g).Exact
  owing : (s.rtRq g).Owing

/-- What one step keeps of the account. -/
theorem RtInv.accountOk_next (h : s.RtInv) (op : RtOp) (hen : s.Enabled op) (hg : s.AccountOk g) :
    (s.next cfg op).AccountOk g := by
  have haccount : ((s.next cfg op).rtRq g).Exact ∧ ((s.next cfg op).rtRq g).Owing := by
    by_cases hop : Retunes g op
    · obtain ⟨parent, tg, rfl, rfl⟩ | hs | ⟨period, runtime, hs⟩ :=
        retunes_cases s cfg hop
      · simp [RtState.next, RtState.schedCreateGroup, RtRq.Exact, RtRq.Owing]
      · rw [hs]
        exact ⟨hg.exact, hg.owing⟩
      · rw [hs, modifyRtRq_self]
        have hrq : ({ s.rtRq g with rtRuntime := runtime } : RtRq).account = (s.rtRq g).account := rfl
        exact ⟨hg.exact.congr hrq, hg.owing.congr hrq⟩
    · have hbill := (h.timeStep cfg op hen hop).billed
      exact ⟨hg.exact.billed hbill, hg.owing.billed hg.exact hbill⟩
  exact ⟨h.rtRuntime_next op hen hg.rtRuntime, haccount.1, haccount.2⟩

/-- The timer of a group that has something to run does not stop, unless the group was not limited
before. -/
theorem RtInv.armed_next (h : s.RtInv) (op : RtOp) (hen : s.Enabled op)
    (hlim : (s.rtRq g).rtNrRunning ≠ 0 → (s.next cfg op).Limited g → s.Limited g)
    (ha : s.Armed g) : (s.next cfg op).Armed g := by
  by_cases hop : Retunes g op
  · obtain ⟨parent, tg, rfl, rfl⟩ | hs | ⟨period, runtime, hs⟩ :=
      retunes_cases s cfg hop
    · intro _ _ hnr
      simp [RtState.next, RtState.schedCreateGroup] at hnr
    · rwa [hs]
    · intro hen' hrt hnr
      rw [hs] at hen' hrt hnr hlim ⊢
      rw [modifyRtRq_self] at hnr
      obtain ⟨hen, hrt⟩ := hlim hnr ⟨hen', hrt⟩
      simpa [modifyRtRq] using ha hen hrt hnr
  · exact (h.timeStep cfg op hen hop).armed hlim ha

end RtState

/-! ## Runs -/

open RtState

variable {cfg : Config} {s₀ s s' : RtState} {g : RtGroup}

/-- The account of every group in every reachable state. -/
theorem rtSystem_accountOk (h : (rtSystem cfg).Reachable s) (g : RtGroup) : s.AccountOk g := by
  refine h.invariant_with (J := RtInv) (fun _ hs => rtSystem_inv hs) (fun s hs => ?_)
    fun s op hinv hg hen => hinv.accountOk_next op hen hg
  obtain ⟨core, timeSlice, -, rfl⟩ := hs
  exact ⟨rfl, fun _ => le_rfl, fun _ hthr => nomatch hthr⟩

/-- As long as the bandwidth of a group stays, a group that is not throttled has been charged at
most its runtime for each period that the timer has ended, and for one more, less what was on its
account. If it was throttled or within its runtime before, the runtime covers all of that as well. -/
theorem rtSystem_budget (h : (rtSystem cfg).Reachable s)
    (hp : (rtSystem cfg).Path (fun _ op => ¬ Retunes g op) s s')
    (hpos : (s.rtBandwidth g).rtRuntime ≠ 0)
    (hper : (s.rtBandwidth g).rtRuntime < (s.rtBandwidth g).rtPeriod)
    (hend : (s'.rtRq g).rtThrottled = false) (hcharged : (s'.rtRq g).charged < 2 ^ 64) :
    (s'.rtRq g).charged ≤ (s.rtRq g).charged +
        (((s'.rtRq g).periods - (s.rtRq g).periods + 1) * (s.rtBandwidth g).rtRuntime.toNat -
          (s.rtRq g).rtTime.toNat) ∧
      ((s.rtRq g).Within → (s'.rtRq g).charged + (s.rtRq g).rtTime.toNat ≤
        (s.rtRq g).charged +
          ((s'.rtRq g).periods - (s.rtRq g).periods + 1) * (s.rtBandwidth g).rtRuntime.toNat) := by
  -- the bandwidth, the throttling and the balance along the path
  obtain ⟨hbw', -, hwithin', hused', hbal'⟩ := hp.invariant
    (I := fun t => (t.rtBandwidth g).rtRuntime = (s.rtBandwidth g).rtRuntime ∧
      (t.rtBandwidth g).rtPeriod = (s.rtBandwidth g).rtPeriod ∧
      ((s.rtRq g).Within → (t.rtRq g).Within) ∧
      ((t.rtRq g).charged = (s.rtRq g).charged ∨ (t.rtRq g).Within) ∧
      ((t.rtRq g).charged < 2 ^ 64 →
        RtRq.Balance (s.rtBandwidth g).rtRuntime.toNat (s.rtRq g) (t.rtRq g)))
    h ⟨rfl, rfl, id, .inl rfl, fun _ => .refl _ _⟩
    fun t op ht ⟨hbw, hp, hwithin, hused, hbal⟩ hen hop => by
      have hstep := (rtSystem_inv ht).timeStep cfg op hen hop
      have hok := rtSystem_accountOk ht g
      have htper : (t.rtRq g).rtRuntime < (t.rtBandwidth g).rtPeriod := by
        rwa [hok.rtRuntime, hbw, hp]
      have htpos : (t.rtBandwidth g).rtRuntime ≠ 0 := by rwa [hbw]
      have hkeep (hw : (t.rtRq g).Within) : ((t.next cfg op).rtRq g).Within :=
        hw.billed hstep.billed hstep.rtRuntime htper htpos
      refine ⟨hstep.bandwidthRuntime.trans hbw, hstep.rtPeriod.trans hp,
        fun hw => hkeep (hwithin hw), ?_, fun hlt => ?_⟩
      · obtain hsame | hw := hused
        · obtain hch | hw := hstep.billed.charged_or_within hstep.rtRuntime htper htpos
          · exact .inl (hch.trans hsame)
          · exact .inr hw
        · exact .inr (hkeep hw)
      · have hone := RtRq.Balance.billed hok.exact hstep.billed htpos hlt
        rw [hok.rtRuntime, hbw] at hone
        exact (hbal (lt_of_le_of_lt hstep.billed.charged_le hlt)).trans hone
  have hle (hw : (s'.rtRq g).Within) :
      (s'.rtRq g).rtTime.toNat ≤ (s.rtBandwidth g).rtRuntime.toNat := by
    have hw := hw.resolve_left (by simp [hend])
    rw [(rtSystem_accountOk (hp.reachable h) g).rtRuntime, hbw'] at hw
    exact UInt64.le_iff_toNat_le.mp hw
  have hmono := (hbal' hcharged).charged
  have hbalance := (hbal' hcharged).balance
  rw [Nat.add_mul, Nat.one_mul]
  constructor
  · obtain hsame | hw := hused'
    · omega
    · have := hle hw
      omega
  · intro hw
    have := hle (hwithin' hw)
    omega

/-- One period of the root group ends. -/
def SmallRt.released : RtState := charged.next Small.cfg (.schedRtPeriodTimer [] [1])

/-- The root group, charged for 960 ms and let go again. -/
theorem rtSystem_budget_released :
    (SmallRt.released.rtRq []).charged ≤ (SmallRt.queued.rtRq []).charged +
        (((SmallRt.released.rtRq []).periods - (SmallRt.queued.rtRq []).periods + 1) *
          (SmallRt.queued.rtBandwidth []).rtRuntime.toNat -
          (SmallRt.queued.rtRq []).rtTime.toNat) := by
  have hactive : (SmallRt.charged.rtBandwidth []).timerActive = true := by decide +kernel
  have hpath : (rtSystem Small.cfg).Path (fun _ op => ¬ Retunes [] op) SmallRt.queued
      SmallRt.released :=
    SmallRt.path_next (SmallRt.path_charged .refl nofun nofun nofun) _
      ⟨List.mem_singleton.mpr rfl, hactive⟩ nofun
  exact (rtSystem_budget SmallRt.reachable_queued hpath (by decide) (by decide)
    (by decide +kernel) (by decide +kernel)).1

/-- The step limits a group that has something to run and was not limited before. -/
def LimitsAnew (cfg : Config) (g : RtGroup) (s : RtState) (op : RtOp) : Prop :=
  (s.rtRq g).rtNrRunning ≠ 0 ∧ (s.next cfg op).Limited g ∧ ¬ s.Limited g

/-- In a run that limits no group anew while it has something to run, the timer of every group that
has something to run and is limited is active. -/
theorem rtSystem_armed (h₀ : (rtSystem cfg).init s₀)
    (hp : (rtSystem cfg).Path (fun t op => ¬ LimitsAnew cfg g t op) s₀ s) : s.Armed g := by
  refine hp.invariant (I := fun t => t.Armed g) (.init h₀) ?_ fun t op ht ha hen hop => ?_
  · obtain ⟨core, timeSlice, -, rfl⟩ := h₀
    exact fun _ _ hnr => absurd rfl hnr
  · refine (rtSystem_inv ht).armed_next op hen (fun hnr hlim => ?_) ha
    by_contra hnot
    exact hop ⟨hnr, hlim, hnot⟩

/-- In the small kernel the root group is always limited. -/
theorem SmallRt.path_limited :
    (rtSystem Small.cfg).Path (fun t op => ¬ LimitsAnew Small.cfg [] t op) boot charged := by
  refine path_charged (path_queued ?_ ?_) ?_ ?_ ?_ <;>
    exact fun h => h.2.2 ⟨by decide +kernel, by decide +kernel⟩

/-- The timer of the root group after 960 ms. -/
theorem rtSystem_armed_charged : SmallRt.charged.Armed [] :=
  rtSystem_armed SmallRt.init_boot SmallRt.path_limited

/-- In such a run, the timer of a throttled group can go off, and when the periods that have ended
cover what the group owes, the tasks in it are eligible again, as far as the other groups they are
in allow it. -/
theorem rtSystem_release (h₀ : (rtSystem cfg).init s₀)
    (hp : (rtSystem cfg).Path (fun t op => ¬ LimitsAnew cfg g t op) s₀ s) (hlim : s.Limited g)
    (hnr : (s.rtRq g).rtNrRunning ≠ 0) (hR : (s.rtBandwidth g).rtRuntime ≠ 0)
    (hcharged : (s.rtRq g).charged < 2 ^ 64) {overruns : List ℕ}
    (hlt : overruns.sum * (s.rtBandwidth g).rtRuntime.toNat < 2 ^ 64)
    (hle : (s.rtRq g).rtTime.toNat ≤ overruns.sum * (s.rtBandwidth g).rtRuntime.toNat) :
    s.Enabled (.schedRtPeriodTimer g overruns) ∧
      ∀ p, s.onRtRq (.task p) = true →
        (∀ q, q <:+ s.rtGroup p → q ≠ g → (s.rtRq q).rtThrottled = false) →
        (s.next cfg (.schedRtPeriodTimer g overruns)).Eligible p := by
  have hreach := hp.reachable (.init h₀)
  have hinv := rtSystem_inv hreach
  have hok := rtSystem_accountOk hreach g
  refine ⟨⟨hinv.groups.existing g hnr, rtSystem_armed h₀ hp hlim.1 hlim.2 hnr⟩, ?_⟩
  obtain ⟨hcons, hframe, -, haccount⟩ := schedRtPeriodTimer_spec (g := g) hinv.consistent overruns
  -- the timer covers what the group owes, so it is not throttled afterwards
  have hfree : ((s.rtRq g).refills overruns).rtThrottled = false := by
    rw [← hok.rtRuntime] at hR hlt hle
    exact RtRq.not_throttled_refills hR hlt fun hthr => ⟨hok.owing hcharged hthr, hle⟩
  -- of the groups above the task only this one changes
  intro p hon hothers
  refine ⟨?_, fun q hq => ?_⟩
  · have hon' := hframe.onRtRq_task hinv.consistent.queues hcons.queues p
    exact hon'.trans hon
  · rw [RtState.next, RtState.rtRqThrottled]
    have hthr : ((s.schedRtPeriodTimer g overruns).rtRq q).rtThrottled =
        if q = g then ((s.rtRq g).refills overruns).rtThrottled else (s.rtRq q).rtThrottled := by
      have ha := congrArg (·.2.1) (haccount q)
      split_ifs at ha ⊢ <;> exact ha
    have hgroup : (s.schedRtPeriodTimer g overruns).rtGroup p = s.rtGroup p :=
      congrFun hframe.rtGroup p
    rw [hthr]
    split_ifs with hqg
    · rw [hfree, Bool.false_and]
    · have hq' : q <:+ s.rtGroup p := hgroup ▸ hq
      rw [hothers q hq' hqg, Bool.false_and]

/-- Two periods let the root group go again. -/
theorem rtSystem_release_charged :
    (SmallRt.charged.next Small.cfg (.schedRtPeriodTimer [] [2])).Eligible Small.taskA := by
  have hlim : SmallRt.charged.Limited [] := ⟨by decide +kernel, by decide +kernel⟩
  refine (rtSystem_release SmallRt.init_boot SmallRt.path_limited hlim (by decide +kernel)
    (by decide +kernel) (by decide +kernel) (by decide +kernel) (by decide +kernel)).2 Small.taskA
    (by decide +kernel) fun q hq hne => ?_
  have hroot : SmallRt.charged.rtGroup Small.taskA = [] := rfl
  rw [hroot, List.suffix_nil] at hq
  exact absurd hq hne

end WrrSched
