import WrrSched.Model.System

/-!
# What the operations do to one task

The functions of the model that store fields of a task, as functions on `TaskStruct`, each with an
equation that says which fields it may change.

- `TaskStruct.enqueued`, `TaskStruct.requeued`: queueing recomputes weight and slice of a WRR task;
- `TaskStruct.wake`, `TaskStruct.start`, `TaskStruct.deactivate`: waking up and going to sleep;
- `TaskStruct.setUserNice_cases`: what a nice value does to the priorities;
- `TaskStruct.schedFork_eq`, `TaskStruct.setscheduler_eq`: what a fork and a change of policy keep.
-/

namespace WrrSched

/-- The largest weight, `MAX_RT_PRIO - 1`. -/
def maxWeight : ℕ := 99

/-- A group gives a weight between 1 and the largest one. -/
theorem TaskGroup.weight_bounds (tg : TaskGroup) :
    1 ≤ tg.weight.toNat ∧ tg.weight.toNat ≤ maxWeight := by
  unfold weight
  split <;> decide

namespace TaskStruct

variable (cfg : Config)

/-- A task as it is after `enqueue_task`. -/
def enqueued (group : TaskGroupPtr → TaskGroup) (t : TaskStruct) : TaskStruct :=
  if t.schedClass = .wrr then t.enqueueWrr cfg (group t.schedTaskGroup) else t

/-- A changed task as it is after it has been put back, if it was queued. -/
def requeued (group : TaskGroupPtr → TaskGroup) (onRq : Bool) (t : TaskStruct) : TaskStruct :=
  if onRq then t.enqueued cfg group else t

/-- The priority of an RT policy. -/
theorem calcNormalPrio_of_rt {t : TaskStruct} (h : t.hasRtPolicy = true) :
    t.calcNormalPrio = maxRtPrio - 1 - t.rtPriority :=
  if_pos h

/-- The priority of another policy. -/
theorem calcNormalPrio_of_not_rt {t : TaskStruct} (h : t.hasRtPolicy = false) :
    t.calcNormalPrio = t.staticPrio :=
  if_neg (by simp [h])

/-- The normal priority depends on policy, RT priority and nice value. -/
theorem calcNormalPrio_congr {t t' : TaskStruct} (hpolicy : t'.policy = t.policy)
    (hrt : t'.rtPriority = t.rtPriority) (hstatic : t'.staticPrio = t.staticPrio) :
    t'.calcNormalPrio = t.calcNormalPrio := by
  unfold calcNormalPrio hasRtPolicy
  rw [hpolicy, hrt, hstatic]

/-- `effective_prio` changes the two priorities only. -/
theorem effectivePrio_eq (t : TaskStruct) :
    t.effectivePrio =
      { t with normalPrio := t.calcNormalPrio, prio := t.effectivePrio.prio } := by
  unfold effectivePrio
  dsimp only
  split <;> rfl

/-- Queueing changes nothing but the weight and the slice. -/
theorem enqueued_eq (group : TaskGroupPtr → TaskGroup) (t : TaskStruct) :
    t.enqueued cfg group = { t with wrr := (t.enqueued cfg group).wrr } := by
  unfold enqueued
  split <;> rfl

/-- Requeueing a task changes its WRR entity only. -/
theorem requeued_eq (group : TaskGroupPtr → TaskGroup) (onRq : Bool) (t : TaskStruct) :
    t.requeued cfg group onRq = { t with wrr := (t.requeued cfg group onRq).wrr } := by
  unfold requeued
  split
  · exact t.enqueued_eq cfg group
  · rfl

/-- An enqueue neither gives nor takes a custom weight. -/
@[simp] theorem enqueued_customWeight (group : TaskGroupPtr → TaskGroup) (t : TaskStruct) :
    (t.enqueued cfg group).wrr.customWeight = t.wrr.customWeight := by
  unfold enqueued
  split <;> rfl

/-- Neither does a requeue. -/
@[simp] theorem requeued_customWeight (group : TaskGroupPtr → TaskGroup) (onRq : Bool)
    (t : TaskStruct) : (t.requeued cfg group onRq).wrr.customWeight = t.wrr.customWeight := by
  unfold requeued
  split
  · exact t.enqueued_customWeight cfg group
  · rfl

/-- A custom weight survives every queueing. -/
theorem enqueued_weight_of_custom {t : TaskStruct} (group : TaskGroupPtr → TaskGroup)
    (h : t.wrr.customWeight = true) : (t.enqueued cfg group).wrr.weight = t.wrr.weight := by
  unfold enqueued
  split
  · simp [enqueueWrr, h]
  · rfl

/-- The weights a queued task can have are its own and those of its group. -/
theorem enqueued_weight (group : TaskGroupPtr → TaskGroup) (t : TaskStruct) :
    (t.enqueued cfg group).wrr.weight =
      if t.schedClass = .wrr ∧ t.wrr.customWeight = false then
        (group t.schedTaskGroup).weight
      else t.wrr.weight := by
  unfold enqueued enqueueWrr
  cases hc : t.wrr.customWeight <;> by_cases hw : t.schedClass = .wrr <;> simp [hc, hw]

/-- The weight stays within its bound at an enqueue of the WRR class. -/
theorem enqueueWrr_weight_le (tg : TaskGroup) {t : TaskStruct}
    (h : t.wrr.weight.toNat ≤ maxWeight) : (t.enqueueWrr cfg tg).wrr.weight.toNat ≤ maxWeight := by
  unfold enqueueWrr
  dsimp only
  split
  · exact h
  · exact tg.weight_bounds.2

/-- So it does at an enqueue of any class. -/
theorem enqueued_weight_le (group : TaskGroupPtr → TaskGroup) {t : TaskStruct}
    (h : t.wrr.weight.toNat ≤ maxWeight) :
    (t.enqueued cfg group).wrr.weight.toNat ≤ maxWeight := by
  rw [enqueued_weight]
  split
  · exact (TaskGroup.weight_bounds _).2
  · exact h

/-- So it does when the task is requeued. -/
theorem requeued_weight_le (group : TaskGroupPtr → TaskGroup) (onRq : Bool) {t : TaskStruct}
    (h : t.wrr.weight.toNat ≤ maxWeight) :
    (t.requeued cfg group onRq).wrr.weight.toNat ≤ maxWeight := by
  unfold requeued
  split
  · exact enqueued_weight_le cfg group h
  · exact h

/-- A task as `wrr_set_weight` leaves it; `fg` is what `wrr_if_fg` returns. -/
def wrrSetGroupWeight (fg : Bool) (t : TaskStruct) : TaskStruct :=
  if t.wrr.customWeight then t
  else { t with wrr := { t.wrr with weight := if fg then wrrFgWeight else wrrBgWeight } }

@[inherit_doc wrrSetGroupWeight]
def wrrSetWeight (fg : Bool) (t : TaskStruct) : TaskStruct :=
  let t := t.wrrSetGroupWeight fg
  if t.policy = .wrr then t.setTimeSlice (t.wrr.weight * cfg.wrrWeightUnit) else t

/-- The WRR entity is all it changes. -/
theorem wrrSetWeight_eq (fg : Bool) (t : TaskStruct) :
    t.wrrSetWeight cfg fg = { t with wrr := (t.wrrSetWeight cfg fg).wrr } := by
  unfold wrrSetWeight wrrSetGroupWeight
  dsimp only
  split_ifs <;> rfl

/-- It neither gives nor takes a custom weight. -/
theorem wrrSetWeight_customWeight (fg : Bool) (t : TaskStruct) :
    (t.wrrSetWeight cfg fg).wrr.customWeight = t.wrr.customWeight := by
  unfold wrrSetWeight wrrSetGroupWeight
  dsimp only
  split_ifs <;> rfl

/-- The weight of a new task is its custom one or one of the two group weights. -/
theorem wrrSetWeight_weight (fg : Bool) (t : TaskStruct) :
    (t.wrrSetWeight cfg fg).wrr.weight =
      if t.wrr.customWeight then t.wrr.weight else if fg then wrrFgWeight else wrrBgWeight := by
  unfold wrrSetWeight wrrSetGroupWeight
  cases t.wrr.customWeight <;> dsimp only <;> split_ifs <;> simp_all [setTimeSlice]

/-- The weight stays within its bound. -/
theorem wrrSetWeight_weight_le (fg : Bool) {t : TaskStruct} (h : t.wrr.weight.toNat ≤ maxWeight) :
    (t.wrrSetWeight cfg fg).wrr.weight.toNat ≤ maxWeight := by
  rw [wrrSetWeight_weight]
  split_ifs
  · exact h
  · decide
  · decide

/-- A task as `task_tick_wrr` leaves it. -/
def tickWrr (t : TaskStruct) : TaskStruct :=
  if t.wrr.timeSlice.toNat ≤ 1 then t.setTimeSlice (t.wrr.weight * cfg.wrrWeightUnit)
  else t.setTimeSlice (t.wrr.timeSlice - 1)

/-- The tick changes nothing but the slice. -/
theorem tickWrr_eq (t : TaskStruct) :
    t.tickWrr cfg =
      { t with wrr := { t.wrr with timeSlice := (t.tickWrr cfg).wrr.timeSlice } } := by
  unfold tickWrr
  split <;> rfl

/-- A task as `set_user_nice` leaves it. -/
def setUserNice (group : TaskGroupPtr → TaskGroup) (nice : ℤ) (t : TaskStruct) : TaskStruct :=
  if t.nice = nice ∨ nice < -20 ∨ nice > 19 then t
  else if t.hasRtPolicy then { t with staticPrio := niceToPrio nice }
  else TaskStruct.requeued cfg group t.onRq { t with staticPrio := niceToPrio nice }.effectivePrio

/-- A task as a wake-up for the given mask of states leaves it. -/
def wake (group : TaskGroupPtr → TaskGroup) (state : ℕ) (t : TaskStruct) : TaskStruct :=
  if t.state &&& state = 0 then t
  else if t.onRq then { t with state := taskRunning }
  else { t.enqueued cfg group with onRq := true, state := taskRunning }

/-- A task as `wake_up_new_task` leaves it. -/
def start (group : TaskGroupPtr → TaskGroup) (fg : Bool) (t : TaskStruct) : TaskStruct :=
  { (t.wrrSetWeight cfg fg).enqueued cfg group with onRq := true, started := true }

/-- A wake-up starts from the enqueued task. -/
theorem wake_eq (group : TaskGroupPtr → TaskGroup) (state : ℕ) (t : TaskStruct) :
    t.wake cfg group state =
      { t with
        state := (t.wake cfg group state).state
        onRq := (t.wake cfg group state).onRq
        wrr := (t.wake cfg group state).wrr } := by
  unfold wake
  split_ifs
  · rfl
  · rfl
  · rw [enqueued_eq]

/-- What `wake_up_new_task` changes. -/
theorem start_eq (group : TaskGroupPtr → TaskGroup) (fg : Bool) (t : TaskStruct) :
    t.start cfg group fg =
      { t with onRq := true, wrr := (t.start cfg group fg).wrr, started := true } := by
  unfold start
  rw [enqueued_eq, wrrSetWeight_eq]

/-- A nice value moves the priorities and, if the task is queued, the weight; never the class. -/
theorem setUserNice_eq (group : TaskGroupPtr → TaskGroup) (nice : ℤ) (t : TaskStruct) :
    t.setUserNice cfg group nice =
      { t with
        staticPrio := (t.setUserNice cfg group nice).staticPrio
        prio := (t.setUserNice cfg group nice).prio
        normalPrio := (t.setUserNice cfg group nice).normalPrio
        wrr := (t.setUserNice cfg group nice).wrr } := by
  unfold setUserNice
  split_ifs
  · rfl
  · rfl
  · rw [requeued_eq, effectivePrio_eq]

/-- `set_user_nice` leaves the task alone, or stores a nice value in range; for a task without an RT
policy that is also the normal priority, and the priority unless the task is boosted. -/
theorem setUserNice_cases (group : TaskGroupPtr → TaskGroup) (nice : ℤ) (t : TaskStruct) :
    t.setUserNice cfg group nice = t ∨
      (maxRtPrio ≤ niceToPrio nice ∧ niceToPrio nice ≤ maxPrio - 1) ∧
        (t.hasRtPolicy = true ∧
            t.setUserNice cfg group nice = { t with staticPrio := niceToPrio nice } ∨
          t.hasRtPolicy = false ∧
            t.setUserNice cfg group nice = TaskStruct.requeued cfg group t.onRq
              { t with
                staticPrio := niceToPrio nice
                normalPrio := niceToPrio nice
                prio := if rtPrio t.prio then t.prio else niceToPrio nice }) := by
  have hmax : maxRtPrio = 100 := rfl
  have hmax' : maxPrio = maxRtPrio + 40 := rfl
  by_cases hrange : t.nice = nice ∨ nice < -20 ∨ nice > 19
  · exact .inl (if_pos hrange)
  have hbounds : maxRtPrio ≤ niceToPrio nice ∧ niceToPrio nice ≤ maxPrio - 1 := by
    unfold niceToPrio
    omega
  refine .inr ⟨hbounds, ?_⟩
  unfold setUserNice
  rw [if_neg hrange]
  cases hrt : t.hasRtPolicy with
  | true => exact .inl ⟨rfl, rfl⟩
  | false =>
    have hcalc : ({ t with staticPrio := niceToPrio nice } : TaskStruct).calcNormalPrio =
        niceToPrio nice := calcNormalPrio_of_not_rt hrt
    refine .inr ⟨rfl, ?_⟩
    rw [if_neg Bool.false_ne_true]
    unfold effectivePrio
    rw [hcalc]
    dsimp only
    split_ifs <;> rfl

/-- A nice value that is in range is stored. -/
theorem setUserNice_nice (group : TaskGroupPtr → TaskGroup) (t : TaskStruct) {nice : ℤ}
    (h : -20 ≤ nice ∧ nice ≤ 19) : (t.setUserNice cfg group nice).nice = nice := by
  have hnice : prioToNice (niceToPrio nice) = nice := by
    unfold prioToNice niceToPrio
    omega
  unfold setUserNice
  split_ifs with hkeep
  · rcases hkeep with heq | hlt | hgt
    · exact heq
    · exact absurd h.1 (not_le.mpr hlt)
    · exact absurd h.2 (not_le.mpr hgt)
  · exact hnice
  · rw [requeued_eq, effectivePrio_eq]
    exact hnice

/-- The running task as the first half of `__schedule` leaves it. -/
def deactivate (env : Env) (t : TaskStruct) : TaskStruct :=
  if t.state ≠ taskRunning ∧ env.preemptActive = false then
    if env.signalPending then { t with state := taskRunning } else { t with onRq := false }
  else t

/-- What `deactivate_task` in `__schedule` changes. -/
theorem deactivate_eq (env : Env) (t : TaskStruct) :
    t.deactivate env =
      { t with state := (t.deactivate env).state, onRq := (t.deactivate env).onRq } := by
  unfold deactivate
  split_ifs <;> rfl

end TaskStruct

/-! ## Fields after `sched_fork` -/

section Fork

variable (current p : TaskStruct)

/-- The child before its class is chosen. -/
def TaskStruct.forked : TaskStruct :=
  revertOnFork { p with onRq := false, state := taskRunning, prio := current.normalPrio }

/-- What the flag to reset on fork changes in the child. -/
theorem TaskStruct.revertOnFork_eq :
    p.revertOnFork =
      { p with
        policy := p.revertOnFork.policy
        staticPrio := p.revertOnFork.staticPrio
        rtPriority := p.revertOnFork.rtPriority
        prio := p.revertOnFork.prio
        normalPrio := p.revertOnFork.normalPrio
        schedResetOnFork := p.revertOnFork.schedResetOnFork } := by
  unfold revertOnFork
  dsimp only
  split_ifs <;> rfl

/-- `sched_fork` chooses the class last; a child with an RT priority keeps the one it was copied
with. -/
theorem TaskStruct.schedFork_eq :
    current.schedFork p =
      { current.forked p with
        schedClass :=
          if rtPrio (current.forked p).prio then p.schedClass
          else if (current.forked p).policy = .wrr then .wrr else .fair } := by
  have hclass : (current.forked p).schedClass = p.schedClass := by
    rw [forked, revertOnFork_eq]
  unfold schedFork
  dsimp only
  rw [← forked, ← hclass]
  split_ifs <;> rfl

/-- A child is not queued. -/
theorem TaskStruct.schedFork_onRq : (current.schedFork p).onRq = false := by
  rw [schedFork_eq, forked, revertOnFork_eq]

/-- A child has not been started. -/
theorem TaskStruct.schedFork_started (h : p.started = false) :
    (current.schedFork p).started = false := by
  rw [schedFork_eq, forked, revertOnFork_eq]
  exact h

/-- Only RT policies are reverted. -/
theorem TaskStruct.schedFork_policy :
    (current.schedFork p).policy = p.policy ∨
      p.hasRtPolicy = true ∧ (current.schedFork p).policy = .normal := by
  rw [schedFork_eq]
  unfold forked revertOnFork
  dsimp only
  split_ifs with hreset hrt
  · exact .inr ⟨hrt, rfl⟩
  · exact .inl rfl
  · exact .inl rfl
  · exact .inl rfl

/-- The WRR entity is the copy that the child was created with. -/
theorem TaskStruct.schedFork_wrr : (current.schedFork p).wrr = p.wrr := by
  rw [schedFork_eq, forked, revertOnFork_eq]

/-- A child of a WRR task is a WRR task. -/
theorem TaskStruct.schedFork_policy_of_wrr {p : TaskStruct} (h : p.policy = .wrr) :
    (current.schedFork p).policy = .wrr := by
  rcases current.schedFork_policy p with hcopy | ⟨hrt, -⟩
  · exact hcopy.trans h
  · rw [hasRtPolicy, h] at hrt
    cases hrt

/-- Without a reset, the child has the normal priority of its parent: no boost is inherited. -/
theorem TaskStruct.forked_of_not_reset (h : p.schedResetOnFork = false) :
    current.forked p =
      { p with onRq := false, state := taskRunning, prio := current.normalPrio } := by
  unfold forked revertOnFork
  rw [if_neg (by simp [h])]

/-- The static priority a child that reverts to the defaults gets. -/
def TaskStruct.revertedStaticPrio : ℤ :=
  if p.hasRtPolicy = true ∨ p.nice < 0 then niceToPrio 0 else p.staticPrio

/-- With a reset, only an RT policy is reverted, and the nice value is not negative. -/
theorem TaskStruct.forked_of_reset (h : p.schedResetOnFork = true) :
    current.forked p =
      { p with
        onRq := false
        state := taskRunning
        policy := if p.hasRtPolicy then .normal else p.policy
        staticPrio := p.revertedStaticPrio
        rtPriority := if p.hasRtPolicy then 0 else p.rtPriority
        prio := p.revertedStaticPrio
        normalPrio := p.revertedStaticPrio
        schedResetOnFork := false } := by
  have hnice : prioToNice p.staticPrio = p.nice := rfl
  unfold forked revertOnFork revertedStaticPrio
  dsimp only
  rw [if_pos h]
  by_cases hrt : p.hasRtPolicy = true
  · rw [if_pos (by exact hrt), if_pos hrt, if_pos hrt, if_pos (.inl hrt)]
  · rw [if_neg (by exact hrt), if_neg hrt, if_neg hrt]
    by_cases hneg : p.nice < 0
    · rw [hnice, if_pos hneg, if_pos (.inr hneg)]
    · rw [hnice, if_neg hneg, if_neg (by simp [hrt, hneg])]

/-- A policy that has been reverted is not an RT policy. -/
theorem TaskStruct.revertedPolicy_not_rt :
    rtPolicy (if p.hasRtPolicy = true then .normal else p.policy) = false := by
  split
  · rfl
  · next hrt => exact eq_false_of_ne_true hrt

/-- The reverted static priority is a nice value of at least 0. -/
theorem TaskStruct.le_revertedStaticPrio : niceToPrio 0 ≤ p.revertedStaticPrio := by
  unfold revertedStaticPrio
  split_ifs with hreset
  · exact le_rfl
  · simp only [not_or, nice, prioToNice] at hreset
    unfold niceToPrio
    omega

/-- Nor is it above the range of nice values. -/
theorem TaskStruct.revertedStaticPrio_le {p : TaskStruct} (hle : p.staticPrio ≤ maxPrio - 1) :
    p.revertedStaticPrio ≤ maxPrio - 1 := by
  unfold revertedStaticPrio
  split_ifs
  · decide
  · exact hle

/-- It is not an RT priority. -/
theorem TaskStruct.maxRtPrio_le_revertedStaticPrio : maxRtPrio ≤ p.revertedStaticPrio :=
  le_trans (by decide) p.le_revertedStaticPrio

end Fork

/-! ## Fields after `__setscheduler` -/

section Setscheduler

variable (t : TaskStruct) (policy : Policy) (prio : ℤ) (topWaiter : Option ℤ)

/-- A priority gives one of three classes. -/
theorem TaskStruct.setClass_cases :
    (t.setClass prio).schedClass = .rt ∨ (t.setClass prio).schedClass = .wrr ∨
      (t.setClass prio).schedClass = .fair := by
  unfold setClass
  dsimp only
  split_ifs
  · exact .inl rfl
  · exact .inr (.inl rfl)
  · exact .inr (.inr rfl)

/-- Not the idle class. -/
theorem TaskStruct.setClass_ne_idle : (t.setClass prio).schedClass ≠ .idle := by
  rcases t.setClass_cases prio with h | h | h <;> simp [h]

/-- Nor the stop class. -/
theorem TaskStruct.setClass_ne_stop : (t.setClass prio).schedClass ≠ .stop := by
  rcases t.setClass_cases prio with h | h | h <;> simp [h]

/-- `__setscheduler` leaves the fields it does not mention. -/
theorem TaskStruct.setscheduler_eq :
    t.setscheduler policy prio topWaiter =
      { t with
        policy := (t.setscheduler policy prio topWaiter).policy
        rtPriority := (t.setscheduler policy prio topWaiter).rtPriority
        wrr := (t.setscheduler policy prio topWaiter).wrr
        normalPrio := (t.setscheduler policy prio topWaiter).normalPrio
        prio := (t.setscheduler policy prio topWaiter).prio
        schedClass := (t.setscheduler policy prio topWaiter).schedClass } := by
  unfold setscheduler setClass
  dsimp only
  split_ifs <;> rfl

/-- The WRR entity changes for the WRR policy only. -/
theorem TaskStruct.setscheduler_wrr :
    (t.setscheduler policy prio topWaiter).wrr =
      if policy ≠ .wrr then t.wrr
      else if prio ≠ 0 then
        { t.wrr with weight := UInt32.ofNat prio.toNat, customWeight := true }
      else { t.wrr with weight := 1, customWeight := false } := by
  unfold setscheduler setClass
  dsimp only
  split_ifs <;> rfl

/-- `__setscheduler` does not give the idle class. -/
theorem TaskStruct.setscheduler_class_ne_idle :
    (t.setscheduler policy prio topWaiter).schedClass ≠ .idle := by
  unfold setscheduler
  exact setClass_ne_idle _ _

/-- Nor the stop class. -/
theorem TaskStruct.setscheduler_class_ne_stop :
    (t.setscheduler policy prio topWaiter).schedClass ≠ .stop := by
  unfold setscheduler
  exact setClass_ne_stop _ _

/-- A priority in the range of the policy is a weight within its bound. -/
theorem TaskStruct.setscheduler_weight_le {t : TaskStruct} (hprio : prio ≤ maxRtPrio - 1)
    (h : t.wrr.weight.toNat ≤ maxWeight) :
    (t.setscheduler policy prio topWaiter).wrr.weight.toNat ≤ maxWeight := by
  rw [setscheduler_wrr]
  split_ifs
  · exact h
  · unfold maxRtPrio maxUserRtPrio at hprio
    unfold maxWeight
    rw [UInt32.toNat_ofNat', Nat.mod_eq_of_lt (by omega)]
    omega
  · exact (by decide : (1 : UInt32).toNat ≤ maxWeight)

/-- The policy is the one that was asked for. -/
theorem TaskStruct.setscheduler_policy :
    (t.setscheduler policy prio topWaiter).policy = policy := by
  unfold setscheduler setClass
  dsimp only
  split_ifs <;> rfl

/-- The parameter is the RT priority, except for WRR where it is the weight. -/
theorem TaskStruct.setscheduler_rtPriority :
    (t.setscheduler policy prio topWaiter).rtPriority = if policy ≠ .wrr then prio.toNat else 0 := by
  unfold setscheduler setClass
  dsimp only
  split_ifs <;> rfl

/-- A task stays queued, or not. -/
theorem TaskStruct.setscheduler_onRq :
    (t.setscheduler policy prio topWaiter).onRq = t.onRq := by
  unfold setscheduler setClass
  dsimp only
  split_ifs <;> rfl

end Setscheduler

end WrrSched
