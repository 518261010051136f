import WrrSched.Correctness.Order
import WrrSched.Correctness.Params
import WrrSched.Model.Query

/-!
# The reported interval and the next slice

`sched_rr_get_interval` reports the weight that is stored, while `enqueue_wrr_entity` computes the
weight anew. `__setscheduler` stores the weight 1 for a task without a custom weight and leaves it to
the next queueing to store that of the group, and `sched_move_task` leaves the weight of a sleeping
task alone.

- `State.next_sliceStep`: how an operation comes by the slice of a task;
- `untilSlice`: the runs in which a task keeps its group and its parameters and gets no slice;
- `interval_eq_next_slice_iff`: when the report is right.
-/

namespace WrrSched

/-! ## Operations that give a slice -/

/-- One of the events inserts `p`. -/
def QueueEvent.Inserts (es : List (QueueEvent TaskPtr)) (p : TaskPtr) : Prop :=
  ∃ head, .insert p head ∈ es

namespace State

/-- The operation calls `enqueue_wrr_entity` for `p`. Tick and yield requeue a task without. -/
def Enqueues (s : State) (op : Op) (env : Env) (p : TaskPtr) : Prop :=
  match op with
  | .schedulerTick => False
  | .schedYield => QueueEvent.Inserts (s.classYieldTask.scheduleQueueEvents env) p
  | op => QueueEvent.Inserts (s.queueEvents op env) p

/-- The operation is a tick in which `task_tick_wrr` refills the slice of `p`. -/
def Refills (s : State) (op : Op) (p : TaskPtr) : Prop :=
  op = .schedulerTick ∧ s.curr = p ∧ (s.task p).schedClass = .wrr ∧
    (s.task p).wrr.timeSlice.toNat ≤ 1

end State

/-- A task as `enqueue_wrr_entity` leaves it. -/
structure Fresh (cfg : Config) (group : TaskGroupPtr → TaskGroup) (t : TaskStruct) : Prop where
  timeSlice : t.wrr.timeSlice = t.wrr.weight * cfg.wrrWeightUnit
  weight : t.wrr.customWeight = false → t.wrr.weight = (group t.schedTaskGroup).weight

/-- An operation, which may or may not enqueue the task, makes `t'` of `t`. -/
structure SliceStep (cfg : Config) (group : TaskGroupPtr → TaskGroup) (enqueues : Prop)
    (t t' : TaskStruct) : Prop where
  fresh : enqueues → Fresh cfg group t'
  keeps : ¬enqueues → t'.onRq = true → t'.schedClass = .wrr →
    t.onRq = true ∧ t.schedClass = .wrr ∧ t'.wrr.weight = t.wrr.weight

namespace SliceStep

variable {cfg : Config} {group : TaskGroupPtr → TaskGroup} {t t' : TaskStruct} {enqueues : Prop}

/-- A step that does not enqueue the task and keeps its weight. -/
theorem of_weight (henq : ¬enqueues) (hon : t'.onRq = true → t.onRq = true)
    (hclass : t'.schedClass = .wrr → t.schedClass = .wrr)
    (hweight : t'.wrr.weight = t.wrr.weight) : SliceStep cfg group enqueues t t' where
  fresh h := absurd h henq
  keeps _ hon' hclass' := ⟨hon hon', hclass hclass', hweight⟩

/-- Nothing happens. -/
theorem refl (henq : ¬enqueues) : SliceStep cfg group enqueues t t :=
  .of_weight henq id id rfl

/-- An enqueue gives a WRR task a fresh slice. -/
theorem fresh_enqueued (hclass : t.schedClass = .wrr) : Fresh cfg group (t.enqueued cfg group) := by
  refine ⟨?_, fun hcustom => ?_⟩
  · rw [TaskStruct.enqueued, if_pos hclass]
    rfl
  · rw [TaskStruct.enqueued_customWeight] at hcustom
    rw [TaskStruct.enqueued_weight, if_pos ⟨hclass, hcustom⟩, TaskStruct.enqueued_eq]

/-- A wake-up enqueues a task that is off its queue. -/
theorem wake (state : ℕ) (henq : enqueues ↔ ¬(t.state &&& state = 0 ∨ t.onRq = true) ∧
    t.schedClass = .wrr) : SliceStep cfg group enqueues t (t.wake cfg group state) := by
  unfold TaskStruct.wake
  split_ifs with hstate hon
  · exact refl fun h => (henq.mp h).1 (.inl hstate)
  · exact of_weight (fun h => (henq.mp h).1 (.inr hon)) id id rfl
  · have hoff : ¬(t.state &&& state = 0 ∨ t.onRq = true) := by simp [hstate, hon]
    refine ⟨fun h => ?_, fun h _ hclass => ?_⟩
    · have hfresh : Fresh cfg group (t.enqueued cfg group) := fresh_enqueued (henq.mp h).2
      exact ⟨hfresh.timeSlice, hfresh.weight⟩
    · replace hclass : (t.enqueued cfg group).schedClass = .wrr := hclass
      rw [TaskStruct.enqueued_eq] at hclass
      exact absurd (henq.mpr ⟨hoff, hclass⟩) h

/-- A change of a queued task enqueues it in its new class. -/
theorem requeued {change : TaskStruct → TaskStruct} (hon : (change t).onRq = t.onRq)
    (henq : enqueues ↔ t.onRq = true ∧ (change t).schedClass = .wrr) :
    SliceStep cfg group enqueues t ((change t).requeued cfg group t.onRq) := by
  refine ⟨fun h => ?_, fun h hon' hclass' => ?_⟩
  · obtain ⟨hq, hclass⟩ := henq.mp h
    rw [TaskStruct.requeued, if_pos hq]
    exact fresh_enqueued hclass
  · rw [TaskStruct.requeued_eq] at hon' hclass'
    exact absurd (henq.mpr ⟨hon.symm.trans hon', hclass'⟩) h

end SliceStep

namespace State

variable {cfg : Config} {rule : Rule} {env : Env} {s : State} {p q : TaskPtr}

/-- Without events nothing is inserted. -/
theorem not_inserts_nil : ¬QueueEvent.Inserts [] p := by
  rintro ⟨head, h⟩
  cases h

/-- Only WRR tasks are inserted. -/
theorem inserts_insertion {c : SchedClass} {head : Bool} :
    QueueEvent.Inserts (insertion c q head) p ↔ c = .wrr ∧ p = q := by
  unfold insertion
  split
  · next hc => simp [QueueEvent.Inserts, hc]
  · next hc => simp [QueueEvent.Inserts, hc]

/-- A removal inserts nothing. -/
theorem inserts_removal_append {c : SchedClass} {es : List (QueueEvent TaskPtr)} :
    QueueEvent.Inserts (removal c q ++ es) p ↔ QueueEvent.Inserts es p := by
  unfold removal
  split <;> simp [QueueEvent.Inserts]

/-- A queued task that is a WRR task after the change. -/
theorem inserts_changeQueueEvents {head : Bool} {change : TaskStruct → TaskStruct} :
    QueueEvent.Inserts (s.changeQueueEvents q head change) p ↔
      ((s.task q).onRq = true ∧ (change (s.task q)).schedClass = .wrr) ∧ p = q := by
  unfold changeQueueEvents
  split
  · next hon => rw [inserts_removal_append, inserts_insertion, and_iff_right hon]
  · next hon => simp [not_inserts_nil, hon]

/-- A WRR task that wakes up. -/
theorem inserts_wakeQueueEvents {state : ℕ} :
    QueueEvent.Inserts (s.wakeQueueEvents q state) p ↔
      (¬((s.task q).state &&& state = 0 ∨ (s.task q).onRq = true) ∧
        (s.task q).schedClass = .wrr) ∧ p = q := by
  unfold wakeQueueEvents
  split
  · next h => simp [not_inserts_nil, h]
  · next h => rw [inserts_insertion, and_iff_right h]

/-- A change of one task concerns no other one. -/
theorem sliceStep_of_update {s' : State} {t : TaskStruct} {enqueues : Prop}
    (htask : s'.task = Function.update s.task q t) (hne : p ≠ q → ¬enqueues)
    (hstep : p = q → SliceStep cfg s.group enqueues (s.task q) t) :
    SliceStep cfg s.group enqueues (s.task p) (s'.task p) := by
  rw [htask]
  by_cases hp : p = q
  · rw [hp, Function.update_self]
    exact hstep hp
  · rw [Function.update_of_ne hp]
    exact .refl (hne hp)

/-- `changeQueued`, in whatever operation. -/
theorem sliceStep_of_change {s' : State} (change : TaskStruct → TaskStruct) {head : Bool}
    {enqueues : Prop}
    (henq : enqueues ↔ QueueEvent.Inserts (s.changeQueueEvents q head change) p)
    (htask : s'.task =
      Function.update s.task q ((change (s.task q)).requeued cfg s.group (s.task q).onRq))
    (hon : (change (s.task q)).onRq = (s.task q).onRq) :
    SliceStep cfg s.group enqueues (s.task p) (s'.task p) := by
  rw [inserts_changeQueueEvents] at henq
  refine sliceStep_of_update htask (fun hne h => hne (henq.mp h).2) fun hp => ?_
  exact .requeued hon (henq.trans (and_iff_left hp))

/-- The slice of a task when it wakes up, or another one does. -/
theorem sliceStep_of_wake {s' : State} {state : ℕ} {enqueues : Prop}
    (henq : enqueues ↔ QueueEvent.Inserts (s.wakeQueueEvents q state) p)
    (htask : s'.task = Function.update s.task q ((s.task q).wake cfg s.group state)) :
    SliceStep cfg s.group enqueues (s.task p) (s'.task p) := by
  rw [inserts_wakeQueueEvents] at henq
  refine sliceStep_of_update htask (fun hne h => hne (henq.mp h).2) fun hp => ?_
  exact .wake state (henq.trans (and_iff_left hp))

/-- A worker of the WRR class that wakes up for the task that sleeps. -/
theorem inserts_scheduleQueueEvents :
    QueueEvent.Inserts (s.scheduleQueueEvents env) p ↔
      (s.sleeps env = true ∧ env.toWakeup = some p) ∧ p ≠ s.curr ∧
        QueueEvent.Inserts (s.wakeQueueEvents p taskNormal) p := by
  unfold scheduleQueueEvents
  cases s.sleeps env with
  | false => simp [not_inserts_nil]
  | true =>
    rw [if_pos rfl, inserts_removal_append]
    cases env.toWakeup with
    | none => simp [not_inserts_nil]
    | some w =>
      by_cases hw : w = p
      · by_cases hcurr : p = s.curr <;> simp [hw, hcurr, not_inserts_nil]
      · have hnot : ¬QueueEvent.Inserts (s.wakeQueueEvents w taskNormal) p := by
          rw [inserts_wakeQueueEvents]
          exact fun h => hw h.2.symm
        by_cases hcurr : w = s.curr
        · have hne : s.curr ≠ p := fun h => hw (hcurr.trans h)
          simp [hcurr, hne, not_inserts_nil]
        · simp [hw, hcurr, hnot]

variable (cfg env) in
/-- `__schedule` gives a slice to a worker that wakes up only. -/
theorem schedule_sliceStep (s : State) (p : TaskPtr) :
    SliceStep cfg s.group (QueueEvent.Inserts (s.scheduleQueueEvents env) p) (s.task p)
      ((s.schedule cfg env).task p) := by
  rw [(s.schedule_spec cfg env).1, inserts_scheduleQueueEvents]
  by_cases hcurr : p = s.curr
  · rw [hcurr, deactivatePrev_task_curr]
    refine .of_weight (fun h => h.2.1 rfl) ?_ ?_ ?_
    · unfold TaskStruct.deactivate
      split_ifs
      · exact id
      · exact False.elim
      · exact id
    · rw [TaskStruct.deactivate_eq]
      exact id
    · rw [TaskStruct.deactivate_eq]
  · rw [deactivatePrev_task_of_ne cfg env s hcurr]
    split
    · next hwake =>
      rw [inserts_wakeQueueEvents]
      exact .wake taskNormal (by simp [hwake, hcurr])
    · next hwake => exact .refl fun h => hwake h.1

variable (cfg env) in
/-- `__sched_setscheduler` gives a slice to a queued target that is a WRR task then. -/
theorem schedSetscheduler_sliceStep (s : State) (q : TaskPtr) (policy prio : ℤ) (user : Bool)
    (c : Caller) (topWaiter : Option ℤ) (p : TaskPtr) :
    SliceStep cfg s.group
      (QueueEvent.Inserts (s.setschedulerQueueEvents q policy prio user c topWaiter) p) (s.task p)
      ((s.schedSetscheduler cfg env q policy prio user c topWaiter).1.task p) := by
  unfold setschedulerQueueEvents
  split
  · next hreq =>
    rw [schedSetscheduler_of_no_request cfg env topWaiter hreq]
    exact .refl not_inserts_nil
  · next req hreq =>
    rw [schedSetscheduler_of_request cfg env topWaiter hreq]
    refine sliceStep_of_change
      (fun t => TaskStruct.setscheduler { t with schedResetOnFork := req.resetOnFork } req.policy
        prio topWaiter) Iff.rfl (s.setschedulerCommit_task cfg env q req prio topWaiter) ?_
    exact TaskStruct.setscheduler_onRq _ _ _ topWaiter

/-- A task that is not queued is not queued by a change of its policy. -/
theorem not_inserts_setschedulerQueueEvents {policy prio : ℤ} {user : Bool} {c : Caller}
    {topWaiter : Option ℤ} (hoff : (s.task q).onRq = false) :
    ¬QueueEvent.Inserts (s.setschedulerQueueEvents q policy prio user c topWaiter) p := by
  unfold setschedulerQueueEvents
  split
  · exact not_inserts_nil
  · rw [inserts_changeQueueEvents, hoff]
    simp

/-- How the operations come by the slices of the tasks. -/
theorem next_sliceStep {op : Op} (hen : s.Enabled rule op env) (hp : p ∈ s.live) :
    SliceStep cfg s.group (s.Enqueues op env p) (s.task p) ((s.next cfg op env).task p) := by
  obtain ⟨-, hop⟩ := hen
  cases op with
  | schedFork child mm =>
    have hne : p ≠ child := by
      rintro rfl
      exact hop.1 hp
    show SliceStep cfg s.group _ _ (Function.update s.task child _ p)
    rw [Function.update_of_ne hne]
    exact .refl not_inserts_nil
  | wakeUpNewTask q =>
    have henq : s.Enqueues (.wakeUpNewTask q) env p ↔ (s.task q).schedClass = .wrr ∧ p = q :=
      inserts_insertion
    refine sliceStep_of_update (s.wakeUpNewTask_task cfg env q) (fun hne h => hne (henq.mp h).2)
      fun hpq => ⟨fun h => ?_, fun h _ hclass => ?_⟩
    · -- the weight of the new task is set again when it is queued
      have hfresh : Fresh cfg s.group
          (((s.task q).wrrSetWeight cfg (s.wrrIfFg q).1).enqueued cfg s.group) := by
        apply SliceStep.fresh_enqueued
        rw [TaskStruct.wrrSetWeight_eq]
        exact (henq.mp h).1
      exact ⟨hfresh.timeSlice, hfresh.weight⟩
    · rw [TaskStruct.start_eq] at hclass
      exact absurd (henq.mpr ⟨hclass, hpq⟩) h
  | setCurrentState state =>
    refine sliceStep_of_update (s.modifyTask_task s.curr fun t => { t with state := state })
      (fun _ => not_inserts_nil) fun _ => ?_
    exact .of_weight not_inserts_nil id id rfl
  | schedule => exact s.schedule_sliceStep cfg env p
  | schedulerTick =>
    have hweight : ((s.task s.curr).tickWrr cfg).wrr.weight = (s.task s.curr).wrr.weight := by
      rw [TaskStruct.tickWrr_eq]
    have htick := s.schedulerTick_task cfg env
    split at htick
    · refine sliceStep_of_update htick (fun _ h => h) fun _ => ?_
      refine .of_weight id ?_ ?_ hweight
      · rw [TaskStruct.tickWrr_eq]
        exact id
      · rw [TaskStruct.tickWrr_eq]
        exact id
    · rw [State.next, htick]
      exact .refl id
  | schedYield =>
    have hyield := s.classYieldTask_frame
    have hschedule := s.classYieldTask.schedule_sliceStep cfg env p
    rw [s.classYieldTask_task, hyield.group] at hschedule
    exact hschedule
  | tryToWakeUp q state => exact sliceStep_of_wake Iff.rfl (s.tryToWakeUp_task cfg env q state)
  | rtMutexSetprio q prio =>
    have hq : q ≠ s.idle := hop.1.2
    have henq : s.Enqueues (.rtMutexSetprio q prio) env p ↔ QueueEvent.Inserts
        (s.changeQueueEvents q (decide ((s.task q).prio < prio)) (·.boost prio)) p := by
      show QueueEvent.Inserts (s.queueEvents (.rtMutexSetprio q prio) env) p ↔ _
      rw [queueEvents, if_neg hq]
    exact sliceStep_of_change (·.boost prio) henq (s.rtMutexSetprio_task cfg env hq prio) rfl
  | setUserNice q nice =>
    have htask := s.setUserNice_task cfg env q nice
    unfold Enqueues queueEvents
    unfold TaskStruct.setUserNice at htask
    dsimp only at htask ⊢
    split_ifs at htask ⊢
    · rw [Function.update_eq_self] at htask
      rw [State.next, htask]
      exact .refl not_inserts_nil
    · refine sliceStep_of_update htask (fun _ => not_inserts_nil) fun _ => ?_
      exact .of_weight not_inserts_nil id id rfl
    · refine sliceStep_of_change
        (fun t => TaskStruct.effectivePrio { t with staticPrio := niceToPrio nice }) Iff.rfl htask ?_
      rw [TaskStruct.effectivePrio_eq]
  | schedSetscheduler q policy prio user c topWaiter =>
    exact s.schedSetscheduler_sliceStep cfg env q policy prio user c topWaiter p
  | schedMoveTask q tg =>
    exact sliceStep_of_change (fun t => { t with schedTaskGroup := tg }) Iff.rfl
      (s.schedMoveTask_task cfg env q tg) rfl
  | schedSetStopTask stop c topWaiter =>
    -- the stop tasks are off the queue
    have hoff {r : TaskPtr} (hr : stop = some r) : (s.task r).onRq = false := (hop.1 r hr).2.2.1
    have henq : ¬s.Enqueues (.schedSetStopTask stop c topWaiter) env p := by
      cases stop with
      | none => exact not_inserts_nil
      | some r => exact not_inserts_setschedulerQueueEvents (hoff rfl)
    obtain ⟨-, -, -, -, -, -, hon, hother, -⟩ := s.schedSetStopTask_spec cfg env stop c topWaiter
    by_cases hstop : stop = some p ∨ s.stop = some p
    · have hoff' : (s.task p).onRq = false := hstop.elim hoff (hop.2 p)
      refine ⟨fun h => absurd h henq, fun _ hon' => ?_⟩
      rw [State.next, hon, hoff'] at hon'
      cases hon'
    · rw [not_or] at hstop
      rw [State.next, hother p hstop.1 hstop.2]
      exact .refl henq
  | initIdleBootupTask =>
    refine sliceStep_of_update (s.modifyTask_task s.idle fun t => { t with schedClass := .idle })
      (fun _ => not_inserts_nil) fun _ => ?_
    exact .of_weight not_inserts_nil id (fun h => by cases h) rfl
  | setGroupPath tg group => exact .refl not_inserts_nil
  | reschedTask => exact .refl not_inserts_nil

end State

/-! ## From the report to the next slice -/

/-- `p` has in `s'` the policy, the group with its path, and the custom weight it has in `s`. -/
structure SameParams (p : TaskPtr) (s s' : State) : Prop where
  policy : (s'.task p).policy = (s.task p).policy
  schedTaskGroup : (s'.task p).schedTaskGroup = (s.task p).schedTaskGroup
  group : s'.group (s.task p).schedTaskGroup = s.group (s.task p).schedTaskGroup
  customWeight : (s'.task p).wrr.customWeight = (s.task p).wrr.customWeight
  weight : (s.task p).wrr.customWeight = true → (s'.task p).wrr.weight = (s.task p).wrr.weight

/-- The runs from `s` on in which group and parameters of `p` stay and `p` gets no slice. -/
def untilSlice (cfg : Config) (rule : Rule) (s : State) (p : TaskPtr) :
    TransitionSystem State (Op × Env) where
  init x := x = s
  enabled x i := x.Enabled rule i.1 i.2 ∧ SameParams p s (x.next cfg i.1 i.2) ∧
    ¬(x.Enqueues i.1 i.2 p ∨ x.Refills i.1 p)
  next x i := x.next cfg i.1 i.2

section NextSlice

variable {cfg : Config} {rule : Rule} {s x : State} {p : TaskPtr} {op : Op} {env : Env}

/-- While `p` is in the WRR queue in such a run, its weight stays. -/
theorem untilSlice_weight (hs : (system cfg rule).Reachable s) (hp : p ∈ s.live)
    (hx : (untilSlice cfg rule s p).Reachable x) :
    (system cfg rule).Reachable x ∧ p ∈ x.live ∧ SameParams p s x ∧
      ((x.task p).onRq = true → (x.task p).schedClass = .wrr →
        (x.task p).wrr.weight = (s.task p).wrr.weight) := by
  refine hx.invariant (I := fun x => (system cfg rule).Reachable x ∧ p ∈ x.live ∧
    SameParams p s x ∧ ((x.task p).onRq = true → (x.task p).schedClass = .wrr →
      (x.task p).wrr.weight = (s.task p).wrr.weight)) ?_ ?_
  · rintro x rfl
    exact ⟨hs, hp, ⟨rfl, rfl, rfl, rfl, fun _ => rfl⟩, fun _ _ => rfl⟩
  rintro x ⟨op, env⟩ ⟨hx, hxp, -, hweight⟩ ⟨hen, hsame, hslice⟩
  refine ⟨reachable_next hx hen, ?_, hsame, fun hon hclass => ?_⟩
  · show p ∈ (x.next cfg op env).live
    rw [(x.next_fixed cfg op env).2.2]
    split
    · exact Finset.mem_insert_of_mem hxp
    · exact hxp
  · obtain ⟨hon', hclass', hkeeps⟩ :=
      (State.next_sliceStep hen hxp).keeps (fun h => hslice (.inl h)) hon hclass
    exact hkeeps.trans (hweight hon' hclass')

/-- A refill is by the weight that was reported. -/
theorem State.Refills.timeSlice (hx : (untilSlice cfg rule s p).Reachable x)
    (hs : (system cfg rule).Reachable s) (hp : p ∈ s.live) (h : x.Refills op p) :
    ((x.next cfg op env).task p).wrr.timeSlice = (s.task p).wrr.weight * cfg.wrrWeightUnit := by
  obtain ⟨rfl, rfl, hclass, hslice⟩ := h
  obtain ⟨hreach, -, -, hweight⟩ := untilSlice_weight hs hp hx
  have hinv := reachable_inv hreach
  have hne : x.curr ≠ x.idle := fun heq => hinv.idle_class (heq ▸ hclass)
  rw [State.next, State.schedulerTick_task, if_pos hclass, Function.update_self,
    TaskStruct.tickWrr, if_pos hslice, ← hweight (hinv.onRq_of_ne hne) hclass]
  rfl

/-- `enqueue_wrr_entity` fills the slice by the custom weight or by that of the group. -/
theorem State.Enqueues.timeSlice (hx : (untilSlice cfg rule s p).Reachable x)
    (hs : (system cfg rule).Reachable s) (hp : p ∈ s.live) (hen : x.Enabled rule op env)
    (hsame : SameParams p s (x.next cfg op env)) (h : x.Enqueues op env p) :
    ((x.next cfg op env).task p).wrr.timeSlice =
      (if (s.task p).wrr.customWeight then (s.task p).wrr.weight
        else (s.group (s.task p).schedTaskGroup).weight) * cfg.wrrWeightUnit := by
  obtain ⟨-, hxp, hparams, -⟩ := untilSlice_weight hs hp hx
  have hfresh : Fresh cfg x.group ((x.next cfg op env).task p) :=
    (State.next_sliceStep hen hxp).fresh h
  rw [hfresh.timeSlice]
  congr 1
  cases hcustom : (s.task p).wrr.customWeight with
  | true => exact hsame.weight hcustom
  | false =>
    rw [hfresh.weight (hsame.customWeight.trans hcustom), hsame.schedTaskGroup, hparams.group]
    rfl

/-- The interval that is reported for a WRR task that is not boosted is the slice it gets next, while
its group and its parameters stay, exactly if that is a refill, or the task has a custom weight, or
the weight stored for it is the weight of its group. -/
theorem interval_eq_next_slice_iff (hcfg : cfg.Fits) (hs : (system cfg rule).Reachable s)
    (hp : p ∈ s.live) (hpolicy : (s.task p).policy = .wrr)
    (hprio : (s.task p).prio = (s.task p).normalPrio)
    (hx : (untilSlice cfg rule s p).Reachable x) (hen : x.Enabled rule op env)
    (hsame : SameParams p s (x.next cfg op env)) (hslice : x.Enqueues op env p ∨ x.Refills op p)
    (other : UInt32) :
    (s.task p).schedRrGetInterval cfg 0 other = .ok ((x.next cfg op env).task p).wrr.timeSlice ↔
      x.Refills op p ∨ (s.task p).wrr.customWeight = true ∨
        (s.task p).wrr.weight = (s.group (s.task p).schedTaskGroup).weight := by
  have hclass := ((reachable_params hs hp).wrr_class hpolicy hprio).2
  have hreport : (s.task p).schedRrGetInterval cfg 0 other =
      .ok ((s.task p).wrr.weight * cfg.wrrWeightUnit) := by
    rw [TaskStruct.schedRrGetInterval, if_neg (by simp), TaskStruct.getRrInterval, hclass]
    rfl
  have hidle : p ≠ s.idle := by
    rintro rfl
    exact (reachable_inv hs).idle_class hclass
  rw [hreport, Except.ok.injEq]
  rcases hslice with henq | hrefill
  · rw [henq.timeSlice hx hs hp hen hsame]
    cases hcustom : (s.task p).wrr.customWeight with
    | true => simp
    | false =>
      have hnot : ¬x.Refills op p := by
        rintro ⟨rfl, -⟩
        exact henq
      simp only [hnot, false_or, Bool.false_eq_true, if_false]
      refine ⟨fun heq => ?_, fun heq => by rw [heq]⟩
      -- different weights have different slices
      have hle := ((reachable_inv hs).task p hp hidle).weight_le
      have hle' := (s.group (s.task p).schedTaskGroup).weight_bounds.2
      have hmul := congrArg UInt32.toNat heq
      rw [hcfg.toNat_mul hle, hcfg.toNat_mul hle'] at hmul
      exact UInt32.toNat_inj.mp (Nat.eq_of_mul_eq_mul_right hcfg.one_le hmul)
  · simp [hrefill.timeSlice hx hs hp, hrefill]

end NextSlice

namespace Small

/-- Task A has run and gone to sleep. -/
def asleepA : State :=
  (((start [taskA]).next cfg .schedule (env [taskA] 0)).next cfg (.setCurrentState 1)
    (env [] 0)).next cfg .schedule (env [] 0)

/-- Task A is started, picked and put to sleep. -/
theorem asleepA_reachable : (system cfg .pi).Reachable asleepA := by
  have hs : (system cfg .pi).Reachable (start [taskA]) :=
    (reachable_start .pi [taskA] (by decide)).1
  have hrun : (system cfg .pi).Reachable ((start [taskA]).next cfg .schedule (env [taskA] 0)) :=
    reachable_next hs ⟨no_worker _ _ _, trivial⟩
  have hstate : ((start [taskA]).next cfg .schedule (env [taskA] 0)).Enabled .pi
      (.setCurrentState 1) (env [] 0) := ⟨no_worker _ _ _, by decide +kernel⟩
  exact reachable_next (reachable_next hrun hstate) ⟨no_worker _ _ _, trivial⟩

/-- Task A has become WRR in its sleep, with the given parameter. -/
theorem wrrAsleepA_reachable (w : ℤ) : (system cfg .pi).Reachable (setWrr asleepA taskA w) :=
  reachable_setWrr asleepA_reachable ⟨by decide +kernel, by decide +kernel⟩ (fun _ => rfl) w

end Small

/-- Task A sleeps and has the custom weight 5. -/
theorem interval_eq_next_slice_custom :
    ((Small.setWrr Small.asleepA Small.taskA 5).task Small.taskA).schedRrGetInterval Small.cfg 0 0 =
      .ok (((Small.setWrr Small.asleepA Small.taskA 5).next Small.cfg (.tryToWakeUp Small.taskA 1)
        (Small.env [] 0)).task Small.taskA).wrr.timeSlice := by
  have hx : (untilSlice Small.cfg .pi (Small.setWrr Small.asleepA Small.taskA 5)
      Small.taskA).Reachable (Small.setWrr Small.asleepA Small.taskA 5) := .init rfl
  have hen : (Small.setWrr Small.asleepA Small.taskA 5).Enabled .pi (.tryToWakeUp Small.taskA 1)
      (Small.env [] 0) := ⟨Small.no_worker _ _ _, by decide +kernel, by decide +kernel⟩
  have hsame : SameParams Small.taskA (Small.setWrr Small.asleepA Small.taskA 5)
      ((Small.setWrr Small.asleepA Small.taskA 5).next Small.cfg (.tryToWakeUp Small.taskA 1)
        (Small.env [] 0)) :=
    ⟨by decide +kernel, by decide +kernel, rfl, by decide +kernel, fun _ => by decide +kernel⟩
  have henq : (Small.setWrr Small.asleepA Small.taskA 5).Enqueues (.tryToWakeUp Small.taskA 1)
      (Small.env [] 0) Small.taskA :=
    State.inserts_wakeQueueEvents.mpr ⟨⟨by decide +kernel, by decide +kernel⟩, rfl⟩
  exact (interval_eq_next_slice_iff ⟨by decide, by decide⟩ (Small.wrrAsleepA_reachable 5)
    (by decide +kernel) (by decide +kernel) (by decide +kernel) hx hen hsame (.inl henq) 0).mpr
    (.inr (.inl (by decide +kernel)))

/-- A sleeping task of a foreground group becomes WRR without a weight of its own: one unit is
reported, and ten units are what it gets. -/
theorem interval_ne_next_slice :
    ¬∀ s, (system Small.cfg .pi).Reachable s → ∀ p ∈ s.live, (s.task p).policy = .wrr →
      (s.task p).prio = (s.task p).normalPrio → ∀ op env, s.Enabled .pi op env →
        SameParams p s (s.next Small.cfg op env) → s.Enqueues op env p →
          ((s.next Small.cfg op env).task p).wrr.timeSlice =
            (s.task p).getRrIntervalWrr Small.cfg := by
  intro hall
  have hen : (Small.setWrr Small.asleepA Small.taskA 0).Enabled .pi (.tryToWakeUp Small.taskA 1)
      (Small.env [] 0) := ⟨Small.no_worker _ _ _, by decide +kernel, by decide +kernel⟩
  have hcustom : ((Small.setWrr Small.asleepA Small.taskA 0).task Small.taskA).wrr.customWeight ≠
      true := by decide +kernel
  have hsame : SameParams Small.taskA (Small.setWrr Small.asleepA Small.taskA 0)
      ((Small.setWrr Small.asleepA Small.taskA 0).next Small.cfg (.tryToWakeUp Small.taskA 1)
        (Small.env [] 0)) :=
    ⟨by decide +kernel, by decide +kernel, rfl, by decide +kernel, fun h => absurd h hcustom⟩
  have henq : (Small.setWrr Small.asleepA Small.taskA 0).Enqueues (.tryToWakeUp Small.taskA 1)
      (Small.env [] 0) Small.taskA :=
    State.inserts_wakeQueueEvents.mpr ⟨⟨by decide +kernel, by decide +kernel⟩, rfl⟩
  have h := hall _ (Small.wrrAsleepA_reachable 0) Small.taskA (by decide +kernel)
    (by decide +kernel) (by decide +kernel) _ _ hen hsame henq
  revert h
  decide +kernel

end WrrSched
