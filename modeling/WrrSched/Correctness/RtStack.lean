import WrrSched.Correctness.RtQueue

/-!
# The stack of RT entities

`enqueue_rt_entity` and `dequeue_rt_entity` take an entity and all its parents off from the top
down, and put those that have something to run back from the bottom up. In between every run queue
is in order, and the entities of the stack are off; at the end a group is queued exactly when it has
something to run and is not throttled, whatever the queues of the stack looked like before.

- `Linked`: a group is queued exactly when it has something to run;
- `Lowered.dequeueParents`: the way up the stack;
- `Down.enqueueParents`: the way down;
- `Consistent.enqueueTask`, `Consistent.dequeueTask`, `Lowered.enqueueGroup`: the two functions on
  tasks, and the first one on groups.
-/

namespace WrrSched

/-- `rt_task_of`, for the entity of a task. -/
def rtTaskOf : RtEntity → Option TaskPtr
  | .task p => some p
  | .group _ _ => none

section FilterTasks

variable {l : List RtEntity} {p : TaskPtr} {tg : TaskGroupPtr} {parent : RtGroup}

theorem filterMap_erase_group :
    (l.erase (.group tg parent)).filterMap rtTaskOf = l.filterMap rtTaskOf := by
  induction l with
  | nil => rfl
  | cons x l ih =>
    by_cases hx : x = .group tg parent
    · subst hx
      rw [List.erase_cons_head, List.filterMap_cons_none rfl]
    · rw [List.erase_cons_tail (by simpa using hx), List.filterMap_cons, List.filterMap_cons, ih]

theorem filterMap_erase_task :
    (l.erase (.task p)).filterMap rtTaskOf = (l.filterMap rtTaskOf).erase p := by
  induction l with
  | nil => rfl
  | cons x l ih =>
    cases x with
    | group tg parent =>
      rw [List.erase_cons_tail (by simp), List.filterMap_cons, List.filterMap_cons]
      exact ih
    | task q =>
      by_cases hq : q = p
      · subst hq
        simp [rtTaskOf]
      · rw [List.erase_cons_tail (by simpa using hq)]
        simp [rtTaskOf, ih, List.erase_cons_tail, hq]

theorem mem_filterMap_rtTaskOf : p ∈ l.filterMap rtTaskOf ↔ .task p ∈ l := by
  rw [List.mem_filterMap]
  constructor
  · rintro ⟨x, hx, hp⟩
    cases x with
    | task q => simpa [← Option.some.inj hp] using hx
    | group tg parent => simp [rtTaskOf] at hp
  · exact fun h => ⟨_, h, rfl⟩

end FilterTasks

namespace RtState

variable {s s' : RtState} {g q G : RtGroup} {e x : RtEntity} {p : TaskPtr} {head : Bool}

/-! ## The tasks in the queues -/

/-- The tasks of priority `i` on the run queue of `g`, in order. -/
def taskQueue (s : RtState) (g : RtGroup) (i : ℤ) : List TaskPtr :=
  ((s.rtRq g).active.queue i).filterMap rtTaskOf

theorem mem_taskQueue {i : ℤ} : p ∈ s.taskQueue g i ↔ .task p ∈ (s.rtRq g).active.queue i :=
  mem_filterMap_rtTaskOf

/-- A queued task is in the queue of its group and its priority, and in no other. -/
theorem QueuesOk.mem_taskQueue_iff (h : s.QueuesOk) {i : ℤ} :
    p ∈ s.taskQueue g i ↔
      s.onRtRq (.task p) = true ∧ s.rtGroup p = g ∧ (s.core.task p).prio = i := by
  rw [mem_taskQueue]
  constructor
  · intro hp
    exact ⟨(h.rq g).onRtRq_of_mem hp, (h.rq g).home i _ hp, (h.rq g).ok.wf.prio_eq i _ hp⟩
  · rintro ⟨hon, rfl, rfl⟩
    exact (h.rq _).ok.wf.onList_iff.mp hon

/-- The timer of a group that has something to run and a limited runtime is active. -/
def Armed (s : RtState) (g : RtGroup) : Prop :=
  s.rtBandwidthEnabled = true → (s.rtBandwidth g).rtRuntime ≠ runtimeInf →
    (s.rtRq g).rtNrRunning ≠ 0 → (s.rtBandwidth g).timerActive = true

/-- Queueing of groups leaves the tasks where they are and starts the timers it has to start. -/
structure StackFrame (s s' : RtState) : Prop where
  frame : QueueFrame s s'
  taskQueue : ∀ q i, s'.taskQueue q i = s.taskQueue q i
  armed : ∀ q, s.Armed q → s'.Armed q

theorem StackFrame.refl (s : RtState) : StackFrame s s :=
  ⟨.refl s, fun _ _ => rfl, fun _ h => h⟩

theorem StackFrame.trans {s'' : RtState} (h : StackFrame s s') (h' : StackFrame s' s'') :
    StackFrame s s'' :=
  ⟨h.frame.trans h'.frame, fun q i => (h'.taskQueue q i).trans (h.taskQueue q i),
    fun q hq => h'.armed q (h.armed q hq)⟩

theorem rtBandwidthEnabled_congr (h : s'.sysctlSchedRtRuntime = s.sysctlSchedRtRuntime) :
    s'.rtBandwidthEnabled = s.rtBandwidthEnabled := by
  rw [rtBandwidthEnabled, rtBandwidthEnabled, h]

/-- Taking an entity off disarms no timer. -/
theorem armed_dequeueOne (h : s.RqOk (s.rtRqOfSe e)) (hon : s.onRtRq e = true) (hq : s.Armed q) :
    (s.dequeueRtEntityOne e).Armed q := by
  have hf := QueueFrame.dequeueOne h hon
  intro hen hrt hnr
  rw [rtBandwidthEnabled_congr hf.sysctlSchedRtRuntime] at hen
  rw [hf.bandwidthRuntime] at hrt
  refine hf.timerActive q (hq hen hrt ?_)
  rw [rtRq_dequeueRtEntityOne h hon] at hnr
  by_cases hqe : q = s.rtRqOfSe e
  · subst hqe
    exact (h.ok.nr_pos hon).ne'
  · rwa [Function.update_of_ne hqe] at hnr

/-- Putting an entity on starts the timer. -/
theorem armed_enqueueOne (h : s.RqOk (s.rtRqOfSe e)) (hidle : s.groupIdle e = false)
    (h0 : 0 ≤ s.rtSePrio e) (hN : s.rtSePrio e < maxRtPrio) (hq : s.Armed q) :
    (s.enqueueRtEntityOne e head).Armed q := by
  have hf := QueueFrame.enqueueOne h hidle h0 hN head
  intro hen hrt hnr
  by_cases hqe : q = s.rtRqOfSe e
  · subst hqe
    have hen' := hen
    rw [rtBandwidthEnabled_congr hf.sysctlSchedRtRuntime] at hen'
    rw [hf.bandwidthRuntime] at hrt
    rw [enqueueRtEntityOne_eq h hidle h0 hN, startRtBandwidth, if_neg]
    · simp
    · have hleaf := QueueFrame.listAddLeafRtRq s (s.rtRqOfSe e)
      have hmod := QueueFrame.modifyRtRq (s.listAddLeafRtRq (s.rtRqOfSe e)) (s.rtRqOfSe e)
        (f := fun rq => rq.inserted s.rtSePrio s.rtSeBoosted e head)
        fun _ => ⟨rfl, rfl, rfl, rfl, rfl⟩
      have hpre := hleaf.trans hmod
      rw [rtBandwidthEnabled_congr hpre.sysctlSchedRtRuntime, hpre.bandwidthRuntime, hen']
      simpa using hrt
  · rw [rtBandwidthEnabled_congr hf.sysctlSchedRtRuntime] at hen
    rw [hf.bandwidthRuntime] at hrt
    rw [rtRq_enqueueRtEntityOne h hidle h0 hN, Function.update_of_ne hqe] at hnr
    exact hf.timerActive q (hq hen hrt hnr)

/-- Groups come and go; the tasks stay. -/
theorem StackFrame.dequeueOne {tg : TaskGroupPtr} {parent : RtGroup} (h : s.RqOk parent)
    (hon : s.onRtRq (.group tg parent) = true) :
    StackFrame s (s.dequeueRtEntityOne (.group tg parent)) where
  frame := .dequeueOne h hon
  taskQueue q i := by
    rw [RtState.taskQueue, RtState.taskQueue, rtRq_dequeueRtEntityOne h hon]
    by_cases hq : q = parent
    · subst hq
      simp [RtRq.removed, PrioArray.remove, rtRqOfSe, filterMap_erase_group]
    · simp [rtRqOfSe, hq]
  armed _ hq := armed_dequeueOne h hon hq

theorem StackFrame.enqueueOne {tg : TaskGroupPtr} {parent : RtGroup} (h : s.RqOk parent)
    (hidle : s.groupIdle (.group tg parent) = false) (h0 : 0 ≤ s.rtSePrio (.group tg parent))
    (hN : s.rtSePrio (.group tg parent) < maxRtPrio) (head : Bool) :
    StackFrame s (s.enqueueRtEntityOne (.group tg parent) head) where
  frame := .enqueueOne h hidle h0 hN head
  taskQueue q i := by
    rw [RtState.taskQueue, RtState.taskQueue, rtRq_enqueueRtEntityOne h hidle h0 hN]
    by_cases hq : q = parent
    · subst hq
      by_cases hi : i = s.rtSePrio (.group tg q)
      · subst hi
        cases head <;> simp [RtRq.inserted, PrioArray.insert, rtRqOfSe, rtTaskOf, List.filterMap_cons]
      · simp [RtRq.inserted, PrioArray.insert, rtRqOfSe, hi]
    · simp [rtRqOfSe, hq]
  armed _ hq := armed_enqueueOne h hidle h0 hN hq

/-! ## Taking the stack off -/

/-- The group is queued exactly when it has something to run and is not throttled. -/
def Linked (s : RtState) : RtGroup → Prop
  | [] => True
  | tg :: parent =>
    s.onRtRq (.group tg parent) = true ↔ s.groupIdle (.group tg parent) = false

/-- Every run queue is in order and every group linked. -/
structure Consistent (s : RtState) : Prop where
  queues : s.QueuesOk
  linked : ∀ q, s.Linked q

/-- Every run queue is in order, and every group linked but `G` and its parents. -/
structure Lowered (s : RtState) (G : RtGroup) : Prop where
  queues : s.QueuesOk
  linked : ∀ q, ¬ q <:+ G → s.Linked q

/-- Moreover `G` and its parents are off. -/
structure Down (s : RtState) (G : RtGroup) : Prop extends s.Lowered G where
  hidden : ∀ q, q <:+ G → s.Hidden q

theorem Consistent.lowered (h : s.Consistent) (G : RtGroup) : s.Lowered G :=
  ⟨h.queues, fun q _ => h.linked q⟩

theorem SameBut.groupIdle (h : SameBut g s s') (he : groupRtRq e ≠ some g) :
    s'.groupIdle e = s.groupIdle e := by
  cases e with
  | task p => rfl
  | group tg parent =>
    have hne : tg :: parent ≠ g := fun hg => he (congrArg some hg)
    simp only [RtState.groupIdle, groupRtRq, h.rtRqThrottled hne, h.rtRq _ hne]

/-- A group stays linked while neither its run queue nor its entity is touched. -/
theorem Linked.frame (h : s.Linked q) (hs : SameBut g s s') (hq : q ≠ g)
    (hon : ∀ e, groupRtRq e = some q → s'.onRtRq e = s.onRtRq e) : s'.Linked q := by
  cases q with
  | nil => trivial
  | cons tg parent =>
    have hne : groupRtRq (.group tg parent) ≠ some g := fun heq => hq (Option.some.inj heq)
    rw [Linked, hon _ rfl, hs.groupIdle hne]
    exact h

/-- Going up one more level. -/
theorem Lowered.dequeueIfOn {tg : TaskGroupPtr} {parent : RtGroup} (h : s.Lowered G)
    (hsuf : tg :: parent <:+ G) (hhid : ∀ q, q <:+ parent → s.Hidden q) :
    let s' := s.dequeueIfOnRtRq (.group tg parent)
    s'.Lowered G ∧ (∀ q, q <:+ tg :: parent → s'.Hidden q) ∧ StackFrame s s' ∧
      ∀ q, q ≠ parent → s'.rtRq q = s.rtRq q := by
  intro s'
  have hpar : parent <:+ G := (List.suffix_cons tg parent).trans hsuf
  by_cases hon : s.onRtRq (.group tg parent) = true
  · have hs' : s' = s.dequeueRtEntityOne (.group tg parent) := if_pos hon
    have hok := h.queues.rq parent
    have hs : SameBut parent s s' := hs' ▸ SameBut.dequeueOne hok hon
    have hoff : ∀ x, s'.onRtRq x = (decide (x ≠ .group tg parent) && s.onRtRq x) := by
      intro x
      rw [hs']
      exact onRtRq_dequeueRtEntityOne hok hon
    have hqueues : s'.QueuesOk := hs' ▸ h.queues.dequeueOne (hhid parent List.suffix_rfl) hon
    refine ⟨⟨hqueues, fun q hq => ?_⟩, fun q hq x hx => ?_, hs' ▸ .dequeueOne hok hon, hs.rtRq⟩
    · -- groups outside the stack are on other run queues, or they stay
      refine (h.linked q hq).frame hs (fun heq => hq (heq ▸ hpar)) fun x hx => ?_
      have hne : x ≠ .group tg parent := by
        rintro rfl
        exact hq (Option.some.inj hx ▸ hsuf)
      simp [hoff, hne]
    · rw [hoff]
      obtain rfl | hq := List.suffix_cons_iff.mp hq
      · simp [groupRtRq_eq_some_iff.mp hx]
      · rw [hhid q hq x hx, Bool.and_false]
  · -- it was off already
    have hs' : s' = s := if_neg hon
    rw [hs']
    refine ⟨h, fun q hq => ?_, .refl s, fun _ _ => rfl⟩
    obtain rfl | hq := List.suffix_cons_iff.mp hq
    · exact hidden_cons_iff.mpr (Bool.not_eq_true _ ▸ hon)
    · exact hhid q hq

/-- The loop of `dequeue_rt_stack` over a group and its parents. -/
theorem Lowered.dequeueParents (h : s.Lowered G) (hg : g <:+ G) :
    let s' := (rtSeParents g).reverse.foldl dequeueIfOnRtRq s
    s'.Lowered G ∧ (∀ q, q <:+ g → s'.Hidden q) ∧ StackFrame s s' ∧
      ∀ q, ¬ q <:+ g → s'.rtRq q = s.rtRq q := by
  induction g with
  | nil =>
    refine ⟨h, fun q hq => ?_, .refl s, fun _ _ => rfl⟩
    rw [List.suffix_nil.mp hq]
    exact hidden_root s
  | cons tg parent ih =>
    obtain ⟨hlow, hhid, hframe, hrq⟩ := ih ((List.suffix_cons tg parent).trans hg)
    obtain ⟨hlow', hhid', hframe', hrq'⟩ := hlow.dequeueIfOn hg hhid
    simp only [rtSeParents, List.reverse_cons, List.foldl_append, List.foldl_cons, List.foldl_nil]
    refine ⟨hlow', hhid', hframe.trans hframe', fun q hq => ?_⟩
    have hqp : ¬ q <:+ parent := fun hp => hq (hp.trans (List.suffix_cons tg parent))
    rw [hrq' q fun heq => hqp (heq ▸ List.suffix_rfl), hrq q hqp]

/-! ## Putting the stack back -/

/-- A group that is not empty has an RT priority. -/
theorem QueuesOk.prio_group {tg : TaskGroupPtr} {parent : RtGroup} (h : s.QueuesOk)
    (hidle : s.groupIdle (.group tg parent) = false) :
    0 ≤ s.rtSePrio (.group tg parent) ∧ s.rtSePrio (.group tg parent) < maxRtPrio := by
  have hok := (h.rq (tg :: parent)).ok
  have hnr : (s.rtRq (tg :: parent)).rtNrRunning ≠ 0 := by
    simp only [groupIdle, groupRtRq, Bool.or_eq_false_iff, decide_eq_false_iff_not] at hidle
    exact hidle.2
  rw [rtSePrio, hok.highest]
  exact ⟨hok.wf.findFirstBit_spec.1, hok.wf.findFirstBit_lt_iff.mpr (hok.nr_ne_zero_iff.mp hnr)⟩

/-- Going down one level. -/
theorem Down.enqueueOne {tg : TaskGroupPtr} {parent : RtGroup} (h : s.Down (tg :: parent))
    (head : Bool) :
    let s' := s.enqueueRtEntityOne (.group tg parent) head
    s'.Down parent ∧ StackFrame s s' ∧ ∀ q, q ≠ parent → s'.rtRq q = s.rtRq q := by
  intro s'
  have hself : s.onRtRq (.group tg parent) = false := hidden_cons_iff.mp (h.hidden _ List.suffix_rfl)
  -- outside `parent` there are the groups outside `tg :: parent` and that group itself
  have hsplit : ∀ q, ¬ q <:+ parent → q = tg :: parent ∨ ¬ q <:+ tg :: parent := by
    intro q hq
    by_cases hq' : q = tg :: parent
    · exact .inl hq'
    · exact .inr fun hsuf => (List.suffix_cons_iff.mp hsuf).elim hq' hq
  have hup : ∀ {q : RtGroup}, q <:+ parent → q <:+ tg :: parent :=
    fun hq => hq.trans (List.suffix_cons tg parent)
  by_cases hidle : s.groupIdle (.group tg parent) = true
  · have hs' : s' = s := by simp [s', enqueueRtEntityOne, hidle]
    rw [hs']
    refine ⟨⟨⟨h.queues, fun q hq => ?_⟩, fun q hq => h.hidden q (hup hq)⟩, .refl s,
      fun _ _ => rfl⟩
    obtain rfl | hq := hsplit q hq
    · simp [Linked, hself, hidle]
    · exact h.linked q hq
  · rw [Bool.not_eq_true] at hidle
    obtain ⟨h0, hN⟩ := h.queues.prio_group hidle
    have hok := h.queues.rq parent
    have hs : SameBut parent s s' := SameBut.enqueueOne hok hidle h0 hN head
    have hon : ∀ x, s'.onRtRq x = (decide (x = .group tg parent) || s.onRtRq x) :=
      fun x => onRtRq_enqueueRtEntityOne hok hidle h0 hN head
    have hqueues : s'.QueuesOk :=
      h.queues.enqueueOne (e := .group tg parent) (h.hidden parent (List.suffix_cons tg parent))
        hself hidle h0 hN head
    refine ⟨⟨⟨hqueues, fun q hq => ?_⟩, fun q hq x hx => ?_⟩, .enqueueOne hok hidle h0 hN head,
      hs.rtRq⟩
    · obtain rfl | hq' := hsplit q hq
      · have hne : groupRtRq (.group tg parent) ≠ some parent := by simp [groupRtRq]
        simp [Linked, hon, hs.groupIdle hne, hidle]
      · refine (h.linked q hq').frame hs (fun heq => hq (heq ▸ List.suffix_rfl)) fun x hx => ?_
        have hne : x ≠ .group tg parent := by
          rintro rfl
          exact hq' (Option.some.inj hx ▸ List.suffix_rfl)
        simp [hon, hne]
    · have hne : x ≠ .group tg parent := by
        rintro rfl
        have hlen := (Option.some.inj hx ▸ hq).length_le
        simp at hlen
      rw [hon, h.hidden q (hup hq) x hx]
      simp [hne]

/-- The loop of `enqueue_rt_entity` over a group and its parents. -/
theorem Down.enqueueParents (h : s.Down g) (head : Bool) :
    let s' := (rtSeParents g).foldl (fun s e => s.enqueueRtEntityOne e head) s
    s'.Consistent ∧ StackFrame s s' ∧ ∀ q, ¬ q <:+ g → s'.rtRq q = s.rtRq q := by
  induction g generalizing s with
  | nil =>
    refine ⟨⟨h.queues, fun q => ?_⟩, .refl s, fun _ _ => rfl⟩
    cases q with
    | nil => trivial
    | cons tg parent => exact h.linked _ (by simp)
  | cons tg parent ih =>
    obtain ⟨hdown, hframe, hrq⟩ := h.enqueueOne head
    obtain ⟨hcons, hframe', hrq'⟩ := ih hdown
    refine ⟨hcons, hframe.trans hframe', fun q hq => ?_⟩
    have hqp : ¬ q <:+ parent := fun hp => hq (hp.trans (List.suffix_cons tg parent))
    exact (hrq' q hqp).trans (hrq q fun heq => hqp (heq ▸ List.suffix_rfl))

/-! ## Groups -/

theorem forEachSchedRtEntity_group (s : RtState) (tg : TaskGroupPtr) (parent : RtGroup) :
    s.forEachSchedRtEntity (.group tg parent) = rtSeParents (tg :: parent) := rfl

/-- The loop of `dequeue_rt_entity` puts back what that of `enqueue_rt_entity` would. -/
theorem enqueueIfRunning_group (s : RtState) (tg : TaskGroupPtr) (parent : RtGroup) :
    s.enqueueIfRunning (.group tg parent) = s.enqueueRtEntityOne (.group tg parent) false := by
  simp only [enqueueIfRunning, groupRtRq]
  split_ifs with hnr
  · rfl
  · simp [enqueueRtEntityOne, groupIdle, groupRtRq, not_not.mp hnr]

theorem foldl_enqueueIfRunning (g : RtGroup) (s : RtState) :
    (rtSeParents g).foldl enqueueIfRunning s =
      (rtSeParents g).foldl (fun s e => s.enqueueRtEntityOne e false) s := by
  induction g generalizing s with
  | nil => rfl
  | cons tg parent ih =>
    rw [rtSeParents, List.foldl_cons, List.foldl_cons, ih, enqueueIfRunning_group]

/-- `enqueue_rt_entity` of a group links it, whatever has been done to its run queue. -/
theorem Lowered.enqueueGroup {tg : TaskGroupPtr} {parent : RtGroup} (h : s.Lowered (tg :: parent))
    (head : Bool) :
    let s' := s.enqueueRtEntity (.group tg parent) head
    s'.Consistent ∧ StackFrame s s' ∧ ∀ q, ¬ q <:+ tg :: parent → s'.rtRq q = s.rtRq q := by
  obtain ⟨hlow, hhid, hframe, hrq⟩ := h.dequeueParents List.suffix_rfl
  obtain ⟨hcons, hframe', hrq'⟩ := Down.enqueueParents ⟨hlow, hhid⟩ head
  exact ⟨hcons, hframe.trans hframe', fun q hq => (hrq' q hq).trans (hrq q hq)⟩

/-- `dequeue_rt_entity` of a group does the same: it stays off when it is throttled. -/
theorem dequeueRtEntity_group (s : RtState) (tg : TaskGroupPtr) (parent : RtGroup) :
    s.dequeueRtEntity (.group tg parent) = s.enqueueRtEntity (.group tg parent) false := by
  rw [dequeueRtEntity, enqueueRtEntity, forEachSchedRtEntity_group, foldl_enqueueIfRunning]

/-! ## Tasks -/

theorem dequeueRtStack_task (s : RtState) (p : TaskPtr) :
    s.dequeueRtStack (.task p) =
      ((rtSeParents (s.rtGroup p)).reverse.foldl dequeueIfOnRtRq s).dequeueIfOnRtRq (.task p) := by
  simp [dequeueRtStack, forEachSchedRtEntity, rtRqOfSe]

theorem StackFrame.onRtRq_task (h : StackFrame s s') (hq : s.QueuesOk) (hq' : s'.QueuesOk)
    (p : TaskPtr) : s'.onRtRq (.task p) = s.onRtRq (.task p) := by
  have hmem := h.taskQueue (s.rtGroup p) (s.core.task p).prio
  have hiff : s'.onRtRq (.task p) = true ↔ s.onRtRq (.task p) = true := by
    have hp := hq.mem_taskQueue_iff (p := p) (g := s.rtGroup p) (i := (s.core.task p).prio)
    have hp' := hq'.mem_taskQueue_iff (p := p) (g := s.rtGroup p) (i := (s.core.task p).prio)
    rw [hmem, hp, h.frame.rtGroup, h.frame.core] at hp'
    simpa using hp'.symm
  exact Bool.eq_iff_iff.mpr hiff

/-- A task on a run queue whose group is off. -/
theorem Down.of_task (h : s.Down g) (hs : SameBut g s s') (hqueues : s'.QueuesOk)
    (hon : ∀ e q, groupRtRq e = some q → s'.onRtRq e = s.onRtRq e) : s'.Down g where
  queues := hqueues
  linked q hq :=
    (h.linked q hq).frame hs (fun heq => hq (heq ▸ List.suffix_rfl)) fun e he => hon e q he
  hidden q hq e he := by
    rw [hon e q he]
    exact h.hidden q hq e he

/-- What `enqueue_rt_entity` does with a task: it is added to the queue of its priority, and all
other tasks stay where they are. -/
theorem Consistent.enqueueTask (h : s.Consistent) (hoff : s.onRtRq (.task p) = false)
    (h0 : 0 ≤ (s.core.task p).prio) (hN : (s.core.task p).prio < maxRtPrio) (head : Bool) :
    let s' := s.enqueueRtEntity (.task p) head
    s'.Consistent ∧ QueueFrame s s' ∧ (∀ q, s.Armed q → s'.Armed q) ∧
      (∀ q, ¬ q <:+ s.rtGroup p → s'.rtRq q = s.rtRq q) ∧
      ∀ q i, s'.taskQueue q i =
        if q = s.rtGroup p ∧ i = (s.core.task p).prio then
          if head then p :: s.taskQueue q i else s.taskQueue q i ++ [p]
        else s.taskQueue q i := by
  intro s'
  obtain ⟨hlow, hhid, hframe, hrq⟩ :=
    (h.lowered (s.rtGroup p)).dequeueParents List.suffix_rfl
  set t := (rtSeParents (s.rtGroup p)).reverse.foldl dequeueIfOnRtRq s
  have hgroup : t.rtRqOfSe (.task p) = s.rtGroup p := hframe.frame.rtRqOfSe (.task p)
  have hprio : t.rtSePrio (.task p) = (s.core.task p).prio := by
    rw [rtSePrio, hframe.frame.core]
  have hofft : t.onRtRq (.task p) = false := by
    rw [hframe.onRtRq_task h.queues hlow.queues, hoff]
  have hstack : s.dequeueRtStack (.task p) = t := by
    rw [dequeueRtStack_task, dequeueIfOnRtRq, hofft]
    rfl
  -- the task itself
  have hok := hlow.queues.rq (t.rtRqOfSe (.task p))
  have h0t : 0 ≤ t.rtSePrio (.task p) := hprio ▸ h0
  have hNt : t.rtSePrio (.task p) < maxRtPrio := hprio ▸ hN
  set u := t.enqueueRtEntityOne (.task p) head with hu
  have hsame : SameBut (s.rtGroup p) t u := hgroup ▸ SameBut.enqueueOne hok rfl h0t hNt head
  have hframeu : QueueFrame t u := .enqueueOne hok rfl h0t hNt head
  have hdown : t.Down (s.rtGroup p) := ⟨hlow, hhid⟩
  have hqueues : u.QueuesOk :=
    hlow.queues.enqueueOne (hgroup ▸ hhid _ List.suffix_rfl) hofft rfl h0t hNt head
  have hdownu : u.Down (s.rtGroup p) := by
    refine hdown.of_task hsame hqueues fun e q he => ?_
    have hne : e ≠ .task p := by
      rintro rfl
      simp [groupRtRq] at he
    rw [hu, onRtRq_enqueueRtEntityOne hok rfl h0t hNt head]
    simp [hne]
  obtain ⟨hcons, hframe', hrq'⟩ := hdownu.enqueueParents head
  have hs' : s' = (rtSeParents (s.rtGroup p)).foldl (fun s e => s.enqueueRtEntityOne e head) u := by
    simp only [s', enqueueRtEntity, forEachSchedRtEntity, rtRqOfSe, List.foldl_cons, hstack, hu]
  rw [hs']
  refine ⟨hcons, (hframe.frame.trans hframeu).trans hframe'.frame, fun q hq => ?_, fun q hq => ?_,
    fun q i => ?_⟩
  · exact hframe'.armed q (armed_enqueueOne hok rfl h0t hNt (hframe.armed q hq))
  · rw [hrq' q hq, hsame.rtRq q fun heq => hq (heq ▸ List.suffix_rfl), hrq q hq]
  · rw [hframe'.taskQueue, ← hframe.taskQueue, taskQueue, taskQueue, hu,
      rtRq_enqueueRtEntityOne hok rfl h0t hNt, hgroup]
    by_cases hq : q = s.rtGroup p
    · subst hq
      by_cases hi : i = (s.core.task p).prio
      · subst hi
        cases head <;> simp [RtRq.inserted, PrioArray.insert, hprio, rtTaskOf]
      · simp [RtRq.inserted, PrioArray.insert, hprio, hi]
    · simp [hq]

/-- What `dequeue_rt_entity` does with a queued task: it is taken out of its queue, and all other
tasks stay where they are. -/
theorem Consistent.dequeueTask (h : s.Consistent) (hon : s.onRtRq (.task p) = true) :
    let s' := s.dequeueRtEntity (.task p)
    s'.Consistent ∧ QueueFrame s s' ∧ (∀ q, s.Armed q → s'.Armed q) ∧
      (∀ q, ¬ q <:+ s.rtGroup p → s'.rtRq q = s.rtRq q) ∧
      ∀ q i, s'.taskQueue q i = listDelInit p (s.taskQueue q i) := by
  intro s'
  -- the groups above the task are taken off from the top down
  obtain ⟨hlow, hhid, hframe, hrq⟩ :=
    (h.lowered (s.rtGroup p)).dequeueParents List.suffix_rfl
  set t := (rtSeParents (s.rtGroup p)).reverse.foldl dequeueIfOnRtRq s
  have hgroup : t.rtRqOfSe (.task p) = s.rtGroup p := hframe.frame.rtRqOfSe (.task p)
  have hont : t.onRtRq (.task p) = true := by
    rw [hframe.onRtRq_task h.queues hlow.queues, hon]
  -- then the task itself
  set u := t.dequeueRtEntityOne (.task p) with hu
  have hstack : s.dequeueRtStack (.task p) = u := by
    rw [dequeueRtStack_task, dequeueIfOnRtRq, hont]
    rfl
  have hok := hlow.queues.rq (t.rtRqOfSe (.task p))
  have hsame : SameBut (s.rtGroup p) t u := hgroup ▸ SameBut.dequeueOne hok hont
  have hframeu : QueueFrame t u := .dequeueOne hok hont
  have hdown : t.Down (s.rtGroup p) := ⟨hlow, hhid⟩
  have hqueues : u.QueuesOk := hlow.queues.dequeueOne (hgroup ▸ hhid _ List.suffix_rfl) hont
  -- the groups are still off, so that they can be put back from the bottom up
  have hdownu : u.Down (s.rtGroup p) := by
    refine hdown.of_task hsame hqueues fun e q he => ?_
    have hne : e ≠ .task p := by
      rintro rfl
      simp [groupRtRq] at he
    rw [hu, onRtRq_dequeueRtEntityOne hok hont]
    simp [hne]
  obtain ⟨hcons, hframe', hrq'⟩ := hdownu.enqueueParents false
  have hs' : s' =
      (rtSeParents (s.rtGroup p)).foldl (fun s e => s.enqueueRtEntityOne e false) u := by
    rw [← foldl_enqueueIfRunning]
    simp only [s', dequeueRtEntity, forEachSchedRtEntity, rtRqOfSe, List.foldl_cons, hstack]
    rfl
  rw [hs']
  refine ⟨hcons, (hframe.frame.trans hframeu).trans hframe'.frame, fun q hq => ?_, fun q hq => ?_,
    fun q i => ?_⟩
  · exact hframe'.armed q (armed_dequeueOne hok hont (hframe.armed q hq))
  · rw [hrq' q hq, hsame.rtRq q fun heq => hq (heq ▸ List.suffix_rfl), hrq q hq]
  · rw [hframe'.taskQueue, ← hframe.taskQueue, taskQueue, taskQueue, hu,
      rtRq_dequeueRtEntityOne hok hont, hgroup]
    by_cases hq : q = s.rtGroup p
    · subst hq
      simp [RtRq.removed, PrioArray.remove, listDelInit, filterMap_erase_task]
    · -- the task is on no other run queue
      rw [Function.update_of_ne hq, listDelInit, List.erase_of_not_mem]
      rw [mem_filterMap_rtTaskOf]
      intro hp
      exact hq (((hlow.queues.rq q).home i _ hp).symm.trans hgroup)

end RtState

end WrrSched
