import WrrSched.Correctness.RtRequeue

/-!
# Picking an RT task

`pick_next_task_rt` follows the best entity of each run queue down to a task. In order queues this
ends, at an eligible task (no group it is in is throttled) that no eligible task precedes.

- `GroupsOk`: the task groups form a tree;
- `Consistent.pickLoop_spec`: the loop;
- `Consistent.pickNextTaskRt_spec`: the whole function.
-/

namespace WrrSched

namespace RtState

variable {s s' : RtState} {g q : RtGroup} {e x : RtEntity} {p : TaskPtr}

/-! ## Task groups -/

/-- The task groups form a tree with the root group at its root, and only they have entities. -/
structure GroupsOk (s : RtState) : Prop where
  root : [] ∈ s.taskGroups
  parent : ∀ tg parent, tg :: parent ∈ s.taskGroups → parent ∈ s.taskGroups
  nodup : s.taskGroups.Nodup
  children : ∀ tg parent, tg ∈ s.children parent ↔ tg :: parent ∈ s.taskGroups
  childrenNodup : ∀ g, (s.children g).Nodup
  existing : ∀ g, (s.rtRq g).rtNrRunning ≠ 0 → g ∈ s.taskGroups

theorem GroupsOk.suffix (h : s.GroupsOk) (hg : g ∈ s.taskGroups) (hq : q <:+ g) :
    q ∈ s.taskGroups := by
  induction g with
  | nil => rwa [List.suffix_nil.mp hq]
  | cons tg parent ih =>
    obtain rfl | hq := List.suffix_cons_iff.mp hq
    · exact hg
    · exact ih (h.parent tg parent hg) hq

/-- A group has fewer parents than there are groups. -/
theorem GroupsOk.length_lt (h : s.GroupsOk) (hg : g ∈ s.taskGroups) :
    g.length < s.taskGroups.length := by
  have hsub : g.tails ⊆ s.taskGroups := fun q hq => h.suffix hg ((List.mem_tails q g).mp hq)
  have hle := ((nodup_tails g).subperm hsub).length_le
  rw [List.length_tails] at hle
  omega

/-! ## Eligible tasks -/

/-- The task is queued, and no group it is in is throttled. -/
def Eligible (s : RtState) (p : TaskPtr) : Prop :=
  s.onRtRq (.task p) = true ∧ ∀ q, q <:+ s.rtGroup p → s.rtRqThrottled q = false

/-- The best entity of a run queue is no worse than any entity on it. -/
theorem QueuesOk.highestPrio_le (h : s.QueuesOk) (hon : s.onRtRq e = true) :
    (s.rtRq (s.rtRqOfSe e)).rtNrRunning ≠ 0 ∧
      (s.rtRq (s.rtRqOfSe e)).highestPrio ≤ s.rtSePrio e := by
  have hok := (h.rq (s.rtRqOfSe e)).ok
  have hmem := hok.wf.onList_iff.mp hon
  exact ⟨hok.nr_ne_zero_iff.mpr ⟨_, _, hmem⟩, hok.highest ▸ hok.wf.findFirstBit_le hmem⟩

/-- Neither is the best entity of the parent, if the group is linked and not throttled. -/
theorem Consistent.highestPrio_parent (h : s.Consistent) {tg : TaskGroupPtr} {parent : RtGroup}
    (hnr : (s.rtRq (tg :: parent)).rtNrRunning ≠ 0)
    (hthr : s.rtRqThrottled (tg :: parent) = false) :
    (s.rtRq parent).rtNrRunning ≠ 0 ∧
      (s.rtRq parent).highestPrio ≤ (s.rtRq (tg :: parent)).highestPrio := by
  have hon : s.onRtRq (.group tg parent) = true := by
    refine (h.linked (tg :: parent)).mpr ?_
    simp [groupIdle, groupRtRq, hthr, hnr]
  exact h.queues.highestPrio_le hon

/-- An eligible task is seen in every group it is in. -/
theorem Consistent.highestPrio_le_of_eligible (h : s.Consistent) (hp : s.Eligible p)
    (hq : q <:+ s.rtGroup p) :
    (s.rtRq q).rtNrRunning ≠ 0 ∧ (s.rtRq q).highestPrio ≤ (s.core.task p).prio := by
  have hup : ∀ r : RtGroup, r ++ q <:+ s.rtGroup p →
      (s.rtRq (r ++ q)).rtNrRunning ≠ 0 ∧ (s.rtRq (r ++ q)).highestPrio ≤ (s.core.task p).prio →
      (s.rtRq q).rtNrRunning ≠ 0 ∧ (s.rtRq q).highestPrio ≤ (s.core.task p).prio := by
    intro r
    induction r with
    | nil => exact fun _ h => h
    | cons tg r ih =>
      intro hsuf hr
      obtain ⟨hnr, hle⟩ := h.highestPrio_parent hr.1 (hp.2 _ hsuf)
      exact ih ((List.suffix_cons tg (r ++ q)).trans hsuf) ⟨hnr, hle.trans hr.2⟩
  obtain ⟨r, hr⟩ := hq
  exact hup r (hr ▸ List.suffix_rfl) (hr ▸ h.queues.highestPrio_le hp.1)

/-! ## The pick -/

/-- The loop of `_pick_next_task_rt` finds a task that is in the group, has the priority of the best
entity there, and is the first of its queue. -/
theorem Consistent.pickLoop_spec (h : s.Consistent) (hg : s.GroupsOk) {n : ℕ}
    (hn : s.taskGroups.length ≤ g.length + n) (hnr : (s.rtRq g).rtNrRunning ≠ 0) :
    ∃ p, pickLoop n s g = (some p, s) ∧ s.onRtRq (.task p) = true ∧ g <:+ s.rtGroup p ∧
      (s.core.task p).prio = (s.rtRq g).highestPrio ∧
      (s.taskQueue (s.rtGroup p) (s.core.task p).prio).head? = some p ∧
      ∀ q, q <:+ s.rtGroup p → g.length < q.length → s.rtRqThrottled q = false := by
  induction n generalizing g with
  | zero =>
    -- a group is not deeper than there are groups
    have hlen := hg.length_lt (hg.existing g hnr)
    omega
  | succ n ih =>
    have hok := (h.queues.rq g).ok
    have hlt : (s.rtRq g).active.findFirstBit rtPrioQueues < maxRtPrio :=
      hok.wf.findFirstBit_lt_iff.mpr (hok.nr_ne_zero_iff.mp hnr)
    have hne := hok.wf.queue_findFirstBit_ne_nil hlt
    obtain ⟨e, rest, hqueue⟩ := List.exists_cons_of_ne_nil hne
    have hmem : e ∈ (s.rtRq g).active.queue ((s.rtRq g).active.findFirstBit rtPrioQueues) :=
      hqueue ▸ List.mem_cons_self
    have hhome := (h.queues.rq g).home _ e hmem
    have hprio := hok.wf.prio_eq _ e hmem
    have hon := (h.queues.rq g).onRtRq_of_mem hmem
    have hpick : s.pickNextRtEntity g = (some e, s) := by
      simp [pickNextRtEntity, hqueue, not_le.mpr hlt]
    cases e with
    | task p =>
      refine ⟨p, by simp [pickLoop, hpick], hon, ?_, ?_, ?_, fun q hq hlen => ?_⟩
      · rw [← hhome, rtRqOfSe]
      · rw [hok.highest, ← hprio, rtSePrio]
      · have hgroup : s.rtGroup p = g := hhome
        have hprio' : (s.core.task p).prio = (s.rtRq g).active.findFirstBit rtPrioQueues := hprio
        rw [taskQueue, hgroup, hprio', hqueue]
        rfl
      · have hgroup : s.rtGroup p = g := hhome
        have hle := hq.length_le
        rw [hgroup] at hle
        omega
    | group tg parent =>
      have hpar : parent = g := hhome
      subst hpar
      have hidle := (h.linked (tg :: parent)).mp hon
      simp only [groupIdle, groupRtRq, Bool.or_eq_false_iff, decide_eq_false_iff_not] at hidle
      obtain ⟨p, hloop, honp, hsuf, hpp, hhead, hthr⟩ :=
        ih (g := tg :: parent) (by simp only [List.length_cons]; omega) hidle.2
      refine ⟨p, by simp [pickLoop, hpick, hloop], honp, (List.suffix_cons tg parent).trans hsuf, ?_,
        hhead, fun q hq hlen => ?_⟩
      · rw [hpp, hok.highest, ← hprio, rtSePrio]
      · obtain hlt | heq := lt_or_eq_of_le (Nat.succ_le_of_lt hlen)
        · exact hthr q hq (by simpa using hlt)
        · have hq' : q = tg :: parent := by
            refine (List.suffix_of_suffix_length_le hq hsuf (by simp [← heq])).eq_of_length ?_
            simp [← heq]
          rw [hq']
          exact hidle.1

/-- `pick_next_task_rt` finds nothing exactly when no task is eligible, and otherwise an eligible
task that no eligible task precedes, the first of its queue; it starts its clock. -/
theorem Consistent.pickNextTaskRt_spec (h : s.Consistent) (hg : s.GroupsOk) :
    (s.pickNextTaskRt = (none, s) ∧ ∀ p, ¬ s.Eligible p) ∨
    ∃ p, s.pickNextTaskRt = (some p, s.modifyCore fun c => { c with
        se := Function.update c.se p { c.se p with execStart := c.clockTask } }) ∧
      s.Eligible p ∧ (∀ q, s.Eligible q → (s.core.task p).prio ≤ (s.core.task q).prio) ∧
      (s.taskQueue (s.rtGroup p) (s.core.task p).prio).head? = some p := by
  by_cases hnr : (s.rtRq []).rtNrRunning = 0
  · refine .inl ⟨by simp [pickNextTaskRt, hnr], fun p hp => ?_⟩
    exact (h.highestPrio_le_of_eligible hp List.nil_suffix).1 hnr
  · by_cases hthr : s.rtRqThrottled [] = true
    · refine .inl ⟨by simp [pickNextTaskRt, hnr, hthr], fun p hp => ?_⟩
      rw [hp.2 [] List.nil_suffix] at hthr
      exact Bool.noConfusion hthr
    · rw [Bool.not_eq_true] at hthr
      obtain ⟨p, hloop, hon, -, hprio, hhead, hup⟩ :=
        h.pickLoop_spec hg (g := []) (n := s.taskGroups.length) (by simp) hnr
      refine .inr ⟨p, by simp [pickNextTaskRt, hnr, hthr, hloop], ⟨hon, fun q hq => ?_⟩,
        fun q hq => ?_, hhead⟩
      · cases q with
        | nil => exact hthr
        | cons tg parent => exact hup _ hq (by simp)
      · rw [hprio]
        exact (h.highestPrio_le_of_eligible hq List.nil_suffix).2

end RtState

end WrrSched
