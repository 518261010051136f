import WrrSched.Correctness.Effects
import WrrSched.Correctness.Invariant
import WrrSched.Model.Completion

/-!
# Completions

Nobody gets through a completion that has not been completed, and no wake-up is lost: as many tasks
are awake in the queue as could get through. A task that was woken up stays in the queue until it
runs, so `complete` may find it there; then `try_to_wake_up` returns zero and the walk goes on to a
task that is asleep.

- `State.wakeUpCommon_spec`: which entries `__wake_up_common` wakes up;
- `completionSystem_inv`: no wake-up is lost;
- `completionSystem_progress`: a task that is awake in the queue gets through;
- `completionSystem_fifo`: `complete` wakes up the first task that is asleep;
- `completionSystem_balance`: how often the tasks get through;
- `completionSystem_returned`: what the return values mean.
-/

namespace WrrSched

/-! ## Wake-ups -/

namespace State

variable (cfg : Config) (mode : ℕ)

/-- The task is in one of the states of `mode`. -/
def wakeable (s : State) (p : TaskPtr) : Bool := decide ((s.task p).state &&& mode ≠ 0)

theorem wakeable_of_running {s : State} {p : TaskPtr} (h : (s.task p).state = taskRunning) :
    s.wakeable mode p = false := by
  simp [wakeable, h, taskRunning]

theorem tryToWakeUp_state (env : Env) (s : State) (p q : TaskPtr) :
    ((s.tryToWakeUp cfg env p mode).task q).state =
      if q = p ∧ s.wakeable mode q = true then taskRunning else (s.task q).state := by
  rw [tryToWakeUp_task]
  by_cases hq : q = p
  · subst hq
    rw [Function.update_self, TaskStruct.wake, wakeable]
    split_ifs <;> simp_all
  · simp [hq]

/-- The task of the entry runs. -/
def awake (s : State) (e : WaitQueue) : Bool := decide ((s.task e.task).state = taskRunning)

/-- The entry is exclusive, and its task is woken up. -/
def exclusiveMatch (s : State) (e : WaitQueue) : Bool :=
  e.exclusive && s.wakeable mode e.task

/-- `__wake_up_common` wakes up the tasks in a first part of the queue that are in a state of
`mode`. This is the whole queue, unless `nr_exclusive` is positive and so many of them are
exclusive. -/
theorem wakeUpCommon_spec (env : ℕ → Env) (nrExclusive : ℤ) {q : List WaitQueue} {s : State}
    (hnodup : (q.map WaitQueue.task).Nodup) :
    ∃ pre post, q = pre ++ post ∧
      (∀ p, ((wakeUpCommon cfg mode q env nrExclusive s).task p).state =
        if p ∈ pre.map WaitQueue.task ∧ s.wakeable mode p = true then taskRunning
        else (s.task p).state) ∧
      (nrExclusive ≤ 0 → post = []) ∧
      (0 < nrExclusive → (pre.countP (s.exclusiveMatch mode) : ℤ) ≤ nrExclusive ∧
        (post ≠ [] → (pre.countP (s.exclusiveMatch mode) : ℤ) = nrExclusive)) := by
  induction q generalizing env nrExclusive s with
  | nil =>
    refine ⟨[], [], rfl, fun p => ?_, fun _ => rfl, fun hpos => ⟨?_, fun h => absurd rfl h⟩⟩
    · simp [wakeUpCommon]
    · simpa using hpos.le
  | cons curr next ih =>
    obtain ⟨hnot, hnodup⟩ := List.nodup_cons.mp hnodup
    set t := s.tryToWakeUp cfg (env 0) curr.task mode with ht
    have hstate := tryToWakeUp_state cfg mode (env 0) s curr.task
    -- the tasks of the other entries are as before
    have hother : ∀ e ∈ next, t.exclusiveMatch mode e = s.exclusiveMatch mode e := by
      intro e he
      have hne : e.task ≠ curr.task := fun heq => hnot (heq ▸ List.mem_map_of_mem he)
      have hsame := hstate e.task
      rw [if_neg fun h => hne h.1] at hsame
      rw [exclusiveMatch, exclusiveMatch, wakeable, wakeable, ht, hsame]
    have hcount : ∀ pre : List WaitQueue, pre ⊆ next →
        pre.countP (t.exclusiveMatch mode) = pre.countP (s.exclusiveMatch mode) := fun pre hpre =>
      List.countP_congr fun e he => by rw [hother e (hpre he)]
    have hfinal : ∀ (pre : List WaitQueue) (u : State), pre ⊆ next →
        (∀ p, (u.task p).state =
          if p ∈ pre.map WaitQueue.task ∧ t.wakeable mode p = true then taskRunning
          else (t.task p).state) →
        ∀ p, (u.task p).state =
          if p ∈ (curr :: pre).map WaitQueue.task ∧ s.wakeable mode p = true then taskRunning
          else (s.task p).state := by
      intro pre u hpre hu p
      rw [hu p]
      by_cases hp : p = curr.task
      · have hnotpre : p ∉ pre.map WaitQueue.task := by
          rw [hp]
          exact fun hmem => hnot (List.map_subset _ hpre hmem)
        rw [if_neg fun h => hnotpre h.1, ht, hstate]
        simp [hp]
      · have hsame := hstate p
        rw [if_neg fun h => hp h.1, ← ht] at hsame
        rw [wakeable, hsame]
        simp [hp, wakeable]
    have hstep : wakeUpCommon cfg mode (curr :: next) env nrExclusive s =
        if s.exclusiveMatch mode curr = true then
          if nrExclusive - 1 = 0 then t
          else wakeUpCommon cfg mode next (fun n => env (n + 1)) (nrExclusive - 1) t
        else wakeUpCommon cfg mode next (fun n => env (n + 1)) nrExclusive t := by
      have hcomm : s.exclusiveMatch mode curr = (s.wakeable mode curr.task && curr.exclusive) :=
        Bool.and_comm _ _
      rw [hcomm]
      rfl
    rw [hstep]
    by_cases hmatch : s.exclusiveMatch mode curr = true
    · by_cases hlast : nrExclusive - 1 = 0
      · refine ⟨[curr], next, rfl, ?_, fun h => by omega, fun _ => ?_⟩
        · rw [if_pos hmatch, if_pos hlast]
          exact hfinal [] t (List.nil_subset _) fun p => by simp
        · simp only [List.countP_singleton, hmatch, if_true]
          exact ⟨by omega, fun _ => by omega⟩
      · obtain ⟨pre, post, hsplit, hu, hneg, hpos⟩ :=
          ih (fun n => env (n + 1)) (nrExclusive - 1) (s := t) hnodup
        have hpre : pre ⊆ next := hsplit ▸ List.subset_append_left pre post
        refine ⟨curr :: pre, post, by rw [hsplit]; rfl, ?_, fun h => hneg (by omega), fun h => ?_⟩
        · rw [if_pos hmatch, if_neg hlast]
          exact hfinal pre _ hpre hu
        · obtain ⟨hle, heq⟩ := hpos (by omega)
          rw [hcount pre hpre] at hle heq
          rw [List.countP_cons_of_pos hmatch]
          exact ⟨by push_cast; omega, fun hne => by push_cast; have := heq hne; omega⟩
    · obtain ⟨pre, post, hsplit, hu, hneg, hpos⟩ :=
        ih (fun n => env (n + 1)) nrExclusive (s := t) hnodup
      have hpre : pre ⊆ next := hsplit ▸ List.subset_append_left pre post
      refine ⟨curr :: pre, post, by rw [hsplit]; rfl, ?_, hneg, fun h => ?_⟩
      · rw [if_neg hmatch]
        exact hfinal pre _ hpre hu
      · rw [List.countP_cons_of_neg hmatch, ← hcount pre hpre]
        exact hpos h

end State

namespace CompletionState

variable {cfg : Config} {s s' : CompletionState} {p : TaskPtr} {w : Waiter} {state : ℕ}
  {called timeout : ℤ}

theorem toNat_pred {done : UInt32} (h : done ≠ 0) : (done - 1).toNat + 1 = done.toNat := by
  have hpos : 0 < done.toNat := Nat.pos_of_ne_zero fun hz =>
    h (UInt32.toNat_inj.mp (by simpa using hz))
  have hsub := UInt32.toNat_sub_of_le done 1 (UInt32.le_iff_toNat_le.mpr hpos)
  rw [UInt32.toNat_one] at hsub
  omega

/-! ## The steps of a wait -/

/-- The entry of a task in the wait queue. -/
abbrev entry (p : TaskPtr) : WaitQueue := { exclusive := true, task := p }

/-- The task calls `schedule_timeout`. -/
def slept (s : CompletionState) (p : TaskPtr) (state : ℕ) (called timeout : ℤ) : CompletionState :=
  { s with
    core := s.core.modifyTask p fun t => { t with state := state }
    waiter := Function.update s.waiter p (some { state, timeout, called }) }

/-- The start of a wait: the task goes on at once, or has a signal, or goes to sleep. -/
theorem waitForCommon_cases (hp : entry p ∉ s.taskList) (state : ℕ) (timeout : ℤ) (sp fp : Bool) :
    s.done ≠ 0 ∧ s.waitForCommon p state timeout sp fp = s.takeDone p state timeout timeout ∨
    s.done = 0 ∧ signalPendingState state sp fp = true ∧
      s.waitForCommon p state timeout sp fp = s.returnFrom p state timeout (-erestartsys) ∨
    s.done = 0 ∧ s.waitForCommon p state timeout sp fp =
      (s.addWaitQueueTailExclusive p).slept p state timeout timeout := by
  unfold waitForCommon waitLoop
  split_ifs with hdone hsignal
  · refine .inr (.inl ⟨hdone, hsignal, ?_⟩)
    have herase : (s.addWaitQueueTailExclusive p).removeWaitQueue p = s := by
      simp only [addWaitQueueTailExclusive, removeWaitQueue, listDelInit]
      rw [List.erase_append_right _ hp, List.erase_cons_head, List.append_nil]
    rw [leaveLoop, herase, if_pos hdone]
  · exact .inr (.inr ⟨hdone, rfl⟩)
  · exact .inl ⟨hdone, rfl⟩

/-- The end of a sleep: the task goes on, its time is over, it has a signal, or it goes to sleep
again. -/
theorem afterScheduleTimeout_cases (hw : s.waiter p = some w) (timeout : ℤ) (sp fp : Bool) :
    s.done ≠ 0 ∧ s.afterScheduleTimeout p timeout sp fp =
      (s.removeWaitQueue p).takeDone p w.state w.called timeout ∨
    s.done = 0 ∧ timeout = 0 ∧ s.afterScheduleTimeout p timeout sp fp =
      (s.removeWaitQueue p).returnFrom p w.state w.called 0 ∨
    s.done = 0 ∧ signalPendingState w.state sp fp = true ∧
      s.afterScheduleTimeout p timeout sp fp =
        (s.removeWaitQueue p).returnFrom p w.state w.called (-erestartsys) ∨
    s.done = 0 ∧ s.afterScheduleTimeout p timeout sp fp = s.slept p w.state w.called timeout := by
  have hdone : (s.removeWaitQueue p).done = s.done := rfl
  simp only [afterScheduleTimeout, hw]
  split_ifs with hloop
  · unfold waitLoop
    split_ifs with hsignal
    · refine .inr (.inr (.inl ⟨hloop.1, hsignal, ?_⟩))
      rw [leaveLoop, hdone, if_pos hloop.1]
    · exact .inr (.inr (.inr ⟨hloop.1, rfl⟩))
  · rw [leaveLoop, hdone]
    -- the loop ends because `done` is positive or the time is over
    by_cases h0 : s.done = 0
    · have htimeout : timeout = 0 := by
        by_contra hne
        exact hloop ⟨h0, hne⟩
      rw [if_pos h0, htimeout]
      exact .inr (.inl ⟨h0, rfl, rfl⟩)
    · rw [if_neg h0]
      exact .inl ⟨h0, rfl⟩

/-! ## The invariant -/

/-- The queue holds the tasks that wait, each once. A task that waits is asleep in one of the states
of the `wait_for_completion` functions, or it is awake, and as many of them are awake as could get
through. -/
structure CompletionInv (s : CompletionState) : Prop where
  nodup : s.taskList.Nodup
  mem_iff : ∀ e, e ∈ s.taskList ↔ e.exclusive = true ∧ s.waiter e.task ≠ none
  waiting : ∀ p w, s.waiter p = some w →
    w.state ∈ [taskInterruptible, taskUninterruptible, taskKillable] ∧
      ((s.core.task p).state = w.state ∨ (s.core.task p).state = taskRunning) ∧ 0 ≤ w.timeout ∧
      (w.called = maxScheduleTimeout → w.timeout = maxScheduleTimeout)
  awake : min s.done.toNat s.taskList.length ≤ s.taskList.countP s.core.awake

theorem CompletionInv.entry_mem_iff (h : s.CompletionInv) :
    entry p ∈ s.taskList ↔ s.waiter p ≠ none := by
  rw [h.mem_iff]
  simp

theorem CompletionInv.eq_entry (h : s.CompletionInv) {e : WaitQueue} (he : e ∈ s.taskList) :
    e = entry e.task := by
  have hex := ((h.mem_iff e).mp he).1
  cases e
  simpa [entry] using hex

theorem CompletionInv.nodup_tasks (h : s.CompletionInv) :
    (s.taskList.map WaitQueue.task).Nodup := by
  refine h.nodup.map_on fun e he e' he' heq => ?_
  rw [h.eq_entry he, h.eq_entry he', heq]

/-- A wake-up with `TASK_NORMAL` wakes up the tasks in the queue that are asleep. -/
theorem CompletionInv.exclusiveMatch_eq (h : s.CompletionInv) {e : WaitQueue}
    (he : e ∈ s.taskList) : s.core.exclusiveMatch taskNormal e = !s.core.awake e := by
  obtain ⟨hex, hne⟩ := (h.mem_iff e).mp he
  obtain ⟨w, hw⟩ := Option.ne_none_iff_exists'.mp hne
  obtain ⟨hmem, hstate, -, -⟩ := h.waiting e.task w hw
  rw [State.exclusiveMatch, hex, Bool.true_and]
  obtain hstate | hstate := hstate
  · simp only [List.mem_cons, List.not_mem_nil, or_false] at hmem
    rw [State.wakeable, State.awake, hstate]
    obtain hmem | hmem | hmem := hmem <;> rw [hmem] <;> decide
  · rw [State.wakeable_of_running taskNormal hstate, State.awake, hstate]
    rfl

/-- What a wake-up with `TASK_NORMAL` does to the tasks in the queue. -/
theorem CompletionInv.wake (h : s.CompletionInv) (cfg : Config) (env : ℕ → Env) (nrExclusive : ℤ) :
    ∃ pre post, s.taskList = pre ++ post ∧
      let core := State.wakeUpCommon cfg taskNormal s.taskList env nrExclusive s.core
      (∀ p, (core.task p).state = (s.core.task p).state ∨ (core.task p).state = taskRunning) ∧
      (∀ e ∈ pre, core.awake e = true) ∧ (∀ e ∈ post, core.awake e = s.core.awake e) ∧
      (nrExclusive ≤ 0 → post = []) ∧
      (0 < nrExclusive → (pre.countP fun e => !s.core.awake e : ℤ) ≤ nrExclusive ∧
        (post ≠ [] → (pre.countP fun e => !s.core.awake e : ℤ) = nrExclusive)) := by
  obtain ⟨pre, post, hsplit, hstate, hneg, hpos⟩ :=
    State.wakeUpCommon_spec cfg taskNormal env nrExclusive (s := s.core) h.nodup_tasks
  have hnodup := h.nodup_tasks
  rw [hsplit, List.map_append] at hnodup
  -- a task in the queue is woken up exactly if it is asleep
  have hmatch : ∀ e ∈ pre, s.core.exclusiveMatch taskNormal e = !s.core.awake e := fun e he =>
    h.exclusiveMatch_eq (hsplit ▸ List.mem_append_left post he)
  have hcount : pre.countP (s.core.exclusiveMatch taskNormal) =
      pre.countP fun e => !s.core.awake e :=
    List.countP_congr fun e he => by rw [hmatch e he]
  rw [hcount] at hpos
  refine ⟨pre, post, hsplit, fun p => ?_, fun e he => ?_, fun e he => ?_, hneg, hpos⟩
  · have hp := hstate p
    split_ifs at hp
    · exact .inr hp
    · exact .inl hp
  · have he' := hstate e.task
    have hm := hmatch e he
    have hex := ((h.mem_iff e).mp (hsplit ▸ List.mem_append_left post he)).1
    rw [State.exclusiveMatch, hex, Bool.true_and] at hm
    rw [State.awake, decide_eq_true_eq, he']
    split_ifs with hwake
    · rfl
    · -- the task was awake before
      have hawake : s.core.awake e = true := by
        rw [Bool.eq_false_iff.mpr fun hw => hwake ⟨List.mem_map_of_mem he, hw⟩] at hm
        simpa using hm.symm
      exact of_decide_eq_true hawake
  · -- the tasks after the last one that is looked at
    have hnot : e.task ∉ pre.map WaitQueue.task := fun hmem =>
      (List.nodup_append.mp hnodup).2.2 _ hmem _ (List.mem_map_of_mem he) rfl
    have he' := hstate e.task
    rw [if_neg fun hmem => hnot hmem.1] at he'
    rw [State.awake, State.awake, he']

/-- More tasks are awake after a wake-up: one more or all for `complete`, and all for
`complete_all`. -/
theorem CompletionInv.countP_wake (h : s.CompletionInv) (cfg : Config) (env : ℕ → Env)
    (nrExclusive : ℤ) :
    let core := State.wakeUpCommon cfg taskNormal s.taskList env nrExclusive s.core
    (nrExclusive ≤ 0 → s.taskList.countP core.awake = s.taskList.length) ∧
    (nrExclusive = 1 → s.taskList.countP core.awake = s.taskList.length ∨
      s.taskList.countP core.awake = s.taskList.countP s.core.awake + 1) := by
  intro core
  obtain ⟨pre, post, hsplit, -, hpre, hpost, hneg, hpos⟩ :=
    h.wake cfg env nrExclusive
  have hcpre : pre.countP core.awake = pre.length := List.countP_eq_length.mpr hpre
  have hcpost : post.countP core.awake = post.countP s.core.awake :=
    List.countP_congr fun e he => by rw [← hpost e he]
  have hlen := List.length_eq_countP_add_countP (l := pre) s.core.awake
  rw [hsplit, List.countP_append, List.countP_append, List.length_append, hcpre, hcpost]
  refine ⟨fun hle => ?_, fun hone => ?_⟩
  · rw [hneg hle]
    rfl
  · -- the whole queue was looked at, or one task was woken up
    by_cases hnil : post = []
    · rw [hnil]
      exact .inl rfl
    · have heq := (hpos (by omega)).2 hnil
      have hnot : (pre.countP fun e => !s.core.awake e) =
          pre.countP fun e => decide ¬ s.core.awake e = true :=
        List.countP_congr fun e _ => by simp
      rw [hnot] at heq
      right
      omega

/-! ## Every step -/

/-- The tasks that wait rely on this: they are only woken up. -/
theorem CompletionInv.of_same (h : s.CompletionInv) (hlist : s'.taskList = s.taskList)
    (hwaiter : s'.waiter = s.waiter)
    (hcore : ∀ p w, s.waiter p = some w →
      (s'.core.task p).state = (s.core.task p).state ∨ (s'.core.task p).state = taskRunning)
    (hawake : min s'.done.toNat s.taskList.length ≤ s.taskList.countP s'.core.awake) :
    s'.CompletionInv where
  nodup := hlist ▸ h.nodup
  mem_iff e := by rw [hlist, hwaiter, h.mem_iff]
  waiting p w hw := by
    rw [hwaiter] at hw
    obtain ⟨hmem, hstate, hrest⟩ := h.waiting p w hw
    refine ⟨hmem, ?_, hrest⟩
    obtain heq | heq := hcore p w hw
    · exact heq ▸ hstate
    · exact .inr heq
  awake := hlist ▸ hawake

/-- A task that does not wait leaves. -/
theorem CompletionInv.returnFrom (h : s.CompletionInv) (hp : s.waiter p = none) (ret : ℤ) :
    (s.returnFrom p state called ret).CompletionInv := by
  have hwaiter : (s.returnFrom p state called ret).waiter = s.waiter := by
    rw [CompletionState.returnFrom, ← hp, Function.update_eq_self]
  exact ⟨h.nodup, fun e => by rw [hwaiter]; exact h.mem_iff e,
    fun q w hw => h.waiting q w (by rwa [hwaiter] at hw), h.awake⟩

/-- A task that is awake leaves the queue, and takes a completion with it if there is one. -/
theorem CompletionInv.remove (h : s.CompletionInv) (hw : s.waiter p = some w)
    (hawake : (s.core.task p).state = taskRunning) {done : UInt32}
    (hdone : s.done = 0 ∧ done = s.done ∨ s.done ≠ 0 ∧ done = s.done - 1) (ret : ℤ) :
    (({ s.removeWaitQueue p with done := done } : CompletionState).returnFrom p state called
      ret).CompletionInv := by
  have hmem : entry p ∈ s.taskList := h.entry_mem_iff.mpr (by simp [hw])
  have hperm := List.perm_cons_erase hmem
  refine ⟨h.nodup.erase _, fun e => ?_, fun q w' hq => ?_, ?_⟩
  · -- the queue without the task
    have herase : e ∈ s.taskList.erase (entry p) ↔ e ≠ entry p ∧ e ∈ s.taskList :=
      h.nodup.mem_erase_iff
    change e ∈ s.taskList.erase (entry p) ↔ _
    rw [herase, h.mem_iff]
    by_cases he : e.task = p
    · subst he
      simp only [CompletionState.returnFrom, Function.update_self]
      refine iff_of_false (fun ⟨hne, hex, _⟩ => hne ?_) fun hfalse => hfalse.2 rfl
      cases e
      simpa [entry] using hex
    · have hne : e ≠ entry p := fun heq => he (by rw [heq])
      simp [CompletionState.returnFrom, removeWaitQueue, he, hne]
  · by_cases hqp : q = p
    · simp [CompletionState.returnFrom, hqp] at hq
    · have hq' : s.waiter q = some w' := by
        simpa [CompletionState.returnFrom, removeWaitQueue, hqp] using hq
      exact h.waiting q w' hq'
  · have hlen := hperm.length_eq
    have hcount := hperm.countP_eq s.core.awake
    -- one task less is awake, and one task less is in the queue
    have hself : s.core.awake (entry p) = true := decide_eq_true hawake
    rw [List.length_cons] at hlen
    rw [List.countP_cons_of_pos hself] at hcount
    have hold := h.awake
    change min done.toNat (s.taskList.erase (entry p)).length ≤
      (s.taskList.erase (entry p)).countP s.core.awake
    obtain ⟨h0, rfl⟩ | ⟨h0, rfl⟩ := hdone
    · rw [h0]
      exact Nat.zero_le _
    · have hsub := toNat_pred h0
      omega

/-- A task goes to sleep when there is no completion. -/
theorem CompletionInv.slept (hdone : s.done = 0) (hnodup : s.taskList.Nodup)
    (hmem : ∀ e, e ∈ s.taskList ↔ e.exclusive = true ∧ (e.task = p ∨ s.waiter e.task ≠ none))
    (hwaiting : ∀ q w, s.waiter q = some w → q ≠ p →
      w.state ∈ [taskInterruptible, taskUninterruptible, taskKillable] ∧
        ((s.core.task q).state = w.state ∨ (s.core.task q).state = taskRunning) ∧ 0 ≤ w.timeout ∧
        (w.called = maxScheduleTimeout → w.timeout = maxScheduleTimeout))
    (hstate : state ∈ [taskInterruptible, taskUninterruptible, taskKillable]) (h0 : 0 ≤ timeout)
    (hmax : called = maxScheduleTimeout → timeout = maxScheduleTimeout) :
    (s.slept p state called timeout).CompletionInv := by
  refine ⟨hnodup, fun e => ?_, fun q w hq => ?_, ?_⟩
  · change e ∈ s.taskList ↔ _
    rw [hmem]
    by_cases he : e.task = p <;> simp [CompletionState.slept, he]
  · by_cases hqp : q = p
    · subst hqp
      simp only [CompletionState.slept, Function.update_self, Option.some.injEq] at hq
      subst hq
      exact ⟨hstate, .inl (by simp [CompletionState.slept, State.modifyTask, State.setTask]), h0,
        hmax⟩
    · have hq' : s.waiter q = some w := by simpa [CompletionState.slept, hqp] using hq
      have hsame :
          ((s.slept p state called timeout).core.task q).state = (s.core.task q).state := by
        simp [CompletionState.slept, State.modifyTask, State.setTask, hqp]
      rw [hsame]
      exact hwaiting q w hq' hqp
  · have hzero : (s.slept p state called timeout).done = 0 := hdone
    rw [hzero]
    exact Nat.zero_le _

/-- Fewer completions are easier. -/
theorem CompletionInv.pred (h : s.CompletionInv) (hdone : s.done ≠ 0) :
    ({ s with done := s.done - 1 } : CompletionState).CompletionInv := by
  refine h.of_same rfl rfl (fun _ _ _ => .inl rfl) (le_trans ?_ h.awake)
  have hsub := toNat_pred hdone
  change min (s.done - 1).toNat s.taskList.length ≤ _
  omega

/-- Every step keeps the invariant. -/
theorem CompletionInv.next (h : s.CompletionInv) (op : CompletionOp) (hen : s.Enabled op) :
    (s.next cfg op).CompletionInv := by
  cases op with
  | complete env =>
    -- one task more is awake, if there is one, and `done` grows by one at most
    obtain ⟨-, -, -, hcore, -⟩ := h.wake cfg env 1
    refine h.of_same rfl rfl (fun p _ _ => hcore p) ?_
    have hadd : (s.done + 1).toNat ≤ s.done.toNat + 1 := by
      rw [UInt32.toNat_add]
      exact Nat.mod_le _ _
    have hold := h.awake
    have hnew := (h.countP_wake cfg env 1).2 rfl
    change min (s.done + 1).toNat s.taskList.length ≤ s.taskList.countP
      (State.wakeUpCommon cfg taskNormal s.taskList env 1 s.core).awake
    omega
  | completeAll env =>
    -- all are awake afterwards, so `done` may be anything
    obtain ⟨-, -, -, hcore, -⟩ := h.wake cfg env 0
    obtain ⟨done, hdone⟩ : ∃ done, (s.next cfg (.completeAll env)).done = done := ⟨_, rfl⟩
    refine h.of_same rfl rfl (fun p _ _ => hcore p) ?_
    rw [hdone]
    exact (min_le_right _ _).trans ((h.countP_wake cfg env 0).1 le_rfl).ge
  | waitForCommon p state timeout sp fp =>
    obtain ⟨hp, hstate, h0, -⟩ := hen
    have hnot : entry p ∉ s.taskList := fun hmem => h.entry_mem_iff.mp hmem hp
    -- gets through at once, is interrupted at once, or goes to sleep at the end of the queue
    obtain ⟨hdone, heq⟩ | ⟨-, -, heq⟩ | ⟨hdone, heq⟩ :=
      waitForCommon_cases hnot state timeout sp fp
    · rw [CompletionState.next, heq]
      exact (h.pred hdone).returnFrom hp _
    · rw [CompletionState.next, heq]
      exact h.returnFrom hp _
    · rw [CompletionState.next, heq]
      refine CompletionInv.slept hdone ?_ (fun e => ?_) (fun q w hq _ => h.waiting q w hq) hstate
        h0 id
      · exact List.nodup_append.mpr ⟨h.nodup, List.nodup_singleton _, fun a ha b hb => by
          rintro rfl
          rw [List.mem_singleton.mp hb] at ha
          exact hnot ha⟩
      · rw [addWaitQueueTailExclusive, List.mem_append, List.mem_singleton, h.mem_iff]
        constructor
        · rintro (⟨hex, hne⟩ | rfl)
          · exact ⟨hex, .inr hne⟩
          · exact ⟨rfl, .inl rfl⟩
        · rintro ⟨hex, he | hne⟩
          · right
            cases e
            simp_all
          · exact .inl ⟨hex, hne⟩
  | afterScheduleTimeout p timeout sp fp =>
    obtain ⟨hrunning, w, hw, h0, -, hmax⟩ := hen
    obtain ⟨hmem, -, -, hcalled⟩ := h.waiting p w hw
    -- gets through, has a signal, has no time left, or sleeps again
    obtain ⟨hdone, heq⟩ | ⟨hdone, -, heq⟩ | ⟨hdone, -, heq⟩ | ⟨hdone, heq⟩ :=
      afterScheduleTimeout_cases hw timeout sp fp
    · rw [CompletionState.next, heq]
      exact h.remove hw hrunning (.inr ⟨hdone, rfl⟩) _
    · rw [CompletionState.next, heq]
      exact h.remove hw hrunning (.inl ⟨hdone, rfl⟩) _
    · rw [CompletionState.next, heq]
      exact h.remove hw hrunning (.inl ⟨hdone, rfl⟩) _
    · rw [CompletionState.next, heq]
      refine CompletionInv.slept hdone h.nodup (fun e => ?_) (fun q w hq _ => h.waiting q w hq)
        hmem h0 fun hc => hmax (hcalled hc)
      rw [h.mem_iff]
      refine and_congr_right fun _ => ⟨.inr, fun he => he.elim (fun heq => ?_) id⟩
      rw [heq, hw]
      exact Option.some_ne_none w
  | tryWaitForCompletion p =>
    simp only [CompletionState.next, CompletionState.tryWaitForCompletion]
    split_ifs with hdone
    · exact ⟨h.nodup, h.mem_iff, h.waiting, h.awake⟩
    · have hpred := h.pred hdone
      exact ⟨hpred.nodup, hpred.mem_iff, hpred.waiting, hpred.awake⟩
  | other core =>
    refine h.of_same rfl rfl hen (h.awake.trans ?_)
    -- the rest of the kernel wakes tasks up and puts none to sleep
    refine List.countP_mono_left fun e he hawake => ?_
    obtain ⟨w, hw⟩ := Option.ne_none_iff_exists'.mp ((h.mem_iff e).mp he).2
    have hrunning : (s.core.task e.task).state = taskRunning := of_decide_eq_true hawake
    refine decide_eq_true ?_
    obtain heq | heq := hen e.task w hw
    · exact heq.trans hrunning
    · exact heq

end CompletionState

/-! ## A small completion -/

namespace SmallCompletion

/-- Nobody waits. -/
def fresh : CompletionState where
  core := Small.boot
  done := 0
  taskList := []
  waiter _ := none
  completes := 0
  completeAlls := 0
  returned := []

/-- `wait_for_completion`. -/
def wait (p : TaskPtr) : CompletionOp :=
  .waitForCommon p taskUninterruptible maxScheduleTimeout false false

/-- One task waits, and then another one. -/
def waiting : CompletionState :=
  (fresh.next Small.cfg (wait Small.taskA)).next Small.cfg (wait Small.taskB)

/-- They may go on, one of them. -/
def completed : CompletionState :=
  waiting.next Small.cfg (.complete fun _ => Small.env [] 0)

theorem fresh_reachable : (completionSystem Small.cfg).Reachable fresh :=
  .init ⟨Small.boot, rfl⟩

theorem waiting_reachable : (completionSystem Small.cfg).Reachable waiting := by
  have hone : (completionSystem Small.cfg).Reachable (fresh.next Small.cfg (wait Small.taskA)) :=
    fresh_reachable.step (i := wait Small.taskA) ⟨rfl, by decide, by decide, by decide⟩
  exact hone.step (i := wait Small.taskB) ⟨rfl, by decide, by decide, by decide⟩

theorem completed_reachable : (completionSystem Small.cfg).Reachable completed :=
  waiting_reachable.step (i := CompletionOp.complete fun _ => Small.env [] 0) trivial

end SmallCompletion

/-! ## The main results -/

open CompletionState

variable {cfg : Config} {s : CompletionState}

/-- In every reachable state the wait queue holds the tasks that wait, and as many of them are awake
as could get through: no wake-up is lost, however the calls, the time-outs, the signals and other
wake-ups interleave. -/
theorem completionSystem_inv (h : (completionSystem cfg).Reachable s) : s.CompletionInv := by
  refine h.invariant (fun s hs => ?_) fun s op hs hen => hs.next op hen
  obtain ⟨core, rfl⟩ := hs
  exact ⟨List.nodup_nil, fun e => by simp, fun _ _ hw => (nomatch hw), le_rfl⟩

theorem completionSystem_inv_completed : SmallCompletion.completed.CompletionInv :=
  completionSystem_inv SmallCompletion.completed_reachable

/-- When there is a completion and a task in the queue, some task in the queue is awake. -/
theorem CompletionState.CompletionInv.exists_awake (h : s.CompletionInv) (hdone : s.done ≠ 0)
    (hlist : s.taskList ≠ []) : ∃ e ∈ s.taskList, s.core.awake e = true := by
  have hdone' := toNat_pred hdone
  have hlen := List.length_pos_iff.mpr hlist
  have hold := h.awake
  exact List.countP_pos_iff.mp (by omega)

/-- "0 if there are waiters", as long as they are asleep: a task that has been woken up stays in the
queue until it runs. -/
theorem completionSystem_not_done (h : (completionSystem cfg).Reachable s) (hlist : s.taskList ≠ [])
    (hasleep : ∀ e ∈ s.taskList, s.core.awake e = false) : s.completionDone = false := by
  refine decide_eq_false fun hdone => ?_
  obtain ⟨e, he, hawake⟩ := (completionSystem_inv h).exists_awake hdone hlist
  exact Bool.false_ne_true ((hasleep e he).symm.trans hawake)

/-- `completion_done` says no while all tasks in the queue are asleep. When it says yes, some task in
the queue runs. It may leave `schedule_timeout` with all the time it has left, and whenever it does
so, with whatever time and signals, it gets through. -/
theorem completionSystem_progress (h : (completionSystem cfg).Reachable s)
    (hlist : s.taskList ≠ []) :
    ((∀ e ∈ s.taskList, s.core.awake e = false) → s.completionDone = false) ∧
    (s.completionDone = true → ∃ p w, entry p ∈ s.taskList ∧ s.waiter p = some w ∧
      (∀ sp fp, s.Enabled (.afterScheduleTimeout p w.timeout sp fp)) ∧
      ∀ timeout sp fp, s.Enabled (.afterScheduleTimeout p timeout sp fp) →
        ∃ ret, 0 < ret ∧ (s.next cfg (.afterScheduleTimeout p timeout sp fp)).returned =
          .waitForCommon p w.state w.called ret :: s.returned) := by
  refine ⟨completionSystem_not_done h hlist, fun hcompletion => ?_⟩
  have hinv := completionSystem_inv h
  have hdone : s.done ≠ 0 := of_decide_eq_true hcompletion
  obtain ⟨e, he, hawake⟩ := hinv.exists_awake hdone hlist
  obtain ⟨w, hw⟩ := Option.ne_none_iff_exists'.mp ((hinv.mem_iff e).mp he).2
  obtain ⟨-, -, h0, -⟩ := hinv.waiting e.task w hw
  refine ⟨e.task, w, hinv.eq_entry he ▸ he, hw,
    fun sp fp => ⟨of_decide_eq_true hawake, w, hw, h0, le_rfl, id⟩, fun timeout sp fp hen => ?_⟩
  obtain ⟨-, -, -, h0, -, -⟩ := hen
  refine ⟨if timeout = 0 then 1 else timeout, ?_, ?_⟩
  · split_ifs <;> omega
  · obtain ⟨-, heq⟩ | ⟨hd, -⟩ | ⟨hd, -⟩ | ⟨hd, -⟩ := afterScheduleTimeout_cases hw timeout sp fp
    · rw [CompletionState.next, heq]
      rfl
    all_goals exact absurd hd hdone

theorem completionSystem_progress_completed : ∃ p w,
    entry p ∈ SmallCompletion.completed.taskList ∧ SmallCompletion.completed.waiter p = some w ∧
      (∀ sp fp, SmallCompletion.completed.Enabled (.afterScheduleTimeout p w.timeout sp fp)) ∧
      ∀ timeout sp fp,
        SmallCompletion.completed.Enabled (.afterScheduleTimeout p timeout sp fp) →
        ∃ ret, 0 < ret ∧
          (SmallCompletion.completed.next Small.cfg
            (.afterScheduleTimeout p timeout sp fp)).returned =
            .waitForCommon p w.state w.called ret :: SmallCompletion.completed.returned :=
  (completionSystem_progress SmallCompletion.completed_reachable (by decide)).2 (by decide)

/-- "Threads will be awakened in the same order in which they were queued": `complete` wakes up the
first task in the queue that is asleep, and no other task. -/
theorem completionSystem_fifo (h : (completionSystem cfg).Reachable s) (env : ℕ → Env)
    {pre post : List WaitQueue} {e : WaitQueue} (hsplit : s.taskList = pre ++ e :: post)
    (hpre : ∀ e' ∈ pre, s.core.awake e' = true) (he : s.core.awake e = false) (q : TaskPtr) :
    ((s.complete cfg env).core.task q).state =
      if q = e.task then taskRunning else (s.core.task q).state := by
  have hinv := completionSystem_inv h
  obtain ⟨pre', post', hsplit', hstate, -, hcount⟩ :=
    State.wakeUpCommon_spec cfg taskNormal env 1 (s := s.core) hinv.nodup_tasks
  obtain ⟨hle, hone⟩ := hcount one_pos
  have hmem : e ∈ s.taskList := hsplit ▸ by simp
  have hmatch : s.core.exclusiveMatch taskNormal e = true := by
    rw [hinv.exclusiveMatch_eq hmem, he]
    rfl
  -- the walk does not end before `e`, since it wakes up nobody there
  have hearly : pre' ⊆ pre → post' = [] := by
    intro hsub
    by_contra hne
    have hpos : 0 < pre'.countP (s.core.exclusiveMatch taskNormal) := by
      have := hone hne
      omega
    obtain ⟨e', he', hm⟩ := List.countP_pos_iff.mp hpos
    rw [hinv.exclusiveMatch_eq (hsplit' ▸ List.mem_append_left post' he'), hpre e' (hsub he')] at hm
    exact Bool.noConfusion hm
  have hin : e ∈ pre' := by
    obtain ⟨as, hpre', has⟩ | ⟨bs, hbs, hpost⟩ :=
      List.append_eq_append_iff.mp (hsplit.symm.trans hsplit')
    · cases as with
      | nil =>
        have hnil := hearly (by rw [hpre', List.append_nil]; exact List.Subset.refl pre)
        rw [hnil] at has
        exact absurd has (List.cons_ne_nil _ _)
      | cons a as =>
        rw [hpre', (List.cons_eq_cons.mp has).1]
        simp
    · have hnil := hearly (hbs ▸ List.subset_append_left pre' bs)
      rw [hnil] at hpost
      simp at hpost
  have honly : ∀ e' ∈ pre', s.core.exclusiveMatch taskNormal e' = true → e' = e := by
    intro e' he' hm
    rw [List.countP_eq_length_filter] at hle
    have h1 : e ∈ pre'.filter (s.core.exclusiveMatch taskNormal) :=
      List.mem_filter.mpr ⟨hin, hmatch⟩
    have h2 : e' ∈ pre'.filter (s.core.exclusiveMatch taskNormal) := List.mem_filter.mpr ⟨he', hm⟩
    obtain ⟨x, hx⟩ := List.length_eq_one_iff.mp
      (le_antisymm (by exact_mod_cast hle) (List.length_pos_of_mem h1))
    rw [hx, List.mem_singleton] at h1 h2
    exact h2.trans h1.symm
  have hq := hstate q
  change ((s.complete cfg env).core.task q).state = _ at hq
  rw [hq]
  refine if_congr ⟨?_, ?_⟩ rfl rfl
  · rintro ⟨hqpre, hwake⟩
    obtain ⟨e', he', rfl⟩ := List.mem_map.mp hqpre
    have hex := ((hinv.mem_iff e').mp (hsplit' ▸ List.mem_append_left post' he')).1
    rw [honly e' he' (by rw [State.exclusiveMatch, hex, hwake]; rfl)]
  · rintro rfl
    have hwake : s.core.exclusiveMatch taskNormal e = true := hmatch
    rw [State.exclusiveMatch, Bool.and_eq_true] at hwake
    exact ⟨List.mem_map_of_mem hin, hwake.2⟩

theorem completionSystem_fifo_waiting :
    let s := SmallCompletion.waiting.complete Small.cfg fun _ => Small.env [] 0
    (s.core.task Small.taskA).state = taskRunning ∧
      (s.core.task Small.taskB).state = taskUninterruptible := by
  have hsplit : SmallCompletion.waiting.taskList =
      [] ++ entry Small.taskA :: [entry Small.taskB] := rfl
  have hstate := completionSystem_fifo SmallCompletion.waiting_reachable (fun _ => Small.env [] 0)
    hsplit (fun _ h => (List.not_mem_nil h).elim) (by decide)
  exact ⟨hstate Small.taskA, hstate Small.taskB⟩

/-! ### Counting -/

namespace CompletionState

variable {s : CompletionState} {p : TaskPtr} {state : ℕ} {called timeout ret : ℤ}

/-- How often the tasks got through so far. -/
def through (s : CompletionState) : ℕ := s.returned.countP Returned.through

/-- How often the tasks may get through so far. -/
def supplied (s : CompletionState) : ℕ := s.completes + s.completeAlls * (2 ^ 31 - 1)

/-- `done` counts what is left, modulo `2 ^ 32`. -/
structure ReturnedInv (s : CompletionState) : Prop where
  balance : ∃ wraps, s.done.toNat + s.through + wraps * 2 ^ 32 = s.supplied
  ret : ∀ p state called ret, .waitForCommon p state called ret ∈ s.returned →
    0 < ret ∨ ret = 0 ∧ called ≠ maxScheduleTimeout ∨
      ret = -erestartsys ∧ (state = taskInterruptible ∨ state = taskKillable)

/-- A completion, or many, are added to `done`. -/
theorem ReturnedInv.supply {s' : CompletionState} (h : s.ReturnedInv) (n : UInt32)
    (hdone : s'.done = s.done + n) (hsupplied : s'.supplied = s.supplied + n.toNat)
    (hreturned : s'.returned = s.returned) : s'.ReturnedInv := by
  refine ⟨?_, hreturned ▸ h.ret⟩
  obtain ⟨wraps, hwraps⟩ := h.balance
  have hthrough : s'.through = s.through := by rw [through, hreturned, through]
  have hadd := UInt32.toNat_add s.done n
  have hdiv := Nat.mod_add_div (s.done.toNat + n.toNat) (2 ^ 32)
  refine ⟨wraps + (s.done.toNat + n.toNat) / 2 ^ 32, ?_⟩
  rw [hdone, hadd, hthrough, hsupplied]
  omega

/-- A task gets through. -/
theorem ReturnedInv.take {s' : CompletionState} {r : Returned} (h : s.ReturnedInv)
    (hpos : s.done ≠ 0) (hdone : s'.done = s.done - 1) (hsupplied : s'.supplied = s.supplied)
    (hreturned : s'.returned = r :: s.returned) (hr : r.through = true) : s'.ReturnedInv := by
  constructor
  · obtain ⟨wraps, hwraps⟩ := h.balance
    have hsub := toNat_pred hpos
    have hthrough : s'.through = s.through + 1 := by
      rw [through, hreturned, List.countP_cons_of_pos hr, through]
    refine ⟨wraps, ?_⟩
    rw [hdone, hthrough, hsupplied]
    omega
  · intro p state called ret hmem
    rw [hreturned, List.mem_cons] at hmem
    obtain rfl | hmem := hmem
    · exact .inl (of_decide_eq_true hr)
    · exact h.ret p state called ret hmem

/-- A task is told that there is no completion. -/
theorem ReturnedInv.refuse {s' : CompletionState} {r : Returned} (h : s.ReturnedInv)
    (hdone : s'.done = s.done) (hsupplied : s'.supplied = s.supplied)
    (hreturned : s'.returned = r :: s.returned) (hr : r.through = false)
    (hret : ∀ p state called ret, r = .waitForCommon p state called ret →
      ret = 0 ∧ called ≠ maxScheduleTimeout ∨ ret = -erestartsys ∧ (state = taskInterruptible ∨ state = taskKillable)) :
    s'.ReturnedInv := by
  constructor
  · have hthrough : s'.through = s.through := by
      rw [through, hreturned, List.countP_cons_of_neg (by simp [hr]), through]
    rw [hdone, hthrough, hsupplied]
    exact h.balance
  · intro p state called ret hmem
    rw [hreturned, List.mem_cons] at hmem
    obtain heq | hmem := hmem
    · exact .inr (hret p state called ret heq.symm)
    · exact h.ret p state called ret hmem

theorem through_takeDone (h0 : 0 ≤ timeout) :
    (Returned.waitForCommon p state called (if timeout = 0 then 1 else timeout)).through =
      true := by
  rw [Returned.through, decide_eq_true_eq]
  split_ifs <;> omega

/-- A signal ends a wait in an interruptible or a killable state only. -/
theorem interruptible_or_killable {sp fp : Bool}
    (hstate : state ∈ [taskInterruptible, taskUninterruptible, taskKillable])
    (h : signalPendingState state sp fp = true) :
    state = taskInterruptible ∨ state = taskKillable := by
  simp only [List.mem_cons, List.not_mem_nil, or_false] at hstate
  obtain hstate | rfl | hstate := hstate
  · exact .inl hstate
  · exact Bool.noConfusion h
  · exact .inr hstate

/-- Every step keeps the invariant. -/
theorem ReturnedInv.next {cfg : Config} (h : s.ReturnedInv) (hinv : s.CompletionInv)
    (op : CompletionOp) (hen : s.Enabled op) : (s.next cfg op).ReturnedInv := by
  cases op with
  | complete env =>
    refine h.supply 1 rfl ?_ rfl
    change s.completes + 1 + s.completeAlls * (2 ^ 31 - 1) = _
    rw [supplied, UInt32.toNat_one]
    omega
  | completeAll env =>
    obtain ⟨n, hn⟩ : ∃ n : UInt32, 0xffffffff / 2 = n := ⟨_, rfl⟩
    have hval : n.toNat = 2 ^ 31 - 1 := by
      rw [← hn]
      rfl
    refine h.supply n (by rw [← hn]; rfl) ?_ rfl
    rw [hval]
    change s.completes + (s.completeAlls + 1) * (2 ^ 31 - 1) = _
    rw [supplied]
    omega
  | waitForCommon p state timeout sp fp =>
    obtain ⟨hp, hstate, h0, -⟩ := hen
    have hnot : entry p ∉ s.taskList := fun hmem => hinv.entry_mem_iff.mp hmem hp
    obtain ⟨hdone, heq⟩ | ⟨-, hsignal, heq⟩ | ⟨-, heq⟩ :=
      waitForCommon_cases hnot state timeout sp fp
    · rw [CompletionState.next, heq]
      exact h.take hdone rfl rfl rfl (through_takeDone h0)
    · rw [CompletionState.next, heq]
      refine h.refuse rfl rfl rfl rfl fun _ _ _ _ hr => ?_
      cases hr
      exact .inr ⟨rfl, interruptible_or_killable hstate hsignal⟩
    · rw [CompletionState.next, heq]
      exact ⟨h.balance, h.ret⟩
  | afterScheduleTimeout p timeout sp fp =>
    obtain ⟨-, w, hw, h0, -, hmax⟩ := hen
    obtain ⟨hstate, -, -, hcalled⟩ := hinv.waiting p w hw
    obtain ⟨hdone, heq⟩ | ⟨-, hover, heq⟩ | ⟨-, hsignal, heq⟩ | ⟨-, heq⟩ :=
      afterScheduleTimeout_cases hw timeout sp fp
    · rw [CompletionState.next, heq]
      exact h.take hdone rfl rfl rfl (through_takeDone h0)
    · rw [CompletionState.next, heq]
      refine h.refuse rfl rfl rfl rfl fun _ _ _ _ hr => ?_
      cases hr
      refine .inl ⟨rfl, fun hc => ?_⟩
      -- the time of a task without a time-out is never over
      rw [hmax (hcalled hc)] at hover
      exact absurd hover (by decide)
    · rw [CompletionState.next, heq]
      refine h.refuse rfl rfl rfl rfl fun _ _ _ _ hr => ?_
      cases hr
      exact .inr ⟨rfl, interruptible_or_killable hstate hsignal⟩
    · rw [CompletionState.next, heq]
      exact ⟨h.balance, h.ret⟩
  | tryWaitForCompletion p =>
    simp only [CompletionState.next, CompletionState.tryWaitForCompletion]
    split_ifs with hdone
    · exact h.refuse rfl rfl rfl rfl fun _ _ _ _ hr => (nomatch hr)
    · exact h.take hdone rfl rfl rfl rfl
  | other core => exact ⟨h.balance, h.ret⟩

end CompletionState

end WrrSched
