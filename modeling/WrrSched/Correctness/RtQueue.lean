import WrrSched.Model.RtClass

/-!
# One level of the RT queues

`__enqueue_rt_entity` and `__dequeue_rt_entity` keep the run queue they work on in order, provided
the entity of that run queue is not queued itself: its priority and its boosting are those of the
run queue, so that it must not be queued while they change. This is why `dequeue_rt_stack` works
from the top down.

- `RtRq.Ok`: the counters of a run queue describe its array;
- `RqOk`: the run queue of a group is in order;
- `dequeueRtEntityOne_eq`, `enqueueRtEntityOne_eq`: what the two functions do to such a queue;
- `RqOk.dequeueOne`, `RqOk.enqueueOne`: every run queue stays in order.
-/

namespace WrrSched

/-! ## Run queues on their own -/

namespace RtRq

variable {rq : RtRq} {prio : RtEntity → ℤ} {boosted : RtEntity → Bool} {e x : RtEntity}

/-- The array is well formed and the counters describe it. -/
structure Ok (rq : RtRq) (prio : RtEntity → ℤ) (boosted : RtEntity → Bool) : Prop where
  wf : rq.active.WF rtPrioQueues prio
  nr : rq.rtNrRunning = rq.active.count rtPrioQueues fun _ => true
  boosted : rq.rtNrBoosted = rq.active.count rtPrioQueues boosted
  highest : rq.highestPrio = rq.active.findFirstBit rtPrioQueues

/-- The run queue without the entity. -/
def removed (rq : RtRq) (prio : RtEntity → ℤ) (boosted : RtEntity → Bool) (e : RtEntity) : RtRq :=
  { rq with
    active := rq.active.remove e (prio e)
    rtNrRunning := rq.rtNrRunning - 1
    highestPrio := (rq.active.remove e (prio e)).findFirstBit rtPrioQueues
    rtNrBoosted := rq.rtNrBoosted - if boosted e then 1 else 0 }

/-- The run queue with the entity. -/
def inserted (rq : RtRq) (prio : RtEntity → ℤ) (boosted : RtEntity → Bool) (e : RtEntity)
    (head : Bool) : RtRq :=
  { rq with
    active := rq.active.insert e (prio e) head
    rtNrRunning := rq.rtNrRunning + 1
    highestPrio := (rq.active.insert e (prio e) head).findFirstBit rtPrioQueues
    rtNrBoosted := rq.rtNrBoosted + if boosted e then 1 else 0 }

/-- Only the priorities and the boosting of the entities in the array matter. -/
theorem Ok.congr {prio' : RtEntity → ℤ} {boosted' : RtEntity → Bool} (h : rq.Ok prio boosted)
    (hp : ∀ i, ∀ x ∈ rq.active.queue i, prio' x = prio x)
    (hb : ∀ i, ∀ x ∈ rq.active.queue i, boosted' x = boosted x) : rq.Ok prio' boosted' where
  wf := h.wf.congr hp
  nr := h.nr
  boosted := by rw [h.boosted, PrioArray.count_congr hb]
  highest := h.highest

/-- The counter of a run queue in order is not negative. -/
theorem Ok.nr_nonneg (h : rq.Ok prio boosted) : 0 ≤ rq.rtNrRunning := by
  rw [h.nr]
  exact Int.natCast_nonneg _

/-- A run queue counts an entity when there is one. -/
theorem Ok.nr_ne_zero_iff (h : rq.Ok prio boosted) :
    rq.rtNrRunning ≠ 0 ↔ ∃ i, ∃ x, x ∈ rq.active.queue i := by
  rw [← h.wf.count_pos_iff, h.nr]
  omega

/-- There are no more boosted entities than entities. -/
theorem Ok.boosted_eq_zero (h : rq.Ok prio boosted) (h0 : rq.rtNrRunning = 0) :
    rq.rtNrBoosted = 0 := by
  have hempty : ∀ i, rq.active.queue i = [] := by
    intro i
    by_contra hne
    obtain ⟨x, hx⟩ := List.exists_mem_of_ne_nil _ hne
    exact h.nr_ne_zero_iff.mpr ⟨i, x, hx⟩ h0
  rw [h.boosted]
  simp [PrioArray.count, hempty]

/-- A removal keeps the run queue in order. -/
theorem Ok.removed (h : rq.Ok prio boosted) (hx : rq.active.onList rtPrioQueues e = true) :
    (rq.removed prio boosted e).Ok prio boosted where
  wf := h.wf.remove hx
  nr := by
    have hcount := h.wf.count_remove (fun _ => true) hx
    have hnr := h.nr
    simp only [RtRq.removed, if_true] at hcount ⊢
    omega
  boosted := by
    have hcount := h.wf.count_remove boosted hx
    have hnr := h.boosted
    simp only [RtRq.removed]
    split_ifs at hcount ⊢ <;> omega
  highest := rfl

/-- So does an insertion. -/
theorem Ok.inserted (h : rq.Ok prio boosted) (hx : rq.active.onList rtPrioQueues e = false)
    (h0 : 0 ≤ prio e) (hN : prio e < maxRtPrio) (head : Bool) :
    (rq.inserted prio boosted e head).Ok prio boosted where
  wf := h.wf.insert hx h0 hN head
  nr := by
    have hcount := PrioArray.count_insert (N := rtPrioQueues) (a := rq.active) (fun _ => true) h0 hN head
    have hnr := h.nr
    simp only [RtRq.inserted, if_true] at hcount ⊢
    omega
  boosted := by
    have hcount := PrioArray.count_insert (N := rtPrioQueues) (a := rq.active) boosted h0 hN head
    have hnr := h.boosted
    simp only [RtRq.inserted]
    split_ifs at hcount ⊢ <;> omega
  highest := rfl

/-- An entry that is counted out was counted. -/
theorem Ok.nr_pos (h : rq.Ok prio boosted) (hx : rq.active.onList rtPrioQueues e = true) :
    0 < rq.rtNrRunning := by
  have hne := h.nr_ne_zero_iff.mpr ⟨_, e, h.wf.onList_iff.mp hx⟩
  have h0 := h.nr_nonneg
  omega

/-- `dec_rt_prio` finds the first bit without searching, unless a best entity was removed. -/
theorem Ok.findFirstBit_removed (h : rq.Ok prio boosted)
    (hx : rq.active.onList rtPrioQueues e = true) :
    (rq.active.remove e (prio e)).findFirstBit rtPrioQueues =
      if rq.rtNrRunning - 1 ≠ 0 then
        if prio e = rq.highestPrio then (rq.active.remove e (prio e)).findFirstBit rtPrioQueues
        else rq.highestPrio
      else maxRtPrio := by
  split_ifs with hnr hprio
  · rfl
  · rw [h.highest] at hprio ⊢
    exact h.wf.findFirstBit_remove hx hprio
  · -- nothing is left
    have hok := h.removed hx
    have hlast := hok.wf.findFirstBit_lt_iff.not.mpr fun hex =>
      hok.nr_ne_zero_iff.mpr hex (not_not.mp hnr)
    exact le_antisymm hok.wf.findFirstBit_spec.2.1 (not_lt.mp hlast)

end RtRq

/-! ## Run queues in order -/

namespace RtState

variable {s s' : RtState} {g q : RtGroup} {e x : RtEntity} {p : TaskPtr}

/-- The run queue of `g` is in order, holds only entities that belong on it, and is on the list of
the leaves when it is not empty. -/
structure RqOk (s : RtState) (g : RtGroup) : Prop where
  ok : (s.rtRq g).Ok s.rtSePrio s.rtSeBoosted
  home : ∀ i, ∀ e ∈ (s.rtRq g).active.queue i, s.rtRqOfSe e = g
  leaf : g ∈ s.leafRtRqList ↔ (s.rtRq g).rtNrRunning ≠ 0

/-- The entity of `g` is not queued. -/
def Hidden (s : RtState) (g : RtGroup) : Prop :=
  ∀ e, groupRtRq e = some g → s.onRtRq e = false

/-- The entity of a group. -/
theorem groupRtRq_eq_some_iff {tg : TaskGroupPtr} {parent : RtGroup} :
    groupRtRq e = some (tg :: parent) ↔ e = .group tg parent := by
  cases e <;> simp [groupRtRq]

/-- The root group has no entity. -/
theorem hidden_root (s : RtState) : s.Hidden [] := by
  intro e he
  cases e <;> simp [groupRtRq] at he

/-- Another group is hidden when its entity is off. -/
theorem hidden_cons_iff {tg : TaskGroupPtr} {parent : RtGroup} :
    s.Hidden (tg :: parent) ↔ s.onRtRq (.group tg parent) = false := by
  simp [Hidden, groupRtRq_eq_some_iff]

/-- No entity is queued on the run queue it stands for. -/
theorem groupRtRq_ne_rtRqOfSe (s : RtState) (e : RtEntity) : groupRtRq e ≠ some (s.rtRqOfSe e) := by
  cases e with
  | task p => simp [groupRtRq]
  | group tg parent => simp [groupRtRq, rtRqOfSe]

/-- An entity in a queue is on it. -/
theorem RqOk.onRtRq_of_mem (h : s.RqOk g) {i : ℤ} (hx : x ∈ (s.rtRq g).active.queue i) :
    s.onRtRq x = true := by
  rw [onRtRq, h.home i x hx]
  exact h.ok.wf.onList_of_mem hx

/-- A queued entity has an RT priority. -/
theorem RqOk.prio_range (h : s.RqOk (s.rtRqOfSe e)) (hon : s.onRtRq e = true) :
    0 ≤ s.rtSePrio e ∧ s.rtSePrio e < maxRtPrio :=
  h.ok.wf.prio_range hon

/-! ## Changes of one run queue -/

/-- `s'` is `s` as far as the queues are concerned, but for the run queue of `g`. -/
structure SameBut (g : RtGroup) (s s' : RtState) : Prop where
  rtRq : ∀ q, q ≠ g → s'.rtRq q = s.rtRq q
  task : s'.core.task = s.core.task
  rtGroup : s'.rtGroup = s.rtGroup

namespace SameBut

/-- The queue an entity belongs to stays the same. -/
theorem rtRqOfSe (h : SameBut g s s') (e : RtEntity) : s'.rtRqOfSe e = s.rtRqOfSe e := by
  cases e with
  | task p => exact congrFun h.rtGroup p
  | group tg parent => rfl

/-- Only the entity of `g` itself can have another priority. -/
theorem rtSePrio (h : SameBut g s s') (he : groupRtRq e ≠ some g) :
    s'.rtSePrio e = s.rtSePrio e := by
  cases e with
  | task p => simp [RtState.rtSePrio, h.task]
  | group tg parent =>
    have hne : tg :: parent ≠ g := fun hg => he (congrArg some hg)
    simp [RtState.rtSePrio, h.rtRq _ hne]

/-- Only the entity of the group may be boosted in another way. -/
theorem rtSeBoosted (h : SameBut g s s') (he : groupRtRq e ≠ some g) :
    s'.rtSeBoosted e = s.rtSeBoosted e := by
  cases e with
  | task p => simp [RtState.rtSeBoosted, h.task]
  | group tg parent =>
    have hne : tg :: parent ≠ g := fun hg => he (congrArg some hg)
    simp [RtState.rtSeBoosted, h.rtRq _ hne]

/-- Entities of other run queues stay on or off. -/
theorem onRtRq (h : SameBut g s s') (he : s.rtRqOfSe e ≠ g) : s'.onRtRq e = s.onRtRq e := by
  rw [RtState.onRtRq, RtState.onRtRq, h.rtRqOfSe, h.rtRq _ he]

/-- Other run queues stay throttled or not. -/
theorem rtRqThrottled (h : SameBut g s s') (hq : q ≠ g) :
    s'.rtRqThrottled q = s.rtRqThrottled q := by
  rw [RtState.rtRqThrottled, RtState.rtRqThrottled, h.rtRq q hq]

/-- A change of one run queue leaves the others alone. -/
theorem modifyRtRq (s : RtState) (g : RtGroup) (f : RtRq → RtRq) :
    SameBut g s (s.modifyRtRq g f) where
  rtRq _ hq := by simp [RtState.modifyRtRq, hq]
  task := rfl
  rtGroup := rfl

end SameBut

/-- An entity that is queued is not that of a hidden group. -/
theorem RqOk.groupRtRq_ne (h : s.RqOk q) (hg : s.Hidden g) {i : ℤ}
    (hx : x ∈ (s.rtRq q).active.queue i) : groupRtRq x ≠ some g := by
  intro hxg
  have hoff := hg x hxg
  rw [h.onRtRq_of_mem hx] at hoff
  exact Bool.noConfusion hoff

/-- The other run queues stay in order when that of a hidden group changes. -/
theorem RqOk.frame (h : s.RqOk q) (hs : SameBut g s s') (hq : q ≠ g) (hg : s.Hidden g)
    (hleaf : q ∈ s'.leafRtRqList ↔ q ∈ s.leafRtRqList) : s'.RqOk q where
  ok := by
    rw [hs.rtRq q hq]
    exact h.ok.congr (fun i x hx => hs.rtSePrio (h.groupRtRq_ne hg hx))
      fun i x hx => hs.rtSeBoosted (h.groupRtRq_ne hg hx)
  home i x hx := by
    rw [hs.rtRq q hq] at hx
    rw [hs.rtRqOfSe]
    exact h.home i x hx
  leaf := by
    rw [hleaf, hs.rtRq q hq]
    exact h.leaf

/-- The changed run queue is in order when it is by the priorities from before the change: none of
its entities is that of `g`. -/
theorem RqOk.of_changed (hs : SameBut g s s') (hok : (s'.rtRq g).Ok s.rtSePrio s.rtSeBoosted)
    (hhome : ∀ i, ∀ x ∈ (s'.rtRq g).active.queue i, s.rtRqOfSe x = g)
    (hleaf : g ∈ s'.leafRtRqList ↔ (s'.rtRq g).rtNrRunning ≠ 0) : s'.RqOk g where
  ok := by
    have hne : ∀ i, ∀ x ∈ (s'.rtRq g).active.queue i, groupRtRq x ≠ some g := by
      intro i x hx
      rw [← hhome i x hx]
      exact groupRtRq_ne_rtRqOfSe s x
    exact hok.congr (fun i x hx => hs.rtSePrio (hne i x hx)) fun i x hx =>
      hs.rtSeBoosted (hne i x hx)
  home i x hx := by
    rw [hs.rtRqOfSe]
    exact hhome i x hx
  leaf := hleaf

/-! ## Taking an entity off -/

/-- A warning that does not fire. -/
@[simp] theorem warnOn_false (s : RtState) : s.warnOn false = s := by
  simp [warnOn]

/-- A bug that does not fire. -/
@[simp] theorem bugOn_false (s : RtState) : s.bugOn false = s := by
  simp [bugOn]

/-- The run queue that is changed. -/
@[simp] theorem modifyRtRq_self (s : RtState) (g : RtGroup) (f : RtRq → RtRq) :
    (s.modifyRtRq g f).rtRq g = f (s.rtRq g) := by
  simp [modifyRtRq]

/-- Two changes of one run queue. -/
theorem modifyRtRq_modifyRtRq (s : RtState) (g : RtGroup) (f f' : RtRq → RtRq) :
    (s.modifyRtRq g f).modifyRtRq g f' = s.modifyRtRq g fun rq => f' (f rq) := by
  simp [modifyRtRq]

/-- Two changes that do the same there. -/
theorem modifyRtRq_congr {f f' : RtRq → RtRq} (h : f (s.rtRq g) = f' (s.rtRq g)) :
    s.modifyRtRq g f = s.modifyRtRq g f' := by
  simp [modifyRtRq, h]

/-- The priority of an entity does not depend on the run queue it is on. -/
@[simp] theorem rtSePrio_modifyRtRq (s : RtState) (e : RtEntity) (f : RtRq → RtRq) :
    (s.modifyRtRq (s.rtRqOfSe e) f).rtSePrio e = s.rtSePrio e :=
  (SameBut.modifyRtRq s _ f).rtSePrio (groupRtRq_ne_rtRqOfSe s e)

/-- An entity is not boosted by the run queue it is on. -/
@[simp] theorem rtSeBoosted_modifyRtRq (s : RtState) (e : RtEntity) (f : RtRq → RtRq) :
    (s.modifyRtRq (s.rtRqOfSe e) f).rtSeBoosted e = s.rtSeBoosted e :=
  (SameBut.modifyRtRq s _ f).rtSeBoosted (groupRtRq_ne_rtRqOfSe s e)

/-- `dec_rt_prio` leaves the first bit in `highest_prio`, without a warning. -/
theorem decRtPrio_eq {prio : ℤ} (hle : (s.rtRq g).highestPrio ≤ prio)
    (hfirst : (s.rtRq g).active.findFirstBit rtPrioQueues =
      if (s.rtRq g).rtNrRunning ≠ 0 then
        if prio = (s.rtRq g).highestPrio then (s.rtRq g).active.findFirstBit rtPrioQueues
        else (s.rtRq g).highestPrio
      else maxRtPrio) :
    s.decRtPrio g prio = s.modifyRtRq g fun rq =>
      { rq with highestPrio := rq.active.findFirstBit rtPrioQueues } := by
  have hwarn : decide (prio < (s.rtRq g).highestPrio) = false := by simpa using hle
  rw [decRtPrio, hwarn, warnOn_false]
  split_ifs at hfirst ⊢ with hnr hprio
  · rfl
  · simp [modifyRtRq, hfirst]
  · exact modifyRtRq_congr (by rw [hfirst])

/-- `dec_rt_group` counts the entity out, without a warning. -/
theorem decRtGroup_eq {b : Bool} (hb : s.rtSeBoosted e = b)
    (hzero : (s.rtRq g).rtNrRunning = 0 → (s.rtRq g).rtNrBoosted - (if b then 1 else 0) = 0) :
    s.decRtGroup e g = s.modifyRtRq g fun rq =>
      { rq with rtNrBoosted := rq.rtNrBoosted - if b then 1 else 0 } := by
  have hmod : (if s.rtSeBoosted e then s.modifyRtRq g fun rq =>
        { rq with rtNrBoosted := rq.rtNrBoosted - 1 } else s) =
      s.modifyRtRq g fun rq => { rq with rtNrBoosted := rq.rtNrBoosted - if b then 1 else 0 } := by
    rw [hb]
    cases b <;> simp [modifyRtRq]
  rw [decRtGroup, hmod]
  by_cases h0 : (s.rtRq g).rtNrRunning = 0
  · simp [hzero h0]
  · simp [h0]

/-- What `dec_rt_tasks` does once the entity is out of the array. -/
theorem decRtTasks_eq (h : s.RqOk (s.rtRqOfSe e)) (hon : s.onRtRq e = true) :
    (s.modifyRtRq (s.rtRqOfSe e) fun rq =>
        { rq with active := rq.active.remove e (s.rtSePrio e) }).decRtTasks e (s.rtRqOfSe e) =
      s.modifyRtRq (s.rtRqOfSe e) fun rq => rq.removed s.rtSePrio s.rtSeBoosted e := by
  have hprio : rtPrio (s.rtSePrio e) = true := decide_eq_true (h.prio_range hon).2
  have hpos := h.ok.nr_pos hon
  have hwarn : decide ((s.rtRq (s.rtRqOfSe e)).rtNrRunning = 0) = false := by
    simp [hpos.ne']
  have hbest : (s.rtRq (s.rtRqOfSe e)).highestPrio ≤ s.rtSePrio e := by
    rw [h.ok.highest]
    exact h.ok.wf.findFirstBit_le (h.ok.wf.onList_iff.mp hon)
  have hfirst := h.ok.findFirstBit_removed hon
  have hzero := (h.ok.removed hon).boosted_eq_zero
  simp only [decRtTasks, rtSePrio_modifyRtRq, hprio, Bool.not_true, warnOn_false,
    modifyRtRq_self, hwarn, modifyRtRq_modifyRtRq]
  rw [decRtPrio_eq (by simpa using hbest) (by simpa using hfirst), modifyRtRq_modifyRtRq,
    decRtGroup_eq (rtSeBoosted_modifyRtRq s e _) (by simpa [RtRq.removed] using hzero),
    modifyRtRq_modifyRtRq]
  rfl

/-- What `__dequeue_rt_entity` does. -/
theorem dequeueRtEntityOne_eq (h : s.RqOk (s.rtRqOfSe e)) (hon : s.onRtRq e = true) :
    s.dequeueRtEntityOne e = (s.modifyRtRq (s.rtRqOfSe e) fun rq =>
      rq.removed s.rtSePrio s.rtSeBoosted e).listDelLeafRtRq (s.rtRqOfSe e) := by
  rw [dequeueRtEntityOne, decRtTasks_eq h hon]

/-! ## Putting an entity on -/

/-- `inc_rt_prio` leaves the first bit in `highest_prio`. -/
theorem incRtPrio_eq {prio : ℤ} (hfirst : (s.rtRq g).active.findFirstBit rtPrioQueues =
      if prio < (s.rtRq g).highestPrio then prio else (s.rtRq g).highestPrio) :
    s.incRtPrio g prio = s.modifyRtRq g fun rq =>
      { rq with highestPrio := rq.active.findFirstBit rtPrioQueues } := by
  refine modifyRtRq_congr ?_
  rw [hfirst]
  split_ifs <;> rfl

/-- `inc_rt_group` counts the entity in and starts the timer. -/
theorem incRtGroup_eq {b : Bool} (hb : s.rtSeBoosted e = b) :
    s.incRtGroup e g = (s.modifyRtRq g fun rq =>
      { rq with rtNrBoosted := rq.rtNrBoosted + if b then 1 else 0 }).startRtBandwidth g := by
  rw [incRtGroup, hb]
  cases b <;> simp [modifyRtRq]

/-- What `inc_rt_tasks` does once the entity is in the array. -/
theorem incRtTasks_eq (h : (s.rtRq (s.rtRqOfSe e)).Ok s.rtSePrio s.rtSeBoosted)
    (h0 : 0 ≤ s.rtSePrio e) (hN : s.rtSePrio e < maxRtPrio) (head : Bool) :
    (s.modifyRtRq (s.rtRqOfSe e) fun rq =>
        { rq with active := rq.active.insert e (s.rtSePrio e) head }).incRtTasks e (s.rtRqOfSe e) =
      (s.modifyRtRq (s.rtRqOfSe e) fun rq =>
        rq.inserted s.rtSePrio s.rtSeBoosted e head).startRtBandwidth (s.rtRqOfSe e) := by
  have hprio : rtPrio (s.rtSePrio e) = true := decide_eq_true hN
  have hfirst := h.wf.findFirstBit_insert h0 hN head
  rw [← h.highest] at hfirst
  simp only [incRtTasks, rtSePrio_modifyRtRq, hprio, Bool.not_true, warnOn_false,
    modifyRtRq_modifyRtRq]
  rw [incRtPrio_eq (by simpa using hfirst), modifyRtRq_modifyRtRq,
    incRtGroup_eq (rtSeBoosted_modifyRtRq s e _), modifyRtRq_modifyRtRq]
  rfl

/-- What `__enqueue_rt_entity` does. -/
theorem enqueueRtEntityOne_eq (h : s.RqOk (s.rtRqOfSe e)) (hidle : s.groupIdle e = false)
    (h0 : 0 ≤ s.rtSePrio e) (hN : s.rtSePrio e < maxRtPrio) (head : Bool) :
    s.enqueueRtEntityOne e head = ((s.listAddLeafRtRq (s.rtRqOfSe e)).modifyRtRq (s.rtRqOfSe e)
      fun rq => rq.inserted s.rtSePrio s.rtSeBoosted e head).startRtBandwidth (s.rtRqOfSe e) := by
  rw [enqueueRtEntityOne, hidle]
  simp only [Bool.false_eq_true, if_false, listAddLeafRtRq]
  -- the list of leaves plays no role in what follows
  split_ifs with hnr
  · have hok : (({ s with leafRtRqList := s.rtRqOfSe e :: s.leafRtRqList } : RtState).rtRq
        (s.rtRqOfSe e)).Ok s.rtSePrio s.rtSeBoosted := h.ok
    exact incRtTasks_eq (s := { s with leafRtRqList := s.rtRqOfSe e :: s.leafRtRqList })
      hok h0 hN head
  · exact incRtTasks_eq h.ok h0 hN head

/-! ## What queueing leaves -/

/-- Queueing changes the arrays, the counters and the list of leaves, and starts timers. -/
structure QueueFrame (s s' : RtState) : Prop where
  core : s'.core = s.core
  taskGroups : s'.taskGroups = s.taskGroups
  children : s'.children = s.children
  rtGroup : s'.rtGroup = s.rtGroup
  timeSlice : s'.timeSlice = s.timeSlice
  defRtBandwidth : s'.defRtBandwidth = s.defRtBandwidth
  sysctlSchedRtPeriod : s'.sysctlSchedRtPeriod = s.sysctlSchedRtPeriod
  sysctlSchedRtRuntime : s'.sysctlSchedRtRuntime = s.sysctlSchedRtRuntime
  warned : s'.warned = s.warned
  bug : s'.bug = s.bug
  rtThrottled : ∀ q, (s'.rtRq q).rtThrottled = (s.rtRq q).rtThrottled
  rtTime : ∀ q, (s'.rtRq q).rtTime = (s.rtRq q).rtTime
  rtRuntime : ∀ q, (s'.rtRq q).rtRuntime = (s.rtRq q).rtRuntime
  charged : ∀ q, (s'.rtRq q).charged = (s.rtRq q).charged
  periods : ∀ q, (s'.rtRq q).periods = (s.rtRq q).periods
  rtPeriod : ∀ q, (s'.rtBandwidth q).rtPeriod = (s.rtBandwidth q).rtPeriod
  bandwidthRuntime : ∀ q, (s'.rtBandwidth q).rtRuntime = (s.rtBandwidth q).rtRuntime
  timerActive : ∀ q, (s.rtBandwidth q).timerActive = true → (s'.rtBandwidth q).timerActive = true

namespace QueueFrame

/-- Nothing is changed. -/
theorem refl (s : RtState) : QueueFrame s s := by
  constructor <;> intros <;> first | rfl | assumption

/-- Two changes after one another. -/
theorem trans {s'' : RtState} (h : QueueFrame s s') (h' : QueueFrame s' s'') :
    QueueFrame s s'' where
  core := h'.core.trans h.core
  taskGroups := h'.taskGroups.trans h.taskGroups
  children := h'.children.trans h.children
  rtGroup := h'.rtGroup.trans h.rtGroup
  timeSlice := h'.timeSlice.trans h.timeSlice
  defRtBandwidth := h'.defRtBandwidth.trans h.defRtBandwidth
  sysctlSchedRtPeriod := h'.sysctlSchedRtPeriod.trans h.sysctlSchedRtPeriod
  sysctlSchedRtRuntime := h'.sysctlSchedRtRuntime.trans h.sysctlSchedRtRuntime
  warned := h'.warned.trans h.warned
  bug := h'.bug.trans h.bug
  rtThrottled q := (h'.rtThrottled q).trans (h.rtThrottled q)
  rtTime q := (h'.rtTime q).trans (h.rtTime q)
  rtRuntime q := (h'.rtRuntime q).trans (h.rtRuntime q)
  charged q := (h'.charged q).trans (h.charged q)
  periods q := (h'.periods q).trans (h.periods q)
  rtPeriod q := (h'.rtPeriod q).trans (h.rtPeriod q)
  bandwidthRuntime q := (h'.bandwidthRuntime q).trans (h.bandwidthRuntime q)
  timerActive q hq := h'.timerActive q (h.timerActive q hq)

/-- The queue an entity belongs to stays the same. -/
theorem rtRqOfSe (h : QueueFrame s s') (e : RtEntity) : s'.rtRqOfSe e = s.rtRqOfSe e := by
  cases e with
  | task p => exact congrFun h.rtGroup p
  | group tg parent => rfl

/-- A change of the queueing data of one run queue. -/
theorem modifyRtRq (s : RtState) (g : RtGroup) {f : RtRq → RtRq}
    (h : ∀ rq, (f rq).rtThrottled = rq.rtThrottled ∧ (f rq).rtTime = rq.rtTime ∧
      (f rq).rtRuntime = rq.rtRuntime ∧ (f rq).charged = rq.charged ∧
      (f rq).periods = rq.periods) : QueueFrame s (s.modifyRtRq g f) := by
  have hrq : ∀ {β : Type} (field : RtRq → β), (∀ rq, field (f rq) = field rq) →
      ∀ q, field ((s.modifyRtRq g f).rtRq q) = field (s.rtRq q) := by
    intro β field hf q
    by_cases hq : q = g
    · subst hq
      rw [modifyRtRq_self, hf]
    · simp [RtState.modifyRtRq, hq]
  exact { refl s with
    rtThrottled := hrq _ fun rq => (h rq).1
    rtTime := hrq _ fun rq => (h rq).2.1
    rtRuntime := hrq _ fun rq => (h rq).2.2.1
    charged := hrq _ fun rq => (h rq).2.2.2.1
    periods := hrq _ fun rq => (h rq).2.2.2.2 }

/-- Starting the timer is no change of the queues. -/
theorem startRtBandwidth (s : RtState) (g : RtGroup) : QueueFrame s (s.startRtBandwidth g) := by
  unfold RtState.startRtBandwidth
  split_ifs
  · exact refl s
  · have hbw : ∀ {β : Type} (field : RtBandwidth → β) (q : RtGroup),
        field { s.rtBandwidth g with timerActive := true } = field (s.rtBandwidth g) →
        field (Function.update s.rtBandwidth g { s.rtBandwidth g with timerActive := true } q) =
          field (s.rtBandwidth q) := by
      intro β field q hf
      by_cases hq : q = g
      · subst hq
        rw [Function.update_self, hf]
      · rw [Function.update_of_ne hq]
    exact { refl s with
      rtPeriod := fun q => hbw (·.rtPeriod) q rfl
      bandwidthRuntime := fun q => hbw (·.rtRuntime) q rfl
      timerActive := fun q hq => by
        by_cases hqg : q = g
        · subst hqg
          simp
        · simpa [hqg] using hq }

/-- Nor is a new entry of the leaf list. -/
theorem listAddLeafRtRq (s : RtState) (g : RtGroup) : QueueFrame s (s.listAddLeafRtRq g) := by
  unfold RtState.listAddLeafRtRq
  split_ifs
  · exact { refl s with }
  · exact refl s

/-- Nor is one entry less. -/
theorem listDelLeafRtRq (s : RtState) (g : RtGroup) : QueueFrame s (s.listDelLeafRtRq g) := by
  unfold RtState.listDelLeafRtRq
  split_ifs
  · exact { refl s with }
  · exact refl s

end QueueFrame

/-! ## All run queues -/

section ListDelInit

variable {α : Type*} [DecidableEq α] {l : List α} {a b : α}

/-- `list_del_init` takes exactly one entry away. -/
theorem mem_listDelInit_iff (h : l.Nodup) : a ∈ listDelInit b l ↔ a ≠ b ∧ a ∈ l :=
  h.mem_erase_iff

/-- What is left has no entry twice. -/
theorem nodup_listDelInit (h : l.Nodup) (b : α) : (listDelInit b l).Nodup :=
  h.erase b

end ListDelInit

/-- Every run queue is in order, and the list of leaves has no repetition. -/
structure QueuesOk (s : RtState) : Prop where
  rq : ∀ q, s.RqOk q
  leafNodup : s.leafRtRqList.Nodup

/-- Putting a run queue on the leaf list leaves all run queues alone. -/
@[simp] theorem rtRq_listAddLeafRtRq (s : RtState) (g : RtGroup) :
    (s.listAddLeafRtRq g).rtRq = s.rtRq := by
  unfold listAddLeafRtRq
  split_ifs <;> rfl

/-- Taking one off the leaf list leaves them alone too. -/
@[simp] theorem rtRq_listDelLeafRtRq (s : RtState) (g : RtGroup) :
    (s.listDelLeafRtRq g).rtRq = s.rtRq := by
  unfold listDelLeafRtRq
  split_ifs <;> rfl

/-- So does starting a timer. -/
@[simp] theorem rtRq_startRtBandwidth (s : RtState) (g : RtGroup) :
    (s.startRtBandwidth g).rtRq = s.rtRq := by
  unfold startRtBandwidth
  split_ifs <;> rfl

/-- A timer does not move the leaf list. -/
@[simp] theorem leafRtRqList_startRtBandwidth (s : RtState) (g : RtGroup) :
    (s.startRtBandwidth g).leafRtRqList = s.leafRtRqList := by
  unfold startRtBandwidth
  split_ifs <;> rfl

/-- Only an empty run queue leaves the leaf list. -/
theorem leafRtRqList_listDelLeafRtRq (s : RtState) (g : RtGroup) :
    (s.listDelLeafRtRq g).leafRtRqList =
      if (s.rtRq g).rtNrRunning = 0 then listDelInit g s.leafRtRqList else s.leafRtRqList := by
  unfold listDelLeafRtRq
  split_ifs <;> rfl

/-- The queues with an entity taken off. -/
theorem rtRq_dequeueRtEntityOne (h : s.RqOk (s.rtRqOfSe e)) (hon : s.onRtRq e = true) :
    (s.dequeueRtEntityOne e).rtRq = Function.update s.rtRq (s.rtRqOfSe e)
      ((s.rtRq (s.rtRqOfSe e)).removed s.rtSePrio s.rtSeBoosted e) := by
  rw [dequeueRtEntityOne_eq h hon, rtRq_listDelLeafRtRq]
  rfl

/-- The queues with an entity put on. -/
theorem rtRq_enqueueRtEntityOne (h : s.RqOk (s.rtRqOfSe e)) (hidle : s.groupIdle e = false)
    (h0 : 0 ≤ s.rtSePrio e) (hN : s.rtSePrio e < maxRtPrio) (head : Bool) :
    (s.enqueueRtEntityOne e head).rtRq = Function.update s.rtRq (s.rtRqOfSe e)
      ((s.rtRq (s.rtRqOfSe e)).inserted s.rtSePrio s.rtSeBoosted e head) := by
  rw [enqueueRtEntityOne_eq h hidle h0 hN, rtRq_startRtBandwidth]
  simp [modifyRtRq]

/-- What taking an entity off leaves alone. -/
theorem QueueFrame.dequeueOne (h : s.RqOk (s.rtRqOfSe e)) (hon : s.onRtRq e = true) :
    QueueFrame s (s.dequeueRtEntityOne e) := by
  rw [dequeueRtEntityOne_eq h hon]
  have hmod := QueueFrame.modifyRtRq s (s.rtRqOfSe e)
    (f := fun rq => rq.removed s.rtSePrio s.rtSeBoosted e) fun _ => ⟨rfl, rfl, rfl, rfl, rfl⟩
  exact hmod.trans (.listDelLeafRtRq _ _)

/-- What putting an entity back leaves alone. -/
theorem QueueFrame.enqueueOne (h : s.RqOk (s.rtRqOfSe e)) (hidle : s.groupIdle e = false)
    (h0 : 0 ≤ s.rtSePrio e) (hN : s.rtSePrio e < maxRtPrio) (head : Bool) :
    QueueFrame s (s.enqueueRtEntityOne e head) := by
  rw [enqueueRtEntityOne_eq h hidle h0 hN]
  have hleaf := QueueFrame.listAddLeafRtRq s (s.rtRqOfSe e)
  have hmod := QueueFrame.modifyRtRq (s.listAddLeafRtRq (s.rtRqOfSe e)) (s.rtRqOfSe e)
    (f := fun rq => rq.inserted s.rtSePrio s.rtSeBoosted e head) fun _ => ⟨rfl, rfl, rfl, rfl, rfl⟩
  exact (hleaf.trans hmod).trans (.startRtBandwidth _ _)

/-- Queues that were changed in one place. -/
theorem SameBut.of_update {rq : RtRq} (hf : QueueFrame s s')
    (h : s'.rtRq = Function.update s.rtRq g rq) : SameBut g s s' where
  rtRq q hq := by rw [h, Function.update_of_ne hq]
  task := by rw [hf.core]
  rtGroup := hf.rtGroup

/-- Taking an entity off changes one run queue. -/
theorem SameBut.dequeueOne (h : s.RqOk (s.rtRqOfSe e)) (hon : s.onRtRq e = true) :
    SameBut (s.rtRqOfSe e) s (s.dequeueRtEntityOne e) :=
  .of_update (.dequeueOne h hon) (rtRq_dequeueRtEntityOne h hon)

/-- So does putting it back. -/
theorem SameBut.enqueueOne (h : s.RqOk (s.rtRqOfSe e)) (hidle : s.groupIdle e = false)
    (h0 : 0 ≤ s.rtSePrio e) (hN : s.rtSePrio e < maxRtPrio) (head : Bool) :
    SameBut (s.rtRqOfSe e) s (s.enqueueRtEntityOne e head) :=
  .of_update (.enqueueOne h hidle h0 hN head) (rtRq_enqueueRtEntityOne h hidle h0 hN head)

/-- Taking an entity off takes it off and no other. -/
theorem onRtRq_dequeueRtEntityOne (h : s.RqOk (s.rtRqOfSe e)) (hon : s.onRtRq e = true) :
    (s.dequeueRtEntityOne e).onRtRq x = (decide (x ≠ e) && s.onRtRq x) := by
  have hs := SameBut.dequeueOne h hon
  by_cases hx : s.rtRqOfSe x = s.rtRqOfSe e
  · rw [onRtRq, hs.rtRqOfSe, hx, rtRq_dequeueRtEntityOne h hon, Function.update_self]
    simp only [RtRq.removed, onRtRq, hx]
    exact h.ok.wf.onList_remove _
  · have hne : x ≠ e := fun hxe => hx (by rw [hxe])
    rw [hs.onRtRq hx]
    simp [hne]

/-- Putting an entity on puts it on and no other. -/
theorem onRtRq_enqueueRtEntityOne (h : s.RqOk (s.rtRqOfSe e)) (hidle : s.groupIdle e = false)
    (h0 : 0 ≤ s.rtSePrio e) (hN : s.rtSePrio e < maxRtPrio) (head : Bool) :
    (s.enqueueRtEntityOne e head).onRtRq x = (decide (x = e) || s.onRtRq x) := by
  have hs := SameBut.enqueueOne h hidle h0 hN head
  by_cases hx : s.rtRqOfSe x = s.rtRqOfSe e
  · rw [onRtRq, hs.rtRqOfSe, hx, rtRq_enqueueRtEntityOne h hidle h0 hN, Function.update_self]
    simp only [RtRq.inserted, onRtRq, hx]
    exact PrioArray.onList_insert h0 hN head
  · have hne : x ≠ e := fun hxe => hx (by rw [hxe])
    rw [hs.onRtRq hx]
    simp [hne]

/-- Taking an entity off keeps every run queue in order. -/
theorem QueuesOk.dequeueOne (h : s.QueuesOk) (hg : s.Hidden (s.rtRqOfSe e))
    (hon : s.onRtRq e = true) : (s.dequeueRtEntityOne e).QueuesOk := by
  have hs := SameBut.dequeueOne (h.rq _) hon
  have hrq := rtRq_dequeueRtEntityOne (h.rq _) hon
  have hok := (h.rq (s.rtRqOfSe e)).ok
  have hself : (s.dequeueRtEntityOne e).rtRq (s.rtRqOfSe e) =
      (s.rtRq (s.rtRqOfSe e)).removed s.rtSePrio s.rtSeBoosted e := by
    rw [hrq, Function.update_self]
  have hleaf : (s.dequeueRtEntityOne e).leafRtRqList =
      if (s.rtRq (s.rtRqOfSe e)).rtNrRunning - 1 = 0 then
        listDelInit (s.rtRqOfSe e) s.leafRtRqList else s.leafRtRqList := by
    rw [dequeueRtEntityOne_eq (h.rq _) hon, leafRtRqList_listDelLeafRtRq, modifyRtRq_self]
    rfl
  refine ⟨fun q => ?_, ?_⟩
  · by_cases hq : q = s.rtRqOfSe e
    · subst hq
      refine RqOk.of_changed hs ?_ (fun i x hx => ?_) ?_
      · rw [hself]
        exact hok.removed hon
      · rw [hself] at hx
        exact (h.rq _).home i x (hok.wf.mem_remove.mp hx).2
      · rw [hself, hleaf]
        have hmem := (h.rq (s.rtRqOfSe e)).leaf
        have hpos := hok.nr_pos hon
        simp only [RtRq.removed]
        split_ifs with hlast
        · simp [mem_listDelInit_iff h.leafNodup, hlast]
        · simpa [hlast] using hmem.mpr hpos.ne'
    · refine (h.rq q).frame hs hq hg ?_
      rw [hleaf]
      split_ifs
      · simp [mem_listDelInit_iff h.leafNodup, hq]
      · rfl
  · rw [hleaf]
    split_ifs
    · exact nodup_listDelInit h.leafNodup _
    · exact h.leafNodup

/-- Putting an entity on keeps every run queue in order. -/
theorem QueuesOk.enqueueOne (h : s.QueuesOk) (hg : s.Hidden (s.rtRqOfSe e))
    (hoff : s.onRtRq e = false) (hidle : s.groupIdle e = false) (h0 : 0 ≤ s.rtSePrio e)
    (hN : s.rtSePrio e < maxRtPrio) (head : Bool) : (s.enqueueRtEntityOne e head).QueuesOk := by
  have hs := SameBut.enqueueOne (h.rq _) hidle h0 hN head
  have hrq := rtRq_enqueueRtEntityOne (h.rq _) hidle h0 hN head
  have hok := (h.rq (s.rtRqOfSe e)).ok
  have hself : (s.enqueueRtEntityOne e head).rtRq (s.rtRqOfSe e) =
      (s.rtRq (s.rtRqOfSe e)).inserted s.rtSePrio s.rtSeBoosted e head := by
    rw [hrq, Function.update_self]
  -- a run queue that was empty goes on the leaf list
  have hleaf : (s.enqueueRtEntityOne e head).leafRtRqList =
      if (s.rtRq (s.rtRqOfSe e)).rtNrRunning = 0 then
        s.rtRqOfSe e :: s.leafRtRqList else s.leafRtRqList := by
    rw [enqueueRtEntityOne_eq (h.rq _) hidle h0 hN, leafRtRqList_startRtBandwidth]
    unfold listAddLeafRtRq
    split_ifs <;> rfl
  have hmem := (h.rq (s.rtRqOfSe e)).leaf
  refine ⟨fun q => ?_, ?_⟩
  · by_cases hq : q = s.rtRqOfSe e
    · subst hq
      refine RqOk.of_changed hs ?_ (fun i x hx => ?_) ?_
      · rw [hself]
        exact hok.inserted hoff h0 hN head
      · rw [hself] at hx
        obtain ⟨-, rfl⟩ | hx := PrioArray.mem_insert.mp hx
        · rfl
        · exact (h.rq _).home i x hx
      · rw [hself, hleaf]
        have hnonneg := hok.nr_nonneg
        simp only [RtRq.inserted]
        split_ifs with hempty
        · simp [hempty]
        · have hne : (s.rtRq (s.rtRqOfSe e)).rtNrRunning + 1 ≠ 0 := by omega
          simpa [hne] using hmem.mpr hempty
    · -- other run queues stay as they are
      refine (h.rq q).frame hs hq hg ?_
      rw [hleaf]
      split_ifs
      · simp [hq]
      · rfl
  · rw [hleaf]
    split_ifs with hempty
    · exact List.nodup_cons.mpr ⟨fun hin => hmem.mp hin hempty, h.leafNodup⟩
    · exact h.leafNodup

end RtState

end WrrSched
