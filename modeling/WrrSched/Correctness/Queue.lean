import Mathlib.Algebra.Group.Action.Defs
import Mathlib.Algebra.Order.BigOperators.Group.List
import WrrSched.Correctness.TaskStep

/-!
# The WRR queue and its counters

`QueueInv s on` is the representation invariant of the run queue: the active list holds exactly the
WRR tasks among those flagged by `on`, each once, and the four counters agree with the tasks they
count, modulo `2 ^ 32`. Between operations the flag is `on_rq`; in the middle of an operation, while
a task is off its queue, it is `on_rq` with that task cleared.

- `QueueInv.enqueueTask`, `QueueInv.dequeueTask`: queueing moves the flag of one task;
- `QueueInv.changeQueued`: a change of a task between the two keeps the flag.
-/

namespace WrrSched

/-- `on_rq` of each task. -/
def State.onRq (s : State) : TaskPtr → Bool := fun p => (s.task p).onRq

/-- The sum of the weights of the tasks in the WRR queue. -/
def State.weightSum (s : State) : ℕ :=
  (s.rq.active.map fun p => (s.task p).wrr.weight.toNat).sum

/-- The run queue counts and lists the tasks flagged by `on`. -/
structure QueueInv (s : State) (on : TaskPtr → Bool) : Prop where
  nodup : s.rq.active.Nodup
  mem_iff : ∀ p, p ∈ s.rq.active ↔ on p = true ∧ (s.task p).schedClass = .wrr
  live : ∀ p, on p = true → p ∈ s.live
  weight_le : ∀ p ∈ s.rq.active, (s.task p).wrr.weight.toNat ≤ maxWeight
  wrrNrRunning : s.rq.wrrNrRunning = UInt32.ofNat s.rq.active.length
  totalWeight : s.rq.totalWeight = UInt32.ofNat s.weightSum
  nrRunning : s.rq.nrRunning = UInt32.ofNat (s.live.filter fun p => on p).card
  hNrRunning : s.rq.hNrRunning =
    UInt32.ofNat (s.live.filter fun p => on p && decide ((s.task p).schedClass = .fair)).card
  wrapped : s.live.card < 2 ^ 25 → s.rq.wrapped = false

/-! ## List primitives -/

theorem listMove_perm {α : Type*} [DecidableEq α] {p : α} {l : List α} (h : p ∉ l) :
    (listMove p l).Perm (p :: l) := by
  rw [listMove, List.erase_of_not_mem h]

theorem listMoveTail_perm {α : Type*} [DecidableEq α] {p : α} {l : List α} (h : p ∉ l) :
    (listMoveTail p l).Perm (p :: l) := by
  rw [listMoveTail, List.erase_of_not_mem h]
  exact List.perm_append_singleton p l

/-- Moving a queued task to the tail permutes the queue. -/
theorem listMoveTail_perm_of_mem {α : Type*} [DecidableEq α] {p : α} {l : List α} (h : p ∈ l) :
    (listMoveTail p l).Perm l :=
  (List.perm_append_singleton p _).trans (List.perm_cons_erase h).symm

/-- The node after `p` is the one that follows it in the sequence. -/
theorem listNext_append {α : Type*} [DecidableEq α] {p : α} {l₁ l₂ : List α} (h : p ∉ l₁) :
    listNext p (l₁ ++ p :: l₂) = l₂.head? := by
  unfold listNext
  rw [List.dropWhile_append_of_pos]
  · simp
  · intro q hq
    have hne : q ≠ p := by
      rintro rfl
      exact h hq
    simpa using hne

theorem listPrev_append {α : Type*} [DecidableEq α] {p : α} {l₁ l₂ : List α} (h : p ∉ l₂) :
    listPrev p (l₁ ++ p :: l₂) = l₁.getLast? := by
  have hreverse : (l₁ ++ p :: l₂).reverse = l₂.reverse ++ p :: l₁.reverse := by simp
  rw [listPrev, hreverse, listNext_append (fun hp => h (List.mem_reverse.mp hp)),
    List.head?_reverse]

namespace QueueInv

variable {cfg : Config} {env : Env} {s s' : State} {on : TaskPtr → Bool} {p : TaskPtr}

/-! ## Bounds -/

theorem notMem (h : QueueInv s on) (hon : on p = false) : p ∉ s.rq.active := fun hmem => by
  simp [((h.mem_iff p).mp hmem).1] at hon

theorem length_le (h : QueueInv s on) :
    s.rq.active.length ≤ (s.live.filter fun p => on p).card := by
  rw [← List.toFinset_card_of_nodup h.nodup]
  refine Finset.card_le_card fun p hp => ?_
  have hon := ((h.mem_iff p).mp (List.mem_toFinset.mp hp)).1
  exact Finset.mem_filter.mpr ⟨h.live p hon, hon⟩

theorem card_filter_le (_h : QueueInv s on) : (s.live.filter fun p => on p).card ≤ s.live.card :=
  Finset.card_filter_le _ _

theorem weightSum_le (h : QueueInv s on) : s.weightSum ≤ maxWeight * s.rq.active.length := by
  have hle := List.sum_le_card_nsmul
    (s.rq.active.map fun p => (s.task p).wrr.weight.toNat) maxWeight (by
      intro n hn
      obtain ⟨p, hp, rfl⟩ := List.mem_map.mp hn
      exact h.weight_le p hp)
  rw [List.length_map, smul_eq_mul, Nat.mul_comm] at hle
  exact hle

/-- The counters of tasks never wrap, there being fewer tasks than addresses. -/
theorem toNat_wrrNrRunning (h : QueueInv s on) :
    s.rq.wrrNrRunning.toNat = s.rq.active.length := by
  have hlt := TaskPtr.card_lt s.live
  rw [h.wrrNrRunning, Counter.toNat_ofNat_of_lt]
  exact (h.length_le.trans h.card_filter_le).trans_lt hlt

theorem toNat_nrRunning (h : QueueInv s on) :
    s.rq.nrRunning.toNat = (s.live.filter fun p => on p).card := by
  rw [h.nrRunning, Counter.toNat_ofNat_of_lt]
  exact h.card_filter_le.trans_lt (TaskPtr.card_lt s.live)

theorem toNat_hNrRunning (h : QueueInv s on) :
    s.rq.hNrRunning.toNat =
      (s.live.filter fun p => on p && decide ((s.task p).schedClass = .fair)).card := by
  rw [h.hNrRunning, Counter.toNat_ofNat_of_lt]
  exact (Finset.card_filter_le _ _).trans_lt (TaskPtr.card_lt s.live)

theorem toNat_totalWeight (h : QueueInv s on) (hlive : s.live.card < 2 ^ 25) :
    s.rq.totalWeight.toNat = s.weightSum := by
  have hsum := h.weightSum_le
  have hlen := h.length_le.trans h.card_filter_le
  rw [h.totalWeight, Counter.toNat_ofNat_of_lt]
  unfold maxWeight at hsum
  omega

/-! ## Steps that leave the queue alone -/

/-- The invariant only looks at the run queue and at class and weight of the flagged tasks. -/
theorem congr (h : QueueInv s on) (hrq : s'.rq = s.rq) (hlive : s'.live = s.live)
    (htask : ∀ q, on q = true → (s'.task q).schedClass = (s.task q).schedClass ∧
      (s'.task q).wrr.weight = (s.task q).wrr.weight) : QueueInv s' on where
  nodup := by rw [hrq]; exact h.nodup
  mem_iff q := by
    rw [hrq, h.mem_iff]
    constructor <;> rintro ⟨hon, hc⟩
    · exact ⟨hon, (htask q hon).1.trans hc⟩
    · exact ⟨hon, (htask q hon).1.symm.trans hc⟩
  live := by rw [hlive]; exact h.live
  weight_le q hq := by
    rw [hrq] at hq
    rw [(htask q ((h.mem_iff q).mp hq).1).2]
    exact h.weight_le q hq
  wrrNrRunning := by rw [hrq]; exact h.wrrNrRunning
  totalWeight := by
    have hsum : s'.weightSum = s.weightSum := by
      unfold State.weightSum
      rw [hrq]
      congr 1
      refine List.map_congr_left fun q hq => ?_
      rw [(htask q ((h.mem_iff q).mp hq).1).2]
    rw [hrq, hsum]
    exact h.totalWeight
  nrRunning := by rw [hrq, hlive]; exact h.nrRunning
  hNrRunning := by
    rw [hrq, hlive, h.hNrRunning, Counter.card_filter_congr]
    intro q _
    cases hq : on q with
    | true => rw [(htask q hq).1]
    | false => rfl
  wrapped := by rw [hrq, hlive]; exact h.wrapped

theorem of_quiet (h : QueueInv s on) (hq : Quiet s s') : QueueInv s' on :=
  h.congr hq.rq hq.live fun q _ => by simp [hq.task]

/-- A task that is off its queue may change in any way. -/
theorem modifyTask (h : QueueInv s on) (hon : on p = false) (f : TaskStruct → TaskStruct) :
    QueueInv (s.modifyTask p f) on := by
  refine h.congr rfl rfl fun q hq => ?_
  have hne : q ≠ p := by rintro rfl; simp [hon] at hq
  rw [State.modifyTask_task, Function.update_of_ne hne]
  exact ⟨rfl, rfl⟩

/-- A new task that is not queued does not matter. -/
theorem insert_live {q : TaskPtr} (h : QueueInv s on) (hon : on q = false) (hrq : s'.rq = s.rq)
    (hlive : s'.live = insert q s.live) (htask : ∀ r, r ≠ q → s'.task r = s.task r) :
    QueueInv s' on := by
  have hfilter (f : TaskPtr → Bool) (hf : f q = false) :
      ((insert q s.live).filter fun r => f r) = s.live.filter fun r => f r := by
    rw [Finset.filter_insert, if_neg (by simp [hf])]
  have hne (r : TaskPtr) (hr : on r = true) : s'.task r = s.task r :=
    htask r (by rintro rfl; simp [hon] at hr)
  -- first the step without the new task, then the tasks that are counted
  have hs : QueueInv { s' with live := s.live } on :=
    h.congr hrq rfl fun r hr => by simp [hne r hr]
  refine { hs with live := ?_, nrRunning := ?_, hNrRunning := ?_, wrapped := ?_ }
  · intro r hr
    rw [hlive]
    exact Finset.mem_insert_of_mem (h.live r hr)
  · rw [hlive, hfilter _ hon]
    exact hs.nrRunning
  · rw [hlive, hfilter _ (by simp [hon])]
    exact hs.hNrRunning
  · intro hlt
    refine hs.wrapped (lt_of_le_of_lt (Finset.card_le_card ?_) hlt)
    rw [hlive]
    exact Finset.subset_insert _ _

/-- Permuting the queue keeps the invariant. -/
theorem perm (h : QueueInv s on) {l : List TaskPtr} (hl : l.Perm s.rq.active) :
    QueueInv { s with rq := { s.rq with active := l } } on where
  nodup := hl.nodup_iff.mpr h.nodup
  mem_iff q := by rw [← h.mem_iff q]; exact hl.mem_iff
  live := h.live
  weight_le q hq := h.weight_le q (hl.mem_iff.mp hq)
  wrrNrRunning := by
    rw [hl.length_eq]
    exact h.wrrNrRunning
  totalWeight := by
    have hsum : State.weightSum { s with rq := { s.rq with active := l } } = s.weightSum :=
      (hl.map _).sum_eq
    rw [hsum]
    exact h.totalWeight
  nrRunning := h.nrRunning
  hNrRunning := h.hNrRunning
  wrapped := h.wrapped

/-! ## Queueing -/

/-- Flagging or unflagging a task that exists. -/
private theorem live_update (h : QueueInv s on) (hp : p ∈ s.live) {b : Bool} {q : TaskPtr}
    (hq : Function.update on p b q = true) : q ∈ s.live := by
  by_cases hqp : q = p
  · rw [hqp]
    exact hp
  · rw [Function.update_of_ne hqp] at hq
    exact h.live q hq

/-- A task of another class is not in the list, flagged or not. -/
private theorem mem_iff_update (h : QueueInv s on) (hwrr : (s.task p).schedClass ≠ .wrr) (b : Bool)
    (q : TaskPtr) :
    q ∈ s.rq.active ↔ Function.update on p b q = true ∧ (s.task q).schedClass = .wrr := by
  rw [h.mem_iff]
  by_cases hq : q = p
  · simp [hq, hwrr]
  · simp [hq]

/-- The state of a WRR task does not matter to the fair ones. -/
private theorem hNrRunning_update (h : QueueInv s on) (hfair : (s.task p).schedClass ≠ .fair)
    (b : Bool) : s.rq.hNrRunning =
      UInt32.ofNat (s.live.filter fun q =>
        Function.update on p b q && decide ((s.task q).schedClass = .fair)).card := by
  rw [h.hNrRunning, Counter.card_filter_congr]
  intro q _
  by_cases hq : q = p
  · simp [hq, hfair]
  · simp [hq]

/-- Counting one more flagged task. -/
private theorem card_insert (hon : on p = false) (hp : p ∈ s.live) :
    (s.live.filter fun q => Function.update on p true q).card =
      (s.live.filter fun q => on q).card + 1 :=
  Counter.card_filter_set hp hon (by simp) fun q hq => by simp [hq]

/-- Linking a WRR task that is off its queue, at either end. -/
theorem insert_wrr (h : QueueInv s on) (hon : on p = false) (hp : p ∈ s.live)
    (hclass : (s.task p).schedClass = .wrr)
    (hweight : (s.task p).wrr.weight.toNat ≤ maxWeight) {l : List TaskPtr}
    (hl : l.Perm (p :: s.rq.active)) :
    QueueInv (({ s with rq := { s.rq with active := l } }.incWrrTasks p).incNrRunning)
      (Function.update on p true) := by
  have hnot := h.notMem hon
  have hcard := card_insert hon hp
  have hone : (1 : UInt32).toNat = 1 := rfl
  have hlen : l.length = s.rq.active.length + 1 := by rw [hl.length_eq, List.length_cons]
  -- the new weight is added to the sum, wherever in the list the task is linked
  have hsum : (l.map fun q => (s.task q).wrr.weight.toNat).sum =
      s.weightSum + (s.task p).wrr.weight.toNat := by
    rw [(hl.map _).sum_eq, List.map_cons, List.sum_cons, Nat.add_comm]
    rfl
  constructor
  case nodup => exact hl.nodup_iff.mpr (List.nodup_cons.mpr ⟨hnot, h.nodup⟩)
  case mem_iff =>
    intro q
    show q ∈ l ↔ _ ∧ (s.task q).schedClass = .wrr
    rw [hl.mem_iff, List.mem_cons, h.mem_iff]
    by_cases hq : q = p
    · simp [hq, hclass]
    · simp [hq]
  case live => exact fun q hq => h.live_update hp hq
  case weight_le =>
    intro q hq
    rcases List.mem_cons.mp (hl.mem_iff.mp hq) with rfl | hq
    · exact hweight
    · exact h.weight_le q hq
  case wrrNrRunning =>
    show s.rq.wrrNrRunning + 1 = UInt32.ofNat l.length
    rw [h.wrrNrRunning, Counter.ofNat_add_word, hone, hlen]
  case totalWeight =>
    show s.rq.totalWeight + (s.task p).wrr.weight = UInt32.ofNat _
    rw [h.totalWeight, Counter.ofNat_add_word, ← hsum]
    rfl
  case nrRunning =>
    show s.rq.nrRunning + 1 = UInt32.ofNat (s.live.filter fun q => _).card
    rw [h.nrRunning, Counter.ofNat_add_word, hone, hcard]
  case hNrRunning => exact h.hNrRunning_update (by simp [hclass]) _
  case wrapped =>
    intro (hlt : s.live.card < 2 ^ 25)
    -- with fewer than `2 ^ 25` tasks the weights, at most 99 each, stay below `2 ^ 32`
    have hbound := h.weightSum_le
    have hlen' := h.length_le
    have hcard' : (s.live.filter fun q => on q).card + 1 ≤ s.live.card := by
      rw [← hcard]
      exact Finset.card_filter_le _ _
    unfold maxWeight at hbound hweight
    show (s.rq.wrapped || Counter.addWraps s.rq.totalWeight (s.task p).wrr.weight ||
      Counter.addWraps s.rq.wrrNrRunning 1 || Counter.addWraps s.rq.nrRunning 1) = false
    rw [h.wrapped hlt, h.totalWeight, h.wrrNrRunning, h.nrRunning,
      Counter.addWraps_ofNat_eq_false (by omega), Counter.addWraps_ofNat_eq_false (by omega),
      Counter.addWraps_ofNat_eq_false (by omega)]
    rfl

/-- A task of a class other than WRR is counted by `nr_running` and `h_nr_running` only. -/
private theorem of_other (h : QueueInv s on) (hp : p ∈ s.live)
    (hwrr : (s.task p).schedClass ≠ .wrr) {b wrapped : Bool} {nrRunning hNrRunning : UInt32}
    (hnr : nrRunning = UInt32.ofNat (s.live.filter fun q => Function.update on p b q).card)
    (hhnr : hNrRunning = UInt32.ofNat (s.live.filter fun q =>
      Function.update on p b q && decide ((s.task q).schedClass = .fair)).card)
    (hwrapped : s.live.card < 2 ^ 25 → wrapped = false) :
    QueueInv { s with rq := { s.rq with nrRunning, hNrRunning, wrapped } }
      (Function.update on p b) where
  nodup := h.nodup
  mem_iff := h.mem_iff_update hwrr b
  live _ hq := h.live_update hp hq
  weight_le := h.weight_le
  wrrNrRunning := h.wrrNrRunning
  totalWeight := h.totalWeight
  nrRunning := hnr
  hNrRunning := hhnr
  wrapped := hwrapped

/-- Counting in a task of a class other than WRR. -/
theorem insert_other (h : QueueInv s on) (hon : on p = false) (hp : p ∈ s.live)
    (hwrr : (s.task p).schedClass ≠ .wrr) :
    QueueInv (if (s.task p).schedClass = .fair then s.incHNrRunning.incNrRunning
      else s.incNrRunning) (Function.update on p true) := by
  have hcard := card_insert hon hp
  have hone : (1 : UInt32).toNat = 1 := rfl
  have hstate : (if (s.task p).schedClass = .fair then s.incHNrRunning.incNrRunning
      else s.incNrRunning) = { s with rq := { s.rq with
        nrRunning := s.rq.nrRunning + 1
        hNrRunning := if (s.task p).schedClass = .fair then s.rq.hNrRunning + 1
          else s.rq.hNrRunning
        wrapped := s.rq.wrapped || Counter.addWraps s.rq.nrRunning 1 } } := by
    split <;> rfl
  rw [hstate]
  refine h.of_other hp hwrr ?nrRunning ?hNrRunning ?wrapped
  case nrRunning => rw [h.nrRunning, Counter.ofNat_add_word, hone, hcard]
  case hNrRunning =>
    split
    · next hfair =>
      rw [h.hNrRunning, Counter.ofNat_add_word, hone]
      congr 1
      refine (Counter.card_filter_set hp (by simp [hon]) (by simp [hfair]) fun q hq => ?_).symm
      simp [hq]
    · next hfair => exact h.hNrRunning_update hfair true
  case wrapped =>
    intro hlt
    have hcard' : (s.live.filter fun q => on q).card + 1 ≤ s.live.card := by
      rw [← hcard]
      exact Finset.card_filter_le _ _
    -- the counter was below the number of tasks
    rw [h.wrapped hlt, h.nrRunning, Counter.addWraps_ofNat_eq_false (by omega)]
    rfl

/-- Counting one flagged task less. -/
private theorem card_remove (hon : on p = true) (hp : p ∈ s.live) :
    (s.live.filter fun q => on q).card =
      (s.live.filter fun q => Function.update on p false q).card + 1 :=
  Counter.card_filter_set hp (by simp) hon fun q hq => by simp [hq]

/-- Unlinking a queued WRR task. -/
theorem remove_wrr (h : QueueInv s on) (hon : on p = true)
    (hclass : (s.task p).schedClass = .wrr) :
    QueueInv ((s.dequeueWrrEntity p).decNrRunning) (Function.update on p false) := by
  have hp := h.live p hon
  have hmem : p ∈ s.rq.active := (h.mem_iff p).mpr ⟨hon, hclass⟩
  have hcard := card_remove hon hp
  have hone : (1 : UInt32).toNat = 1 := rfl
  have hperm := List.perm_cons_erase hmem
  -- one task less, and its weight less, in exact numbers
  have hlen : (s.rq.active.erase p).length + 1 = s.rq.active.length := by
    rw [hperm.length_eq, List.length_cons]
  have hsum : ((s.rq.active.erase p).map fun q => (s.task q).wrr.weight.toNat).sum +
      (s.task p).wrr.weight.toNat = s.weightSum := by
    rw [State.weightSum, (hperm.map _).sum_eq, List.map_cons, List.sum_cons, Nat.add_comm]
  constructor
  case nodup => exact h.nodup.erase p
  case mem_iff =>
    intro q
    show q ∈ s.rq.active.erase p ↔ _ ∧ (s.task q).schedClass = .wrr
    rw [h.nodup.mem_erase_iff, h.mem_iff]
    by_cases hq : q = p
    · simp [hq]
    · simp [hq]
  case live => exact fun q hq => h.live_update hp hq
  case weight_le => exact fun q hq => h.weight_le q (List.mem_of_mem_erase hq)
  case wrrNrRunning =>
    -- the counters follow these numbers
    show s.rq.wrrNrRunning - 1 = UInt32.ofNat (s.rq.active.erase p).length
    rw [h.wrrNrRunning, Counter.ofNat_sub_word (by rw [hone]; exact hlen)]
  case totalWeight =>
    show s.rq.totalWeight - (s.task p).wrr.weight = UInt32.ofNat _
    rw [h.totalWeight, Counter.ofNat_sub_word hsum]
    rfl
  case nrRunning =>
    show s.rq.nrRunning - 1 = UInt32.ofNat (s.live.filter fun q => _).card
    rw [h.nrRunning, Counter.ofNat_sub_word (by rw [hone, hcard])]
  case hNrRunning => exact h.hNrRunning_update (by simp [hclass]) _
  case wrapped =>
    intro (hlt : s.live.card < 2 ^ 25)
    -- with fewer than 2 ^ 25 tasks no number reaches a word
    have hbound := h.weightSum_le
    have hlen' := h.length_le
    have hle := h.card_filter_le
    unfold maxWeight at hbound
    show (s.rq.wrapped || Counter.subWraps s.rq.totalWeight (s.task p).wrr.weight ||
      Counter.subWraps s.rq.wrrNrRunning 1 || Counter.subWraps s.rq.nrRunning 1) = false
    rw [h.wrapped hlt, h.totalWeight, h.wrrNrRunning, h.nrRunning,
      Counter.subWraps_ofNat_eq_false (by omega) (by omega),
      Counter.subWraps_ofNat_eq_false (by omega) (by omega),
      Counter.subWraps_ofNat_eq_false (by omega) (by omega)]
    rfl

/-- Counting out a task of a class other than WRR. -/
theorem remove_other (h : QueueInv s on) (hon : on p = true)
    (hwrr : (s.task p).schedClass ≠ .wrr) :
    QueueInv (if (s.task p).schedClass = .fair then s.decHNrRunning.decNrRunning
      else s.decNrRunning) (Function.update on p false) := by
  have hp := h.live p hon
  have hcard := card_remove hon hp
  have hone : (1 : UInt32).toNat = 1 := rfl
  -- the order in which the two counters are written does not matter
  have hstate : (if (s.task p).schedClass = .fair then s.decHNrRunning.decNrRunning
      else s.decNrRunning) = { s with rq := { s.rq with
        nrRunning := s.rq.nrRunning - 1
        hNrRunning := if (s.task p).schedClass = .fair then s.rq.hNrRunning - 1
          else s.rq.hNrRunning
        wrapped := s.rq.wrapped || Counter.subWraps s.rq.nrRunning 1 } } := by
    split <;> rfl
  rw [hstate]
  refine h.of_other hp hwrr ?nrRunning ?hNrRunning ?wrapped
  case nrRunning => rw [h.nrRunning, Counter.ofNat_sub_word (by rw [hone, hcard])]
  case hNrRunning =>
    split
    · next hfair =>
      have hset : (s.live.filter fun q => on q && decide ((s.task q).schedClass = .fair)).card =
          (s.live.filter fun q => Function.update on p false q &&
            decide ((s.task q).schedClass = .fair)).card + 1 :=
        Counter.card_filter_set hp (by simp) (by simp [hon, hfair]) fun q hq => by simp [hq]
      rw [h.hNrRunning, Counter.ofNat_sub_word (by rw [hone, hset])]
    · next hfair => exact h.hNrRunning_update hfair false
  case wrapped =>
    intro hlt
    have hle := h.card_filter_le
    rw [h.wrapped hlt, h.nrRunning, Counter.subWraps_ofNat_eq_false (by omega) (by omega)]
    rfl

/-! ## Enqueue and dequeue -/

variable (cfg env) in
/-- `enqueue_task` on a task that is off its queue sets its flag. -/
theorem enqueueTask (h : QueueInv s on) (hon : on p = false) (hp : p ∈ s.live)
    (hidle : (s.task p).schedClass ≠ .idle) (hweight : (s.task p).wrr.weight.toNat ≤ maxWeight)
    (flags n : ℕ) : QueueInv (s.enqueueTask cfg env p flags n) (Function.update on p true) := by
  have hq := s.updateRqClock_quiet (env.clockDelta n)
  have hclock := h.of_quiet hq
  unfold State.enqueueTask
  rw [← hq.task] at hidle hweight
  rw [← hq.live] at hp
  dsimp only
  generalize s.updateRqClock (env.clockDelta n) = s at hidle hweight hp hclock
  split
  · next hwrr =>
    -- the weight and the slice are stored before the task is linked
    let s' := (s.updateWeight p).setTimeSlice p
      (((s.updateWeight p).task p).wrr.weight * cfg.wrrWeightUnit)
    have hentity := s.enqueueWrrEntity_task cfg p false
    have htask : s'.task p = (s.task p).enqueueWrr cfg (s.group (s.task p).schedTaskGroup) :=
      (congrFun hentity p).trans (Function.update_self _ _ _)
    have hs' : QueueInv s' on := by
      refine hclock.congr rfl rfl fun q hq => ?_
      have hne : q ≠ p := by rintro rfl; simp [hon] at hq
      have hq' : s'.task q = s.task q :=
        (congrFun hentity q).trans (Function.update_of_ne hne _ _)
      simp [hq']
    have hlist (head : Bool) :
        (if head then listMove p s'.rq.active else listMoveTail p s'.rq.active).Perm
          (p :: s'.rq.active) := by
      cases head
      · exact listMoveTail_perm (hs'.notMem hon)
      · exact listMove_perm (hs'.notMem hon)
    refine hs'.insert_wrr hon hp ?_ ?_ (hlist (decide (flags &&& enqueueHead ≠ 0)))
    · rw [htask]
      exact hwrr
    · rw [htask]
      exact TaskStruct.enqueueWrr_weight_le cfg _ hweight
  · next hother => simpa [hother] using hclock.insert_other hon hp (by simp [hother])
  · next hother => simpa [hother] using hclock.insert_other hon hp (by simp [hother])
  · next hother => simpa [hother] using hclock.insert_other hon hp (by simp [hother])
  · next hother => exact absurd hother hidle

variable (env) in
/-- `dequeue_task` on a queued task clears its flag. -/
theorem dequeueTask (h : QueueInv s on) (hon : on p = true)
    (hidle : (s.task p).schedClass ≠ .idle) (n : ℕ) :
    QueueInv (s.dequeueTask env p n) (Function.update on p false) := by
  have hq := s.updateRqClock_quiet (env.clockDelta n)
  have hclock := h.of_quiet hq
  unfold State.dequeueTask
  rw [← hq.task] at hidle
  dsimp only
  generalize s.updateRqClock (env.clockDelta n) = s at hidle hclock
  split
  · next hwrr =>
    have hcurr := s.updateCurrWrr_quiet
    exact (hclock.of_quiet hcurr).remove_wrr hon (by rw [hcurr.task]; exact hwrr)
  · next hother =>
    have hcurr := s.updateCurrRt_quiet env
    have hrt := (hclock.of_quiet hcurr).remove_other hon (by rw [hcurr.task, hother]; simp)
    rw [hcurr.task, hother] at hrt
    exact hrt
  · next hother => simpa [hother] using hclock.remove_other hon (by simp [hother])
  · next hother => simpa [hother] using hclock.remove_other hon (by simp [hother])
  · next hother => exact absurd hother hidle

/-! ## Changes of queued tasks

From here on the flag is `on_rq`. -/

/-- Storing fields other than `on_rq`, class and weight. -/
theorem modify_fields (h : QueueInv s s.onRq) {f : TaskStruct → TaskStruct}
    (honRq : (f (s.task p)).onRq = (s.task p).onRq)
    (hclass : (f (s.task p)).schedClass = (s.task p).schedClass)
    (hweight : (f (s.task p)).wrr.weight = (s.task p).wrr.weight) :
    QueueInv (s.modifyTask p f) (s.modifyTask p f).onRq := by
  have hsame : (s.modifyTask p f).onRq = s.onRq := by
    funext q
    by_cases hq : q = p
    · simp [State.onRq, State.modifyTask_task, hq, honRq]
    · simp [State.onRq, State.modifyTask_task, hq]
  rw [hsame]
  refine h.congr rfl rfl fun q _ => ?_
  by_cases hq : q = p
  · simp [State.modifyTask_task, hq, hclass, hweight]
  · simp [State.modifyTask_task, hq]

variable (cfg env) in
/-- Enqueueing a task and setting its `on_rq`. -/
theorem activate (h : QueueInv s s.onRq) (hon : (s.task p).onRq = false) (hp : p ∈ s.live)
    (hidle : (s.task p).schedClass ≠ .idle) (hweight : (s.task p).wrr.weight.toNat ≤ maxWeight)
    (flags n : ℕ) {f : TaskStruct → TaskStruct} (honRq : ∀ t, (f t).onRq = true)
    (hclass : ∀ t, (f t).schedClass = t.schedClass) (hwrr : ∀ t, (f t).wrr = t.wrr) :
    QueueInv ((s.enqueueTask cfg env p flags n).modifyTask p f)
      ((s.enqueueTask cfg env p flags n).modifyTask p f).onRq := by
  have henq := h.enqueueTask cfg env hon hp hidle hweight flags n
  have hflag : ((s.enqueueTask cfg env p flags n).modifyTask p f).onRq =
      Function.update s.onRq p true := by
    funext q
    by_cases hq : q = p
    · simp [State.onRq, State.modifyTask_task, hq, honRq]
    · simp [State.onRq, State.modifyTask_task, State.enqueueTask_task, hq]
  rw [hflag]
  refine henq.congr rfl rfl fun q _ => ?_
  by_cases hq : q = p
  · simp [State.modifyTask_task, hq, hclass, hwrr]
  · simp [State.modifyTask_task, hq]

variable (env) in
/-- Taking a queued task off its queue and clearing its `on_rq`. -/
theorem deactivate (h : QueueInv s s.onRq) (hon : (s.task p).onRq = true)
    (hidle : (s.task p).schedClass ≠ .idle) (n : ℕ) :
    QueueInv ((s.dequeueTask env p n).modifyTask p fun t => { t with onRq := false })
      ((s.dequeueTask env p n).modifyTask p fun t => { t with onRq := false }).onRq := by
  have hdeq := h.dequeueTask env hon hidle n
  have hflag : ((s.dequeueTask env p n).modifyTask p fun t => { t with onRq := false }).onRq =
      Function.update s.onRq p false := by
    funext q
    by_cases hq : q = p
    · simp [State.onRq, State.modifyTask_task, hq]
    · simp [State.onRq, State.modifyTask_task, State.dequeueTask_task, hq]
  rw [hflag]
  exact hdeq.modifyTask (by simp) _

variable (cfg env) in
/-- A task is taken off the run queue, changed and put back with the class and the weight the change
has given it. -/
theorem changeQueued (h : QueueInv s s.onRq) (hp : p ∈ s.live)
    (hidle : (s.task p).schedClass ≠ .idle) (change : TaskStruct → TaskStruct)
    (honRq : (change (s.task p)).onRq = (s.task p).onRq)
    (hidle' : (change (s.task p)).schedClass ≠ .idle)
    (hweight : (change (s.task p)).wrr.weight.toNat ≤ maxWeight) (running : Bool) (flags : ℕ) :
    QueueInv (s.changeQueued cfg env p running flags change)
      (s.changeQueued cfg env p running flags change).onRq := by
  have hflag : (s.changeQueued cfg env p running flags change).onRq = s.onRq := by
    funext q
    by_cases hq : q = p
    · rw [State.onRq, State.changeQueued_task, hq, Function.update_self, TaskStruct.requeued_eq]
      exact honRq
    · simp [State.onRq, State.changeQueued_task, hq]
  rw [hflag, State.changeQueued_eq]
  -- the hooks before and after the change do not touch the queue
  have hput (t : State) {on : TaskPtr → Bool} (ht : QueueInv t on) :
      QueueInv (if running then t.classPutPrevTask env p else t) on := by
    split
    · exact ht.of_quiet (t.classPutPrevTask_quiet env p)
    · exact ht
  have hset (t : State) {on : TaskPtr → Bool} (ht : QueueInv t on) :
      QueueInv (if running then t.setCurrTask p else t) on := by
    split
    · exact ht.of_quiet (t.setCurrTask_quiet p)
    · exact ht
  cases hon : (s.task p).onRq with
  | true =>
    have hoff : QueueInv (s.changed env p running change) (Function.update s.onRq p false) := by
      unfold State.changed State.takenOff
      rw [if_pos hon]
      exact hset _ ((hput _ (h.dequeueTask env hon hidle 0)).modifyTask (by simp) change)
    have htask := s.changed_task env p running change
    have henq := hoff.enqueueTask cfg env (p := p) (by simp)
      (by rw [(s.changed_frame env p running change).live]; exact hp)
      (by rw [htask, Function.update_self]; exact hidle')
      (by rw [htask, Function.update_self]; exact hweight) flags 1
    -- `on_rq` itself is not written: the flag follows the dequeue and the enqueue
    have hback : Function.update (Function.update s.onRq p false) p true = s.onRq := by
      rw [Function.update_idem, ← hon]
      exact Function.update_eq_self p s.onRq
    rw [hback] at henq
    simpa using henq
  | false =>
    -- a task that is not queued may change in any way
    have htaken : s.takenOff env p running =
        if running then s.classPutPrevTask env p else s := by
      simp [State.takenOff, hon]
    rw [if_neg (by simp), State.changed, htaken]
    exact hset _ ((hput _ h).modifyTask hon change)

end QueueInv

end WrrSched
