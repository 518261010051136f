import WrrSched.Correctness.Order
import WrrSched.Model.RunList

/-!
# The pointers of the WRR list

The rest of the model takes the WRR list for a sequence of tasks. `RunList.Refines` says that the
pointers in memory are those of the ring that this sequence stands for.

- `Refines.requeueWrrEntity`, `Refines.dequeueWrrEntity`: one call keeps the two in step, also when
  `requeue_wrr_entity` inserts an entity that is on no list;
- `run_list_refines`: after any calls, the ring is the sequence, and the tests of the source on
  pointers say what they are meant to say;
- `Refines.neighbours`: the neighbours that the model reads off the sequence are those in memory, so
  that its `task_tick_wrr` decides as the source does;
- `run_refines`: the same for the scheduler as a whole, in every state of every run.
-/

namespace WrrSched

variable {cfg : Config} {rule : Rule} {m : Links ListHead} {live : Finset TaskPtr}
  {active : List TaskPtr} {p : TaskPtr}

/-- Different tasks have different nodes. -/
theorem ListHead.runList_injective : Function.Injective ListHead.runList :=
  fun _ _ h => ListHead.runList.inj h

/-- The node of a task, or the list head for `none`. -/
def ListHead.ofOption : Option TaskPtr → ListHead
  | none => .active
  | some p => .runList p

/-- No task has the list head as its node. -/
theorem ListHead.ofOption_injective : Function.Injective ListHead.ofOption := by
  rintro (_ | p) (_ | q) h
  · rfl
  · cases h
  · cases h
  · exact congrArg some (ListHead.runList.inj h)

namespace RunList

/-! ## The refinement -/

/-- The memory holds the WRR list `active`, and the entities of the other tasks in `live` point to
themselves. -/
def Refines (m : Links ListHead) (live : Finset TaskPtr) (active : List TaskPtr) : Prop :=
  m.Holds .active (ListHead.runList '' live) (active.map .runList)

/-- The nodes of the living tasks, as a set. -/
theorem runList_mem_entities (live : Finset TaskPtr) (p : TaskPtr) :
    ListHead.runList p ∈ ListHead.runList '' (live : Set TaskPtr) ↔ p ∈ live := by
  rw [ListHead.runList_injective.mem_set_image]
  exact Finset.mem_coe

/-- The nodes of the queued tasks, as a list. -/
theorem runList_mem_map (active : List TaskPtr) (p : TaskPtr) :
    ListHead.runList p ∈ active.map ListHead.runList ↔ p ∈ active :=
  List.mem_map_of_injective ListHead.runList_injective

/-- At boot the ring is the list head alone. -/
theorem refines_boot (m : Links ListHead) (idle : TaskPtr) : Refines (boot m idle) {idle} [] := by
  have hboot := (Links.Holds.empty m ListHead.active).initListHead
    (Set.notMem_empty (ListHead.runList idle)) (by simp)
  have hlive : ListHead.runList '' (({idle} : Finset TaskPtr) : Set TaskPtr) =
      insert (.runList idle) ∅ := by simp
  unfold Refines
  rw [hlive]
  exact hboot

namespace Refines

/-! ### Calls -/

/-- `sched_fork` links the node of the child to itself. -/
theorem schedFork (hm : Refines m live active) (hp : p ∉ live) :
    Refines (schedFork m p) (insert p live) active := by
  unfold Refines
  rw [Finset.coe_insert, Set.image_insert_eq]
  apply Links.Holds.initListHead hm
  · rwa [runList_mem_entities]
  · simp

/-- `requeue_wrr_entity` moves the node, or inserts the node of a task that is on no list. -/
theorem requeueWrrEntity (hm : Refines m live active) (hp : p ∈ live) (head : Bool) :
    Refines (requeueWrrEntity m p head) live
      (if head then listMove p active else listMoveTail p active) := by
  have hnode := (runList_mem_entities live p).mpr hp
  have herase := List.map_erase ListHead.runList_injective (a := p) active
  cases head with
  | true =>
    have hmove := Links.Holds.listMove hm hnode
    rw [← herase] at hmove
    exact hmove
  | false =>
    have hmove := Links.Holds.listMoveTail hm hnode
    rw [← herase, ← List.map_singleton, ← List.map_append] at hmove
    exact hmove

/-- `dequeue_wrr_entity` unlinks the node. -/
theorem dequeueWrrEntity (hm : Refines m live active) (hp : p ∈ live) :
    Refines (dequeueWrrEntity m p) live (listDelInit p active) := by
  have hdel := Links.Holds.listDelInit hm ((runList_mem_entities live p).mpr hp)
  rw [← List.map_erase ListHead.runList_injective] at hdel
  exact hdel

/-! ### What can be read off the pointers -/

/-- No task is queued twice. -/
theorem nodup (hm : Refines m live active) : active.Nodup :=
  (List.nodup_cons.mp hm.ring.nodup).2.of_map ListHead.runList

/-- Only living tasks are queued. -/
theorem mem_live (hm : Refines m live active) (hp : p ∈ active) : p ∈ live :=
  (runList_mem_entities live p).mp (hm.subset _ (List.mem_map_of_mem hp))

/-- `on_wrr_rq` tells whether a task is queued. -/
theorem onWrrRq_iff (hm : Refines m live active) (hp : p ∈ live) :
    onWrrRq m p = true ↔ p ∈ active := by
  have hempty := hm.listEmpty_iff ((runList_mem_entities live p).mpr hp)
  rw [runList_mem_map] at hempty
  rw [onWrrRq, Bool.not_eq_true', ← Bool.not_eq_true, hempty, not_not]

/-- The test of `task_tick_wrr` tells whether another task is queued. -/
theorem neighboursDiffer_iff (hm : Refines m live active) (hp : p ∈ active) :
    neighboursDiffer m p = true ↔ 2 ≤ active.length := by
  have hdiffer := hm.prev_ne_next_iff ((runList_mem_map active p).mpr hp)
  rw [List.length_map] at hdiffer
  rw [neighboursDiffer, decide_eq_true_iff, hdiffer]

/-- `pick_next_wrr_entity` returns the first task of the list, or fails on an empty one. -/
theorem pickNextWrrEntity_eq (hm : Refines m live active) :
    pickNextWrrEntity m = .ofOption active.head? := by
  have hnext := hm.ring.next_eq
  unfold pickNextWrrEntity Links.listFirstEntry
  rw [hnext]
  cases active <;> rfl

/-- The neighbours that the model reads off the sequence are those in memory. -/
theorem neighbours (hm : Refines m live active) (hp : p ∈ active) :
    m.next (.runList p) = .ofOption (listNext p active) ∧
      m.prev (.runList p) = .ofOption (listPrev p active) := by
  have hnodup := hm.nodup
  obtain ⟨l₁, l₂, rfl⟩ := List.append_of_mem hp
  obtain ⟨-, hnodup₂, hdisjoint⟩ := List.nodup_append.mp hnodup
  have hp₁ : p ∉ l₁ := fun hmem => hdisjoint p hmem p List.mem_cons_self rfl
  have hring := hm.ring
  rw [List.map_append, List.map_cons] at hring
  -- the ring as it is seen from the node of the task
  have hnext := hring.rotate.next_eq
  have hprev := hring.rotate.prev_eq
  rw [listNext_append hp₁, listPrev_append (List.nodup_cons.mp hnodup₂).1, hnext, hprev]
  constructor
  · cases l₂ <;> rfl
  · rcases List.eq_nil_or_concat l₁ with rfl | ⟨l, q, rfl⟩
    · simp [ListHead.ofOption]
    · simp [ListHead.ofOption]

/-- So `task_tick_wrr` of the model decides as the source does. -/
theorem neighboursDiffer_iff_listPrev_ne (hm : Refines m live active) (hp : p ∈ active) :
    neighboursDiffer m p = true ↔ listPrev p active ≠ listNext p active := by
  obtain ⟨hnext, hprev⟩ := hm.neighbours hp
  rw [neighboursDiffer, decide_eq_true_iff, hnext, hprev, Ne,
    ListHead.ofOption_injective.eq_iff]

end Refines

end RunList

/-! ## Any calls -/

/-- What one call keeps. -/
theorem LinkedState.refines_next {x : LinkedState} {call : RunList.Call}
    (hx : RunList.Refines x.links x.cpu.live x.cpu.rq.active) (hen : x.Enabled call) :
    RunList.Refines (x.next cfg call).links (x.next cfg call).cpu.live
      (x.next cfg call).cpu.rq.active := by
  cases call with
  | schedFork child mm env => exact hx.schedFork hen
  -- apart from the list, `enqueue_wrr_entity` assigns a weight, a slice and counters
  | enqueueWrrEntity p head => exact hx.requeueWrrEntity hen.1 head
  | dequeueWrrEntity p => exact hx.dequeueWrrEntity (hx.mem_live hen)
  | requeueWrrEntity p head => exact hx.requeueWrrEntity (hx.mem_live hen) head

/-- A run with one more call. -/
theorem LinkedState.reachable_next {x : LinkedState} {call : RunList.Call}
    (hx : (runListSystem cfg).Reachable x) (hen : x.Enabled call) :
    (runListSystem cfg).Reachable (x.next cfg call) :=
  hx.step (i := call) hen

/-- The ring and the list after any calls. -/
theorem reachable_refines {x : LinkedState} (hx : (runListSystem cfg).Reachable x) :
    RunList.Refines x.links x.cpu.live x.cpu.rq.active := by
  refine hx.invariant (I := fun x => RunList.Refines x.links x.cpu.live x.cpu.rq.active) ?_
    fun x call ih hen => LinkedState.refines_next ih hen
  rintro x ⟨m, idle, tg, group, clockTask, rfl⟩
  exact RunList.refines_boot m idle

/-- The pointers of the WRR list after any calls that enqueue entities that are not on the list and
dequeue or requeue entities that are, for any number of tasks. The pointers of the list head and of
the entities are inverse to each other. From the list head, `next` leads around one cycle, through
exactly the queued entities in the order of the list. An entity that is not queued points to itself.
So `on_wrr_rq` tells whether an entity is queued, the two neighbours of a queued entity differ
exactly if at least two are queued, and the first entry is the head of the list. -/
theorem run_list_refines (cfg : Config) {x : LinkedState} (hx : (runListSystem cfg).Reachable x) :
    let m := x.links
    let active := x.cpu.rq.active
    (∀ n, (n = .active ∨ ∃ p ∈ x.cpu.live, n = .runList p) →
      m.prev (m.next n) = n ∧ m.next (m.prev n) = n) ∧
    (active.Nodup ∧ (∀ p ∈ active, p ∈ x.cpu.live) ∧
      List.iterate m.next .active (active.length + 1) = .active :: active.map .runList ∧
      m.next^[active.length + 1] .active = .active ∧
      ∀ n, (∃ k, m.next^[k] .active = n) ↔ n = .active ∨ ∃ p ∈ active, n = .runList p) ∧
    (∀ p ∈ x.cpu.live, p ∉ active →
      m.next (.runList p) = .runList p ∧ m.prev (.runList p) = .runList p) ∧
    (∀ p ∈ x.cpu.live, RunList.onWrrRq m p = true ↔ p ∈ active) ∧
    (∀ p ∈ active, RunList.neighboursDiffer m p = true ↔ 2 ≤ active.length) ∧
    RunList.pickNextWrrEntity m = .ofOption active.head? := by
  intro m active
  have hm : RunList.Refines m x.cpu.live active := reachable_refines hx
  have hentity {p : TaskPtr} := RunList.runList_mem_entities x.cpu.live p
  -- one way round the ring
  obtain ⟨hcycle, hback⟩ := hm.ring.iterate_next
  rw [List.length_map] at hcycle hback
  refine ⟨?_, ⟨hm.nodup, fun p => hm.mem_live, hcycle, hback, fun n => ?_⟩, ?_, ?_, ?_, ?_⟩
  · rintro n (rfl | ⟨p, hp, rfl⟩)
    · exact hm.prev_next (.inl rfl)
    · exact hm.prev_next (.inr (hentity.mpr hp))
  · rw [hm.ring.exists_iterate_iff, List.mem_cons, List.mem_map]
    simp only [eq_comm]
  · intro p hp hnot
    apply hm.alone _ (hentity.mpr hp)
    rwa [RunList.runList_mem_map]
  · exact fun p hp => hm.onWrrRq_iff hp
  · exact fun p hp => hm.neighboursDiffer_iff hp
  · exact hm.pickNextWrrEntity_eq

namespace Small

/-- The boot task, in a memory of zeros as far as the pointers matter. -/
def linkedBoot : LinkedState where
  cpu := boot
  links := RunList.boot { next := fun _ => .active, prev := fun _ => .active } idle

/-- A is enqueued, and B in front of it. -/
def linkedBA : LinkedState :=
  [RunList.Call.schedFork taskA true (env [] 0), .schedFork taskB true (env [] 0),
    .enqueueWrrEntity taskA false, .enqueueWrrEntity taskB true].foldl
    (LinkedState.next Small.cfg) linkedBoot

/-- The calls that lead there. -/
theorem linkedBA_reachable : (runListSystem Small.cfg).Reachable linkedBA := by
  let forkA := linkedBoot.next Small.cfg (.schedFork taskA true (env [] 0))
  let forkB := forkA.next Small.cfg (.schedFork taskB true (env [] 0))
  let enqueueA := forkB.next Small.cfg (.enqueueWrrEntity taskA false)
  have hboot : (runListSystem Small.cfg).Reachable linkedBoot := .init ⟨_, idle, 0, group, 0, rfl⟩
  have hforkA : linkedBoot.Enabled (.schedFork taskA true (env [] 0)) := by
    show taskA ∉ linkedBoot.cpu.live
    decide
  have hforkB : forkA.Enabled (.schedFork taskB true (env [] 0)) := by
    show taskB ∉ forkA.cpu.live
    decide
  have henqueueA : forkB.Enabled (.enqueueWrrEntity taskA false) := by
    constructor <;> decide
  have henqueueB : enqueueA.Enabled (.enqueueWrrEntity taskB true) := by
    constructor <;> decide
  have hforked := LinkedState.reachable_next (LinkedState.reachable_next hboot hforkA) hforkB
  exact LinkedState.reachable_next (LinkedState.reachable_next hforked henqueueA) henqueueB

end Small

/-- The cycle through B and A. The neighbours of A are B and the list head. -/
theorem run_list_refines_small :
    List.iterate Small.linkedBA.links.next .active 3 =
      [.active, .runList Small.taskB, .runList Small.taskA] ∧
    RunList.neighboursDiffer Small.linkedBA.links Small.taskA = true := by
  have h := run_list_refines Small.cfg Small.linkedBA_reachable
  have hactive : Small.linkedBA.cpu.rq.active = [Small.taskB, Small.taskA] := by decide
  obtain ⟨-, ⟨-, -, hcycle, -⟩, -, -, hdiffer, -⟩ := h
  rw [hactive] at hcycle hdiffer
  exact ⟨hcycle, (hdiffer Small.taskA (by decide)).mpr (by decide)⟩

/-! ## The scheduler as a whole -/

namespace RunList

/-- What is done to the pointers when something happens to the WRR list. -/
def apply (m : Links ListHead) : QueueEvent TaskPtr → Links ListHead
  | .remove p => dequeueWrrEntity m p
  | .insert p head => requeueWrrEntity m p head

/-- The pointers after a run that starts in a memory with the content `m`. -/
def afterRun (m : Links ListHead) (idle : TaskPtr) : List (State × (Op × Env)) → Links ListHead
  | [] => boot m idle
  | (_, (.schedFork child _, _)) :: h => schedFork (afterRun m idle h) child
  | (s, (op, env)) :: h => (s.queueEvents op env).foldl apply (afterRun m idle h)

/-- Several events one after the other. -/
theorem Refines.foldl_apply (hm : Refines m live active) {es : List (QueueEvent TaskPtr)}
    (hes : ∀ e ∈ es, e.node ∈ live) :
    Refines (es.foldl apply m) live (QueueEvent.run active es) := by
  induction es generalizing m active with
  | nil => exact hm
  | cons e es ih =>
    have hnode := hes e List.mem_cons_self
    have hes' : ∀ e' ∈ es, e'.node ∈ live := fun e' he' => hes e' (List.mem_cons_of_mem e he')
    cases e with
    | remove p => exact ih (hm.dequeueWrrEntity hnode) hes'
    | insert p head =>
      have hstep := hm.requeueWrrEntity hnode head
      cases head with
      | true => exact ih hstep hes'
      | false => exact ih hstep hes'

end RunList

/-- The list only ever takes in tasks that exist. -/
theorem State.node_mem_live {s : State} {op : Op} {env : Env} (hinv : Inv cfg s)
    (hen : s.Enabled rule op env) {e : QueueEvent TaskPtr} (he : e ∈ s.queueEvents op env) :
    e.node ∈ s.live := by
  have htarget := node_mem_targets he
  have hworker {w : TaskPtr} (hw : w ∈ env.toWakeup.toList) : w ∈ s.live :=
    (hen.1 w (Option.mem_toList.mp hw)).1
  cases op with
  | wakeUpNewTask p => exact List.mem_singleton.mp htarget ▸ hen.2.1.1
  | schedule =>
    rw [targets] at htarget
    split at htarget
    · rcases List.mem_cons.mp htarget with heq | hw
      · exact heq ▸ hinv.curr_live
      · exact hworker hw
    · cases htarget
  | schedulerTick => exact List.mem_singleton.mp htarget ▸ hinv.curr_live
  | schedYield =>
    rw [targets] at htarget
    rcases List.mem_cons.mp htarget with heq | hw
    · exact heq ▸ hinv.curr_live
    · split at hw
      · exact hworker hw
      · cases hw
  | tryToWakeUp p state => exact List.mem_singleton.mp htarget ▸ hen.2.1
  | rtMutexSetprio p prio => exact List.mem_singleton.mp htarget ▸ hen.2.1.1
  | setUserNice p nice => exact List.mem_singleton.mp htarget ▸ hen.2.1
  | schedSetscheduler p policy prio user c topWaiter =>
    exact List.mem_singleton.mp htarget ▸ hen.2.1.1
  | schedMoveTask p tg => exact List.mem_singleton.mp htarget ▸ hen.2.1
  | schedSetStopTask stop c topWaiter =>
    -- the old stop task is a target too, but no event is about it
    cases stop with
    | none => cases he
    | some p =>
      rw [node_of_mem_setschedulerQueueEvents he]
      exact (hen.2.1 p rfl).1.1
  | schedFork child mm => cases he
  | setCurrentState state => cases he
  | initIdleBootupTask => cases he
  | setGroupPath tg group => cases he
  | reschedTask => cases he

/-- In every state of every run, the WRR list of the model is the ring in memory. -/
theorem run_refines {h : List (State × (Op × Env))} {s : State}
    (hrun : (system cfg rule).Run h s) (m : Links ListHead) :
    RunList.Refines (RunList.afterRun m s.idle h) s.live s.rq.active := by
  induction hrun with
  | init h0 =>
    obtain ⟨idle, tg, group, clockTask, rfl⟩ := h0
    exact RunList.refines_boot m idle
  | @step h s i hrun hen ih =>
    obtain ⟨op, env⟩ := i
    obtain ⟨hidle, -, hlive⟩ := s.next_fixed cfg op env
    show RunList.Refines (RunList.afterRun m (s.next cfg op env).idle ((s, (op, env)) :: h))
      (s.next cfg op env).live (s.next cfg op env).rq.active
    have hevents := ih.foldl_apply fun e he =>
      State.node_mem_live (reachable_inv hrun.reachable) hen he
    rw [hidle, hlive, s.next_active]
    cases op with
    | schedFork child mm => exact ih.schedFork hen.2.1
    | _ => exact hevents

/-- So the tick of the running task decides as it does in memory, in every run. -/
theorem run_tick_decision {h : List (State × (Op × Env))} {s : State}
    (hrun : (system cfg rule).Run h s) (m : Links ListHead) (hp : p ∈ s.rq.active) :
    RunList.neighboursDiffer (RunList.afterRun m s.idle h) p = true ↔
      listPrev p s.rq.active ≠ listNext p s.rq.active :=
  (run_refines hrun m).neighboursDiffer_iff_listPrev_ne hp

end WrrSched
