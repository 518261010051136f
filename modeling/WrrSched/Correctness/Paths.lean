import WrrSched.Correctness.Invariant

/-!
# The two classifiers of task groups

`wrr_if_fg` of `core.c` and `update_weight` of `wrr.c` read the second character of a group path from
a static buffer. The buffer of `core.c` keeps that character over a lookup that finds no path.

- `Core.pathBuf_one`: what is there after a sequence of lookups;
- `classifiers_agree_iff`: when the two classify a task alike.
-/

namespace WrrSched

/-- The path a lookup finds. -/
def TaskGroup.path (tg : TaskGroup) : Option Path :=
  tg.autogroup <|> tg.cgroup

theorem TaskGroup.second_eq (tg : TaskGroup) : tg.second = tg.path.elim '\x00' Path.second := by
  obtain ⟨autogroup, cgroup⟩ := tg
  cases autogroup <;> cases cgroup <;> rfl

namespace Core

/-- A lookup without a path leaves the second character alone. -/
theorem taskGroupPath_one (tg : TaskGroup) (buf : PathBuf) :
    taskGroupPath tg buf 1 = tg.path.elim (buf 1) Path.second := by
  obtain ⟨autogroup, cgroup⟩ := tg
  cases autogroup with
  | some p => exact p.write_one buf
  | none =>
    cases cgroup with
    | none =>
      have hne : (1 : Fin 4096) ≠ 0 := by decide
      exact Function.update_of_ne hne _ _
    | some p => exact p.write_one buf

/-- The buffer after lookups, the first lookup first. -/
def pathBuf (calls : List TaskGroup) : PathBuf :=
  calls.foldl (fun buf tg => taskGroupPath tg buf) fun _ => '\x00'

/-- The second character of the last path that lookups found. -/
def lastSecond (calls : List TaskGroup) : Char :=
  calls.foldl (fun c tg => tg.path.elim c Path.second) '\x00'

theorem foldl_taskGroupPath_one (calls : List TaskGroup) (buf : PathBuf) :
    calls.foldl (fun buf tg => taskGroupPath tg buf) buf 1 =
      calls.foldl (fun c tg => tg.path.elim c Path.second) (buf 1) := by
  induction calls generalizing buf with
  | nil => rfl
  | cons tg calls ih => rw [List.foldl_cons, List.foldl_cons, ih, taskGroupPath_one]

theorem pathBuf_one (calls : List TaskGroup) : pathBuf calls 1 = lastSecond calls :=
  foldl_taskGroupPath_one calls fun _ => '\x00'

end Core

namespace State

/-- The state with the buffer of `core.c` as lookups have left it. -/
def afterLookups (s : State) (calls : List TaskGroup) : State :=
  { s with coreGroupPath := Core.pathBuf calls }

variable (s : State) (calls : List TaskGroup) (p : TaskPtr)

theorem wrrIfFg_afterLookups :
    ((s.afterLookups calls).wrrIfFg p).1 =
      decide ((s.group (s.task p).schedTaskGroup).path.elim (Core.lastSecond calls) Path.second ≠
        'b') := by
  rw [← Core.pathBuf_one, ← Core.taskGroupPath_one]
  rfl

/-- The weight `wrr_set_weight` computes. -/
theorem wrrSetWeight_weight (cfg : Config) (hcustom : (s.task p).wrr.customWeight = false) :
    ((s.wrrSetWeight cfg p).task p).wrr.weight =
      if (s.wrrIfFg p).1 then wrrFgWeight else wrrBgWeight := by
  rw [wrrSetWeight_task, Function.update_self, TaskStruct.wrrSetWeight_weight, hcustom]
  rfl

/-- The weight `update_weight` computes. -/
theorem updateWeight_weight (hcustom : (s.task p).wrr.customWeight = false) :
    ((s.updateWeight p).task p).wrr.weight = (s.group (s.task p).schedTaskGroup).weight := by
  unfold updateWeight
  rw [modifyTask_task, Function.update_self]
  show ((s.task p).wrr.updateWeight _).weight = _
  rw [SchedWrrEntity.updateWeight_taskGroupPath, hcustom]
  rfl

end State

/-- After any lookups, `wrr_if_fg` classifies a task as `update_weight` does, and `wrr_set_weight`
gives a task without a custom weight the weight `update_weight` finds next, exactly if the group of
the task has a path or the last path that was found is not that of a background group. A group has a
path if `autogroup_path` succeeds or it has a cgroup, for which `cgroup_path` succeeds. -/
theorem classifiers_agree_iff (cfg : Config) (s : State) (calls : List TaskGroup) (p : TaskPtr) :
    let s' := s.afterLookups calls
    let tg := s.group (s.task p).schedTaskGroup
    ((∀ buf, (s'.wrrIfFg p).1 = decide (Wrr.taskGroupPath tg buf 1 ≠ 'b')) ∧
      ((s.task p).wrr.customWeight = false →
        ((s'.wrrSetWeight cfg p).task p).wrr.weight =
          (((s'.wrrSetWeight cfg p).updateWeight p).task p).wrr.weight)) ↔
      (tg.path ≠ none ∨ Core.lastSecond calls ≠ 'b') := by
  intro s' tg
  have hfg : (s'.wrrIfFg p).1 =
      decide (tg.path.elim (Core.lastSecond calls) Path.second ≠ 'b') :=
    s.wrrIfFg_afterLookups calls p
  have hclass (buf : PathBuf) : decide (Wrr.taskGroupPath tg buf 1 ≠ 'b') =
      decide (tg.path.elim '\x00' Path.second ≠ 'b') := by
    rw [Wrr.taskGroupPath_one, tg.second_eq]
  have hagree : (s'.wrrIfFg p).1 = decide (tg.second ≠ 'b') ↔
      tg.path ≠ none ∨ Core.lastSecond calls ≠ 'b' := by
    rw [hfg, tg.second_eq, decide_eq_decide]
    cases tg.path with
    | some path => exact iff_of_true Iff.rfl (.inl (Option.some_ne_none path))
    | none =>
      have hnul : '\x00' ≠ 'b' := by decide
      exact ⟨fun h => .inr (h.mpr hnul), fun h => ⟨fun _ => hnul, fun _ => h.resolve_left (· rfl)⟩⟩
  constructor
  · rintro ⟨hsame, -⟩
    rw [← hagree, hsame fun _ => '\x00', hclass, tg.second_eq]
  · intro hcond
    have hsame := hagree.mpr hcond
    refine ⟨fun buf => by rw [hsame, hclass, tg.second_eq], fun hcustom => ?_⟩
    -- setting the weight leaves group and custom flag
    have hcustom' : ((s'.wrrSetWeight cfg p).task p).wrr.customWeight = false := by
      rw [State.wrrSetWeight_task, Function.update_self, TaskStruct.wrrSetWeight_customWeight]
      exact hcustom
    have htg : (s'.wrrSetWeight cfg p).group ((s'.wrrSetWeight cfg p).task p).schedTaskGroup =
        tg := by
      rw [(s'.wrrSetWeight_frame cfg p).group, State.wrrSetWeight_task, Function.update_self,
        TaskStruct.wrrSetWeight_eq]
      rfl
    rw [s'.wrrSetWeight_weight p cfg hcustom, State.updateWeight_weight _ p hcustom', htg, hsame,
      TaskGroup.weight]
    by_cases hb : tg.second = 'b' <;> simp [hb]

/-- A lookup of the group `/bg` makes a task whose group has no path yet a background task. -/
theorem classifiers_disagree :
    ¬∀ (s : State) calls p, ((s.afterLookups calls).wrrIfFg p).1 =
      decide (Wrr.taskGroupPath (s.group (s.task p).schedTaskGroup) (fun _ => '\x00') 1 ≠ 'b') := by
  intro hall
  have h := hall { Small.boot with group := fun _ => { autogroup := none, cgroup := none } }
    [Small.group 1] Small.taskA
  revert h
  decide +kernel

end WrrSched
