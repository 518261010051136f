import Mathlib.Data.List.GetD
import WrrSched.Model.Task

/-!
# Task group paths

WRR tells foreground from background tasks by the second character of the path of their task group.
`core.c` and `wrr.c` each have a static `task_group_path`, with a static buffer of its own; the two
differ in the bytes they clear when the cgroup is not yet fully created. `autogroup_path` and
`cgroup_path` are outside the source: they are modelled by the path they write, which is never
empty and fits the buffer with its terminator.
-/

namespace WrrSched

/-- `char group_path[4096]`. -/
abbrev PathBuf := Fin 4096 → Char

instance neZero_pathBuf : NeZero 4096 := ⟨by decide⟩

/-- A path `autogroup_path` or `cgroup_path` can write into a buffer of 4096 bytes. -/
structure Path where
  /-- The characters before the terminator. -/
  chars : List Char
  /-- There is at least the leading slash. -/
  ne_nil : chars ≠ []
  /-- No character is the terminator. -/
  nul_notMem : '\x00' ∉ chars
  /-- The path fits with its terminator. -/
  length_lt : chars.length < 4096

namespace Path

/-- Write the path and its terminator over the start of the buffer; the rest keeps its content. -/
def write (p : Path) (buf : PathBuf) : PathBuf := fun i =>
  if i.val < p.chars.length then p.chars.getD i.val '\x00'
  else if i.val = p.chars.length then '\x00'
  else buf i

/-- The second character, which is the terminator when there is only one. -/
def second (p : Path) : Char := p.chars.getD 1 '\x00'

theorem write_one (p : Path) (buf : PathBuf) : p.write buf 1 = p.second := by
  have hlen : 0 < p.chars.length := List.length_pos_iff.mpr p.ne_nil
  have hone : (1 : Fin 4096).val = 1 := rfl
  rw [write, second, hone]
  split_ifs with h1 h2
  · rfl
  · rw [List.getD_eq_default _ _ (by omega)]
  · omega

end Path

/-- What the path functions find for a `struct task_group`. -/
structure TaskGroup where
  /-- What `autogroup_path` writes, if it succeeds. -/
  autogroup : Option Path
  /-- What `cgroup_path` writes for `css.cgroup`, unless that is `NULL`. It is taken to succeed: it
  is called with the whole buffer of 4096 bytes, and its result is not looked at. -/
  cgroup : Option Path

namespace TaskGroup

/-- The second character of the path of the group, the terminator while it has no cgroup. -/
def second (tg : TaskGroup) : Char :=
  match tg.autogroup, tg.cgroup with
  | some p, _ => p.second
  | none, some p => p.second
  | none, none => '\x00'

/-- The weight of a task of the group without a custom one. -/
def weight (tg : TaskGroup) : UInt32 :=
  if tg.second = 'b' then wrrBgWeight else wrrFgWeight

end TaskGroup

/-- `task_group_path` of `wrr.c`: the content of its buffer after the call. -/
def Wrr.taskGroupPath (tg : TaskGroup) (buf : PathBuf) : PathBuf :=
  match tg.autogroup with
  | some p => p.write buf
  | none =>
    match tg.cgroup with
    | none => Function.update (Function.update buf 0 '\x00') 1 '\x00'
    | some p => p.write buf

/-- `task_group_path` of `core.c`, which clears one byte only when there is no cgroup. -/
def Core.taskGroupPath (tg : TaskGroup) (buf : PathBuf) : PathBuf :=
  match tg.autogroup with
  | some p => p.write buf
  | none =>
    match tg.cgroup with
    | none => Function.update buf 0 '\x00'
    | some p => p.write buf

/-- The buffer of `wrr.c` has no memory at the byte that is read. -/
theorem Wrr.taskGroupPath_one (tg : TaskGroup) (buf : PathBuf) :
    Wrr.taskGroupPath tg buf 1 = tg.second := by
  obtain ⟨autogroup, cgroup⟩ := tg
  cases autogroup with
  | some p => exact p.write_one buf
  | none =>
    cases cgroup with
    | none => simp [Wrr.taskGroupPath, TaskGroup.second]
    | some p => exact p.write_one buf

end WrrSched
