import Mathlib.Data.BitVec
import Mathlib.Data.Fin.VecNotation
import Mathlib.Logic.Function.Basic
import WrrSched.Lib.Transition

/-!
# The load average

The load average of `core.c` with `CONFIG_NO_HZ`. Each CPU adds the change of its number of active
tasks to `calc_load_tasks`, or to one of the two counters of `calc_load_idle` before its tick stops,
and one CPU updates `avenrun` in `calc_global_load`. None of this is under a lock. Therefore the
functions are cut into steps, and the CPUs take them in any order: every atomic operation is a step
of its own, and so is every read that decides what a later one does. A `long` has 32 bits.
-/

namespace WrrSched

/-- A `long` or an `unsigned long`. -/
abbrev Long := BitVec 32

/-- `HZ`, for which `time_before` can compare the times of a period and 10 ticks. -/
structure LoadConfig where
  hz : ℕ
  hz_lt : 5 * hz + 1 + 10 < 2 ^ 31

/-- `LOAD_FREQ`. -/
def LoadConfig.loadFreq (cfg : LoadConfig) : Long := BitVec.ofNat 32 (5 * cfg.hz + 1)

/-- `FSHIFT`. -/
def fshift : ℕ := 11

/-- `FIXED_1`. -/
def fixed1 : Long := 1#32 <<< fshift

/-- `EXP_1`, `EXP_5` and `EXP_15`. -/
def expFactor : Fin 3 → Long := ![1884#32, 2014#32, 2037#32]

/-- `time_before`. -/
def timeBefore (a b : Long) : Bool := decide ((a - b).toInt < 0)

/-! ## Averages -/

/-- `calc_load`. -/
def calcLoad (load exp active : Long) : Long :=
  let load := load * exp
  let load := load + active * (fixed1 - exp)
  let load := load + 1#32 <<< (fshift - 1)
  load >>> fshift

/-- The loop of `fixed_power_int`. -/
def fixedPowerLoop (fracBits : ℕ) (result x : Long) (n : ℕ) : Long :=
  let result := if n % 2 = 1 then (result * x + 1#32 <<< (fracBits - 1)) >>> fracBits else result
  if n / 2 = 0 then result
  else fixedPowerLoop fracBits result ((x * x + 1#32 <<< (fracBits - 1)) >>> fracBits) (n / 2)
termination_by n
decreasing_by omega

/-- `fixed_power_int`. -/
def fixedPowerInt (x : Long) (fracBits n : ℕ) : Long :=
  let result := 1#32 <<< fracBits
  if n = 0 then result else fixedPowerLoop fracBits result x n

/-- `calc_load_n`. -/
def calcLoadN (load exp active : Long) (n : ℕ) : Long :=
  calcLoad load (fixedPowerInt exp fshift n) active

/-- `active > 0 ? active * FIXED_1 : 0`. -/
def fixedActive (active : Long) : Long :=
  if 0 < active.toInt then active * fixed1 else 0

/-! ## The state -/

/-- Where a CPU is in the functions that fold its delta. -/
inductive FoldStep
  | none
  /-- `calc_load_account_active`, before `atomic_long_add(delta, &calc_load_tasks)`. -/
  | accountActive (delta : Long)
  /-- `calc_load_enter_idle`, before `calc_load_write_idx` reads `calc_load_idx`. -/
  | enterIdle (delta : Long)
  /-- Before `calc_load_write_idx` reads `jiffies`. -/
  | readJiffies (delta : Long) (idx : ℕ)
  /-- Before it reads `calc_load_update`. -/
  | readUpdate (delta : Long) (idx : ℕ) (jiffies : Long)
  /-- Before `atomic_long_add(delta, &calc_load_idle[idx])`. -/
  | addIdle (delta : Long) (idx : ℕ)
  deriving DecidableEq

/-- Where a CPU is in `calc_global_load`. -/
inductive GlobalStep
  | none
  /-- The tick has been counted. -/
  | start
  /-- Before `atomic_long_add(delta, &calc_load_tasks)`. -/
  | folded (delta : Long)
  /-- Before `atomic_long_read(&calc_load_tasks)`. -/
  | read
  /-- `calc_global_nohz`. -/
  | nohz
  /-- Before `calc_load_idx++`. -/
  | flip
  deriving DecidableEq

/-- The fields of a run queue for the load average. -/
structure LoadRq where
  nrRunning : Long
  nrUninterruptible : Long
  calcLoadActive : Long
  calcLoadUpdate : Long
  /-- Local variables of the CPU. -/
  step : FoldStep

/-- The variables of the load average. -/
structure LoadState (Cpu : Type*) where
  jiffies : Long
  rq : Cpu → LoadRq
  calcLoadTasks : Long
  calcLoadUpdate : Long
  avenrun : Fin 3 → Long
  calcLoadIdle : Fin 2 → Long
  calcLoadIdx : ℕ
  /-- Local variables of the CPU that counts the ticks. -/
  global : GlobalStep
  /-- Not a variable of the source: how many periods `avenrun` has been updated for. -/
  periods : ℕ

namespace LoadRq

/-- `nr_active` in `calc_load_fold_active`. -/
def nrActive (rq : LoadRq) : Long := rq.nrRunning + rq.nrUninterruptible

/-- `calc_load_fold_active`. -/
def calcLoadFoldActive (rq : LoadRq) : Long × LoadRq :=
  if rq.nrActive ≠ rq.calcLoadActive then
    (rq.nrActive - rq.calcLoadActive, { rq with calcLoadActive := rq.nrActive })
  else (0, rq)

end LoadRq

namespace LoadState

variable {Cpu : Type*} [DecidableEq Cpu]

/-- Change the run queue of one CPU. -/
def setRq (s : LoadState Cpu) (c : Cpu) (rq : LoadRq) : LoadState Cpu :=
  { s with rq := Function.update s.rq c rq }

/-- `atomic_long_add(delta, &calc_load_tasks)`. -/
def addTasks (s : LoadState Cpu) (delta : Long) : LoadState Cpu :=
  { s with calcLoadTasks := s.calcLoadTasks + delta }

/-- Write to `calc_load_idle[idx & 1]`. -/
def setIdle (s : LoadState Cpu) (idx : ℕ) (value : Long) : LoadState Cpu :=
  { s with calcLoadIdle := Function.update s.calcLoadIdle (Fin.ofNat 2 idx) value }

/-! ## One CPU -/

/-- `calc_load_account_active`, up to the addition. -/
def calcLoadAccountActive (cfg : LoadConfig) (s : LoadState Cpu) (c : Cpu) : LoadState Cpu :=
  -- not yet due
  if timeBefore s.jiffies (s.rq c).calcLoadUpdate then s
  else
    let (delta, rq) := (s.rq c).calcLoadFoldActive
    s.setRq c { rq with
      calcLoadUpdate := rq.calcLoadUpdate + cfg.loadFreq
      step := if delta ≠ 0 then .accountActive delta else .none }

/-- `calc_load_enter_idle`, up to `calc_load_write_idx`. -/
def calcLoadEnterIdle (s : LoadState Cpu) (c : Cpu) : LoadState Cpu :=
  let (delta, rq) := (s.rq c).calcLoadFoldActive
  s.setRq c { rq with step := if delta ≠ 0 then .enterIdle delta else .none }

/-- The rest of these functions, one access to a shared variable at a time. -/
def foldStep (s : LoadState Cpu) (c : Cpu) : LoadState Cpu :=
  let rq := s.rq c
  match rq.step with
  | .none => s
  | .accountActive delta => (s.addTasks delta).setRq c { rq with step := .none }
  | .enterIdle delta => s.setRq c { rq with step := .readJiffies delta s.calcLoadIdx }
  | .readJiffies delta idx => s.setRq c { rq with step := .readUpdate delta idx s.jiffies }
  | .readUpdate delta idx jiffies =>
    -- in the window the delta is for the next period
    let idx := if !timeBefore jiffies s.calcLoadUpdate then idx + 1 else idx
    s.setRq c { rq with step := .addIdle delta idx }
  | .addIdle delta idx =>
    (s.setIdle idx (s.calcLoadIdle (Fin.ofNat 2 idx) + delta)).setRq c { rq with step := .none }

/-- `calc_load_exit_idle`. -/
def calcLoadExitIdle (cfg : LoadConfig) (s : LoadState Cpu) (c : Cpu) : LoadState Cpu :=
  let rq := s.rq c
  -- "still before the sample window"
  if timeBefore s.jiffies rq.calcLoadUpdate then s
  else
    let rq := { rq with calcLoadUpdate := s.calcLoadUpdate }
    s.setRq c
      -- inside the window the CPU is "already accounted through the nohz accounting"
      (if timeBefore s.jiffies (rq.calcLoadUpdate + 10) then
        { rq with calcLoadUpdate := rq.calcLoadUpdate + cfg.loadFreq }
      else rq)

/-- `calc_global_load_remove`, when a CPU goes offline. -/
def calcGlobalLoadRemove (s : LoadState Cpu) (c : Cpu) : LoadState Cpu :=
  let rq := s.rq c
  (s.addTasks (-rq.calcLoadActive)).setRq c { rq with calcLoadActive := 0 }

/-- `migration_call` with `CPU_UP_PREPARE`. -/
def cpuUpPrepare (s : LoadState Cpu) (c : Cpu) : LoadState Cpu :=
  s.setRq c { s.rq c with calcLoadUpdate := s.calcLoadUpdate }

/-! ## The CPU that counts the ticks -/

/-- `calc_load_fold_idle`; the counter is not written if it is zero. -/
def calcLoadFoldIdle (s : LoadState Cpu) : Long × LoadState Cpu :=
  (s.calcLoadIdle (Fin.ofNat 2 s.calcLoadIdx), s.setIdle s.calcLoadIdx 0)

/-- How many periods `calc_global_nohz` is behind. -/
def missedPeriods (cfg : LoadConfig) (s : LoadState Cpu) : Long :=
  let delta := s.jiffies - s.calcLoadUpdate - 10
  -- the division of signed longs
  1 + delta.sdiv cfg.loadFreq

/-- `calc_global_load`, one access to a shared variable at a time. -/
def globalStep (cfg : LoadConfig) (s : LoadState Cpu) : LoadState Cpu :=
  match s.global with
  | .none => s
  | .start =>
    if timeBefore s.jiffies (s.calcLoadUpdate + 10) then { s with global := .none }
    else
      -- "Fold the 'old' idle-delta to include all NO_HZ cpus."
      let (delta, s) := s.calcLoadFoldIdle
      { s with global := .folded delta }
  | .folded delta => { s.addTasks delta with global := .read }
  | .read =>
    let active := fixedActive s.calcLoadTasks
    { s with
      avenrun := fun i => calcLoad (s.avenrun i) (expFactor i) active
      calcLoadUpdate := s.calcLoadUpdate + cfg.loadFreq
      global := .nohz
      periods := s.periods + 1 }
  | .nohz =>
    if !timeBefore s.jiffies (s.calcLoadUpdate + 10) then
      -- all CPUs had stopped their ticks for some periods
      let n := s.missedPeriods cfg
      let active := fixedActive s.calcLoadTasks
      { s with
        avenrun := fun i => calcLoadN (s.avenrun i) (expFactor i) active n.toNat
        calcLoadUpdate := s.calcLoadUpdate + n * cfg.loadFreq
        global := .flip
        periods := s.periods + n.toNat }
    else { s with global := .flip }
  | .flip => { s with calcLoadIdx := s.calcLoadIdx + 1, global := .none }

end LoadState

/-! ## The system -/

/-- What happens to the load average. -/
inductive LoadOp (Cpu : Type*)
  /-- The rest of the scheduler changes `nr_running` and `nr_uninterruptible`. -/
  | other (c : Cpu) (nrRunning nrUninterruptible : Long)
  | calcLoadAccountActive (c : Cpu)
  | calcLoadEnterIdle (c : Cpu)
  | calcLoadExitIdle (c : Cpu)
  | calcGlobalLoadRemove (c : Cpu)
  | cpuUpPrepare (c : Cpu)
  | foldStep (c : Cpu)
  /-- `jiffies` advances, and `calc_global_load` is called. -/
  | doTimer (ticks : Long)
  | globalStep

namespace LoadState

variable {Cpu : Type*} [DecidableEq Cpu]

/-- What an operation does. -/
def next (cfg : LoadConfig) (s : LoadState Cpu) : LoadOp Cpu → LoadState Cpu
  | .other c nrRunning nrUninterruptible =>
    s.setRq c { s.rq c with nrRunning := nrRunning, nrUninterruptible := nrUninterruptible }
  | .calcLoadAccountActive c => s.calcLoadAccountActive cfg c
  | .calcLoadEnterIdle c => s.calcLoadEnterIdle c
  | .calcLoadExitIdle c => s.calcLoadExitIdle cfg c
  | .calcGlobalLoadRemove c => s.calcGlobalLoadRemove c
  | .cpuUpPrepare c => s.cpuUpPrepare c
  | .foldStep c => s.foldStep c
  | .doTimer ticks => { s with jiffies := s.jiffies + ticks, global := .start }
  | .globalStep => s.globalStep cfg

/-- When an operation may happen. A CPU finishes the function it is in before it calls another one,
and so does the CPU that counts the ticks. -/
def Enabled (s : LoadState Cpu) : LoadOp Cpu → Prop
  | .other _ _ _ => True
  | .calcLoadAccountActive c => (s.rq c).step = .none
  | .calcLoadEnterIdle c => (s.rq c).step = .none
  | .calcLoadExitIdle c => (s.rq c).step = .none
  | .calcGlobalLoadRemove c => (s.rq c).step = .none
  | .cpuUpPrepare c => (s.rq c).step = .none
  | .foldStep _ => True
  | .doTimer _ => s.global = .none
  | .globalStep => True

instance (s : LoadState Cpu) (op : LoadOp Cpu) : Decidable (s.Enabled op) :=
  match op with
  | .other _ _ _ => inferInstanceAs (Decidable True)
  | .calcLoadAccountActive c => inferInstanceAs (Decidable ((s.rq c).step = .none))
  | .calcLoadEnterIdle c => inferInstanceAs (Decidable ((s.rq c).step = .none))
  | .calcLoadExitIdle c => inferInstanceAs (Decidable ((s.rq c).step = .none))
  | .calcGlobalLoadRemove c => inferInstanceAs (Decidable ((s.rq c).step = .none))
  | .cpuUpPrepare c => inferInstanceAs (Decidable ((s.rq c).step = .none))
  | .foldStep _ => inferInstanceAs (Decidable True)
  | .doTimer _ => inferInstanceAs (Decidable (s.global = .none))
  | .globalStep => inferInstanceAs (Decidable True)

/-- `sched_init`. -/
def boot (cfg : LoadConfig) (jiffies : Long) : LoadState Cpu where
  jiffies := jiffies
  rq _ := {
    nrRunning := 0
    nrUninterruptible := 0
    calcLoadActive := 0
    calcLoadUpdate := jiffies + cfg.loadFreq
    step := .none }
  calcLoadTasks := 0
  calcLoadUpdate := jiffies + cfg.loadFreq
  avenrun _ := 0
  calcLoadIdle _ := 0
  calcLoadIdx := 0
  global := .none
  periods := 0

end LoadState

/-- The load average of a machine. -/
def loadSystem (cfg : LoadConfig) (Cpu : Type*) [DecidableEq Cpu] :
    TransitionSystem (LoadState Cpu) (LoadOp Cpu) where
  init s := ∃ jiffies, s = LoadState.boot cfg jiffies
  enabled s op := s.Enabled op
  next s op := s.next cfg op

end WrrSched
