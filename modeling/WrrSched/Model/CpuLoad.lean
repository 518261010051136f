import WrrSched.Model.LoadAvg

/-!
# The load of a CPU

`cpu_load` of a run queue, which `update_cpu_load` averages over five horizons at every tick, and
with `decay_load_missed` over the ticks that were missed. A read outside `degrade_factor` is `none`.
-/

namespace WrrSched

/-- `DEGRADE_SHIFT`. -/
def degradeShift : ℕ := 7

/-- `degrade_zero_ticks`. -/
def degradeZeroTicks : Fin 5 → ℕ := ![0, 8, 32, 64, 128]

/-- `degrade_factor`; what is left out in a row is zero. -/
def degradeFactor : Fin 5 → List Long :=
  ![[0#32, 0#32, 0#32, 0#32, 0#32, 0#32, 0#32, 0#32],
    [64#32, 32#32, 8#32, 0#32, 0#32, 0#32, 0#32, 0#32],
    [96#32, 72#32, 40#32, 12#32, 1#32, 0#32, 0#32, 0#32],
    [112#32, 98#32, 75#32, 43#32, 15#32, 1#32, 0#32, 0#32],
    [120#32, 112#32, 98#32, 76#32, 45#32, 16#32, 2#32, 0#32]]

/-- The loop of `decay_load_missed`. -/
def decayLoop (row : List Long) (load : Long) (missedUpdates j : ℕ) : Option Long :=
  if missedUpdates = 0 then some load
  else if missedUpdates % 2 = 1 then
    match row[j]? with
    | none => none
    | some factor =>
      decayLoop row ((load * factor) >>> degradeShift) (missedUpdates / 2) (j + 1)
  else decayLoop row load (missedUpdates / 2) (j + 1)
termination_by missedUpdates
decreasing_by all_goals omega

/-- `decay_load_missed`. -/
def decayLoadMissed (load missedUpdates : Long) (idx : Fin 5) : Option Long :=
  if missedUpdates = 0 then some load
  else if degradeZeroTicks idx ≤ missedUpdates.toNat then some 0#32
  else if idx = 1 then some (load >>> missedUpdates.toNat)
  else decayLoop (degradeFactor idx) load missedUpdates.toNat 0

/-- The fields of a run queue for its load, and `jiffies`. -/
structure CpuLoad where
  jiffies : Long
  /-- `load.weight`. -/
  weight : Long
  cpuLoad : Fin 5 → Long
  lastLoadUpdateTick : Long
  nrLoadUpdates : Long

/-- The average of an old and a new load, in the loop of `update_cpu_load`. -/
def averageLoad (oldLoad newLoad : Long) (i : ℕ) : Long :=
  let scale := 1#32 <<< i
  let newLoad := if oldLoad < newLoad then newLoad + (scale - 1) else newLoad
  (oldLoad * (scale - 1) + newLoad) >>> i

namespace CpuLoad

/-- One round of the loop of `update_cpu_load`. -/
def updateIdx (s : CpuLoad) (pendingUpdates : Long) (i : Fin 5) : Option Long :=
  match decayLoadMissed (s.cpuLoad i) (pendingUpdates - 1) i with
  | none => none
  | some oldLoad => some (averageLoad oldLoad s.weight i)

/-- `update_cpu_load`. -/
def updateCpuLoad (s : CpuLoad) : Option CpuLoad :=
  let s := { s with nrLoadUpdates := s.nrLoadUpdates + 1 }
  if s.jiffies = s.lastLoadUpdateTick then some s
  else do
    let pendingUpdates := s.jiffies - s.lastLoadUpdateTick
    let load1 ← s.updateIdx pendingUpdates 1
    let load2 ← s.updateIdx pendingUpdates 2
    let load3 ← s.updateIdx pendingUpdates 3
    let load4 ← s.updateIdx pendingUpdates 4
    return { s with
      lastLoadUpdateTick := s.jiffies
      cpuLoad := ![s.weight, load1, load2, load3, load4] }

end CpuLoad

/-- What happens to the load of a CPU. -/
inductive CpuLoadOp
  /-- Tasks are queued and dequeued. -/
  | weight (weight : Long)
  | ticks (ticks : Long)
  | updateCpuLoad

namespace CpuLoad

/-- What an operation does. -/
def next (s : CpuLoad) : CpuLoadOp → Option CpuLoad
  | .weight weight => some { s with weight := weight }
  | .ticks ticks => some { s with jiffies := s.jiffies + ticks }
  | .updateCpuLoad => s.updateCpuLoad

/-- Operations one after the other. -/
def run (s : CpuLoad) : List CpuLoadOp → Option CpuLoad
  | [] => some s
  | op :: ops =>
    match s.next op with
    | none => none
    | some s => run s ops

end CpuLoad

end WrrSched
