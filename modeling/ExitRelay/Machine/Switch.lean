import ExitRelay.Machine.Basic

/-!
# Switching control structures

`load` makes the control structure of a processor the current one, in the hardware and in
the broker's record of it.  `withVmcs` runs a program on a processor while its control
structure is current and then goes back to the one that was loaded before.
-/

namespace ExitRelay.Machine

/-- Makes the control structure of a processor the current one. -/
def load (v : Vpid) : SysM Unit := do
  onVCpu v (VcpuM.attempt .load)
  modify fun m =>
    { m with current := some v, loaded := some v, journal := m.journal.act (.load v) }

/-- Loads a processor unless it is loaded already. -/
def enter (v : Vpid) : SysM Unit := do
  let m ← get
  if m.loaded = some v then pure () else load v

/-- Runs a program to its end and hands its outcome over, be it a result or an error. -/
def outcome {α : Type} (x : SysM α) : SysM (Except SysError α) :=
  fun m => match x m with
    | .ok a m' => .ok (.ok a) m'
    | .error e m' => .ok (.error e) m'

/-- Ends with the outcome of another program. -/
def conclude {α : Type} : Except SysError α → SysM α
  | .ok a => pure a
  | .error e => throw e

/-- Goes back from a target to the processor that was loaded before, if there was another
one.  If that one has been removed, none is loaded. -/
def restore (target : Vpid) : Option Vpid → SysM Unit
  | none => pure ()
  | some p => do
    if p = target then pure ()
    else if ← contains p then load p
    else modify fun m => { m with loaded := none }

/-- Runs a program on a processor while its control structure is current.  Afterwards the
processor that was loaded before is loaded again, and an error in that comes before the
outcome of the program. -/
def withVmcs {α : Type} (target : Vpid) (body : VcpuM α) : SysM α := do
  let before ← get
  enter target
  let result ← outcome (onVCpu target body)
  restore target before.loaded
  conclude result

end ExitRelay.Machine
