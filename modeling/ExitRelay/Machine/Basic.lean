import ExitRelay.Broker
import ExitRelay.Hypercall.Status
import ExitRelay.VCpu.Access

/-!
# Machines

A machine holds the registered processors, each with its broker, and knows whose control
structure the broker has loaded and whose the hardware holds.  `SysM` is the monad of
programs on a machine; a program that fails keeps what it changed before.  `CallM` is the
monad of those that carry out a hypercall and can fail with a status for the caller.
`onVCpu` runs a program on one processor: by its type it can change that processor and the
journal, and nothing else.
-/

namespace ExitRelay

/-- The settings of a machine. -/
structure Config where
  /-- The interrupt that announces an event to a kernel listener. -/
  vector : UInt8 := 0xe1
  /-- The number of listeners that a set is expected to hold. -/
  capacity : UInt64 := 1
  deriving DecidableEq, Repr

/-- A registered processor and its broker. -/
structure Resident where
  vcpu : VCpu
  broker : Broker := {}

/-- A machine. -/
structure Machine where
  config : Config := {}
  residents : Std.ExtTreeMap Vpid Resident := ∅
  /-- The processor whose control structure the broker has loaded. -/
  loaded : Option Vpid := none
  /-- The processor whose control structure the hardware holds. -/
  current : Option Vpid := none
  /-- The time in nanoseconds. -/
  clock : UInt64 := 0
  journal : Journal := {}

/-- What is to run next. -/
inductive Transfer where
  /-- Enter a processor. -/
  | run (v : Vpid)
  /-- Run the parent of a processor that waits, and the waiting processor again after some
  nanoseconds at the latest. -/
  | returnToParent (parent : Vpid) (yield : Option UInt64)
  deriving DecidableEq, Repr

/-- A program on a machine that can fail with a system error. -/
abbrev SysM := EStateM SysError Machine

/-- A program on a machine that can fail with a status. -/
abbrev CallM := EStateM Status Machine

/-- The system errors of a program are reported as statuses. -/
instance : MonadLift SysM CallM where
  monadLift x := x.adaptExcept Status.ofSysError

namespace Machine

/-- The state of a registered processor. -/
def vcpu? (m : Machine) (v : Vpid) : Option VCpu :=
  m.residents[v]?.map (·.vcpu)

/-- The broker of a registered processor. -/
def broker? (m : Machine) (v : Vpid) : Option Broker :=
  m.residents[v]?.map (·.broker)

/-- A processor is registered under the number. -/
def isRegistered (m : Machine) (v : Vpid) : Bool :=
  m.residents.contains v

/-- Writes a note. -/
def note (n : Note) : SysM Unit :=
  modify fun m => { m with journal := m.journal.note n }

/-- Notes a refusal and fails with its error. -/
def refuse {α : Type} (why : Refusal) : SysM α := do
  note (.refused why)
  throw why.error

/-- The processor is registered. -/
def contains (v : Vpid) : SysM Bool :=
  return (← get).isRegistered v

/-- The registered processor with a number and its broker. -/
def resident (v : Vpid) : SysM Resident := fun m =>
  match m.residents[v]? with
  | none => refuse .unknownVpid m
  | some r => .ok r m

/-- Replaces a registered processor and its broker. -/
def setResident (v : Vpid) (r : Resident) : SysM Unit :=
  modify fun m => { m with residents := m.residents.insert v r }

/-- The machine with what a program on one processor has left of the processor and the
journal. -/
def adopt (m : Machine) (v : Vpid) (r : Resident) (s : Focus) : Machine :=
  { m with residents := m.residents.insert v { r with vcpu := s.vcpu }, journal := s.journal }

/-- Runs a program on one processor. -/
def onVCpu {α : Type} (v : Vpid) (body : VcpuM α) : SysM α := fun m =>
  match m.residents[v]? with
  | none => refuse .unknownVpid m
  | some r =>
    match body ⟨v, m.current = some v⟩ ⟨r.vcpu, m.journal⟩ with
    | .ok a s => .ok a (m.adopt v r s)
    | .error e s => .error e (m.adopt v r s)

/-- The state of a processor. -/
def vcpu (v : Vpid) : SysM VCpu :=
  return (← resident v).vcpu

/-- The general-purpose registers of a processor. -/
def registers (v : Vpid) : SysM Registers :=
  return (← vcpu v).regs

/-- Changes the general-purpose registers of a processor. -/
def modifyRegisters (v : Vpid) (f : Registers → Registers) : SysM Unit :=
  onVCpu v (VcpuM.modifyRegisters f)

/-- Puts the results of a successful hypercall into the registers of its caller. -/
def succeed (caller : Vpid) (results : Registers → Registers) : SysM Unit :=
  modifyRegisters caller fun regs => { results regs with rax := Status.success.code }

/-- The broker of a processor. -/
def broker (v : Vpid) : SysM Broker :=
  return (← resident v).broker

/-- Runs a function on the broker of a processor, which also has a result. -/
def onBroker {α : Type} (v : Vpid) (f : Broker → α × Broker) : SysM α := do
  let r ← resident v
  let (a, b) := f r.broker
  setResident v { r with broker := b }
  pure a

/-- Changes the broker of a processor. -/
def modifyBroker (v : Vpid) (f : Broker → Broker) : SysM Unit :=
  onBroker v fun b => ((), f b)

/-- Registers a processor and gives it a new broker. -/
def add (v : Vpid) (c : VCpu) : SysM Unit := do
  if ← contains v then refuse .alreadyRegistered
  else
    setResident v { vcpu := c }
    note (.registered v)

/-- Notes that a processor is removed while events are pending for it. -/
def noteRemoval (v : Vpid) (b : Broker) : SysM Unit :=
  if b.pending.isEmpty then pure () else note (.removedWithPending v)

/-- Takes a processor out of the machine.  If its control structure was loaded, none is
loaded afterwards; what the hardware holds stays as it is. -/
def remove (v : Vpid) : SysM VCpu := do
  let r ← resident v
  modify fun m =>
    { m with
      residents := m.residents.erase v
      loaded := if m.loaded = some v then none else m.loaded }
  noteRemoval v r.broker
  pure r.vcpu

/-- The parent of a processor, if it has one that is registered. -/
def parentOf (v : Vpid) : SysM (Option Vpid) := do
  let c ← vcpu v
  let m ← get
  pure (c.parent.filter m.isRegistered)

theorem getElem?_residents_adopt (m : Machine) (v w : Vpid) (r : Resident) (s : Focus) :
  (m.adopt v r s).residents[w]? =
    if w = v then some { r with vcpu := s.vcpu } else m.residents[w]?
  := by
  simp [adopt, Std.ExtTreeMap.getElem?_insert, @eq_comm _ w v]

theorem isRegistered_iff {m : Machine} {v : Vpid} :
  m.isRegistered v = true ↔ ∃ r, m.residents[v]? = some r
  := by
  rw [isRegistered, Std.ExtTreeMap.contains_eq_isSome_getElem?, Option.isSome_iff_exists]

end Machine

end ExitRelay
