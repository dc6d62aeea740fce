import ExitRelay.Control
import ExitRelay.Journal
import ExitRelay.VCpu.Basic

/-!
# Programs on one processor

`VcpuM` is the monad of programs that act on a single processor and write the journal.  Such
a program knows the number of its processor and whether the control structure of that
processor is the current one.  Reading or writing a field, advancing and queueing an
interrupt need it to be current: otherwise they are misdirected and end in a bad state
before any fault can occur.
-/

namespace ExitRelay

/-- What a program on one processor is told. -/
structure Standpoint where
  vpid : Vpid
  /-- The control structure of the processor is the current one. -/
  isCurrent : Bool
  deriving DecidableEq, Repr

/-- What a program on one processor can change. -/
structure Focus where
  vcpu : VCpu
  journal : Journal

/-- A program on one processor. -/
abbrev VcpuM := ReaderT Standpoint (EStateM SysError Focus)

namespace VcpuM

/-- The state of the processor. -/
def vcpu : VcpuM VCpu :=
  return (← get).vcpu

/-- Changes the state of the processor. -/
def modifyVCpu (f : VCpu → VCpu) : VcpuM Unit :=
  modify fun s => { s with vcpu := f s.vcpu }

/-- Writes a note. -/
def note (n : Note) : VcpuM Unit :=
  modify fun s => { s with journal := s.journal.note n }

/-- Records an action. -/
def act (a : Action) : VcpuM Unit :=
  modify fun s => { s with journal := s.journal.act a }

/-- Uses up one step of the fault plan of an operation and fails if it says so. -/
def attempt (m : Method) : VcpuM Unit := do
  let plan := (← vcpu).faults.get m
  modifyVCpu fun c => { c with faults := c.faults.set m plan.next }
  match plan.outcome 0 with
  | none => pure ()
  | some e => throw e

/-- Fails unless the control structure of the processor is the current one. -/
def requireCurrent : VcpuM Unit := do
  let here ← read
  if here.isCurrent then pure ()
  else
    modify fun s => { s with journal := s.journal.misdirect here.vpid }
    throw .badState

/-- Reads a field of the control structure. -/
def vmread (f : Field) : VcpuM UInt64 := do
  requireCurrent
  attempt .vmread
  return (← vcpu).vmcs.read f

/-- Writes a field of the control structure. -/
def vmwrite (f : Field) (w : UInt64) : VcpuM Unit := do
  requireCurrent
  attempt .vmwrite
  modifyVCpu fun c => { c with vmcs := c.vmcs.write f w }
  act (.vmwrite (← read).vpid f w)

/-- The length in bytes of the instructions that exit. -/
def instructionLength : UInt64 := 3

/-- Moves the instruction pointer behind the instruction that exited. -/
def advance : VcpuM Unit := do
  requireCurrent
  attempt .advance
  modifyVCpu fun c =>
    { c with vmcs := c.vmcs.write Field.rip (c.vmcs.read Field.rip + instructionLength) }
  act (.advance (← read).vpid)

/-- Queues an interrupt, which is delivered when the processor is entered. -/
def queueInterrupt (vector : UInt8) : VcpuM Unit := do
  requireCurrent
  attempt .interrupt
  act (.interrupt (← read).vpid vector)

/-- The distance between guest-virtual and guest-physical addresses. -/
def translationOffset : UInt64 := 0x8000_0000

/-- Translates a guest-virtual address to a guest-physical one. -/
def translate (gva : UInt64) : VcpuM UInt64 := do
  attempt .translate
  return gva + translationOffset

/-- Takes the processor from the scheduler. -/
def pause : VcpuM Unit := do
  modifyVCpu fun c => { c with paused := true }
  act (.pause (← read).vpid)

/-- Gives the processor back to the scheduler. -/
def resume : VcpuM Unit := do
  modifyVCpu fun c => { c with paused := false }
  act (.resume (← read).vpid)

/-- The general-purpose registers. -/
def registers : VcpuM Registers :=
  return (← vcpu).regs

/-- Changes the general-purpose registers. -/
def modifyRegisters (f : Registers → Registers) : VcpuM Unit :=
  modifyVCpu fun c => { c with regs := f c.regs }

/-- The selector of the code segment, of which 16 bits count. -/
def codeSelector : VcpuM UInt16 :=
  return (← vmread Field.cs).toUInt16

/-- The privilege level, which the code selector holds in its two lowest bits. -/
def privilegeLevel : VcpuM UInt8 :=
  return (← codeSelector).toUInt8 &&& 3

end VcpuM

namespace Control

open VcpuM

/-- Sets the bit of a control and leaves the other bits of its field as they are. -/
def enable (c : Control) : VcpuM Unit := do
  let bits ← vmread c.field.encoding
  vmwrite c.field.encoding (bits ||| c.mask)

/-- Clears the bit of a control and leaves the other bits of its field as they are. -/
def disable (c : Control) : VcpuM Unit := do
  let bits ← vmread c.field.encoding
  vmwrite c.field.encoding (bits &&& ~~~c.mask)

/-- The bit of a control is set. -/
def isEnabled (c : Control) : VcpuM Bool := do
  let bits ← vmread c.field.encoding
  return bits &&& c.mask ≠ 0

/-- Does what becomes of a processor when nobody handles an exit that the control caused. -/
def runFallback (c : Control) : VcpuM Unit :=
  match c.fallback with
  | .advance => advance
  | .resume => pure ()

end Control

end ExitRelay
