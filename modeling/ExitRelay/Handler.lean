import ExitRelay.Exit.Hardware
import ExitRelay.Exit.Qualification
import ExitRelay.Hypercall

/-!
# Handling exits

A trap is an exit of a guest that one of the exiting controls caused.  Each kind of trap is
turned into an event, which is offered to the listeners.  When there is no listener, the
control is switched off, since nobody needs its exits.

`handleExit` takes an exit of a guest as the hardware reports it, which may be a trap or a
hypercall.  Exits that are not the broker's are declined and leave the machine as it is.
-/

namespace ExitRelay

/-- The cause for which a trap cannot be handled. -/
inductive TrapError where
  | system (e : SysError)
  /-- No general-purpose register has the number. -/
  | illegalRegister (number : UInt8)
  deriving DecidableEq, Repr

/-- A program on a machine that handles a trap. -/
abbrev TrapM := EStateM TrapError Machine

instance : MonadLift SysM TrapM where
  monadLift x := x.adaptExcept TrapError.system

namespace Machine

/-- Offers the event of a trap.  Without a listener the control is switched off, and if
`skip` is set the processor goes on behind the instruction that exited. -/
def offer (control : Control) (e : ExitEvent) (skip : Bool) : SysM Transfer := do
  match ← notify e with
  | some transfer => pure transfer
  | none =>
    note (.unheard control e.origin)
    onVCpu e.origin do
      control.disable
      if skip then VcpuM.advance else pure ()
    pure (.run e.origin)

/-- The bit of a value moved to CR3 that is a hint and not part of the register. -/
def noFlushHint : UInt64 := 0x8000_0000_0000_0000

/-- The value of the register with a number, which may be the stack pointer. -/
def moveSource (v : Vpid) (number : UInt8) : TrapM UInt64 :=
  if number = Register.stackPointerNumber then
    onVCpu v (VcpuM.vmread Field.rsp)
  else
    match Register.ofNumber? number with
    | some r => (·.get r) <$> registers v
    | none => throw (.illegalRegister number)

/-- Writes CR3 and returns what it held before. -/
def exchangeCr3 (new : UInt64) : VcpuM UInt64 := do
  let old ← VcpuM.vmread Field.cr3
  VcpuM.vmwrite Field.cr3 new
  pure old

/-- A move of a general-purpose register to CR3.  The move is carried out before listeners
are told of it; the event holds the new and the old value. -/
def handleCr3Write (v : Vpid) (number : UInt8) : TrapM Transfer := do
  enter v
  let source ← moveSource v number
  let new := source &&& ~~~noFlushHint
  let old ← onVCpu v (exchangeCr3 new)
  note (.cr3Written old new v)
  offer .cr3LoadExiting ⟨v, .cr3Load, new, old⟩ true

/-- The event that tells where the instruction pointer stands: its guest-physical address
and the pointer itself. -/
def instructionEvent (v : Vpid) (reason : ExitReason) : VcpuM ExitEvent := do
  let rip ← VcpuM.vmread Field.rip
  let address ← VcpuM.translate rip
  pure ⟨v, reason, address, rip⟩

/-- An access that the extended page tables do not allow. -/
def handleEptViolation (v : Vpid) (violation : EptViolation) : SysM Transfer := do
  enter v
  let e ← onVCpu v (instructionEvent v violation.reason)
  note (.eptViolated violation.reason e.data1 v)
  offer .eptViolation e false

/-- An exit after a single instruction.  The control is switched on again first, so that the
processor keeps stepping until the listeners are done with it. -/
def handleMonitorTrap (v : Vpid) : SysM Transfer := do
  enter v
  onVCpu v Control.monitorTrapFlag.enable
  let e ← onVCpu v (instructionEvent v .monitorTrap)
  note (.trapped e.data1 v)
  offer .monitorTrapFlag e true

/-- Handles an exit of a processor, or declines it. -/
def handleExit (v : Vpid) (x : HardwareExit) : TrapM (Option Transfer) :=
  if x.entryFailure then pure none
  else
    match x.reason with
    | .crAccess =>
      let access := CrAccess.ofQualification x.qualification
      if access.isCr3Write then some <$> handleCr3Write v access.generalRegister
      else pure none
    | .eptViolation => some <$> handleEptViolation v (EptViolation.ofQualification x.qualification)
    | .monitorTrapFlag => some <$> handleMonitorTrap v
    | .vmcall => handleHypercall v
    | _ => pure none

end Machine

end ExitRelay
