import ExitRelay.Delivery.Answer
import ExitRelay.Hypercall.RegisterId
import ExitRelay.Hypercall.Selector
import ExitRelay.Subscription

/-!
# Hypercalls

A processor makes a hypercall with the selector in `rax`; the broker declines selectors of
families that it does not serve.  The caller goes on behind the call before the call is
carried out, so that a call that fails is complete as well and leaves its status in `rax`.
Only `nextExit` moves the caller on by itself, because a caller that has to wait repeats the
call.
-/

namespace ExitRelay.Machine

/-- The processor whose register the argument of a call names.  A guest may name its parent
only, by its number or as the parent; the root domain may name any processor. -/
def registerOwner (caller argument : Vpid) : CallM Vpid := do
  let c ← vcpu caller
  let parent ← parentOf caller
  if argument = Vpid.self then throw .invalidVpidUnsupportedSelf
  else if argument = Vpid.any then throw .invalidVpidUnsupportedAny
  else if argument = Vpid.parent then
    if c.isRoot then throw .invalidVpidUnsupportedParent
    else match parent with
      | some p => pure p
      | none => throw .invalidVpidUnknown
  else if ¬ c.isRoot ∧ parent ≠ some argument then throw .failureUnsupported
  else if ← contains argument then pure argument
  else throw .invalidVpidUnknown

/-- The value of a register of a processor. -/
def readRegister (v : Vpid) (i : RegisterId) : SysM UInt64 :=
  match i.place with
  | .registerFile r => (·.get r) <$> registers v
  | .controlStructure f => withVmcs v (VcpuM.vmread f)

/-- The call that reads the register `r12` of the processor `r11` into `r10`. -/
def registerValue (caller : Vpid) : CallM Unit := do
  let regs ← registers caller
  let owner ← registerOwner caller regs.r11
  match RegisterId.ofNumber? regs.r12 with
  | none => throw .invalidParams2
  | some i =>
    let value ← readRegister owner i
    succeed caller fun regs => { regs with r10 := value }

/-- The call that replaces the guest-virtual address in `rdi` by the guest-physical one. -/
def translateAddress (caller : Vpid) : CallM Unit := do
  let regs ← registers caller
  let gpa ← onVCpu caller (VcpuM.translate regs.rdi)
  note (.translated regs.rdi gpa caller)
  succeed caller fun regs => { regs with rdi := gpa }

/-- The processor that the argument of a call names for pausing and resuming, if it is
registered. -/
def scheduled (caller argument : Vpid) : SysM (Option Vpid) := do
  if argument = Vpid.parent then parentOf caller
  else if ← contains argument then pure (some argument)
  else pure none

/-- The call that pauses the processor `r11` or lets it run again. -/
def schedule (caller : Vpid) (pausing : Bool) : CallM Unit := do
  let regs ← registers caller
  match ← scheduled caller regs.r11 with
  | none =>
    note (if pausing then .pauseFailed regs.r11 else .resumeFailed regs.r11)
    throw .failureUnknown
  | some v =>
    onVCpu v (if pausing then VcpuM.pause else VcpuM.resume)
    succeed caller id

/-- Whether a domain may make a call.  Calls about exit events and translations are for
guests only. -/
def mayCall (domain : DomainKind) (call : Call) : Bool :=
  match call.family with
  | .exit | .introspection => domain = .guest
  | .management | .state => true

/-- Carries out a call. -/
def serve (caller : Vpid) : Call → CallM Transfer
  | .pause => do schedule caller true; pure (.run caller)
  | .resume => do schedule caller false; pure (.run caller)
  | .registerValue => do registerValue caller; pure (.run caller)
  | .nextExit => nextExit caller
  | .endOfExit => endOfExit caller
  | .vmread => do readField caller; pure (.run caller)
  | .vmwrite => do writeControls caller; pure (.run caller)
  | .translate => do translateAddress caller; pure (.run caller)

/-- Completes a failed call: the caller finds the status in `rax` and runs on. -/
def fail (caller : Vpid) (status : Status) : SysM Transfer := do
  note (.hypercallFailed caller status)
  load caller
  modifyRegisters caller fun regs => { regs with rax := status.code }
  pure (.run caller)

/-- Carries out a call and completes it if it fails. -/
def completing (caller : Vpid) (x : CallM Transfer) : SysM Transfer := fun m =>
  match x m with
  | .ok transfer m' => .ok transfer m'
  | .error status m' => fail caller status m'

/-- Asks for the next event; if that fails the caller is moved on and the call completed. -/
def serveNextExit (caller : Vpid) : SysM Transfer :=
  tryCatch (nextExit caller) fun e => do
    load caller
    onVCpu caller VcpuM.advance
    fail caller (Status.ofSysError e)

/-- Moves the caller on and carries out a call; without a call it fails. -/
def serveAdvanced (caller : Vpid) (call : Option Call) : SysM Transfer := do
  onVCpu caller VcpuM.advance
  completing caller do
    match call with
    | none => throw .failureUnknownHypercall
    | some call => serve caller call

/-- Serves a call; only `nextExit` is not moved on beforehand. -/
def serveCall (caller : Vpid) (call : Option Call) : SysM Transfer :=
  if call = some .nextExit then serveNextExit caller else serveAdvanced caller call

/-- Notes which registers of its caller a hypercall has changed, if any. -/
def noteChanges (rax : UInt64) (caller : Vpid) (before : Registers) : SysM Unit := do
  let after ← registers caller
  if before = after then pure () else note (.hypercallDone rax caller before after)

/-- Handles a hypercall.  It is declined, and nothing changes, if its opcode is not one of
the broker's. -/
def handleHypercall (caller : Vpid) : SysM (Option Transfer) := do
  let c ← vcpu caller
  let selector := Selector.ofWord c.regs.rax
  match Family.ofOpcode? selector.opcode with
  | none => pure none
  | some family =>
    enter caller
    let call := (Call.ofIndex? family selector.index).filter (mayCall c.domain)
    let transfer ← serveCall caller call
    noteChanges c.regs.rax caller c.regs
    pure (some transfer)

end ExitRelay.Machine
