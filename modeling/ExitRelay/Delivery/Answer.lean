import ExitRelay.Delivery.Offer
import ExitRelay.Hypercall.Flags

/-!
# Receiving and answering events

A listener receives events with `nextExit` and answers them with `endOfExit`.  A listener
outside the kernel that asks while nothing is pending goes back to its parent without having
completed its call, and asks again when it next runs.  It may give a waiting time with its
first question; the first question after that time is answered by a timeout.
-/

namespace ExitRelay.Machine

/-- Completes a call of `nextExit`: the result registers are set, the caller goes on behind
the call, and the call is successful. -/
def report (caller : Vpid) (results : Registers → Registers) : SysM Transfer := do
  onVCpu caller do
    VcpuM.modifyRegisters results
    VcpuM.advance
    VcpuM.modifyRegisters fun regs => { regs with rax := Status.success.code }
  pure (.run caller)

/-- The result registers that tell of an event. -/
def eventRegisters (e : ExitEvent) (regs : Registers) : Registers :=
  { regs with r10 := e.origin, r11 := e.reason.code, r12 := e.data0, r13 := e.data1 }

/-- The result registers that tell of a timeout. -/
def timeoutRegisters (regs : Registers) : Registers :=
  { regs with r11 := ExitReason.timeout.code }

/-- Loads the parent of a caller that has to wait. -/
def returnToParent (caller : Vpid) (yield : Option UInt64) : SysM Transfer := do
  match ← parentOf caller with
  | none => refuse .noParent
  | some parent =>
    load parent
    pure (.returnToParent parent yield)

/-- Sets the deadline of a wait that starts now, if a waiting time is given. -/
def arm (caller : Vpid) : Option UInt64 → SysM Unit
  | none => pure ()
  | some ns => do
    let m ← get
    modifyBroker caller fun b => b.setDeadline (Broker.deadlineAfter m.clock ns)

/-- Lets a caller wait for an event.  A deadline is set once, by the first question. -/
def await (caller : Vpid) : SysM Transfer := do
  let b ← broker caller
  let m ← get
  match b.deadline with
  | some deadline =>
    if deadline ≤ m.clock then
      modifyBroker caller Broker.clearDeadline
      note (.timedOut caller)
      report caller timeoutRegisters
    else
      returnToParent caller (some (deadline - m.clock))
  | none =>
    let regs ← registers caller
    arm caller (NextExit.timeout? regs.r11)
    note (.waiting caller)
    returnToParent caller (NextExit.timeout? regs.r11)

/-- Ends the wait of a listener outside the kernel that is about to be told of an event. -/
def endWait (caller : Vpid) (e : ExitEvent) (kernel : Bool) : SysM Unit :=
  if kernel then pure ()
  else do
    modifyBroker caller Broker.clearDeadline
    note (.notifying e.reason caller)

/-- Tells a listener of the event in flight, or lets it wait if there is none.  A kernel
listener is told of events by an interrupt and has no reason to ask without one. -/
def nextExit (caller : Vpid) : SysM Transfer := do
  let b ← broker caller
  match b.pending.front? with
  | some e =>
    endWait caller e b.isKernelListener
    report caller (eventRegisters e)
  | none =>
    if b.isKernelListener then
      note (.announcedNothing caller)
      refuse .nothingPending
    else
      await caller

/-- Offers a declined event to the next listener and handles it by default if there is none. -/
def passOn (e : ExitEvent) : SysM Transfer := do
  match ← notifyNext e with
  | some transfer => pure transfer
  | none => fallBack e

/-- Answers the event in flight.  If the caller has handled it, the origin runs again, and
otherwise the event is offered to the next listener or handled by default. -/
def endOfExit (caller : Vpid) : SysM Transfer := do
  let regs ← registers caller
  let front ← onBroker caller fun b =>
    let (front, pending) := b.pending.pop
    (front, { b with pending })
  match front with
  | none =>
    note (.answeredNothing caller)
    refuse .nothingToAnswer
  | some e =>
    if ← contains e.origin then
      modifyRegisters caller fun regs => { regs with rax := Status.success.code }
      if EndOfExit.handled regs.r11 then
        note (.handled e.reason caller)
        release e.origin (EndOfExit.advance regs.r11)
      else
        note (.declined caller e.reason)
        passOn e
    else
      note (.dropping e.origin)
      refuse .originGone

/-- However long the waiting time is, the deadline is set. -/
theorem arm_some (caller : Vpid) (ns : UInt64) :
  arm caller (some ns) = (do
    let m ← get
    modifyBroker caller fun b => { b with deadline := some (Broker.deadlineAfter m.clock ns) })
  := by
  simp only [arm, Broker.setDeadline_deadlineAfter]

end ExitRelay.Machine
