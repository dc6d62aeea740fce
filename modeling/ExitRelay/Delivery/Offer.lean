import ExitRelay.Machine.Switch

/-!
# Offering events

An event is offered to the listeners for its reason on its origin, one after the other.
`notify` offers it to the first listener and `notifyNext` to the one that follows the cursor.
A listener that is offered an event has it queued and is run.  A listener that has not
answered an earlier event gets no second one: then, as when no listener is left, the default
handling takes place, which `fallBack` does on the origin.
-/

namespace ExitRelay.Machine

/-- Moves the origin of a handled event behind the instruction that exited, if the listener
wants it. -/
def step (origin : Vpid) (advance : Bool) : VcpuM Unit :=
  if advance then VcpuM.advance else VcpuM.note (.notAdvancing origin)

/-- Lets the origin of an event run again after a listener has handled the event. -/
def release (origin : Vpid) (advance : Bool) : SysM Transfer := do
  load origin
  onVCpu origin do
    step origin advance
    VcpuM.resume
  pure (.run origin)

/-- Does with the origin of an event what becomes of it when no listener takes the event, and
switches off the control that caused the exit, if one did. -/
def giveUp (e : ExitEvent) : VcpuM Unit :=
  match Control.ofReason? e.reason with
  | none => pure ()
  | some control => do
    VcpuM.note (.fallingBack e.reason e.origin control)
    control.runFallback
    control.disable

/-- The default handling of an event that no listener takes; the origin runs again. -/
def fallBack (e : ExitEvent) : SysM Transfer := do
  load e.origin
  onVCpu e.origin do
    giveUp e
    VcpuM.resume
  pure (.run e.origin)

/-- Interrupts a listener in the kernel; any other one asks for its event when it runs. -/
def announce (listener : Vpid) (kernel : Bool) : SysM Unit := do
  let m ← get
  if kernel then
    note (.interrupting listener)
    onVCpu listener (VcpuM.queueInterrupt m.config.vector)
  else
    note (.running listener)

/-- Queues an event for a listener and runs the listener.  If it is not the only event
there, it is taken back and handled by default. -/
def inject (listener : Vpid) (e : ExitEvent) : SysM Transfer := do
  let count ← onBroker listener fun b =>
    let pending := b.pending.push e
    (pending.length, { b with pending })
  if 1 < count then
    note (.overflow count listener)
    modifyBroker listener fun b => { b with pending := b.pending.popLatest.2 }
    fallBack e
  else
    modifyBroker listener Broker.clearDeadline
    let b ← broker listener
    load listener
    announce listener b.isKernelListener
    pure (.run listener)

/-- Offers an event to the first listener for its reason; the origin is paused until a
listener lets it go.  Without such a listener nothing is done. -/
def notify (e : ExitEvent) : SysM (Option Transfer) := do
  let first ← onBroker e.origin fun b =>
    let (listener, registry) := b.registry.first e.reason
    (listener, { b with registry })
  match first with
  | none => pure none
  | some listener =>
    if ← contains listener then
      note (.pausing e.origin)
      onVCpu e.origin VcpuM.pause
      some <$> inject listener e
    else
      note (.firstListenerGone listener e.reason)
      pure none

/-- Offers an event that a listener has declined to the listener that follows. -/
def notifyNext (e : ExitEvent) : SysM (Option Transfer) := do
  let next ← onBroker e.origin fun b =>
    let (listener, registry) := b.registry.next e.reason
    (listener, { b with registry })
  match next with
  | none =>
    note (.unhandled e.reason)
    pure none
  | some listener =>
    if ← contains listener then
      some <$> inject listener e
    else
      note (.nextListenerGone listener e.reason)
      pure none

end ExitRelay.Machine
