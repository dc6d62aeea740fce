import ExitRelay.Control
import ExitRelay.Exit.Event
import ExitRelay.Hypercall.Status
import ExitRelay.Register.Change

/-!
# Notes

The broker notes what it does and what it finds amiss.  `Note` lists the occasions, with the
data that belong to them; every note has a level of importance and a text.  `Refusal` lists
the requests that the broker itself refuses; each gives rise to a system error and a note.
-/

namespace ExitRelay

/-- The importance of a note. -/
inductive Level where
  | error
  | warn
  | info
  | debug
  | trace
  deriving DecidableEq, Repr

/-- The name of a level. -/
def Level.name : Level → String
  | .error => "ERROR"
  | .warn => "WARN"
  | .info => "INFO"
  | .debug => "DEBUG"
  | .trace => "TRACE"

/-- A request that the broker refuses. -/
inductive Refusal where
  /-- No processor has the number. -/
  | unknownVpid
  /-- A processor has the number already. -/
  | alreadyRegistered
  /-- A kernel listener asks for an event, and none is pending. -/
  | nothingPending
  /-- A listener is to wait and has no parent to run instead. -/
  | noParent
  /-- A listener answers an event, and none is pending. -/
  | nothingToAnswer
  /-- The origin of an answered event has been removed. -/
  | originGone
  deriving DecidableEq, Repr

namespace Refusal

/-- The system error that a refused request ends with. -/
def error : Refusal → SysError
  | .unknownVpid => .notFound
  | .alreadyRegistered => .alreadyExists
  | .nothingPending => .badState
  | .noParent => .badState
  | .nothingToAnswer => .badState
  | .originGone => .notFound

/-- The explanation of a refusal. -/
def explanation : Refusal → String
  | .unknownVpid => "unknown vpid"
  | .alreadyRegistered => "vcpu already registered"
  | .nothingPending => "no pending exit event"
  | .noParent => "listener has no parent to return to"
  | .nothingToAnswer => "end_of_exit without a pending event"
  | .originGone => "origin of the pending event is gone"

end Refusal

/-- An occasion that the broker notes. -/
inductive Note where
  | refused (why : Refusal)
  | registered (v : Vpid)
  | removedWithPending (v : Vpid)
  | alreadyListening (listener : Vpid) (reason : ExitReason)
  | notListening (listener : Vpid) (reason : ExitReason)
  | firstListenerGone (listener : Vpid) (reason : ExitReason)
  | nextListenerGone (listener : Vpid) (reason : ExitReason)
  | pausing (origin : Vpid)
  | unhandled (reason : ExitReason)
  | overflow (count : Nat) (listener : Vpid)
  | interrupting (listener : Vpid)
  | running (listener : Vpid)
  | notAdvancing (origin : Vpid)
  | fallingBack (reason : ExitReason) (origin : Vpid) (control : Control)
  | announcedNothing (listener : Vpid)
  | notifying (reason : ExitReason) (listener : Vpid)
  | timedOut (listener : Vpid)
  | waiting (listener : Vpid)
  | answeredNothing (listener : Vpid)
  | dropping (origin : Vpid)
  | handled (reason : ExitReason) (listener : Vpid)
  | declined (listener : Vpid) (reason : ExitReason)
  | denied (position : Nat) (field : ControlField)
  | enabled (control : Control) (target : Vpid)
  | disabled (control : Control) (target : Vpid)
  | stillPending (reason : ExitReason) (origin : Vpid)
  | unknownField (field : UInt64)
  | controlFailed (field : ControlField) (status : Status)
  | cr3Written (old new : UInt64) (v : Vpid)
  | eptViolated (reason : ExitReason) (rip : UInt64) (v : Vpid)
  | trapped (rip : UInt64) (v : Vpid)
  | unheard (control : Control) (v : Vpid)
  | hypercallFailed (caller : Vpid) (status : Status)
  | hypercallDone (rax : UInt64) (caller : Vpid) (before after : Registers)
  | translated (gva gpa : UInt64) (v : Vpid)
  | pauseFailed (v : Vpid)
  | resumeFailed (v : Vpid)
  deriving DecidableEq, Repr

namespace Note

open Word (hex)

/-- The level of a note. -/
def level : Note → Level
  | .overflow .. | .announcedNothing .. => .error
  | .refused .. | .removedWithPending .. | .firstListenerGone .. | .nextListenerGone ..
  | .fallingBack .. | .answeredNothing .. | .dropping .. | .denied .. | .stillPending ..
  | .unknownField .. | .unheard .. | .pauseFailed .. | .resumeFailed .. => .warn
  | .unhandled .. => .info
  | .cr3Written .. | .eptViolated .. | .trapped .. | .hypercallDone .. | .translated .. => .trace
  | _ => .debug

/-- The phrase for exits that a control causes. -/
def exiting : Control → String
  | .cr3LoadExiting => "wrcr3 exiting"
  | .monitorTrapFlag => "MTF exiting"
  | .eptViolation => "EPT violation exiting"

/-- The text of a note. -/
def text : Note → String
  | .refused why => s!"[AxError::{why.error.name}] {why.explanation}"
  | .registered v => s!"[broker] vcpu {hex v} registered"
  | .removedWithPending v => s!"[broker] vcpu {hex v} removed with an exit event pending"
  | .alreadyListening l r => s!"add_listener: vpid {hex l} is already listening for {r.name}"
  | .notListening l r => s!"remove_listener: vpid {hex l} is not listening for {r.name}"
  | .firstListenerGone l r => s!"notify_exit: listener {hex l} of {r.name} is gone"
  | .nextListenerGone l r => s!"notify_next: listener {hex l} of {r.name} is gone"
  | .pausing o => s!"notify_exit: pausing vcpu {hex o}"
  | .unhandled r => s!"notify_next: {r.name} unhandled by listeners"
  | .overflow n l => s!"inject_exit_and_run: {n} pending events on listener {hex l}"
  | .interrupting l => s!"inject_exit_and_run: injecting virtual interrupt into {hex l}"
  | .running l => s!"inject_exit_and_run: resuming {hex l}"
  | .notAdvancing o => s!"listener_handled_exit: not advancing {hex o}"
  | .fallingBack r o c => s!"{r.name} on {hex o}: falling back to {c.name}"
  | .announcedNothing l =>
    s!"next_exit: kernel listener {hex l} asked for an exit event but none is pending"
  | .notifying r l => s!"next_exit: notifying {r.name} to {hex l}"
  | .timedOut l => s!"next_exit: timeout on {hex l}"
  | .waiting l => s!"next_exit: no pending events for {hex l}"
  | .answeredNothing l => s!"end_of_exit: no pending event on {hex l}"
  | .dropping o => s!"end_of_exit: dropping event of vanished vcpu {hex o}"
  | .handled r l => s!"end_of_exit: {r.name} handled by {hex l}"
  | .declined l r => s!"end_of_exit: {hex l} declined {r.name}, trying next listener"
  | .denied i f => s!"control_exiting: bit {i} of {f.name} may not be changed"
  | .enabled c t => s!"control_exiting: enable {c.name} on {hex t}"
  | .disabled c t => s!"control_exiting: disable {c.name} on {hex t}"
  | .stillPending r o =>
    s!"control_exiting: {r.name} of {hex o} was still pending, running its default handler"
  | .unknownField f => s!"vmwrite: unhandled field {hex f}"
  | .controlFailed f s => s!"vmwrite: {f.name} exiting failed with {s.name}"
  | .cr3Written old new v => s!"handle_wrcr3: {hex old} -> {hex new} on {hex v}"
  | .eptViolated r rip v => s!"handle_ept_violation: {r.name} at rip {hex rip} on {hex v}"
  | .trapped rip v => s!"handle_monitor_trap: rip {hex rip} on {hex v}"
  | .unheard c v => s!"{exiting c} is enabled on {hex v} but there is no listener to notify"
  | .hypercallFailed c s => s!"hypercall of {hex c} failed: {s.name}"
  | .hypercallDone rax c before after =>
    s!"hypercall {hex rax} of {hex c}: {Registers.report before after}"
  | .translated gva gpa v => s!"translate_v2p: {hex gva} -> {hex gpa} on {hex v}"
  | .pauseFailed v => s!"pause vp {hex v} failed"
  | .resumeFailed v => s!"resume vp {hex v} failed"

end Note

end ExitRelay
