import ExitRelay.Exit.Event
import ExitRelay.Vmcs
import ExitRelay.Word

/-!
# Exiting controls

An exiting control is a bit of a control field that makes a processor exit in certain
situations.  The broker manages three of them.  A control field has an allowance, the bits
that a listener may change: these are exactly the bits of the controls managed in it.
-/

namespace ExitRelay

/-- A field of execution controls. -/
inductive ControlField where
  | primary
  | secondary
  deriving DecidableEq, Repr

/-- An exiting control that the broker manages. -/
inductive Control where
  /-- Exit when the guest loads CR3. -/
  | cr3LoadExiting
  /-- Exit after every instruction. -/
  | monitorTrapFlag
  /-- Exit on accesses that the extended page tables do not allow. -/
  | eptViolation
  deriving DecidableEq, Repr

/-- What becomes of a processor when nobody handles its exit. -/
inductive Fallback where
  /-- Go on behind the instruction that exited. -/
  | advance
  /-- Run the instruction again. -/
  | resume
  deriving DecidableEq, Repr

/-- The name of a fallback. -/
def Fallback.name : Fallback → String
  | .advance => "Advance"
  | .resume => "Resume"

namespace Control

/-- Every control. -/
def all : List Control := [.cr3LoadExiting, .monitorTrapFlag, .eptViolation]

/-- The name of a control. -/
def name : Control → String
  | .cr3LoadExiting => "cr3_load_exiting"
  | .monitorTrapFlag => "monitor_trap_flag"
  | .eptViolation => "ept_violation_ve"

/-- The control with a name. -/
def ofName? (s : String) : Option Control :=
  all.find? (·.name = s)

/-- The field that holds a control. -/
def field : Control → ControlField
  | .cr3LoadExiting => .primary
  | .monitorTrapFlag => .primary
  | .eptViolation => .secondary

/-- The position of a control in its field. -/
def position : Control → Nat
  | .cr3LoadExiting => 15
  | .monitorTrapFlag => 27
  | .eptViolation => 18

/-- The bit of a control, as a word. -/
def mask (c : Control) : UInt64 :=
  UInt64.ofNat (1 <<< c.position)

/-- The reason under which listeners subscribe to a control. -/
def exit : Control → ExitReason
  | .cr3LoadExiting => .cr3Load
  | .monitorTrapFlag => .monitorTrap
  | .eptViolation => .eptRead

/-- What becomes of a processor when nobody handles an exit that a control caused. -/
def fallback : Control → Fallback
  | .cr3LoadExiting => .advance
  | .monitorTrapFlag => .resume
  | .eptViolation => .resume

/-- Exits for the reason are caused by the control. -/
def covers (c : Control) (r : ExitReason) : Bool :=
  c.exit.subscription.contains r

/-- The control that causes exits for a reason. -/
def ofReason? (r : ExitReason) : Option Control :=
  all.find? (·.covers r)

theorem mem_all (c : Control) :
  c ∈ all
  := by
  cases c <;> decide

/-- A reason belongs to at most one control. -/
theorem ofReason?_eq_some_iff {r : ExitReason} {c : Control} :
  ofReason? r = some c ↔ c.covers r = true
  := by
  cases r <;> cases c <;> decide

end Control

namespace ControlField

/-- The name of a control field. -/
def name : ControlField → String
  | .primary => "Primary"
  | .secondary => "Secondary"

/-- The encoding of a control field. -/
def encoding : ControlField → Field
  | .primary => Field.primaryControls
  | .secondary => Field.secondaryControls

/-- The control field with an encoding; all 64 bits of the word count. -/
def ofEncoding? (w : UInt64) : Option ControlField :=
  [primary, secondary].find? (·.encoding.toUInt64 = w)

/-- The controls in a field, from the lowest bit up. -/
def controls (f : ControlField) : List Control :=
  Control.all.filter (·.field = f)

/-- The bits of a field that a listener may change. -/
def allowance (f : ControlField) : UInt64 :=
  f.controls.foldr (fun c w => c.mask ||| w) 0

/-- The control at a position of a field. -/
def controlAt? (f : ControlField) (i : Nat) : Option Control :=
  f.controls.find? (·.position = i)

theorem mem_controls {f : ControlField} {c : Control} :
  c ∈ f.controls ↔ c.field = f
  := by
  cases f <;> cases c <;> decide

theorem position_of_controlAt? {f : ControlField} {i : Nat} {c : Control}
    (h : f.controlAt? i = some c) :
  c.position = i
  := by
  simpa using List.find?_some h

/-- Looking up each position of a field in turn finds its controls in order. -/
theorem filterMap_controlAt? (f : ControlField) :
  (List.range 64).filterMap f.controlAt? = f.controls
  := by
  cases f <;> decide +kernel

/-- The allowance of a field consists of the positions of its controls. -/
theorem bit_allowance {f : ControlField} {i : Nat} (h : i < 64) :
  Word.bit f.allowance i = (f.controlAt? i).isSome
  := by
  revert i
  cases f <;> decide +kernel

end ControlField

end ExitRelay
