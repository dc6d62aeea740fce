import ExitRelay.Register
import ExitRelay.SysError
import ExitRelay.Vmcs
import ExitRelay.Word

/-!
# Virtual processors

The state of a virtual processor: the kind of domain it belongs to, its parent, its
general-purpose registers and control structure, whether the scheduler leaves it alone, and
the plan of its faults.

An operation of the hardware may fail.  A fault plan tells for each coming attempt whether
it fails and with which error; a processor has one for each operation that can fail.  An
attempt uses up the head of the plan, and a failed attempt has no other effect.
-/

namespace ExitRelay

/-- An operation of a processor that can fail. -/
inductive Method where
  | load
  | vmread
  | vmwrite
  | advance
  | interrupt
  | translate
  deriving DecidableEq, Repr

/-- Every operation that can fail. -/
def Method.all : List Method := [.load, .vmread, .vmwrite, .advance, .interrupt, .translate]

/-- The errors of the coming attempts, where `none` stands for success. -/
structure FaultPlan where
  outcome : Nat → Option SysError := fun _ => none

namespace FaultPlan

/-- The plan after one attempt. -/
def next (p : FaultPlan) : FaultPlan := ⟨fun n => p.outcome (n + 1)⟩

/-- After `skip` attempts that succeed, `count` attempts fail, or all if there is no count. -/
def failing (e : SysError) (skip : Nat) (count : Option Nat) : FaultPlan where
  outcome n :=
    if n < skip then none
    else match count with
      | none => some e
      | some k => if n - skip < k then some e else none

@[simp]
theorem next_default : ({} : FaultPlan).next = {} := rfl

end FaultPlan

/-- The fault plans of a processor. -/
structure Faults where
  load : FaultPlan := {}
  vmread : FaultPlan := {}
  vmwrite : FaultPlan := {}
  advance : FaultPlan := {}
  interrupt : FaultPlan := {}
  translate : FaultPlan := {}

namespace Faults

/-- The plan of an operation. -/
def get (f : Faults) : Method → FaultPlan
  | .load => f.load
  | .vmread => f.vmread
  | .vmwrite => f.vmwrite
  | .advance => f.advance
  | .interrupt => f.interrupt
  | .translate => f.translate

/-- The plans with the one of an operation replaced. -/
def set (f : Faults) (m : Method) (p : FaultPlan) : Faults :=
  match m with
  | .load => { f with load := p }
  | .vmread => { f with vmread := p }
  | .vmwrite => { f with vmwrite := p }
  | .advance => { f with advance := p }
  | .interrupt => { f with interrupt := p }
  | .translate => { f with translate := p }

@[simp]
theorem get_set_self (f : Faults) (m : Method) (p : FaultPlan) :
  (f.set m p).get m = p
  := by
  cases m <;> rfl

@[simp]
theorem get_set_of_ne (f : Faults) {m n : Method} (p : FaultPlan) (h : n ≠ m) :
  (f.set m p).get n = f.get n
  := by
  revert h
  cases m <;> cases n <;> simp [get, set]

@[simp]
theorem set_get (f : Faults) (m : Method) :
  f.set m (f.get m) = f
  := by
  cases m <;> rfl

@[simp]
theorem get_default (m : Method) :
  ({} : Faults).get m = {}
  := by
  cases m <;> rfl

end Faults

/-- The kind of the domain that a processor belongs to. -/
inductive DomainKind where
  /-- The privileged root domain. -/
  | root
  /-- A guest without privileges. -/
  | guest
  deriving DecidableEq, Repr

/-- A virtual processor. -/
structure VCpu where
  domain : DomainKind := .guest
  /-- The processor that runs this one. -/
  parent : Option Vpid := none
  regs : Registers := {}
  vmcs : Vmcs := {}
  paused : Bool := false
  faults : Faults := {}

namespace VCpu

/-- The processor belongs to the root domain. -/
def isRoot (c : VCpu) : Bool := c.domain = .root

end VCpu

end ExitRelay
