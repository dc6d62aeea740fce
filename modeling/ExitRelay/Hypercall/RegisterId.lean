import ExitRelay.Register
import ExitRelay.Vmcs

/-!
# Register identifiers

The call that reads a register of another processor names it by a number of its own.  A
general-purpose register is found in the register file, every other one in a field of the
control structure.
-/

namespace ExitRelay

/-- A register that can be asked for. -/
inductive RegisterId where
  | general (r : Register)
  | rsp
  | rip
  | cr0
  | cr3
  | cr4
  | rflags
  | cs
  deriving DecidableEq, Repr

namespace RegisterId

/-- The register identifiers, by ascending number. -/
def all : List RegisterId :=
  [.general .rax, .general .rbx, .general .rcx, .general .rdx, .general .rdi, .general .rsi,
    .general .r8, .general .r9, .general .r10, .general .r11, .general .r12, .general .r13,
    .general .r14, .general .r15, .general .rbp, .rsp, .rip, .cr0, .cr3, .cr4, .rflags, .cs]

/-- The number of a register identifier. -/
def number : RegisterId → UInt64
  | .general .rax => 1
  | .general .rbx => 2
  | .general .rcx => 3
  | .general .rdx => 4
  | .general .rdi => 5
  | .general .rsi => 6
  | .general .r8 => 7
  | .general .r9 => 8
  | .general .r10 => 9
  | .general .r11 => 10
  | .general .r12 => 11
  | .general .r13 => 12
  | .general .r14 => 13
  | .general .r15 => 14
  | .general .rbp => 15
  | .rsp => 16
  | .rip => 17
  | .cr0 => 18
  | .cr3 => 20
  | .cr4 => 21
  | .rflags => 31
  | .cs => 36

/-- The name of a register identifier. -/
def name : RegisterId → String
  | .general .rax => "Rax"
  | .general .rbx => "Rbx"
  | .general .rcx => "Rcx"
  | .general .rdx => "Rdx"
  | .general .rdi => "Rdi"
  | .general .rsi => "Rsi"
  | .general .r8 => "R8"
  | .general .r9 => "R9"
  | .general .r10 => "R10"
  | .general .r11 => "R11"
  | .general .r12 => "R12"
  | .general .r13 => "R13"
  | .general .r14 => "R14"
  | .general .r15 => "R15"
  | .general .rbp => "Rbp"
  | .rsp => "Rsp"
  | .rip => "Rip"
  | .cr0 => "Cr0"
  | .cr3 => "Cr3"
  | .cr4 => "Cr4"
  | .rflags => "Rflags"
  | .cs => "Cs"

/-- The register identifier with a number. -/
def ofNumber? (w : UInt64) : Option RegisterId :=
  all.find? (·.number = w)

/-- Where the value of a register is kept. -/
inductive Place where
  | registerFile (r : Register)
  | controlStructure (f : Field)
  deriving DecidableEq, Repr

/-- The place of a register. -/
def place : RegisterId → Place
  | .general r => .registerFile r
  | .rsp => .controlStructure Field.rsp
  | .rip => .controlStructure Field.rip
  | .cr0 => .controlStructure Field.cr0
  | .cr3 => .controlStructure Field.cr3
  | .cr4 => .controlStructure Field.cr4
  | .rflags => .controlStructure Field.rflags
  | .cs => .controlStructure Field.cs

theorem mem_all (i : RegisterId) :
  i ∈ all
  := by
  cases i with
  | general r => cases r <;> decide
  | _ => decide

@[simp]
theorem ofNumber?_number (i : RegisterId) :
  ofNumber? i.number = some i
  := by
  cases i with
  | general r => cases r <;> rfl
  | _ => rfl

theorem number_of_ofNumber? {w : UInt64} {i : RegisterId} (h : ofNumber? w = some i) :
  i.number = w
  := by
  simpa using List.find?_some h

end RegisterId

end ExitRelay
