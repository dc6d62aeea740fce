/-!
# General-purpose registers

`Register` names the fifteen general-purpose registers that a register file holds, in the
order in which the processor numbers them.  Number 4 is the stack pointer, which is not one
of them: it lives in the control structure of the processor.  `Registers` is a register
file; `get` and `set` are its two operations by name.
-/

namespace ExitRelay

/-- A general-purpose register other than the stack pointer. -/
inductive Register where
  | rax | rcx | rdx | rbx | rbp | rsi | rdi | r8 | r9 | r10 | r11 | r12 | r13 | r14 | r15
  deriving DecidableEq, Repr

namespace Register

/-- Every register, by ascending number. -/
def all : List Register :=
  [.rax, .rcx, .rdx, .rbx, .rbp, .rsi, .rdi, .r8, .r9,
    .r10, .r11, .r12, .r13, .r14, .r15]

/-- The number of a register in an instruction's encoding. -/
def number : Register → UInt8
  | .rax => 0
  | .rcx => 1
  | .rdx => 2
  | .rbx => 3
  | .rbp => 5
  | .rsi => 6
  | .rdi => 7
  | .r8 => 8
  | .r9 => 9
  | .r10 => 10
  | .r11 => 11
  | .r12 => 12
  | .r13 => 13
  | .r14 => 14
  | .r15 => 15

/-- The name of a register. -/
def name : Register → String
  | .rax => "rax"
  | .rcx => "rcx"
  | .rdx => "rdx"
  | .rbx => "rbx"
  | .rbp => "rbp"
  | .rsi => "rsi"
  | .rdi => "rdi"
  | .r8 => "r8"
  | .r9 => "r9"
  | .r10 => "r10"
  | .r11 => "r11"
  | .r12 => "r12"
  | .r13 => "r13"
  | .r14 => "r14"
  | .r15 => "r15"

/-- The register with a number, if it is one of the fifteen. -/
def ofNumber? (n : UInt8) : Option Register :=
  all.find? (·.number = n)

/-- The number that encodes the stack pointer. -/
def stackPointerNumber : UInt8 := 4

/-- The name of the register with a number, the stack pointer included. -/
def encodingName? (n : UInt8) : Option String :=
  if n = stackPointerNumber then some "rsp" else (ofNumber? n).map name

/-- The complaint about a number that encodes no general-purpose register. -/
def illegalNumberMessage (n : UInt8) : String :=
  s!"Illegal index of GeneralRegisters {n}"

theorem mem_all (r : Register) :
  r ∈ all
  := by
  cases r <;> decide

@[simp]
theorem ofNumber?_number (r : Register) :
  ofNumber? r.number = some r
  := by
  cases r <;> rfl

theorem number_of_ofNumber? {n : UInt8} {r : Register} (h : ofNumber? n = some r) :
  r.number = n
  := by
  simpa using List.find?_some h

/-- Exactly the stack pointer and the numbers above 15 have no register. -/
theorem ofNumber?_eq_none_iff (n : UInt8) :
  ofNumber? n = none ↔ n = stackPointerNumber ∨ 15 < n
  := by
  have table : ∀ k < 256, ofNumber? (UInt8.ofNat k) = none ↔
      UInt8.ofNat k = stackPointerNumber ∨ 15 < UInt8.ofNat k := by
    decide +kernel
  simpa using table n.toNat n.toNat_lt

/-- A number of four bits that is not the one of the stack pointer has a register. -/
theorem exists_ofNumber? {n : UInt8} (hlt : n < 16) (hne : n ≠ stackPointerNumber) :
  ∃ r, ofNumber? n = some r
  := by
  cases hr : ofNumber? n with
  | some r => exact ⟨r, rfl⟩
  | none =>
      rcases (ofNumber?_eq_none_iff n).mp hr with h4 | h15
      · exact absurd h4 hne
      · rw [UInt8.lt_iff_toNat_lt] at hlt h15
        exact absurd hlt (Nat.not_lt.mpr h15)

end Register

/-- The general-purpose registers of a processor. -/
structure Registers where
  rax : UInt64 := 0
  rcx : UInt64 := 0
  rdx : UInt64 := 0
  rbx : UInt64 := 0
  rbp : UInt64 := 0
  rsi : UInt64 := 0
  rdi : UInt64 := 0
  r8 : UInt64 := 0
  r9 : UInt64 := 0
  r10 : UInt64 := 0
  r11 : UInt64 := 0
  r12 : UInt64 := 0
  r13 : UInt64 := 0
  r14 : UInt64 := 0
  r15 : UInt64 := 0
  deriving DecidableEq, Repr

namespace Registers

/-- The value of a register. -/
def get (regs : Registers) : Register → UInt64
  | .rax => regs.rax
  | .rcx => regs.rcx
  | .rdx => regs.rdx
  | .rbx => regs.rbx
  | .rbp => regs.rbp
  | .rsi => regs.rsi
  | .rdi => regs.rdi
  | .r8 => regs.r8
  | .r9 => regs.r9
  | .r10 => regs.r10
  | .r11 => regs.r11
  | .r12 => regs.r12
  | .r13 => regs.r13
  | .r14 => regs.r14
  | .r15 => regs.r15

/-- The register file with one register replaced. -/
def set (regs : Registers) (r : Register) (w : UInt64) : Registers :=
  match r with
  | .rax => { regs with rax := w }
  | .rcx => { regs with rcx := w }
  | .rdx => { regs with rdx := w }
  | .rbx => { regs with rbx := w }
  | .rbp => { regs with rbp := w }
  | .rsi => { regs with rsi := w }
  | .rdi => { regs with rdi := w }
  | .r8 => { regs with r8 := w }
  | .r9 => { regs with r9 := w }
  | .r10 => { regs with r10 := w }
  | .r11 => { regs with r11 := w }
  | .r12 => { regs with r12 := w }
  | .r13 => { regs with r13 := w }
  | .r14 => { regs with r14 := w }
  | .r15 => { regs with r15 := w }

@[simp]
theorem get_set_self (regs : Registers) (r : Register) (w : UInt64) :
  (regs.set r w).get r = w
  := by
  cases r <;> rfl

@[simp]
theorem get_set_of_ne (regs : Registers) {r s : Register} (w : UInt64) (h : s ≠ r) :
  (regs.set r w).get s = regs.get s
  := by
  revert h
  cases r <;> cases s <;> simp [get, set]

/-- A register file is determined by its registers. -/
theorem ext_get {a b : Registers} (h : ∀ r, a.get r = b.get r) :
  a = b
  := by
  obtain ⟨⟩ := a
  obtain ⟨⟩ := b
  rw [Registers.mk.injEq]
  exact ⟨h .rax, h .rcx, h .rdx, h .rbx, h .rbp, h .rsi, h .rdi, h .r8, h .r9, h .r10,
    h .r11, h .r12, h .r13, h .r14, h .r15⟩

end Registers

end ExitRelay
