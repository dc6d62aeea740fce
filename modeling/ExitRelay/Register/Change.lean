import ExitRelay.Register
import ExitRelay.Word

/-!
# Changes of a register file

`Registers.changes old new` lists the registers whose values differ, by ascending number,
each with its value before and after.  `Registers.report` is the text of that list.
-/

namespace ExitRelay

/-- A register with its values before and after. -/
structure RegisterChange where
  register : Register
  before : UInt64
  after : UInt64
  deriving DecidableEq, Repr

/-- The text of one change, as in `rax: "0x0 -> 0x1"`. -/
def RegisterChange.text (c : RegisterChange) : String :=
  c.register.name ++ ": \"" ++ Word.hex c.before ++ " -> " ++ Word.hex c.after ++ "\""

namespace Registers

/-- The registers in which two register files differ, by ascending number. -/
def changes (old new : Registers) : List RegisterChange :=
  Register.all.filterMap fun r =>
    if old.get r = new.get r then none else some ⟨r, old.get r, new.get r⟩

/-- The text of the changes: a heading, and in braces the changed registers if there are any. -/
def report (old new : Registers) : String :=
  match changes old new with
  | [] => "GeneralRegistersDiff"
  | cs => "GeneralRegistersDiff \x7b " ++ ", ".intercalate (cs.map RegisterChange.text) ++ " \x7d"

/-- A register is listed exactly when its values differ. -/
theorem mem_changes {old new : Registers} {c : RegisterChange} :
  c ∈ changes old new ↔
    old.get c.register ≠ new.get c.register ∧
      c.before = old.get c.register ∧ c.after = new.get c.register
  := by
  simp only [changes, List.mem_filterMap, Option.ite_none_left_eq_some, Option.some.injEq]
  constructor
  · rintro ⟨r, _, hne, rfl⟩
    exact ⟨hne, rfl, rfl⟩
  · rintro ⟨hne, hb, ha⟩
    exact ⟨c.register, Register.mem_all _, hne, by rw [← hb, ← ha]⟩

/-- Nothing is listed exactly when the two register files are equal. -/
theorem changes_eq_nil_iff {old new : Registers} :
  changes old new = [] ↔ old = new
  := by
  constructor
  · intro h
    apply ext_get
    intro r
    apply Classical.byContradiction
    intro hne
    have hmem : (⟨r, old.get r, new.get r⟩ : RegisterChange) ∈ changes old new :=
      mem_changes.2 ⟨hne, rfl, rfl⟩
    rw [h] at hmem
    exact List.not_mem_nil hmem
  · rintro rfl
    simp [changes]

end Registers

end ExitRelay
