import Std.Data.ExtTreeMap

/-!
# Virtual-machine control structures

The control structure of a processor maps field encodings to words.  A field that was never
written reads as zero.  The named fields are the ones that the broker reads or writes itself.
-/

namespace ExitRelay

/-- The encoding of a field. -/
abbrev Field := UInt32

namespace Field

/-- Primary processor-based execution controls. -/
def primaryControls : Field := 0x4002

/-- Secondary processor-based execution controls. -/
def secondaryControls : Field := 0x401e

/-- Selector of the code segment. -/
def cs : Field := 0x802

/-- Control register 0. -/
def cr0 : Field := 0x6800

/-- Control register 3. -/
def cr3 : Field := 0x6802

/-- Control register 4. -/
def cr4 : Field := 0x6804

/-- Stack pointer. -/
def rsp : Field := 0x681c

/-- Instruction pointer. -/
def rip : Field := 0x681e

/-- Flags register. -/
def rflags : Field := 0x6820

end Field

/-- A control structure: the fields ever written with their values. -/
structure Vmcs where
  fields : Std.ExtTreeMap Field UInt64 := ∅

namespace Vmcs

/-- The value of a field. -/
def read (s : Vmcs) (f : Field) : UInt64 :=
  s.fields.getD f 0

/-- The control structure with one field replaced. -/
def write (s : Vmcs) (f : Field) (w : UInt64) : Vmcs :=
  ⟨s.fields.insert f w⟩

/-- The control structure of a new processor, which starts at a fixed address. -/
def initial : Vmcs :=
  write {} Field.rip 0x1000

/-- The fields ever written with their values, by ascending encoding. -/
def toList (s : Vmcs) : List (Field × UInt64) :=
  s.fields.toList

@[simp]
theorem read_write_self (s : Vmcs) (f : Field) (w : UInt64) :
  (s.write f w).read f = w
  := by
  simp [read, write]

@[simp]
theorem read_write_of_ne (s : Vmcs) {f g : Field} (w : UInt64) (h : g ≠ f) :
  (s.write f w).read g = s.read g
  := by
  simp [read, write, Std.ExtTreeMap.getD_insert, Ne.symm h]

theorem read_write (s : Vmcs) (f g : Field) (w : UInt64) :
  (s.write f w).read g = if g = f then w else s.read g
  := by
  split
  · subst g
    exact read_write_self s f w
  · exact read_write_of_ne s w ‹_›

/-- A control structure is determined by what is stored under each encoding. -/
theorem ext_fields {s t : Vmcs} (h : ∀ f : Field, s.fields[f]? = t.fields[f]?) :
  s = t
  := by
  cases s
  cases t
  exact congrArg Vmcs.mk (Std.ExtTreeMap.ext_getElem? fun {f} => h f)

/-- It does not matter which of two fields is written first. -/
theorem write_comm (s : Vmcs) {f g : Field} (a b : UInt64) (h : f ≠ g) :
  (s.write f a).write g b = (s.write g b).write f a
  := by
  apply ext_fields
  intro k
  simp only [write, Std.ExtTreeMap.getElem?_insert, Std.compare_eq_iff_eq]
  by_cases hf : f = k
  · subst k
    rw [if_neg h.symm, if_pos rfl, if_pos rfl]
  · rw [if_neg hf, if_neg hf]

end Vmcs

end ExitRelay
