import ExitRelay.Word

/-!
# Selecting a hypercall

A hypercall is selected by `rax`: bits 16 to 32 hold an opcode, which names a family of
calls, and bits 0 to 16 an index into the family.  `Selector` is such a pair; `Family` lists
the families that the broker serves and `Call` the calls in them.
-/

namespace ExitRelay

/-- The opcode and the index of a hypercall. -/
structure Selector where
  opcode : UInt64
  index : UInt64
  deriving DecidableEq, Repr

namespace Selector

/-- The selector that a word holds. -/
def ofWord (w : UInt64) : Selector where
  opcode := Word.slice w 16 16
  index := Word.slice w 0 16

/-- The word that holds a selector; of opcode and index the low 16 bits count. -/
def toWord (s : Selector) : UInt64 :=
  ((s.opcode &&& 0xffff) <<< 16) ||| (s.index &&& 0xffff)

end Selector

/-- A family of hypercalls. -/
inductive Family where
  /-- Pausing and resuming processors. -/
  | management
  /-- Reading registers. -/
  | state
  /-- Receiving exit events and controlling which there are. -/
  | exit
  /-- Translating addresses. -/
  | introspection
  deriving DecidableEq, Repr

namespace Family

/-- Every family. -/
def all : List Family := [.management, .state, .exit, .introspection]

/-- The opcode of a family. -/
def opcode : Family → UInt64
  | .management => 4
  | .state => 5
  | .exit => 6
  | .introspection => 7

/-- The family with an opcode. -/
def ofOpcode? (w : UInt64) : Option Family :=
  all.find? (·.opcode = w)

@[simp]
theorem ofOpcode?_opcode (f : Family) :
  ofOpcode? f.opcode = some f
  := by
  cases f <;> rfl

/-- A family is found exactly under its opcode. -/
theorem ofOpcode?_eq_some_iff {w : UInt64} {f : Family} :
  ofOpcode? w = some f ↔ f.opcode = w
  := by
  constructor
  · intro h
    simpa using List.find?_some h
  · rintro rfl
    exact ofOpcode?_opcode f

end Family

/-- A hypercall. -/
inductive Call where
  | pause
  | resume
  | registerValue
  | nextExit
  | endOfExit
  | vmread
  | vmwrite
  | translate
  deriving DecidableEq, Repr

namespace Call

/-- Every hypercall. -/
def all : List Call :=
  [.pause, .resume, .registerValue, .nextExit, .endOfExit, .vmread, .vmwrite, .translate]

/-- The family that a hypercall belongs to. -/
def family : Call → Family
  | .pause | .resume => .management
  | .registerValue => .state
  | .nextExit | .endOfExit | .vmread | .vmwrite => .exit
  | .translate => .introspection

/-- The index of a hypercall in its family. -/
def index : Call → UInt64
  | .pause => 0
  | .resume => 1
  | .registerValue => 0
  | .nextExit => 0
  | .endOfExit => 1
  | .vmread => 2
  | .vmwrite => 3
  | .translate => 0

/-- The hypercall with an index in a family. -/
def ofIndex? (f : Family) (i : UInt64) : Option Call :=
  all.find? fun c => c.family = f && c.index = i

/-- The selector of a hypercall. -/
def selector (c : Call) : Selector where
  opcode := c.family.opcode
  index := c.index

@[simp]
theorem ofIndex?_index (c : Call) :
  ofIndex? c.family c.index = some c
  := by
  cases c <;> rfl

end Call

end ExitRelay
