import ExitRelay.Journal.Note

/-!
# The journal

The journal of a machine records, latest first, the actions that its processors carried out
and the notes of the broker.  It also records every attempt to reach a control structure
that was not the current one; such an attempt is refused and has no effect.
-/

namespace ExitRelay

/-- Something that a processor did and that can be seen from outside. -/
inductive Action where
  /-- Its control structure was made current. -/
  | load (v : Vpid)
  /-- A field of its control structure was written. -/
  | vmwrite (v : Vpid) (field : Field) (value : UInt64)
  /-- Its instruction pointer was moved behind the current instruction. -/
  | advance (v : Vpid)
  /-- An interrupt was queued for it. -/
  | interrupt (v : Vpid) (vector : UInt8)
  /-- It was taken from the scheduler. -/
  | pause (v : Vpid)
  /-- It was given back to the scheduler. -/
  | resume (v : Vpid)
  deriving DecidableEq, Repr

/-- What has happened to a machine, latest first. -/
structure Journal where
  actions : List Action := []
  notes : List Note := []
  /-- The processors whose control structure was addressed while another one was current. -/
  misdirected : List Vpid := []
  deriving DecidableEq, Repr

namespace Journal

/-- The journal with one more action. -/
def act (j : Journal) (a : Action) : Journal :=
  { j with actions := a :: j.actions }

/-- The journal with one more note. -/
def note (j : Journal) (n : Note) : Journal :=
  { j with notes := n :: j.notes }

/-- The journal with one more refused attempt. -/
def misdirect (j : Journal) (v : Vpid) : Journal :=
  { j with misdirected := v :: j.misdirected }

end Journal

end ExitRelay
