import ExitRelay.Exit.Event
import ExitRelay.Word

/-!
# Exit qualifications

For some basic exit reasons the qualification word tells more about the exit.  `CrAccess`
describes an access to a control register, `EptViolation` an access that the extended page
tables do not allow.
-/

namespace ExitRelay

/-- An access to a control register. -/
structure CrAccess where
  controlRegister : UInt8
  accessType : UInt8
  lmswOperandType : UInt8
  /-- The number of the general-purpose register that is moved. -/
  generalRegister : UInt8
  lmswSource : UInt16
  deriving DecidableEq, Repr

namespace CrAccess

/-- The access type of a move to a control register. -/
def moveTo : UInt8 := 0

/-- The access type of a move from a control register. -/
def moveFrom : UInt8 := 1

/-- The access that a qualification word describes. -/
def ofQualification (w : UInt64) : CrAccess where
  controlRegister := (Word.slice w 0 4).toUInt8
  accessType := (Word.slice w 4 2).toUInt8
  lmswOperandType := (Word.slice w 6 1).toUInt8
  generalRegister := (Word.slice w 8 4).toUInt8
  lmswSource := (Word.slice w 16 16).toUInt16

/-- The access moves a general-purpose register to CR3. -/
def isCr3Write (a : CrAccess) : Bool :=
  a.controlRegister = 3 && a.accessType = moveTo

/-- The register of an access described by a qualification has a number below 16. -/
theorem generalRegister_lt (w : UInt64) :
  (ofQualification w).generalRegister < 16
  := by
  have h := Word.slice_lt w 8 4
  simp only [ofQualification, UInt8.lt_iff_toNat_lt, UInt64.toNat_toUInt8]
  exact Nat.lt_of_le_of_lt (Nat.mod_le _ _) h

end CrAccess

/-- An access that the extended page tables do not allow. -/
structure EptViolation where
  read : Bool
  write : Bool
  execute : Bool
  linearAddressValid : Bool
  deriving DecidableEq, Repr

namespace EptViolation

/-- The access that a qualification word describes. -/
def ofQualification (w : UInt64) : EptViolation where
  read := Word.bit w 0
  write := Word.bit w 1
  execute := Word.bit w 2
  linearAddressValid := Word.bit w 7

/-- The reason that listeners are told: a write before a fetch, a fetch before a read. -/
def reason (v : EptViolation) : ExitReason :=
  if v.write then .eptWrite else if v.execute then .eptExecute else .eptRead

end EptViolation

end ExitRelay
