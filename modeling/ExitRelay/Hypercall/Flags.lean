import ExitRelay.Word

/-!
# Flags of the exit-event calls

`next_exit` and `end_of_exit` take a word of flags in `r11`.  The flags that a call knows are
the bits of its mask; `accept?` accepts a word that has no other bits and `truncate` forgets
the others.  `NextExit.timeout?` is the waiting time that a caller of `next_exit` asks for,
in nanoseconds.
-/

namespace ExitRelay

namespace Flags

/-- The word itself, provided that every bit of it is in the mask. -/
def accept? (mask w : UInt64) : Option UInt64 :=
  if w &&& ~~~mask = 0 then some w else none

/-- The bits of the word that are in the mask. -/
def truncate (mask w : UInt64) : UInt64 :=
  w &&& mask

end Flags

namespace NextExit

/-- The flags of `next_exit`: bit 0 says that a waiting time is given. -/
def mask : UInt64 := 1

/-- The longest waiting time that bits 32 to 64 can hold is no overflow in nanoseconds. -/
theorem timeout_lt (w : UInt64) :
  (Word.slice w 32 32).toNat * 1000000 < 0x1_0000_0000_0000_0000
  := by
  have h := Word.slice_lt w 32 32
  omega

/-- The waiting time in nanoseconds; bits 32 to 64 hold it in milliseconds. -/
def timeout? (w : UInt64) : Option UInt64 :=
  if Word.bit w 0 then some (Word.slice w 32 32 * 1000000) else none

end NextExit

namespace EndOfExit

/-- The flags of `end_of_exit`: bit 0 for a handled event, bit 1 for advancing its origin. -/
def mask : UInt64 := 3

/-- The caller has handled the event. -/
def handled (w : UInt64) : Bool := Word.bit w 0

/-- The origin is to go on behind the instruction that exited. -/
def advance (w : UInt64) : Bool := Word.bit w 1

end EndOfExit

end ExitRelay
