import ExitRelay.SysError

/-!
# Status codes

A hypercall that completes leaves a status code in `rax`: zero for success, and otherwise a
code whose low half tells the kind of failure.  A system error that ends a hypercall is
reported as one of these codes.
-/

namespace ExitRelay

/-- The outcome that a hypercall reports to its caller. -/
inductive Status where
  | success
  | failureUnknown
  | failureUnknownHypercall
  | failureUnsupported
  | invalidParams0
  | invalidParams1
  | invalidParams2
  | invalidParams3
  | invalidParams4
  | invalidParams5
  | invalidVpidUnknown
  | invalidVpidUnsupportedSelf
  | invalidVpidUnsupportedParent
  | invalidVpidUnsupportedAny
  | invalidExitAlreadyListening
  | invalidExitNoListener
  deriving DecidableEq, Repr

namespace Status

/-- Every status. -/
def all : List Status :=
  [.success, .failureUnknown, .failureUnknownHypercall, .failureUnsupported, .invalidParams0,
    .invalidParams1, .invalidParams2, .invalidParams3, .invalidParams4, .invalidParams5,
    .invalidVpidUnknown, .invalidVpidUnsupportedSelf, .invalidVpidUnsupportedParent,
    .invalidVpidUnsupportedAny, .invalidExitAlreadyListening, .invalidExitNoListener]

/-- The code of a status. -/
def code : Status → UInt64
  | .success => 0
  | .failureUnknown => 0xdead_0000_0001_0001
  | .failureUnknownHypercall => 0xdead_0000_0002_0001
  | .failureUnsupported => 0xdead_0000_0004_0001
  | .invalidParams0 => 0xdead_0000_0001_0002
  | .invalidParams1 => 0xdead_0000_0002_0002
  | .invalidParams2 => 0xdead_0000_0004_0002
  | .invalidParams3 => 0xdead_0000_0008_0002
  | .invalidParams4 => 0xdead_0000_0010_0002
  | .invalidParams5 => 0xdead_0000_0020_0002
  | .invalidVpidUnknown => 0xdead_0000_0001_0003
  | .invalidVpidUnsupportedSelf => 0xdead_0000_0002_0003
  | .invalidVpidUnsupportedParent => 0xdead_0000_0004_0003
  | .invalidVpidUnsupportedAny => 0xdead_0000_0008_0003
  | .invalidExitAlreadyListening => 0xdead_0000_0001_0004
  | .invalidExitNoListener => 0xdead_0000_0002_0004

/-- The name of a status. -/
def name : Status → String
  | .success => "Success"
  | .failureUnknown => "FailureUnknown"
  | .failureUnknownHypercall => "FailureUnknownHypercall"
  | .failureUnsupported => "FailureUnsupported"
  | .invalidParams0 => "InvalidParams0"
  | .invalidParams1 => "InvalidParams1"
  | .invalidParams2 => "InvalidParams2"
  | .invalidParams3 => "InvalidParams3"
  | .invalidParams4 => "InvalidParams4"
  | .invalidParams5 => "InvalidParams5"
  | .invalidVpidUnknown => "InvalidVpidUnknown"
  | .invalidVpidUnsupportedSelf => "InvalidVpidUnsupportedSelf"
  | .invalidVpidUnsupportedParent => "InvalidVpidUnsupportedParent"
  | .invalidVpidUnsupportedAny => "InvalidVpidUnsupportedAny"
  | .invalidExitAlreadyListening => "InvalidExitAlreadyListening"
  | .invalidExitNoListener => "InvalidExitNoListener"

/-- The status with a code. -/
def ofCode? (w : UInt64) : Option Status :=
  all.find? (·.code = w)

/-- The status that reports a system error. -/
def ofSysError : SysError → Status
  | .unsupported => .failureUnsupported
  | .notFound => .invalidVpidUnknown
  | .alreadyExists => .invalidExitAlreadyListening
  | .invalidInput => .invalidParams0
  | _ => .failureUnknown

theorem mem_all (s : Status) :
  s ∈ all
  := by
  cases s <;> decide

@[simp]
theorem ofCode?_code (s : Status) :
  ofCode? s.code = some s
  := by
  cases s <;> rfl

theorem code_of_ofCode? {w : UInt64} {s : Status} (h : ofCode? w = some s) :
  s.code = w
  := by
  simpa using List.find?_some h

/-- Different statuses have different codes. -/
theorem code_inj {s t : Status} :
  s.code = t.code ↔ s = t
  := by
  constructor
  · intro h
    have hs := ofCode?_code s
    rw [h, ofCode?_code] at hs
    exact (Option.some.inj hs).symm
  · rintro rfl
    rfl

/-- A system error is never reported as a success. -/
theorem ofSysError_ne_success (e : SysError) :
  ofSysError e ≠ .success
  := by
  cases e <;> decide

end Status

end ExitRelay
