import ExitRelay.Word

/-!
# Exit events

`ExitReason` lists what a listener can be told about.  Subscribing to reads that violate the
extended page tables means subscribing to the writes and fetches that do, too:
`ExitReason.subscription` lists the reasons that come with a reason.

An exit event says which processor exited and why, and carries two words that depend on the
reason: the new and the old value of CR3, or the guest-physical address of the instruction
pointer and the instruction pointer.
-/

namespace ExitRelay

/-- The reason of an exit event. -/
inductive ExitReason where
  | cr3Load
  | monitorTrap
  | eptRead
  | eptWrite
  | eptExecute
  | timeout
  deriving DecidableEq, Repr

namespace ExitReason

/-- Every exit reason, by ascending code. -/
def all : List ExitReason :=
  [.cr3Load, .monitorTrap, .eptRead, .eptWrite, .eptExecute, .timeout]

/-- The code of an exit reason. -/
def code : ExitReason → UInt64
  | .cr3Load => 0
  | .monitorTrap => 1
  | .eptRead => 2
  | .eptWrite => 3
  | .eptExecute => 4
  | .timeout => 5

/-- The name of an exit reason. -/
def name : ExitReason → String
  | .cr3Load => "Cr3LoadExiting"
  | .monitorTrap => "MonitorTrapFlag"
  | .eptRead => "EptReadViolation"
  | .eptWrite => "EptWriteViolation"
  | .eptExecute => "EptExecuteViolation"
  | .timeout => "Timeout"

/-- The exit reason with a code. -/
def ofCode? (w : UInt64) : Option ExitReason :=
  all.find? (·.code = w)

/-- The exit reason with a name. -/
def ofName? (s : String) : Option ExitReason :=
  all.find? (·.name = s)

/-- The reason is an access that the extended page tables do not allow. -/
def isEptViolation : ExitReason → Bool
  | .eptRead | .eptWrite | .eptExecute => true
  | _ => false

/-- The reasons that a subscription to this reason covers, itself first. -/
def subscription : ExitReason → List ExitReason
  | .eptRead => [.eptRead, .eptWrite, .eptExecute]
  | r => [r]

theorem mem_all (r : ExitReason) :
  r ∈ all
  := by
  cases r <;> decide

@[simp]
theorem ofCode?_code (r : ExitReason) :
  ofCode? r.code = some r
  := by
  cases r <;> rfl

theorem code_of_ofCode? {w : UInt64} {r : ExitReason} (h : ofCode? w = some r) :
  r.code = w
  := by
  simpa using List.find?_some h

theorem mem_subscription_self (r : ExitReason) :
  r ∈ r.subscription
  := by
  cases r <;> decide

end ExitReason

/-- An exit of a processor, as listeners are told of it. -/
structure ExitEvent where
  /-- The processor that exited. -/
  origin : Vpid
  reason : ExitReason
  data0 : UInt64 := 0
  data1 : UInt64 := 0
  deriving DecidableEq, Repr

end ExitRelay
