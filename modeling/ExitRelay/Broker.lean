import ExitRelay.Listener.Registry
import ExitRelay.Pending

/-!
# Brokers

Every processor has a broker.  As the origin of events it keeps who listens for its exits.
As a listener it keeps the events pending for it, the deadline of its wait for an event, and
the privilege level at which it receives events: at level zero it is told by an interrupt,
at any other level it asks by itself.
-/

namespace ExitRelay

/-- Where a listener is in its cycle of waiting for events and answering them. -/
inductive DeliveryState where
  /-- Nothing is pending and there is no deadline. -/
  | idle
  /-- Nothing is pending, and a deadline is set. -/
  | armed
  /-- An event is pending. -/
  | delivering
  deriving DecidableEq, Repr

/-- The name of a delivery state. -/
def DeliveryState.name : DeliveryState → String
  | .idle => "Idle"
  | .armed => "Armed"
  | .delivering => "Delivering"

/-- The broker of a processor. -/
structure Broker where
  registry : Registry := {}
  pending : Pending := {}
  cpl : UInt8 := 0
  deadline : Option UInt64 := none
  deriving DecidableEq, Repr

namespace Broker

/-- The word that stands for no deadline. -/
def noDeadline : UInt64 := 0xffff_ffff_ffff_ffff

/-- The broker with a deadline; the largest word means that there is none. -/
def setDeadline (b : Broker) (d : UInt64) : Broker :=
  { b with deadline := if d = noDeadline then none else some d }

/-- The broker without a deadline. -/
def clearDeadline (b : Broker) : Broker :=
  { b with deadline := none }

/-- The listener runs at privilege level zero. -/
def isKernelListener (b : Broker) : Bool :=
  b.cpl = 0

/-- Where the listener is in its cycle. -/
def state (b : Broker) : DeliveryState :=
  if b.pending.isEmpty then
    match b.deadline with
    | none => .idle
    | some _ => .armed
  else .delivering

/-- The end of a wait of `ns` nanoseconds that starts at `now`; it stops short of the word
that stands for no deadline. -/
def deadlineAfter (now ns : UInt64) : UInt64 :=
  UInt64.ofNat (min (now.toNat + ns.toNat) 0xffff_ffff_ffff_fffe)

theorem toNat_deadlineAfter (now ns : UInt64) :
  (deadlineAfter now ns).toNat = min (now.toNat + ns.toNat) 0xffff_ffff_ffff_fffe
  := by
  simp only [deadlineAfter, UInt64.toNat_ofNat']
  omega

/-- The end of a wait is always taken for a deadline. -/
theorem deadlineAfter_ne_noDeadline (now ns : UInt64) :
  deadlineAfter now ns ≠ noDeadline
  := by
  intro h
  have ht := congrArg UInt64.toNat h
  rw [toNat_deadlineAfter] at ht
  simp only [noDeadline] at ht
  have hm : min (now.toNat + ns.toNat) 0xffff_ffff_ffff_fffe ≤ 0xffff_ffff_ffff_fffe :=
    Nat.min_le_right _ _
  rw [ht] at hm
  exact absurd hm (by decide)

/-- Setting the end of a wait always sets a deadline. -/
theorem setDeadline_deadlineAfter (b : Broker) (now ns : UInt64) :
  b.setDeadline (deadlineAfter now ns) = { b with deadline := some (deadlineAfter now ns) }
  := by
  rw [setDeadline, if_neg (deadlineAfter_ne_noDeadline now ns)]

end Broker

end ExitRelay
