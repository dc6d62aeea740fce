import ExitRelay.Exit.Event

/-!
# Pending events

The events that are on their way to a listener, in the order in which they arrived.  The one
in front is the one in flight.
-/

namespace ExitRelay

/-- The events on their way to a listener. -/
structure Pending where
  events : List ExitEvent := []
  deriving DecidableEq, Repr

namespace Pending

/-- The number of events. -/
def length (p : Pending) : Nat := p.events.length

/-- There is no event. -/
def isEmpty (p : Pending) : Bool := p.events.isEmpty

/-- The event in flight. -/
def front? (p : Pending) : Option ExitEvent := p.events.head?

/-- Adds an event behind the others. -/
def push (p : Pending) (e : ExitEvent) : Pending := ⟨p.events ++ [e]⟩

/-- Takes out the event in flight. -/
def pop (p : Pending) : Option ExitEvent × Pending := (p.front?, ⟨p.events.tail⟩)

/-- Takes out the event that arrived last. -/
def popLatest (p : Pending) : Option ExitEvent × Pending :=
  (p.events.getLast?, ⟨p.events.dropLast⟩)

@[simp]
theorem length_push (p : Pending) (e : ExitEvent) :
  (p.push e).length = p.length + 1
  := by
  simp [push, length]

@[simp]
theorem isEmpty_iff {p : Pending} :
  p.isEmpty = true ↔ p = {}
  := by
  obtain ⟨_ | _⟩ := p <;> simp [isEmpty]

theorem length_pos_iff {p : Pending} :
  0 < p.length ↔ p.isEmpty = false
  := by
  obtain ⟨_ | _⟩ := p <;> simp [length, isEmpty]

theorem front?_eq_none_iff {p : Pending} :
  p.front? = none ↔ p = {}
  := by
  obtain ⟨_ | _⟩ := p <;> simp [front?]

/-- Taking out the latest event undoes its arrival. -/
@[simp]
theorem popLatest_push (p : Pending) (e : ExitEvent) :
  (p.push e).popLatest = (some e, p)
  := by
  simp [push, popLatest]

end Pending

end ExitRelay
