import ExitRelay.Word

/-!
# Listener sets

A listener set holds the processors that listen for one exit reason, in the order in which
they subscribed, and a cursor: the position of the listener that was offered an event last.
`first` puts the cursor on the first listener and `advance` moves it to the next; both name
the listener that they reach.  Inserting and erasing put the cursor back on the first
listener.
-/

namespace ExitRelay

/-- The listeners for one reason and the cursor among them. -/
structure ListenerSet where
  members : List Vpid := []
  cursor : Option Nat := none
  deriving DecidableEq, Repr

namespace ListenerSet

/-- The processor is a member. -/
def contains (s : ListenerSet) (v : Vpid) : Bool :=
  s.members.contains v

/-- The member at the cursor. -/
def current (s : ListenerSet) : Option Vpid :=
  s.cursor.bind (s.members[·]?)

/-- The set with the cursor on the first member, if there is one. -/
def rewind (s : ListenerSet) : ListenerSet :=
  { s with cursor := if s.members.isEmpty then none else some 0 }

/-- The set with a new last member; `none` if the processor is a member already. -/
def insert? (s : ListenerSet) (v : Vpid) : Option ListenerSet :=
  if s.contains v then none else some { members := s.members ++ [v], cursor := some 0 }

/-- The set without a member; `none` if the processor is not a member. -/
def erase? (s : ListenerSet) (v : Vpid) : Option ListenerSet :=
  if s.contains v then some { s with members := s.members.erase v }.rewind else none

/-- Puts the cursor on the first member and names it. -/
def first (s : ListenerSet) : Option Vpid × ListenerSet :=
  (s.rewind.current, s.rewind)

/-- The position behind the cursor. -/
def following (s : ListenerSet) : Nat :=
  match s.cursor with
  | none => 0
  | some i => i + 1

/-- Moves the cursor to the next member and names it.  Behind the last member it names none
and puts the cursor back on the first. -/
def advance (s : ListenerSet) : Option Vpid × ListenerSet :=
  match s.members[s.following]? with
  | some v => (some v, { s with cursor := some s.following })
  | none => (none, s.rewind)

@[simp]
theorem contains_iff {s : ListenerSet} {v : Vpid} :
  s.contains v = true ↔ v ∈ s.members
  := by
  simp [contains]

@[simp]
theorem members_rewind (s : ListenerSet) :
  s.rewind.members = s.members
  := rfl

/-- Rewinding leaves the cursor on the head of the members. -/
theorem current_rewind (s : ListenerSet) :
  s.rewind.current = s.members.head?
  := by
  obtain ⟨_ | _, _⟩ := s <;> rfl

theorem insert?_eq_none_iff {s : ListenerSet} {v : Vpid} :
  s.insert? v = none ↔ v ∈ s.members
  := by
  simp [insert?]

theorem members_of_insert? {s t : ListenerSet} {v : Vpid} (h : s.insert? v = some t) :
  v ∉ s.members ∧ t.members = s.members ++ [v]
  := by
  simp only [insert?, Option.ite_none_left_eq_some, contains_iff, Option.some.injEq] at h
  exact ⟨h.1, by rw [← h.2]⟩

theorem erase?_eq_none_iff {s : ListenerSet} {v : Vpid} :
  s.erase? v = none ↔ v ∉ s.members
  := by
  simp [erase?]

theorem members_of_erase? {s t : ListenerSet} {v : Vpid} (h : s.erase? v = some t) :
  v ∈ s.members ∧ t.members = s.members.erase v
  := by
  simp only [erase?, Option.ite_none_right_eq_some, contains_iff, Option.some.injEq] at h
  exact ⟨h.1, by rw [← h.2]; rfl⟩

/-- The first listener is the one that subscribed first. -/
theorem fst_first (s : ListenerSet) :
  s.first.1 = s.members.head?
  := s.current_rewind

/-- The next listener is the one behind the cursor. -/
theorem fst_advance (s : ListenerSet) :
  s.advance.1 = s.members[s.following]?
  := by
  unfold advance
  split
  · rename_i v h
    exact h.symm
  · rename_i h
    exact h.symm

@[simp]
theorem members_first (s : ListenerSet) :
  s.first.2.members = s.members
  := rfl

@[simp]
theorem members_advance (s : ListenerSet) :
  s.advance.2.members = s.members
  := by
  unfold advance
  split <;> rfl

end ListenerSet

end ExitRelay
