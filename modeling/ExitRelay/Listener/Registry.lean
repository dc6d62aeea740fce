import ExitRelay.Exit.Event
import ExitRelay.Listener.Set

/-!
# Listener registries

A registry holds a listener set for each exit reason.  Subscribing to a reason enters the
listener into the set of every reason that the subscription covers, or, if it is in one of
them already, into none.  Unsubscribing takes it out of all of them and is decided by the
reason itself alone.  A refused request names the reason whose set refused it.
-/

namespace ExitRelay

/-- The listener sets of a processor. -/
structure Registry where
  cr3Load : ListenerSet := {}
  monitorTrap : ListenerSet := {}
  eptRead : ListenerSet := {}
  eptWrite : ListenerSet := {}
  eptExecute : ListenerSet := {}
  timeout : ListenerSet := {}
  deriving DecidableEq, Repr

namespace Registry

/-- The listeners for a reason. -/
def get (r : Registry) : ExitReason → ListenerSet
  | .cr3Load => r.cr3Load
  | .monitorTrap => r.monitorTrap
  | .eptRead => r.eptRead
  | .eptWrite => r.eptWrite
  | .eptExecute => r.eptExecute
  | .timeout => r.timeout

/-- The registry with the listeners for one reason replaced. -/
def set (r : Registry) (reason : ExitReason) (s : ListenerSet) : Registry :=
  match reason with
  | .cr3Load => { r with cr3Load := s }
  | .monitorTrap => { r with monitorTrap := s }
  | .eptRead => { r with eptRead := s }
  | .eptWrite => { r with eptWrite := s }
  | .eptExecute => { r with eptExecute := s }
  | .timeout => { r with timeout := s }

/-- Takes a listener out of the set of one reason, if it is in it. -/
def withdraw (r : Registry) (v : Vpid) (reason : ExitReason) : Registry :=
  match (r.get reason).erase? v with
  | none => r
  | some s => r.set reason s

/-- Enters a listener into the sets of several reasons in turn.  The first set that has it
already refuses it, and then it is taken out of the sets that it was entered into. -/
def enroll (v : Vpid) (entered : List ExitReason) :
    List ExitReason → Registry → Option ExitReason × Registry
  | [], r => (none, r)
  | reason :: reasons, r =>
    match (r.get reason).insert? v with
    | none => (some reason, entered.foldl (·.withdraw v ·) r)
    | some s => enroll v (entered ++ [reason]) reasons (r.set reason s)

/-- Subscribes a listener to a reason; names the reason that refused it, if one did. -/
def subscribe (r : Registry) (reason : ExitReason) (v : Vpid) : Option ExitReason × Registry :=
  enroll v [] reason.subscription r

/-- Unsubscribes a listener from a reason; names the reason if it was not subscribed. -/
def unsubscribe (r : Registry) (reason : ExitReason) (v : Vpid) :
    Option ExitReason × Registry :=
  if (r.get reason).contains v then (none, reason.subscription.foldl (·.withdraw v ·) r)
  else (some reason, r)

/-- The first listener for a reason, which the cursor is put on. -/
def first (r : Registry) (reason : ExitReason) : Option Vpid × Registry :=
  let (v, s) := (r.get reason).first
  (v, r.set reason s)

/-- The listener for a reason that follows the cursor, which is moved to it. -/
def next (r : Registry) (reason : ExitReason) : Option Vpid × Registry :=
  let (v, s) := (r.get reason).advance
  (v, r.set reason s)

@[simp]
theorem get_set_self (r : Registry) (reason : ExitReason) (s : ListenerSet) :
  (r.set reason s).get reason = s
  := by
  cases reason <;> rfl

@[simp]
theorem get_set_of_ne (r : Registry) {a b : ExitReason} (s : ListenerSet) (h : b ≠ a) :
  (r.set a s).get b = r.get b
  := by
  revert h
  cases a <;> cases b <;> simp [get, set]

theorem get_set (r : Registry) (a b : ExitReason) (s : ListenerSet) :
  (r.set a s).get b = if b = a then s else r.get b
  := by
  split
  · subst b
    exact get_set_self r a s
  · exact get_set_of_ne r s ‹_›

/-- Going to the first listener changes no membership. -/
@[simp]
theorem members_first (r : Registry) (a b : ExitReason) :
  ((r.first a).2.get b).members = (r.get b).members
  := by
  simp only [first, get_set]
  split
  · subst b
    exact ListenerSet.members_first _
  · rfl

/-- Going to the next listener changes no membership. -/
@[simp]
theorem members_next (r : Registry) (a b : ExitReason) :
  ((r.next a).2.get b).members = (r.get b).members
  := by
  simp only [next, get_set]
  split
  · subst b
    exact ListenerSet.members_advance _
  · rfl

/-- A registry is determined by its listener sets. -/
theorem ext_get {r s : Registry} (h : ∀ reason, r.get reason = s.get reason) :
  r = s
  := by
  obtain ⟨⟩ := r
  obtain ⟨⟩ := s
  rw [Registry.mk.injEq]
  exact ⟨h .cr3Load, h .monitorTrap, h .eptRead, h .eptWrite, h .eptExecute, h .timeout⟩

end Registry

end ExitRelay
