import ExitRelay.Proofs.Lasting

/-!
# Slots and deadlines

A listener that waits has a deadline and no event, and one that is told of an event has one
event and no deadline.  Whatever happens to a new machine and whatever fails, no broker ever
holds two events, and none keeps a deadline while an event is pending: the two are set in
one step only where nothing is pending.
-/

namespace ExitRelay

namespace Broker

/-- At most one event is pending, and no deadline is set while one is. -/
structure Exclusive (b : Broker) : Prop where
  atMostOne : b.pending.length ≤ 1
  deadline : b.pending ≠ {} → b.deadline = none

variable {b : Broker}

/-- Where nothing is pending, nothing is excluded. -/
theorem exclusive_of_pending (h : b.pending = {}) :
  b.Exclusive
  := by
  constructor
  · rw [h]
    exact Nat.zero_le 1
  · intro hne
    exact absurd h hne

/-- A change that leaves the pending events as they are, and sets no deadline. -/
theorem Exclusive.of_eq {b' : Broker} (h : b.Exclusive) (hp : b'.pending = b.pending)
    (hd : b.deadline = none → b'.deadline = none) :
  b'.Exclusive
  := by
  constructor
  · rw [hp]
    exact h.atMostOne
  · intro hne
    rw [hp] at hne
    apply hd (h.deadline hne)

/-- No effect that can occur sets a deadline while an event is pending or queues a second
event. -/
theorem lasting_exclusive :
  Lasting Exclusive
  := by
  refine ⟨⟨Nat.zero_le 1, fun h => absurd rfl h⟩, ?_⟩
  intro b k hk h
  cases k with
  | arm d => exact exclusive_of_pending hk
  | disarm => exact h.of_eq rfl fun _ => rfl
  | queue e =>
      have hb : b.pending = {} := hk
      constructor
      · change (b.pending.push e).length ≤ 1
        rw [hb]
        exact Nat.le_refl 1
      · intro _
        rfl
  | pop =>
      apply exclusive_of_pending
      change Pending.mk b.pending.events.tail = {}
      congr 1
      apply List.eq_nil_of_length_eq_zero
      rw [List.length_tail]
      exact Nat.sub_eq_zero_of_le h.atMostOne
  | _ => exact h.of_eq rfl id

/-- The state of a broker tells which of the two is set. -/
theorem Exclusive.state_iff (h : b.Exclusive) :
  (b.state = .idle ↔ b.pending.events = [] ∧ b.deadline = none) ∧
    (b.state = .armed ↔ ∃ d, b.deadline = some d) ∧
    (b.state = .delivering ↔ ∃ e, b.pending.events = [e])
  := by
  obtain ⟨registry, ⟨events⟩, cpl, deadline⟩ := b
  obtain ⟨hlen, hd⟩ := h
  cases events with
  | nil => cases deadline <;> simp [state, Pending.isEmpty]
  | cons e es =>
      obtain rfl : es = [] :=
        List.eq_nil_of_length_eq_zero (Nat.le_zero.mp (Nat.le_of_succ_le_succ hlen))
      obtain rfl : deadline = none := hd (by simp)
      simp [state, Pending.isEmpty]

end Broker

namespace Machine

variable {m : Machine} {v : Vpid}

/-- Whatever happens to a new machine and whatever fails, a broker has at most one pending
event and then no deadline, so that its state tells exactly what is set: nothing, a deadline,
or one event. -/
theorem slot_and_deadline {m₀ : Machine} {b : Broker} (h₀ : m₀.IsNew)
    (h : Run (fun _ _ => True) m₀ m) (hb : m.broker? v = some b) :
  b.pending.length ≤ 1 ∧ (b.pending ≠ {} → b.deadline = none) ∧
    (b.state = .idle ↔ b.pending.events = [] ∧ b.deadline = none) ∧
    (b.state = .armed ↔ ∃ d, b.deadline = some d) ∧
    (b.state = .delivering ↔ ∃ e, b.pending.events = [e])
  := by
  have he := h.everyBroker Broker.lasting_exclusive h₀ v b hb
  exact ⟨he.atMostOne, he.deadline, he.state_iff⟩

/-- A listener subscribes and waits for an event, which arrives before the deadline. -/
theorem slot_and_deadline_of_waiting :
  let user : Vmcs := ({} : Vmcs).write Field.cs 3
  let caller : VCpu := { parent := some 1, vmcs := user, regs := {
    rax := 0x60003, r11 := 1, r12 := 0x4002, r13 := 0x8000, r14 := 0x8000 } }
  let both := (Operation.add 2 caller).run ((Operation.add 1 {}).run {})
  let subscribed := (Operation.hypercall 2).run both
  let asking := (Operation.guest 2 { rax := 0x60000, r11 := 0x100000001 } user).run subscribed
  let waiting := (Operation.hypercall 2).run asking
  let trapped := (Operation.exit 1 { reason := .crAccess, qualification := 3 }).run waiting
  (waiting.broker? 2).map (·.deadline) = some (some 1000000) ∧
    ∃ b, trapped.broker? 2 = some b ∧ b.state = .delivering ∧ b.deadline = none
  := by
  intro user caller both subscribed asking waiting trapped
  have hr : Run (fun _ _ => True) {} trapped := by
    apply Run.tail _ trivial
    apply Run.tail _ trivial
    apply Run.tail _ trivial
    apply Run.tail _ trivial
    apply Run.tail _ trivial
    apply Run.tail _ trivial
    apply Run.refl
  have hs : (trapped.broker? 2).map (·.pending.events) = some [⟨1, .cr3Load, 0, 0⟩] := by
    decide +kernel
  obtain ⟨b, hb, he⟩ := Option.map_eq_some_iff.mp hs
  obtain ⟨-, hd, -, -, hdel⟩ := slot_and_deadline ⟨rfl, rfl⟩ hr hb
  refine ⟨by decide +kernel, b, hb, hdel.mpr ⟨_, he⟩, hd ?_⟩
  intro hp
  rw [hp] at he
  exact List.cons_ne_nil _ _ he.symm

end Machine

end ExitRelay
