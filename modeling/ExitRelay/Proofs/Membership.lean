import ExitRelay.Proofs.Lasting
import ExitRelay.Proofs.Registration

/-!
# Listeners are listed once

No processor is listed twice as a listener for the same exits.  A listener set refuses a
member that it has already, every change of a registry is made of changes of its sets, and
so the sets of every broker stay free of duplicates, whatever happens.
-/

namespace ExitRelay

namespace Registry

/-- No listener set has a member twice. -/
def Distinct (r : Registry) : Prop :=
  ∀ reason, (r.get reason).members.Nodup

namespace Distinct

variable {r : Registry}

/-- A listener is entered into lists that do not have it. -/
theorem subscribe (h : r.Distinct) (reason : ExitReason) (v : Vpid) :
  (r.subscribe reason v).2.Distinct
  := by
  intro b
  rcases members_subscribe_cases r reason v b with ⟨hv, he⟩ | he
  · rw [he]
    apply (h b).append (List.nodup_singleton v)
    rw [List.disjoint_singleton]
    exact hv
  · rw [he]
    apply h

theorem unsubscribe (h : r.Distinct) (reason : ExitReason) (v : Vpid) :
  (r.unsubscribe reason v).2.Distinct
  := by
  intro b
  rcases members_unsubscribe_cases r reason v b with ⟨-, he⟩ | he
  · rw [he]
    apply (h b).erase
  · rw [he]
    apply h

end Distinct

end Registry

/-- Moving the cursor changes no membership, and whoever is listed already is refused. -/
theorem Broker.lasting_distinct :
  Broker.Lasting fun b => b.registry.Distinct
  := by
  constructor
  · intro reason
    cases reason <;> exact List.nodup_nil
  · intro b k _ h
    cases k with
    | first reason =>
        intro reason'
        rw [Effect.apply, Registry.members_first]
        apply h
    | next reason =>
        intro reason'
        rw [Effect.apply, Registry.members_next]
        apply h
    | subscribe c l => exact h.subscribe c.exit l
    | unsubscribe c l => exact h.unsubscribe c.exit l
    | _ => exact h

namespace Machine

variable {m m₀ : Machine} {allowed : Machine → Operation → Prop}

/-- No processor is listed twice as a listener for the same exits of another one. -/
theorem Run.nodup_listeners (h : Run allowed m₀ m) (h₀ : m₀.IsNew) (v : Vpid)
    (reason : ExitReason) :
  (m.listeners v reason).members.Nodup
  := by
  cases hb : m.broker? v with
  | none =>
      rw [listeners, hb]
      exact List.nodup_nil
  | some b =>
      rw [listeners_of_broker? hb]
      apply h.everyBroker Broker.lasting_distinct h₀ v b hb

end Machine

end ExitRelay
