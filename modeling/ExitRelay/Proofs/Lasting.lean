import ExitRelay.Proofs.Isolation

/-!
# What lasts of every broker

A property that a new broker has and that every effect on a broker keeps is a property of
every broker of every machine that a new one comes to, whatever happens and whatever fails.
`EveryBroker.run` says so for a single operation and `Run.everyBroker` for a whole run.
-/

namespace ExitRelay

/-- A new broker has the property, and every effect that can occur keeps it. -/
structure Broker.Lasting (P : Broker → Prop) : Prop where
  default : P {}
  apply : ∀ {b k}, Broker.Effect.Possible k b → P b → P (k.apply b)

namespace Machine

/-- Every broker of the machine has the property. -/
def EveryBroker (P : Broker → Prop) (m : Machine) : Prop :=
  ∀ v b, m.broker? v = some b → P b

variable {m m₀ n : Machine} {p : Set Effect} {P : Broker → Prop} {α : Type}

theorem IsNew.everyBroker (h : m.IsNew) :
  m.EveryBroker P
  := by
  intro v b hb
  rw [broker?, h.1, Std.ExtTreeMap.getElem?_empty] at hb
  exact absurd hb (Option.some_ne_none b).symm

namespace EveryBroker

theorem mapVCpu (h : m.EveryBroker P) (v : Vpid) (f : VCpu → VCpu) :
  (m.mapVCpu v f).EveryBroker P
  := by
  intro w b hb
  rw [broker?_mapVCpu] at hb
  apply h w b hb

theorem apply (h : m.EveryBroker P) (hP : Broker.Lasting P) {k : Effect}
    (hk : k.Possible m) :
  (k.apply m).EveryBroker P
  := by
  cases k with
  | vcpu w k => exact h.mapVCpu w k.apply
  | broker w k =>
      intro v b hb
      rw [Effect.apply, broker?_mapBroker] at hb
      split at hb
      · subst v
        obtain ⟨b', hb', hk⟩ := hk
        rw [hb'] at hb
        obtain rfl := Option.some.inj hb
        apply hP.apply hk (h w b' hb')
      · apply h v b hb
  | _ => exact h

theorem path (h : m.EveryBroker P) (hP : Broker.Lasting P) (hp : Path p m n) :
  n.EveryBroker P
  := hp.keeps (fun _ _ _ hk hl => hl.apply hP hk) h

/-- The broker of a processor that is registered is a new one. -/
theorem add (h : m.EveryBroker P) (hP : Broker.Lasting P) (w : Vpid) (c : VCpu) :
  (after (Machine.add w c) m).EveryBroker P
  := by
  intro v b hb
  by_cases hv : v = w
  · subst v
    cases hw : m.isRegistered w with
    | true =>
        rw [add_of_registered hw] at hb
        apply h w b hb
    | false =>
        rw [broker?, getElem?_residents_add_self c hw] at hb
        obtain rfl := Option.some.inj hb
        exact hP.default
  · rw [broker?, getElem?_residents_add_of_ne c hv] at hb
    apply h v b hb

theorem remove (h : m.EveryBroker P) (w : Vpid) :
  (after (Machine.remove w) m).EveryBroker P
  := by
  intro v b hb
  by_cases hv : v = w
  · subst v
    rw [broker?, getElem?_residents_remove_self] at hb
    exact absurd hb (Option.some_ne_none b).symm
  · rw [broker?, getElem?_residents_remove hv] at hb
    apply h v b hb

end EveryBroker

/-- A program on one processor reaches no broker. -/
theorem keeps_everyBroker_withVmcs (hP : Broker.Lasting P) (v : Vpid) (x : VcpuM α) :
  Keeps (EveryBroker P) (withVmcs v x)
  := by
  have hx : Keeps (EveryBroker P) (onVCpu v x) :=
    keeps_onVCpu x (fun _ f h => h.mapVCpu v f) fun _ _ h => h
  apply keeps_withVmcs _ hx fun _ h => h
  intro w m h
  apply (walks_load (Set.subset_univ _) w).ends
  intro n hn
  apply h.path hP hn

/-- No operation takes a lasting property from any broker, whether it succeeds or fails. -/
theorem EveryBroker.run (h : m.EveryBroker P) (hP : Broker.Lasting P) (hm : m.Agrees)
    (o : Operation) :
  (o.run m).EveryBroker P
  := by
  cases o with
  | time now => exact h
  | guest w regs vmcs => exact h.mapVCpu w _
  | faults w plans => exact h.mapVCpu w _
  | add w c => exact h.add hP w c
  | remove w => exact h.remove w
  | withVmcs w x => exact (keeps_everyBroker_withVmcs hP w x m h).after
  | _ =>
      refine h.path hP (hm.path_run ?_)
      trivial

theorem Run.everyBroker {allowed : Machine → Operation → Prop} (h : Run allowed m₀ m)
    (hP : Broker.Lasting P) (h₀ : m₀.IsNew) :
  m.EveryBroker P
  := by
  have hm : m.Agrees ∧ m.EveryBroker P := by
    apply h.keeps (I := fun l => l.Agrees ∧ l.EveryBroker P) _ ⟨h₀.agrees, h₀.everyBroker⟩
    intro l o _ hl
    exact ⟨hl.1.run o, hl.2.run hP hl.1 o⟩
  exact hm.2

end Machine

end ExitRelay
