import ExitRelay.Proofs.Operation

/-!
# Isolation of control structures

Whatever happens to a new machine, and whatever fails, the processor whose control structure
is loaded stays registered and is the one whose control structure the hardware holds.  From
such a state no handler reaches for a control structure that the hardware does not hold.
-/

namespace ExitRelay.Machine

variable {m n : Machine} {v : Vpid} {ε α : Type}

/-- The program makes no attempt at a control structure that the hardware does not hold. -/
def Directed (x : EStateM ε Machine α) (m : Machine) : Prop :=
  (after x m).journal.misdirected = m.journal.misdirected

/-! ### Agreement of the loaded processor and the hardware -/

theorem keeps_agrees_load (v : Vpid) :
  Keeps Agrees (load v)
  := by
  intro m h
  apply (walks_load (Set.subset_univ _) v).ends
  intro n hn
  apply hn.agrees h

/-- A program that is run on a processor with its control structure loaded may do to the
processor what it likes.  When the processor that was loaded before has been removed, none is
loaded, which agrees with anything. -/
theorem keeps_agrees_withVmcs (v : Vpid) (x : VcpuM α) :
  Keeps Agrees (withVmcs v x)
  := by
  have hx : Keeps Agrees (onVCpu v x) := keeps_onVCpu x (fun _ f h => h.mapVCpu v f) fun _ _ h => h
  apply keeps_withVmcs keeps_agrees_load hx
  intro m _ w hw
  exact absurd hw (Option.some_ne_none w).symm

/-- Every operation leaves the loaded processor and the hardware in agreement, whether it
succeeds or fails. -/
theorem Agrees.run (h : m.Agrees) (o : Operation) :
  (o.run m).Agrees
  := by
  cases o with
  | time now => exact h
  | guest v regs vmcs => exact h.mapVCpu v _
  | faults v plans => exact h.mapVCpu v _
  | add v c => exact h.add v c
  | remove v => exact h.remove v
  | withVmcs v x => exact (keeps_agrees_withVmcs v x m h).after
  | _ =>
      refine (h.path_run ?_).agrees h
      trivial

/-- The loaded processor and the hardware agree in every state that a new machine comes to. -/
theorem Run.agrees {allowed : Machine → Operation → Prop} (h : Run allowed m n)
    (hm : m.Agrees) :
  n.Agrees
  := h.keeps (fun _ o _ hl => hl.run o) hm

/-! ### Attempts that are not misdirected -/

theorem Walks.directed {x : EStateM ε Machine α} (hx : Walks Effect.directed x m) :
  Directed x m
  := hx.after.misdirected

/-- No call is known for misdirected attempts. -/
theorem effects_subset_directed (call : Call) (caller : Vpid) :
  call.effects caller ⊆ Effect.directed
  := by
  apply Call.effects_subset
  · intro k hk
    cases k with
    | misdirect v => exact hk
    | _ => trivial
  · trivial
  · intro o
    apply (Effect.passing_subset_delivery o).trans (Effect.delivery_subset_directed o)
  · trivial
  · intro _ _
    trivial

theorem directed_handleHypercall (h : m.Agrees) (v : Vpid) :
  Directed (handleHypercall v) m
  := by
  apply Walks.directed
  apply walks_handleHypercall Effect.routine_subset_directed h.aimed trivial (fun _ => trivial)
  intro call _
  apply effects_subset_directed

theorem directed_handleExit (h : m.Agrees) (v : Vpid) (x : HardwareExit) :
  Directed (handleExit v x) m
  := by
  apply Walks.directed
  apply walks_handleExit Effect.routine_subset_directed h.aimed x trivial (fun _ _ => trivial)
    (fun _ _ => trivial) (fun _ => Effect.delivery_subset_directed v)
  intro _ call _
  apply effects_subset_directed

theorem directed_setControls (h : m.Agrees) (caller target : Vpid) (field : ControlField) :
  Directed (setControls caller target field) m
  := by
  apply Walks.directed
  apply walks_setControls Effect.routine_subset_directed h.trusts caller target field
  · refine settleable ?_ ?_
    · trivial
    · apply (Effect.freeing_subset_delivery target).trans (Effect.delivery_subset_directed target)
  · intro _
    trivial

theorem directed_release (origin : Vpid) (advance : Bool) :
  Directed (release origin advance) m
  := by
  apply Walks.directed
  apply walks_release Effect.routine_subset_directed
  apply (Effect.freeing_subset_delivery origin).trans (Effect.delivery_subset_directed origin)

/-- Whatever happens to a new machine and whatever fails, the processor whose control
structure is loaded is registered and the hardware holds its control structure; and no
handler of exits or hypercalls, no change of controls and no release of an origin attempts
to reach any other control structure. -/
theorem isolation {m₀ m : Machine} (h₀ : m₀.IsNew) (h : Run (fun _ _ => True) m₀ m) :
  (∀ v, m.loaded = some v → m.isRegistered v = true ∧ m.current = some v) ∧
    (∀ v x, Directed (handleExit v x) m) ∧
    (∀ v, Directed (handleHypercall v) m) ∧
    (∀ caller target field, Directed (setControls caller target field) m) ∧
    (∀ origin advance, Directed (release origin advance) m)
  := by
  have ha : m.Agrees := h.agrees h₀.agrees
  refine ⟨ha, ?_, ?_, ?_, ?_⟩
  · apply directed_handleExit ha
  · apply directed_handleHypercall ha
  · apply directed_setControls ha
  · apply directed_release

/-- A processor that cannot be loaded is not taken for a loaded one: the hardware still
holds the control structure of the other. -/
theorem isolation_failed_load :
  let m := (Operation.load 2).run ((Operation.load 1).run ((Operation.add 2
    { faults := { load := FaultPlan.failing .io 0 none } }).run
      ((Operation.add 1 {}).run {})))
  m.loaded = some 1 ∧ m.current = some 1 ∧ ∀ v x, Directed (handleExit v x) m
  := by
  intro m
  have hr : Run (fun _ _ => True) {} m := by
    apply Run.tail _ trivial
    apply Run.tail _ trivial
    apply Run.tail _ trivial
    apply Run.tail _ trivial
    apply Run.refl
  have h := isolation ⟨rfl, rfl⟩ hr
  have hl : m.loaded = some 1 := by decide
  exact ⟨hl, (h.1 1 hl).2, h.2.1⟩

end ExitRelay.Machine
