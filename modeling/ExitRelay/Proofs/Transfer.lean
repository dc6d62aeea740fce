import ExitRelay.Proofs.Completion

/-!
# Transfers

Whoever is told to enter a processor finds the control structure of that processor loaded,
by the broker's record and by the hardware, whatever has failed on the way; and the handling
of an exit fails only if the hardware does.  So an exit can always be answered by entering
the processor that its transfer names.
-/

namespace ExitRelay.Machine

variable {m n : Machine} {v : Vpid} {c : VCpu} {ε : Type}

/-- If nothing fails, a hypercall is answered or declined. -/
theorem sure_handleHypercall (h : m.Agrees) (hf : m.Flawless) (hc : m.vcpu? v = some c) :
  Ends (handleHypercall v) m (fun _ _ => True) (fun _ _ => False)
  := by
  cases hfam : Family.ofOpcode? (Selector.ofWord c.regs.rax).opcode with
  | none => exact Ends.ok (handleHypercall_declined hc hfam) trivial
  | some family =>
      apply (ends_handleHypercall (fun hl => (h v hl).2) hf.steady hc hfam).mono
      · intro _ _ _
        trivial
      · intro _ _ hx
        exact hx

/-- If nothing fails, an exit is handled or declined: a trap is offered, a hypercall is
answered, and any other exit is not the broker's. -/
theorem sure_handleExit (h : m.Agrees) (hf : m.Flawless) (hc : m.vcpu? v = some c)
    (x : HardwareExit) :
  Ends (handleExit v x) m (fun _ _ => True) (fun _ _ => False)
  := by
  cases he : x.event? v c with
  | some e =>
      obtain ⟨t, n, hx⟩ := exists_yields_handleExit h hf hc he
      apply hx.ends
      intro _
      trivial
  | none =>
      rw [HardwareExit.event?] at he
      rw [handleExit]
      split at he
      · rename_i hx
        rw [if_pos hx]
        exact Ends.pure trivial
      · rename_i hx
        rw [if_neg hx]
        split at he
        · rename_i hr
          split at he
          · exact absurd he (Option.some_ne_none _)
          · rename_i hw
            rw [hr]
            simp only
            rw [if_neg hw]
            exact Ends.pure trivial
        · exact absurd he (Option.some_ne_none _)
        · exact absurd he (Option.some_ne_none _)
        · rename_i hcr hept hmtf
          split
          · rename_i hr
            exact absurd hr hcr
          · rename_i hr
            exact absurd hr hept
          · rename_i hr
            exact absurd hr hmtf
          · apply Ends.adaptExcept
            apply sure_handleHypercall h hf hc
          · exact Ends.pure trivial

/-- An exit of a registered processor is never answered by an error if nothing fails. -/
theorem exists_handleExit (h : m.Agrees) (hf : m.Flawless) (hv : m.isRegistered v = true)
    (x : HardwareExit) :
  ∃ t n, handleExit v x m = .ok t n
  := by
  obtain ⟨c, hc⟩ := isRegistered_iff_vcpu?.mp hv
  obtain ⟨t, n, hx, -⟩ | ⟨_, _, _, hx⟩ := (sure_handleExit h hf hc x).cases
  · exact ⟨t, n, hx⟩
  · exact False.elim hx

/-! ### The processor that a transfer names -/

theorem Lands.holds {y : EStateM ε Machine Transfer} {t : Transfer} (hy : Lands y m)
    (hx : y m = .ok t n) :
  n.Holds t.target
  := by
  rw [Lands, Ends, hx] at hy
  exact hy

theorem MayEnter.holds {y : EStateM ε Machine (Option Transfer)} {t : Transfer}
    (hy : MayEnter y m) (hx : y m = .ok (some t) n) :
  n.Holds t.target
  := by
  rw [MayEnter, Ends, hx] at hy
  obtain ⟨w, rfl, hw⟩ := hy t rfl
  exact hw

/-- Whatever has failed, whoever is named as the next to run is registered, and its control
structure is the one that is loaded and that the hardware holds.  If nothing fails, every
exit of a registered processor is declined or leads to a transfer, whoever is listed as a
listener. -/
theorem transfer_coherent
    (h : ∀ v, m.loaded = some v → m.isRegistered v = true ∧ m.current = some v) :
  (∀ v x t n, handleExit v x m = .ok (some t) n → n.Holds t.target) ∧
    (∀ v t n, handleHypercall v m = .ok (some t) n → n.Holds t.target) ∧
    (∀ e t n, notify e m = .ok (some t) n → n.Holds t.target) ∧
    (∀ e t n, notifyNext e m = .ok (some t) n → n.Holds t.target) ∧
    (∀ listener e t n, inject listener e m = .ok t n → n.Holds t.target) ∧
    (∀ origin advance t n, release origin advance m = .ok t n → n.Holds t.target) ∧
    (m.Flawless → ∀ v x, m.isRegistered v = true → ∃ t n, handleExit v x m = .ok t n)
  := by
  have ha : m.Agrees := h
  refine ⟨?_, ?_, ?_, ?_, ?_, ?_, ?_⟩
  · intro v x t n hx
    have hl := lands_handleExit ha v x
    rw [Ends, hx] at hl
    apply hl t rfl
  · intro v t n hx
    have hl := lands_handleHypercall ha v
    rw [Ends, hx] at hl
    apply hl t rfl
  · intro e t n hx
    apply (mayEnter_notify e).holds hx
  · intro e t n hx
    apply (mayEnter_notifyNext e).holds hx
  · intro listener e t n hx
    apply (enters_inject listener e).lands.holds hx
  · intro origin advance t n hx
    apply (enters_release origin advance).lands.holds hx
  · intro hf v x hv
    apply exists_handleExit ha hf hv

/-- A processor traps whose only listener is gone: it is entered again itself. -/
theorem transfer_coherent_without_listener :
  let gone : ListenerSet := { members := [9], cursor := some 0 }
  let m₀ : Machine := {}
  let m : Machine := { m₀ with
    residents := m₀.residents.insert 1 ⟨{}, { registry := { cr3Load := gone } }⟩ }
  ∃ n, handleExit 1 { reason := .crAccess, qualification := 3 } m = .ok (some (.run 1)) n ∧
    n.Holds 1
  := by
  intro gone m₀ m
  let x : HardwareExit := { reason := .crAccess, qualification := 3 }
  have hf₀ : m₀.Flawless := guarantees_of_residents rfl
  have hf : m.Flawless := hf₀.insert 1 rfl
  have hm : ∀ v, m.loaded = some v → m.isRegistered v = true ∧ m.current = some v := by
    intro v hv
    exact absurd hv (Option.some_ne_none v).symm
  obtain ⟨hland, -, -, -, -, -, hsure⟩ := transfer_coherent hm
  obtain ⟨t, n, hx⟩ := hsure hf 1 x (by decide)
  have ht : t = some (.run 1) := by
    have hr : (match handleExit 1 x m with
      | .ok t _ => t
      | .error _ _ => none) = some (.run 1) := by
      decide +kernel
    rw [hx] at hr
    exact hr
  subst ht
  exact ⟨n, hx, hland 1 x _ n hx⟩

end ExitRelay.Machine
