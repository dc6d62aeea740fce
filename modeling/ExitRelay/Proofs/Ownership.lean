import ExitRelay.Proofs.Completion
import ExitRelay.Proofs.Translation

/-!
# Whose an exit is

`HardwareExit.Foreign` lists the exits that are not the broker's: those of a failed entry, those
for a reason that the broker does not know, accesses to control registers other than moves to
CR3, and hypercalls of families that it does not serve.  `ownership` says that exactly these are
declined, on every machine, whatever may fail there, and that a declined exit leaves the machine
as it is.  Any other exit of a processor that is not registered is refused, and does nothing
either.
-/

namespace ExitRelay

/-- Outside the broker's families there is no family. -/
theorem Family.ofOpcode?_eq_none_iff {w : UInt64} :
  ofOpcode? w = none ↔ ∀ family : Family, family.opcode ≠ w
  := by
  rw [← Option.not_isSome_iff_eq_none]
  simp only [Option.isSome_iff_exists, ofOpcode?_eq_some_iff, not_exists]

/-- The exit of a processor is not the broker's. -/
inductive HardwareExit.Foreign (m : Machine) (v : Vpid) (x : HardwareExit) : Prop where
  | entryFailure (h : x.entryFailure = true)
  | unknown (hcr : x.reason ≠ .crAccess) (hept : x.reason ≠ .eptViolation)
      (hstep : x.reason ≠ .monitorTrapFlag) (hcall : x.reason ≠ .vmcall)
  /-- Bits 0 to 3 name the control register, and bits 4 and 5 tell a move to it from other
  accesses. -/
  | crAccess (hr : x.reason = .crAccess)
      (h : ¬ (Word.slice x.qualification 0 4 = 3 ∧ Word.slice x.qualification 4 2 = 0))
  /-- Bits 16 to 31 of `rax` hold the opcode. -/
  | vmcall (hr : x.reason = .vmcall) {c : VCpu} (hc : m.vcpu? v = some c)
      (h : ∀ family : Family, family.opcode ≠ Word.slice c.regs.rax 16 16)

namespace Machine

/-- The machine after a request about a processor that is not registered. -/
def rebuffed (m : Machine) : Machine :=
  m.withJournal (m.journal.note (.refused .unknownVpid))

variable {m n : Machine} {v : Vpid} {c : VCpu} {x : HardwareExit} {α : Type}

/-! ### Exits of processors that are not registered -/

section

variable {Q : α → Machine → Prop} {E : SysError → Machine → Prop} (hv : m.vcpu? v = none)
  (hE : E .notFound m.rebuffed)

include hv hE

theorem ends_onVCpu_of_none (body : VcpuM α) :
  Ends (onVCpu v body) m Q E
  := Ends.error (onVCpu_of_none hv body) hE

theorem ends_vcpu_of_none {Q : VCpu → Machine → Prop} :
  Ends (vcpu v) m Q E
  := by
  rw [vcpu?, Option.map_eq_none_iff] at hv
  have hx : resident v m = .error .notFound m.rebuffed := resident_of_none hv
  exact Ends.error (bind_of_error hx) hE

theorem ends_registers_of_none {Q : Registers → Machine → Prop} :
  Ends (registers v) m Q E
  := by
  rw [registers]
  apply (ends_vcpu_of_none hv hE).bind_fail

/-- A processor that is not registered may be recorded as loaded; then nothing is loaded. -/
theorem ends_enter_of_none :
  Ends (enter v) m (fun _ n => n = m) E
  := by
  rw [enter]
  apply Ends.bind_ok rfl
  split
  · exact Ends.pure rfl
  · rw [load]
    apply (ends_onVCpu_of_none hv hE _).bind_fail

theorem ends_handleEptViolation_of_none {Q : Transfer → Machine → Prop}
    (violation : EptViolation) :
  Ends (handleEptViolation v violation) m Q E
  := by
  rw [handleEptViolation]
  apply (ends_enter_of_none hv hE).bind
  rintro _ _ rfl
  apply (ends_onVCpu_of_none hv hE _).bind_fail

theorem ends_handleMonitorTrap_of_none {Q : Transfer → Machine → Prop} :
  Ends (handleMonitorTrap v) m Q E
  := by
  rw [handleMonitorTrap]
  apply (ends_enter_of_none hv hE).bind
  rintro _ _ rfl
  apply (ends_onVCpu_of_none hv hE _).bind_fail

theorem ends_handleHypercall_of_none {Q : Option Transfer → Machine → Prop} :
  Ends (handleHypercall v) m Q E
  := by
  rw [handleHypercall]
  apply (ends_vcpu_of_none hv hE).bind_fail

end

section

variable {E : TrapError → Machine → Prop} (hv : m.vcpu? v = none)
  (hE : E (.system .notFound) m.rebuffed)

include hv hE

/-- The register that a move names is not read, as its processor is not there. -/
theorem ends_moveSource_of_none {Q : UInt64 → Machine → Prop} {number : UInt8}
    (hnumber : number < 16) :
  Ends (moveSource v number) m Q E
  := by
  rw [moveSource]
  split
  · apply Ends.adaptExcept
    apply ends_onVCpu_of_none hv hE
  · rename_i h4
    obtain ⟨r, hr⟩ := Register.exists_ofNumber? hnumber h4
    simp only [hr]
    apply Ends.map
    apply Ends.adaptExcept
    apply ends_registers_of_none hv hE

theorem ends_handleCr3Write_of_none {Q : Transfer → Machine → Prop} {number : UInt8}
    (hnumber : number < 16) :
  Ends (handleCr3Write v number) m Q E
  := by
  rw [handleCr3Write]
  apply (Ends.adaptExcept (ends_enter_of_none hv hE)).bind
  rintro _ _ rfl
  apply (ends_moveSource_of_none hv hE hnumber).bind_fail

/-- An exit of a processor that is not registered is foreign or refused. -/
theorem ends_handleExit_of_none (x : HardwareExit) :
  Ends (handleExit v x) m (fun _ _ => x.Foreign m v) E
  := by
  rw [handleExit]
  split
  · rename_i hx
    exact Ends.pure (.entryFailure hx)
  · split
    · rename_i hr
      simp only
      split
      · apply Ends.map
        apply ends_handleCr3Write_of_none hv hE (CrAccess.generalRegister_lt _)
      · rename_i hw
        exact Ends.pure (.crAccess hr (mt (isCr3Write_iff _).mpr hw))
    · apply Ends.map
      apply Ends.adaptExcept
      apply ends_handleEptViolation_of_none hv hE
    · apply Ends.map
      apply Ends.adaptExcept
      apply ends_handleMonitorTrap_of_none hv hE
    · apply Ends.adaptExcept
      apply ends_handleHypercall_of_none hv hE
    · rename_i hcr hept hstep hcall
      exact Ends.pure (.unknown hcr hept hstep hcall)

end

/-! ### Exits that are declined -/

/-- Declining a foreign exit changes nothing. -/
theorem ends_handleExit_foreign (h : x.Foreign m v) :
  Ends (handleExit v x) m (fun t n => t = none ∧ n = m) fun _ _ => False
  := by
  rw [handleExit]
  by_cases hx : x.entryFailure = true
  · rw [if_pos hx]
    exact Ends.pure ⟨rfl, rfl⟩
  · rw [if_neg hx]
    cases h with
    | entryFailure h => exact absurd h hx
    | unknown hcr hept hstep hcall =>
        split
        · exact absurd ‹_› hcr
        · exact absurd ‹_› hept
        · exact absurd ‹_› hstep
        · exact absurd ‹_› hcall
        · exact Ends.pure ⟨rfl, rfl⟩
    | crAccess hr h =>
        simp only [hr]
        rw [if_neg (mt (isCr3Write_iff _).mp h)]
        exact Ends.pure ⟨rfl, rfl⟩
    | vmcall hr hc h =>
        simp only [hr]
        apply Ends.adaptExcept
        apply Ends.ok (handleHypercall_declined hc (Family.ofOpcode?_eq_none_iff.mpr h))
        exact ⟨rfl, rfl⟩

/-- A hypercall is declined for its opcode only. -/
theorem ends_handleHypercall_none :
  Ends (handleHypercall v) m (fun t _ => t = none →
    ∃ c, m.vcpu? v = some c ∧ ∀ family : Family, family.opcode ≠ Word.slice c.regs.rax 16 16)
    fun _ _ => True
  := by
  cases hc : m.vcpu? v with
  | none => exact ends_handleHypercall_of_none hc trivial
  | some c =>
      cases hfamily : Family.ofOpcode? (Selector.ofWord c.regs.rax).opcode with
      | none =>
          apply Ends.ok (handleHypercall_declined hc hfamily)
          intro _
          exact ⟨c, rfl, Family.ofOpcode?_eq_none_iff.mp hfamily⟩
      | some family =>
          rw [handleHypercall]
          apply Ends.bind_ok (vcpu_eq hc)
          simp only [hfamily]
          apply Ends.bind_last
          intro _ _
          apply Ends.bind_last
          intro t _
          apply Ends.bind_last
          intro _ _
          apply Ends.pure
          intro h
          exact absurd h (Option.some_ne_none t)

/-- An exit that is declined is foreign. -/
theorem ends_handleExit_none (m : Machine) (v : Vpid) (x : HardwareExit) :
  Ends (handleExit v x) m (fun t _ => t = none → x.Foreign m v) fun _ _ => True
  := by
  have hsome : ∀ y : TrapM Transfer,
      Ends (some <$> y) m (fun t _ => t = none → x.Foreign m v) fun _ _ => True := by
    intro y
    apply Ends.map
    apply Ends.trivial.imp
    intro t _ _ h
    exact absurd h (Option.some_ne_none t)
  rw [handleExit]
  split
  · rename_i hx
    apply Ends.pure
    intro _
    exact .entryFailure hx
  · split
    · rename_i hr
      simp only
      split
      · apply hsome
      · rename_i hw
        apply Ends.pure
        intro _
        exact .crAccess hr (mt (isCr3Write_iff _).mpr hw)
    · apply hsome
    · apply hsome
    · rename_i hr
      apply Ends.adaptExcept
      apply ends_handleHypercall_none.imp
      intro t _ h ht
      obtain ⟨c, hc, hopcode⟩ := h ht
      exact .vmcall hr hc hopcode
    · rename_i hcr hept hstep hcall
      apply Ends.pure
      intro _
      exact .unknown hcr hept hstep hcall

/-! ### Ownership -/

/-- An exit is declined if and only if it is foreign, and then nothing has changed.  Any other
exit of a processor that is not registered is refused, and nothing but that is noted. -/
theorem ownership (m : Machine) (v : Vpid) (x : HardwareExit) :
  ((∃ n, handleExit v x m = .ok none n) ↔ x.Foreign m v) ∧
    (∀ n, handleExit v x m = .ok none n → n = m) ∧
    (m.isRegistered v = false → ¬ x.Foreign m v →
      handleExit v x m = .error (.system .notFound) m.rebuffed)
  := by
  have hforeign : ∀ n, handleExit v x m = .ok none n → x.Foreign m v := by
    intro n hn
    have h := ends_handleExit_none m v x
    rw [Ends, hn] at h
    exact h rfl
  have hdeclined : x.Foreign m v → handleExit v x m = .ok none m := by
    intro h
    obtain ⟨_, _, hx, rfl, rfl⟩ | ⟨_, _, _, h⟩ := (ends_handleExit_foreign h).cases
    · exact hx
    · exact h.elim
  refine ⟨⟨?_, ?_⟩, ?_, ?_⟩
  · rintro ⟨n, hn⟩
    exact hforeign n hn
  · intro h
    exact ⟨m, hdeclined h⟩
  · intro n hn
    rw [hdeclined (hforeign n hn)] at hn
    exact (EStateM.Result.ok.inj hn).2.symm
  · intro hv hown
    have hc : m.vcpu? v = none := by
      rw [← Option.not_isSome_iff_eq_none, Option.isSome_iff_exists, ← isRegistered_iff_vcpu?, hv]
      exact Bool.false_ne_true
    have h := ends_handleExit_of_none
      (E := fun e n => e = .system .notFound ∧ n = m.rebuffed) hc ⟨rfl, rfl⟩ x
    obtain ⟨_, _, -, hx⟩ | ⟨_, _, hx, rfl, rfl⟩ := h.cases
    · exact absurd hx hown
    · exact hx

/-- The processor 1 makes a hypercall of a family that the broker does not serve, which is
declined.  The same exit of the processor 2, which is not registered, is refused. -/
theorem ownership_of_hypercall :
  let m : Machine := ({} : Machine).hosting 1 ⟨{ regs := { rax := 0x5_0002_0000 } }, {}⟩
  let x : HardwareExit := { reason := .vmcall }
  handleExit 1 x m = .ok none m ∧
    handleExit 2 x m = .error (.system .notFound) m.rebuffed
  := by
  intro m x
  have hc : m.vcpu? 1 = some { regs := { rax := 0x5_0002_0000 } } := vcpu?_hosting_self _ _ _
  have hnone : m.vcpu? 2 = none := vcpu?_hosting_of_ne _ _ (by decide)
  obtain ⟨hiff, hframe, -⟩ := ownership m 1 x
  obtain ⟨-, -, hrefused⟩ := ownership m 2 x
  constructor
  · have hforeign : x.Foreign m 1 := by
      apply HardwareExit.Foreign.vmcall rfl hc
      intro family
      cases family <;> decide
    obtain ⟨n, hn⟩ := hiff.mpr hforeign
    rw [hframe n hn] at hn
    exact hn
  · apply hrefused (by decide)
    intro h
    cases h with
    | entryFailure h => exact Bool.noConfusion h
    | unknown _ _ _ hcall => exact hcall rfl
    | crAccess hr _ => exact BasicReason.noConfusion hr
    | vmcall _ hc _ =>
        rw [hnone] at hc
        exact absurd hc (Option.some_ne_none _).symm

end Machine

end ExitRelay
