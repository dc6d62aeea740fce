import ExitRelay.Proofs.Completion
import ExitRelay.Proofs.Operation

/-!
# What the broker changes of a processor

Whatever exits are handled and whatever fails, the broker writes four fields of a control
structure: the instruction pointer, CR3 and the two fields of execution controls, and in
these two only the controls that it manages.  CR3 changes only when the processor itself
moves to CR3, and the registers only when it makes a hypercall, which sets result registers.
No state that the broker starts from has to be a sound one for this.
-/

namespace ExitRelay

/-- The fields that the broker writes. -/
def Field.written : List Field :=
  [Field.rip, Field.cr3, Field.primaryControls, Field.secondaryControls]

namespace VCpu

/-! ### Fields and effects -/

/-- Switching a control changes no bit of its field outside the allowance. -/
theorem switched_outside {control : Control} (on : Bool) (w : UInt64) :
  (if on then w ||| control.mask else w &&& ~~~control.mask) &&& ~~~control.field.allowance =
    w &&& ~~~control.field.allowance
  := by
  have hset : control.mask &&& ~~~control.field.allowance = 0 := by
    cases control <;> decide
  have hclear : ~~~control.mask &&& ~~~control.field.allowance =
      ~~~control.field.allowance := by
    cases control <;> decide
  cases on with
  | true =>
      have hor : (w ||| control.mask) &&& ~~~control.field.allowance =
          w &&& ~~~control.field.allowance ||| control.mask &&& ~~~control.field.allowance :=
        UInt64.eq_of_toBitVec_eq BitVec.and_or_distrib_right
      rw [if_pos rfl, hor, hset, UInt64.or_zero]
  | false =>
      rw [if_neg Bool.false_ne_true, UInt64.and_assoc, hclear]

namespace Effect

/-- An effect writes no other fields. -/
theorem read_apply (k : Effect) {f : Field} (hf : f ∉ Field.written) (c : VCpu) :
  (k.apply c).vmcs.read f = c.vmcs.read f
  := by
  have hne : ∀ g ∈ Field.written, f ≠ g := by
    rintro g hg rfl
    exact hf hg
  cases k with
  | control control on =>
      apply Vmcs.read_write_of_ne
      apply hne
      cases control <;> decide
  | cr3 w =>
      apply Vmcs.read_write_of_ne
      apply hne
      decide
  | advance =>
      apply Vmcs.read_write_of_ne
      apply hne
      decide
  | _ => rfl

/-- An effect leaves the bits of a control field alone that are outside its allowance. -/
theorem read_apply_outside (k : Effect) (field : ControlField) (c : VCpu) :
  (k.apply c).vmcs.read field.encoding &&& ~~~field.allowance =
    c.vmcs.read field.encoding &&& ~~~field.allowance
  := by
  cases k with
  | control control on =>
      rw [apply, switched, written, Vmcs.read_write]
      split
      · rename_i he
        have hfield : field = control.field := by
          revert he
          cases field <;> cases control <;> decide
        subst hfield
        apply switched_outside
      · rfl
  | cr3 w =>
      rw [apply, written, Vmcs.read_write_of_ne]
      cases field <;> decide
  | advance =>
      rw [apply, advanced, written, Vmcs.read_write_of_ne]
      cases field <;> decide
  | _ => rfl

end Effect

end VCpu

/-- The second state of a processor differs from the first one in what the broker may write:
four fields, and in the control fields the controls that it manages. -/
structure VCpu.Confined (c c' : VCpu) : Prop where
  fields : ∀ f, f ∉ Field.written → c'.vmcs.read f = c.vmcs.read f
  controls : ∀ field : ControlField,
    c'.vmcs.read field.encoding &&& ~~~field.allowance =
      c.vmcs.read field.encoding &&& ~~~field.allowance

theorem VCpu.Confined.trans {a b c : VCpu} (h : a.Confined b) (h' : b.Confined c) :
  a.Confined c
  := by
  constructor
  · intro f hf
    rw [h'.fields f hf, h.fields f hf]
  · intro field
    rw [h'.controls, h.controls]

theorem VCpu.confined_of_vmcs {c c' : VCpu} (h : c'.vmcs = c.vmcs) :
  c.Confined c'
  := by
  constructor
  · intro f _
    rw [h]
  · intro field
    rw [h]

namespace Effect

/-- The effects that neither set registers nor move a processor to another CR3. -/
def reserved : Set Effect
  | .vcpu _ (.results _) => False
  | .vcpu _ (.cr3 _) => False
  | _ => True

/-- The effects that do not move a certain processor to another CR3. -/
def withoutCr3 (v : Vpid) : Set Effect :=
  {k | ∀ w, k ≠ .vcpu v (.cr3 w)}

variable {v : Vpid}

theorem reserved_subset_withoutCr3 :
  reserved ⊆ withoutCr3 v
  := by
  rintro _ hk w rfl
  exact hk

theorem reserved_subset_withoutResults :
  reserved ⊆ withoutResults v
  := by
  rintro _ hk f rfl
  exact hk

theorem routine_subset_reserved :
  routine ⊆ reserved
  := by
  intro k hk
  cases k with
  | vcpu v k =>
      cases k with
      | results f => exact hk
      | cr3 w => exact hk
      | _ => trivial
  | _ => trivial

theorem scheduling_subset_reserved :
  scheduling ⊆ reserved
  := by
  intro k hk
  cases k with
  | vcpu v k =>
      cases k with
      | results f => exact hk
      | cr3 w => exact hk
      | _ => trivial
  | _ => trivial

theorem delivery_subset_reserved (origin : Vpid) :
  delivery origin ⊆ reserved
  := by
  intro k hk
  cases k with
  | vcpu v k =>
      cases k with
      | results f => exact hk
      | cr3 w => exact hk
      | _ => trivial
  | _ => trivial

/-- No call is known for setting registers or for a move to CR3. -/
theorem effects_subset_reserved (call : Call) (caller : Vpid) :
  call.effects caller ⊆ reserved
  := by
  apply Call.effects_subset
  · exact scheduling_subset_reserved
  · trivial
  · intro o
    apply (passing_subset_delivery o).trans (delivery_subset_reserved o)
  · trivial
  · intro _ _
    trivial

end Effect

/-- The processor moves to CR3, and this exit is reported. -/
def Operation.MovesToCr3 (o : Operation) (v : Vpid) : Prop :=
  ∃ x, o = .exit v x ∧ x.entryFailure = false ∧ x.reason = .crAccess ∧
    (CrAccess.ofQualification x.qualification).isCr3Write = true

namespace Machine

/-- The operations of a run in which only the broker writes control structures: exits are
handled, guests change their registers, time passes, and the hardware becomes faulty. -/
def Supervised (m : Machine) : Operation → Prop
  | .time _ | .faults _ _ | .exit _ _ | .hypercall _ => True
  | .guest v _ vmcs => ∀ c, m.vcpu? v = some c → vmcs = c.vmcs
  | _ => False

variable {m m₀ n : Machine} {v w : Vpid} {c c' : VCpu} {o : Operation} {p : Set Effect}

/-! ### What an operation changes of a processor -/

/-- What no effect on a processor changes of it is the same at the end of a path. -/
theorem Path.eq_of_vcpu? {β : Type} {g : VCpu → β} (h : Path p m n)
    (hg : ∀ k, .vcpu v k ∈ p → k.Possible → ∀ c, g (k.apply c) = g c)
    (hc : m.vcpu? v = some c) (hc' : n.vcpu? v = some c') :
  g c' = g c
  := by
  have hm := h.map_vcpu? hg
  rw [hc, hc'] at hm
  exact Option.some.inj hm

/-- Whatever path leads on from a processor, it is confined. -/
theorem Path.confined (h : Path p m n) (hc : m.vcpu? v = some c) (hc' : n.vcpu? v = some c') :
  c.Confined c'
  := by
  constructor
  · intro f hf
    apply h.eq_of_vcpu? (g := fun c => c.vmcs.read f) _ hc hc'
    intro k _ _ c
    apply k.read_apply hf
  · intro field
    apply h.eq_of_vcpu? (g := fun c => c.vmcs.read field.encoding &&& ~~~field.allowance) _ hc hc'
    intro k _ _ c
    apply k.read_apply_outside

/-- Results are all that is ever put into registers. -/
theorem Path.get_regs (h : Path p m n) (hc : m.vcpu? v = some c) (hc' : n.vcpu? v = some c')
    {r : Register} (hr : r ∉ Registers.results) :
  c'.regs.get r = c.regs.get r
  := by
  apply h.eq_of_vcpu? (g := fun c => c.regs.get r) _ hc hc'
  intro k _ hk c
  cases k with
  | results f => exact hk c.regs r hr
  | _ => rfl

/-- What an exit leads along depends on whether it is a hypercall or a move to CR3, but not on
what is loaded, where attempts may be misdirected. -/
theorem Supervised.path (ho : Supervised m o) (hprog : o.IsProgram) (hp : Effect.reserved ⊆ p)
    (ha : ∀ w, o.caller? = some w → ∀ f, .vcpu w (.results f) ∈ p)
    (hc : ∀ w, o.MovesToCr3 w → ∀ u, .vcpu w (.cr3 u) ∈ p) :
  Path p m (o.run m)
  := by
  have hr : Effect.routine ⊆ p := Effect.routine_subset_reserved.trans hp
  cases o with
  | hypercall w =>
      apply Walks.after
      apply walks_handleHypercall hr (fun _ => .inr (hp trivial)) (hp trivial) (ha w rfl)
      intro call _
      apply (Effect.effects_subset_reserved call w).trans hp
  | exit w x =>
      apply Walks.after
      by_cases hdecl : x.entryFailure = true ∨
          x.reason = .crAccess ∧ (CrAccess.ofQualification x.qualification).isCr3Write = false
      · have hx : handleExit w x = pure none := by
          rw [handleExit]
          rcases hdecl with hx | ⟨hr, hw⟩
          · rw [if_pos hx]
          · simp only [hr, hw, Bool.false_eq_true, if_false, ite_self]
        rw [hx]
        apply Walks.pure
      · rw [not_or, Bool.not_eq_true, not_and, Bool.not_eq_false] at hdecl
        apply walks_handleExit hr (fun _ => .inr (hp trivial)) x (hp trivial)
        · intro hx
          apply ha w
          rw [Operation.caller?, if_pos ⟨hdecl.1, hx⟩]
        · intro hx
          exact hc w ⟨x, rfl, hdecl.1, hx, hdecl.2 hx⟩
        · intro _
          apply (Effect.delivery_subset_reserved w).trans hp
        · intro _ call _
          apply (Effect.effects_subset_reserved call w).trans hp
  | time now => exact False.elim hprog
  | guest w regs vmcs => exact False.elim hprog
  | faults w plans => exact False.elim hprog
  | _ => exact False.elim ho

/-- An operation that is no program of the broker leaves the control structures as they are,
and the registers of all processors but the guest that runs. -/
theorem Supervised.vcpu?_run (ho : Supervised m o) (hprog : ¬ o.IsProgram)
    (hc : m.vcpu? v = some c) :
  ∃ c', (o.run m).vcpu? v = some c' ∧ c'.vmcs = c.vmcs ∧
    (c'.regs = c.regs ∨ ∃ regs vmcs, o = .guest v regs vmcs)
  := by
  cases o with
  | time now => exact ⟨c, hc, rfl, .inl rfl⟩
  | faults w plans =>
      by_cases hw : v = w
      · subst w
        exact ⟨_, vcpu?_mapVCpu_of_some hc _, rfl, .inl rfl⟩
      · exact ⟨c, by rw [Operation.run, vcpu?_mapVCpu_of_ne _ hw, hc], rfl, .inl rfl⟩
  | guest w regs vmcs =>
      by_cases hw : v = w
      · subst w
        exact ⟨_, vcpu?_mapVCpu_of_some hc _, ho c hc, .inr ⟨regs, vmcs, rfl⟩⟩
      · exact ⟨c, by rw [Operation.run, vcpu?_mapVCpu_of_ne _ hw, hc], rfl, .inl rfl⟩
  | exit w x => exact absurd trivial hprog
  | hypercall w => exact absurd trivial hprog
  | _ => exact False.elim ho

/-- CR3 changes only in the move that the processor itself makes. -/
theorem Supervised.read_cr3 (ho : Supervised m o) (hprog : o.IsProgram)
    (hmov : ¬ o.MovesToCr3 v) (hc : m.vcpu? v = some c) (hc' : (o.run m).vcpu? v = some c') :
  c'.vmcs.read Field.cr3 = c.vmcs.read Field.cr3
  := by
  have hp : Path (Effect.withoutCr3 v) m (o.run m) := by
    apply ho.path hprog Effect.reserved_subset_withoutCr3
    · intro w _ f u hk
      exact VCpu.Effect.noConfusion (Effect.vcpu.inj hk).2
    · rintro w hw u u' hk
      obtain ⟨rfl, -⟩ := Effect.vcpu.inj hk
      exact hmov hw
  apply hp.eq_of_vcpu? (g := fun c => c.vmcs.read Field.cr3) _ hc hc'
  intro k hk _ c
  cases k with
  | cr3 w => exact absurd rfl (hk w)
  | control control on =>
      apply Vmcs.read_write_of_ne
      cases control <;> decide
  | advance =>
      apply Vmcs.read_write_of_ne
      decide
  | _ => rfl

/-- Registers change only in a hypercall of the processor itself. -/
theorem Supervised.regs_eq (ho : Supervised m o) (hprog : o.IsProgram)
    (hcall : o.caller? ≠ some v) (hc : m.vcpu? v = some c) (hc' : (o.run m).vcpu? v = some c') :
  c'.regs = c.regs
  := by
  have hp : Path (Effect.withoutResults v) m (o.run m) := by
    apply ho.path hprog Effect.reserved_subset_withoutResults
    · rintro w hw f f' hk
      obtain ⟨rfl, -⟩ := Effect.vcpu.inj hk
      exact hcall hw
    · intro w _ u f hk
      exact VCpu.Effect.noConfusion (Effect.vcpu.inj hk).2
  have hr := hp.regs
  rw [hc, hc'] at hr
  exact Option.some.inj hr

/-- What a single operation may do to a processor. -/
theorem Supervised.confined (ho : Supervised m o) (hc : m.vcpu? v = some c) :
  ∃ c', (o.run m).vcpu? v = some c' ∧ c.Confined c' ∧
    (c'.vmcs.read Field.cr3 ≠ c.vmcs.read Field.cr3 → o.MovesToCr3 v) ∧
    (c'.regs ≠ c.regs → o.caller? = some v ∨ ∃ regs vmcs, o = .guest v regs vmcs) ∧
    (o.IsProgram → ∀ r, c'.regs.get r ≠ c.regs.get r → r ∈ Registers.results)
  := by
  by_cases hprog : o.IsProgram
  · have hp : Path Set.univ m (o.run m) :=
      ho.path hprog (Set.subset_univ _) (fun _ _ _ => trivial) fun _ _ _ => trivial
    obtain ⟨c', hc'⟩ : ∃ c', (o.run m).vcpu? v = some c' := by
      rw [← isRegistered_iff_vcpu?, hp.isRegistered, isRegistered_iff_vcpu?]
      exact ⟨c, hc⟩
    refine ⟨c', hc', hp.confined hc hc', ?_, ?_, ?_⟩
    · intro hne
      by_contra hmov
      exact hne (ho.read_cr3 hprog hmov hc hc')
    · intro hne
      left
      by_contra hcall
      exact hne (ho.regs_eq hprog hcall hc hc')
    · intro _ r hne
      by_contra hr
      exact hne (hp.get_regs hc hc' hr)
  · obtain ⟨c', hc', hvmcs, hregs⟩ := ho.vcpu?_run hprog hc
    refine ⟨c', hc', VCpu.confined_of_vmcs hvmcs, ?_, ?_, ?_⟩
    · intro hne
      exact absurd (congrArg (Vmcs.read · Field.cr3) hvmcs) hne
    · intro hne
      exact .inr (hregs.resolve_left hne)
    · intro hprog'
      exact absurd hprog' hprog

/-- A processor is confined in every state of a run. -/
theorem Run.confined (h : Run Supervised m₀ m) (hc : m₀.vcpu? v = some c) :
  ∃ c', m.vcpu? v = some c' ∧ c.Confined c'
  := by
  apply h.keeps (I := fun l => ∃ c', l.vcpu? v = some c' ∧ c.Confined c') _
    ⟨c, hc, VCpu.confined_of_vmcs rfl⟩
  rintro l o ho ⟨c', hc', hcc'⟩
  obtain ⟨c'', hc'', hcc'', -⟩ := ho.confined hc'
  exact ⟨c'', hc'', hcc'.trans hcc''⟩

/-- Whatever exits are handled from whatever state and whatever fails, no field of a control
structure changes but the instruction pointer, CR3 and the execution controls, and no bit of
these outside the allowances.  CR3 of a processor changes only in the handling of its own
move to CR3.  The broker changes the registers of a processor only in a hypercall that the
processor makes, and then only the registers for results. -/
theorem confinement {c₀ : VCpu} (hc : m₀.vcpu? v = some c₀) (h : Run Supervised m₀ m) :
  ∃ c, m.vcpu? v = some c ∧
    (∀ f, f ∉ [Field.rip, Field.cr3, Field.primaryControls, Field.secondaryControls] →
      c.vmcs.read f = c₀.vmcs.read f) ∧
    (∀ field : ControlField, c.vmcs.read field.encoding &&& ~~~field.allowance =
      c₀.vmcs.read field.encoding &&& ~~~field.allowance) ∧
    ∀ o, Supervised m o → ∃ c', (o.run m).vcpu? v = some c' ∧
      (c'.vmcs.read Field.cr3 ≠ c.vmcs.read Field.cr3 → o.MovesToCr3 v) ∧
      (c'.regs ≠ c.regs → o.caller? = some v ∨ ∃ regs vmcs, o = .guest v regs vmcs) ∧
      (o.caller? = some v → ∀ r, c'.regs.get r ≠ c.regs.get r →
        r ∈ [Register.rax, .r10, .r11, .r12, .r13, .rdi])
  := by
  obtain ⟨c, hc, hcc⟩ := h.confined hc
  refine ⟨c, hc, hcc.fields, hcc.controls, ?_⟩
  intro o ho
  obtain ⟨c', hc', -, hcr3, hregs, hres⟩ := ho.confined hc
  refine ⟨c', hc', hcr3, hregs, ?_⟩
  intro hcall
  apply hres
  cases o with
  | hypercall w => trivial
  | exit w x => trivial
  | _ => exact absurd hcall (Option.some_ne_none v).symm

/-- A processor subscribes to the moves to CR3 of another one, which makes such a move: the
stack pointer and the controls that nobody manages stay as they are. -/
theorem confinement_of_trap :
  let origin : VCpu := { vmcs := (({} : Vmcs).write Field.rsp 7).write Field.primaryControls 5 }
  let listener : VCpu := { regs := {
    rax := 0x60003, r11 := 1, r12 := 0x4002, r13 := 0x8000, r14 := 0x8000 } }
  let both := (Operation.add 2 listener).run ((Operation.add 1 origin).run {})
  let subscribed := (Operation.hypercall 2).run both
  let trapped := (Operation.exit 1 { reason := .crAccess, qualification := 3 }).run subscribed
  trapped.isPaused 1 = true ∧ ∃ c, trapped.vcpu? 1 = some c ∧ c.vmcs.read Field.rsp = 7 ∧
    c.vmcs.read Field.primaryControls &&& ~~~0x8008000 = 5
  := by
  intro origin listener both subscribed trapped
  have hr : Run Supervised both trapped := by
    apply Run.tail _ trivial
    apply Run.tail _ trivial
    apply Run.refl
  have horigin : both.vcpu? 1 = some origin := rfl
  obtain ⟨c, hc, hfields, hcontrols, -⟩ := confinement horigin hr
  refine ⟨by decide +kernel, c, hc, ?_, ?_⟩
  · rw [hfields Field.rsp (by decide)]
    decide +kernel
  · have h := hcontrols .primary
    rw [show ControlField.primary.allowance = 0x8008000 by decide] at h
    exact h.trans (by decide +kernel)

end Machine

end ExitRelay
