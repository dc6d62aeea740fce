import ExitRelay.Proofs.Execution.Subscription

/-!
# What a guest can read

A guest can ask for the registers of its parent and of no other processor.  What its call
does to it is a function of the guest itself and of its parent: on machines that agree on
these two, whatever else they hold, the call has the same outcome and leaves the guest in the
same state.
-/

namespace ExitRelay

/-- The value of a register of a processor. -/
def VCpu.register (c : VCpu) : RegisterId → UInt64
  | .general r => c.regs.get r
  | .rsp => c.vmcs.read Field.rsp
  | .rip => c.vmcs.read Field.rip
  | .cr0 => c.vmcs.read Field.cr0
  | .cr3 => c.vmcs.read Field.cr3
  | .cr4 => c.vmcs.read Field.cr4
  | .rflags => c.vmcs.read Field.rflags
  | .cs => c.vmcs.read Field.cs

/-- The outcome of a guest's naming the owner of a register, where `parent` is its parent if
it is registered.  The numbers that stand for the guest itself and for any processor are
refused even if the parent has one of them. -/
def Vpid.owner (parent : Option Vpid) (argument : Vpid) : Except Status Vpid :=
  if argument = self then .error .invalidVpidUnsupportedSelf
  else if argument = any then .error .invalidVpidUnsupportedAny
  else if argument = Vpid.parent then parent.elim (.error .invalidVpidUnknown) .ok
  else if parent = some argument then .ok argument
  else .error .failureUnsupported

/-- A guest names its parent, or it is told that its call has not succeeded. -/
theorem Vpid.owner_cases (parent : Option Vpid) (argument : Vpid) :
  (∃ p, parent = some p ∧ (argument = Vpid.parent ∨ argument = p) ∧
      owner parent argument = .ok p) ∨
    ∃ s, s ≠ .success ∧ owner parent argument = .error s
  := by
  rw [owner]
  split
  · exact .inr ⟨_, by decide, rfl⟩
  · split
    · exact .inr ⟨_, by decide, rfl⟩
    · split
      · rename_i harg
        cases parent with
        | none => exact .inr ⟨_, by decide, rfl⟩
        | some p => exact .inl ⟨p, rfl, .inl harg, rfl⟩
      · split
        · rename_i hp
          exact .inl ⟨argument, hp, .inr rfl, rfl⟩
        · exact .inr ⟨_, by decide, rfl⟩

namespace Machine

variable {m m' : Machine} {v w p : Vpid} {c : VCpu} {S : Set Vpid}

/-- The value of a register of a processor, if it is registered. -/
def registerOf (m : Machine) (v : Vpid) (i : RegisterId) : UInt64 :=
  ((m.vcpu? v).map (·.register i)).getD 0

/-- The outcome of asking for the register with a number once its owner has been looked for. -/
def registerRead (m : Machine) (owner : Except Status Vpid) (number : UInt64) :
    Except Status UInt64 :=
  match owner with
  | .error status => .error status
  | .ok p =>
    match RegisterId.ofNumber? number with
    | none => .error .invalidParams2
    | some i => .ok (m.registerOf p i)

/-- The outcome of a guest's asking for a register, the two arguments of which stand in `r11`
and `r12`. -/
def disclosed (m : Machine) (c : VCpu) : Except Status UInt64 :=
  match Vpid.owner (c.parent.filter m.isRegistered) c.regs.r11 with
  | .error status => .error status
  | .ok p =>
    match RegisterId.ofNumber? c.regs.r12 with
    | none => .error .invalidParams2
    | some i => .ok (m.registerOf p i)

/-! ### What the outcome depends on -/

theorem registerOf_of_vcpu? (hc : m.vcpu? v = some c) (i : RegisterId) :
  m.registerOf v i = c.register i
  := by
  rw [registerOf, hc]
  rfl

/-- The outcome is the value of a register of the guest's parent that the arguments name, or
a status other than success. -/
theorem disclosed_cases (m : Machine) (c : VCpu) :
  (∃ p i, c.parent = some p ∧ m.isRegistered p = true ∧
      (c.regs.r11 = Vpid.parent ∨ c.regs.r11 = p) ∧
      RegisterId.ofNumber? c.regs.r12 = some i ∧ m.disclosed c = .ok (m.registerOf p i)) ∨
    ∃ s, s ≠ .success ∧ m.disclosed c = .error s
  := by
  rw [disclosed]
  obtain ⟨p, hfilter, harg, hown⟩ | ⟨s, hs, hown⟩ :=
    Vpid.owner_cases (c.parent.filter m.isRegistered) c.regs.r11
  · obtain ⟨hparent, hp⟩ := Option.filter_eq_some_iff.mp hfilter
    rw [hown]
    cases hi : RegisterId.ofNumber? c.regs.r12 with
    | none => exact .inr ⟨_, by decide, rfl⟩
    | some i => exact .inl ⟨p, i, hparent, hp, harg, rfl, rfl⟩
  · rw [hown]
    exact .inr ⟨s, hs, rfl⟩

/-- The outcome depends on nothing but the guest and its parent. -/
theorem disclosed_congr (h : AgreeOn S m m') (hp : ∀ p, c.parent = some p → p ∈ S) :
  m.disclosed c = m'.disclosed c
  := by
  have hfilter : c.parent.filter m.isRegistered = c.parent.filter m'.isRegistered := by
    cases hc : c.parent with
    | none => rfl
    | some p =>
        have hr : m.isRegistered p = m'.isRegistered p :=
          isRegistered_of_residents (h p (hp p hc))
        rw [Option.filter_some, Option.filter_some, hr]
  rw [disclosed, disclosed, hfilter]
  obtain ⟨p, hparent, -, hown⟩ | ⟨s, -, hown⟩ :=
    Vpid.owner_cases (c.parent.filter m'.isRegistered) c.regs.r11
  · have hv := h.vcpu? (hp p (Option.filter_eq_some_iff.mp hparent).1)
    simp only [hown, registerOf, hv]
  · rw [hown]

/-! ### The call -/

theorem concludes_registerOwner (hc : m.vcpu? v = some c) (hg : c.isRoot = false)
    (argument : Vpid) :
  Concludes (registerOwner v argument) m (Vpid.owner (c.parent.filter m.isRegistered) argument) m
  := by
  rw [registerOwner, Vpid.owner]
  apply (yields_vcpu hc).adaptExcept.bind_concludes
  apply (yields_parentOf hc).adaptExcept.bind_concludes
  split
  · apply Concludes.throw
  · split
    · apply Concludes.throw
    · split
      · rw [hg, if_neg Bool.false_ne_true]
        cases c.parent.filter m.isRegistered with
        | none => apply Concludes.throw
        | some p => exact Yields.pure p
      · by_cases hp : c.parent.filter m.isRegistered = some argument
        · have hr := (Option.filter_eq_some_iff.mp hp).2
          rw [if_neg (fun h => h.2 hp), if_pos hp]
          apply (yields_contains argument).adaptExcept.bind_concludes
          rw [if_pos hr]
          exact Yields.pure argument
        · rw [if_pos ⟨by rw [hg]; exact Bool.false_ne_true, hp⟩, if_neg hp]
          apply Concludes.throw

section

variable (h : m.Holds v) (hf : m.Flawless)

include h hf

theorem yields_readRegister (hw : m.isRegistered w = true) (i : RegisterId) :
  Yields (readRegister w i) m (m.registerOf w i) m
  := by
  obtain ⟨d, hd⟩ := isRegistered_iff_vcpu?.mp hw
  have hread : ∀ f, Yields (withVmcs w (VcpuM.vmread f)) m (d.vmcs.read f) m := by
    intro f
    rw [← fieldOf_of_vcpu? hd]
    exact yields_vmread_elsewhere h hf hw f
  rw [registerOf_of_vcpu? hd]
  cases i with
  | general r => exact (yields_registers hd).map
  | _ => exact hread _

variable (hc : m.vcpu? v = some c)

include hc

/-- The owner is looked for, then the register, and then its value is handed over. -/
theorem concludes_registerValue_of_owner {owner : Except Status Vpid}
    (hown : Concludes (registerOwner v c.regs.r11) m owner m)
    (hreg : ∀ p, owner = .ok p → m.isRegistered p = true) :
  Concludes (registerValue v) m ((m.registerRead owner c.regs.r12).map fun _ => ())
    (m.succeeded v ((m.registerRead owner c.regs.r12).map fun value regs =>
      { regs with r10 := value }))
  := by
  rw [registerValue]
  apply (yields_registers hc).adaptExcept.bind_concludes
  cases owner with
  | error s => exact hown.bind_error
  | ok p =>
      apply hown.yields.bind_concludes
      rw [registerRead]
      cases RegisterId.ofNumber? c.regs.r12 with
      | none => apply Concludes.throw
      | some i =>
          apply (yields_readRegister h hf (hreg p rfl) i).adaptExcept.bind_concludes
          exact (yields_succeed hc _).adaptExcept

variable (hg : c.isRoot = false)

include hg

theorem concludes_registerValue {r : Except Status UInt64} (hr : m.disclosed c = r) :
  Concludes (registerValue v) m (r.map fun _ => ())
    (m.succeeded v (r.map fun value regs => { regs with r10 := value }))
  := by
  obtain rfl := hr
  apply concludes_registerValue_of_owner h hf hc (concludes_registerOwner hc hg _)
  intro p hp
  obtain ⟨p', hparent, -, hp'⟩ | ⟨s, -, hs⟩ :=
    Vpid.owner_cases (c.parent.filter m.isRegistered) c.regs.r11
  · rw [hp'] at hp
    obtain rfl := Except.ok.inj hp
    exact (Option.filter_eq_some_iff.mp hparent).2
  · rw [hs] at hp
    nomatch hp

/-- The call is completed with the outcome, whichever it is. -/
theorem yields_serve_registerValue :
  Yields (completing v (serve v .registerValue)) m (.run v)
    (m.mapVCpu v (VCpu.replied ((m.disclosed c).map fun value regs => { regs with r10 := value })))
  := yields_completing (concludes_registerValue h hf hc hg rfl) h hf

end

/-- The machine on which a guest that was in the state `c` has asked for a register. -/
def informed (m : Machine) (v : Vpid) (c : VCpu) : Machine :=
  (m.begun v).mapVCpu v
    (VCpu.replied (((m.begun v).disclosed c.advanced).map
      fun value regs => { regs with r10 := value }))

section

variable (h : m.Agrees) (hf : m.Flawless) (hc : m.vcpu? v = some c) (hg : c.isRoot = false)
  (hcall : m.call? v = some .registerValue)

include hc

theorem vcpu?_informed :
  (m.informed v c).vcpu? v =
    some (VCpu.replied (((m.begun v).disclosed c.advanced).map
      fun value regs => { regs with r10 := value }) c.advanced)
  := vcpu?_mapVCpu_of_some (vcpu?_begun hc) _

/-- If the call succeeds, its arguments name the parent and a register, and what the guest
finds is the value of that register. -/
theorem reports_informed (hs : (m.informed v c).Reports v .success) :
  ∃ p d i, c.parent = some p ∧ m.vcpu? p = some d ∧
    (c.regs.r11 = Vpid.parent ∨ c.regs.r11 = p) ∧ RegisterId.ofNumber? c.regs.r12 = some i ∧
    (p ≠ v → ((m.informed v c).vcpu? v).map (·.regs.r10) = some (d.register i))
  := by
  rw [Reports, vcpu?_informed hc, Option.map_some, Option.some_inj] at hs
  obtain ⟨p, i, hparent, hp, harg, hi, hvalue⟩ | ⟨s, hs', herror⟩ :=
    disclosed_cases (m.begun v) c.advanced
  · rw [isRegistered_begun] at hp
    obtain ⟨d, hd⟩ := isRegistered_iff_vcpu?.mp hp
    refine ⟨p, d, i, hparent, hd, harg, hi, ?_⟩
    intro hne
    rw [vcpu?_informed hc, hvalue, registerOf_of_vcpu? ((vcpu?_begun_of_ne hne).trans hd)]
    rfl
  · rw [herror] at hs
    exact absurd (Status.code_inj.mp hs) hs'

include h hf hg hcall

/-- The hypercall of a guest that asks for a register runs its caller again. -/
theorem yields_handleHypercall_registerValue :
  Yields (handleHypercall v) m (some (.run v)) (m.informed v c)
  := by
  have hholds := holds_begun hc
  have hserve := yields_serve_registerValue hholds (hf.begun v) (vcpu?_begun hc) hg
  exact yields_handleHypercall_of_begun hc h hf hcall (by decide) hserve
    (hholds.mapVCpu v _).registered

end

/-- A guest that asks for a register learns nothing but registers of its parent.  On machines
that agree on the guest and on its parent, the call runs the guest again in the same state; and
if it succeeds, the guest has named its parent and a register, and finds the value of that
register, unless it is its own parent and has changed by moving on. -/
theorem disclosure (h : m.Agrees) (h' : m'.Agrees) (hf : m.Flawless) (hf' : m'.Flawless)
    (hc : m.vcpu? v = some c) (hg : c.domain = .guest) (hcall : m.call? v = some .registerValue)
    (hs : AgreeOn {x | x = v ∨ c.parent = some x} m m') :
  ∃ n n',
    handleHypercall v m = .ok (some (.run v)) n ∧
    handleHypercall v m' = .ok (some (.run v)) n' ∧ n.vcpu? v = n'.vcpu? v ∧
    (n.Reports v .success → ∃ p d i, c.parent = some p ∧ m.vcpu? p = some d ∧
      (c.regs.r11 = Vpid.parent ∨ c.regs.r11 = p) ∧
      RegisterId.ofNumber? c.regs.r12 = some i ∧
      (p ≠ v → (n.vcpu? v).map (·.regs.r10) = some (d.register i)))
  := by
  have hr : c.isRoot = false := by
    rw [VCpu.isRoot, hg]
    rfl
  have hv : m.vcpu? v = m'.vcpu? v := hs.vcpu? (.inl rfl)
  have hc' : m'.vcpu? v = some c := hv ▸ hc
  have hcall' : m'.call? v = some .registerValue := by
    rw [call?, ← hv]
    exact hcall
  obtain ⟨j, hn⟩ := (yields_handleHypercall_registerValue h hf hc hr hcall).eq_ok
  obtain ⟨j', hn'⟩ := (yields_handleHypercall_registerValue h' hf' hc' hr hcall').eq_ok
  have hsame : (m.begun v).disclosed c.advanced = (m'.begun v).disclosed c.advanced :=
    disclosed_congr ((hs.switchTo v).mapVCpu v VCpu.advanced) fun _ hp => .inr hp
  refine ⟨_, _, hn, hn', ?_, ?_⟩
  · rw [vcpu?_withJournal, vcpu?_withJournal, vcpu?_informed hc, vcpu?_informed hc', hsame]
  · exact reports_informed hc

/-- A guest asks for the instruction pointer of its parent, on one machine alone with it and on
another one beside a third processor which is loaded. -/
theorem disclosure_beside_stranger :
  let parent : VCpu := { domain := .root, vmcs := ({} : Vmcs).write Field.rip 0x1000 }
  let caller : VCpu := { parent := some 1, regs := {
    rax := 0x50000, r11 := Vpid.parent, r12 := RegisterId.rip.number } }
  let stranger : VCpu := { regs := { rax := 0x5ec }, vmcs := ({} : Vmcs).write Field.rip 0x2000 }
  let m₀ : Machine := {}
  let m₁ : Machine := { m₀ with residents := m₀.residents.insert 1 ⟨parent, {}⟩ }
  let m : Machine := { m₁ with residents := m₁.residents.insert 2 ⟨caller, {}⟩ }
  let m₃ : Machine := { m with residents := m.residents.insert 3 ⟨stranger, {}⟩ }
  let m' : Machine := m₃.switchTo 3
  ∃ n n', handleHypercall 2 m = .ok (some (.run 2)) n ∧
    handleHypercall 2 m' = .ok (some (.run 2)) n' ∧ n.vcpu? 2 = n'.vcpu? 2 ∧
    (n.vcpu? 2).map (·.regs.r10) = some 0x1000
  := by
  intro parent caller stranger m₀ m₁ m m₃ m'
  have hf₀ : m₀.Flawless := guarantees_of_residents rfl
  have hf₁ : m₁.Flawless := hf₀.insert 1 rfl
  have hf : m.Flawless := hf₁.insert 2 rfl
  have hf₃ : m₃.Flawless := hf.insert 3 rfl
  have hc : m.vcpu? 2 = some caller := by
    change { m₁ with residents := _ }.vcpu? 2 = _
    rw [vcpu?_insert, if_pos rfl]
  have hp : m.vcpu? 1 = some parent := by
    change { m₁ with residents := _ }.vcpu? 1 = _
    rw [vcpu?_insert, if_neg (by decide)]
    change { m₀ with residents := _ }.vcpu? 1 = _
    rw [vcpu?_insert, if_pos rfl]
  have h : m.Agrees := by
    intro u hu
    exact absurd hu (Option.some_ne_none u).symm
  have h' : m'.Agrees := (holds_switchTo (m := m₃) (by decide +kernel)).agrees
  have hs : AgreeOn {x | x = 2 ∨ caller.parent = some x} m m' := by
    intro x hx
    have hne : x ≠ 3 := by
      rintro rfl
      exact absurd hx (by decide)
    apply (Std.ExtTreeMap.getElem?_insert.trans (if_neg _)).symm
    simpa using hne.symm
  have hsuccess : (match handleHypercall 2 m with
      | .ok _ n => (n.vcpu? 2).map fun c => c.regs.rax
      | .error _ _ => none) = some Status.success.code := by decide +kernel
  obtain ⟨n, n', hn, hn', hsame, hvalue⟩ :=
    disclosure h h' hf (hf₃.switchTo 3) hc rfl (by decide +kernel) hs
  rw [hn] at hsuccess
  obtain ⟨p, d, i, hparent, hd, -, hi, hr⟩ := hvalue hsuccess
  obtain rfl := Option.some.inj hparent
  obtain rfl := Option.some.inj (hp.symm.trans hd)
  obtain rfl := Option.some.inj ((RegisterId.ofNumber?_number .rip).symm.trans hi)
  refine ⟨n, n', hn, hn', hsame, (hr (by decide)).trans ?_⟩
  exact congrArg some (Vmcs.read_write_self _ _ _)

end Machine

end ExitRelay
