import ExitRelay.Proofs.Execution.Subscription
import Mathlib

/-!
# Requests that do not meet

A call that switches controls of a target looks at its caller and the target only, and
changes nothing else.  Two calls that have no processor in common can therefore be made in
either order: each has the same outcome, and the processors and their brokers end up in the
same state.
-/

namespace ExitRelay.Machine

variable {m n : Machine} {S T : Set Vpid} {u v w x : Vpid} {c : VCpu} {control : Control}

/-! ### Requests on machines that agree -/

namespace AgreeOn

section

variable (h : AgreeOn S m n)

include h

theorem listeners (hx : x ∈ S) (reason : ExitReason) :
  m.listeners x reason = n.listeners x reason
  := by
  rw [Machine.listeners, h.broker? hx, Machine.listeners]

theorem fieldOf (hx : x ∈ S) (f : Field) :
  m.fieldOf x f = n.fieldOf x f
  := by
  rw [Machine.fieldOf, h.vcpu? hx, Machine.fieldOf]

theorem detains (hv : v ∈ S) (w : Vpid) (control : Control) :
  m.detains v w control = n.detains v w control
  := by
  rw [Machine.detains, slot_of_residents (h v hv), Machine.detains]

theorem permits (hw : w ∈ S) (v : Vpid) (control : Control) (on : Bool) :
  m.Permits v w control on ↔ n.Permits v w control on
  := permits_congr (fun a _ => h.listeners hw a) v on

theorem settled (hv : v ∈ S) (w : Vpid) (control : Control) :
  AgreeOn S (m.settled v w control) (n.settled v w control)
  := by
  rw [Machine.settled, Machine.settled, h.detains hv]
  split
  · apply (h.mapBroker v _).mapVCpu
  · exact h

theorem toggled (hv : v ∈ S) (w : Vpid) (control : Control) (on : Bool) :
  AgreeOn S (m.toggled v w control on) (n.toggled v w control on)
  := by
  rw [Machine.toggled, Machine.toggled]
  split
  · apply (h.mapVCpu w _).mapBroker
  · apply ((h.mapVCpu w _).settled hv w control).mapBroker

end

/-- Where the caller and the target are the same, the listener sets refuse the same control. -/
theorem switchedControls (hv : v ∈ S) (hw : w ∈ S) (mask value : UInt64)
    (controls : List Control) :
  ∀ {m n : Machine}, AgreeOn S m n →
    (switchedControls v w mask value controls m).1 =
        (switchedControls v w mask value controls n).1 ∧
      AgreeOn S (switchedControls v w mask value controls m).2
        (switchedControls v w mask value controls n).2
  := by
  induction controls with
  | nil =>
      intro m n h
      exact ⟨rfl, h⟩
  | cons control controls ih =>
      intro m n h
      rw [Machine.switchedControls, Machine.switchedControls]
      cases control.demand? mask value with
      | none => exact ih h
      | some on =>
          simp only [h.permits hw]
          split
          · exact ih (h.toggled hv w control on)
          · exact ⟨rfl, h.toggled hv w control on⟩

/-- A request has the same outcome where its caller and its target are the same. -/
theorem controlsWritten (h : AgreeOn S m n) (hv : v ∈ S) (hw : w ∈ S) (regs : Registers) :
  (m.controlsWritten v w regs).1 = (n.controlsWritten v w regs).1 ∧
    AgreeOn S (m.controlsWritten v w regs).2 (n.controlsWritten v w regs).2
  := by
  rw [Machine.controlsWritten, Machine.controlsWritten]
  split
  · exact ⟨rfl, h⟩
  · rename_i field _
    rw [controlsSet, controlsSet]
    split
    · obtain ⟨hr, hn⟩ := switchedControls hv hw regs.r14 regs.r13 field.controls h
      refine ⟨?_, hn⟩
      simp only
      rw [hr, h.fieldOf hw]
    · exact ⟨rfl, h⟩

theorem rewritten (h : AgreeOn S m n) (hv : v ∈ S) (hw : w ∈ S) (c : VCpu) :
  AgreeOn S (m.rewritten v w c) (n.rewritten v w c)
  := by
  have hlevel : AgreeOn S (m.leveled v c.privilegeLevel) (n.leveled v c.privilegeLevel) :=
    h.mapBroker v _
  obtain ⟨hr, hn⟩ := hlevel.controlsWritten hv hw c.regs
  rw [Machine.rewritten, Machine.rewritten]
  simp only
  rw [hr]
  exact hn.mapVCpu v _

end AgreeOn

/-! ### Changes of some processors -/

/-- The change concerns some processors only: it changes no other, and what becomes of them
depends on no other. -/
structure Local (S : Set Vpid) (F : Machine → Machine) : Prop where
  outside : ∀ m x, x ∉ S → (F m).residents[x]? = m.residents[x]?
  inside : ∀ m n, AgreeOn S m n → AgreeOn S (F m) (F n)

/-- What another change does not concern stays as it is. -/
theorem Local.agreeOn {F : Machine → Machine} (hF : Local S F) (hd : Disjoint S T)
    (m : Machine) :
  AgreeOn T (F m) m
  := fun x hx => hF.outside m x (hd.notMem_of_mem_right hx)

/-- Changes that concern no processor together commute. -/
theorem Local.comm {F G : Machine → Machine} (hF : Local S F) (hG : Local T G)
    (hd : Disjoint S T) (m : Machine) :
  (G (F m)).residents = (F (G m)).residents
  := by
  apply Std.ExtTreeMap.ext_getElem?
  intro x
  by_cases hx : x ∈ S
  · rw [hG.outside _ x (hd.notMem_of_mem_left hx)]
    exact (hF.inside _ _ (hG.agreeOn hd.symm m) x hx).symm
  · rw [hF.outside _ x hx]
    by_cases hx' : x ∈ T
    · exact hG.inside _ _ (hF.agreeOn hd m) x hx'
    · rw [hG.outside _ x hx', hF.outside _ x hx, hG.outside _ x hx']

theorem residents_toggled_of_ne (hv : x ≠ v) (hw : x ≠ w) (on : Bool) :
  (m.toggled v w control on).residents[x]? = m.residents[x]?
  := by
  rw [toggled]
  split
  · rw [getElem?_residents_mapBroker, if_neg hw, getElem?_residents_mapVCpu, if_neg hw]
  · rw [getElem?_residents_mapBroker, if_neg hw, settled]
    split
    · rw [getElem?_residents_mapVCpu, if_neg hw, getElem?_residents_mapBroker, if_neg hv,
        getElem?_residents_mapVCpu, if_neg hw]
    · rw [getElem?_residents_mapVCpu, if_neg hw]

theorem residents_rewritten_of_ne (hv : x ≠ v) (hw : x ≠ w) (c : VCpu) :
  (m.rewritten v w c).residents[x]? = m.residents[x]?
  := by
  rw [rewritten]
  simp only
  rw [getElem?_residents_mapVCpu, if_neg hv]
  apply keeps_controlsWritten (I := fun l => l.residents[x]? = m.residents[x]?)
  · intro l control on hl
    rw [residents_toggled_of_ne hv hw, hl]
  · rw [leveled, getElem?_residents_mapBroker, if_neg hv]

/-! ### The call -/

/-- The machine after the hypercall of a processor in the state `c` that switches controls of
a target. -/
def aftermath (caller target : Vpid) (c : VCpu) (m : Machine) : Machine :=
  (m.begun caller).rewritten caller target c.advanced

/-- The call concerns its caller and its target only. -/
theorem local_aftermath (v w : Vpid) (c : VCpu) :
  Local {v, w} (aftermath v w c)
  := by
  constructor
  · intro m x hx
    rw [Set.mem_insert_iff, Set.mem_singleton_iff, not_or] at hx
    rw [aftermath, residents_rewritten_of_ne hx.1 hx.2, begun, getElem?_residents_mapVCpu,
      if_neg hx.1]
    rfl
  · intro m n h
    exact ((h.switchTo v).mapVCpu v VCpu.advanced).rewritten (Set.mem_insert v {w})
      (Set.mem_insert_of_mem v (Set.mem_singleton w)) c.advanced

theorem isRegistered_aftermath :
  (aftermath v w c m).isRegistered x = m.isRegistered x
  := by
  rw [aftermath, rewritten]
  simp only
  rw [isRegistered_mapVCpu]
  apply keeps_controlsWritten (I := fun l => l.isRegistered x = m.isRegistered x)
  · intro l control on hl
    rw [isRegistered_toggled, hl]
  · rw [leveled, isRegistered_mapBroker, isRegistered_begun]

theorem clock_aftermath :
  (aftermath v w c m).clock = m.clock
  := by
  rw [aftermath, rewritten]
  apply keeps_controlsWritten (I := fun l => l.clock = m.clock)
  · intro l control on hl
    exact (congrArg (·.2.2.2) (frame_toggled on)).trans hl
  · rfl

/-- The caller is loaded, and no hardware is broken. -/
theorem holds_aftermath (hf : m.Flawless) (hc : m.vcpu? v = some c) (w : Vpid) :
  (aftermath v w c m).Holds v ∧ (aftermath v w c m).Flawless
  := by
  have hn := holds_controlsWritten ((holds_begun hc).leveled c.advanced.privilegeLevel)
    ((hf.begun v).leveled v c.advanced.privilegeLevel) v w c.advanced.regs
  refine ⟨hn.1.mapVCpu v _, hn.2.mapVCpu ?_ v⟩
  intro c
  cases Except.map _ _ <;> rfl

/-- The processor is about to make a hypercall that switches controls of the target. -/
structure Requests (m : Machine) (caller target : Vpid) (c : VCpu) : Prop where
  resident : m.vcpu? caller = some c
  call : m.call? caller = some .vmwrite
  resolved : m.target? caller c.regs.r11 = some target

section

variable {v₁ w₁ v₂ w₂ : Vpid} {c₁ c₂ : VCpu} (h : m.Agrees) (hf : m.Flawless)
  (h₁ : m.Requests v₁ w₁ c₁) (h₂ : m.Requests v₂ w₂ c₂)
  (hd : Disjoint ({v₁, w₁} : Set Vpid) {v₂, w₂})

include h₂ hd

/-- The call of another processor leaves a call that does not meet it as it is. -/
theorem requests_aftermath (c₁ : VCpu) :
  (aftermath v₁ w₁ c₁ m).Requests v₂ w₂ c₂
  := by
  have hv₂ : (aftermath v₁ w₁ c₁ m).vcpu? v₂ = m.vcpu? v₂ :=
    ((local_aftermath v₁ w₁ c₁).agreeOn hd m).vcpu? (Set.mem_insert v₂ {w₂})
  constructor
  · rw [hv₂, h₂.resident]
  · rw [call?, hv₂]
    exact h₂.call
  · rw [← h₂.resolved]
    apply target?_congr
    · intro x
      exact isRegistered_aftermath
    · rw [hv₂]

include h hf h₁

/-- Two calls that do not meet both run their callers again. -/
theorem handleHypercall_both :
  ∃ j j', handleHypercall v₁ m =
      .ok (some (.run v₁)) ((aftermath v₁ w₁ c₁ m).withJournal j) ∧
    handleHypercall v₂ ((aftermath v₁ w₁ c₁ m).withJournal j) =
      .ok (some (.run v₂)) ((aftermath v₂ w₂ c₂ (aftermath v₁ w₁ c₁ m)).withJournal j')
  := by
  obtain ⟨hl, hf'⟩ := holds_aftermath hf h₁.resident w₁
  have hx₁ := yields_handleHypercall_vmwrite h hf h₁.resident h₁.call h₁.resolved
  have hr := requests_aftermath h₂ hd c₁
  have hx₂ := yields_handleHypercall_vmwrite hl.agrees hf' hr.resident hr.call hr.resolved
  obtain ⟨j, hj⟩ := hx₁.eq_ok
  obtain ⟨j', hj'⟩ := hx₂ j
  exact ⟨j, j', hj, hj'⟩

end

/-- Two hypercalls that switch controls and have neither a caller nor a target in common can
be made in either order.  Each leaves its caller in the same state, whether it succeeds or
fails, and after both every processor and its broker are in the same state. -/
theorem independence {v₁ w₁ v₂ w₂ : Vpid} {c₁ c₂ : VCpu} (h : m.Agrees) (hf : m.Flawless)
    (h₁ : m.Requests v₁ w₁ c₁) (h₂ : m.Requests v₂ w₂ c₂)
    (hd : Disjoint ({v₁, w₁} : Set Vpid) {v₂, w₂}) :
  ∃ l₁ n₁ l₂ n₂,
    handleHypercall v₁ m = .ok (some (.run v₁)) l₁ ∧
    handleHypercall v₂ l₁ = .ok (some (.run v₂)) n₁ ∧
    handleHypercall v₂ m = .ok (some (.run v₂)) l₂ ∧
    handleHypercall v₁ l₂ = .ok (some (.run v₁)) n₂ ∧
    l₁.vcpu? v₁ = n₂.vcpu? v₁ ∧ l₂.vcpu? v₂ = n₁.vcpu? v₂ ∧
    (∀ x, n₁.vcpu? x = n₂.vcpu? x ∧ n₁.broker? x = n₂.broker? x) ∧ n₁.clock = n₂.clock
  := by
  obtain ⟨j₁, k₁, hl₁, hn₁⟩ := handleHypercall_both h hf h₁ h₂ hd
  obtain ⟨j₂, k₂, hl₂, hn₂⟩ := handleHypercall_both h hf h₂ h₁ hd.symm
  have hF₁ := local_aftermath v₁ w₁ c₁
  have hF₂ := local_aftermath v₂ w₂ c₂
  have hcomm := hF₁.comm hF₂ hd m
  have hown₁ : AgreeOn {v₁, w₁} (aftermath v₁ w₁ c₁ m)
      (aftermath v₁ w₁ c₁ (aftermath v₂ w₂ c₂ m)) :=
    hF₁.inside _ _ fun x hx => (hF₂.agreeOn hd.symm m x hx).symm
  have hown₂ : AgreeOn {v₂, w₂} (aftermath v₂ w₂ c₂ m)
      (aftermath v₂ w₂ c₂ (aftermath v₁ w₁ c₁ m)) :=
    hF₂.inside _ _ fun x hx => (hF₁.agreeOn hd m x hx).symm
  refine ⟨_, _, _, _, hl₁, hn₁, hl₂, hn₂, ?_, ?_, ?_, ?_⟩
  · exact hown₁.vcpu? (Set.mem_insert v₁ {w₁})
  · exact hown₂.vcpu? (Set.mem_insert v₂ {w₂})
  · intro x
    simp only [vcpu?_withJournal, broker?_withJournal]
    rw [vcpu?, broker?, hcomm]
    exact ⟨rfl, rfl⟩
  · simp only [withJournal]
    rw [clock_aftermath, clock_aftermath, clock_aftermath, clock_aftermath]

/-- One guest gives up a control whose event it has yet to answer; another one asks for two
controls and is refused the second. -/
theorem independence_of_refused :
  let given : Registry := { cr3Load := { members := [3] } }
  let taken : Registry := { monitorTrap := { members := [4] } }
  let waiting : Broker := { pending := { events := [⟨1, .cr3Load, 0, 0⟩] } }
  let leaving : VCpu := { parent := some 1, regs := {
    rax := 0x60003, r11 := 1, r12 := 0x4002, r13 := 0, r14 := 0x8000 } }
  let refused : VCpu := { parent := some 2, regs := {
    rax := 0x60003, r11 := Vpid.parent, r12 := 0x4002, r13 := 0x8008000, r14 := 0x8008000 } }
  let m₀ : Machine := {}
  let m₁ : Machine :=
    { m₀ with residents := m₀.residents.insert 1 ⟨{ paused := true }, { registry := given }⟩ }
  let m₂ : Machine := { m₁ with residents := m₁.residents.insert 2 ⟨{}, { registry := taken }⟩ }
  let m₃ : Machine := { m₂ with residents := m₂.residents.insert 3 ⟨leaving, waiting⟩ }
  let m : Machine := { m₃ with residents := m₃.residents.insert 4 ⟨refused, {}⟩ }
  ∃ l₁ n₁ l₂ n₂,
    handleHypercall 3 m = .ok (some (.run 3)) l₁ ∧
    handleHypercall 4 l₁ = .ok (some (.run 4)) n₁ ∧
    handleHypercall 4 m = .ok (some (.run 4)) l₂ ∧
    handleHypercall 3 l₂ = .ok (some (.run 3)) n₂ ∧
    l₁.Reports 3 .success ∧ l₂.Reports 4 .invalidExitAlreadyListening ∧ l₁.slot 3 = [] ∧
    l₁.vcpu? 3 = n₂.vcpu? 3 ∧ l₂.vcpu? 4 = n₁.vcpu? 4 ∧
    (∀ x, n₁.vcpu? x = n₂.vcpu? x ∧ n₁.broker? x = n₂.broker? x) ∧ n₁.clock = n₂.clock
  := by
  intro given taken waiting leaving refused m₀ m₁ m₂ m₃ m
  have hf₀ : m₀.Flawless := guarantees_of_residents rfl
  have hf₁ : m₁.Flawless := hf₀.insert 1 rfl
  have hf₂ : m₂.Flawless := hf₁.insert 2 rfl
  have hf₃ : m₃.Flawless := hf₂.insert 3 rfl
  have hf : m.Flawless := hf₃.insert 4 rfl
  have hm : m.Agrees := by
    intro v hv
    exact absurd hv (Option.some_ne_none v).symm
  have h₁ : m.Requests 3 1 leaving := by
    constructor
    · change { m₃ with residents := _ }.vcpu? 3 = _
      rw [vcpu?_insert, if_neg (by decide)]
      change { m₂ with residents := _ }.vcpu? 3 = _
      rw [vcpu?_insert, if_pos rfl]
    · decide +kernel
    · decide +kernel
  have h₂ : m.Requests 4 2 refused := by
    constructor
    · change { m₃ with residents := _ }.vcpu? 4 = _
      rw [vcpu?_insert, if_pos rfl]
    · decide +kernel
    · decide +kernel
  have hd : Disjoint ({3, 1} : Set Vpid) {4, 2} := by
    rw [Set.disjoint_left]
    rintro x (rfl | rfl) <;> simp
  have hs : (match handleHypercall 3 m with
      | .ok _ n => ((n.vcpu? 3).map fun c => c.regs.rax, n.slot 3)
      | .error _ n => (none, n.slot 3)) = (some Status.success.code, []) := by decide +kernel
  have hr : (match handleHypercall 4 m with
      | .ok _ n => (n.vcpu? 4).map fun c => c.regs.rax
      | .error _ _ => none) = some Status.invalidExitAlreadyListening.code := by decide +kernel
  obtain ⟨l₁, n₁, l₂, n₂, hl₁, hn₁, hl₂, hn₂, hsame⟩ := independence hm hf h₁ h₂ hd
  rw [hl₁] at hs
  rw [hl₂] at hr
  exact ⟨l₁, n₁, l₂, n₂, hl₁, hn₁, hl₂, hn₂, congrArg Prod.fst hs, hr, congrArg Prod.snd hs, hsame⟩

end ExitRelay.Machine
