import ExitRelay.Handler
import ExitRelay.Proofs.Effect

/-!
# Executions of programs on one processor

`Yields x m a n` says that the program `x` takes the machine `m` to the result `a` and the
machine `n`, whatever the journals of the two hold.  `Performs x m a n as` says in addition which
actions the program carries out: exactly those in `as`, latest first, and none is misdirected.
Programs on processors whose hardware does not fail have such executions.
-/

namespace ExitRelay

/-- Loading, accesses to fields and advancing never fail. -/
structure Faults.Dependable (f : Faults) : Prop where
  load : f.load = {}
  vmread : f.vmread = {}
  vmwrite : f.vmwrite = {}
  advance : f.advance = {}

/-- Loading and advancing never fail. -/
structure Faults.Mobile (f : Faults) : Prop where
  load : f.load = {}
  advance : f.advance = {}

theorem Faults.Dependable.mobile {f : Faults} (h : f.Dependable) :
  f.Mobile
  := ⟨h.load, h.advance⟩

theorem Faults.Mobile.next {f : Faults} (h : f.Mobile) (k : Method) :
  (f.set k (f.get k).next).Mobile
  := by
  obtain ⟨hl, ha⟩ := h
  cases k with
  | load => exact ⟨congrArg FaultPlan.next hl, ha⟩
  | advance => exact ⟨hl, congrArg FaultPlan.next ha⟩
  | _ => exact ⟨hl, ha⟩

theorem Faults.dependable_default :
  ({} : Faults).Dependable
  := ⟨rfl, rfl, rfl, rfl⟩

/-- An attempt at an operation leaves the plans of the dependable ones as they are. -/
theorem Faults.Dependable.next {f : Faults} (h : f.Dependable) (k : Method) :
  (f.set k (f.get k).next).Dependable
  := by
  obtain ⟨hl, hr, hw, ha⟩ := h
  cases k with
  | load => exact ⟨congrArg FaultPlan.next hl, hr, hw, ha⟩
  | vmread => exact ⟨hl, congrArg FaultPlan.next hr, hw, ha⟩
  | vmwrite => exact ⟨hl, hr, congrArg FaultPlan.next hw, ha⟩
  | advance => exact ⟨hl, hr, hw, congrArg FaultPlan.next ha⟩
  | _ => exact ⟨hl, hr, hw, ha⟩

namespace Control

/-- The actions of the fallback of a control. -/
def moves (control : Control) (v : Vpid) : List Action :=
  match control.fallback with
  | .advance => [.advance v]
  | .resume => []

end Control

namespace VCpu

/-- The processor after the fallback of a control. -/
def fellBack (control : Control) (c : VCpu) : VCpu :=
  match control.fallback with
  | .advance => c.advanced
  | .resume => c

/-- The processor after an exit for the reason has been given up. -/
def givenUp (reason : ExitReason) (c : VCpu) : VCpu :=
  match Control.ofReason? reason with
  | none => c
  | some control => (c.fellBack control).switched control false

/-- The actions by which an exit for the reason is given up. -/
def surrender (v : Vpid) (reason : ExitReason) (c : VCpu) : List Action :=
  match Control.ofReason? reason with
  | none => []
  | some control =>
    let field := control.field.encoding
    .vmwrite v field (c.vmcs.read field &&& ~~~control.mask) :: control.moves v

/-- The processor after a listener has let it go. -/
def released (advance : Bool) (c : VCpu) : VCpu :=
  (if advance then c.advanced else c).withPaused false

/-- The processor after its call has been completed with results. -/
def completed (results : Registers → Registers) (c : VCpu) : VCpu :=
  c.assigned fun regs => { results regs with rax := Status.success.code }

/-- The privilege level of the processor. -/
def privilegeLevel (c : VCpu) : UInt8 :=
  (c.vmcs.read Field.cs).toUInt16.toUInt8 &&& 3

/-- The fallback of a control writes no field but the instruction pointer. -/
theorem read_fellBack {control : Control} {f : Field} {c : VCpu} (h : f ≠ Field.rip) :
  (c.fellBack control).vmcs.read f = c.vmcs.read f
  := by
  rw [fellBack]
  split
  · exact read_advanced h
  · rfl

theorem read_fellBack_rip {control : Control} {c : VCpu} :
  (c.fellBack control).vmcs.read Field.rip =
    if control.fallback = .advance then c.vmcs.read Field.rip + VcpuM.instructionLength
    else c.vmcs.read Field.rip
  := by
  rw [fellBack]
  split
  · rename_i hf
    rw [read_advanced_rip, if_pos hf]
  · rename_i hf
    rw [hf, if_neg Fallback.noConfusion]

/-- An attempt at an operation that never fails changes nothing. -/
theorem attempted_eq_self {c : VCpu} {k : Method} (h : c.faults.get k = {}) :
  c.attempted k = c
  := by
  have hf : c.faults.set k (c.faults.get k).next = c.faults := by
    rw [h, FaultPlan.next_default, ← h, Faults.set_get]
  rw [attempted, hf]

@[simp]
theorem faults_advanced (c : VCpu) :
  c.advanced.faults = c.faults
  := rfl

@[simp]
theorem faults_switched (control : Control) (on : Bool) (c : VCpu) :
  (c.switched control on).faults = c.faults
  := rfl

@[simp]
theorem faults_assigned (f : Registers → Registers) (c : VCpu) :
  (c.assigned f).faults = c.faults
  := rfl

@[simp]
theorem faults_withPaused (b : Bool) (c : VCpu) :
  (c.withPaused b).faults = c.faults
  := rfl

@[simp]
theorem faults_fellBack (control : Control) (c : VCpu) :
  (c.fellBack control).faults = c.faults
  := by
  cases control <;> rfl

@[simp]
theorem faults_givenUp (reason : ExitReason) (c : VCpu) :
  (c.givenUp reason).faults = c.faults
  := by
  rw [givenUp]
  split
  · rfl
  · rw [faults_switched, faults_fellBack]

@[simp]
theorem faults_released (advance : Bool) (c : VCpu) :
  (c.released advance).faults = c.faults
  := by
  cases advance <;> rfl

end VCpu

namespace Machine

/-- The fault plans of every processor have the property. -/
def Guarantees (m : Machine) (P : Faults → Prop) : Prop :=
  ∀ v c, m.vcpu? v = some c → P c.faults

/-- Loading, accesses to fields and advancing never fail on any processor. -/
def Dependable (m : Machine) : Prop :=
  m.Guarantees Faults.Dependable

/-- No operation of any processor ever fails. -/
def Flawless (m : Machine) : Prop :=
  m.Guarantees (· = {})

/-- The program has the result and leaves the machine, up to the journal. -/
def Yields {ε α : Type} (x : EStateM ε Machine α) (m : Machine) (a : α) (n : Machine) : Prop :=
  ∀ j, ∃ j', x (m.withJournal j) = .ok a (n.withJournal j')

/-- The program has the result, leaves the machine and carries out the actions, whatever the
journal has recorded before. -/
def Performs {ε α : Type} (x : EStateM ε Machine α) (m : Machine) (a : α) (n : Machine)
    (as : List Action) : Prop :=
  ∀ j, ∃ j', x (m.withJournal j) = .ok a (n.withJournal j') ∧
    j'.actions = as ++ j.actions ∧ j'.misdirected = j.misdirected

variable {m n l : Machine} {v w : Vpid} {c : VCpu} {ε ε' α β : Type} {as bs : List Action}

/-- Effects keep what attempts keep. -/
theorem Guarantees.apply {P : Faults → Prop} (h : m.Guarantees P)
    (hP : ∀ f k, P f → P (f.set k (f.get k).next)) (k : Effect) :
  (k.apply m).Guarantees P
  := by
  intro v c hc
  obtain ⟨c', hc', hf | ⟨k, hf⟩⟩ := faults_apply hc
  · rw [hf]
    apply h v c' hc'
  · rw [hf]
    apply hP
    apply h v c' hc'

/-- Dependable operations stay dependable under every effect. -/
theorem Dependable.apply (h : m.Dependable) (k : Effect) :
  (k.apply m).Dependable
  := Guarantees.apply h (fun _ k hf => hf.next k) k

/-- Processors that never fail do not come to fail by any effect. -/
theorem Flawless.apply (h : m.Flawless) (k : Effect) :
  (k.apply m).Flawless
  := by
  apply Guarantees.apply h
  rintro f k rfl
  have hs := Faults.set_get {} k
  rw [Faults.get_default] at hs
  rw [Faults.get_default, FaultPlan.next_default, hs]

theorem Flawless.path {p : Set Effect} (h : m.Flawless) (hp : Path p m n) :
  n.Flawless
  := hp.keeps (fun k _ _ _ hl => hl.apply k) h

theorem Flawless.dependable (h : m.Flawless) :
  m.Dependable
  := by
  intro v c hc
  rw [h v c hc]
  exact Faults.dependable_default

namespace Yields

variable {x : EStateM ε Machine α} {a : α} {b : β}

theorem pure (a : α) :
  Yields (Pure.pure a : EStateM ε Machine α) m a m
  := fun j => ⟨j, rfl⟩

theorem bind {f : α → EStateM ε Machine β} (hx : Yields x m a n) (hf : Yields (f a) n b l) :
  Yields (x >>= f) m b l
  := by
  intro j
  obtain ⟨j', hx⟩ := hx j
  obtain ⟨j'', hf⟩ := hf j'
  use j''
  rw [bind_of_ok hx, hf]

/-- A program that ends with a fixed result. -/
theorem bind_pure (hx : Yields x m a n) (b : β) :
  Yields (x >>= fun _ => Pure.pure b) m b n
  := hx.bind (pure b)

theorem of_eq (hx : Yields x m a n) (h : n = l) :
  Yields x m a l
  := by
  rw [← h]
  exact hx

theorem adaptExcept {f : ε → ε'} (hx : Yields x m a n) :
  Yields (x.adaptExcept f) m a n
  := by
  intro j
  obtain ⟨j', hx⟩ := hx j
  use j'
  rw [EStateM.adaptExcept, hx]

theorem map {f : α → β} (hx : Yields x m a n) :
  Yields (f <$> x) m (f a) n
  := by
  intro j
  obtain ⟨j', hx⟩ := hx j
  use j'
  change EStateM.map f x (m.withJournal j) = _
  rw [EStateM.map, hx]

theorem tryCatch {f : ε → EStateM ε Machine α} (hx : Yields x m a n) :
  Yields (MonadExcept.tryCatch x f) m a n
  := by
  intro j
  obtain ⟨j', hx⟩ := hx j
  use j'
  rw [tryCatch_of_ok hx]

/-- A program that looks at the machine does what it does for the machine that it finds. -/
theorem get_bind {f : Machine → EStateM ε Machine β}
    (hf : ∀ j, Yields (f (m.withJournal j)) m b n) :
  Yields (get >>= f) m b n
  := by
  intro j
  obtain ⟨j', hf⟩ := hf j j
  use j'
  exact hf

theorem outcome {x : SysM α} (hx : Yields x m a n) :
  Yields (Machine.outcome x) m (.ok a) n
  := by
  intro j
  obtain ⟨j', hx⟩ := hx j
  use j'
  rw [Machine.outcome, hx]

/-- A program that has an execution ends in its result. -/
theorem ends {Q : α → Machine → Prop} {E : ε → Machine → Prop} (hx : Yields x m a n)
    (h : ∀ j, Q a (n.withJournal j)) :
  Ends x m Q E
  := by
  obtain ⟨j, hj⟩ := hx m.journal
  apply Ends.ok hj (h j)

/-- A program whose first part has an execution ends as its second part does. -/
theorem ends_bind {f : α → EStateM ε Machine β} {Q : β → Machine → Prop}
    {E : ε → Machine → Prop} (hx : Yields x m a n)
    (hf : ∀ j, Ends (f a) (n.withJournal j) Q E) :
  Ends (x >>= f) m Q E
  := by
  obtain ⟨j, hj⟩ := hx m.journal
  apply Ends.bind_ok hj (hf j)

/-- The execution from the machine itself. -/
theorem eq_ok (hx : Yields x m a n) :
  ∃ j, x m = .ok a (n.withJournal j)
  := hx m.journal

/-- The machine that the execution leaves. -/
theorem after_eq (hx : Yields x m a n) :
  ∃ j, after x m = n.withJournal j
  := by
  obtain ⟨j, hj⟩ := hx.eq_ok
  use j
  rw [after, hj]

end Yields

namespace Performs

variable {x : EStateM ε Machine α} {a : α} {b : β}

/-- A program that leaves the journal as it is performs nothing. -/
theorem of_eq_ok (hx : ∀ j, x (m.withJournal j) = .ok a (n.withJournal j)) :
  Performs x m a n []
  := fun j => ⟨j, hx j, rfl, rfl⟩

theorem pure (a : α) :
  Performs (Pure.pure a : EStateM ε Machine α) m a m []
  := of_eq_ok fun _ => rfl

/-- Two programs in a row perform the actions of the first one and then those of the
second. -/
theorem bind {f : α → EStateM ε Machine β} (hx : Performs x m a n as)
    (hf : Performs (f a) n b l bs) :
  Performs (x >>= f) m b l (bs ++ as)
  := by
  intro j
  obtain ⟨j', hx, ha, hm⟩ := hx j
  obtain ⟨j'', hf, hb, hn⟩ := hf j'
  use j''
  rw [bind_of_ok hx, hf, hb, ha, hn, hm, List.append_assoc]
  exact ⟨rfl, rfl, rfl⟩

/-- A program that starts with a part that performs nothing. -/
theorem bind_quiet {f : α → EStateM ε Machine β} (hx : Performs x m a n [])
    (hf : Performs (f a) n b l bs) :
  Performs (x >>= f) m b l bs
  := by
  have h := hx.bind hf
  rw [List.append_nil] at h
  exact h

/-- A program that ends with a fixed result. -/
theorem bind_pure (hx : Performs x m a n as) (b : β) :
  Performs (x >>= fun _ => Pure.pure b) m b n as
  := by
  have h := hx.bind (f := fun _ => Pure.pure b) (pure b)
  rw [List.nil_append] at h
  exact h

/-- A program that looks at the machine does what it does for the machine that it finds. -/
theorem get_bind {f : Machine → EStateM ε Machine β}
    (hf : ∀ j, Performs (f (m.withJournal j)) m b n as) :
  Performs (get >>= f) m b n as
  := by
  intro j
  obtain ⟨j', hj⟩ := hf j j
  exact ⟨j', hj⟩

theorem of_eq (hx : Performs x m a n as) (h : n = l) (ha : as = bs) :
  Performs x m a l bs
  := by
  rw [← h, ← ha]
  exact hx

theorem yields (hx : Performs x m a n as) :
  Yields x m a n
  := by
  intro j
  obtain ⟨j', hj, -⟩ := hx j
  exact ⟨j', hj⟩

/-- The execution from the machine itself. -/
theorem eq_ok (hx : Performs x m a n as) :
  ∃ j, x m = .ok a (n.withJournal j) ∧ j.actions = as ++ m.journal.actions ∧
    j.misdirected = m.journal.misdirected
  := hx m.journal

end Performs

/-! ### Primitive programs -/

theorem performs_note (k : Note) :
  Performs (note k) m () m []
  := fun j => ⟨j.note k, rfl, rfl, rfl⟩

theorem yields_note (k : Note) :
  Yields (note k) m () m
  := (performs_note k).yields

theorem yields_contains (v : Vpid) :
  Yields (contains v) m (m.isRegistered v) m
  := fun j => ⟨j, rfl⟩

theorem yields_vcpu (hc : m.vcpu? v = some c) :
  Yields (vcpu v) m c m
  := fun j => ⟨j, vcpu_eq hc⟩

theorem yields_registers (hc : m.vcpu? v = some c) :
  Yields (registers v) m c.regs m
  := fun j => ⟨j, registers_eq hc⟩

theorem performs_broker {b : Broker} (hb : m.broker? v = some b) :
  Performs (broker v) m b m []
  := Performs.of_eq_ok fun _ => broker_eq hb

theorem yields_broker {b : Broker} (hb : m.broker? v = some b) :
  Yields (broker v) m b m
  := (performs_broker hb).yields

theorem yields_onBroker {b : Broker} (hb : m.broker? v = some b) (f : Broker → α × Broker) :
  Yields (onBroker v f) m (f b).1 (m.mapBroker v fun b => (f b).2)
  := fun j => ⟨j, onBroker_eq (m := m.withJournal j) hb f⟩

theorem performs_modifyBroker {b : Broker} (hb : m.broker? v = some b) (f : Broker → Broker) :
  Performs (modifyBroker v f) m () (m.mapBroker v f) []
  := Performs.of_eq_ok fun j => onBroker_eq (m := m.withJournal j) hb fun b => ((), f b)

theorem yields_modifyBroker {b : Broker} (hb : m.broker? v = some b) (f : Broker → Broker) :
  Yields (modifyBroker v f) m () (m.mapBroker v f)
  := (performs_modifyBroker hb f).yields

theorem performs_onVCpu_pure (hc : m.vcpu? v = some c) (a : α) :
  Performs (onVCpu v (pure a)) m a m []
  := Performs.of_eq_ok fun j => onVCpu_pure (m := m.withJournal j) hc a

theorem yields_onVCpu_pure (hc : m.vcpu? v = some c) (a : α) :
  Yields (onVCpu v (pure a)) m a m
  := (performs_onVCpu_pure hc a).yields

theorem performs_onVCpu_bind {x : VcpuM α} {f : α → VcpuM β} {a : α} {b : β}
    (hx : Performs (onVCpu v x) m a n as) (hf : Performs (onVCpu v (f a)) n b l bs) :
  Performs (onVCpu v (x >>= f)) m b l (bs ++ as)
  := by
  rw [onVCpu_bind]
  apply hx.bind hf

theorem performs_onVCpu_bind_quiet {x : VcpuM α} {f : α → VcpuM β} {a : α} {b : β}
    (hx : Performs (onVCpu v x) m a n []) (hf : Performs (onVCpu v (f a)) n b l bs) :
  Performs (onVCpu v (x >>= f)) m b l bs
  := by
  rw [onVCpu_bind]
  apply hx.bind_quiet hf

theorem yields_onVCpu_bind {x : VcpuM α} {f : α → VcpuM β} {a : α} {b : β}
    (hx : Yields (onVCpu v x) m a n) (hf : Yields (onVCpu v (f a)) n b l) :
  Yields (onVCpu v (x >>= f)) m b l
  := by
  rw [onVCpu_bind]
  apply hx.bind hf

theorem performs_onVCpu_vcpu (hc : m.vcpu? v = some c) :
  Performs (onVCpu v VcpuM.vcpu) m c m []
  := Performs.of_eq_ok fun _ => onVCpu_vcpu hc

theorem performs_onVCpu_here (hc : m.vcpu? v = some c) :
  Performs (onVCpu v read) m ⟨v, m.current = some v⟩ m []
  := Performs.of_eq_ok fun j => onVCpu_here (m := m.withJournal j) hc

theorem performs_onVCpu_note (hc : m.vcpu? v = some c) (k : Note) :
  Performs (onVCpu v (VcpuM.note k)) m () m []
  := fun j => ⟨j.note k, onVCpu_note (m := m.withJournal j) hc k, rfl, rfl⟩

theorem yields_onVCpu_note (hc : m.vcpu? v = some c) (k : Note) :
  Yields (onVCpu v (VcpuM.note k)) m () m
  := (performs_onVCpu_note hc k).yields

theorem performs_onVCpu_act (hc : m.vcpu? v = some c) (k : Action) :
  Performs (onVCpu v (VcpuM.act k)) m () m [k]
  := fun j => ⟨j.act k, onVCpu_act (m := m.withJournal j) hc k, rfl, rfl⟩

theorem performs_onVCpu_modify (hc : m.vcpu? v = some c) (f : VCpu → VCpu) :
  Performs (onVCpu v (VcpuM.modifyVCpu f)) m () (m.mapVCpu v f) []
  := Performs.of_eq_ok fun j => onVCpu_modifyVCpu (m := m.withJournal j) hc f

theorem yields_onVCpu_modify (hc : m.vcpu? v = some c) (f : VCpu → VCpu) :
  Yields (onVCpu v (VcpuM.modifyVCpu f)) m () (m.mapVCpu v f)
  := (performs_onVCpu_modify hc f).yields

theorem performs_requireCurrent (hc : m.vcpu? v = some c) (h : m.current = some v) :
  Performs (onVCpu v VcpuM.requireCurrent) m () m []
  := Performs.of_eq_ok fun _ => onVCpu_requireCurrent hc h

theorem performs_attempt {k : Method} (hc : m.vcpu? v = some c) (h : c.faults.get k = {}) :
  Performs (onVCpu v (VcpuM.attempt k)) m () m []
  := by
  apply Performs.of_eq_ok
  intro j
  rw [onVCpu_attempt (m := m.withJournal j) hc (by rw [h])]
  rw [mapVCpu_eq_self (m := m.withJournal j) hc (VCpu.attempted_eq_self h)]

theorem yields_attempt {k : Method} (hc : m.vcpu? v = some c) (h : c.faults.get k = {}) :
  Yields (onVCpu v (VcpuM.attempt k)) m () m
  := (performs_attempt hc h).yields

/-! ### Operations of the hardware -/

theorem performs_vmread (hc : m.vcpu? v = some c) (h : m.current = some v)
    (hf : c.faults.get .vmread = {}) (f : Field) :
  Performs (onVCpu v (VcpuM.vmread f)) m (c.vmcs.read f) m []
  := by
  apply performs_onVCpu_bind_quiet (performs_requireCurrent hc h)
  apply performs_onVCpu_bind_quiet (performs_attempt hc hf)
  apply performs_onVCpu_bind_quiet (performs_onVCpu_vcpu hc)
  apply performs_onVCpu_pure hc

theorem yields_vmread (hc : m.vcpu? v = some c) (h : m.current = some v)
    (hf : c.faults.get .vmread = {}) (f : Field) :
  Yields (onVCpu v (VcpuM.vmread f)) m (c.vmcs.read f) m
  := (performs_vmread hc h hf f).yields

theorem yields_privilegeLevel (hc : m.vcpu? v = some c) (h : m.current = some v)
    (hf : c.faults.get .vmread = {}) :
  Yields (onVCpu v VcpuM.privilegeLevel) m c.privilegeLevel m
  := by
  apply yields_onVCpu_bind
  · apply yields_onVCpu_bind (yields_vmread hc h hf Field.cs)
    apply yields_onVCpu_pure hc
  · apply yields_onVCpu_pure hc

/-- A change of a processor performs the action that records it. -/
theorem performs_modify_act (hc : m.vcpu? v = some c) (f : VCpu → VCpu)
    (k : Vpid → Action) :
  Performs (onVCpu v (VcpuM.modifyVCpu f >>= fun _ => read >>= fun here =>
    VcpuM.act (k here.vpid))) m () (m.mapVCpu v f) [k v]
  := by
  have hc' := vcpu?_mapVCpu_of_some hc f
  apply performs_onVCpu_bind_quiet (performs_onVCpu_modify hc f)
  apply performs_onVCpu_bind_quiet (performs_onVCpu_here hc')
  apply performs_onVCpu_act hc'

theorem performs_vmwrite (hc : m.vcpu? v = some c) (h : m.current = some v)
    (hf : c.faults.get .vmwrite = {}) (f : Field) (w : UInt64) :
  Performs (onVCpu v (VcpuM.vmwrite f w)) m () (m.mapVCpu v (VCpu.written f w))
    [.vmwrite v f w]
  := by
  apply performs_onVCpu_bind_quiet (performs_requireCurrent hc h)
  apply performs_onVCpu_bind_quiet (performs_attempt hc hf)
  apply performs_modify_act hc (VCpu.written f w) fun v => .vmwrite v f w

theorem yields_vmwrite (hc : m.vcpu? v = some c) (h : m.current = some v)
    (hf : c.faults.get .vmwrite = {}) (f : Field) (w : UInt64) :
  Yields (onVCpu v (VcpuM.vmwrite f w)) m () (m.mapVCpu v (VCpu.written f w))
  := (performs_vmwrite hc h hf f w).yields

theorem performs_advance (hc : m.vcpu? v = some c) (h : m.current = some v)
    (hf : c.faults.get .advance = {}) :
  Performs (onVCpu v VcpuM.advance) m () (m.mapVCpu v VCpu.advanced) [.advance v]
  := by
  apply performs_onVCpu_bind_quiet (performs_requireCurrent hc h)
  apply performs_onVCpu_bind_quiet (performs_attempt hc hf)
  apply performs_modify_act hc VCpu.advanced fun v => .advance v

theorem yields_advance (hc : m.vcpu? v = some c) (h : m.current = some v)
    (hf : c.faults.get .advance = {}) :
  Yields (onVCpu v VcpuM.advance) m () (m.mapVCpu v VCpu.advanced)
  := (performs_advance hc h hf).yields

theorem performs_queueInterrupt (hc : m.vcpu? v = some c) (h : m.current = some v)
    (hf : c.faults.get .interrupt = {}) (vector : UInt8) :
  Performs (onVCpu v (VcpuM.queueInterrupt vector)) m () m [.interrupt v vector]
  := by
  apply performs_onVCpu_bind_quiet (performs_requireCurrent hc h)
  apply performs_onVCpu_bind_quiet (performs_attempt hc hf)
  apply performs_onVCpu_bind_quiet (performs_onVCpu_here hc)
  apply performs_onVCpu_act hc

theorem yields_translate (hc : m.vcpu? v = some c) (hf : c.faults.get .translate = {})
    (gva : UInt64) :
  Yields (onVCpu v (VcpuM.translate gva)) m (gva + VcpuM.translationOffset) m
  := by
  apply yields_onVCpu_bind (yields_attempt hc hf)
  apply yields_onVCpu_pure hc

theorem yields_pause (hc : m.vcpu? v = some c) :
  Yields (onVCpu v VcpuM.pause) m () (m.mapVCpu v (VCpu.withPaused true))
  := (performs_modify_act hc (VCpu.withPaused true) fun v => .pause v).yields

theorem performs_resume (hc : m.vcpu? v = some c) :
  Performs (onVCpu v VcpuM.resume) m () (m.mapVCpu v (VCpu.withPaused false)) [.resume v]
  := performs_modify_act hc (VCpu.withPaused false) fun v => .resume v

theorem yields_resume (hc : m.vcpu? v = some c) :
  Yields (onVCpu v VcpuM.resume) m () (m.mapVCpu v (VCpu.withPaused false))
  := (performs_resume hc).yields

theorem yields_modifyRegisters (hc : m.vcpu? v = some c) (f : Registers → Registers) :
  Yields (modifyRegisters v f) m () (m.mapVCpu v (VCpu.assigned f))
  := yields_onVCpu_modify hc (VCpu.assigned f)

theorem yields_enable (hc : m.vcpu? v = some c) (h : m.current = some v)
    (hd : c.faults.Dependable) (control : Control) :
  Yields (onVCpu v control.enable) m () (m.mapVCpu v (VCpu.switched control true))
  := by
  apply yields_onVCpu_bind (yields_vmread hc h hd.vmread _)
  apply (yields_vmwrite hc h hd.vmwrite _ _).of_eq
  apply mapVCpu_congr hc
  rfl

theorem performs_disable (hc : m.vcpu? v = some c) (h : m.current = some v)
    (hd : c.faults.Dependable) (control : Control) :
  Performs (onVCpu v control.disable) m () (m.mapVCpu v (VCpu.switched control false))
    [.vmwrite v control.field.encoding
      (c.vmcs.read control.field.encoding &&& ~~~control.mask)]
  := by
  apply performs_onVCpu_bind_quiet (performs_vmread hc h hd.vmread _)
  apply (performs_vmwrite hc h hd.vmwrite _ _).of_eq _ rfl
  apply mapVCpu_congr hc
  rfl

theorem yields_disable (hc : m.vcpu? v = some c) (h : m.current = some v)
    (hd : c.faults.Dependable) (control : Control) :
  Yields (onVCpu v control.disable) m () (m.mapVCpu v (VCpu.switched control false))
  := (performs_disable hc h hd control).yields

theorem performs_runFallback (hc : m.vcpu? v = some c) (h : m.current = some v)
    (hd : c.faults.Mobile) (control : Control) :
  Performs (onVCpu v control.runFallback) m () (m.mapVCpu v (VCpu.fellBack control))
    (control.moves v)
  := by
  rw [Control.runFallback, Control.moves]
  cases hf : control.fallback with
  | advance =>
      rw [mapVCpu_congr (g := VCpu.advanced) hc (by rw [VCpu.fellBack, hf])]
      apply performs_advance hc h hd.advance
  | resume =>
      rw [mapVCpu_eq_self hc (by rw [VCpu.fellBack, hf])]
      apply performs_onVCpu_pure hc

theorem yields_runFallback (hc : m.vcpu? v = some c) (h : m.current = some v)
    (hd : c.faults.Mobile) (control : Control) :
  Yields (onVCpu v control.runFallback) m () (m.mapVCpu v (VCpu.fellBack control))
  := (performs_runFallback hc h hd control).yields

/-- A processor that falls back may go on after that. -/
theorem yields_runFallback_resume (hc : m.vcpu? v = some c) (h : m.current = some v)
    (hd : c.faults.Mobile) (control : Control) :
  Yields (onVCpu v do
    control.runFallback
    VcpuM.resume) m () (m.mapVCpu v (VCpu.withPaused false ∘ VCpu.fellBack control))
  := by
  apply yields_onVCpu_bind (yields_runFallback hc h hd control)
  apply (yields_resume (vcpu?_mapVCpu_of_some hc _)).of_eq
  rw [mapVCpu_mapVCpu]

theorem performs_giveUp {e : ExitEvent} (hc : m.vcpu? e.origin = some c)
    (h : m.current = some e.origin) (hd : c.faults.Dependable) :
  Performs (onVCpu e.origin (giveUp e)) m () (m.mapVCpu e.origin (VCpu.givenUp e.reason))
    (c.surrender e.origin e.reason)
  := by
  rw [giveUp, VCpu.surrender]
  cases hr : Control.ofReason? e.reason with
  | none =>
      rw [mapVCpu_eq_self hc (by rw [VCpu.givenUp, hr])]
      apply performs_onVCpu_pure hc
  | some control =>
      have hc' := vcpu?_mapVCpu_of_some hc (VCpu.fellBack control)
      have hd' : (c.fellBack control).faults.Dependable := by
        rw [VCpu.faults_fellBack]
        exact hd
      have hx := performs_disable hc' h hd' control
      -- The field of the control is read after the fallback, which does not write it.
      rw [VCpu.read_fellBack control.field.encoding_ne_rip] at hx
      apply performs_onVCpu_bind_quiet (performs_onVCpu_note hc _)
      apply (performs_onVCpu_bind (performs_runFallback hc h hd.mobile control) hx).of_eq
      · rw [mapVCpu_mapVCpu]
        apply mapVCpu_congr hc
        rw [VCpu.givenUp, hr]
        rfl
      · rfl

theorem yields_step (hc : m.vcpu? v = some c) (h : m.current = some v)
    (hd : c.faults.Mobile) (advance : Bool) :
  Yields (onVCpu v (step v advance)) m ()
    (m.mapVCpu v fun c => if advance then c.advanced else c)
  := by
  rw [step]
  cases advance with
  | true => exact yields_advance hc h hd.advance
  | false =>
      rw [mapVCpu_eq_self hc rfl]
      apply yields_onVCpu_note hc _

end Machine

end ExitRelay
