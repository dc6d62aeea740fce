import ExitRelay.Proofs.Update

/-!
# Primitive programs

The programs that all others are made of, as equations: which result or error each of them
ends in, and with which changed machine.  A program on one processor is run part by part
(`onVCpu_bind`), so that its parts are primitive programs on the machine.

A listener gets an event by way of a queue that is one event too long for a moment if the
listener has one already.  `inject_eq` says that this makes no difference.
-/

namespace ExitRelay

namespace VCpu

/-- The processor after an attempt at an operation. -/
def attempted (k : Method) (c : VCpu) : VCpu :=
  { c with faults := c.faults.set k (c.faults.get k).next }

/-- The processor with a field of its control structure written. -/
def written (f : Field) (w : UInt64) (c : VCpu) : VCpu :=
  { c with vmcs := c.vmcs.write f w }

/-- The processor behind the instruction that exited. -/
def advanced (c : VCpu) : VCpu :=
  c.written Field.rip (c.vmcs.read Field.rip + VcpuM.instructionLength)

/-- The processor with a control switched on or off. -/
def switched (control : Control) (on : Bool) (c : VCpu) : VCpu :=
  let bits := c.vmcs.read control.field.encoding
  c.written control.field.encoding (if on then bits ||| control.mask else bits &&& ~~~control.mask)

/-- The processor with other registers. -/
def assigned (f : Registers → Registers) (c : VCpu) : VCpu :=
  { c with regs := f c.regs }

/-- The processor taken from the scheduler or given back to it. -/
def withPaused (paused : Bool) (c : VCpu) : VCpu :=
  { c with paused }

end VCpu

theorem ControlField.encoding_ne_rip (field : ControlField) :
  field.encoding ≠ Field.rip
  := by
  cases field <;> decide

namespace VCpu

variable {k : Control} {f : Field} {on : Bool} {c : VCpu}

theorem read_switched_self :
  (c.switched k on).vmcs.read k.field.encoding =
    if on then c.vmcs.read k.field.encoding ||| k.mask
    else c.vmcs.read k.field.encoding &&& ~~~k.mask
  := Vmcs.read_write_self _ _ _

theorem read_switched (h : f ≠ k.field.encoding) :
  (c.switched k on).vmcs.read f = c.vmcs.read f
  := Vmcs.read_write_of_ne _ _ h

theorem read_advanced_rip :
  c.advanced.vmcs.read Field.rip = c.vmcs.read Field.rip + VcpuM.instructionLength
  := Vmcs.read_write_self _ _ _

theorem read_advanced (h : f ≠ Field.rip) :
  c.advanced.vmcs.read f = c.vmcs.read f
  := Vmcs.read_write_of_ne _ _ h

/-- Switching a control and moving on have nothing to do with each other. -/
theorem advanced_switched (k : Control) (on : Bool) (c : VCpu) :
  (c.switched k on).advanced = c.advanced.switched k on
  := by
  have hrip := k.field.encoding_ne_rip
  rw [advanced, read_switched hrip.symm, switched, switched, read_advanced hrip]
  simp only [advanced, written]
  rw [Vmcs.write_comm _ _ _ hrip]

end VCpu

namespace Machine

variable {m : Machine} {v : Vpid} {c : VCpu} {b : Broker} {α β : Type}

/-! ### Reading and noting -/

theorem note_eq (n : Note) :
  note n m = .ok () (m.withJournal (m.journal.note n))
  := rfl

theorem contains_eq :
  contains v m = .ok (m.isRegistered v) m
  := rfl

theorem resident_eq {r : Resident} (h : m.residents[v]? = some r) :
  resident v m = .ok r m
  := by
  simp only [resident, h]

theorem resident_of_none (h : m.residents[v]? = none) :
  resident v m = refuse .unknownVpid m
  := by
  simp only [resident, h]

theorem vcpu_eq (hc : m.vcpu? v = some c) :
  vcpu v m = .ok c m
  := by
  obtain ⟨b, hr⟩ := vcpu?_eq_some_iff.mp hc
  rw [vcpu, bind_of_ok (resident_eq hr)]
  rfl

theorem registers_eq (hc : m.vcpu? v = some c) :
  registers v m = .ok c.regs m
  := by
  rw [registers, bind_of_ok (vcpu_eq hc)]
  rfl

theorem parentOf_eq (hc : m.vcpu? v = some c) :
  parentOf v m = .ok (c.parent.filter m.isRegistered) m
  := by
  rw [parentOf, bind_of_ok (vcpu_eq hc)]
  rfl

theorem broker_eq (hb : m.broker? v = some b) :
  broker v m = .ok b m
  := by
  obtain ⟨c, hr⟩ := broker?_eq_some_iff.mp hb
  rw [broker, bind_of_ok (resident_eq hr)]
  rfl

theorem onBroker_eq (hb : m.broker? v = some b) (f : Broker → α × Broker) :
  onBroker v f m = .ok (f b).1 (m.mapBroker v fun b => (f b).2)
  := by
  obtain ⟨c, hr⟩ := broker?_eq_some_iff.mp hb
  rw [onBroker, bind_of_ok (resident_eq hr)]
  change EStateM.Result.ok (f b).1 _ = _
  congr 1
  refine ext_residents ?_ rfl rfl rfl rfl rfl
  intro w
  rw [getElem?_residents_mapBroker, Std.ExtTreeMap.getElem?_insert]
  simp only [Std.compare_eq_iff_eq, @eq_comm _ v w]
  split
  · subst w
    rw [hr]
    rfl
  · rfl

theorem broker_of_none (hb : m.broker? v = none) :
  broker v m = .error .notFound (m.withJournal (m.journal.note (.refused .unknownVpid)))
  := by
  rw [broker?, Option.map_eq_none_iff] at hb
  exact bind_of_error (resident_of_none hb)

theorem onBroker_of_none (hb : m.broker? v = none) (f : Broker → α × Broker) :
  onBroker v f m = .error .notFound (m.withJournal (m.journal.note (.refused .unknownVpid)))
  := by
  rw [broker?, Option.map_eq_none_iff] at hb
  exact bind_of_error (resident_of_none hb)

theorem modifyBroker_eq (hb : m.broker? v = some b) (f : Broker → Broker) :
  modifyBroker v f m = .ok () (m.mapBroker v f)
  := onBroker_eq hb _

/-! ### Programs on one processor -/

theorem onVCpu_of_ok {α : Type} {body : VcpuM α} {a : α} {s : Focus} (hc : m.vcpu? v = some c)
    (h : body ⟨v, m.current = some v⟩ ⟨c, m.journal⟩ = .ok a s) :
  onVCpu v body m = .ok a ((m.mapVCpu v fun _ => s.vcpu).withJournal s.journal)
  := by
  obtain ⟨b, hr⟩ := vcpu?_eq_some_iff.mp hc
  rw [← adopt_eq hr]
  simp only [onVCpu, hr, h]

theorem onVCpu_of_error {α : Type} {body : VcpuM α} {e : SysError} {s : Focus}
    (hc : m.vcpu? v = some c)
    (h : body ⟨v, m.current = some v⟩ ⟨c, m.journal⟩ = .error e s) :
  onVCpu v body m = .error e ((m.mapVCpu v fun _ => s.vcpu).withJournal s.journal)
  := by
  obtain ⟨b, hr⟩ := vcpu?_eq_some_iff.mp hc
  rw [← adopt_eq hr]
  simp only [onVCpu, hr, h]

theorem onVCpu_of_none {α : Type} (hc : m.vcpu? v = none) (body : VcpuM α) :
  onVCpu v body m = .error .notFound (m.withJournal (m.journal.note (.refused .unknownVpid)))
  := by
  rw [vcpu?, Option.map_eq_none_iff] at hc
  simp only [onVCpu, hc]
  rfl

theorem adopt_adopt (m : Machine) (v : Vpid) (r : Resident) (s t : Focus) :
  (m.adopt v r s).adopt v { r with vcpu := s.vcpu } t = m.adopt v r t
  := by
  refine ext_residents ?_ rfl rfl rfl rfl rfl
  intro w
  simp only [getElem?_residents_adopt]
  split
  · rfl
  · rfl

theorem onVCpu_bind {α β : Type} (v : Vpid) (x : VcpuM α) (f : α → VcpuM β) :
  onVCpu v (x >>= f) = onVCpu v x >>= fun a => onVCpu v (f a)
  := by
  funext m
  cases hr : m.residents[v]? with
  | none =>
      have hm : ∀ {γ : Type} (body : VcpuM γ), onVCpu v body m = refuse .unknownVpid m := by
        intro γ body
        simp only [onVCpu, hr]
      rw [hm, bind_of_error (hm x)]
      rfl
  | some r =>
      have hb : (x >>= f) ⟨v, m.current = some v⟩ =
          x ⟨v, m.current = some v⟩ >>= fun a => f a ⟨v, m.current = some v⟩ := rfl
      cases hx : x ⟨v, m.current = some v⟩ ⟨r.vcpu, m.journal⟩ with
      | error e s =>
          have hm : onVCpu v x m = .error e (m.adopt v r s) := by
            simp only [onVCpu, hr, hx]
          rw [bind_of_error hm]
          simp only [onVCpu, hr, hb, bind_of_error hx]
      | ok a s =>
          have hm : onVCpu v x m = .ok a (m.adopt v r s) := by
            simp only [onVCpu, hr, hx]
          have hr' : (m.adopt v r s).residents[v]? = some { r with vcpu := s.vcpu } := by
            rw [getElem?_residents_adopt, if_pos rfl]
          rw [bind_of_ok hm]
          simp only [onVCpu, hr, hr', hb, bind_of_ok hx, adopt_adopt]
          rfl

/-- A program that leaves the processor and the journal as they are leaves the machine as it
is. -/
theorem onVCpu_eq_self {body : VcpuM α} {a : α} (hc : m.vcpu? v = some c)
    (h : body ⟨v, m.current = some v⟩ ⟨c, m.journal⟩ = .ok a ⟨c, m.journal⟩) :
  onVCpu v body m = .ok a m
  := by
  rw [onVCpu_of_ok hc h]
  rw [mapVCpu_eq_self hc rfl]
  rfl

theorem onVCpu_pure (hc : m.vcpu? v = some c) (a : α) :
  onVCpu v (pure a) m = .ok a m
  := onVCpu_eq_self hc rfl

theorem onVCpu_vcpu (hc : m.vcpu? v = some c) :
  onVCpu v VcpuM.vcpu m = .ok c m
  := onVCpu_eq_self hc rfl

theorem onVCpu_here (hc : m.vcpu? v = some c) :
  onVCpu v read m = .ok ⟨v, m.current = some v⟩ m
  := onVCpu_eq_self hc rfl

theorem onVCpu_modifyVCpu (hc : m.vcpu? v = some c) (f : VCpu → VCpu) :
  onVCpu v (VcpuM.modifyVCpu f) m = .ok () (m.mapVCpu v f)
  := by
  rw [onVCpu_of_ok (s := ⟨f c, m.journal⟩) hc rfl]
  change EStateM.Result.ok () (m.mapVCpu v fun _ => f c) = _
  congr 1
  apply mapVCpu_congr hc
  rfl

theorem onVCpu_journal (hc : m.vcpu? v = some c) (f : Journal → Journal) :
  onVCpu v (modify fun s => { s with journal := f s.journal }) m =
    .ok () (m.withJournal (f m.journal))
  := by
  rw [onVCpu_of_ok (s := ⟨c, f m.journal⟩) hc rfl]
  rw [mapVCpu_eq_self hc rfl]

theorem onVCpu_note (hc : m.vcpu? v = some c) (n : Note) :
  onVCpu v (VcpuM.note n) m = .ok () (m.withJournal (m.journal.note n))
  := onVCpu_journal hc (·.note n)

theorem onVCpu_act (hc : m.vcpu? v = some c) (a : Action) :
  onVCpu v (VcpuM.act a) m = .ok () (m.withJournal (m.journal.act a))
  := onVCpu_journal hc (·.act a)

theorem onVCpu_throw (hc : m.vcpu? v = some c) (e : SysError) :
  onVCpu v (throw e : VcpuM α) m = .error e m
  := by
  rw [onVCpu_of_error (s := ⟨c, m.journal⟩) hc rfl]
  rw [mapVCpu_eq_self hc rfl]
  rfl

/-- A program that needs its control structure to be current goes on if it is. -/
theorem onVCpu_requireCurrent (hc : m.vcpu? v = some c) (h : m.current = some v) :
  onVCpu v VcpuM.requireCurrent m = .ok () m
  := by
  apply onVCpu_eq_self hc
  simp only [h, decide_true]
  rfl

/-- A program whose control structure is not current is misdirected. -/
theorem onVCpu_requireCurrent_of_ne (hc : m.vcpu? v = some c) (h : m.current ≠ some v) :
  onVCpu v VcpuM.requireCurrent m = .error .badState (m.withJournal (m.journal.misdirect v))
  := by
  rw [onVCpu_of_error (e := .badState) (s := ⟨c, m.journal.misdirect v⟩) hc]
  · rw [mapVCpu_eq_self hc rfl]
  · simp only [h, decide_false]
    rfl

/-- An attempt that the plan lets succeed uses up the head of the plan. -/
theorem onVCpu_attempt {k : Method} (hc : m.vcpu? v = some c)
    (h : (c.faults.get k).outcome 0 = none) :
  onVCpu v (VcpuM.attempt k) m = .ok () (m.mapVCpu v (VCpu.attempted k))
  := by
  rw [VcpuM.attempt, onVCpu_bind, bind_of_ok (onVCpu_vcpu hc)]
  rw [onVCpu_bind, bind_of_ok (onVCpu_modifyVCpu hc _)]
  rw [h, onVCpu_pure (c := c.attempted k)]
  · congr 1
    apply mapVCpu_congr hc
    rfl
  · apply vcpu?_mapVCpu_of_some hc

/-- An attempt that the plan lets fail uses up the head of the plan, too. -/
theorem onVCpu_attempt_of_some {k : Method} {e : SysError} (hc : m.vcpu? v = some c)
    (h : (c.faults.get k).outcome 0 = some e) :
  onVCpu v (VcpuM.attempt k) m = .error e (m.mapVCpu v (VCpu.attempted k))
  := by
  rw [VcpuM.attempt, onVCpu_bind, bind_of_ok (onVCpu_vcpu hc)]
  rw [onVCpu_bind, bind_of_ok (onVCpu_modifyVCpu hc _)]
  rw [h, onVCpu_throw (c := c.attempted k)]
  · congr 1
    apply mapVCpu_congr hc
    rfl
  · apply vcpu?_mapVCpu_of_some hc

/-! ### Queueing an event -/

/-- An event that is queued and taken back has never been there. -/
theorem mapBroker_popLatest (hb : m.broker? v = some b) (e : ExitEvent) (j : Journal) :
  ((m.mapBroker v fun b => { b with pending := b.pending.push e }).withJournal j).mapBroker v
      (fun b => { b with pending := b.pending.popLatest.2 }) = m.withJournal j
  := by
  have h : (m.mapBroker v fun b => { b with pending := b.pending.push e }).mapBroker v
      (fun b => { b with pending := b.pending.popLatest.2 }) = m := by
    rw [mapBroker_mapBroker]
    apply mapBroker_eq_self hb
    simp only [Function.comp_apply, Pending.popLatest_push]
  exact congrArg (·.withJournal j) h

/-- An event may as well be queued only where nothing is pending, as it is taken back
elsewhere. -/
theorem inject_eq (v : Vpid) (e : ExitEvent) :
  inject v e = (do
    let b ← broker v
    if b.pending.isEmpty then
      modifyBroker v fun b => { b with pending := b.pending.push e, deadline := none }
      load v
      announce v b.isKernelListener
      pure (.run v)
    else
      note (.overflow (b.pending.length + 1) v)
      fallBack e)
  := by
  funext m
  cases hb : m.broker? v with
  | none => rw [inject, bind_of_error (onBroker_of_none hb _), bind_of_error (broker_of_none hb)]
  | some b =>
      have hpushed := broker?_mapBroker_of_some hb fun b => { b with pending := b.pending.push e }
      rw [inject, bind_of_ok (onBroker_eq hb _), bind_of_ok (broker_eq hb)]
      simp only [Pending.length_push, Nat.lt_add_left_iff_pos, Pending.length_pos_iff]
      cases b.pending.isEmpty with
      | true =>
          simp only [Bool.true_eq_false, if_false, if_true]
          rw [bind_of_ok (modifyBroker_eq hpushed _), bind_of_ok (modifyBroker_eq hb _),
            mapBroker_mapBroker]
          rw [bind_of_ok (broker_eq (broker?_mapBroker_of_some hb _))]
          rfl
      | false =>
          simp only [Bool.false_eq_true, if_false, if_true]
          rw [bind_of_ok (note_eq _), bind_of_ok (note_eq _)]
          rw [bind_of_ok (modifyBroker_eq ((broker?_withJournal _).trans hpushed) _),
            mapBroker_popLatest hb]
          rfl

end Machine

end ExitRelay
