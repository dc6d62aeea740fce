import ExitRelay.Proofs.Execution.Call
import ExitRelay.Proofs.Registration

/-!
# Executions of changes of controls

What switching the controls of a target does when the hardware does not fail, as a function
on machines.  A control is switched, an event that it caused is settled if it is switched off,
and then the listener sets are asked; the first refusal ends the request, and what has been
done so far stays done.  Whichever processor was loaded before is loaded again after each
step.
-/

namespace ExitRelay

/-- What a request asks of a control: nothing, or to be switched on or off. -/
def Control.demand? (mask value : UInt64) (control : Control) : Option Bool :=
  if Word.bit mask control.position then some (Word.bit value control.position) else none

/-- The status of a request that the listener sets refuse. -/
def Status.refusal (on : Bool) : Status :=
  if on then .invalidExitAlreadyListening else .invalidExitNoListener

namespace Machine

variable {m n : Machine} {u v w : Vpid} {c : VCpu} {control : Control} {α : Type}

/-! ### The machine after a request -/

/-- The first event that is pending for the caller is one of the target that the control has
caused. -/
def detains (m : Machine) (caller target : Vpid) (control : Control) : Bool :=
  (m.slot caller).head?.any fun e => e.origin = target ∧ control.covers e.reason

/-- The machine in which such an event has been taken from the caller, and the target goes
on. -/
def settled (m : Machine) (caller target : Vpid) (control : Control) : Machine :=
  if m.detains caller target control then
    (m.mapBroker caller Broker.Effect.pop.apply).mapVCpu target
      (VCpu.withPaused false ∘ VCpu.fellBack control)
  else m

/-- The machine after a control of the target has been switched for the caller. -/
def toggled (m : Machine) (caller target : Vpid) (control : Control) (on : Bool) : Machine :=
  if on then
    (m.mapVCpu target (VCpu.switched control true)).mapBroker target
      (Broker.Effect.subscribe control caller).apply
  else
    ((m.mapVCpu target (VCpu.switched control false)).settled caller target control).mapBroker
      target (Broker.Effect.unsubscribe control caller).apply

/-- The listener sets of the target accept the caller or let it go. -/
def Permits (m : Machine) (caller target : Vpid) (control : Control) (on : Bool) : Prop :=
  if on then ∀ a ∈ control.exit.subscription, caller ∉ (m.listeners target a).members
  else caller ∈ (m.listeners target control.exit).members

instance (m : Machine) (caller target : Vpid) (control : Control) (on : Bool) :
    Decidable (m.Permits caller target control on) :=
  inferInstanceAs (Decidable (if on then _ else _))

/-- The outcome of switching controls in turn, and the machine that it leaves. -/
def switchedControls (caller target : Vpid) (mask value : UInt64) :
    List Control → Machine → Except Status Unit × Machine
  | [], m => (.ok (), m)
  | control :: controls, m =>
    match control.demand? mask value with
    | none => switchedControls caller target mask value controls m
    | some on =>
      if m.Permits caller target control on then
        switchedControls caller target mask value controls (m.toggled caller target control on)
      else (.error (Status.refusal on), m.toggled caller target control on)

/-- What a field of a processor holds. -/
def fieldOf (m : Machine) (v : Vpid) (f : Field) : UInt64 :=
  ((m.vcpu? v).map (·.vmcs.read f)).getD 0

theorem fieldOf_of_vcpu? (hc : m.vcpu? w = some c) (f : Field) :
  m.fieldOf w f = c.vmcs.read f
  := by
  rw [fieldOf, hc]
  rfl

@[simp]
theorem fieldOf_withJournal (j : Journal) (f : Field) :
  (m.withJournal j).fieldOf v f = m.fieldOf v f
  := rfl

/-- The outcome of a request that stands in the registers of its caller, and the machine that
it leaves. -/
def controlsSet (m : Machine) (caller target : Vpid) (regs : Registers) (field : ControlField) :
    Except Status UInt64 × Machine :=
  if regs.r14 &&& ~~~field.allowance = 0 then
    let (r, n) := switchedControls caller target regs.r14 regs.r13 field.controls m
    (r.map fun _ => m.fieldOf target field.encoding, n)
  else (.error .invalidParams4, m)

/-! ### What a request leaves alone -/

@[simp]
theorem isRegistered_settled :
  (m.settled v w control).isRegistered u = m.isRegistered u
  := by
  rw [settled]
  split
  · rw [isRegistered_mapVCpu, isRegistered_mapBroker]
  · rfl

@[simp]
theorem isRegistered_toggled (on : Bool) :
  (m.toggled v w control on).isRegistered u = m.isRegistered u
  := by
  rw [toggled]
  split
  · rw [isRegistered_mapBroker, isRegistered_mapVCpu]
  · rw [isRegistered_mapBroker, isRegistered_settled, isRegistered_mapVCpu]

theorem Holds.settled (h : m.Holds u) (v w : Vpid) (control : Control) :
  (m.settled v w control).Holds u
  := by
  rw [Machine.settled]
  split
  · apply (h.mapBroker v _).mapVCpu
  · exact h

theorem Holds.toggled (h : m.Holds u) (v w : Vpid) (control : Control) (on : Bool) :
  (m.toggled v w control on).Holds u
  := by
  rw [Machine.toggled]
  split
  · apply (h.mapVCpu w _).mapBroker
  · apply ((h.mapVCpu w _).settled v w control).mapBroker

theorem Guarantees.settled {P : Faults → Prop} (h : m.Guarantees P) (v w : Vpid)
    (control : Control) :
  (m.settled v w control).Guarantees P
  := by
  rw [Machine.settled]
  split
  · apply (h.mapBroker v _).mapVCpu
    apply VCpu.faults_fellBack
  · exact h

theorem Guarantees.toggled {P : Faults → Prop} (h : m.Guarantees P) (v w : Vpid)
    (control : Control) (on : Bool) :
  (m.toggled v w control on).Guarantees P
  := by
  have hs : ∀ on, (m.mapVCpu w (VCpu.switched control on)).Guarantees P := fun on =>
    h.mapVCpu (VCpu.faults_switched control on) w
  rw [Machine.toggled]
  split
  · apply (hs true).mapBroker
  · apply ((hs false).settled v w control).mapBroker

@[simp]
theorem listeners_settled (reason : ExitReason) :
  (m.settled v w control).listeners u reason = m.listeners u reason
  := by
  rw [settled]
  split
  · rw [listeners_mapVCpu, listeners_mapBroker_of_registry]
    intro b
    rfl
  · rfl

/-- Switching a control changes processors and brokers only. -/
theorem frame_toggled (on : Bool) :
  ((m.toggled v w control on).config, (m.toggled v w control on).loaded,
    (m.toggled v w control on).current, (m.toggled v w control on).clock) =
      (m.config, m.loaded, m.current, m.clock)
  := by
  rw [toggled]
  split
  · rfl
  · rw [settled]
    split
    · rfl
    · rfl

/-! ### What the listener sets decide -/

/-- The listener sets of what the control covers decide alone. -/
theorem permits_congr (h : ∀ a, control.covers a = true → n.listeners w a = m.listeners w a)
    (v : Vpid) (on : Bool) :
  n.Permits v w control on ↔ m.Permits v w control on
  := by
  rw [Permits, Permits, h _ (Control.covers_iff.mpr (ExitReason.mem_subscription_self _))]
  cases on with
  | false => exact Iff.rfl
  | true =>
      rw [if_pos rfl, if_pos rfl]
      apply forall₂_congr
      intro a ha
      rw [h a (Control.covers_iff.mpr ha)]

theorem permits_on_iff {b : Broker} (hb : m.broker? w = some b) :
  m.Permits v w control true ↔ (b.registry.subscribe control.exit v).1 = none
  := by
  rw [Registry.fst_subscribe_eq_none_iff, Permits, if_pos rfl, Registry.Open]
  simp only [listeners_of_broker? hb]

theorem permits_off_iff {b : Broker} (hb : m.broker? w = some b) :
  m.Permits v w control false ↔ (b.registry.unsubscribe control.exit v).1 = none
  := by
  rw [Registry.fst_unsubscribe_eq_none_iff, Permits, if_neg Bool.false_ne_true,
    listeners_of_broker? hb]

/-! ### Programs -/

section

variable (h : m.Holds u) (hf : m.Flawless) (hw : m.isRegistered w = true)

include h hf hw

/-- Work on another processor that cannot fail there cannot fail at all. -/
theorem yields_elsewhere {x : VcpuM α} {a : α} {f : VCpu → VCpu}
    (hx : Yields (onVCpu w x) (m.switchTo w) a ((m.switchTo w).mapVCpu w f))
    (hf' : ∀ c, (f c).faults = c.faults) :
  Yields (withVmcs w x) m a (m.mapVCpu w f)
  := yields_withVmcs h.loaded h.current hf.dependable h.registered hw hx hf'

/-- Reading a field of another processor changes nothing. -/
theorem yields_vmread_elsewhere (f : Field) :
  Yields (withVmcs w (VcpuM.vmread f)) m (m.fieldOf w f) m
  := by
  obtain ⟨c, hc⟩ := isRegistered_iff_vcpu?.mp hw
  have hid : ∀ {l : Machine}, l.vcpu? w = some c → l.mapVCpu w id = l := fun hl =>
    mapVCpu_eq_self hl rfl
  have hc' : (m.switchTo w).vcpu? w = some c := hc
  have hx := yields_vmread hc' rfl (hf.dependable w c hc).vmread f
  have hy := yields_elsewhere h hf hw (f := id) (hx.of_eq (hid hc').symm) fun _ => rfl
  rw [fieldOf_of_vcpu? hc]
  exact hy.of_eq (hid hc)

/-- The origin of an event that is settled goes on. -/
theorem yields_settle (control : Control) :
  Yields (withVmcs w do
    control.runFallback
    VcpuM.resume) m () (m.mapVCpu w (VCpu.withPaused false ∘ VCpu.fellBack control))
  := by
  obtain ⟨c, hc⟩ := isRegistered_iff_vcpu?.mp hw
  have hc' : (m.switchTo w).vcpu? w = some c := hc
  refine yields_elsewhere h hf hw ?_ (fun c => VCpu.faults_fellBack control c)
  apply yields_runFallback_resume hc' rfl (hf.dependable w c hc).mobile

theorem yields_settlePending (hv : m.isRegistered v = true) (control : Control) :
  Yields (settlePending v w control) m () (m.settled v w control)
  := by
  obtain ⟨b, hb⟩ := isRegistered_iff_broker?.mp hv
  have hslot : (m.slot v).head? = b.pending.front? := by
    rw [slot_of_broker? hb]
    rfl
  rw [settlePending]
  apply (yields_broker hb).bind
  rw [settled, detains, hslot]
  cases b.pending.front? with
  | none => exact Yields.pure ()
  | some e =>
      rw [Option.any_some]
      by_cases he : e.origin = w ∧ control.covers e.reason = true
      · rw [decide_eq_true he, if_pos rfl]
        simp only
        rw [if_pos he]
        obtain ⟨rfl, -⟩ := he
        apply (yields_modifyBroker hb _).bind
        apply (yields_note _).bind
        apply yields_settle (h.mapBroker v _) (hf.mapBroker v _)
        rw [isRegistered_mapBroker, hw]
      · rw [decide_eq_false he, if_neg Bool.false_ne_true]
        simp only
        rw [if_neg he]
        exact Yields.pure ()

end

/-- A request to a listener set fails if the set refuses it, and what it leaves of the broker
stays. -/
theorem concludes_request {b : Broker} (hb : m.broker? w = some b)
    (f : Broker → Option ExitReason × Broker) (k : ExitReason → Note) (s : Status) :
  Concludes (do
    match ← onBroker w f with
    | none => pure ()
    | some reason => do note (k reason); throw s : CallM Unit) m
    (if (f b).1 = none then .ok () else .error s) (m.mapBroker w fun b => (f b).2)
  := by
  apply (yields_onBroker hb f).adaptExcept.bind_concludes
  cases (f b).1 with
  | none => exact Yields.pure ()
  | some reason =>
      rw [if_neg (Option.some_ne_none reason)]
      exact (yields_note _).adaptExcept.bind_concludes (Concludes.throw s)

/-- The answer of the listener sets to a request. -/
def verdict (m : Machine) (caller target : Vpid) (control : Control) (on : Bool) :
    Except Status Unit :=
  if m.Permits caller target control on then .ok () else .error (Status.refusal on)

section

variable (h : m.Holds u) (hf : m.Flawless) (hw : m.isRegistered w = true)

include h hf hw

theorem concludes_subscribe (v : Vpid) (control : Control) :
  Concludes (subscribe v w control) m (m.verdict v w control true)
    (m.toggled v w control true)
  := by
  obtain ⟨c, hc⟩ := isRegistered_iff_vcpu?.mp hw
  obtain ⟨b, hb⟩ := isRegistered_iff_broker?.mp hw
  have henable := yields_elsewhere h hf hw
    (yields_enable (m := m.switchTo w) hc rfl (hf.dependable w c hc) control)
    (VCpu.faults_switched control true)
  have hb' : (m.mapVCpu w (VCpu.switched control true)).broker? w = some b := by
    rw [broker?_mapVCpu, hb]
  rw [subscribe, verdict]
  simp only [permits_on_iff hb]
  apply henable.adaptExcept.bind_concludes
  apply (yields_note _).adaptExcept.bind_concludes
  apply concludes_request hb'

theorem concludes_unsubscribe (hv : m.isRegistered v = true) (control : Control) :
  Concludes (unsubscribe v w control) m (m.verdict v w control false)
    (m.toggled v w control false)
  := by
  obtain ⟨c, hc⟩ := isRegistered_iff_vcpu?.mp hw
  have hdisable := yields_elsewhere h hf hw
    (yields_disable (m := m.switchTo w) hc rfl (hf.dependable w c hc) control)
    (VCpu.faults_switched control false)
  have hsettle := yields_settlePending (v := v) (h.mapVCpu w (VCpu.switched control false))
    (hf.mapVCpu (VCpu.faults_switched control false) w) (by rw [isRegistered_mapVCpu, hw])
    (by rw [isRegistered_mapVCpu, hv]) control
  have hl : ∀ a, control.covers a = true →
      ((m.mapVCpu w (VCpu.switched control false)).settled v w control).listeners w a =
        m.listeners w a := by
    intro a _
    rw [listeners_settled, listeners_mapVCpu]
  obtain ⟨b, hb⟩ : ∃ b,
      ((m.mapVCpu w (VCpu.switched control false)).settled v w control).broker? w = some b := by
    apply isRegistered_iff_broker?.mp
    rw [isRegistered_settled, isRegistered_mapVCpu, hw]
  rw [unsubscribe, verdict]
  simp only [← permits_congr hl, permits_off_iff hb]
  apply hdisable.adaptExcept.bind_concludes
  apply (yields_note _).adaptExcept.bind_concludes
  apply hsettle.adaptExcept.bind_concludes
  apply concludes_request hb

end

/-- Controls are switched in turn until the listener sets refuse. -/
theorem concludes_switchControls (mask value : UInt64) (controls : List Control) :
  ∀ {m : Machine}, m.Holds u → m.Flawless → m.isRegistered v = true → m.isRegistered w = true →
    Concludes (switchControls v w mask value controls) m
      (switchedControls v w mask value controls m).1
      (switchedControls v w mask value controls m).2
  := by
  induction controls with
  | nil =>
      intro m _ _ _ _
      exact Yields.pure ()
  | cons control controls ih =>
      intro m h hf hv hw
      cases hd : control.demand? mask value with
      | none =>
          have hone : Yields (switchControl v w mask value control) m () m := by
            rw [switchControl, if_neg]
            · exact Yields.pure ()
            · intro hb
              rw [Control.demand?, if_pos hb] at hd
              exact absurd hd (Option.some_ne_none _)
          rw [switchedControls, hd]
          exact hone.bind_concludes (ih h hf hv hw)
      | some on =>
          have hone : Concludes (switchControl v w mask value control) m
              (m.verdict v w control on) (m.toggled v w control on) := by
            rw [Control.demand?, Option.ite_none_right_eq_some] at hd
            rw [switchControl, if_pos hd.1]
            obtain rfl := Option.some.inj hd.2
            cases hon : Word.bit value control.position with
            | true => exact concludes_subscribe h hf hw v control
            | false => exact concludes_unsubscribe h hf hw hv control
          have hrest := ih (h.toggled v w control on) (hf.toggled v w control on)
            (by rw [isRegistered_toggled, hv]) (by rw [isRegistered_toggled, hw])
          rw [switchedControls, hd]
          simp only
          rw [verdict] at hone
          split at hone
          · rename_i hp
            rw [if_pos hp]
            exact hone.yields.bind_concludes hrest
          · rename_i hp
            rw [if_neg hp]
            exact hone.bind_error

theorem yields_noteDenied (field : ControlField) (is : List Nat) :
  Yields (noteDenied field is) m () m
  := by
  induction is with
  | nil => exact Yields.pure ()
  | cons i is ih => exact (yields_note _).bind ih

/-- A request that selects a bit that may not be changed fails and changes nothing. -/
theorem concludes_setControls_of_denied (hc : m.vcpu? v = some c) (w : Vpid)
    {field : ControlField} (hmask : c.regs.r14 &&& ~~~field.allowance ≠ 0) :
  Concludes (setControls v w field) m (.error .invalidParams4) m
  := by
  rw [setControls_eq]
  apply (yields_registers hc).adaptExcept.bind_concludes
  simp only
  rw [if_neg hmask]
  apply (yields_noteDenied _ _).adaptExcept.bind_concludes
  apply Concludes.throw

/-- The machine with a control structure loaded: the one of the target, unless there is
another one already. -/
def occupied (m : Machine) (target : Vpid) : Machine :=
  if m.loaded.isSome then m else m.switchTo target

theorem occupied_of_loaded (hu : m.loaded = some u) (w : Vpid) :
  m.occupied w = m
  := by
  rw [occupied, hu, Option.isSome_some, if_pos rfl]

theorem residents_occupied :
  (m.occupied w).residents = m.residents
  := by
  rw [occupied]
  split
  · rfl
  · rfl

@[simp]
theorem isRegistered_occupied :
  (m.occupied w).isRegistered v = m.isRegistered v
  := by
  rw [isRegistered, residents_occupied, isRegistered]

@[simp]
theorem vcpu?_occupied :
  (m.occupied w).vcpu? v = m.vcpu? v
  := by
  rw [vcpu?, residents_occupied, vcpu?]

@[simp]
theorem listeners_occupied (reason : ExitReason) :
  (m.occupied w).listeners v reason = m.listeners v reason
  := by
  rw [listeners, broker?, residents_occupied, ← broker?, ← listeners]

@[simp]
theorem slot_occupied :
  (m.occupied w).slot v = m.slot v
  := by
  rw [slot, broker?, residents_occupied, ← broker?, ← slot]

@[simp]
theorem fieldOf_occupied (f : Field) :
  (m.occupied w).fieldOf v f = m.fieldOf v f
  := by
  rw [fieldOf, vcpu?_occupied, fieldOf]

/-- Some processor is loaded, and the hardware agrees. -/
theorem Agrees.exists_holds_occupied (h : m.Agrees) (hw : m.isRegistered w = true) :
  ∃ u, (m.occupied w).Holds u
  := by
  cases hu : m.loaded with
  | none =>
      use w
      rw [occupied, hu, Option.isSome_none, if_neg Bool.false_ne_true]
      exact holds_switchTo hw
  | some u =>
      use u
      rw [occupied_of_loaded hu]
      exact ⟨(h u hu).1, hu, (h u hu).2⟩

/-- Where nothing is loaded, reading a field of a processor loads it. -/
theorem yields_vmread_occupied (h : m.Agrees) (hf : m.Flawless) (hw : m.isRegistered w = true)
    (f : Field) :
  Yields (withVmcs w (VcpuM.vmread f)) m (m.fieldOf w f) (m.occupied w)
  := by
  cases hu : m.loaded with
  | none =>
      obtain ⟨c, hc⟩ := isRegistered_iff_vcpu?.mp hw
      have hc' : (m.switchTo w).vcpu? w = some c := hc
      have hread := yields_vmread hc' rfl (hf.dependable w c hc).vmread f
      have henter : Yields (enter w) m () (m.switchTo w) := by
        apply yields_enter _ hc (hf.dependable w c hc).load
        intro hlw
        rw [hu] at hlw
        nomatch hlw
      rw [occupied, hu, Option.isSome_none, if_neg Bool.false_ne_true, fieldOf_of_vcpu? hc,
        withVmcs]
      apply Yields.get_bind
      intro j
      rw [loaded_withJournal, hu]
      exact henter.bind (hread.outcome.bind ((Yields.pure ()).bind (Yields.pure _)))
  | some u =>
      rw [occupied_of_loaded hu]
      exact yields_vmread_elsewhere ⟨(h u hu).1, hu, (h u hu).2⟩ hf hw f

theorem Guarantees.occupied {P : Faults → Prop} (h : m.Guarantees P) (w : Vpid) :
  (m.occupied w).Guarantees P
  := by
  rw [Machine.occupied]
  split
  · exact h
  · exact h.switchTo w

/-- A request that selects only bits that may be changed concludes as the listener sets
say. -/
theorem concludes_setControls_of_allowed (h : m.Agrees) (hf : m.Flawless)
    (hc : m.vcpu? v = some c) (hw : m.isRegistered w = true) {field : ControlField}
    (hmask : c.regs.r14 &&& ~~~field.allowance = 0) :
  Concludes (setControls v w field) m ((m.occupied w).controlsSet v w c.regs field).1
    ((m.occupied w).controlsSet v w c.regs field).2
  := by
  obtain ⟨u, hu⟩ := h.exists_holds_occupied hw
  have hs := concludes_switchControls (v := v) c.regs.r14 c.regs.r13 field.controls hu
    (hf.occupied w) (isRegistered_occupied.trans (isRegistered_iff_vcpu?.mpr ⟨c, hc⟩))
    (isRegistered_occupied.trans hw)
  rw [setControls_eq, controlsSet, if_pos hmask]
  apply (yields_registers hc).adaptExcept.bind_concludes
  simp only
  rw [if_pos hmask, fieldOf_occupied]
  apply (yields_vmread_occupied h hf hw _).adaptExcept.bind_concludes
  generalize switchedControls v w c.regs.r14 c.regs.r13 field.controls (m.occupied w) = p at hs
  obtain ⟨r, n⟩ := p
  cases r with
  | ok => exact hs.yields.bind_concludes (Yields.pure _)
  | error s => exact hs.bind_error

/-- A request concludes as its registers and the listener sets say, and the processor that was
loaded before is loaded again. -/
theorem concludes_setControls (h : m.Holds u) (hf : m.Flawless) (hc : m.vcpu? v = some c)
    (hw : m.isRegistered w = true) (field : ControlField) :
  Concludes (setControls v w field) m (m.controlsSet v w c.regs field).1
    (m.controlsSet v w c.regs field).2
  := by
  by_cases hmask : c.regs.r14 &&& ~~~field.allowance = 0
  · have hs := concludes_setControls_of_allowed h.agrees hf hc hw hmask
    rw [occupied_of_loaded h.loaded] at hs
    exact hs
  · rw [controlsSet, if_neg hmask]
    exact concludes_setControls_of_denied hc w hmask

/-! ### The call -/

/-- The machine with the privilege level of a processor recorded. -/
def leveled (m : Machine) (v : Vpid) (cpl : UInt8) : Machine :=
  m.mapBroker v fun b => { b with cpl }

theorem Holds.leveled (h : m.Holds v) (cpl : UInt8) :
  (m.leveled v cpl).Holds v
  := h.mapBroker v _

theorem Guarantees.leveled {P : Faults → Prop} (h : m.Guarantees P) (v : Vpid) (cpl : UInt8) :
  (m.leveled v cpl).Guarantees P
  := h.mapBroker v _

theorem vcpu?_leveled (cpl : UInt8) :
  (m.leveled v cpl).vcpu? w = m.vcpu? w
  := vcpu?_mapBroker _

/-- The outcome of the arguments of a call for switching controls, and the machine that they
leave. -/
def controlsWritten (m : Machine) (caller target : Vpid) (regs : Registers) :
    Except Status UInt64 × Machine :=
  match ControlField.ofEncoding? regs.r12 with
  | none => (.error .invalidParams2, m)
  | some field => m.controlsSet caller target regs field

/-- The machine after the call of a processor that switches controls of a target. -/
def rewritten (m : Machine) (caller target : Vpid) (c : VCpu) : Machine :=
  let (r, n) := (m.leveled caller c.privilegeLevel).controlsWritten caller target c.regs
  n.mapVCpu caller (VCpu.replied (r.map fun old regs => { regs with r10 := old }))

/-- What every switch of a control keeps, a request keeps, however it ends. -/
theorem keeps_controlsWritten {I : Machine → Prop}
    (hI : ∀ m control on, I m → I (m.toggled v w control on)) (regs : Registers) (hm : I m) :
  I (m.controlsWritten v w regs).2
  := by
  have hswitched : ∀ (mask value : UInt64) (controls : List Control) {m : Machine}, I m →
      I (switchedControls v w mask value controls m).2 := by
    intro mask value controls
    induction controls with
    | nil =>
        intro m hm
        exact hm
    | cons control controls ih =>
        intro m hm
        rw [switchedControls]
        split
        · exact ih hm
        · rename_i on _
          split
          · exact ih (hI m control on hm)
          · exact hI m control on hm
  rw [controlsWritten]
  split
  · exact hm
  · rw [controlsSet]
    split
    · apply hswitched _ _ _ hm
    · exact hm

/-- A request leaves the processor loaded that is loaded, and breaks no hardware. -/
theorem holds_controlsWritten (h : m.Holds u) (hf : m.Flawless) (v w : Vpid)
    (regs : Registers) :
  (m.controlsWritten v w regs).2.Holds u ∧ (m.controlsWritten v w regs).2.Flawless
  := by
  apply keeps_controlsWritten (I := fun l => l.Holds u ∧ l.Flawless) _ regs ⟨h, hf⟩
  intro l control on hl
  exact ⟨hl.1.toggled v w control on, hl.2.toggled v w control on⟩

theorem holds_rewritten (h : m.Holds v) (hf : m.Flawless) (w : Vpid) (c : VCpu) :
  (m.rewritten v w c).Holds v
  := (holds_controlsWritten (h.leveled c.privilegeLevel) (hf.leveled v c.privilegeLevel) v w
    c.regs).1.mapVCpu v _

theorem yields_target {argument : Vpid} (hc : m.vcpu? v = some c)
    (ht : m.target? v argument = some w) :
  Yields (target v argument) m w m
  := by
  intro j
  have ht' : (m.withJournal j).target? v argument = some w := ht
  use j
  rw [target_eq (m := m.withJournal j) hc, ht']

/-- An argument that names no target is not valid. -/
theorem concludes_target_none {argument : Vpid} (hc : m.vcpu? v = some c)
    (ht : m.target? v argument = none) :
  Concludes (target v argument) m (.error .invalidParams1) m
  := by
  intro j
  have ht' : (m.withJournal j).target? v argument = none := ht
  use j
  rw [target_eq (m := m.withJournal j) hc, ht']
  rfl

section

variable (h : m.Holds v) (hf : m.Flawless) (hc : m.vcpu? v = some c)
  (ht : m.target? v c.regs.r11 = some w)

include h hf hc ht

/-- The privilege level is recorded, the target is looked for, and then the request is carried
out. -/
theorem concludes_writeControls {r : Except Status UInt64}
    (hr : (m.leveled v c.privilegeLevel).controlsWritten v w c.regs = (r, n)) :
  Concludes (writeControls v) m (r.map fun _ => ())
    (n.succeeded v (r.map fun old regs => { regs with r10 := old }))
  := by
  obtain ⟨b, hb⟩ := isRegistered_iff_broker?.mp h.registered
  have hvmread := (hf.dependable v c hc).vmread
  have hlevel : Yields (modifyBroker v fun b => { b with cpl := c.privilegeLevel }) m ()
      (m.leveled v c.privilegeLevel) := yields_modifyBroker hb _
  have hc' : (m.leveled v c.privilegeLevel).vcpu? v = some c := by
    rw [vcpu?_leveled, hc]
  have ht' : (m.leveled v c.privilegeLevel).target? v c.regs.r11 = some w := by
    rw [← ht]
    apply target?_congr
    · intro x
      apply isRegistered_mapBroker
    · rw [vcpu?_leveled]
  rw [writeControls]
  apply (yields_privilegeLevel hc h.current hvmread).adaptExcept.bind_concludes
  apply hlevel.adaptExcept.bind_concludes
  apply (yields_registers hc').adaptExcept.bind_concludes
  apply (yields_target hc' ht').bind_concludes
  have hn := holds_controlsWritten (h.leveled c.privilegeLevel) (hf.leveled v c.privilegeLevel)
    v w c.regs
  rw [hr] at hn
  rw [controlsWritten] at hr
  cases hfield : ControlField.ofEncoding? c.regs.r12 with
  | none =>
      rw [hfield] at hr
      obtain ⟨rfl, rfl⟩ := Prod.mk.inj hr
      exact (yields_note _).adaptExcept.bind_concludes (Concludes.throw _)
  | some field =>
      rw [hfield] at hr
      change (m.leveled v c.privilegeLevel).controlsSet v w c.regs field = (r, n) at hr
      have hset := (concludes_setControls (h.leveled c.privilegeLevel)
        (hf.leveled v c.privilegeLevel) hc' (isRegistered_of_target? ht') field).notingFailure
        field
      rw [hr] at hset
      cases r with
      | ok old =>
          obtain ⟨c', hn⟩ := isRegistered_iff_vcpu?.mp hn.1.registered
          exact hset.yields.bind_concludes (yields_succeed hn _).adaptExcept
      | error s => exact hset.bind_error

/-- The call is completed with the outcome of the request, whichever it is. -/
theorem yields_serve_vmwrite :
  Yields (completing v (serve v .vmwrite)) m (.run v) (m.rewritten v w c)
  := by
  have hn := holds_controlsWritten (h.leveled c.privilegeLevel) (hf.leveled v c.privilegeLevel)
    v w c.regs
  exact yields_completing (concludes_writeControls h hf hc ht rfl) hn.1 hn.2

end

/-- The hypercall of a processor that switches controls of a target runs its caller again. -/
theorem yields_handleHypercall_vmwrite (h : m.Agrees) (hf : m.Flawless)
    (hc : m.vcpu? v = some c) (hcall : m.call? v = some .vmwrite)
    (ht : m.target? v c.regs.r11 = some w) :
  Yields (handleHypercall v) m (some (.run v)) ((m.begun v).rewritten v w c.advanced)
  := by
  have hholds := holds_begun hc
  have hserve := yields_serve_vmwrite hholds (hf.begun v) (vcpu?_begun hc)
    ((target?_begun _).trans ht)
  have hn := holds_rewritten hholds (hf.begun v) w c.advanced
  exact yields_handleHypercall_of_begun hc h hf hcall (by decide) hserve hn.registered

end Machine

end ExitRelay
