import ExitRelay.Handler
import ExitRelay.Proofs.Footprint.Delivery

/-!
# Footprints of exits

The paths along which the hypercalls, the traps and the handlers of exits walk.  They walk
without being misdirected when the control structure of the processor that exited is the
current one, which its handler sees to.
-/

namespace ExitRelay

/-- The call may take an event from its caller. -/
def Call.Takes (call : Call) : Prop :=
  call = .endOfExit ∨ call = .vmwrite

/-- The effects that a call is known for. -/
def Call.effects (caller : Vpid) : Call → Set Effect
  | .pause | .resume => Effect.scheduling
  | .nextExit => {.vcpu caller .advance}
  | .endOfExit => {k | k = .broker caller .pop ∨ ∃ o, k ∈ Effect.passing o}
  | .vmwrite => {k | k = .broker caller .pop ∨
      (∃ v c, k = .broker v (.unsubscribe c caller)) ∨ ∃ o, k ∈ Effect.freeing o}
  | _ => ∅

/-- No call has effects but those on the scheduler and on events, and the one of moving its
caller on. -/
theorem Call.effects_subset {p : Set Effect} {caller : Vpid} (hs : Effect.scheduling ⊆ p)
    (hk : .vcpu caller .advance ∈ p) (hd : ∀ o, Effect.passing o ⊆ p)
    (hpop : .broker caller .pop ∈ p) (hu : ∀ v c, .broker v (.unsubscribe c caller) ∈ p)
    (call : Call) :
  call.effects caller ⊆ p
  := by
  cases call with
  | pause => exact hs
  | resume => exact hs
  | nextExit =>
      rintro _ rfl
      exact hk
  | endOfExit =>
      rintro k (rfl | ⟨o, ho⟩)
      · exact hpop
      · apply hd o ho
  | vmwrite =>
      rintro k (rfl | ⟨v, c, rfl⟩ | ⟨o, ho⟩)
      · exact hpop
      · apply hu
      · apply hd o (Effect.freeing_subset_passing o ho)
  | _ => exact Set.empty_subset p

/-- The call that a word in `rax` selects, if the domain may make it. -/
def Call.ofWord? (domain : DomainKind) (w : UInt64) : Option Call :=
  (Family.ofOpcode? (Selector.ofWord w).opcode).bind fun family =>
    (Call.ofIndex? family (Selector.ofWord w).index).filter (Machine.mayCall domain)

namespace Machine

/-- The call that a processor makes when it exits with a hypercall. -/
def call? (m : Machine) (v : Vpid) : Option Call :=
  (m.vcpu? v).bind fun c => Call.ofWord? c.domain c.regs.rax

/-- The processor that the argument of a call names as its target, if it names one. -/
def target? (m : Machine) (caller argument : Vpid) : Option Vpid :=
  if argument = Vpid.self then none
  else if argument = Vpid.parent then
    (m.vcpu? caller).bind fun c => c.parent.filter m.isRegistered
  else if m.isRegistered argument then some argument
  else none

variable {m n : Machine} {v w : Vpid} {c : VCpu} {p : Set Effect} {α : Type}

/-- Looking for the target of a call changes nothing. -/
theorem target_eq (hc : m.vcpu? v = some c) (argument : Vpid) :
  target v argument m = match m.target? v argument with
    | some w => .ok w m
    | none => .error .invalidParams1 m
  := by
  rw [target, target?]
  split
  · rfl
  · split
    · have hp : (parentOf v).adaptExcept Status.ofSysError m =
          .ok (c.parent.filter m.isRegistered) m := by
        rw [EStateM.adaptExcept, parentOf_eq hc]
      change ((parentOf v).adaptExcept Status.ofSysError >>= _) m = _
      rw [bind_of_ok hp, hc, Option.bind_some]
      cases c.parent.filter m.isRegistered with
      | none => rfl
      | some q => rfl
    · have hr : (contains argument).adaptExcept Status.ofSysError m =
          .ok (m.isRegistered argument) m := rfl
      change ((contains argument).adaptExcept Status.ofSysError >>= _) m = _
      rw [bind_of_ok hr]
      cases m.isRegistered argument with
      | true => rfl
      | false => rfl

/-- A target that is named is registered. -/
theorem isRegistered_of_target? {argument : Vpid} (h : m.target? v argument = some w) :
  m.isRegistered w = true
  := by
  rw [target?] at h
  split at h
  · exact absurd h (Option.some_ne_none w).symm
  · split at h
    · obtain ⟨c, -, hw⟩ := Option.bind_eq_some_iff.mp h
      exact (Option.filter_eq_some_iff.mp hw).2
    · split at h
      · rename_i hr
        rw [← Option.some.inj h, hr]
      · exact absurd h (Option.some_ne_none w).symm

/-- Whom an argument names depends on who is registered and on the parent of the caller. -/
theorem target?_congr {caller : Vpid} (h : ∀ w, n.isRegistered w = m.isRegistered w)
    (hp : (n.vcpu? caller).map (·.parent) = (m.vcpu? caller).map (·.parent)) (argument : Vpid) :
  n.target? caller argument = m.target? caller argument
  := by
  have hr : n.isRegistered = m.isRegistered := funext h
  have hq : ∀ l : Machine, ((l.vcpu? caller).bind fun c => c.parent.filter m.isRegistered) =
      ((l.vcpu? caller).map (·.parent)).bind fun q => q.filter m.isRegistered := by
    intro l
    rw [Option.bind_map]
    rfl
  rw [Machine.target?, Machine.target?, hr, hq n, hq m, hp]

/-- Whom an argument names does not change. -/
theorem Path.target? (h : Path p m n) (caller argument : Vpid) :
  n.target? caller argument = m.target? caller argument
  := by
  apply target?_congr fun _ => h.isRegistered
  apply h.map_vcpu?
  intro k _ _ c
  cases k <;> rfl

/-! ### Settling events -/

/-- Wherever the effects lead, an event of the target that is in flight for the caller may be
taken, and the target may go on. -/
def Settleable (p : Set Effect) (caller target : Vpid) (m : Machine) : Prop :=
  ∀ n e, Path p m n → (n.slot caller).head? = some e → e.origin = target →
    .broker caller .pop ∈ p ∧ Effect.freeing target ⊆ p

theorem settleable {caller target : Vpid} (hpop : .broker caller .pop ∈ p)
    (hd : Effect.freeing target ⊆ p) :
  Settleable p caller target m
  := fun _ _ _ _ _ => ⟨hpop, hd⟩

theorem Settleable.path {caller target : Vpid} (h : Settleable p caller target m)
    (hp : Path p m n) :
  Settleable p caller target n
  := fun l e hl => h l e (hp.trans hl)

/-! ### Failed calls -/

/-- A failure is noted, and nothing else changes. -/
theorem ends_notingFailure {x : CallM α} {field : ControlField} {Q : α → Machine → Prop}
    {E : Status → Machine → Prop}
    (hx : Ends x m Q fun status n =>
      E status (n.withJournal (n.journal.note (.controlFailed field status)))) :
  Ends (notingFailure field x) m Q E
  := by
  obtain ⟨a, n, hn, ha⟩ | ⟨status, n, hn, hs⟩ := hx.cases
  · apply Ends.ok (a := a) (t := n) _ ha
    rw [notingFailure, hn]
  · apply Ends.error (e := status) _ hs
    rw [notingFailure, hn]
    rfl

/-- A failed call ends as its completion does. -/
theorem ends_completing {x : CallM Transfer} {Q : Transfer → Machine → Prop}
    {E : SysError → Machine → Prop}
    (hx : Ends x m Q fun status n => Ends (fail v status) n Q E) :
  Ends (completing v x) m Q E
  := by
  obtain ⟨t, n, hn, ht⟩ | ⟨status, n, hn, hs⟩ := hx.cases
  · apply Ends.ok (a := t) (t := n) _ ht
    rw [completing, hn]
  · rw [Ends, completing, hn]
    exact hs

section

variable (hp : Effect.routine ⊆ p)

include hp

/-! ### Subscribing to exits -/

theorem walks_subscribe (h : Trusts p m) (caller target : Vpid) (control : Control) :
  Walks p (subscribe caller target control) m
  := by
  rw [subscribe]
  apply Walks.bind
  · apply Walks.adaptExcept
    apply walks_withVmcs hp h
    intro n hn
    apply remains_enable hp hn
  · intro _ _ _
    apply Walks.bind
    · apply Walks.adaptExcept
      apply (remains_note hp _).walks
    · intro _ _ _
      apply Walks.bind
      · apply Walks.adaptExcept
        apply Remains.walks
        apply remains_onBroker hp (.subscribe control caller) (hp trivial) (fun _ _ => trivial)
          (fun _ => rfl)
      · intro refused _ _
        cases refused with
        | none => exact Walks.pure ()
        | some reason =>
            apply Walks.bind
            · apply Walks.adaptExcept
              apply (remains_note hp _).walks
            · intro _ _ _
              apply Walks.throw _

/-- The origin of an event that has been taken from a caller goes on. -/
theorem walks_settle {e : ExitEvent} (h : Trusts p m) (hd : Effect.freeing e.origin ⊆ p)
    (control : Control) :
  Walks p (do
    note (.stillPending e.reason e.origin)
    withVmcs e.origin do
      control.runFallback
      VcpuM.resume) m
  := by
  apply (remains_note hp _).bind_walks
  intro _ n hn
  apply walks_withVmcs hp (h.path hn.1)
  intro l hl
  apply remains_onVCpu_bind (remains_runFallback hp hl (hd rfl) control)
  intro _ _ _
  apply remains_resume hp (hd rfl)

/-- The event that is settled is taken from the caller, and its origin goes on. -/
theorem walks_settlePending (h : Trusts p m) (caller target : Vpid) (control : Control)
    (hs : Settleable p caller target m) :
  Walks p (settlePending caller target control) m
  := by
  rw [settlePending]
  apply walks_broker hp
  intro b hb
  split
  · apply Walks.pure ()
  · rename_i e hf
    split
    · rename_i he
      obtain ⟨rfl, -⟩ := he
      obtain ⟨hpop, hd⟩ := hs m e (Path.refl p m) (by rw [slot_of_broker? hb]; exact hf) rfl
      apply Remains.bind_walks
      · apply remains_modifyBroker hp .pop hpop (fun _ _ => trivial) (fun _ => rfl)
      · intro _ n hn
        apply walks_settle hp (h.path hn.1) hd
    · apply Walks.pure ()

theorem walks_unsubscribe (h : Trusts p m) (caller target : Vpid) (control : Control)
    (hs : Settleable p caller target m)
    (hu : .broker target (.unsubscribe control caller) ∈ p) :
  Walks p (unsubscribe caller target control) m
  := by
  rw [unsubscribe]
  apply Walks.bind
  · apply Walks.adaptExcept
    apply walks_withVmcs hp h
    intro n hn
    apply remains_disable hp hn
  · intro _ n hn
    apply Walks.bind
    · apply Walks.adaptExcept
      apply (remains_note hp _).walks
    · intro _ n' hn'
      apply Walks.bind
      · apply Walks.adaptExcept
        apply walks_settlePending hp ((h.path hn).path hn') caller target control
        apply hs.path (hn.trans hn')
      · intro _ _ _
        apply Walks.bind
        · apply Walks.adaptExcept
          apply Remains.walks
          apply remains_onBroker hp (.unsubscribe control caller) hu (fun _ _ => trivial)
            (fun _ => rfl)
        · intro refused _ _
          cases refused with
          | none => exact Walks.pure ()
          | some reason =>
              apply Walks.bind
              · apply Walks.adaptExcept
                apply (remains_note hp _).walks
              · intro _ _ _
                apply Walks.throw _

theorem walks_switchControl (h : Trusts p m) (caller target : Vpid) (mask value : UInt64)
    (control : Control) (hs : Settleable p caller target m)
    (hu : .broker target (.unsubscribe control caller) ∈ p) :
  Walks p (switchControl caller target mask value control) m
  := by
  rw [switchControl]
  split
  · split
    · apply walks_subscribe hp h
    · apply walks_unsubscribe hp h caller target control hs hu
  · apply Walks.pure ()

theorem walks_switchControls (caller target : Vpid) (mask value : UInt64)
    (controls : List Control) (hu : ∀ c, .broker target (.unsubscribe c caller) ∈ p) :
  ∀ {m : Machine}, Trusts p m → Settleable p caller target m →
    Walks p (switchControls caller target mask value controls) m
  := by
  induction controls with
  | nil =>
      intro m _ _
      apply Walks.pure ()
  | cons control controls ih =>
      intro m h hs
      apply (walks_switchControl hp h caller target mask value control hs (hu control)).bind
      intro _ n hn
      apply ih (h.path hn) (hs.path hn)

theorem remains_noteDenied (field : ControlField) (is : List Nat) :
  ∀ {m : Machine}, Remains p (noteDenied field is) m
  := by
  induction is with
  | nil =>
      intro m
      apply Remains.pure ()
  | cons i is ih =>
      intro m
      apply (remains_note hp _).bind
      intro _ _ _
      apply ih

theorem walks_setControls (h : Trusts p m) (caller target : Vpid) (field : ControlField)
    (hs : Settleable p caller target m)
    (hu : ∀ c, .broker target (.unsubscribe c caller) ∈ p) :
  Walks p (setControls caller target field) m
  := by
  rw [setControls_eq]
  apply Walks.bind
  · apply Walks.adaptExcept
    apply (remains_registers hp caller).walks
  · intro regs n hn
    simp only
    split
    · apply Walks.bind
      · apply Walks.adaptExcept
        apply walks_withVmcs hp (h.path hn)
        intro l hl
        apply remains_vmread hp hl
      · intro old n' hn'
        apply (walks_switchControls hp caller target _ _ _ hu ((h.path hn).path hn')
          (hs.path (hn.trans hn'))).bind
        intro _ _ _
        apply Walks.pure old
    · apply Walks.bind
      · apply Walks.adaptExcept
        apply (remains_noteDenied hp _ _).walks
      · intro _ _ _
        apply Walks.throw _

theorem remains_target (caller argument : Vpid) :
  Remains p (target caller argument) m
  := by
  rw [target]
  split
  · apply Remains.throw _
  · split
    · apply Remains.bind
      · apply Remains.adaptExcept
        apply remains_parentOf hp caller
      · intro parent _ _
        cases parent with
        | none => exact Remains.throw _
        | some q => exact Remains.pure q
    · apply Ends.bind_ok rfl
      split
      · apply Remains.pure argument
      · apply Remains.throw _

theorem remains_succeed {results : Registers → Registers} (hr : Registers.SetsResults results)
    (ha : ∀ f, .vcpu v (.results f) ∈ p) :
  Remains p (succeed v results) m
  := by
  rw [succeed]
  apply remains_registersOf hp (ha _)
  apply hr.rax

theorem walks_readField (h : Trusts p m) (ha : ∀ f, .vcpu v (.results f) ∈ p) :
  Walks p (readField v) m
  := by
  rw [readField]
  apply Walks.bind
  · apply Walks.adaptExcept
    apply (remains_registers hp v).walks
  · intro regs n hn
    apply (remains_target hp v regs.r11).walks.bind
    intro target n' hn'
    split
    · apply Walks.bind
      · apply Walks.adaptExcept
        apply walks_withVmcs hp ((h.path hn).path hn')
        intro l hl
        apply remains_vmread hp hl
      · intro value _ _
        apply Walks.adaptExcept
        apply Remains.walks
        apply remains_succeed hp _ ha
        apply Registers.setsResults_r10
    · apply Walks.throw _

theorem walks_notingFailure {x : CallM α} (hx : Walks p x m) (field : ControlField) :
  Walks p (notingFailure field x) m
  := by
  apply ends_notingFailure
  apply Ends.mono hx
  · intro _ _ hs
    exact hs
  · intro status n hs
    exact hs.trans (Path.single (k := .record _) (hp trivial) rfl)

/-- The call does nothing but what every program may do until the controls are switched, and
then it does so with the target and the field that its caller names. -/
theorem ends_writeControls {Q : Unit → Machine → Prop} {E : Status → Machine → Prop}
    (hv : Aimed p v m) (hE : ∀ status n, Stays p m n → E status n)
    (hs : ∀ c target field n, Stays p m n → n.vcpu? v = some c →
      n.target? v c.regs.r11 = some target → ControlField.ofEncoding? c.regs.r12 = some field →
      Ends (do
        let old ← notingFailure field (setControls v target field)
        succeed v fun regs => { regs with r10 := old } : CallM Unit) n Q E) :
  Ends (writeControls v) m Q E
  := by
  have he : ∀ {β : Type} {x : CallM β} {n : Machine}, Remains p x n → Stays p m n →
      Ends x n (fun _ => Stays p m) E := fun hx hn =>
    (hx.behind hn).mono (fun _ _ h => h) hE
  rw [writeControls]
  apply Ends.bind (he (Remains.adaptExcept (remains_privilegeLevel hp hv)) (Stays.refl p m))
  intro cpl n₁ h₁
  have hlevel : Remains p (modifyBroker v fun b => { b with cpl }) n₁ :=
    remains_modifyBroker hp (.level cpl) (hp trivial) (fun _ _ => trivial) (fun _ => rfl)
  apply Ends.bind (he (Remains.adaptExcept hlevel) h₁)
  intro _ n₂ h₂
  have hregs : Ends (liftM (registers v) : CallM Registers) n₂
      (fun regs n => (∃ c, n₂.vcpu? v = some c ∧ c.regs = regs) ∧ n = n₂) E := by
    apply Ends.adaptExcept
    apply (ends_registers hp v).mono (fun _ _ h => h)
    intro _ n hn
    apply hE _ n (h₂.trans hn)
  apply hregs.bind
  rintro _ n₂ ⟨⟨c, hc, rfl⟩, rfl⟩
  cases ht : n₂.target? v c.regs.r11 with
  | none =>
      apply Ends.error (bind_of_error _) (hE .invalidParams1 n₂ h₂)
      rw [target_eq hc, ht]
  | some target =>
      apply Ends.bind_ok (a := target) (t := n₂)
      · rw [target_eq hc, ht]
      · split
        · apply Ends.bind (he (Remains.adaptExcept (remains_note hp _)) h₂)
          intro _ n₃ h₃
          exact hE _ n₃ h₃
        · rename_i field hf
          exact hs c target field n₂ h₂ hc ht hf

theorem walks_writeControls (hv : Aimed p v m) (ha : ∀ f, .vcpu v (.results f) ∈ p)
    (hs : ∀ target field n, Path p m n → Walks p (setControls v target field) n) :
  Walks p (writeControls v) m
  := by
  apply ends_writeControls hp hv (fun _ _ h => h.1)
  intro _ target field n hn _ _ _
  apply Walks.behind _ hn.1
  apply (walks_notingFailure hp (hs target field n hn.1) field).bind
  intro old _ _
  apply Walks.adaptExcept
  apply Remains.walks
  apply remains_succeed hp _ ha
  apply Registers.setsResults_r10

/-! ### Traps -/

/-- What becomes of a trap that nobody listens for. -/
theorem walks_unheard {o : Vpid} (hv : Aimed p o m) (hk : .vcpu o .advance ∈ p)
    (control : Control) (skip : Bool) :
  Walks p (do
    note (.unheard control o)
    onVCpu o do
      control.disable
      if skip then VcpuM.advance else pure ()
    pure (.run o) : SysM Transfer) m
  := by
  apply Remains.walks
  apply Remains.bind (remains_note hp _)
  intro _ n hn
  apply Remains.bind
  · apply remains_onVCpu_bind (remains_disable hp (hn.aimed hv) control)
    intro _ l hl
    split
    · apply remains_advance hp ((hn.trans hl).aimed hv) hk
    · apply remains_onVCpu_pure hp
  · intro _ _ _
    apply Remains.pure _

/-- The event of a trap is offered while the control structure of its origin is current, and
nothing switches before the control is switched off. -/
theorem walks_offer {e : ExitEvent} (hv : Aimed p e.origin m)
    (hd : Effect.delivery e.origin ⊆ p)
    (control : Control) (skip : Bool) :
  Walks p (offer control e skip) m
  := by
  rw [offer]
  apply (ends_notify hp hd).bind
  rintro t n ⟨hn, hcur⟩
  cases t with
  | some t => exact hn
  | none =>
      have hs : Stays p m n := ⟨hn, hcur rfl⟩
      apply Walks.behind _ hn
      apply walks_unheard hp (hs.aimed hv) (hd rfl)

theorem remains_moveSource (hv : Aimed p v m) (number : UInt8) :
  Remains p (moveSource v number) m
  := by
  rw [moveSource]
  split
  · apply Remains.adaptExcept
    apply remains_vmread hp hv
  · split
    · apply Remains.map
      apply Remains.adaptExcept
      apply remains_registers hp
    · apply Remains.throw _

theorem walks_handleCr3Write (h : m.loaded = some v → Aimed p v m)
    (hd : Effect.delivery v ⊆ p) (hc : ∀ w, .vcpu v (.cr3 w) ∈ p) (number : UInt8) :
  Walks p (handleCr3Write v number) m
  := by
  rw [handleCr3Write]
  have he : Ends (liftM (enter v) : TrapM Unit) m
      (fun _ n => Path p m n ∧ n.loaded = some v ∧ Aimed p v n) (fun _ => Path p m) :=
    Ends.adaptExcept (ends_enter hp h)
  apply he.bind
  rintro _ n ⟨hn, -, hv⟩
  apply Walks.behind _ hn
  apply (remains_moveSource hp hv number).bind_walks
  intro source n₁ h₁
  apply Remains.bind_walks
  · apply Remains.adaptExcept
    apply remains_exchangeCr3 hp (h₁.aimed hv) _ (hc _)
  · intro old n₂ h₂
    apply Remains.bind_walks
    · apply Remains.adaptExcept
      apply remains_note hp
    · intro _ n₃ h₃
      apply Walks.adaptExcept
      apply walks_offer hp (((h₁.trans h₂).trans h₃).aimed hv) hd

theorem walks_handleEptViolation (h : m.loaded = some v → Aimed p v m)
    (hd : Effect.delivery v ⊆ p) (violation : EptViolation) :
  Walks p (handleEptViolation v violation) m
  := by
  rw [handleEptViolation]
  apply (ends_enter hp h).bind
  rintro _ n ⟨hn, -, hv⟩
  apply Walks.behind _ hn
  apply Ends.bind ((ends_instructionEvent hp hv violation.reason).mono
    (fun _ _ h => h) (fun _ _ h => h.1))
  rintro e n₁ ⟨h₁, rfl, -⟩
  apply Walks.behind _ h₁.1
  apply (remains_note hp _).bind_walks
  intro _ n₂ h₂
  apply walks_offer hp ((h₁.trans h₂).aimed hv) hd

theorem walks_handleMonitorTrap (h : m.loaded = some v → Aimed p v m)
    (hd : Effect.delivery v ⊆ p) :
  Walks p (handleMonitorTrap v) m
  := by
  rw [handleMonitorTrap]
  apply (ends_enter hp h).bind
  rintro _ n ⟨hn, -, hv⟩
  apply Walks.behind _ hn
  apply (remains_enable hp hv _).bind_walks
  intro _ n₀ h₀
  apply Ends.bind ((ends_instructionEvent hp (h₀.aimed hv) .monitorTrap).mono
    (fun _ _ h => h) (fun _ _ h => h.1))
  rintro e n₁ ⟨h₁, rfl, -⟩
  apply Walks.behind _ h₁.1
  apply (remains_note hp _).bind_walks
  intro _ n₂ h₂
  apply walks_offer hp (((h₀.trans h₁).trans h₂).aimed hv) hd

/-! ### Hypercalls -/

theorem remains_registerOwner (caller argument : Vpid) :
  Remains p (registerOwner caller argument) m
  := by
  rw [registerOwner]
  apply Remains.bind
  · apply Remains.adaptExcept
    apply remains_vcpu hp caller
  · intro c _ _
    apply Remains.bind
    · apply Remains.adaptExcept
      apply remains_parentOf hp caller
    · intro parent _ _
      split
      · apply Remains.throw _
      · split
        · apply Remains.throw _
        · split
          · split
            · apply Remains.throw _
            · cases parent with
              | none => exact Remains.throw _
              | some q => exact Remains.pure q
          · split
            · apply Remains.throw _
            · apply Ends.bind_ok rfl
              split
              · apply Remains.pure argument
              · apply Remains.throw _

theorem walks_registerValue (h : Trusts p m) (ha : ∀ f, .vcpu v (.results f) ∈ p) :
  Walks p (registerValue v) m
  := by
  rw [registerValue]
  apply Walks.bind
  · apply Walks.adaptExcept
    apply (remains_registers hp v).walks
  · intro regs n hn
    apply (remains_registerOwner hp v regs.r11).walks.bind
    intro owner n' hn'
    split
    · apply Walks.throw _
    · rename_i i _
      apply Walks.bind
      · apply Walks.adaptExcept
        rw [readRegister]
        split
        · apply Walks.map
          apply (remains_registers hp owner).walks
        · apply walks_withVmcs hp ((h.path hn).path hn')
          intro l hl
          apply remains_vmread hp hl
      · intro value _ _
        apply Walks.adaptExcept
        apply Remains.walks
        apply remains_succeed hp _ ha
        apply Registers.setsResults_r10

theorem remains_translateAddress (ha : ∀ f, .vcpu v (.results f) ∈ p) :
  Remains p (translateAddress v) m
  := by
  rw [translateAddress]
  apply Remains.bind
  · apply Remains.adaptExcept
    apply remains_registers hp v
  · intro regs _ _
    apply Remains.bind
    · apply Remains.adaptExcept
      apply remains_translate hp regs.rdi
    · intro gpa _ _
      apply Remains.bind
      · apply Remains.adaptExcept
        apply remains_note hp _
      · intro _ _ _
        apply Remains.adaptExcept
        apply remains_succeed hp _ ha
        apply Registers.setsResults_rdi

theorem remains_schedule (hd : Effect.scheduling ⊆ p) (ha : ∀ f, .vcpu v (.results f) ∈ p)
    (pausing : Bool) :
  Remains p (schedule v pausing) m
  := by
  rw [schedule]
  apply Remains.bind
  · apply Remains.adaptExcept
    apply remains_registers hp v
  · intro regs n _
    apply Remains.bind
    · apply Remains.adaptExcept
      rw [scheduled]
      split
      · apply remains_parentOf hp v
      · apply Ends.bind_ok contains_eq
        split
        · apply Remains.pure _
        · apply Remains.pure _
    · intro who _ _
      cases who with
      | none =>
          apply Remains.bind
          · apply Remains.adaptExcept
            apply remains_note hp _
          · intro _ _ _
            apply Remains.throw _
      | some w =>
          apply Remains.bind
          · apply Remains.adaptExcept
            split
            · apply remains_pause hp (hd trivial)
            · apply remains_resume hp (hd trivial)
          · intro _ _ _
            apply Remains.adaptExcept
            apply remains_succeed hp Registers.setsResults_id ha

/-- Each call walks along the effects that it is known for. -/
theorem walks_serve (h : Trusts p m) (hv : Aimed p v m) (ha : ∀ f, .vcpu v (.results f) ∈ p)
    {call : Call} (hd : call.effects v ⊆ p) :
  Walks p (serve v call) m
  := by
  have hrun : ∀ {x : CallM Unit}, Walks p x m →
      Walks p (do x; pure (Transfer.run v) : CallM Transfer) m := by
    intro x hx
    apply hx.bind
    intro _ _ _
    apply Walks.pure _
  cases call with
  | pause =>
      apply hrun
      apply (remains_schedule hp hd ha true).walks
  | resume =>
      apply hrun
      apply (remains_schedule hp hd ha false).walks
  | registerValue =>
      apply hrun
      apply walks_registerValue hp h ha
  | nextExit =>
      apply Walks.adaptExcept
      apply walks_nextExit hp hv (hd rfl) ha
  | endOfExit =>
      apply Walks.adaptExcept
      apply walks_endOfExit hp (hd (.inl rfl)) _ ha
      intro e _ k hk
      exact hd (.inr ⟨e.origin, hk⟩)
  | vmread =>
      apply hrun
      apply walks_readField hp h ha
  | vmwrite =>
      apply hrun
      apply walks_writeControls hp hv ha
      intro target field n hn
      apply walks_setControls hp (h.path hn)
      · apply settleable (hd (.inl rfl))
        intro k hk
        exact hd (.inr (.inr ⟨target, hk⟩))
      · intro c
        exact hd (.inr (.inl ⟨target, c, rfl⟩))
  | translate =>
      apply hrun
      apply (remains_translateAddress hp ha).walks

theorem walks_fail (ha : ∀ f, .vcpu v (.results f) ∈ p) (status : Status) :
  Walks p (fail v status) m
  := by
  rw [fail]
  apply (remains_note hp _).bind_walks
  intro _ _ _
  apply (walks_load hp v).bind
  intro _ _ _
  apply Remains.bind_walks
  · apply remains_registersOf hp (ha _)
    apply Registers.setsResults_id.rax
  · intro _ _ _
    apply Walks.pure _

theorem walks_completing (ha : ∀ f, .vcpu v (.results f) ∈ p) {x : CallM Transfer}
    (hx : Walks p x m) :
  Walks p (completing v x) m
  := by
  apply ends_completing
  apply Ends.mono hx
  · intro _ _ hs
    exact hs
  · intro status n hs
    apply (walks_fail hp ha status).behind hs

theorem walks_serveNextExit (hv : Aimed p v m) (hk : .vcpu v .advance ∈ p)
    (ha : ∀ f, .vcpu v (.results f) ∈ p) :
  Walks p (serveNextExit v) m
  := by
  rw [serveNextExit]
  apply Ends.tryCatch (walks_nextExit hp hv hk ha)
  intro e n hn
  apply Walks.behind _ hn
  apply (ends_load hp v).bind
  rintro _ n' ⟨hn', -, hv'⟩
  apply Walks.behind _ hn'
  apply (remains_advance hp (.inl hv') hk).bind_walks
  intro _ _ _
  apply walks_fail hp ha

theorem walks_serveAdvanced (h : Trusts p m) (hv : Aimed p v m) (hk : .vcpu v .advance ∈ p)
    (ha : ∀ f, .vcpu v (.results f) ∈ p) {call : Option Call}
    (hd : ∀ c, call = some c → c.effects v ⊆ p) :
  Walks p (serveAdvanced v call) m
  := by
  rw [serveAdvanced.eq_def]
  apply (remains_advance hp hv hk).bind_walks
  intro _ n hn
  apply walks_completing hp ha
  cases call with
  | none => exact Walks.throw _
  | some c =>
      apply walks_serve hp (h.path hn.1) (hn.aimed hv) ha (hd c rfl)

theorem remains_noteChanges (rax : UInt64) (before : Registers) :
  Remains p (noteChanges rax v before) m
  := by
  rw [noteChanges]
  apply (remains_registers hp v).bind
  intro regs _ _
  split
  · apply Remains.pure ()
  · apply remains_note hp _

/-- A hypercall walks along the effects that the call it makes is known for. -/
theorem walks_handleHypercall (h : m.loaded = some v → Aimed p v m)
    (hk : .vcpu v .advance ∈ p) (ha : ∀ f, .vcpu v (.results f) ∈ p)
    (hd : ∀ c, m.call? v = some c → c.effects v ⊆ p) :
  Walks p (handleHypercall v) m
  := by
  rw [handleHypercall]
  apply Ends.bind ((ends_vcpu hp v).mono (fun _ _ h => h) (fun _ _ h => h.1))
  rintro c m ⟨hc, rfl⟩
  simp only
  split
  · apply Walks.pure none
  · rename_i family hf
    have hcall : m.call? v =
        (Call.ofIndex? family (Selector.ofWord c.regs.rax).index).filter (mayCall c.domain) := by
      rw [call?, hc, Option.bind_some, Call.ofWord?, hf, Option.bind_some]
    rw [← hcall]
    apply (ends_enter hp h).bind
    rintro _ n ⟨hn, hl, hv⟩
    have ht : Trusts p n := by
      intro w hw
      rw [hl] at hw
      obtain rfl := Option.some.inj hw
      refine ⟨?_, hv⟩
      rw [hn.isRegistered, isRegistered_iff_vcpu?]
      exact ⟨c, hc⟩
    apply Walks.behind _ hn
    apply Walks.bind
    · rw [serveCall]
      split
      · apply walks_serveNextExit hp hv hk ha
      · apply walks_serveAdvanced hp ht hv hk ha hd
    · intro t _ _
      apply (remains_noteChanges hp _ _).bind_walks
      intro _ _ _
      apply Walks.pure _

omit hp

/-- A hypercall is declined, or it ends as its call does, which is served with the control
structure of the caller current.  What holds when the call has been served has to last while
the journal is written. -/
theorem ends_handleHypercall_of_serveCall {Q : Option Transfer → Machine → Prop}
    {E : Machine → Prop} (h : m.Agrees) (hE : ∀ n, Path Effect.routine m n → E n)
    (hnone : m.call? v = none → Q none m)
    (hserve : ∀ n, Path Effect.routine m n → n.loaded = some v → n.current = some v →
      Ends (serveCall v (m.call? v)) n (fun t => Q (some t)) (fun _ => E))
    (hQ : ∀ t n n', Path Effect.routine n n' → Q (some t) n → Q (some t) n' ∧ E n') :
  Ends (handleHypercall v) m Q (fun _ => E)
  := by
  have hr : Effect.routine ⊆ Effect.routine := Set.Subset.refl _
  rw [handleHypercall]
  apply Ends.bind ((ends_vcpu hr v).mono (fun _ _ h => h) (fun _ _ hs => hE _ hs.1))
  rintro c m ⟨hc, rfl⟩
  rw [call?, hc, Option.bind_some, Call.ofWord?] at hnone hserve
  simp only
  split
  · rename_i hf
    rw [hf] at hnone
    exact hnone rfl
  · rename_i family hf
    rw [hf, Option.bind_some] at hserve
    apply Ends.bind ((ends_enter hr h.aimed).mono (fun _ _ h => h) (fun _ => hE))
    rintro _ n ⟨hn, hl, hv⟩
    apply (hserve n hn hl (hv.resolve_right id)).bind
    intro t n' hn'
    apply Ends.bind (Ends.mono (remains_noteChanges hr c.regs.rax c.regs).walks
      (fun _ _ hp => hQ t n' _ hp hn') (fun _ _ hp => (hQ t n' _ hp hn').2))
    intro _ l hl
    exact Ends.pure hl.1

include hp

/-! ### Exits -/

/-- The effects that the handling of an exit of a processor may have: a hypercall sets its
result registers and has the effects of its call, and a trap sets CR3 and delivers an
event. -/
theorem walks_handleExit (h : m.loaded = some v → Aimed p v m) (x : HardwareExit)
    (hk : .vcpu v .advance ∈ p) (ha : x.reason = .vmcall → ∀ f, .vcpu v (.results f) ∈ p)
    (hc : x.reason = .crAccess → ∀ w, .vcpu v (.cr3 w) ∈ p)
    (hd : x.reason ≠ .vmcall → Effect.delivery v ⊆ p)
    (hs : x.reason = .vmcall → ∀ c, m.call? v = some c → c.effects v ⊆ p) :
  Walks p (handleExit v x) m
  := by
  rw [handleExit]
  split
  · apply Walks.pure none
  · split
    · rename_i hx
      simp only
      split
      · apply Walks.map
        apply walks_handleCr3Write hp h (hd _) (hc hx)
        simp [hx]
      · apply Walks.pure none
    · rename_i hx
      apply Walks.map
      apply Walks.adaptExcept
      apply walks_handleEptViolation hp h (hd _)
      simp [hx]
    · rename_i hx
      apply Walks.map
      apply Walks.adaptExcept
      apply walks_handleMonitorTrap hp h (hd _)
      simp [hx]
    · rename_i hx
      apply Walks.adaptExcept
      apply walks_handleHypercall hp h hk (ha hx) (hs hx)
    · apply Walks.pure none

end

end Machine

end ExitRelay
