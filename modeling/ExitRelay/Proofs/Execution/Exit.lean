import ExitRelay.Proofs.Execution.Delivery
import ExitRelay.Proofs.Footprint.Exit

/-!
# Executions of exits

What the handlers of traps and hypercalls yield when the hardware does not fail.  The event
of a trap is a function of the exit and of the state of the processor, and so is what the
trap does to the processor before listeners are told of it.
-/

namespace ExitRelay

open Machine (noFlushHint)

/-- A processor whose trap nobody hears of goes on behind the instruction that exited. -/
def Control.skips : Control → Bool
  | .cr3LoadExiting => true
  | .monitorTrapFlag => true
  | .eptViolation => false

/-- The processor after a trap that nobody has heard of. -/
def VCpu.unheard (control : Control) (c : VCpu) : VCpu :=
  if control.skips then (c.switched control false).advanced else c.switched control false

/-- The value that a move to CR3 takes from a register. -/
def VCpu.moveSource (c : VCpu) (number : UInt8) : UInt64 :=
  if number = Register.stackPointerNumber then c.vmcs.read Field.rsp
  else ((Register.ofNumber? number).map c.regs.get).getD 0

/-- The event that tells where the instruction pointer of a processor stands. -/
def VCpu.instructionEvent (c : VCpu) (v : Vpid) (reason : ExitReason) : ExitEvent where
  origin := v
  reason := reason
  data0 := c.vmcs.read Field.rip + VcpuM.translationOffset
  data1 := c.vmcs.read Field.rip

/-- Switching a control leaves the instruction pointer where it is. -/
theorem VCpu.instructionEvent_switched (control : Control) (on : Bool) (c : VCpu) (v : Vpid)
    (reason : ExitReason) :
  (c.switched control on).instructionEvent v reason = c.instructionEvent v reason
  := by
  rw [instructionEvent, instructionEvent, read_switched control.field.encoding_ne_rip.symm]

/-- The reasons of accesses that the extended page tables do not allow belong to their control. -/
theorem EptViolation.covers_reason (violation : EptViolation) :
  Control.eptViolation.covers violation.reason = true
  := by
  rw [reason]
  split
  · rfl
  · split
    · rfl
    · rfl

namespace HardwareExit

/-- The new value of CR3 in an exit for an access to a control register. -/
def newCr3 (x : HardwareExit) (c : VCpu) : UInt64 :=
  c.moveSource (CrAccess.ofQualification x.qualification).generalRegister &&& ~~~noFlushHint

/-- The event of a trap, if the exit is one. -/
def event? (x : HardwareExit) (v : Vpid) (c : VCpu) : Option ExitEvent :=
  if x.entryFailure then none
  else match x.reason with
    | .crAccess =>
      if (CrAccess.ofQualification x.qualification).isCr3Write then
        some ⟨v, .cr3Load, x.newCr3 c, c.vmcs.read Field.cr3⟩
      else none
    | .eptViolation =>
      some (c.instructionEvent v (EptViolation.ofQualification x.qualification).reason)
    | .monitorTrapFlag => some (c.instructionEvent v .monitorTrap)
    | _ => none

/-- The processor after a trap, when its event is about to be offered. -/
def trapped (x : HardwareExit) (c : VCpu) : VCpu :=
  match x.reason with
  | .crAccess => c.written Field.cr3 (x.newCr3 c)
  | .monitorTrapFlag => c.switched .monitorTrapFlag true
  | _ => c

variable {x : HardwareExit} {v : Vpid} {c : VCpu} {e : ExitEvent}

/-- The origin of the event of a trap is the processor that exited. -/
theorem origin_of_event? (h : x.event? v c = some e) :
  e.origin = v
  := by
  rw [event?] at h
  split at h
  · exact absurd h (Option.some_ne_none e).symm
  · split at h
    · split at h
      · rw [← Option.some.inj h]
      · exact absurd h (Option.some_ne_none e).symm
    · rw [← Option.some.inj h]
      rfl
    · rw [← Option.some.inj h]
      rfl
    · exact absurd h (Option.some_ne_none e).symm

@[simp]
theorem faults_trapped (x : HardwareExit) (c : VCpu) :
  (x.trapped c).faults = c.faults
  := by
  rw [trapped]
  split
  · rfl
  · rfl
  · rfl

theorem paused_trapped (x : HardwareExit) (c : VCpu) :
  (x.trapped c).paused = c.paused
  := by
  rw [trapped]
  split
  · rfl
  · rfl
  · rfl

/-- A trap does not move the instruction pointer. -/
theorem read_trapped_rip (x : HardwareExit) (c : VCpu) :
  (x.trapped c).vmcs.read Field.rip = c.vmcs.read Field.rip
  := by
  rw [trapped]
  split
  · exact Vmcs.read_write_of_ne _ _ (by decide)
  · exact VCpu.read_switched (by decide)
  · rfl

end HardwareExit

namespace Machine

variable {m n : Machine} {v w l : Vpid} {c : VCpu} {e : ExitEvent} {t : Transfer}
  {x : HardwareExit}

/-! ### Traps -/

/-- The machine in which the event of a trap is about to be offered. -/
def trapped (m : Machine) (v : Vpid) (x : HardwareExit) : Machine :=
  (m.switchTo v).mapVCpu v x.trapped

@[simp]
theorem isRegistered_trapped :
  (m.trapped v x).isRegistered w = m.isRegistered w
  := by
  rw [trapped, isRegistered_mapVCpu, isRegistered_switchTo]

@[simp]
theorem slot_trapped :
  (m.trapped v x).slot w = m.slot w
  := by
  rw [trapped, slot_mapVCpu, slot_switchTo]

@[simp]
theorem listeners_trapped (reason : ExitReason) :
  (m.trapped v x).listeners w reason = m.listeners w reason
  := by
  rw [trapped, listeners_mapVCpu, listeners_switchTo]

@[simp]
theorem isPaused_trapped :
  (m.trapped v x).isPaused w = m.isPaused w
  := by
  rw [trapped, isPaused_mapVCpu_of_paused x.paused_trapped, isPaused_switchTo]

theorem vcpu?_trapped_self (hc : m.vcpu? v = some c) :
  (m.trapped v x).vcpu? v = some (x.trapped c)
  := vcpu?_mapVCpu_of_some (m := m.switchTo v) hc x.trapped

theorem vcpu?_trapped_of_ne (h : w ≠ v) :
  (m.trapped v x).vcpu? w = m.vcpu? w
  := by
  rw [trapped, vcpu?_mapVCpu_of_ne _ h, vcpu?_switchTo]

theorem Guarantees.trapped {P : Faults → Prop} (h : m.Guarantees P) (v : Vpid)
    (x : HardwareExit) :
  (m.trapped v x).Guarantees P
  := (h.switchTo v).mapVCpu x.faults_trapped v

theorem yields_offer (hn : Yields (notify e) m (some t) n) (control : Control) (skip : Bool) :
  Yields (offer control e skip) m t n
  := by
  rw [offer]
  apply hn.bind
  apply Yields.pure

/-- Without a listener the control is switched off. -/
theorem yields_offer_none (hn : Yields (notify e) m none n) (hc : n.vcpu? e.origin = some c)
    (h : n.current = some e.origin) (hd : c.faults.Dependable) (control : Control)
    (skip : Bool) :
  Yields (offer control e skip) m (.run e.origin)
    (n.mapVCpu e.origin fun c =>
      if skip then (c.switched control false).advanced else c.switched control false)
  := by
  have hc' := vcpu?_mapVCpu_of_some hc (VCpu.switched control false)
  rw [offer]
  apply hn.bind
  apply (yields_note _).bind
  apply Yields.bind_pure
  apply yields_onVCpu_bind (yields_disable hc h hd control)
  cases skip with
  | true =>
      apply (yields_advance hc' h hd.advance).of_eq
      rw [mapVCpu_mapVCpu]
      rfl
  | false => exact yields_onVCpu_pure hc' ()

/-- If nothing fails, offering the event of a trap does not fail either. -/
theorem exists_yields_offer (hc : m.vcpu? e.origin = some c) (h : m.current = some e.origin)
    (hf : m.Flawless) (control : Control) (skip : Bool) :
  ∃ t n, Yields (offer control e skip) m t n
  := by
  obtain ⟨t, n, hn⟩ | hn := exists_yields_notify (isRegistered_iff_vcpu?.mpr ⟨c, hc⟩) hf
  · exact ⟨t, n, yields_offer hn control skip⟩
  · refine ⟨_, _, yields_offer_none hn (c := c) ?_ h (hf.dependable _ c hc) control skip⟩
    rw [vcpu?_mapBroker, hc]

theorem yields_moveSource (hc : m.vcpu? v = some c) (h : m.current = some v)
    (hf : c.faults.get .vmread = {}) {number : UInt8} (hn : number < 16) :
  Yields (moveSource v number) m (c.moveSource number) m
  := by
  rw [moveSource, VCpu.moveSource]
  split
  · apply Yields.adaptExcept
    apply yields_vmread hc h hf
  · rename_i hne
    obtain ⟨r, hr⟩ := Register.exists_ofNumber? hn hne
    rw [hr]
    apply Yields.map
    apply Yields.adaptExcept
    apply yields_registers hc

theorem yields_exchangeCr3 (hc : m.vcpu? v = some c) (h : m.current = some v)
    (hd : c.faults.Dependable) (new : UInt64) :
  Yields (onVCpu v (exchangeCr3 new)) m (c.vmcs.read Field.cr3)
    (m.mapVCpu v (VCpu.written Field.cr3 new))
  := by
  apply yields_onVCpu_bind (yields_vmread hc h hd.vmread _)
  apply yields_onVCpu_bind (yields_vmwrite hc h hd.vmwrite _ _)
  apply yields_onVCpu_pure (vcpu?_mapVCpu_of_some hc _)

theorem yields_instructionEvent (hc : m.vcpu? v = some c) (h : m.current = some v)
    (hf : c.faults = {}) (reason : ExitReason) :
  Yields (onVCpu v (instructionEvent v reason)) m (c.instructionEvent v reason) m
  := by
  apply yields_onVCpu_bind (yields_vmread hc h (by rw [hf]; rfl) _)
  apply yields_onVCpu_bind (yields_translate hc (by rw [hf]; rfl) _)
  apply yields_onVCpu_pure hc

section

variable (h : m.Agrees) (hf : m.Flawless) (hc : m.vcpu? v = some c)

include h hf hc

theorem yields_handleCr3Write {number : UInt8} (hlt : number < 16)
    (hn : Yields (offer .cr3LoadExiting ⟨v, .cr3Load, c.moveSource number &&& ~~~noFlushHint,
        c.vmcs.read Field.cr3⟩ true)
      ((m.switchTo v).mapVCpu v
        (VCpu.written Field.cr3 (c.moveSource number &&& ~~~noFlushHint))) t n) :
  Yields (handleCr3Write v number) m t n
  := by
  have hd : c.faults.Dependable := hf.dependable v c hc
  have hc' : (m.switchTo v).vcpu? v = some c := hc
  rw [handleCr3Write]
  apply (yields_enter (fun hl => (h v hl).2) hc hd.load).adaptExcept.bind
  apply (yields_moveSource hc' rfl hd.vmread hlt).bind
  apply (yields_exchangeCr3 hc' rfl hd _).adaptExcept.bind
  apply (yields_note _).adaptExcept.bind
  apply hn.adaptExcept

theorem yields_handleEptViolation {violation : EptViolation}
    (hn : Yields (offer .eptViolation (c.instructionEvent v violation.reason) false)
      (m.switchTo v) t n) :
  Yields (handleEptViolation v violation) m t n
  := by
  have hc' : (m.switchTo v).vcpu? v = some c := hc
  rw [handleEptViolation]
  apply (yields_enter (fun hl => (h v hl).2) hc (hf.dependable v c hc).load).bind
  apply (yields_instructionEvent hc' rfl (hf v c hc) _).bind
  apply (yields_note _).bind hn

/-- The control is switched on again before the event is made, which does not show in it. -/
theorem yields_handleMonitorTrap
    (hn : Yields (offer .monitorTrapFlag (c.instructionEvent v .monitorTrap) true)
      ((m.switchTo v).mapVCpu v (VCpu.switched .monitorTrapFlag true)) t n) :
  Yields (handleMonitorTrap v) m t n
  := by
  have hd : c.faults.Dependable := hf.dependable v c hc
  have hc' : (m.switchTo v).vcpu? v = some c := hc
  have hc'' := vcpu?_mapVCpu_of_some hc' (VCpu.switched .monitorTrapFlag true)
  have hev := yields_instructionEvent hc'' rfl (hf v c hc) .monitorTrap
  rw [VCpu.instructionEvent_switched] at hev
  rw [handleMonitorTrap]
  apply (yields_enter (fun hl => (h v hl).2) hc hd.load).bind
  apply (yields_enable hc' rfl hd .monitorTrapFlag).bind
  apply hev.bind
  apply (yields_note _).bind hn

/-- A trap ends as the offer of its event does. -/
theorem exists_offer_of_event? (he : x.event? v c = some e) :
  ∃ control : Control, control.covers e.reason = true ∧ ∀ t n,
    Yields (offer control e control.skips) (m.trapped v x) t n →
      Yields (handleExit v x) m (some t) n
  := by
  have hc' : (m.switchTo v).vcpu? v = some c := hc
  rw [HardwareExit.event?] at he
  rw [handleExit]
  split at he
  · exact absurd he (Option.some_ne_none e).symm
  · rename_i hx
    rw [if_neg hx]
    split at he
    · rename_i hr
      split at he
      · rename_i hw
        obtain rfl := Option.some.inj he
        refine ⟨.cr3LoadExiting, rfl, ?_⟩
        intro t n hn
        rw [trapped, mapVCpu_congr hc' (by rw [HardwareExit.trapped, hr])] at hn
        rw [hr]
        simp only
        rw [if_pos hw]
        apply Yields.map
        apply yields_handleCr3Write h hf hc (CrAccess.generalRegister_lt x.qualification) hn
      · exact absurd he (Option.some_ne_none e).symm
    · rename_i hr
      obtain rfl := Option.some.inj he
      refine ⟨.eptViolation, EptViolation.covers_reason _, ?_⟩
      intro t n hn
      rw [trapped, mapVCpu_eq_self hc' (by rw [HardwareExit.trapped, hr])] at hn
      rw [hr]
      apply Yields.map
      apply Yields.adaptExcept
      apply yields_handleEptViolation h hf hc hn
    · rename_i hr
      obtain rfl := Option.some.inj he
      refine ⟨.monitorTrapFlag, rfl, ?_⟩
      intro t n hn
      rw [trapped, mapVCpu_congr hc' (by rw [HardwareExit.trapped, hr])] at hn
      rw [hr]
      apply Yields.map
      apply Yields.adaptExcept
      apply yields_handleMonitorTrap h hf hc hn
    · exact absurd he (Option.some_ne_none e).symm

/-- A trap whose event finds a listener ends as the notification does. -/
theorem yields_handleExit (he : x.event? v c = some e)
    (hn : Yields (notify e) (m.trapped v x) (some t) n) :
  Yields (handleExit v x) m (some t) n
  := by
  obtain ⟨control, -, hx⟩ := exists_offer_of_event? h hf hc he
  apply hx t n (yields_offer hn control _)

/-- The first listener of a trap is told its event, unless it is gone or has not answered an
earlier one. -/
theorem yields_handleExit_told {rest : List Vpid} (he : x.event? v c = some e)
    (hl : (m.listeners v e.reason).members = l :: rest) (hr : m.isRegistered l = true)
    (hs : m.slot l = []) :
  Yields (handleExit v x) m (some (.run l)) (((m.trapped v x).suspended e).handed l e)
  := by
  apply yields_handleExit h hf hc he
  apply yields_notify
  · rw [listeners_trapped, HardwareExit.origin_of_event? he, hl]
  · rw [isRegistered_trapped, hr]
  · rw [slot_trapped, hs]
  · apply hf.trapped

/-- If nothing fails, the handling of a trap does not fail either. -/
theorem exists_yields_handleExit (he : x.event? v c = some e) :
  ∃ t n, Yields (handleExit v x) m (some t) n
  := by
  obtain rfl := HardwareExit.origin_of_event? he
  obtain ⟨control, -, hx⟩ := exists_offer_of_event? h hf hc he
  obtain ⟨t, n, hn⟩ := exists_yields_offer (vcpu?_trapped_self hc) rfl (hf.trapped e.origin x)
    control control.skips
  exact ⟨t, n, hx t n hn⟩

end

/-! ### Hypercalls -/

theorem yields_noteChanges (hc : m.vcpu? v = some c) (rax : UInt64) (before : Registers) :
  Yields (noteChanges rax v before) m () m
  := by
  rw [noteChanges]
  apply (yields_registers hc).bind
  split
  · apply Yields.pure
  · apply yields_note

/-- A hypercall of one of the broker's families ends as serving it does. -/
theorem yields_handleHypercall_of_family {family : Family} (h : m.Agrees) (hd : m.Dependable)
    (hc : m.vcpu? v = some c)
    (hfamily : Family.ofOpcode? (Selector.ofWord c.regs.rax).opcode = some family)
    (hx : Yields (serveCall v (m.call? v)) (m.switchTo v) t n) (hn : n.isRegistered v = true) :
  Yields (handleHypercall v) m (some t) n
  := by
  rw [call?, hc, Option.bind_some, Call.ofWord?, hfamily, Option.bind_some] at hx
  obtain ⟨c', hc'⟩ := isRegistered_iff_vcpu?.mp hn
  rw [handleHypercall]
  apply (yields_vcpu hc).bind
  simp only [hfamily]
  apply (yields_enter (fun hl => (h v hl).2) hc (hd v c hc).load).bind
  apply hx.bind
  apply Yields.bind_pure
  apply yields_noteChanges hc'

/-- A hypercall ends as the call does that its caller makes. -/
theorem yields_handleHypercall {call : Call} (h : m.Agrees) (hd : m.Dependable)
    (hc : m.vcpu? v = some c) (hcall : m.call? v = some call)
    (hx : Yields (serveCall v (some call)) (m.switchTo v) t n)
    (hn : n.isRegistered v = true) :
  Yields (handleHypercall v) m (some t) n
  := by
  rw [← hcall] at hx
  rw [call?, hc, Option.bind_some, Call.ofWord?, Option.bind_eq_some_iff] at hcall
  obtain ⟨family, hfamily, -⟩ := hcall
  apply yields_handleHypercall_of_family h hd hc hfamily hx hn

theorem yields_serveNextExit (hx : Yields (nextExit v) m t n) :
  Yields (serveCall v (some .nextExit)) m t n
  := by
  rw [serveCall, if_pos rfl, serveNextExit]
  apply hx.tryCatch

/-- A hypercall that is none of the broker's calls is completed once its caller has moved on. -/
theorem yields_serveCall_none (hc : m.vcpu? v = some c) (h : m.current = some v)
    (hf : c.faults.get .advance = {})
    (hx : Yields (completing v (throw .failureUnknownHypercall)) (m.mapVCpu v VCpu.advanced)
      t n) :
  Yields (serveCall v none) m t n
  := by
  rw [serveCall, if_neg (Option.some_ne_none _).symm, serveAdvanced]
  exact (yields_advance hc h hf).bind hx

section

variable {call : Call} (hcall : call ≠ .nextExit) (hc : m.vcpu? v = some c)
  (h : m.current = some v) (hf : c.faults.get .advance = {})

include hcall hc h hf

/-- Any other call is carried out once its caller has moved on. -/
theorem yields_serveCall
    (hx : Yields (completing v (serve v call)) (m.mapVCpu v VCpu.advanced) t n) :
  Yields (serveCall v (some call)) m t n
  := by
  have hne : some call ≠ some .nextExit := by
    intro hs
    apply hcall (Option.some.inj hs)
  rw [serveCall, if_neg hne, serveAdvanced]
  exact (yields_advance hc h hf).bind hx

theorem yields_serveAdvanced (hx : Yields (serve v call) (m.mapVCpu v VCpu.advanced) t n) :
  Yields (serveCall v (some call)) m t n
  := by
  apply yields_serveCall hcall hc h hf
  intro j
  obtain ⟨j', hj⟩ := hx j
  use j'
  rw [completing, hj]

end

end Machine

end ExitRelay
