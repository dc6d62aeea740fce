import ExitRelay.Proofs.Transfer

/-!
# The translation of traps

A trap is translated into the event that its listeners are told of.  `Translates` says what the
event is for each kind of trap and each qualification, and what the trap has done to the
processor when listeners are told: a move to CR3 has been carried out, and single-stepping is
switched on again.  If there is a listener, the processor is then stopped and is otherwise left
alone.  If there is none, the control that caused the trap is switched off, and the processor
goes on: behind the instruction after a move to CR3 or a single step, and with the same
instruction after an access to memory.
-/

namespace ExitRelay

open Machine (noFlushHint)

/-- The register with a number holds a value.  The number 4 stands for the stack pointer, which
the control structure holds. -/
inductive VCpu.Provides (c : VCpu) : UInt64 → UInt64 → Prop where
  | stackPointer : Provides c 4 (c.vmcs.read Field.rsp)
  | general (r : Register) : Provides c r.number.toUInt64 (c.regs.get r)

/-- The event tells where the instruction pointer of a processor stands. -/
def ExitEvent.TellsWhere (e : ExitEvent) (c : VCpu) (v : Vpid) (reason : ExitReason) : Prop :=
  e = ⟨v, reason, c.vmcs.read Field.rip + VcpuM.translationOffset, c.vmcs.read Field.rip⟩

/-- What a trap of a processor in the state `c` amounts to: the control that has caused it, the
event, and the processor when its listeners are told. -/
inductive Translates (v : Vpid) (c : VCpu) : HardwareExit → Control → ExitEvent → VCpu → Prop
    where
  /-- Bits 0 to 3 name the control register, bits 4 and 5 tell a move to it from other
  accesses, and bits 8 to 11 name the register that is moved. -/
  | cr3Write {q w : UInt64} (hregister : Word.slice q 0 4 = 3) (hmove : Word.slice q 4 2 = 0)
      (hw : c.Provides (Word.slice q 8 4) w) :
      Translates v c { reason := .crAccess, qualification := q } .cr3LoadExiting
        ⟨v, .cr3Load, w &&& ~~~noFlushHint, c.vmcs.read Field.cr3⟩
        (c.written Field.cr3 (w &&& ~~~noFlushHint))
  | eptWrite {q : UInt64} {e : ExitEvent} (hwrite : Word.bit q 1 = true)
      (he : e.TellsWhere c v .eptWrite) :
      Translates v c { reason := .eptViolation, qualification := q } .eptViolation e c
  | eptExecute {q : UInt64} {e : ExitEvent} (hwrite : Word.bit q 1 = false)
      (hexecute : Word.bit q 2 = true) (he : e.TellsWhere c v .eptExecute) :
      Translates v c { reason := .eptViolation, qualification := q } .eptViolation e c
  | eptRead {q : UInt64} {e : ExitEvent} (hwrite : Word.bit q 1 = false)
      (hexecute : Word.bit q 2 = false) (he : e.TellsWhere c v .eptRead) :
      Translates v c { reason := .eptViolation, qualification := q } .eptViolation e c
  | monitorTrap {q : UInt64} {e : ExitEvent} (he : e.TellsWhere c v .monitorTrap) :
      Translates v c { reason := .monitorTrapFlag, qualification := q } .monitorTrapFlag e
        (c.switched .monitorTrapFlag true)

/-- The exit is a trap: a move to CR3, an access that the extended page tables do not allow, or a
single step. -/
inductive HardwareExit.IsTrap : HardwareExit → Prop where
  | cr3Write {q : UInt64} (hregister : Word.slice q 0 4 = 3) (hmove : Word.slice q 4 2 = 0) :
      IsTrap { reason := .crAccess, qualification := q }
  | eptViolation {q : UInt64} : IsTrap { reason := .eptViolation, qualification := q }
  | monitorTrap {q : UInt64} : IsTrap { reason := .monitorTrapFlag, qualification := q }

variable {v : Vpid} {c : VCpu} {x : HardwareExit} {e : ExitEvent} {control : Control}

/-! ### Reading qualifications -/

theorem toUInt64_toUInt8_slice (q : UInt64) (low : Nat) {length : Nat} (h : length ≤ 8) :
  (Word.slice q low length).toUInt8.toUInt64 = Word.slice q low length
  := by
  have hlt := Word.slice_lt q low length
  have hle : 1 <<< length ≤ 256 := by
    rw [Nat.one_shiftLeft]
    exact Nat.pow_le_pow_right (by decide) h
  apply UInt64.toNat.inj
  rw [UInt8.toNat_toUInt64, UInt64.toNat_toUInt8]
  apply Nat.mod_eq_of_lt
  omega

/-- The exit is a move to CR3 exactly if its bits say so. -/
theorem isCr3Write_iff (q : UInt64) :
  (CrAccess.ofQualification q).isCr3Write = true ↔
    Word.slice q 0 4 = 3 ∧ Word.slice q 4 2 = 0
  := by
  rw [CrAccess.isCr3Write, Bool.and_eq_true, decide_eq_true_eq, decide_eq_true_eq,
    ← UInt8.toUInt64_inj, ← UInt8.toUInt64_inj, CrAccess.ofQualification,
    toUInt64_toUInt8_slice q 0 (by decide), toUInt64_toUInt8_slice q 4 (by decide)]
  rfl

/-- Every number that a qualification can hold names a register. -/
theorem provides_moveSource (c : VCpu) (q : UInt64) :
  c.Provides (Word.slice q 8 4)
    (c.moveSource (CrAccess.ofQualification q).generalRegister)
  := by
  rw [← toUInt64_toUInt8_slice q 8 (by decide)]
  change c.Provides (CrAccess.ofQualification q).generalRegister.toUInt64 _
  rw [VCpu.moveSource]
  split
  · rename_i h4
    rw [h4]
    exact .stackPointer
  · rename_i h4
    obtain ⟨r, hr⟩ := Register.exists_ofNumber? (CrAccess.generalRegister_lt q) h4
    rw [hr, ← Register.number_of_ofNumber? hr]
    exact .general r

/-- The register that a qualification names holds one value. -/
theorem VCpu.Provides.eq_moveSource {q w : UInt64} (h : c.Provides (Word.slice q 8 4) w) :
  w = c.moveSource (CrAccess.ofQualification q).generalRegister
  := by
  have hnumber : ∀ i : UInt8, Word.slice q 8 4 = i.toUInt64 →
      (CrAccess.ofQualification q).generalRegister = i := by
    intro i hi
    change (Word.slice q 8 4).toUInt8 = i
    rw [hi, UInt8.toUInt8_toUInt64]
  generalize hi : Word.slice q 8 4 = i at h
  cases h with
  | stackPointer =>
      rw [hnumber 4 hi]
      rfl
  | general r =>
      rw [hnumber r.number hi, moveSource, if_neg, Register.ofNumber?_number]
      · rfl
      · cases r <;> decide

/-- The event of an access to memory follows the bits of its qualification: a write comes before
a fetch, and a fetch before a read. -/
theorem translates_eptViolation (v : Vpid) (c : VCpu) (q : UInt64) :
  Translates v c { reason := .eptViolation, qualification := q } .eptViolation
    (c.instructionEvent v (EptViolation.ofQualification q).reason) c
  := by
  rw [EptViolation.reason]
  split
  · rename_i hwrite
    exact .eptWrite hwrite rfl
  · rename_i hwrite
    rw [Bool.not_eq_true] at hwrite
    split
    · rename_i hexecute
      exact .eptExecute hwrite hexecute rfl
    · rename_i hexecute
      rw [Bool.not_eq_true] at hexecute
      exact .eptRead hwrite hexecute rfl

/-- The event of an access to memory has the reason that the access has. -/
theorem event?_eptViolation {q : UInt64} {reason : ExitReason} (he : e.TellsWhere c v reason)
    (hr : (EptViolation.ofQualification q).reason = reason) :
  HardwareExit.event? { reason := .eptViolation, qualification := q } v c = some e
  := by
  rw [he, ← hr]
  rfl

/-- Every trap has an event, which is the one that its qualification tells. -/
theorem HardwareExit.IsTrap.exists_translates (h : x.IsTrap) (v : Vpid) (c : VCpu) :
  ∃ control e, x.event? v c = some e ∧ Translates v c x control e (x.trapped c)
  := by
  cases h with
  | @cr3Write q hregister hmove =>
      refine ⟨.cr3LoadExiting, _, ?_, .cr3Write hregister hmove (provides_moveSource c q)⟩
      rw [HardwareExit.event?, if_neg Bool.false_ne_true]
      exact if_pos ((isCr3Write_iff q).mpr ⟨hregister, hmove⟩)
  | @eptViolation q => exact ⟨.eptViolation, _, rfl, translates_eptViolation v c q⟩
  | monitorTrap => exact ⟨.monitorTrapFlag, _, rfl, .monitorTrap rfl⟩

namespace Translates

variable {c' : VCpu}

/-- There is one event that a trap amounts to, and one state of the processor. -/
theorem event?_and_trapped (h : Translates v c x control e c') :
  x.event? v c = some e ∧ c' = x.trapped c
  := by
  cases h with
  | @cr3Write q _ hregister hmove hw =>
      obtain rfl := hw.eq_moveSource
      refine ⟨?_, rfl⟩
      rw [HardwareExit.event?, if_neg Bool.false_ne_true]
      exact if_pos ((isCr3Write_iff q).mpr ⟨hregister, hmove⟩)
  | eptWrite hwrite he => exact ⟨event?_eptViolation he (if_pos hwrite), rfl⟩
  | eptExecute hwrite hexecute he =>
      refine ⟨event?_eptViolation he ?_, rfl⟩
      exact (if_neg (ne_true_of_eq_false hwrite)).trans (if_pos hexecute)
  | eptRead hwrite hexecute he =>
      refine ⟨event?_eptViolation he ?_, rfl⟩
      exact (if_neg (ne_true_of_eq_false hwrite)).trans (if_neg (ne_true_of_eq_false hexecute))
  | monitorTrap he =>
      rw [he]
      exact ⟨rfl, rfl⟩

/-- The control that has caused a trap covers the reason of its event. -/
theorem covers (h : Translates v c x control e c') :
  control.covers e.reason = true
  := by
  cases h with
  | cr3Write => rfl
  | eptWrite _ he =>
      rw [he]
      rfl
  | eptExecute _ _ he =>
      rw [he]
      rfl
  | eptRead _ _ he =>
      rw [he]
      rfl
  | monitorTrap he =>
      rw [he]
      rfl

/-- A trap leaves the registers of the processor alone and neither stops it nor lets it go
on. -/
theorem regs_and_paused (h : Translates v c x control e c') :
  c'.regs = c.regs ∧ c'.paused = c.paused
  := by
  cases h with
  | cr3Write => exact ⟨rfl, rfl⟩
  | monitorTrap => exact ⟨rfl, rfl⟩
  | _ => exact ⟨rfl, rfl⟩

/-- A move to CR3 is carried out, single-stepping is switched on again, and no other field of
the control structure changes. -/
theorem read (h : Translates v c x control e c') (f : Field) :
  c'.vmcs.read f =
    if f = Field.cr3 ∧ control = .cr3LoadExiting then e.data0
    else if f = Field.primaryControls ∧ control = .monitorTrapFlag then
      c.vmcs.read f ||| Control.monitorTrapFlag.mask
    else c.vmcs.read f
  := by
  cases h with
  | cr3Write => simp [VCpu.written, Vmcs.read_write]
  | monitorTrap =>
      rw [if_neg fun h => Control.noConfusion h.2]
      by_cases hf : f = Field.primaryControls
      · rw [if_pos ⟨hf, rfl⟩, hf]
        exact VCpu.read_switched_self
      · rw [if_neg fun h => hf h.1]
        exact VCpu.read_switched hf
  | _ => simp

end Translates

/-! ### What becomes of the processor -/

/-- Bits that are set and then cleared are cleared. -/
theorem or_and_not_self (a b : UInt64) :
  (a ||| b) &&& ~~~b = a &&& ~~~b
  := by
  have h : (a ||| b) &&& ~~~b = a &&& ~~~b ||| b &&& ~~~b :=
    UInt64.eq_of_toBitVec_eq BitVec.and_or_distrib_right
  rw [h, UInt64.and_not_self, UInt64.or_zero]

/-- The control is switched off, and the processor goes on behind the instruction if the control
says so. -/
theorem VCpu.read_unheard (control : Control) (c : VCpu) (f : Field) :
  (c.unheard control).vmcs.read f =
    if f = control.field.encoding then c.vmcs.read f &&& ~~~control.mask
    else if f = Field.rip ∧ control.skips = true then
      c.vmcs.read f + VcpuM.instructionLength
    else c.vmcs.read f
  := by
  have hrip := control.field.encoding_ne_rip
  rw [unheard]
  split
  · rename_i hskips
    by_cases hf : f = control.field.encoding
    · subst f
      rw [if_pos rfl, read_advanced hrip, read_switched_self, if_neg Bool.false_ne_true]
    · rw [if_neg hf]
      by_cases hr : f = Field.rip
      · subst f
        rw [if_pos ⟨rfl, hskips⟩, read_advanced_rip, read_switched hf]
      · rw [if_neg fun h => hr h.1, read_advanced hr, read_switched hf]
  · rename_i hskips
    by_cases hf : f = control.field.encoding
    · subst f
      rw [if_pos rfl, read_switched_self, if_neg Bool.false_ne_true]
    · rw [if_neg hf, if_neg fun h => hskips h.2, read_switched hf]

/-- The processor `c` has been stopped at a trap, and a listener is told the event: a move to CR3
has been carried out, single-stepping is switched on again, and nothing else has changed. -/
structure StoppedAt (control : Control) (e : ExitEvent) (c d : VCpu) : Prop where
  paused : d.paused = true
  regs : d.regs = c.regs
  read : ∀ f, d.vmcs.read f =
    if f = Field.cr3 ∧ control = .cr3LoadExiting then e.data0
    else if f = Field.primaryControls ∧ control = .monitorTrapFlag then
      c.vmcs.read f ||| Control.monitorTrapFlag.mask
    else c.vmcs.read f

/-- The processor `c` goes on after a trap that nobody has heard of: the control that has caused
the trap is switched off, a move to CR3 has been carried out, the processor is behind the
instruction unless this has tried an access to memory, and nothing else has changed. -/
structure GoneOn (control : Control) (e : ExitEvent) (c d : VCpu) : Prop where
  paused : d.paused = c.paused
  regs : d.regs = c.regs
  read : ∀ f, d.vmcs.read f =
    if f = control.field.encoding then c.vmcs.read f &&& ~~~control.mask
    else if f = Field.cr3 ∧ control = .cr3LoadExiting then e.data0
    else if f = Field.rip ∧ control ≠ .eptViolation then
      c.vmcs.read f + VcpuM.instructionLength
    else c.vmcs.read f

namespace Translates

variable {c' : VCpu}

theorem stoppedAt (h : Translates v c x control e c') :
  StoppedAt control e c (c'.withPaused true)
  := ⟨rfl, h.regs_and_paused.1, h.read⟩

theorem goneOn (h : Translates v c x control e c') :
  GoneOn control e c (c'.unheard control)
  := by
  obtain ⟨hregs, hpaused⟩ := h.regs_and_paused
  constructor
  · rw [← hpaused]
    cases control <;> rfl
  · rw [← hregs]
    cases control <;> rfl
  · intro f
    rw [VCpu.read_unheard, h.read f]
    cases control with
    | cr3LoadExiting =>
        by_cases hf : f = Field.primaryControls
        · subst f
          rfl
        · by_cases hr : f = Field.cr3
          · subst f
            rfl
          · simp [hr, Control.skips]
    | monitorTrapFlag =>
        by_cases hf : f = Field.primaryControls
        · subst f
          exact or_and_not_self _ _
        · simp [hf, Control.skips]
    | eptViolation => simp [Control.skips]

end Translates

namespace Machine

variable {m n : Machine} {l : Vpid} {rest : List Vpid}

section

variable (h : m.Agrees) (hf : m.Flawless) (hc : m.vcpu? v = some c)
  (he : x.event? v c = some e)

include h hf hc he

/-- The first listener of a trap is told its event, unless it is gone or has not answered an
earlier one, and the processor is stopped. -/
theorem exists_handleExit_told (hl : (m.listeners v e.reason).members = l :: rest)
    (hr : m.isRegistered l = true) (hs : m.slot l = []) :
  ∃ n, handleExit v x m = .ok (some (.run l)) n ∧
    (∀ w, n.slot w = if w = l then [e] else m.slot w) ∧
    ∀ w, n.vcpu? w = if w = v then some ((x.trapped c).withPaused true) else m.vcpu? w
  := by
  obtain ⟨j, hj⟩ := (yields_handleExit_told h hf hc he hl hr hs).eq_ok
  obtain rfl := HardwareExit.origin_of_event? he
  refine ⟨_, hj, ?_, ?_⟩
  · intro w
    rw [slot_withJournal, slot_handed, slot_suspended, slot_trapped]
    · rw [isRegistered_suspended, isRegistered_trapped, hr]
    · rw [slot_suspended, slot_trapped, hs]
  · intro w
    rw [vcpu?_withJournal, vcpu?_handed]
    by_cases hw : w = e.origin
    · rw [if_pos hw, hw, vcpu?_suspended_origin, vcpu?_trapped_self hc, Option.map_some]
    · rw [if_neg hw, vcpu?_suspended_of_ne hw, vcpu?_trapped_of_ne hw]

/-- A trap for which there is no listener, or whose first listener is gone, leaves the processor
without the control that has caused it. -/
theorem exists_handleExit_unheard (hcov : control.covers e.reason = true)
    (hl : ∀ l, (m.listeners v e.reason).members.head? = some l → m.isRegistered l = false) :
  ∃ n, handleExit v x m = .ok (some (.run v)) n ∧ (∀ w, n.slot w = m.slot w) ∧
    ∀ w, n.vcpu? w = if w = v then some ((x.trapped c).unheard control) else m.vcpu? w
  := by
  obtain rfl := HardwareExit.origin_of_event? he
  obtain ⟨control', hcov', hx⟩ := exists_offer_of_event? h hf hc he
  obtain rfl : control' = control := by
    rw [← Option.some.injEq, ← Control.ofReason?_eq_some_iff.mpr hcov,
      Control.ofReason?_eq_some_iff.mpr hcov']
  have hc' : (m.trapped e.origin x).vcpu? e.origin = some (x.trapped c) := vcpu?_trapped_self hc
  have hn := yields_notify_none (isRegistered_iff_vcpu?.mpr ⟨_, hc'⟩) (e := e) (by
    intro l hh
    rw [listeners_trapped] at hh
    rw [isRegistered_trapped, hl l hh])
  have hc'' : ((m.trapped e.origin x).mapBroker e.origin
      (Broker.Effect.first e.reason).apply).vcpu? e.origin = some (x.trapped c) := by
    rw [vcpu?_mapBroker, hc']
  have hd : (x.trapped c).faults.Dependable := by
    rw [HardwareExit.faults_trapped]
    exact hf.dependable _ c hc
  obtain ⟨j, hj⟩ := (hx _ _ (yields_offer_none hn hc'' rfl hd control' control'.skips)).eq_ok
  refine ⟨_, hj, ?_, ?_⟩
  · intro w
    rw [slot_withJournal, slot_mapVCpu, slot_mapBroker_of_pending, slot_trapped]
    intro b
    rfl
  · intro w
    rw [vcpu?_withJournal]
    by_cases hw : w = e.origin
    · rw [if_pos hw, hw, vcpu?_mapVCpu_of_some hc'']
      rfl
    · rw [if_neg hw, vcpu?_mapVCpu_of_ne _ hw, vcpu?_mapBroker, vcpu?_trapped_of_ne hw]

end

/-- If nothing fails, every exit of a registered processor is handled or declined, so no number of
a register is ever out of range.  Every trap amounts to one event, which is the one that its
qualification tells.  If the first listener for it is registered and has no event, this event is
queued for it and nothing else is, and the processor is stopped where it was.  If there is no
listener, or the first one is gone, no event is queued, and the processor goes on without the
control that has caused the trap. -/
theorem trap_translated (h : m.Agrees) (hf : m.Flawless) (hc : m.vcpu? v = some c) :
  (∀ x, ∃ t n, handleExit v x m = .ok t n) ∧
  (∀ x : HardwareExit, x.IsTrap → ∃ control e c', Translates v c x control e c') ∧
  ∀ x control e c', Translates v c x control e c' →
    (∀ l rest, (m.listeners v e.reason).members = l :: rest → m.isRegistered l = true →
      m.slot l = [] →
      ∃ n d, handleExit v x m = .ok (some (.run l)) n ∧
        (∀ w, n.slot w = if w = l then [e] else m.slot w) ∧
        (∀ w, n.vcpu? w = if w = v then some d else m.vcpu? w) ∧ StoppedAt control e c d) ∧
    ((∀ l, (m.listeners v e.reason).members.head? = some l → m.isRegistered l = false) →
      ∃ n d, handleExit v x m = .ok (some (.run v)) n ∧
        (∀ w, n.slot w = m.slot w) ∧
        (∀ w, n.vcpu? w = if w = v then some d else m.vcpu? w) ∧ GoneOn control e c d)
  := by
  refine ⟨exists_handleExit h hf (isRegistered_iff_vcpu?.mpr ⟨c, hc⟩), ?_, ?_⟩
  · intro x hx
    obtain ⟨control, e, -, ht⟩ := hx.exists_translates v c
    exact ⟨control, e, _, ht⟩
  · intro x control e c' ht
    obtain ⟨he, rfl⟩ := ht.event?_and_trapped
    constructor
    · intro l rest hl hr hs
      obtain ⟨n, hx, hslot, hvcpu⟩ := exists_handleExit_told h hf hc he hl hr hs
      exact ⟨n, _, hx, hslot, hvcpu, ht.stoppedAt⟩
    · intro hl
      obtain ⟨n, hx, hslot, hvcpu⟩ := exists_handleExit_unheard h hf hc he ht.covers hl
      exact ⟨n, _, hx, hslot, hvcpu, ht.goneOn⟩

/-- A processor moves its stack pointer to CR3, with the hint set, and another one listens. -/
theorem trap_translated_of_stackPointer :
  let c : VCpu := { vmcs := Vmcs.initial.write Field.rsp 0x8000_0000_0000_5000 }
  let set : ListenerSet := { members := [2], cursor := some 0 }
  let m : Machine := (({} : Machine).hosting 1 ⟨c, { registry := { cr3Load := set } }⟩).hosting 2
    ⟨{}, {}⟩
  let x : HardwareExit := { reason := .crAccess, qualification := 0x403 }
  ∃ n d, handleExit 1 x m = .ok (some (.run 2)) n ∧
    n.slot 2 = [⟨1, .cr3Load, 0x5000, 0⟩] ∧ n.vcpu? 1 = some d ∧
    d.paused = true ∧ d.vmcs.read Field.rip = c.vmcs.read Field.rip
  := by
  intro c set m x
  have hm : m.Agrees := agrees_of_loaded rfl
  have hf : m.Flawless := by
    apply Flawless.hosting _ 2 rfl
    apply Flawless.hosting _ 1 rfl
    exact guarantees_of_residents rfl
  have hc : m.vcpu? 1 = some c :=
    (vcpu?_hosting_of_ne _ _ (by decide)).trans (vcpu?_hosting_self _ _ _)
  obtain ⟨-, hexists, htrap⟩ := trap_translated hm hf hc
  obtain ⟨control, e, c', ht⟩ := hexists x (.cr3Write (by decide +kernel) (by decide +kernel))
  obtain rfl : e = ⟨1, .cr3Load, 0x5000, 0⟩ := by
    apply Option.some.inj
    rw [← ht.event?_and_trapped.1]
    decide +kernel
  obtain ⟨n, d, hn, hslot, hvcpu, hstopped⟩ :=
    (htrap x control _ c' ht).1 2 [] (by decide +kernel) (by decide +kernel) (by decide +kernel)
  refine ⟨n, d, hn, ?_, ?_, hstopped.paused, ?_⟩
  · rw [hslot, if_pos rfl]
  · rw [hvcpu, if_pos rfl]
  · rw [hstopped.read]
    rfl

end Machine

end ExitRelay
