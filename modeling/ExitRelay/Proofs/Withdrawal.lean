import ExitRelay.Proofs.Heeding

/-!
# Listeners that have left

A listener that switches a control of a target off, and is told that it has succeeded, holds
no event of the target any more that the control covers: the event is taken from it before it
is taken out of the listeners, and the rest of its call queues none.  Whoever still holds an
event of a processor is therefore one of its listeners.
-/

namespace ExitRelay

namespace Effect

/-- The effects of a call before it switches controls: the registers of the caller stay as
they are, no listener is taken out, and no event is queued. -/
def preliminary (caller : Vpid) : Set Effect :=
  loyal ∩ withoutResults caller

theorem routine_subset_preliminary (caller : Vpid) :
  routine ⊆ preliminary caller
  := Set.subset_inter (routine_subset_plain.trans plain_subset_loyal)
    routine_subset_withoutResults

theorem misdirect_mem_preliminary (caller : Vpid) :
  .misdirect caller ∈ preliminary caller
  := ⟨trivial, fun _ => Effect.noConfusion⟩

theorem advance_mem_preliminary (caller : Vpid) :
  .vcpu caller .advance ∈ preliminary caller
  := ⟨trivial, fun _ he => VCpu.Effect.noConfusion (Effect.vcpu.inj he).2⟩

end Effect

namespace Machine

variable {m : Machine} {gone : List Vpid} {caller target : Vpid} {control : Control}

section

variable {c : VCpu} (h : Heeded gone m)

include h

/-- After controls have been switched, the caller holds no event of a control that has been
switched off. -/
theorem settled_switchControls {mask value : UInt64}
    (hmask : Word.bit mask control.position = true)
    (hvalue : Word.bit value control.position = false) (controls : List Control)
    (hmem : control ∈ controls) :
  Ends (switchControls caller target mask value controls) m
    (fun _ => Settled caller target control) (fun _ _ => True)
  := by
  have hp := Effect.routine_subset_queueless
  induction controls generalizing m with
  | nil => exact absurd hmem List.not_mem_nil
  | cons head controls ih =>
      rw [switchControls]
      rcases List.mem_cons.mp hmem with rfl | hmem
      · rw [switchControl, if_pos hmask, hvalue, if_neg Bool.false_ne_true]
        apply Ends.bind (ends_unsubscribe h caller target control).forget
        rintro _ n ⟨hn, hs⟩
        apply Ends.imp (walks_switchControls hp caller target mask value controls
          (fun _ => trivial) hn.agrees.trusts (settleable trivial _))
        · intro _ l hl
          exact hs.path hl
        · intro k hk
          cases k with
          | broker w k => exact False.elim hk
          | _ => trivial
      · apply Ends.bind (keeps_switchControl (framed_heeded gone) (fun target control n hn =>
          (ends_unsubscribe hn caller target control).mono (fun _ _ h => h.1) (fun _ _ h => h))
          mask value head m h).forget
        intro _ n hn
        apply ih hn hmem

theorem settled_setControls (hc : m.vcpu? caller = some c)
    (hmask : Word.bit c.regs.r14 control.position = true)
    (hvalue : Word.bit c.regs.r13 control.position = false) :
  Ends (setControls caller target control.field) m (fun _ => Settled caller target control)
    (fun _ _ => True)
  := by
  have hI := framed_heeded gone
  have hregs : (liftM (registers caller) : CallM Registers) m = .ok c.regs m := by
    change (registers caller).adaptExcept Status.ofSysError m = _
    rw [EStateM.adaptExcept, registers_eq hc]
  rw [setControls_eq]
  apply Ends.bind_ok hregs
  simp only
  split
  · apply Ends.bind (Q := fun _ => Heeded gone)
    · apply Ends.adaptExcept
      apply (hI.walks _ h).forget
      apply walks_withVmcs hI.routine h.agrees.trusts
      intro l hl
      apply remains_vmread hI.routine hl
    · intro old n hn
      apply (settled_switchControls hn hmask hvalue _ (ControlField.mem_controls.mpr rfl)).bind
      intro _ l hl
      exact Ends.pure hl
  · apply Ends.bind_last
    intro _ _
    exact Ends.error rfl trivial

section

variable (hc : m.vcpu? caller = some c)
  (ht : m.target? caller c.regs.r11 = some target)
  (hf : ControlField.ofEncoding? c.regs.r12 = some control.field)
  (hmask : Word.bit c.regs.r14 control.position = true)
  (hvalue : Word.bit c.regs.r13 control.position = false)

include hc ht hf hmask hvalue

/-- The call finds the registers and the target as they were when it was made. -/
theorem settled_writeControls {n : Machine} (hn : Path (Effect.preliminary caller) m n) :
  Ends (writeControls caller) n (fun _ => Settled caller target control) (fun _ _ => True)
  := by
  apply ends_writeControls (Effect.routine_subset_preliminary caller)
    (.inr (Effect.misdirect_mem_preliminary caller)) (fun _ _ _ => trivial)
  intro c' target' field l hl hc' ht' hf'
  have hpath : Path (Effect.preliminary caller) m l := hn.trans hl.1
  have hregs := (hpath.mono Set.inter_subset_right).regs
  rw [hc, hc', Option.map_some, Option.map_some] at hregs
  have hregs := Option.some.inj hregs
  rw [hpath.target?, hregs, ht] at ht'
  rw [hregs, hf] at hf'
  obtain rfl := Option.some.inj ht'
  obtain rfl := Option.some.inj hf'
  rw [← hregs] at hmask hvalue
  have h₁ : Heeded gone l := (framed_heeded gone).path (hpath.mono Set.inter_subset_left) h
  apply Ends.bind (Q := fun _ => Settled caller target control)
  · apply ends_notingFailure
    apply settled_setControls h₁ hc' hmask hvalue
  · intro old l' hl'
    have hq : Walks Effect.queueless (succeed caller fun regs => { regs with r10 := old }) l' :=
      (remains_succeed Effect.routine_subset_queueless (Registers.setsResults_r10 old)
        fun _ => trivial).walks
    apply Ends.adaptExcept
    apply Ends.imp hq
    intro _ _ hs
    exact hl'.path hs

/-- A caller that has switched a control off with success holds none of its events. -/
theorem settled_handleHypercall (hcall : m.call? caller = some .vmwrite) :
  Ends (handleHypercall caller) m
    (fun _ n => n.Reports caller .success → Settled caller target control n) (fun _ _ => True)
  := by
  have hp := Effect.routine_subset_preliminary caller
  apply ends_handleHypercall_of_serveCall h.agrees (fun _ _ => trivial)
  · intro hnone
    rw [hcall] at hnone
    exact absurd hnone (Option.some_ne_none _)
  · intro n₁ h₁ _ _
    rw [hcall, serveCall, if_neg (by decide), serveAdvanced.eq_def]
    apply Ends.bind (remains_advance hp (.inr (Effect.misdirect_mem_preliminary caller))
      (Effect.advance_mem_preliminary caller)).forget
    intro _ n₂ h₂
    have hserve : Ends (serve caller .vmwrite) n₂ (fun _ => Settled caller target control)
        (fun _ _ => True) := by
      apply (settled_writeControls h hc ht hf hmask hvalue ((h₁.mono hp).trans h₂.1)).bind
      intro _ _ hn
      exact Ends.pure hn
    apply ends_completing
    apply (hserve.and (candid_serve caller .vmwrite n₂)).mono
    · intro t n hn _
      exact hn.1
    · intro status n hn
      apply (reports_fail caller status).imp
      intro _ l hl hsuccess
      exact absurd (hl.eq hsuccess) hn.2
  · intro t n n' hn' hn
    refine ⟨?_, trivial⟩
    intro hsuccess
    apply (hn _).path (hn'.mono Effect.routine_subset_queueless)
    apply (hn'.mono Effect.routine_subset_withoutResults).reports_iff.mp hsuccess

end

end

/-- Whoever holds an event of a registered processor is a listener for it, in every machine
that a new one comes to without registering anybody again who is gone, whatever fails.  So a
listener that has switched a control of a target off with success holds no event of the
target that the control covers. -/
theorem holder_listens (h : History gone m) :
  (∀ l e, e ∈ m.slot l → m.isRegistered e.origin = true →
      l ∈ (m.listeners e.origin e.reason).members) ∧
    ∀ (l target : Vpid) (c : VCpu) (control : Control) (o : Operation) (t : Transfer)
        (n : Machine),
      m.vcpu? l = some c → m.call? l = some .vmwrite →
      m.target? l c.regs.r11 = some target →
      ControlField.ofEncoding? c.regs.r12 = some control.field →
      Word.bit c.regs.r14 control.position = true →
      Word.bit c.regs.r13 control.position = false →
      o.caller? = some l → o.EndsIn m t n → n.Reports l .success →
      ∀ e ∈ n.slot l, e.origin = target → control.covers e.reason = false
  := by
  have hm := h.heeded
  constructor
  · intro l e he ho
    exact hm.heeds he ho
  · intro l target c control o t n hc hcall ht hf hmask hvalue ho hx hsuccess
    have hend := settled_handleHypercall hm hc ht hf hmask hvalue hcall
    rw [Ends, handleHypercall_of_endsIn ho hx] at hend
    exact hend hsuccess

/-- A processor subscribes to the moves to CR3 of another one and is told of such a move.  It
unsubscribes, and then it holds nothing. -/
theorem holder_listens_until_unsubscribed :
  let caller : VCpu := { regs := {
    rax := 0x60003, r11 := 1, r12 := 0x4002, r13 := 0x8000, r14 := 0x8000 } }
  let leaving : Registers := { rax := 0x60003, r11 := 1, r12 := 0x4002, r14 := 0x8000 }
  let both := (Operation.add 2 caller).run ((Operation.add 1 {}).run {})
  let subscribed := (Operation.hypercall 2).run both
  let trapped := (Operation.exit 1 { reason := .crAccess, qualification := 3 }).run subscribed
  let asking := (Operation.guest 2 leaving {}).run trapped
  let left := (Operation.hypercall 2).run asking
  2 ∈ (trapped.listeners 1 .cr3Load).members ∧
    ∀ e ∈ left.slot 2, e.origin = 1 → Control.cr3LoadExiting.covers e.reason = false
  := by
  intro caller leaving both subscribed trapped asking left
  have h₀ : History [] {} := .new ⟨rfl, rfl⟩
  have h₁ : History [] both :=
    (h₀.step (o := .add 1 {}) List.not_mem_nil).step (o := .add 2 caller) List.not_mem_nil
  have h₂ : History [] subscribed := h₁.step (o := .hypercall 2) trivial
  have h₃ : History [] trapped :=
    h₂.step (o := .exit 1 { reason := .crAccess, qualification := 3 }) trivial
  have h₄ : History [] asking := h₃.step (o := .guest 2 leaving {}) trivial
  constructor
  · have hs : trapped.slot 2 = [⟨1, .cr3Load, 0, 0⟩] := by
      decide +kernel
    apply (holder_listens h₃).1 2 ⟨1, .cr3Load, 0, 0⟩
    · rw [hs]
      apply List.mem_singleton_self
    · decide +kernel
  · have hx : (Operation.hypercall 2).EndsIn asking (.run 2) left :=
      endsIn_hypercall (by decide +kernel)
    have hcall : asking.call? 2 = some .vmwrite := by
      decide +kernel
    have htarget : asking.target? 2 1 = some 1 := by
      decide +kernel
    have hsuccess : (left.vcpu? 2).map (·.regs.rax) = some Status.success.code := by
      decide +kernel
    have hregs : (asking.vcpu? 2).map (·.regs) = some leaving := by
      decide +kernel
    obtain ⟨c, hc, hregs⟩ := Option.map_eq_some_iff.mp hregs
    apply (holder_listens h₄).2 2 1 c .cr3LoadExiting (.hypercall 2) (.run 2) left hc hcall
    · rw [hregs]
      exact htarget
    · rw [hregs]
      rfl
    · rw [hregs]
      change Word.bit 0x8000 15 = true
      decide
    · rw [hregs]
      change Word.bit 0 15 = false
      decide
    · rfl
    · exact hx
    · exact hsuccess

end Machine

end ExitRelay
