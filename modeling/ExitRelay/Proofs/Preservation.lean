import ExitRelay.Proofs.Footprint.Exit

/-!
# Invariants of calls and exits

Most of what a handler does neither stops a processor nor lets it go on, and neither moves an
event nor takes a listener out: these effects are plain.  An invariant that the plain effects
keep is kept by the handling of every exit if it is kept where something else is done: where
an event is offered, where one is answered, and where a listener unsubscribes.
-/

namespace ExitRelay

namespace Machine

/-- The invariant holds only where the loaded processor and the hardware agree, and the
effects in the set keep it, among them all plain ones. -/
structure Framed (q : Set Effect) (I : Machine → Prop) : Prop where
  plain : Effect.plain ⊆ q
  agrees : ∀ {m}, I m → m.Agrees
  apply : ∀ {k m}, k ∈ q → k.Possible m → I m → I (k.apply m)

variable {q : Set Effect} {I J : Machine → Prop} {m n : Machine} {v caller target : Vpid}
  {ε α : Type}

namespace Framed

theorem routine (hI : Framed q I) :
  Effect.routine ⊆ q
  := Effect.routine_subset_plain.trans hI.plain

theorem aimed (hI : Framed q I) :
  Aimed q v m
  := .inr (hI.plain trivial)

theorem results (hI : Framed q I) (f : Registers → Registers) :
  .vcpu v (.results f) ∈ q
  := hI.plain trivial

theorem path (hI : Framed q I) (hp : Path q m n) (h : I m) :
  I n
  := hp.keeps (fun _ hk _ hkp hl => hI.apply hk hkp hl) h

/-- The invariant is kept along the effects that keep it. -/
theorem walks {x : EStateM ε Machine α} (hI : Framed q I) (hx : Walks q x m) (h : I m) :
  Ends x m (fun _ => I) (fun _ => I)
  := hx.ends fun _ hp => hI.path hp h

theorem remains {x : EStateM ε Machine α} (hI : Framed q I) (hx : ∀ m, Remains q x m) :
  Keeps I x
  := fun m h => hI.walks (hx m).walks h

/-- A program that reaches for a control structure trusts the record of what is loaded. -/
theorem keeps {x : EStateM ε Machine α} (hI : Framed q I) (hx : ∀ m, m.Agrees → Walks q x m) :
  Keeps I x
  := fun m h => hI.walks (hx m (hI.agrees h)) h

theorem note (hI : Framed q I) (k : Note) :
  Keeps I (note k)
  := hI.remains fun _ => remains_note hI.routine k

theorem registers (hI : Framed q I) (v : Vpid) :
  Keeps I (registers v)
  := hI.remains fun _ => remains_registers hI.routine v

/-- Unsubscribing keeps the invariant if settling a pending event and taking the listener out
do. -/
theorem keeps_unsubscribe {control : Control} (hI : Framed q I)
    (hu : .broker target (.unsubscribe control caller) ∈ q)
    (hs : Keeps I (settlePending caller target control)) :
  Keeps I (unsubscribe caller target control)
  := by
  rw [unsubscribe]
  apply Keeps.bind
  · apply Keeps.adaptExcept
    apply hI.keeps
    intro m hm
    apply walks_withVmcs hI.routine hm.trusts
    intro n hn
    apply remains_disable hI.routine hn
  · intro _
    apply (hI.note _).adaptExcept.bind
    intro _
    apply hs.adaptExcept.bind
    intro _
    apply Keeps.bind
    · apply Keeps.adaptExcept
      apply hI.remains
      intro m
      apply remains_onBroker hI.routine (.unsubscribe control caller) hu (fun _ _ => trivial)
        (fun _ => rfl)
    · intro refused
      cases refused with
      | none => exact Keeps.pure ()
      | some reason =>
          apply (hI.note _).adaptExcept.bind
          intro _
          apply Keeps.throw

end Framed

/-! ### Switching controls -/

section

variable (hI : Framed q I)
  (hu : ∀ target control, Keeps I (unsubscribe caller target control))

include hI hu

theorem keeps_switchControl (mask value : UInt64) (control : Control) :
  Keeps I (switchControl caller target mask value control)
  := by
  rw [switchControl]
  split
  · split
    · apply hI.keeps
      intro m hm
      apply walks_subscribe hI.routine hm.trusts
    · apply hu
  · apply Keeps.pure

theorem keeps_switchControls (mask value : UInt64) (controls : List Control) :
  Keeps I (switchControls caller target mask value controls)
  := by
  induction controls with
  | nil => exact Keeps.pure ()
  | cons control controls ih =>
      apply (keeps_switchControl hI hu mask value control).bind
      intro _
      exact ih

theorem keeps_setControls (field : ControlField) :
  Keeps I (setControls caller target field)
  := by
  rw [setControls_eq]
  apply (hI.registers caller).adaptExcept.bind
  intro regs
  simp only
  split
  · apply Keeps.bind
    · apply Keeps.adaptExcept
      apply hI.keeps
      intro m hm
      apply walks_withVmcs hI.routine hm.trusts
      intro l hl
      apply remains_vmread hI.routine hl
    · intro old
      apply (keeps_switchControls hI hu _ _ _).bind
      intro _
      apply Keeps.pure
  · apply Keeps.bind
    · apply Keeps.adaptExcept
      apply hI.remains
      intro m
      apply remains_noteDenied hI.routine
    · intro _
      apply Keeps.throw

theorem keeps_writeControls :
  Keeps I (writeControls caller)
  := by
  intro m h
  apply ends_writeControls hI.routine hI.aimed fun _ _ hp => hI.path hp.1 h
  intro _ target field n hn _ _ _
  have hset : Ends (setControls caller target field) n (fun _ => I) (fun _ => I) :=
    keeps_setControls hI hu field n (hI.path hn.1 h)
  apply Ends.bind (Q := fun _ => I)
  · apply ends_notingFailure
    apply hset.mono (fun _ _ hs => hs)
    intro status l hl
    apply hI.apply (k := .record (l.journal.note (.controlFailed field status)))
      (hI.plain trivial) rfl hl
  · intro old l hl
    apply Ends.adaptExcept
    apply hI.walks (Remains.walks _) hl
    apply remains_succeed hI.routine (Registers.setsResults_r10 old) hI.results

/-! ### Hypercalls -/

variable (he : Keeps I (endOfExit caller))

include he

/-- A call that takes no event has to be known for effects that keep the invariant. -/
theorem keeps_serve {call : Call} (hcall : ¬ call.Takes → call.effects caller ⊆ q) :
  Keeps I (serve caller call)
  := by
  by_cases ht : call.Takes
  · obtain rfl | rfl := ht
    · apply he.adaptExcept
    · apply (keeps_writeControls hI hu).bind
      intro _
      apply Keeps.pure
  · apply hI.keeps
    intro m hm
    apply walks_serve hI.routine hm.trusts hI.aimed hI.results (hcall ht)

theorem keeps_serveCall {call : Option Call}
    (hcall : ∀ c, call = some c → ¬ c.Takes → c.effects caller ⊆ q) :
  Keeps I (serveCall caller call)
  := by
  rw [serveCall]
  split
  · apply hI.keeps
    intro m _
    apply walks_serveNextExit hI.routine hI.aimed (hI.plain trivial) hI.results
  · rw [serveAdvanced.eq_def]
    apply Keeps.bind
    · apply hI.remains
      intro m
      apply remains_advance hI.routine hI.aimed (hI.plain trivial)
    · intro _ m hm
      have hfail : ∀ status n, I n → Ends (fail caller status) n (fun _ => I) (fun _ => I) :=
        fun status _ hn => hI.walks (walks_fail hI.routine hI.results status) hn
      apply ends_completing
      cases call with
      | none => exact hfail _ m hm
      | some call =>
          apply (keeps_serve hI hu he (hcall call rfl) m hm).mono (fun _ _ hs => hs) hfail

/-- A hypercall keeps the invariant, whichever way it ends. -/
theorem ends_handleHypercall_framed (h : I m)
    (hcall : ∀ c, m.call? caller = some c → ¬ c.Takes → c.effects caller ⊆ q) :
  Ends (handleHypercall caller) m (fun _ => I) (fun _ => I)
  := by
  have hp : ∀ {n n'}, Path Effect.routine n n' → I n → I n' := fun hp hn =>
    hI.path (hp.mono hI.routine) hn
  apply ends_handleHypercall_of_serveCall (Q := fun _ => I) (hI.agrees h) (fun _ hn => hp hn h)
    (fun _ => h)
  · intro n hn _ _
    apply keeps_serveCall hI hu he hcall n (hp hn h)
  · intro _ _ _ hn h
    exact ⟨hp hn h, hp hn h⟩

end

/-! ### Traps -/

/-- Exits for the reason may be traps. -/
def MayTrap (reason : BasicReason) : Prop :=
  reason = .crAccess ∨ reason = .eptViolation ∨ reason = .monitorTrapFlag

/-- Without a listener nothing but plain effects follow. -/
theorem ends_offer_framed {e : ExitEvent} (hI : Framed q I)
    (hn : Ends (notify e) m (fun _ => I) (fun _ => I)) (control : Control) (skip : Bool) :
  Ends (offer control e skip) m (fun _ => I) (fun _ => I)
  := by
  rw [offer]
  apply hn.bind
  intro t n hn
  cases t with
  | some t => exact hn
  | none => exact hI.walks (walks_unheard hI.routine hI.aimed (hI.plain trivial) control skip) hn

section

variable {E : Machine → Prop} (hJ : Framed q J) (hJE : ∀ m, J m → E m)

include hJ hJE

/-- What a program does before an event is offered keeps the invariant that holds then. -/
theorem Framed.leads {x : EStateM ε Machine α} (hx : Walks q x m) (h : J m) :
  Ends x m (fun _ => J) (fun _ => E)
  := (hJ.walks hx h).mono (fun _ _ hn => hn) (fun _ n hn => hJE n hn)

/-- The event that tells where a processor stands has that processor as its origin. -/
theorem Framed.leads_instructionEvent (h : J m) (reason : ExitReason) :
  Ends (onVCpu v (instructionEvent v reason)) m (fun e n => e.origin = v ∧ J n) (fun _ => E)
  := by
  apply (ends_instructionEvent hJ.routine hJ.aimed reason).mono
  · rintro e n ⟨hn, ho, -⟩
    exact ⟨ho, hJ.path hn.1 h⟩
  · intro _ n hn
    apply hJE n (hJ.path hn.1 h)

variable {Q : Transfer → Machine → Prop}
  (hx : ∀ control e skip n, e.origin = v → J n → Ends (offer control e skip) n Q (fun _ => E))

include hx

theorem ends_handleCr3Write_of_offer (h : J m) (number : UInt8) :
  Ends (handleCr3Write v number) m Q (fun _ => E)
  := by
  have hr := hJ.routine
  rw [handleCr3Write]
  apply Ends.bind (hJ.leads hJE (Walks.adaptExcept (walks_enter hr (hJ.agrees h).aimed)) h)
  intro _ n₁ h₁
  apply Ends.bind (hJ.leads hJE (remains_moveSource hr hJ.aimed number).walks h₁)
  intro source n₂ h₂
  apply Ends.bind (hJ.leads hJE _ h₂)
  · intro old n₃ h₃
    apply Ends.bind (hJ.leads hJE (Walks.adaptExcept (remains_note hr _).walks) h₃)
    intro _ n₄ h₄
    apply Ends.adaptExcept
    apply hx _ _ _ n₄ rfl h₄
  · apply Walks.adaptExcept
    apply (remains_exchangeCr3 hr hJ.aimed _ (hJ.plain trivial)).walks

theorem ends_handleEptViolation_of_offer (h : J m) (violation : EptViolation) :
  Ends (handleEptViolation v violation) m Q (fun _ => E)
  := by
  have hr := hJ.routine
  rw [handleEptViolation]
  apply Ends.bind (hJ.leads hJE (walks_enter hr (hJ.agrees h).aimed) h)
  intro _ n₁ h₁
  apply (hJ.leads_instructionEvent hJE h₁ _).bind
  rintro e n₂ ⟨ho, h₂⟩
  apply Ends.bind (hJ.leads hJE (remains_note hr _).walks h₂)
  intro _ n₃ h₃
  apply hx _ e _ n₃ ho h₃

theorem ends_handleMonitorTrap_of_offer (h : J m) :
  Ends (handleMonitorTrap v) m Q (fun _ => E)
  := by
  have hr := hJ.routine
  rw [handleMonitorTrap]
  apply Ends.bind (hJ.leads hJE (walks_enter hr (hJ.agrees h).aimed) h)
  intro _ n₁ h₁
  apply Ends.bind (hJ.leads hJE (remains_enable hr hJ.aimed _).walks h₁)
  intro _ n₂ h₂
  apply (hJ.leads_instructionEvent hJE h₂ _).bind
  rintro e n₃ ⟨ho, h₃⟩
  apply Ends.bind (hJ.leads hJE (remains_note hr _).walks h₃)
  intro _ n₄ h₄
  apply hx _ e _ n₄ ho h₄

omit hJ hJE hx

/-- An exit is declined, or it ends as the offering of its event or as its hypercall does:
until the event of a trap is offered the invariant lasts. -/
theorem ends_handleExit_of_offer {Q : Option Transfer → Machine → Prop} (hJ : Framed q J)
    (hJE : ∀ m, J m → E m)
    (hx : ∀ control e skip n, e.origin = v → J n →
      Ends (offer control e skip) n (fun t => Q (some t)) (fun _ => E))
    {x : HardwareExit} (hnone : Q none m) (htrap : MayTrap x.reason → J m)
    (hcall : x.reason = .vmcall → Ends (handleHypercall v) m Q (fun _ => E)) :
  Ends (handleExit v x) m Q (fun _ => E)
  := by
  rw [handleExit]
  split
  · exact hnone
  · split
    · rename_i hr
      simp only
      split
      · apply Ends.map
        apply ends_handleCr3Write_of_offer hJ hJE hx (htrap (.inl hr))
      · exact hnone
    · rename_i hr
      apply Ends.map
      apply Ends.adaptExcept
      apply ends_handleEptViolation_of_offer hJ hJE hx (htrap (.inr (.inl hr)))
    · rename_i hr
      apply Ends.map
      apply Ends.adaptExcept
      apply ends_handleMonitorTrap_of_offer hJ hJE hx (htrap (.inr (.inr hr)))
    · rename_i hr
      apply Ends.adaptExcept
      apply hcall hr
    · exact hnone

end

/-- The handling of an exit keeps the invariant: a trap may rely on more until its event is
offered, and a hypercall is as for `ends_handleHypercall_framed`. -/
theorem ends_handleExit_framed (hI : Framed q I) (hJ : Framed q J) (hJI : ∀ m, J m → I m)
    (hn : ∀ e m, e.origin = v → J m → Ends (notify e) m (fun _ => I) (fun _ => I))
    {x : HardwareExit} (h : I m) (htrap : MayTrap x.reason → J m)
    (hcall : x.reason = .vmcall → Ends (handleHypercall v) m (fun _ => I) (fun _ => I)) :
  Ends (handleExit v x) m (fun _ => I) (fun _ => I)
  := ends_handleExit_of_offer (Q := fun _ => I) hJ hJI
    (fun control e skip n ho hj => ends_offer_framed hI (hn e n ho hj) control skip) h htrap hcall

end Machine

end ExitRelay
