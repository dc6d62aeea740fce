import ExitRelay.Proofs.Footprint.Exit

/-!
# The processor that is run next

A program that ends in a transfer has loaded the processor that the transfer names.  Most
programs run a processor right after they have loaded it.  A call that goes back to its
caller has to find the caller loaded when it returns, however many other control structures
it has reached for in between: `Leaves` says that a program comes back to the control
structure that it started from.
-/

namespace ExitRelay

/-- The processor that is to be entered. -/
def Transfer.target : Transfer → Vpid
  | .run v => v
  | .returnToParent parent _ => parent

namespace Machine

/-- The processor is registered, and its control structure is loaded. -/
structure Holds (m : Machine) (v : Vpid) : Prop where
  registered : m.isRegistered v = true
  loaded : m.loaded = some v
  current : m.current = some v

/-- Unless it fails, the program leaves the control structure of the processor loaded. -/
def Leaves {ε α : Type} (v : Vpid) (x : EStateM ε Machine α) (m : Machine) : Prop :=
  Ends x m (fun _ n => n.Holds v) (fun _ _ => True)

/-- Unless it fails, the program runs a processor whose control structure is loaded. -/
def Enters {ε : Type} (x : EStateM ε Machine Transfer) (m : Machine) : Prop :=
  Ends x m (fun t n => ∃ w, t = .run w ∧ n.Holds w) (fun _ _ => True)

/-- If the program finds somebody to run, it runs a processor whose control structure is
loaded. -/
def MayEnter {ε : Type} (x : EStateM ε Machine (Option Transfer)) (m : Machine) : Prop :=
  Ends x m (fun t n => ∀ t', t = some t' → ∃ w, t' = .run w ∧ n.Holds w) (fun _ _ => True)

/-- Unless it fails, the program leaves the control structure loaded of the processor that is
to be entered. -/
def Lands {ε : Type} (x : EStateM ε Machine Transfer) (m : Machine) : Prop :=
  Ends x m (fun t n => n.Holds t.target) (fun _ _ => True)

variable {m n : Machine} {v w : Vpid} {p : Set Effect} {ε ε' α β : Type}

/-- Only switches change which control structure is loaded, and they change the hardware as
well. -/
theorem Path.loaded_eq_current (h : Path p m n) (hm : m.loaded = m.current) :
  n.loaded = n.current
  := by
  apply h.keeps (I := fun l => l.loaded = l.current) _ hm
  intro k _ l _ hl
  cases k with
  | load w => rfl
  | _ => exact hl

namespace Holds

theorem stays (h : m.Holds v) (hs : Stays p m n) :
  n.Holds v
  := by
  have hc : n.current = some v := by
    rw [hs.2, h.current]
  constructor
  · rw [hs.1.isRegistered, h.registered]
  · rw [hs.1.loaded_eq_current (h.loaded.trans h.current.symm), hc]
  · exact hc

theorem withJournal (h : m.Holds v) (j : Journal) :
  (m.withJournal j).Holds v
  := ⟨h.registered, h.loaded, h.current⟩

theorem mapVCpu (h : m.Holds v) (w : Vpid) (f : VCpu → VCpu) :
  (m.mapVCpu w f).Holds v
  := ⟨by rw [isRegistered_mapVCpu, h.registered], h.loaded, h.current⟩

theorem mapBroker (h : m.Holds v) (w : Vpid) (f : Broker → Broker) :
  (m.mapBroker w f).Holds v
  := ⟨by rw [isRegistered_mapBroker, h.registered], h.loaded, h.current⟩

theorem agrees (h : m.Holds v) :
  m.Agrees
  := by
  intro w hw
  rw [h.loaded] at hw
  obtain rfl := Option.some.inj hw
  exact ⟨h.registered, h.current⟩

theorem aimed (h : m.Holds v) :
  Aimed p v m
  := .inl h.current

end Holds

/-- A program that ends by running the processor that it leaves loaded. -/
theorem Leaves.enters {x : EStateM ε Machine Transfer} (hx : Leaves v x m)
    (hv : Ends x m (fun t _ => t = .run v) (fun _ _ => True)) :
  Enters x m
  := (Ends.and hx hv).imp fun _ _ h => ⟨v, h.2, h.1⟩

namespace Enters

variable {x : EStateM ε Machine Transfer}

theorem lands (hx : Enters x m) :
  Lands x m
  := by
  apply hx.imp
  rintro _ n ⟨w, rfl, hw⟩
  exact hw

theorem some (hx : Enters x m) :
  MayEnter (Option.some <$> x) m
  := by
  apply Ends.map
  apply hx.imp
  intro t n ht t' h
  rw [← Option.some.inj h]
  exact ht

end Enters

theorem mayEnter_none :
  MayEnter (pure none : EStateM ε Machine (Option Transfer)) m
  := Ends.pure fun t' h => absurd h (Option.some_ne_none t').symm

/-- A refused request ends in no transfer. -/
theorem ends_refuse {Q : α → Machine → Prop} (why : Refusal) :
  Ends (refuse why : SysM α) m Q fun _ _ => True
  := Ends.error (e := why.error) (t := m.withJournal (m.journal.note (.refused why))) rfl trivial

/-- A program that switches nothing leaves loaded what is loaded. -/
theorem Remains.leaves {x : EStateM ε Machine α} (hx : Remains p x m) (h : m.Holds v) :
  Leaves v x m
  := Ends.imp hx fun _ _ hs => h.stays hs

/-! ### Switching control structures -/

theorem leaves_load (v : Vpid) :
  Leaves v (load v) m
  := by
  cases hc : m.vcpu? v with
  | none => exact Ends.error (bind_of_error (onVCpu_of_none hc _)) trivial
  | some c =>
      have ha : Remains Set.univ (onVCpu v (VcpuM.attempt .load)) m :=
        remains_attempt (Set.subset_univ _) .load
      apply Ends.bind ha.forget
      intro _ n hn
      refine Ends.ok rfl ⟨?_, rfl, rfl⟩
      change n.isRegistered v = true
      rw [hn.1.isRegistered, isRegistered_iff_vcpu?]
      exact ⟨c, hc⟩

/-- A processor that is entered is loaded, or its control structure is the current one
already. -/
theorem leaves_enter (h : m.Agrees) (v : Vpid) :
  Leaves v (enter v) m
  := by
  rw [enter]
  apply Ends.bind_ok rfl
  split
  · rename_i hl
    apply Ends.pure ⟨(h v hl).1, hl, (h v hl).2⟩
  · apply leaves_load

/-- Going back to a processor loads it, unless it is loaded still. -/
theorem leaves_restore {target : Vpid} (ht : m.Holds target) (hv : m.isRegistered v = true) :
  Leaves v (restore target (some v)) m
  := by
  rw [restore]
  split
  · rename_i h
    rw [h]
    exact Ends.pure ht
  · apply Ends.bind_ok contains_eq
    rw [if_pos hv]
    apply leaves_load

/-- Whatever is done to a target, the processor that was loaded before is loaded again. -/
theorem leaves_withVmcs (h : m.Holds v) (target : Vpid) (x : VcpuM α) :
  Leaves v (withVmcs target x) m
  := by
  rw [withVmcs]
  apply Ends.bind_ok rfl
  have he := (leaves_enter h.agrees target).and
    (walks_enter (v := target) (Set.subset_univ _) h.agrees.aimed)
  apply Ends.bind he.forget
  rintro _ n ⟨hn, hp⟩
  have hv : n.isRegistered v = true := by
    rw [hp.isRegistered, h.registered]
  have hx : Keeps (fun l => l.Holds target ∧ l.isRegistered v = true) (onVCpu target x) := by
    apply keeps_onVCpu x
    · intro l f hl
      exact ⟨hl.1.mapVCpu target f, by rw [isRegistered_mapVCpu, hl.2]⟩
    · intro l j hl
      exact ⟨hl.1.withJournal j, hl.2⟩
  have ho := ends_outcome (Q := fun _ l => l.Holds target ∧ l.isRegistered v = true)
    (E := fun _ _ => True) (hx n ⟨hn, hv⟩)
  apply ho.bind
  rintro result l ⟨ht, hv⟩
  rw [h.loaded]
  apply (leaves_restore ht hv).bind
  intro _ l' hl'
  cases result with
  | ok a => exact Ends.pure hl'
  | error e => exact Ends.throw trivial

/-! ### Offering events -/

/-- A processor is loaded, something is done that switches nothing, and the processor runs. -/
theorem enters_load {x : SysM Unit} (hx : ∀ n, n.Holds v → Remains Set.univ x n) :
  Enters (do load v; x; pure (.run v)) m
  := by
  apply Ends.bind (leaves_load v)
  intro _ n hn
  apply Ends.bind ((hx n hn).leaves hn)
  intro _ l hl
  apply Ends.pure ⟨v, rfl, hl⟩

theorem enters_release (origin : Vpid) (advance : Bool) :
  Enters (release origin advance) m
  := by
  have hp := Set.subset_univ Effect.routine
  apply enters_load
  intro n hn
  apply remains_onVCpu_bind (remains_step hp hn.aimed trivial advance)
  intro _ _ _
  apply remains_resume hp trivial

theorem enters_fallBack (e : ExitEvent) :
  Enters (fallBack e) m
  := by
  have hp := Set.subset_univ Effect.routine
  apply enters_load
  intro n hn
  apply remains_onVCpu_bind (remains_giveUp hp hn.aimed trivial)
  intro _ _ _
  apply remains_resume hp trivial

/-- The listener runs if it gets the event, and otherwise the origin does. -/
theorem enters_inject (l : Vpid) (e : ExitEvent) :
  Enters (inject l e) m
  := by
  have hp := Set.subset_univ Effect.routine
  rw [inject_eq]
  apply Ends.bind_last
  intro b n
  split
  · apply Ends.bind_last
    intro _ n'
    apply enters_load
    intro _ hn
    apply remains_announce hp hn.aimed
  · apply Ends.bind_last
    intro _ n'
    apply enters_fallBack

theorem mayEnter_notify (e : ExitEvent) :
  MayEnter (notify e) m
  := by
  rw [notify]
  apply Ends.bind_last
  intro first n
  cases first with
  | none => exact mayEnter_none
  | some l =>
      apply Ends.bind_ok contains_eq
      split
      · apply Ends.bind_last
        intro _ _
        apply Ends.bind_last
        intro _ _
        apply (enters_inject l e).some
      · apply Ends.bind_last
        intro _ _
        apply mayEnter_none

theorem mayEnter_notifyNext (e : ExitEvent) :
  MayEnter (notifyNext e) m
  := by
  rw [notifyNext]
  apply Ends.bind_last
  intro next n
  cases next with
  | none =>
      apply Ends.bind_last
      intro _ _
      apply mayEnter_none
  | some l =>
      apply Ends.bind_ok contains_eq
      split
      · apply (enters_inject l e).some
      · apply Ends.bind_last
        intro _ _
        apply mayEnter_none

theorem enters_passOn (e : ExitEvent) :
  Enters (passOn e) m
  := by
  rw [passOn]
  apply Ends.bind (mayEnter_notifyNext e)
  intro t n ht
  cases t with
  | some t => exact Ends.pure (ht t rfl)
  | none => exact enters_fallBack e

/-! ### Receiving and answering events -/

theorem enters_report (h : m.Holds v) {results : Registers → Registers}
    (hr : Registers.SetsResults results) :
  Enters (report v results) m
  := by
  have hx : Remains Set.univ (report v results) m :=
    remains_report (Set.subset_univ _) h.aimed trivial hr fun _ => trivial
  apply (hx.leaves h).enters
  rw [report]
  apply Ends.bind_last
  intro _ _
  exact Ends.pure rfl

theorem lands_returnToParent (v : Vpid) (yield : Option UInt64) :
  Lands (returnToParent v yield) m
  := by
  rw [returnToParent]
  apply Ends.bind_last
  intro parent n
  cases parent with
  | none => exact ends_refuse _
  | some q =>
      apply Ends.bind (leaves_load q)
      intro _ l hl
      exact Ends.pure hl

theorem lands_await (h : m.Holds v) :
  Lands (await v) m
  := by
  have hp := Set.subset_univ Effect.routine
  rw [await]
  apply Ends.bind (ends_broker hp v).forget
  rintro b m ⟨-, rfl⟩
  apply Ends.bind_ok rfl
  split
  · split
    · have hd : Remains Set.univ (modifyBroker v Broker.clearDeadline) m :=
        remains_modifyBroker hp .disarm trivial (fun _ _ => trivial) (fun _ => rfl)
      apply Ends.bind (hd.leaves h)
      intro _ n hn
      apply Ends.bind ((remains_note hp _).leaves hn)
      intro _ l hl
      apply (enters_report hl Registers.setsResults_timeoutRegisters).lands
    · apply lands_returnToParent
  · apply Ends.bind_last
    intro _ _
    apply Ends.bind_last
    intro _ _
    apply Ends.bind_last
    intro _ _
    apply lands_returnToParent

/-- A listener that asks goes on itself, or its parent does. -/
theorem lands_nextExit (h : m.Holds v) :
  Lands (nextExit v) m
  := by
  have hp := Set.subset_univ Effect.routine
  rw [nextExit]
  apply Ends.bind (ends_broker hp v).forget
  rintro b m ⟨-, rfl⟩
  split
  · rename_i e _
    apply Ends.bind ((remains_endWait hp e _).leaves h)
    intro _ n hn
    apply (enters_report hn (Registers.setsResults_eventRegisters e)).lands
  · split
    · apply Ends.bind_last
      intro _ _
      apply ends_refuse
    · apply lands_await h

theorem enters_endOfExit (v : Vpid) :
  Enters (endOfExit v) m
  := by
  rw [endOfExit]
  apply Ends.bind_last
  intro regs _
  apply Ends.bind_last
  intro front _
  cases front with
  | none =>
      apply Ends.bind_last
      intro _ _
      apply ends_refuse
  | some e =>
      apply Ends.bind_ok contains_eq
      split
      · apply Ends.bind_last
        intro _ _
        split
        · apply Ends.bind_last
          intro _ _
          apply enters_release
        · apply Ends.bind_last
          intro _ _
          apply enters_passOn
      · apply Ends.bind_last
        intro _ _
        apply ends_refuse

/-! ### Subscribing to exits -/

theorem leaves_subscribe (h : m.Holds v) (caller target : Vpid) (control : Control) :
  Leaves v (subscribe caller target control) m
  := by
  have hp := Set.subset_univ Effect.routine
  rw [subscribe]
  apply (leaves_withVmcs h target _).forget_adaptExcept.bind
  intro _ n₁ h₁
  apply ((remains_note hp _).leaves h₁).forget_adaptExcept.bind
  intro _ n₂ h₂
  apply Ends.bind (Q := fun _ l => l.Holds v)
  · apply Ends.adaptExcept
    apply Remains.leaves (p := Set.univ) _ h₂
    apply remains_onBroker hp (.subscribe control caller) trivial (fun _ _ => trivial)
      (fun _ => rfl)
  · intro refused n₃ h₃
    cases refused with
    | none => exact Ends.pure h₃
    | some reason =>
        apply ((remains_note hp _).leaves h₃).forget_adaptExcept.bind
        intro _ _ _
        exact Ends.throw trivial

theorem leaves_settlePending (h : m.Holds v) (caller target : Vpid) (control : Control) :
  Leaves v (settlePending caller target control) m
  := by
  have hp := Set.subset_univ Effect.routine
  rw [settlePending]
  apply Ends.bind (ends_broker hp caller).forget
  rintro b m ⟨-, rfl⟩
  split
  · exact Ends.pure h
  · split
    · have hd : Remains Set.univ (modifyBroker caller fun b =>
          { b with pending := b.pending.pop.2 }) m :=
        remains_modifyBroker hp .pop trivial (fun _ _ => trivial) (fun _ => rfl)
      apply (hd.leaves h).bind
      intro _ n₁ h₁
      apply ((remains_note hp _).leaves h₁).bind
      intro _ n₂ h₂
      apply leaves_withVmcs h₂
    · exact Ends.pure h

theorem leaves_unsubscribe (h : m.Holds v) (caller target : Vpid) (control : Control) :
  Leaves v (unsubscribe caller target control) m
  := by
  have hp := Set.subset_univ Effect.routine
  rw [unsubscribe]
  apply (leaves_withVmcs h target _).forget_adaptExcept.bind
  intro _ n₁ h₁
  apply ((remains_note hp _).leaves h₁).forget_adaptExcept.bind
  intro _ n₂ h₂
  apply (leaves_settlePending h₂ caller target control).forget_adaptExcept.bind
  intro _ n₃ h₃
  apply Ends.bind (Q := fun _ l => l.Holds v)
  · apply Ends.adaptExcept
    apply Remains.leaves (p := Set.univ) _ h₃
    apply remains_onBroker hp (.unsubscribe control caller) trivial (fun _ _ => trivial)
      (fun _ => rfl)
  · intro refused n₄ h₄
    cases refused with
    | none => exact Ends.pure h₄
    | some reason =>
        apply ((remains_note hp _).leaves h₄).forget_adaptExcept.bind
        intro _ _ _
        exact Ends.throw trivial

theorem leaves_switchControl (h : m.Holds v) (caller target : Vpid) (mask value : UInt64)
    (control : Control) :
  Leaves v (switchControl caller target mask value control) m
  := by
  rw [switchControl]
  split
  · split
    · apply leaves_subscribe h
    · apply leaves_unsubscribe h
  · exact Ends.pure h

theorem leaves_switchControls (caller target : Vpid) (mask value : UInt64)
    (controls : List Control) :
  ∀ {m : Machine}, m.Holds v → Leaves v (switchControls caller target mask value controls) m
  := by
  induction controls with
  | nil =>
      intro m h
      exact Ends.pure h
  | cons control controls ih =>
      intro m h
      apply (leaves_switchControl h caller target mask value control).bind
      intro _ n hn
      apply ih hn

theorem leaves_setControls (h : m.Holds v) (caller target : Vpid) (field : ControlField) :
  Leaves v (setControls caller target field) m
  := by
  have hp := Set.subset_univ Effect.routine
  rw [setControls_eq]
  apply ((remains_registers hp caller).leaves h).forget_adaptExcept.bind
  intro regs n₁ h₁
  simp only
  split
  · apply (leaves_withVmcs h₁ target _).forget_adaptExcept.bind
    intro old n₂ h₂
    apply (leaves_switchControls caller target _ _ _ h₂).bind
    intro _ n₃ h₃
    exact Ends.pure h₃
  · apply ((remains_noteDenied hp _ _).leaves h₁).forget_adaptExcept.bind
    intro _ _ _
    exact Ends.throw trivial

/-- The result of a call is put into the registers of its caller. -/
theorem leaves_succeed (h : m.Holds v) {results : Registers → Registers}
    (hr : Registers.SetsResults results) :
  Leaves v (succeed v results) m
  := (remains_succeed (Set.subset_univ _) hr fun _ => trivial).leaves h

theorem leaves_readField (h : m.Holds v) :
  Leaves v (readField v) m
  := by
  have hp := Set.subset_univ Effect.routine
  rw [readField]
  apply ((remains_registers hp v).leaves h).forget_adaptExcept.bind
  intro regs n₁ h₁
  apply ((remains_target hp v regs.r11).leaves h₁).bind
  intro target n₂ h₂
  split
  · apply (leaves_withVmcs h₂ target _).forget_adaptExcept.bind
    intro value n₃ h₃
    apply (leaves_succeed h₃ (Registers.setsResults_r10 value)).forget_adaptExcept
  · exact Ends.throw trivial

theorem leaves_writeControls (h : m.Holds v) :
  Leaves v (writeControls v) m
  := by
  apply ends_writeControls (Set.subset_univ _) h.aimed (fun _ _ _ => trivial)
  intro _ target field n hn _ _ _
  apply Ends.bind (Q := fun _ l => l.Holds v)
  · apply ends_notingFailure
    apply (leaves_setControls (h.stays hn) v target field).mono (fun _ _ h => h)
    intro _ _ _
    trivial
  · intro old n' hn'
    apply (leaves_succeed hn' (Registers.setsResults_r10 old)).forget_adaptExcept

/-! ### Hypercalls -/

theorem leaves_registerValue (h : m.Holds v) :
  Leaves v (registerValue v) m
  := by
  have hp := Set.subset_univ Effect.routine
  rw [registerValue]
  apply ((remains_registers hp v).leaves h).forget_adaptExcept.bind
  intro regs n₁ h₁
  apply ((remains_registerOwner hp v regs.r11).leaves h₁).bind
  intro owner n₂ h₂
  split
  · exact Ends.throw trivial
  · apply Ends.bind (Q := fun _ l => l.Holds v)
    · apply Ends.adaptExcept
      rw [readRegister]
      split
      · apply Ends.map
        apply (remains_registers hp owner).leaves h₂
      · apply leaves_withVmcs h₂
    · intro value n₃ h₃
      apply (leaves_succeed h₃ (Registers.setsResults_r10 value)).forget_adaptExcept

/-- Any call but `nextExit` ends by running its caller, a listener, or the origin of an
event. -/
theorem enters_serve (h : m.Holds v) {call : Call} (hcall : call ≠ .nextExit) :
  Enters (serve v call) m
  := by
  have hp := Set.subset_univ Effect.routine
  have hrun : ∀ {x : CallM Unit}, Leaves v x m →
      Enters (do x; pure (Transfer.run v) : CallM Transfer) m := by
    intro x hx
    apply Ends.bind hx
    intro _ n hn
    apply Ends.pure ⟨v, rfl, hn⟩
  have ha : ∀ f, Effect.vcpu v (.results f) ∈ Set.univ := fun _ => trivial
  cases call with
  | pause => exact hrun ((remains_schedule hp (Set.subset_univ _) ha true).leaves h)
  | resume => exact hrun ((remains_schedule hp (Set.subset_univ _) ha false).leaves h)
  | registerValue => exact hrun (leaves_registerValue h)
  | nextExit => exact absurd rfl hcall
  | endOfExit => exact (enters_endOfExit v).forget_adaptExcept
  | vmread => exact hrun (leaves_readField h)
  | vmwrite => exact hrun (leaves_writeControls h)
  | translate => exact hrun ((remains_translateAddress hp ha).leaves h)

/-- A failed call runs its caller, which is loaded again. -/
theorem enters_fail (v : Vpid) (status : Status) :
  Enters (fail v status) m
  := by
  rw [fail]
  apply Ends.bind_last
  intro _ n
  apply enters_load
  intro l _
  apply remains_registersOf (Set.subset_univ _) trivial
  apply Registers.setsResults_id.rax

theorem lands_serveNextExit (h : m.Holds v) :
  Lands (serveNextExit v) m
  := by
  rw [serveNextExit]
  apply Ends.tryCatch (lands_nextExit h)
  intro e n _
  apply Ends.bind_last
  intro _ _
  apply Ends.bind_last
  intro _ _
  apply (enters_fail v _).lands

theorem enters_serveAdvanced (h : m.Holds v) {call : Option Call}
    (hcall : call ≠ some .nextExit) :
  Enters (serveAdvanced v call) m
  := by
  rw [serveAdvanced.eq_def]
  apply Ends.bind ((remains_advance (Set.subset_univ _) h.aimed trivial).leaves h)
  intro _ n hn
  apply ends_completing
  have hf : ∀ status l, True →
      Ends (fail v status) l (fun t n => ∃ w, t = .run w ∧ n.Holds w) (fun _ _ => True) :=
    fun status _ _ => enters_fail v status
  cases call with
  | none => exact Ends.error rfl (hf _ n trivial)
  | some call =>
      apply (enters_serve hn _).mono (fun _ _ h => h) hf
      rintro rfl
      exact hcall rfl

theorem lands_serveCall (h : m.Holds v) (call : Option Call) :
  Lands (serveCall v call) m
  := by
  rw [serveCall]
  split
  · apply lands_serveNextExit h
  · rename_i hcall
    apply (enters_serveAdvanced h hcall).lands

/-- A hypercall that is not declined ends in a transfer to a processor that is loaded. -/
theorem lands_handleHypercall (h : m.Agrees) (v : Vpid) :
  Ends (handleHypercall v) m (fun t n => ∀ t', t = some t' → n.Holds t'.target)
    (fun _ _ => True)
  := by
  have hp := Set.subset_univ Effect.routine
  rw [handleHypercall]
  apply Ends.bind (ends_vcpu hp v).forget
  rintro c m ⟨-, rfl⟩
  simp only
  split
  · apply Ends.pure
    intro t' ht
    exact absurd ht (Option.some_ne_none t').symm
  · apply Ends.bind (leaves_enter h v)
    intro _ n₁ h₁
    apply Ends.bind (lands_serveCall h₁ _)
    intro t n₂ h₂
    apply Ends.bind ((remains_noteChanges hp _ _).leaves h₂)
    intro _ n₃ h₃
    apply Ends.pure
    intro t' ht
    rw [← Option.some.inj ht]
    exact h₃

/-! ### Traps -/

/-- Without a listener nothing has been switched, and the processor that exited goes on. -/
theorem enters_offer {e : ExitEvent} (h : m.Holds e.origin) (control : Control) (skip : Bool) :
  Enters (offer control e skip) m
  := by
  have hp := Set.subset_univ Effect.routine
  rw [offer]
  have hn := (ends_notify hp (Set.subset_univ (Effect.delivery e.origin))).and
    (mayEnter_notify (m := m) e)
  apply Ends.bind hn.forget
  rintro t n ⟨⟨hpath, hcur⟩, ht⟩
  cases t with
  | some t => exact Ends.pure (ht t rfl)
  | none =>
      have hn : n.Holds e.origin := h.stays ⟨hpath, hcur rfl⟩
      apply Ends.bind ((remains_note hp _).leaves hn)
      intro _ n₁ h₁
      have hx : Remains Set.univ (onVCpu e.origin do
          control.disable
          if skip then VcpuM.advance else pure ()) n₁ := by
        apply remains_onVCpu_bind (remains_disable hp h₁.aimed control)
        intro _ l hl
        split
        · apply remains_advance hp (hl.aimed h₁.aimed) trivial
        · apply remains_onVCpu_pure hp
      apply Ends.bind (hx.leaves h₁)
      intro _ n₂ h₂
      apply Ends.pure ⟨e.origin, rfl, h₂⟩

theorem enters_handleCr3Write (h : m.Agrees) (v : Vpid) (number : UInt8) :
  Enters (handleCr3Write v number) m
  := by
  have hp := Set.subset_univ Effect.routine
  rw [handleCr3Write]
  apply Ends.bind (leaves_enter h v).forget_adaptExcept
  intro _ n₁ h₁
  apply Ends.bind ((remains_moveSource hp h₁.aimed number).leaves h₁)
  intro source n₂ h₂
  apply Ends.bind ((remains_exchangeCr3 hp h₂.aimed _ trivial).leaves h₂).forget_adaptExcept
  intro old n₃ h₃
  apply Ends.bind ((remains_note hp _).leaves h₃).forget_adaptExcept
  intro _ n₄ h₄
  apply (enters_offer h₄ _ _).forget_adaptExcept

theorem enters_handleEptViolation (h : m.Agrees) (v : Vpid) (violation : EptViolation) :
  Enters (handleEptViolation v violation) m
  := by
  have hp := Set.subset_univ Effect.routine
  rw [handleEptViolation]
  apply Ends.bind (leaves_enter h v)
  intro _ n₁ h₁
  apply Ends.bind ((ends_instructionEvent hp h₁.aimed violation.reason).mono
    (fun _ _ h => h) (fun _ _ _ => trivial))
  rintro e n₂ ⟨h₂, rfl, -⟩
  apply Ends.bind ((remains_note hp _).leaves (h₁.stays h₂))
  intro _ n₃ h₃
  apply enters_offer h₃

theorem enters_handleMonitorTrap (h : m.Agrees) (v : Vpid) :
  Enters (handleMonitorTrap v) m
  := by
  have hp := Set.subset_univ Effect.routine
  rw [handleMonitorTrap]
  apply Ends.bind (leaves_enter h v)
  intro _ n₁ h₁
  apply Ends.bind ((remains_enable hp h₁.aimed _).leaves h₁)
  intro _ n₂ h₂
  apply Ends.bind ((ends_instructionEvent hp h₂.aimed .monitorTrap).mono
    (fun _ _ h => h) (fun _ _ _ => trivial))
  rintro e n₃ ⟨h₃, rfl, -⟩
  apply Ends.bind ((remains_note hp _).leaves (h₂.stays h₃))
  intro _ n₄ h₄
  apply enters_offer h₄

/-- An exit that is not declined ends in a transfer to a processor that is loaded. -/
theorem lands_handleExit (h : m.Agrees) (v : Vpid) (x : HardwareExit) :
  Ends (handleExit v x) m (fun t n => ∀ t', t = some t' → n.Holds t'.target)
    (fun _ _ => True)
  := by
  have hnone : Ends (pure none : TrapM (Option Transfer)) m
      (fun t n => ∀ t', t = some t' → n.Holds t'.target) (fun _ _ => True) :=
    Ends.pure fun t' ht => absurd ht (Option.some_ne_none t').symm
  have hsome : ∀ {x : TrapM Transfer}, Enters x m → Ends (some <$> x) m
      (fun t n => ∀ t', t = some t' → n.Holds t'.target) (fun _ _ => True) := by
    intro x hx
    apply Ends.map
    apply hx.lands.imp
    intro t n ht t' h'
    rw [← Option.some.inj h']
    exact ht
  rw [handleExit]
  split
  · exact hnone
  · split
    · simp only
      split
      · apply hsome (enters_handleCr3Write h v _)
      · exact hnone
    · apply hsome (enters_handleEptViolation h v _).forget_adaptExcept
    · apply hsome (enters_handleMonitorTrap h v).forget_adaptExcept
    · apply Ends.adaptExcept
      apply lands_handleHypercall h v
    · exact hnone

end Machine

end ExitRelay
