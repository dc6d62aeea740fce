import ExitRelay.Proofs.Holding
import ExitRelay.Proofs.Rounds

/-!
# Stopped processors that are entered

A processor is stopped while an event of it is in flight, but the broker does not ask whether
a processor is stopped before it names it as the next to run.  It names one that is stopped in
three situations only: a call goes back to its caller, a listener that has to wait goes back to
its parent, and a processor is told of an event that has just been queued for it.  In any other
case nothing of the processor that is entered is in flight.
-/

namespace ExitRelay

namespace Machine

variable {m m' n n' : Machine} {v l o : Vpid} {e : ExitEvent} {t : Transfer}

/-! ### Letting the origin go on -/

/-- A processor that is let go is not stopped. -/
theorem ends_resume (v : Vpid) :
  Ends (onVCpu v VcpuM.resume) m (fun _ n => n.isPaused v = false) (fun _ _ => True)
  := by
  cases hc : m.vcpu? v with
  | none => exact Ends.error (onVCpu_of_none hc _) trivial
  | some c =>
      apply (yields_resume hc).ends
      intro j
      rw [isPaused_withJournal, isPaused_mapVCpu_self hc]
      rfl

/-- The origin of the event is the next to run, and it is not stopped. -/
def Freed (o : Vpid) (t : Transfer) (n : Machine) : Prop :=
  t = .run o ∧ n.isPaused o = false

/-- A processor is let go as the last thing, and runs. -/
theorem freed_of_resume (o : Vpid) (x : VcpuM Unit) :
  Ends (do
    load o
    onVCpu o do
      x
      VcpuM.resume
    pure (.run o) : SysM Transfer) m (Freed o) (fun _ _ => True)
  := by
  apply Ends.bind_last
  intro _ n
  rw [onVCpu_bind]
  have hx : Ends (do onVCpu o x; onVCpu o VcpuM.resume) n (fun _ l => l.isPaused o = false)
      (fun _ _ => True) := by
    apply Ends.bind_last
    intro _ _
    apply ends_resume
  apply hx.bind
  intro _ l hl
  exact Ends.pure ⟨rfl, hl⟩

/-! ### Offering events -/

/-- The origin goes on, or the event is queued for the processor that is the next to run and
for which none was pending; nobody but the origin is stopped meanwhile. -/
def Placed (e : ExitEvent) (m : Machine) (t : Transfer) (n : Machine) : Prop :=
  Freed e.origin t n ∨
    m.slot t.target = [] ∧ n.slot t.target = [e] ∧
      ∀ w, w ≠ e.origin → n.isPaused w = m.isPaused w

/-- A listener that is told of its event is the next to run, and nothing moves. -/
theorem runs_announced (l : Vpid) (kernel : Bool) :
  Ends (do
    load l
    announce l kernel
    pure (.run l) : SysM Transfer) m (fun t n => t = .run l ∧ Path Effect.quiet m n)
    (fun _ _ => True)
  := by
  have hq := Effect.routine_subset_quiet
  apply Ends.bind (walks_load hq l).forget
  intro _ n hn
  apply Ends.bind ((remains_announce hq (.inr trivial) _).walks.behind hn).forget
  intro _ n' hn'
  exact Ends.pure ⟨rfl, hn'⟩

theorem placed_inject (l : Vpid) (e : ExitEvent) :
  Ends (inject l e) m (Placed e m) (fun _ _ => True)
  := by
  have hq := Effect.routine_subset_quiet
  rw [inject_eq]
  apply Ends.bind ((ends_broker hq l).forget)
  rintro b m ⟨hb, rfl⟩
  split
  · rename_i he
    have hp : b.pending = {} := Pending.isEmpty_iff.mp he
    apply (yields_modifyBroker hb _).ends_bind
    intro j
    apply (runs_announced l b.isKernelListener).imp
    rintro _ n ⟨rfl, hn⟩
    right
    refine ⟨?_, ?_, ?_⟩
    · rw [Transfer.target, slot_of_broker? hb, hp]
    · rw [Transfer.target, hn.slot, slot_withJournal, slot_mapBroker_self hb]
      change b.pending.events ++ [e] = [e]
      rw [hp]
      rfl
    · intro w _
      rw [hn.isPaused, isPaused_withJournal, isPaused_mapBroker]
  · apply Ends.bind_last
    intro _ n
    apply (freed_of_resume e.origin (giveUp e)).imp
    intro _ _ hf
    exact .inl hf

/-- What happens before an event is offered may stop its origin, and moves no event. -/
theorem Placed.after (h : Placed e m' t n) (hs : ∀ w, m'.slot w = m.slot w)
    (hp : ∀ w, w ≠ e.origin → m'.isPaused w = m.isPaused w) :
  Placed e m t n
  := by
  rcases h with h | ⟨hempty, hone, hpaused⟩
  · exact .inl h
  · right
    refine ⟨?_, hone, ?_⟩
    · rw [← hs, hempty]
    · intro w hw
      rw [hpaused w hw, hp w hw]

theorem Placed.of_path (h : Placed e m' t n) (hp : Path Effect.quiet m m') :
  Placed e m t n
  := h.after hp.slot fun w _ => hp.isPaused w

theorem placed_passOn (e : ExitEvent) :
  Ends (passOn e) m (Placed e m) (fun _ _ => True)
  := by
  have hq := Effect.routine_subset_quiet
  have hnext : Remains Effect.quiet (onBroker e.origin fun b =>
      ((b.registry.next e.reason).1, { b with registry := (b.registry.next e.reason).2 })) m :=
    remains_onBroker hq (.next e.reason) trivial (fun _ _ => trivial) (fun _ => rfl)
  have hx : Ends (notifyNext e) m (fun t n => ∀ t', t = some t' → Placed e m t' n)
      (fun _ _ => True) := by
    rw [notifyNext]
    apply Ends.bind hnext.walks.forget
    intro next n hn
    cases next with
    | none =>
        apply Ends.bind_last
        intro _ _
        exact Ends.pure fun t' ht => absurd ht (Option.some_ne_none t').symm
    | some l =>
        apply Ends.bind_ok contains_eq
        split
        · apply Ends.map
          apply (placed_inject l e).imp
          rintro t n' ht _ ⟨⟩
          exact ht.of_path hn
        · apply Ends.bind_last
          intro _ _
          exact Ends.pure fun t' ht => absurd ht (Option.some_ne_none t').symm
  rw [passOn]
  apply hx.bind
  intro t n ht
  cases t with
  | some t => exact Ends.pure (ht t rfl)
  | none =>
      apply (freed_of_resume e.origin (giveUp e)).imp
      intro _ _ hf
      exact .inl hf

/-- Stopping the origin of an event changes nothing else that matters. -/
theorem placed_pause (h : Path Effect.quiet m n) (l : Vpid) (e : ExitEvent) :
  Ends (do
    onVCpu e.origin VcpuM.pause
    some <$> inject l e) n (fun t n' => ∀ t', t = some t' → Placed e m t' n') (fun _ _ => True)
  := by
  cases hc : n.vcpu? e.origin with
  | none => exact Ends.error (bind_of_error (onVCpu_of_none hc _)) trivial
  | some c =>
      apply (yields_pause hc).ends_bind
      intro j
      apply Ends.map
      apply (placed_inject l e).imp
      rintro t n' ht _ ⟨⟩
      apply Placed.of_path _ h
      apply ht.after
      · intro w
        rw [slot_withJournal, slot_mapVCpu]
      · intro w hw
        rw [isPaused_withJournal, isPaused_mapVCpu_of_ne _ hw]

/-- Without a listener no event is moved and nobody is stopped. -/
theorem placed_notify (e : ExitEvent) :
  Ends (notify e) m
    (fun t n => (t = none → Path Effect.quiet m n) ∧ ∀ t', t = some t' → Placed e m t' n)
    (fun _ _ => True)
  := by
  have hq := Effect.routine_subset_quiet
  have hfirst : Remains Effect.quiet (onBroker e.origin fun b =>
      ((b.registry.first e.reason).1, { b with registry := (b.registry.first e.reason).2 })) m :=
    remains_onBroker hq (.first e.reason) trivial (fun _ _ => trivial) (fun _ => rfl)
  rw [notify]
  apply Ends.bind hfirst.walks.forget
  intro first n hn
  cases first with
  | none => exact Ends.pure ⟨fun _ => hn, fun t' ht => absurd ht (Option.some_ne_none t').symm⟩
  | some l =>
      apply Ends.bind_ok contains_eq
      split
      · apply Ends.bind ((remains_note hq _).walks.behind hn).forget
        intro _ n' hn'
        have hnone : Ends (onVCpu e.origin VcpuM.pause >>= fun _ => some <$> inject l e) n'
            (fun t _ => t ≠ none) (fun _ _ => True) := by
          apply Ends.bind_last
          intro _ _
          apply Ends.map
          apply Ends.trivial.imp
          intro t _ _
          exact Option.some_ne_none t
        apply (hnone.and (placed_pause hn' l e)).imp
        rintro t n'' ⟨ht, ho⟩
        exact ⟨fun h => absurd h ht, ho⟩
      · apply Ends.bind ((remains_note hq _).walks.behind hn).forget
        intro _ n' hn'
        exact Ends.pure ⟨fun _ => hn', fun t' ht => absurd ht (Option.some_ne_none t').symm⟩

/-- The event of a trap is offered, or the processor that exited goes on. -/
theorem placed_offer (h : m.isPaused e.origin = false) (control : Control) (skip : Bool) :
  Ends (offer control e skip) m (Placed e m) (fun _ _ => True)
  := by
  have hq := Effect.routine_subset_quiet
  rw [offer]
  apply (placed_notify e).bind
  rintro t n ⟨hn, ht⟩
  cases t with
  | some t => exact Ends.pure (ht t rfl)
  | none =>
      apply Ends.bind ((remains_note hq _).walks.behind (hn rfl)).forget
      intro _ n' hn'
      have hx : Walks Effect.quiet (onVCpu e.origin do
          control.disable
          if skip then VcpuM.advance else pure ()) n' := by
        apply Remains.walks
        apply remains_onVCpu_bind (remains_disable hq (.inr trivial) control)
        intro _ _ _
        split
        · apply remains_advance hq (.inr trivial) trivial
        · apply remains_onVCpu_pure hq
      apply Ends.bind (hx.behind hn').forget
      intro _ n'' hn''
      refine Ends.pure (.inl ⟨rfl, ?_⟩)
      rw [hn''.isPaused, h]

/-- A trap of a processor that runs is offered. -/
theorem placed_handleExit {x : HardwareExit} (h : m.Agrees) (hx : x.reason ≠ .vmcall)
    (hrun : MayTrap x.reason → m.isPaused v = false) :
  Ends (handleExit v x) m (fun t n => ∀ t', t = some t' → ∃ e, e.origin = v ∧ Placed e m t' n)
    (fun _ _ => True)
  := by
  let J : Machine → Prop := fun l => l.Agrees ∧ Path Effect.quiet m l ∧ m.isPaused v = false
  have hJ : Framed Effect.quiet J := by
    refine ⟨Effect.plain_subset_quiet, And.left, ?_⟩
    rintro k l hq hk ⟨ha, hp, hr⟩
    exact ⟨ha.apply hk, hp.trans (Path.single hq hk), hr⟩
  apply ends_handleExit_of_offer (E := fun _ => True) hJ (fun _ _ => trivial)
  · rintro control e skip n rfl ⟨-, hp, hr⟩
    apply (placed_offer _ control skip).imp
    · rintro t n' ht _ ⟨⟩
      exact ⟨e, rfl, ht.of_path hp⟩
    · rw [hp.isPaused, hr]
  · intro t' ht
    exact absurd ht (Option.some_ne_none t').symm
  · intro hr
    exact ⟨h, Path.refl _ m, hrun hr⟩
  · intro hr
    exact absurd hr hx

/-! ### Calls -/

/-- Whom a call of a processor may enter: the caller, the parent that a waiting caller goes
back to, a processor that is not stopped, or one for which an event has just been queued. -/
def Enterable (v : Vpid) (m : Machine) (t : Transfer) (n : Machine) : Prop :=
  t.target = v ∨ (∃ parent yield, t = .returnToParent parent yield) ∨
    n.isPaused t.target = false ∨ ∃ e, m.slot t.target = [] ∧ n.slot t.target = [e]

theorem enterable_report (n : Machine) (v : Vpid) (results : Registers → Registers) :
  Ends (report v results) n (Enterable v m) (fun _ _ => True)
  := by
  apply Ends.bind_last
  intro _ _
  exact Ends.pure (.inl rfl)

theorem enterable_returnToParent (n : Machine) (v : Vpid) (yield : Option UInt64) :
  Ends (returnToParent v yield) n (Enterable v m) (fun _ _ => True)
  := by
  rw [returnToParent]
  apply Ends.bind_last
  intro parent _
  cases parent with
  | none => exact ends_refuse _
  | some q =>
      apply Ends.bind_last
      intro _ _
      exact Ends.pure (.inr (.inl ⟨q, yield, rfl⟩))

/-- A caller that waits is told that its time is over, or its parent is entered. -/
theorem enterable_await (n : Machine) (v : Vpid) :
  Ends (await v) n (Enterable v m) (fun _ _ => True)
  := by
  rw [await]
  apply Ends.bind_last
  intro b _
  apply Ends.bind_last
  intro _ _
  split
  · split
    · apply Ends.bind_last
      intro _ _
      apply Ends.bind_last
      intro _ _
      apply enterable_report
    · apply enterable_returnToParent
  · apply Ends.bind_last
    intro _ _
    apply Ends.bind_last
    intro _ _
    apply Ends.bind_last
    intro _ _
    apply enterable_returnToParent

theorem enterable_nextExit (v : Vpid) :
  Ends (nextExit v) m (Enterable v m) (fun _ _ => True)
  := by
  rw [nextExit]
  apply Ends.bind_last
  intro b _
  split
  · apply Ends.bind_last
    intro _ _
    apply enterable_report
  · split
    · apply Ends.bind_last
      intro _ _
      apply ends_refuse
    · apply enterable_await

/-- An answered event frees its origin or comes to the next listener. -/
theorem enterable_endOfExit (v : Vpid) :
  Ends (endOfExit v) m (Enterable v m) (fun _ _ => True)
  := by
  have hq := Effect.routine_subset_quiet
  rw [endOfExit]
  apply Ends.bind (ends_registers hq v).forget
  rintro regs m ⟨-, rfl⟩
  apply Ends.bind (ends_onBroker hq v _).forget
  rintro front n ⟨b, hb, rfl, rfl⟩
  have hs : ∀ w, w ≠ v → (m.mapBroker v Broker.Effect.pop.apply).slot w = m.slot w :=
    fun w hw => slot_mapBroker_of_ne _ hw
  have hfreed : ∀ {o t l}, Freed o t l → Enterable v m t l := by
    rintro o _ l ⟨rfl, hl⟩
    exact .inr (.inr (.inl hl))
  split
  · apply Ends.bind_last
    intro _ _
    apply ends_refuse
  · rename_i e _
    apply Ends.bind_ok contains_eq
    split
    · have hr : Walks Effect.quiet (modifyRegisters v fun regs =>
          { regs with rax := Status.success.code })
          (m.mapBroker v Broker.Effect.pop.apply) :=
        (remains_registersOf hq trivial (Registers.setsResults_id.rax _)).walks
      apply Ends.bind hr.forget
      intro _ n hn
      split
      · apply Ends.bind_last
        intro _ l
        apply (freed_of_resume e.origin (step e.origin _)).imp
        intro _ _ hf
        exact hfreed hf
      · apply Ends.bind ((remains_note hq _).walks.behind hn).forget
        intro _ l hl
        apply (placed_passOn e).imp
        rintro t n' (hf | ⟨hempty, hone, -⟩)
        · exact hfreed hf
        · by_cases ht : t.target = v
          · exact .inl ht
          · refine .inr (.inr (.inr ⟨e, ?_, hone⟩))
            rw [← hs _ ht, ← hl.slot, hempty]
    · apply Ends.bind_last
      intro _ _
      apply ends_refuse

namespace Enterable

theorem after (h : Enterable v m' t n) (hp : Path Effect.quiet m m') :
  Enterable v m t n
  := by
  rcases h with h | h | h | ⟨e, hempty, hone⟩
  · exact .inl h
  · exact .inr (.inl h)
  · exact .inr (.inr (.inl h))
  · refine .inr (.inr (.inr ⟨e, ?_, hone⟩))
    rw [← hp.slot, hempty]

theorem before (h : Enterable v m t n) (hp : Path Effect.quiet n n') :
  Enterable v m t n'
  := by
  rcases h with h | h | h | ⟨e, hempty, hone⟩
  · exact .inl h
  · exact .inr (.inl h)
  · refine .inr (.inr (.inl ?_))
    rw [hp.isPaused, h]
  · refine .inr (.inr (.inr ⟨e, hempty, ?_⟩))
    rw [hp.slot, hone]

end Enterable

theorem enterable_serve (v : Vpid) (call : Call) :
  Ends (serve v call) m (Enterable v m) (fun _ _ => True)
  := by
  have hrun : ∀ {x : CallM Unit},
      Ends (do x; pure (Transfer.run v) : CallM Transfer) m (Enterable v m) fun _ _ => True := by
    intro x
    apply Ends.bind_last
    intro _ _
    exact Ends.pure (.inl rfl)
  cases call with
  | nextExit => exact (enterable_nextExit v).adaptExcept
  | endOfExit => exact (enterable_endOfExit v).adaptExcept
  | _ => exact hrun

theorem enterable_fail (n : Machine) (v : Vpid) (s : Status) :
  Ends (fail v s) n (Enterable v m) (fun _ _ => True)
  := by
  rw [fail]
  apply Ends.bind_last
  intro _ _
  apply Ends.bind_last
  intro _ _
  apply Ends.bind_last
  intro _ _
  exact Ends.pure (.inl rfl)

theorem enterable_serveCall (v : Vpid) (call : Option Call) :
  Ends (serveCall v call) m (Enterable v m) (fun _ _ => True)
  := by
  rw [serveCall]
  split
  · rw [serveNextExit]
    apply Ends.tryCatch (enterable_nextExit v)
    intro _ _ _
    apply Ends.bind_last
    intro _ _
    apply Ends.bind_last
    intro _ n
    apply enterable_fail n
  · rw [serveAdvanced.eq_def]
    have ha : Walks Effect.quiet (onVCpu v VcpuM.advance) m :=
      (remains_advance Effect.routine_subset_quiet (.inr trivial) trivial).walks
    apply Ends.bind ha.forget
    intro _ n hn
    apply ends_completing
    cases call with
    | none => exact Ends.error rfl (enterable_fail n v _)
    | some call =>
        apply (enterable_serve v call).mono
        · intro t n' ht
          exact ht.after hn
        · intro s n' _
          apply enterable_fail n'

theorem enterable_handleHypercall (h : m.Agrees) (v : Vpid) :
  Ends (handleHypercall v) m (fun t n => ∀ t', t = some t' → Enterable v m t' n)
    (fun _ _ => True)
  := by
  have hq : ∀ {l l'}, Path Effect.routine l l' → Path Effect.quiet l l' := fun hp =>
    hp.mono Effect.routine_subset_quiet
  apply ends_handleHypercall_of_serveCall (E := fun _ => True) h (fun _ _ => trivial)
  · intro _ t' ht
    exact absurd ht (Option.some_ne_none t').symm
  · intro n hn _ _
    apply (enterable_serveCall v _).imp
    rintro t n' ht _ ⟨⟩
    exact ht.after (hq hn)
  · intro t n n' hn ht
    refine ⟨?_, trivial⟩
    intro t' h'
    exact (ht t' h').before (hq hn)

/-- A call that is not about the scheduler stops nobody. -/
theorem isPaused_of_handleHypercall (h : m.Agrees) (hcall : LeavesScheduler (m.call? v))
    (hn : (after (handleHypercall v) m).isPaused o = true) :
  m.isPaused o = true
  := by
  refine Path.isPaused_of_withoutPause ?_ hn
  apply Walks.after
  apply walks_handleHypercall Effect.routine_subset_withoutPause h.aimed trivial
    (fun _ => trivial)
  intro call hc
  rw [hc] at hcall
  cases call with
  | pause => exact absurd rfl hcall.1
  | resume => exact absurd rfl hcall.2
  | nextExit =>
      rintro _ rfl
      trivial
  | endOfExit =>
      rintro k (rfl | ⟨o, hk⟩)
      · trivial
      · exact Effect.passing_subset_withoutPause o hk
  | vmwrite =>
      rintro k (rfl | ⟨_, _, rfl⟩ | ⟨o, hk⟩)
      · trivial
      · trivial
      · exact Effect.passing_subset_withoutPause o (Effect.freeing_subset_passing o hk)
  | _ => exact Set.empty_subset _

/-! ### Runs -/

/-- The operations of an orderly run, in which processors may also be registered that are
stopped. -/
def Regular (m : Machine) : Operation → Prop
  | .add _ c => c.faults.Dependable
  | o => Orderly m o

variable {m₀ : Machine} {op : Operation}

/-- The books stay right, though more may be owed. -/
theorem exists_sound_run {owed : Multiset Vpid} (h : Sound owed m) (ho : Regular m op) :
  ∃ owed', Sound owed' (op.run m)
  := by
  cases op with
  | add v c =>
      cases hv : m.isRegistered v with
      | true =>
          use owed
          rw [Operation.run, add_of_registered hv]
          apply h.withJournal
      | false => exact ⟨_, h.register hv ho⟩
  | _ => exact ⟨owed, h.run ho⟩

/-- An exit ends in a transfer as a hypercall does, or as a trap of the processor does. -/
theorem enterable_of_endsIn (hm : m.Agrees) (ho : Regular m op) (h : op.EndsIn m t n) :
  (∃ v, op.caller? = some v ∧ LeavesScheduler (m.call? v) ∧ Enterable v m t n) ∨
    ∃ e, Placed e m t n
  := by
  cases op with
  | hypercall v =>
      have hx : handleHypercall v m = .ok (some t) n := h
      have ht := enterable_handleHypercall hm v
      rw [Ends, hx] at ht
      exact .inl ⟨v, rfl, ho, ht t rfl⟩
  | exit v x =>
      have hx : handleExit v x m = .ok (some t) n := h
      by_cases hr : x.reason = .vmcall
      · left
        have hentry : x.entryFailure = false := by
          rw [← Bool.not_eq_true]
          intro hf
          rw [handleExit, if_pos hf] at hx
          obtain ⟨hnone, -⟩ := EStateM.Result.ok.inj hx
          exact absurd hnone (Option.some_ne_none t).symm
        have hcaller : (Operation.exit v x).caller? = some v := by
          rw [Operation.caller?, if_pos ⟨hentry, hr⟩]
        have ht := enterable_handleHypercall hm v
        rw [Ends, handleHypercall_of_endsIn hcaller h] at ht
        exact ⟨v, hcaller, ho.1 hr, ht t rfl⟩
      · right
        have ht := placed_handleExit (x := x) hm hr ho.2
        rw [Ends, hx] at ht
        obtain ⟨e, -, he⟩ := ht t rfl
        exact ⟨e, he⟩
  | _ => exact False.elim h

/-- As long as nothing fails that the broker depends on, and nobody but the broker stops
processors, no event of the processor that is entered next is in flight, except in three
situations.  The processor was stopped already and is the one that has made a call, or the
parent that a waiting caller goes back to; or an event has just been queued for it, and it was
stopped already or is the origin of that event itself. -/
theorem nothing_in_flight_of_entered (h₀ : m₀.IsNew) (h : Run Regular m₀ m)
    (ho : Regular m op) (ht : op.EndsIn m t n) :
  (∀ l, ∀ e ∈ n.slot l, e.origin ≠ t.target) ∨
    (m.isPaused t.target = true ∧
      (op.caller? = some t.target ∨ ∃ parent yield, t = .returnToParent parent yield)) ∨
    ∃ e, m.slot t.target = [] ∧ n.slot t.target = [e] ∧
      (m.isPaused t.target = true ∨ e.origin = t.target)
  := by
  obtain ⟨owed, hm⟩ := h.keeps (I := fun l => ∃ owed, Sound owed l)
    (fun _ _ hk hl => hl.elim fun _ hl => exists_sound_run hl hk) ⟨0, h₀.sound⟩
  obtain ⟨owed', hn⟩ := exists_sound_run hm ho
  rw [run_of_endsIn ht] at hn
  cases hp : n.isPaused t.target with
  | false =>
      left
      rintro l e he hot
      rw [← hot, hn.isPaused_of_mem he] at hp
      exact Bool.noConfusion hp
  | true =>
      right
      obtain ⟨v, hcaller, hcall, hent⟩ | ⟨e, hfreed | ⟨hempty, hone, hpaused⟩⟩ :=
        enterable_of_endsIn hm.agrees ho ht
      · have hbefore : m.isPaused t.target = true := by
          apply isPaused_of_handleHypercall hm.agrees hcall
          rw [← run_of_caller? hcaller, run_of_endsIn ht, hp]
        rcases hent with rfl | hret | hrun | ⟨e, hempty, hone⟩
        · exact .inl ⟨hbefore, .inl hcaller⟩
        · exact .inl ⟨hbefore, .inr hret⟩
        · rw [hp] at hrun
          exact Bool.noConfusion hrun
        · exact .inr ⟨e, hempty, hone, .inl hbefore⟩
      · obtain ⟨rfl, hrun⟩ := hfreed
        rw [Transfer.target, hrun] at hp
        exact Bool.noConfusion hp
      · right
        refine ⟨e, hempty, hone, ?_⟩
        by_cases hot : e.origin = t.target
        · exact .inr hot
        · left
          rw [← hpaused _ (Ne.symm hot), hp]

/-- One processor listens for the moves to CR3 of another one, and a third one for those of
this listener.  When the listener is stopped, the third one is entered, of which no event is
in flight. -/
theorem nothing_in_flight_of_entered_listener :
  let caller (target : UInt64) : VCpu := { regs := {
    rax := 0x60003, r11 := target, r12 := 0x4002, r13 := 0x8000, r14 := 0x8000 } }
  let x : HardwareExit := { reason := .crAccess, qualification := 3 }
  let added := (Operation.add 3 (caller 2)).run
    ((Operation.add 2 (caller 1)).run ((Operation.add 1 {}).run {}))
  let subscribed := (Operation.hypercall 3).run ((Operation.hypercall 2).run added)
  let trapped := (Operation.exit 2 x).run subscribed
  trapped.slot 3 = [⟨2, .cr3Load, 0, 0⟩] ∧ ∀ l, ∀ e ∈ trapped.slot l, e.origin ≠ 3
  := by
  intro caller x added subscribed trapped
  have h₁ : Run Regular {} added :=
    (((Run.refl _).tail (o := .add 1 {}) Faults.dependable_default).tail
      (o := .add 2 (caller 1)) Faults.dependable_default).tail
        (o := .add 3 (caller 2)) Faults.dependable_default
  have h₂ := h₁.tail (o := .hypercall 2) ⟨by decide +kernel, by decide +kernel⟩
  have h : Run Regular {} subscribed :=
    h₂.tail (o := .hypercall 3) ⟨by decide +kernel, by decide +kernel⟩
  have ho : Regular subscribed (.exit 2 x) :=
    ⟨BasicReason.noConfusion, fun _ => by decide +kernel⟩
  have ht : (Operation.exit 2 x).EndsIn subscribed (.run 3) trapped :=
    endsIn_exit (by decide +kernel)
  have hs : trapped.slot 3 = [⟨2, .cr3Load, 0, 0⟩] := by
    decide +kernel
  have hp : subscribed.isPaused 3 = false := by
    decide +kernel
  refine ⟨hs, ?_⟩
  obtain hn | ⟨hp', -⟩ | ⟨e, -, he, hp' | ho'⟩ :=
    nothing_in_flight_of_entered ⟨rfl, rfl⟩ h ho ht
  · exact hn
  · rw [Transfer.target, hp] at hp'
    exact Bool.noConfusion hp'
  · rw [Transfer.target, hp] at hp'
    exact Bool.noConfusion hp'
  · rw [Transfer.target, hs] at he
    obtain rfl := List.singleton_inj.mp he
    exact absurd ho' (by decide)

/-- Processors that are stopped are entered.  The second processor listens for the moves to
CR3 of the first one, the third one for those of the second one, and the fourth one, which is
in user mode, for its own.

The second one is stopped by a move that it makes, and then a move of the first one enters it.
So does the call with which it asks for that event.  The first one is stopped now, and the
fourth one, which waits, goes back to it.  A move of the fourth one enters the fourth one. -/
theorem stopped_entered :
  let caller (target : UInt64) : VCpu := { regs := {
    rax := 0x60003, r11 := target, r12 := 0x4002, r13 := 0x8000, r14 := 0x8000 } }
  let user : VCpu :=
    { caller 4 with parent := some 1, vmcs := Vmcs.initial.write Field.cs 3 }
  let asking : Registers := { rax := 0x60000 }
  let x : HardwareExit := { reason := .crAccess, qualification := 3 }
  let added := (Operation.add 4 user).run ((Operation.add 3 (caller 2)).run
    ((Operation.add 2 (caller 1)).run ((Operation.add 1 {}).run {})))
  let subscribed := (Operation.hypercall 4).run
    ((Operation.hypercall 3).run ((Operation.hypercall 2).run added))
  let stopped := (Operation.exit 2 x).run subscribed
  let told := (Operation.exit 1 x).run stopped
  let asked := (Operation.guest 2 asking {}).run told
  let answered := (Operation.hypercall 2).run asked
  let waiting := (Operation.guest 4 asking user.vmcs).run told
  let returned := (Operation.hypercall 4).run waiting
  let turned := (Operation.exit 4 x).run subscribed
  (Run Smooth {} told ∧ (Operation.exit 1 x).EndsIn stopped (.run 2) told ∧
      told.slot 3 = [⟨2, .cr3Load, 0, 0⟩]) ∧
    (Run Smooth {} answered ∧ (Operation.hypercall 2).EndsIn asked (.run 2) answered ∧
      answered.slot 3 = [⟨2, .cr3Load, 0, 0⟩]) ∧
    (Run Smooth {} returned ∧
      (Operation.hypercall 4).EndsIn waiting (.returnToParent 1 none) returned ∧
      returned.slot 2 = [⟨1, .cr3Load, 0, 0⟩]) ∧
    (Run Smooth {} turned ∧ (Operation.exit 4 x).EndsIn subscribed (.run 4) turned ∧
      turned.slot 4 = [⟨4, .cr3Load, 0, 0⟩])
  := by
  intro caller user asking x added subscribed stopped told asked answered waiting returned turned
  have h₁ : Run Smooth {} ((Operation.add 2 (caller 1)).run ((Operation.add 1 {}).run {})) :=
    ((Run.refl _).tail (smooth_add rfl rfl)).tail (smooth_add rfl rfl)
  have h₂ : Run Smooth {} added := (h₁.tail (smooth_add rfl rfl)).tail (smooth_add rfl rfl)
  have h₃ := h₂.tail (o := .hypercall 2) (smooth_hypercall (by decide +kernel))
  have h₄ := h₃.tail (o := .hypercall 3) (smooth_hypercall (by decide +kernel))
  have h : Run Smooth {} subscribed :=
    h₄.tail (o := .hypercall 4) (smooth_hypercall (by decide +kernel))
  have hs : Run Smooth {} stopped :=
    h.tail (o := .exit 2 x) (smooth_trap rfl (by decide +kernel))
  have ht : Run Smooth {} told :=
    hs.tail (o := .exit 1 x) (smooth_trap rfl (by decide +kernel))
  have ha : Run Smooth {} asked := ht.tail (o := .guest 2 asking {}) ⟨trivial, trivial⟩
  have hw : Run Smooth {} waiting := ht.tail (o := .guest 4 asking user.vmcs) ⟨trivial, trivial⟩
  refine ⟨⟨ht, ?_, ?_⟩, ⟨?_, ?_, ?_⟩, ⟨?_, ?_, ?_⟩, ⟨?_, ?_, ?_⟩⟩
  · exact endsIn_exit (by decide +kernel)
  · decide +kernel
  · exact ha.tail (o := .hypercall 2) (smooth_hypercall (by decide +kernel))
  · exact endsIn_hypercall (by decide +kernel)
  · decide +kernel
  · exact hw.tail (o := .hypercall 4) (smooth_hypercall (by decide +kernel))
  · exact endsIn_hypercall (by decide +kernel)
  · decide +kernel
  · exact h.tail (o := .exit 4 x) (smooth_trap rfl (by decide +kernel))
  · exact endsIn_exit (by decide +kernel)
  · decide +kernel

end Machine

end ExitRelay
