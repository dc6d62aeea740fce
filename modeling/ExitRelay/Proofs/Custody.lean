import ExitRelay.Proofs.Balance
import ExitRelay.Proofs.Footprint.Exit

/-!
# Events in hand

Between taking an event from one listener and disposing of it, a program has the event in
hand: it is pending for nobody, and its origin is stopped.  Passing the event on and answering
it dispose of it in one of two ways: the event is queued for a listener, or its origin goes on.
What `Custody` says about these two ways holds of whatever such a program ends in, as long as
the origin can be loaded, moved, read and written; whatever else fails does so after the event
has been disposed of.
-/

namespace ExitRelay.Machine

variable {m n : Machine} {v l o : Vpid} {e : ExitEvent} {A B : Machine → Prop}
  {P : Faults → Prop} {α : Type}

/-! ### What is known about the hardware of one processor -/

/-- The processor is registered, and its fault plans have the property. -/
def Assures (m : Machine) (v : Vpid) (P : Faults → Prop) : Prop :=
  ∃ c, m.vcpu? v = some c ∧ P c.faults

namespace Assures

theorem isRegistered (h : m.Assures v P) :
  m.isRegistered v = true
  := by
  obtain ⟨c, hc, -⟩ := h
  exact isRegistered_iff_vcpu?.mpr ⟨c, hc⟩

theorem mobile (h : m.Assures v Faults.Dependable) :
  m.Assures v Faults.Mobile
  := by
  obtain ⟨c, hc, hd⟩ := h
  exact ⟨c, hc, hd.mobile⟩

theorem mapBroker (h : m.Assures v P) (w : Vpid) (f : Broker → Broker) :
  (m.mapBroker w f).Assures v P
  := by
  obtain ⟨c, hc, hd⟩ := h
  refine ⟨c, ?_, hd⟩
  rw [vcpu?_mapBroker, hc]

/-- Effects keep what attempts keep. -/
theorem apply (h : m.Assures v P) (hP : ∀ f k, P f → P (f.set k (f.get k).next)) (k : Effect) :
  (k.apply m).Assures v P
  := by
  have hr : (k.apply m).isRegistered v = true := by
    rw [isRegistered_apply, h.isRegistered]
  obtain ⟨c, hc, hf⟩ := h
  obtain ⟨d, hd⟩ := isRegistered_iff_vcpu?.mp hr
  obtain ⟨c', hc', hk⟩ := faults_apply hd
  obtain rfl : c = c' := Option.some.inj (hc.symm.trans hc')
  refine ⟨d, hd, ?_⟩
  obtain hk | ⟨k, hk⟩ := hk
  · rw [hk]
    exact hf
  · rw [hk]
    apply hP _ k hf

theorem path {p : Set Effect} (h : m.Assures v P)
    (hP : ∀ f k, P f → P (f.set k (f.get k).next)) (hp : Path p m n) :
  n.Assures v P
  := hp.keeps (I := fun l => l.Assures v P) (fun k _ _ _ hl => hl.apply hP k) h

end Assures

/-- A registered processor of a dependable machine is dependable. -/
theorem Dependable.assures (h : m.Dependable) (hv : m.isRegistered v = true) :
  m.Assures v Faults.Dependable
  := by
  obtain ⟨c, hc⟩ := isRegistered_iff_vcpu?.mp hv
  exact ⟨c, hc, h v c hc⟩

/-! ### Disposing of an event -/

/-- While the event is in hand, `A` holds; as soon as it has been queued or its origin goes on,
`B` does, and lasts. -/
structure Custody (e : ExitEvent) (A B : Machine → Prop) : Prop where
  dependable : ∀ {m}, A m → m.Assures e.origin Faults.Dependable
  withJournal : ∀ {m}, A m → ∀ j, A (m.withJournal j)
  next : ∀ {m}, A m → A (m.mapBroker e.origin (Broker.Effect.next e.reason).apply)
  queue : ∀ {m l}, A m → m.isRegistered l = true → ∀ j,
    B ((m.mapBroker l (Broker.Effect.queue e).apply).withJournal j)
  resume : ∀ {m f}, A m → (∀ c, (f c).faults = c.faults) → (∀ c, (f c).paused = false) → ∀ j,
    B (((m.switchTo e.origin).mapVCpu e.origin f).withJournal j)
  keep : ∀ {m n}, B m → Path Effect.quiet m n → B n

namespace Custody

variable (h : Custody e A B)

include h

theorem walks {x : SysM α} (hx : Walks Effect.quiet x m) (hm : B m) :
  Ends x m (fun _ => B) (fun _ => B)
  := hx.ends fun _ hp => h.keep hm hp

theorem release (hm : A m) (advance : Bool) :
  Ends (release e.origin advance) m (fun _ => B) (fun _ => B)
  := by
  obtain ⟨c, hc, hd⟩ := h.dependable hm
  apply (yields_release hc hd.mobile advance).ends
  apply h.resume hm
  · apply VCpu.faults_released
  · intro c
    rfl

theorem fallBack (hm : A m) :
  Ends (fallBack e) m (fun _ => B) (fun _ => B)
  := by
  obtain ⟨c, hc, hd⟩ := h.dependable hm
  apply (yields_fallBack hc hd).ends
  apply h.resume hm
  · apply VCpu.faults_givenUp
  · intro c
    rfl

/-- The event is queued, or its origin goes on, before the listener is told. -/
theorem inject (hm : A m) (hl : m.isRegistered l = true) :
  Ends (inject l e) m (fun _ => B) (fun _ => B)
  := by
  obtain ⟨b, hb⟩ := isRegistered_iff_broker?.mp hl
  have hq := Effect.routine_subset_quiet
  rw [inject_eq]
  apply Ends.bind_ok (broker_eq hb)
  split
  · apply (yields_modifyBroker hb _).ends_bind
    intro j
    apply h.walks _ (h.queue hm hl j)
    apply (walks_load hq l).bind
    intro _ _ _
    apply (remains_announce hq (.inr trivial) _).walks.bind
    intro _ _ _
    apply Walks.pure _
  · apply (yields_note _).ends_bind
    intro j
    apply h.fallBack (h.withJournal hm j)

/-- A declined event is still in hand if no listener follows. -/
theorem notifyNext (hm : A m) :
  Ends (notifyNext e) m (fun t n => if t.isSome then B n else A n) (fun _ => B)
  := by
  obtain ⟨b, hb⟩ := isRegistered_iff_broker?.mp (h.dependable hm).isRegistered
  rw [Machine.notifyNext]
  apply (yields_onBroker hb _).ends_bind
  intro j
  have hn := h.withJournal (h.next hm) j
  split
  · apply (yields_note _).ends_bind
    intro j'
    exact h.withJournal hn j'
  · apply Ends.bind_ok contains_eq
    split
    · rename_i hl
      apply Ends.map
      apply h.inject hn hl
    · apply (yields_note _).ends_bind
      intro j'
      exact h.withJournal hn j'

theorem passOn (hm : A m) :
  Ends (passOn e) m (fun _ => B) (fun _ => B)
  := by
  rw [Machine.passOn]
  apply (h.notifyNext hm).bind
  intro t n hn
  cases t with
  | some t => exact hn
  | none => exact h.fallBack hn

/-- An event that is answered is in hand once it has been taken from the listener. -/
theorem endOfExit {es : List ExitEvent} (hs : m.slot v = e :: es)
    (ho : m.isRegistered e.origin = true) (hm : A (m.answered v)) :
  Ends (endOfExit v) m (fun _ => B) (fun _ => B)
  := by
  obtain ⟨c, hc⟩ := isRegistered_iff_vcpu?.mp (isRegistered_of_slot_cons hs)
  apply ends_endOfExit hc hs ho
  intro j
  split
  · apply h.release (h.withJournal hm j)
  · apply h.passOn (h.withJournal hm j)

end Custody

/-! ### Settling an event -/

/-- The machine in which an event has been taken from the caller, and its origin, which is
loaded, falls back and goes on. -/
def letGo (m : Machine) (caller : Vpid) (e : ExitEvent) (control : Control) : Machine :=
  ((m.mapBroker caller Broker.Effect.pop.apply).switchTo e.origin).mapVCpu e.origin
    (VCpu.withPaused false ∘ VCpu.fellBack control)

/-- Where a processor is loaded and works without failing, nothing but the switch back can fail
after that. -/
theorem ends_withVmcs {x : VcpuM α} {a : α} {f : VCpu → VCpu} {c : VCpu} (h : m.Agrees)
    (hc : m.vcpu? o = some c) (hl : c.faults.load = {})
    (hx : Yields (onVCpu o x) (m.switchTo o) a ((m.switchTo o).mapVCpu o f))
    (hn : ∀ j n, Path Effect.routine (((m.switchTo o).mapVCpu o f).withJournal j) n → B n) :
  Ends (withVmcs o x) m (fun _ => B) (fun _ => B)
  := by
  rw [withVmcs]
  apply Ends.bind_ok rfl
  apply (yields_enter (fun hl => (h o hl).2) hc hl).ends_bind
  intro j
  apply Yields.ends_bind (m := (m.switchTo o).withJournal j) hx.outcome
  intro j
  have hrestore : Walks Effect.routine (restore o m.loaded)
      (((m.switchTo o).mapVCpu o f).withJournal j) := by
    apply walks_restore (Set.Subset.refl _)
    intro p hp
    rw [isRegistered_withJournal, isRegistered_mapVCpu, isRegistered_switchTo]
    apply (h p hp).1
  apply (hrestore.ends (hn j)).bind
  intro _ n hi
  exact hi

/-- If the origin of the event in flight can be loaded and moved, settling the event leaves the
machine as it is, or the event is taken and its origin goes on. -/
theorem ends_settlePending_of_mobile {caller target : Vpid} {control : Control} (h : m.Agrees)
    (hm : ∀ n, Path Effect.routine m n → B n)
    (he : ∀ e es, m.slot caller = e :: es →
      m.Assures e.origin Faults.Mobile ∧
      ∀ j n, Path Effect.routine ((m.letGo caller e control).withJournal j) n → B n) :
  Ends (settlePending caller target control) m (fun _ => B) (fun _ => B)
  := by
  have hr := Set.Subset.refl Effect.routine
  rw [settlePending]
  apply Ends.bind ((ends_broker hr caller).mono (fun _ _ h => h) (fun _ n hs => hm n hs.1))
  rintro b m ⟨hb, rfl⟩
  split
  · apply hm m (Path.refl _ m)
  · rename_i e hf
    split
    · obtain ⟨es, hes⟩ : ∃ es, b.pending.events = e :: es := List.head?_eq_some_iff.mp hf
      obtain ⟨⟨c, hc, hd⟩, hn⟩ := he e es ((slot_of_broker? hb).trans hes)
      have hc' : (m.mapBroker caller Broker.Effect.pop.apply).vcpu? e.origin = some c := by
        rw [vcpu?_mapBroker, hc]
      have hx := yields_runFallback_resume (m := (m.mapBroker caller _).switchTo e.origin) hc' rfl
        hd control
      apply Yields.ends_bind (n := m.mapBroker caller Broker.Effect.pop.apply)
        (yields_modifyBroker hb _)
      intro j
      apply (yields_note _).ends_bind
      intro j'
      apply ends_withVmcs (m := ((m.mapBroker caller _).withJournal j).withJournal j')
        (h.mapBroker caller _) hc' hd.load hx hn
    · apply hm m (Path.refl _ m)

end ExitRelay.Machine
