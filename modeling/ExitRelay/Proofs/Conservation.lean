import ExitRelay.Proofs.Custody
import ExitRelay.Proofs.Operation
import ExitRelay.Proofs.Preservation

/-!
# Conservation of events

No event is lost or duplicated, and no processor stays stopped whose event nobody holds, as
long as the hardware loads, reads, writes and advances as it is told.  The programs may fail
on the way, and interrupts and translations may be refused.  Each program leaves the books
on events right, whichever way it ends; while an event is owed, it does nothing that fails.
-/

namespace ExitRelay.Machine

variable {m n : Machine} {v l o : Vpid} {e : ExitEvent} {owed : Multiset Vpid}

/-- The books are right, and the processor is not stopped. -/
structure Ready (owed : Multiset Vpid) (v : Vpid) (m : Machine) : Prop where
  sound : Sound owed m
  running : m.isPaused v = false

theorem Ready.withJournal (h : Ready owed v m) (j : Journal) :
  Ready owed v (m.withJournal j)
  := ⟨h.sound.withJournal j, h.running⟩

theorem Ready.path (h : Ready owed v m) (hp : Path Effect.quiet m n) :
  Ready owed v n
  := by
  constructor
  · apply h.sound.path hp
  · rw [hp.isPaused, h.running]

/-- The books stay right along the effects that move no event. -/
theorem framed_sound (owed : Multiset Vpid) :
  Framed Effect.quiet (Sound owed)
  := ⟨Effect.plain_subset_quiet, Sound.agrees, fun hq hk h => h.apply hq hk⟩

/-- Effects that move no event stop no processor either. -/
theorem framed_ready (owed : Multiset Vpid) (v : Vpid) :
  Framed Effect.quiet (Ready owed v)
  := by
  constructor
  · exact Effect.plain_subset_quiet
  · intro m h
    exact h.sound.agrees
  · intro k m hq hk h
    apply h.path (Path.single hq hk)

/-! ### Offering events -/

/-- An event in hand is owed to its origin. -/
theorem custody_sound (e : ExitEvent) (owed : Multiset Vpid) :
  Custody e (Sound (e.origin ::ₘ owed)) (Sound owed)
  := by
  constructor
  · intro m h
    apply h.dependable.assures h.isRegistered
  · intro m h j
    apply h.withJournal j
  · intro m h
    obtain ⟨b, hb⟩ := isRegistered_iff_broker?.mp h.isRegistered
    exact h.apply (k := .broker e.origin (.next e.reason)) trivial ⟨b, hb, trivial⟩
  · intro m l h hl j
    apply (h.queue hl).withJournal j
  · intro m f h hf hp j
    apply ((h.switchTo h.isRegistered).resume hf hp).withJournal j
  · intro m n h hp
    apply h.path hp

/-- A processor that is not stopped is stopped and owed an event, unless it is unknown. -/
theorem ends_pause (h : Ready owed o m) :
  Ends (onVCpu o VcpuM.pause) m
    (fun _ n => Sound (o ::ₘ owed) n ∧ ∀ w, n.isRegistered w = m.isRegistered w)
    (fun _ => Sound owed)
  := by
  cases hc : m.vcpu? o with
  | none => exact Ends.error (onVCpu_of_none hc _) (h.sound.withJournal _)
  | some c =>
      apply (yields_pause hc).ends
      intro j
      have ho : m.isRegistered o = true := isRegistered_iff_vcpu?.mpr ⟨c, hc⟩
      refine ⟨(h.sound.pause ho h.running).withJournal j, ?_⟩
      intro w
      rw [isRegistered_withJournal, isRegistered_mapVCpu]

/-- An event that arises is owed until a listener has it. -/
theorem sound_notify (h : Ready owed e.origin m) :
  Ends (notify e) m (fun _ => Sound owed) (fun _ => Sound owed)
  := by
  have hq := Effect.routine_subset_quiet
  have hf : Remains Effect.quiet (onBroker e.origin fun b =>
      ((b.registry.first e.reason).1, { b with registry := (b.registry.first e.reason).2 })) m :=
    remains_onBroker hq (.first e.reason) trivial (fun _ _ => trivial) (fun _ => rfl)
  rw [notify]
  apply Ends.bind ((framed_ready owed e.origin).leads (fun _ hn => hn.sound) hf.walks h)
  intro first n hn
  cases first with
  | none => exact hn.sound
  | some l =>
      apply Ends.bind_ok contains_eq
      split
      · rename_i hl
        apply (yields_note _).ends_bind
        intro j
        apply (ends_pause (hn.withJournal j)).bind
        rintro _ n' ⟨hn', hr⟩
        apply Ends.map
        apply (custody_sound e owed).inject hn'
        rw [hr, isRegistered_withJournal, hl]
      · apply (framed_sound owed).walks _ hn.sound
        apply (remains_note hq _).walks.bind
        intro _ _ _
        apply Walks.pure none

/-! ### Answering events -/

/-- An event that is answered is owed until its origin goes on or another listener has it. -/
theorem keeps_sound_endOfExit (owed : Multiset Vpid) (v : Vpid) :
  Keeps (Sound owed) (endOfExit v)
  := by
  intro m h
  have hq := Effect.routine_subset_quiet
  cases hs : m.slot v with
  | nil =>
      rw [endOfExit]
      apply Ends.bind ((ends_registers hq v).mono (fun _ _ h => h) (fun _ _ hs => h.path hs.1))
      rintro regs m ⟨⟨c, hc, rfl⟩, rfl⟩
      apply (yields_pop_nil (isRegistered_iff_vcpu?.mpr ⟨c, hc⟩) hs).ends_bind
      intro j
      apply (framed_sound owed).walks _ (h.withJournal j)
      apply (remains_note hq _).walks.bind
      intro _ _ _
      apply (remains_refuse hq _).walks
  | cons e es =>
      have ha : Sound (e.origin ::ₘ owed) (m.answered v) :=
        (h.pop hs).apply (k := .vcpu v (.results _)) trivial
          (Registers.setsResults_id.rax Status.success.code)
      apply (custody_sound e owed).endOfExit hs (h.isRegistered_of_slot hs) ha

/-! ### Switching controls -/

theorem Sound.letGo (h : Sound owed m) {es : List ExitEvent} (hs : m.slot v = e :: es)
    (control : Control) :
  Sound owed (m.letGo v e control)
  := by
  have hp := h.pop hs
  apply (hp.switchTo hp.isRegistered).resume
  · apply VCpu.faults_fellBack
  · intro c
    rfl

/-- An event that is settled is taken from the caller, and its origin goes on. -/
theorem keeps_sound_settlePending (owed : Multiset Vpid) (caller target : Vpid)
    (control : Control) :
  Keeps (Sound owed) (settlePending caller target control)
  := by
  intro m h
  have hq := Effect.routine_subset_quiet
  apply ends_settlePending_of_mobile h.agrees
  · intro n hn
    apply h.path (hn.mono hq)
  · intro e es hs
    constructor
    · apply (h.dependable.assures (h.isRegistered_of_slot hs)).mobile
    · intro j n hn
      apply ((h.letGo hs control).withJournal j).path (hn.mono hq)

theorem keeps_sound_unsubscribe (owed : Multiset Vpid) (caller target : Vpid)
    (control : Control) :
  Keeps (Sound owed) (unsubscribe caller target control)
  := (framed_sound owed).keeps_unsubscribe trivial
    (keeps_sound_settlePending owed caller target control)

/-! ### Hypercalls -/

/-- The call neither stops a processor nor lets it go on by itself. -/
def LeavesScheduler (call : Option Call) : Prop :=
  call ≠ some .pause ∧ call ≠ some .resume

/-- A call that leaves the scheduler alone and takes no event moves none. -/
theorem LeavesScheduler.effects_subset_quiet {call : Call} (h : LeavesScheduler (some call))
    (ht : ¬ call.Takes) :
  call.effects v ⊆ Effect.quiet
  := by
  rintro k hk
  cases call with
  | pause => exact absurd rfl h.1
  | resume => exact absurd rfl h.2
  | endOfExit => exact absurd (.inl rfl) ht
  | vmwrite => exact absurd (.inr rfl) ht
  | nextExit =>
      obtain rfl := hk
      trivial
  | _ => exact False.elim hk

/-! ### Calls and exits -/

/-- A hypercall keeps the books right, unless it is about the scheduler. -/
theorem sound_handleHypercall (h : Sound owed m) (hcall : LeavesScheduler (m.call? v)) :
  Ends (handleHypercall v) m (fun _ => Sound owed) (fun _ => Sound owed)
  := by
  apply ends_handleHypercall_framed (framed_sound owed) (keeps_sound_unsubscribe owed v)
    (keeps_sound_endOfExit owed v) h
  intro c hc ht
  rw [hc] at hcall
  apply hcall.effects_subset_quiet ht

/-- A trap of a processor that runs keeps the books right, as does a hypercall that is not
about the scheduler. -/
theorem sound_handleExit {x : HardwareExit} (h : Sound owed m)
    (hcall : x.reason = .vmcall → LeavesScheduler (m.call? v))
    (hrun : MayTrap x.reason → m.isPaused v = false) :
  Ends (handleExit v x) m (fun _ => Sound owed) (fun _ => Sound owed)
  := by
  apply ends_handleExit_framed (framed_sound owed) (framed_ready owed v) (fun _ hn => hn.sound)
    _ h
  · intro hx
    exact ⟨h, hrun hx⟩
  · intro hx
    apply sound_handleHypercall h (hcall hx)
  · rintro e n rfl hn
    apply sound_notify hn

/-! ### Runs -/

/-- The operations under which events are conserved: no processor is removed, none is
registered that is stopped or not dependable, none exits with a trap while it is stopped, and
no call is about the scheduler. -/
def Orderly (m : Machine) : Operation → Prop
  | .time _ => True
  | .guest _ _ _ => True
  | .faults _ plans => plans.Dependable
  | .add _ c => c.paused = false ∧ c.faults.Dependable
  | .load _ => True
  | .exit v x => (x.reason = .vmcall → LeavesScheduler (m.call? v)) ∧
      (MayTrap x.reason → m.isPaused v = false)
  | .hypercall v => LeavesScheduler (m.call? v)
  | _ => False

/-- The books of a new machine are right. -/
theorem IsNew.sound (h : m.IsNew) :
  Sound 0 m
  := by
  constructor
  · exact h.agrees
  · exact guarantees_of_residents h.1
  · intro v
    have hv : ∀ w, m.isRegistered w = false := by
      intro w
      rw [Machine.isRegistered, h.1]
      rfl
    have hp : ¬ m.isPaused v = true := by
      intro hp
      have hr := isRegistered_of_isPaused hp
      rw [hv] at hr
      apply Bool.false_ne_true hr
    have hs : m.outstanding v = 0 := by
      apply Finset.sum_eq_zero
      intro w _
      rw [slot_of_unregistered (hv w)]
      rfl
    rw [if_neg hp, hs]
    rfl

/-- A processor that is registered has no event yet.  If it is stopped, it is owed one. -/
theorem Sound.register (h : Sound owed m) (hv : m.isRegistered v = false) {c : VCpu}
    (hf : c.faults.Dependable) :
  Sound (if c.paused then v ::ₘ owed else owed) (after (Machine.add v c) m)
  := by
  constructor
  · apply h.agrees.add
  · rw [add_eq hv]
    apply h.dependable.insert v hf
  · intro w
    have hw := h.balanced w
    have hs : (after (Machine.add v c) m).outstanding w = m.outstanding w :=
      outstanding_congr (fun _ => slot_add c) w
    rw [hs]
    by_cases hwv : w = v
    · subst w
      have hp : ¬ m.isPaused v = true := by
        intro hp
        rw [isRegistered_of_isPaused hp] at hv
        exact Bool.noConfusion hv
      have hc : (after (Machine.add v c) m).isPaused v = c.paused := by
        rw [isPaused, vcpu?, getElem?_residents_add_self c hv]
        rfl
      rw [if_neg hp] at hw
      rw [hc]
      split
      · rw [Multiset.count_cons_self, ← Nat.add_assoc, hw]
      · exact hw
    · rw [isPaused_of_residents (getElem?_residents_add_of_ne c hwv), ← hw]
      split
      · rw [Multiset.count_cons_of_ne hwv]
      · rfl

/-- A processor that runs may be registered. -/
theorem Sound.add (h : Sound owed m) (v : Vpid) {c : VCpu} (hc : c.paused = false)
    (hf : c.faults.Dependable) :
  Sound owed (after (Machine.add v c) m)
  := by
  cases hv : m.isRegistered v with
  | true =>
      rw [add_of_registered hv]
      apply h.withJournal _
  | false =>
      have hn := h.register hv hf
      rwa [hc, if_neg Bool.false_ne_true] at hn

theorem Sound.run (h : Sound owed m) {k : Operation} (hk : Orderly m k) :
  Sound owed (k.run m)
  := by
  cases k with
  | time now => exact ⟨h.agrees, h.dependable, h.balanced⟩
  | guest v regs vmcs =>
      have hd : (m.mapVCpu v fun c => { c with regs, vmcs }).Dependable := by
        refine h.dependable.mapVCpu ?_ v
        intro c
        rfl
      apply h.mapVCpu hd
      intro c
      rfl
  | faults v plans =>
      have hd : (m.mapVCpu v fun c => { c with faults := plans }).Dependable := by
        refine h.dependable.mapVCpu_of ?_ v
        intro c _
        exact hk
      apply h.mapVCpu hd
      intro c
      rfl
  | add v c => exact h.add v hk.1 hk.2
  | load v =>
      exact Ends.after ((framed_sound owed).walks (walks_load Effect.routine_subset_quiet v) h)
  | exit v x => exact Ends.after (sound_handleExit h hk.1 hk.2)
  | hypercall v => exact Ends.after (sound_handleHypercall h hk)
  | _ => exact False.elim hk

/-- Every event that has arisen is pending exactly once until its origin goes on: a processor
that is stopped has one event, for whichever listener it is pending, and one that runs has
none. -/
theorem conservation (hm : m.IsNew) (h : Run Orderly m n) (v : Vpid) :
  (n.isPaused v = true ↔ n.outstanding v = 1) ∧
    (n.isPaused v = false → n.outstanding v = 0)
  := by
  have hv := (h.keeps (fun _ _ hk hl => hl.run hk) hm.sound).balanced v
  rw [Multiset.count_zero, Nat.add_zero] at hv
  rw [hv]
  cases n.isPaused v with
  | true => simp
  | false => simp

/-- A processor subscribes to the moves to CR3 of another one, which makes such a move. -/
theorem conservation_of_trap :
  let caller : VCpu := { regs := {
    rax := 0x60003, r11 := 1, r12 := 0x4002, r13 := 0x8000, r14 := 0x8000 } }
  let new : Machine := {}
  let both := (Operation.add 2 caller).run ((Operation.add 1 {}).run new)
  let subscribed := (Operation.hypercall 2).run both
  let trapped := (Operation.exit 1 { reason := .crAccess, qualification := 3 }).run subscribed
  trapped.outstanding 1 = 1 ∧ trapped.outstanding 2 = 0
  := by
  intro caller new both subscribed trapped
  have hnew : new.IsNew := ⟨rfl, rfl⟩
  have h₁ : Run Orderly new _ := (Run.refl new).tail (o := .add 1 {})
    ⟨rfl, Faults.dependable_default⟩
  have h₂ : Run Orderly new both := h₁.tail (o := .add 2 caller)
    ⟨rfl, Faults.dependable_default⟩
  have h₃ : Run Orderly new subscribed := h₂.tail (o := .hypercall 2)
    ⟨by decide +kernel, by decide +kernel⟩
  have h : Run Orderly new trapped :=
    h₃.tail (o := .exit 1 { reason := .crAccess, qualification := 3 })
      ⟨BasicReason.noConfusion, fun _ => by decide +kernel⟩
  have hp₁ : trapped.isPaused 1 = true := by
    decide +kernel
  have hp₂ : trapped.isPaused 2 = false := by
    decide +kernel
  exact ⟨(conservation hnew h 1).1.mp hp₁, (conservation hnew h 2).2 hp₂⟩

end ExitRelay.Machine
