import ExitRelay.Proofs.Custody
import ExitRelay.Proofs.Preservation

/-!
# Events that get lost

A call that answers an event or switches a control off takes the event from its caller first,
and only then works on the origin of the event.  If that work fails, the event is pending for
nobody, but its origin stays stopped.  It is the hardware of the origin that decides about
this: as long as the origin can be loaded, moved, read and written, a call that fails leaves
the event pending for some listener or its origin running, whatever fails on other processors.
-/

namespace ExitRelay.Machine

variable {m n : Machine} {v w l o : Vpid} {c d : VCpu} {e : ExitEvent} {P : Faults → Prop}

/-- The origin of the event is not stopped, or the event is pending for a registered processor. -/
def Accounted (e : ExitEvent) (m : Machine) : Prop :=
  m.isPaused e.origin = false ∨ ∃ l, m.isRegistered l = true ∧ e ∈ m.slot l

theorem accounted_of_mem (h : e ∈ m.slot l) :
  Accounted e m
  := .inr ⟨l, isRegistered_of_mem_slot h, h⟩

/-- An event that is accounted for is so as long as no event is moved. -/
theorem Accounted.path (h : Accounted e m) (hp : Path Effect.quiet m n) :
  Accounted e n
  := by
  obtain hrun | ⟨l, hl, he⟩ := h
  · left
    rw [hp.isPaused, hrun]
  · right
    refine ⟨l, ?_, ?_⟩
    · rw [hp.isRegistered, hl]
    · rw [hp.slot]
      exact he

/-! ### Answering events -/

/-- An event in hand whose origin is dependable does not get lost. -/
theorem custody_accounted (e : ExitEvent) :
  Custody e (fun m => m.Assures e.origin Faults.Dependable) (Accounted e)
  := by
  constructor
  · intro m h
    exact h
  · intro m h j
    exact h
  · intro m h
    apply h.mapBroker
  · intro m l h hl j
    obtain ⟨b, hb⟩ := isRegistered_iff_broker?.mp hl
    apply accounted_of_mem (l := l)
    rw [slot_withJournal, slot_mapBroker_self hb]
    exact List.mem_append_right _ (List.mem_singleton_self e)
  · intro m f h hf hp j
    obtain ⟨c, hc, hd⟩ := h
    left
    rw [isPaused_withJournal, isPaused_mapVCpu_self (m := m.switchTo e.origin) hc, hp]
  · intro m n h hp
    apply h.path hp

/-- Taking an event from a listener does not make the hardware less reliable. -/
theorem Assures.answered (h : m.Assures w P) (hP : ∀ f k, P f → P (f.set k (f.get k).next))
    (v : Vpid) :
  (m.answered v).Assures w P
  := (h.apply hP (.broker v .pop)).apply hP (.vcpu v (.results _))

/-! ### Switching controls -/

/-- The event is the only one that is pending for the processor, or its origin runs; the origin
can be loaded and moved. -/
structure Detained (v : Vpid) (e : ExitEvent) (m : Machine) : Prop where
  agrees : m.Agrees
  mobile : m.Assures e.origin Faults.Mobile
  accounted : m.isPaused e.origin = false ∨ m.slot v = [e]

theorem framed_detained (v : Vpid) (e : ExitEvent) :
  Framed Effect.quiet (Detained v e)
  := by
  refine ⟨Effect.plain_subset_quiet, Detained.agrees, ?_⟩
  intro k m hq hk h
  constructor
  · apply h.agrees.apply hk
  · apply h.mobile.apply fun _ k hf => hf.next k
  · rw [isPaused_apply_of_quiet hq, slot_apply_of_quiet hq]
    exact h.accounted

namespace Detained

theorem isAccounted (h : Detained v e m) :
  Accounted e m
  := by
  obtain hrun | hs := h.accounted
  · exact .inl hrun
  · apply accounted_of_mem (l := v)
    rw [hs]
    exact List.mem_singleton_self e

/-- An origin that runs goes on running where nobody is stopped. -/
theorem path (h : Detained v e m) (hrun : m.isPaused e.origin = false)
    (hp : Path Effect.withoutPause m n) :
  Detained v e n
  := by
  constructor
  · apply hp.agrees h.agrees
  · apply h.mobile.path (fun _ k hf => hf.next k) hp
  · left
    rw [Bool.eq_false_iff] at hrun ⊢
    intro hn
    apply hrun (hp.isPaused_of_withoutPause hn)

/-- The origin of an event that is settled runs. -/
theorem letGo (h : Detained v e m) (control : Control) :
  Detained v e (m.letGo v e control)
  := by
  obtain ⟨c, hc, hd⟩ := h.mobile
  have hc' : ((m.mapBroker v Broker.Effect.pop.apply).switchTo e.origin).vcpu? e.origin =
      some c := by
    rw [vcpu?_switchTo, vcpu?_mapBroker, hc]
  constructor
  · apply Agrees.mapVCpu
    apply Agrees.apply (k := .load e.origin) (h.agrees.mapBroker v _)
    exact isRegistered_iff_vcpu?.mpr ⟨c, hc'⟩
  · refine ⟨_, vcpu?_mapVCpu_of_some hc' _, ?_⟩
    rw [Function.comp_apply, VCpu.faults_withPaused, VCpu.faults_fellBack]
    exact hd
  · left
    rw [Machine.letGo, isPaused_mapVCpu_self hc']
    rfl

theorem withJournal (h : Detained v e m) (j : Journal) :
  Detained v e (m.withJournal j)
  := ⟨h.agrees, h.mobile, h.accounted⟩

end Detained

theorem keeps_settlePending_detained (v : Vpid) (e : ExitEvent) (target : Vpid)
    (control : Control) :
  Keeps (Detained v e) (settlePending v target control)
  := by
  intro m h
  obtain hrun | hs := h.accounted
  · have hw : Walks Effect.withoutPause (settlePending v target control) m := by
      apply walks_settlePending Effect.routine_subset_withoutPause h.agrees.trusts
      apply settleable
      · trivial
      · apply (Effect.freeing_subset_passing target).trans
        apply Effect.passing_subset_withoutPause
    apply hw.ends
    intro n hp
    apply h.path hrun hp
  · have hI := framed_detained v e
    apply ends_settlePending_of_mobile h.agrees
    · intro n hn
      apply hI.path (hn.mono hI.routine) h
    · intro e' es he
      obtain rfl : e = e' := by
        rw [hs] at he
        exact (List.cons.inj he).1
      refine ⟨h.mobile, ?_⟩
      intro j n hn
      apply hI.path (hn.mono hI.routine) ((h.letGo control).withJournal j)

theorem keeps_setControls_detained (v target : Vpid) (e : ExitEvent) (field : ControlField) :
  Keeps (Detained v e) (setControls v target field)
  := by
  apply keeps_setControls (framed_detained v e)
  intro target control
  apply (framed_detained v e).keeps_unsubscribe trivial
  apply keeps_settlePending_detained

/-! ### Events that are lost -/

/-- A call that answers an event fails or succeeds without the event being lost, whatever fails on
other processors, if its origin can be loaded, moved, read and written.  For a call that switches
controls it is enough that the origin can be loaded and moved. -/
theorem accounted_after (h : m.Agrees) (hs : m.slot v = [e]) (hc : m.vcpu? e.origin = some c) :
  (c.faults.Dependable → Accounted e (after (endOfExit v) m)) ∧
  (c.faults.Mobile →
    ∀ target field, Accounted e (after (setControls v target field) m))
  := by
  constructor
  · intro hd
    have ho : m.Assures e.origin Faults.Dependable := ⟨c, hc, hd⟩
    apply Ends.after
    apply (custody_accounted e).endOfExit hs ho.isRegistered
    apply ho.answered fun _ k hf => hf.next k
  · intro hd target field
    apply Detained.isAccounted (v := v)
    apply Ends.after
    apply keeps_setControls_detained v target e field
    exact ⟨h, ⟨c, hc, hd⟩, .inr hs⟩

/-- A listener declines an event, or switches the control off that caused it.  The event is not
lost, although the next listener cannot be loaded. -/
theorem accounted_after_failed_load :
  let broken : Faults := { load := .failing .io 0 none }
  let set : ListenerSet := { members := [2, 3], cursor := some 0 }
  let e : ExitEvent := { origin := 1, reason := .cr3Load }
  let m : Machine := ((({} : Machine).hosting 1
    ⟨{ paused := true }, { registry := { cr3Load := set } }⟩).hosting 2
      ⟨{ regs := { r14 := 0x8000 } }, { pending := ⟨[e]⟩ }⟩).hosting 3 ⟨{ faults := broken }, {}⟩
  Accounted e (after (endOfExit 2) m) ∧ Accounted e (after (setControls 2 1 .primary) m)
  := by
  intro broken set e m
  have hc : m.vcpu? 1 = some { paused := true } := by
    rw [vcpu?_hosting_of_ne _ _ (by decide), vcpu?_hosting_of_ne _ _ (by decide)]
    apply vcpu?_hosting_self
  obtain ⟨hanswer, hswitch⟩ := accounted_after (m := m) (v := 2) (e := e) (agrees_of_loaded rfl)
    (by decide) hc
  exact ⟨hanswer Faults.dependable_default, hswitch Faults.dependable_default.mobile 1 .primary⟩

theorem release_eq_error {advance : Bool} {err : SysError} (hc : m.vcpu? o = some c)
    (hl : (c.faults.get .load).outcome 0 = some err) :
  release o advance m = .error err (m.mapVCpu o (VCpu.attempted .load))
  := by
  rw [release]
  apply bind_of_error
  rw [load]
  apply bind_of_error
  apply onVCpu_attempt_of_some hc hl

/-- An event that has been handled is lost if its origin cannot be loaded: the call fails, and the
origin stays as it was, but the event has been taken from the listener. -/
theorem stranded_of_load {es : List ExitEvent} {err : SysError} (hc : m.vcpu? v = some c)
    (hh : EndOfExit.handled c.regs.r11 = true) (hs : m.slot v = e :: es)
    (hd : m.vcpu? e.origin = some d) (hl : (d.faults.get .load).outcome 0 = some err) :
  ∃ n, endOfExit v m = .error err n ∧ n.isPaused e.origin = d.paused ∧
    ∀ w, n.slot w = if w = v then es else m.slot w
  := by
  have hd' : ∃ d', (m.answered v).vcpu? e.origin = some d' ∧ d'.faults = d.faults ∧
      d'.paused = d.paused := by
    by_cases ho : e.origin = v
    · subst ho
      refine ⟨d.completed id, ?_, rfl, rfl⟩
      rw [answered, vcpu?_mapVCpu_self, vcpu?_mapBroker, hd]
      rfl
    · exact ⟨d, (vcpu?_answered_of_ne ho).trans hd, rfl, rfl⟩
  obtain ⟨d', hd', hf, hp⟩ := hd'
  have hx : Ends (endOfExit v) m (fun _ _ => False) fun err' n => err' = err ∧
      n.isPaused e.origin = d.paused ∧ ∀ w, n.slot w = if w = v then es else m.slot w := by
    apply ends_endOfExit hc hs (isRegistered_iff_vcpu?.mpr ⟨d, hd⟩)
    intro j
    rw [if_pos hh]
    apply Ends.error (release_eq_error (m := (m.answered v).withJournal j) hd' (by rw [hf, hl]))
    refine ⟨rfl, ?_, ?_⟩
    · rw [isPaused_mapVCpu_self (m := (m.answered v).withJournal j) hd', ← hp]
      rfl
    · intro w
      rw [slot_mapVCpu, slot_withJournal, slot_answered hs]
  obtain ⟨-, -, -, hn⟩ | ⟨_, n, hn, rfl, hstays⟩ := hx.cases
  · exact False.elim hn
  · exact ⟨n, hn, hstays⟩

/-- A listener has handled the only event of a processor, which cannot be loaded once.  The
processor stays stopped, and no event of it is pending any more. -/
theorem stranded_by_failed_load :
  let broken : VCpu := { paused := true, faults := { load := .failing .io 0 (some 1) } }
  let listener : VCpu := { regs := { r11 := 3 } }
  let e : ExitEvent := { origin := 1, reason := .cr3Load }
  let m : Machine := (({} : Machine).hosting 1 ⟨broken, {}⟩).hosting 2
    ⟨listener, { pending := ⟨[e]⟩ }⟩
  m.Agrees ∧ m.isPaused 1 = true ∧ m.slot 2 = [e] ∧
    ∃ n, endOfExit 2 m = .error .io n ∧ ¬ Accounted e n
  := by
  intro broken listener e m
  have hc : m.vcpu? 2 = some listener := vcpu?_hosting_self _ _ _
  have hd : m.vcpu? 1 = some broken :=
    (vcpu?_hosting_of_ne _ _ (by decide)).trans (vcpu?_hosting_self _ _ _)
  have hs : m.slot 2 = [e] := by
    decide
  have hload : (broken.faults.get .load).outcome 0 = some .io := rfl
  obtain ⟨n, hn, hp, hslot⟩ := stranded_of_load hc (by decide) hs hd hload
  refine ⟨agrees_of_loaded rfl, isPaused_of_vcpu? hd, hs, n, hn, ?_⟩
  rintro (hrun | ⟨l, -, hl⟩)
  · rw [hp] at hrun
    exact Bool.noConfusion hrun
  · rw [hslot] at hl
    split at hl
    · exact absurd hl List.not_mem_nil
    · rename_i hne
      have he : e ∈ m.slot 2 := by
        rw [hs]
        exact List.mem_singleton_self e
      have htwo : 2 ≤ m.outstanding e.origin := two_le_outstanding he hl rfl (Ne.symm hne)
      revert htwo
      decide +kernel

end ExitRelay.Machine
