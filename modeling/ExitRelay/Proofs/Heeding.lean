import ExitRelay.Proofs.Completion
import ExitRelay.Proofs.Deadline
import ExitRelay.Proofs.Preservation
import ExitRelay.Proofs.Registration

/-!
# Holders of events are listeners

A processor for which an event is pending listens for exits of the kind on the origin of the
event, unless the origin has been removed.  An event is queued for listeners only, and a
listener stays one until it unsubscribes.  Before it is taken out, an event that it holds and
that the control covers is taken from it; since it holds one event at most, no other one can
remain.

Nothing is asked of the hardware, and any call may be made.  A processor that has been
removed must not be registered again, though: an event of its first life may still be
pending, while the broker of its second life has no listeners.
-/

namespace ExitRelay

namespace Registry

variable {r : Registry} {v w : Vpid} {a b : ExitReason}

/-! ### Who stays a listener -/

theorem mem_subscribe (h : w ∈ (r.get b).members) :
  w ∈ ((r.subscribe a v).2.get b).members
  := by
  rcases members_subscribe_cases r a v b with ⟨-, he⟩ | he
  · rw [he]
    exact List.mem_append_left _ h
  · rw [he]
    exact h

/-- A listener that is taken out is no other one's loss, and no loss for other reasons. -/
theorem mem_unsubscribe (h : w ∈ (r.get b).members) (hne : w = v → b ∉ a.subscription) :
  w ∈ ((r.unsubscribe a v).2.get b).members
  := by
  rcases members_unsubscribe_cases r a v b with ⟨hb, he⟩ | he
  · rw [he, List.mem_erase_of_ne]
    · exact h
    · intro hw
      exact hne hw hb
  · rw [he]
    exact h

end Registry

/-- The effects that neither queue an event nor take a listener out. -/
def Effect.loyal : Set Effect
  | .broker _ (.queue _) => False
  | .broker _ (.unsubscribe _ _) => False
  | _ => True

namespace Effect

theorem plain_subset_loyal :
  plain ⊆ loyal
  := by
  intro k hk
  cases k with
  | broker v k =>
      cases k with
      | queue e => exact hk
      | unsubscribe c l => exact hk
      | _ => trivial
  | _ => trivial

theorem loyal_subset_queueless :
  loyal ⊆ queueless
  := by
  intro k hk
  cases k with
  | broker v k =>
      cases k with
      | queue e => exact hk
      | _ => trivial
  | _ => trivial

theorem freeing_subset_loyal (o : Vpid) :
  freeing o ⊆ loyal
  := by
  intro k hk
  cases k with
  | broker v k => exact False.elim hk
  | _ => trivial

end Effect

namespace Machine

variable {m n : Machine} {v w l : Vpid} {e : ExitEvent} {k : Effect} {gone : List Vpid}
  {reason : ExitReason}

/-- The processor is a listener for the reason on another one. -/
def Listens (w v : Vpid) (reason : ExitReason) (m : Machine) : Prop :=
  w ∈ (m.listeners v reason).members

/-- A change of a broker in which every listener remains. -/
theorem Listens.mapBroker {f : Broker → Broker} (h : m.Listens w v reason)
    (hf : ∀ b, w ∈ (b.registry.get reason).members → w ∈ ((f b).registry.get reason).members)
    (l : Vpid) :
  (m.mapBroker l f).Listens w v reason
  := by
  by_cases hl : v = l
  · subst l
    obtain ⟨b, hb, hr⟩ := exists_broker_of_listener h
    rw [Listens, ← hr] at h
    rw [Listens, listeners_mapBroker_self hb]
    apply hf b h
  · rw [Listens, listeners_mapBroker_of_ne _ hl]
    exact h

/-- A listener stays one until it is taken out. -/
theorem Listens.apply (h : m.Listens w v reason) (hk : k ∈ Effect.loyal) :
  (k.apply m).Listens w v reason
  := by
  cases k with
  | vcpu o k =>
      rw [Listens, Effect.apply, listeners_mapVCpu]
      exact h
  | broker o k =>
      apply h.mapBroker
      intro b hw
      cases k with
      | first r => rwa [Broker.Effect.apply, Registry.members_first]
      | next r => rwa [Broker.Effect.apply, Registry.members_next]
      | subscribe c l => exact Registry.mem_subscribe hw
      | unsubscribe c l => exact False.elim hk
      | queue e => exact False.elim hk
      | _ => exact hw
  | _ => exact h

/-- Whoever holds an event listens for it, unless the origin is one of the processors that
are gone. -/
structure Heeded (gone : List Vpid) (m : Machine) : Prop where
  agrees : m.Agrees
  exclusive : m.EveryBroker Broker.Exclusive
  known : ∀ {l e}, e ∈ m.slot l → m.isRegistered e.origin = true ∨ e.origin ∈ gone
  heeds : ∀ {l e}, e ∈ m.slot l → m.isRegistered e.origin = true →
    m.Listens l e.origin e.reason

namespace Heeded

theorem withJournal (h : Heeded gone m) (j : Journal) :
  Heeded gone (m.withJournal j)
  := ⟨h.agrees, h.exclusive, h.known, h.heeds⟩

/-- A processor holds one event at most. -/
theorem slot_eq (h : Heeded gone m) {es : List ExitEvent} (hs : m.slot l = e :: es) :
  es = []
  := by
  obtain ⟨b, hb, he⟩ := exists_broker_of_slot_cons hs
  have hlen := (h.exclusive l b hb).atMostOne
  rw [Pending.length, he] at hlen
  exact List.eq_nil_of_length_eq_zero (Nat.le_zero.mp (Nat.le_of_succ_le_succ hlen))

theorem apply (h : Heeded gone m) (hl : k ∈ Effect.loyal) (hk : k.Possible m) :
  Heeded gone (k.apply m)
  := by
  have hs : ∀ {l e}, e ∈ (k.apply m).slot l → e ∈ m.slot l := fun he =>
    ((Path.single (Effect.loyal_subset_queueless hl) hk).slot_sublist _).subset he
  constructor
  · apply h.agrees.apply hk
  · apply h.exclusive.apply Broker.lasting_exclusive hk
  · intro l e he
    rw [isRegistered_apply]
    apply h.known (hs he)
  · intro l e he ho
    rw [isRegistered_apply] at ho
    apply (h.heeds (hs he) ho).apply hl

/-- An event is queued for a listener. -/
theorem queue (h : Heeded gone m) {b : Broker} (hb : m.broker? l = some b)
    (hp : b.pending = {}) (hl : m.Listens l e.origin e.reason) :
  Heeded gone (m.mapBroker l (Broker.Effect.queue e).apply)
  := by
  have hk : Effect.Possible (.broker l (.queue e)) m := ⟨b, hb, hp⟩
  have hlist : ∀ {w o r}, m.Listens w o r →
      (m.mapBroker l (Broker.Effect.queue e).apply).Listens w o r := by
    intro w o r hw
    apply hw.mapBroker
    intro b hb
    exact hb
  have ho : m.isRegistered e.origin = true := by
    obtain ⟨b', hb', -⟩ := exists_broker_of_listener hl
    exact isRegistered_iff_broker?.mpr ⟨b', hb'⟩
  -- The event is the only one that is pending where it was not before.
  have hs : ∀ {l' e'}, e' ∈ (m.mapBroker l (Broker.Effect.queue e).apply).slot l' →
      (e' = e ∧ l' = l) ∨ e' ∈ m.slot l' := by
    intro l' e' he'
    by_cases hl' : l' = l
    · subst l'
      rw [slot_mapBroker_self hb] at he'
      change e' ∈ b.pending.events ++ [e] at he'
      rw [hp] at he'
      exact .inl ⟨List.mem_singleton.mp he', rfl⟩
    · rw [slot_mapBroker_of_ne _ hl'] at he'
      exact .inr he'
  constructor
  · apply h.agrees.mapBroker
  · apply h.exclusive.apply Broker.lasting_exclusive hk
  · intro l' e' he'
    rw [isRegistered_mapBroker]
    rcases hs he' with ⟨rfl, -⟩ | he'
    · exact .inl ho
    · apply h.known he'
  · intro l' e' he' ho'
    rw [isRegistered_mapBroker] at ho'
    apply hlist
    rcases hs he' with ⟨rfl, rfl⟩ | he'
    · exact hl
    · apply h.heeds he' ho'

end Heeded

/-- The processor holds no event of the target that the control covers. -/
def Settled (caller target : Vpid) (control : Control) (m : Machine) : Prop :=
  ∀ e ∈ m.slot caller, e.origin = target → control.covers e.reason = false

variable {caller target : Vpid} {control : Control}

/-- What is settled stays settled where no event is queued. -/
theorem Settled.path (h : Settled caller target control m)
    (hp : Path Effect.queueless m n) :
  Settled caller target control n
  := fun e he => h e ((hp.slot_sublist caller).subset he)

/-- A listener is taken out that holds none of the events that it does not listen for any
more. -/
theorem Heeded.unsubscribe (h : Heeded gone m) {b : Broker} (hb : m.broker? target = some b)
    (hs : Settled caller target control m) :
  Heeded gone (m.mapBroker target (Broker.Effect.unsubscribe control caller).apply)
  := by
  have hk : Effect.Possible (.broker target (.unsubscribe control caller)) m :=
    ⟨b, hb, trivial⟩
  have hslot : ∀ l, (m.mapBroker target (Broker.Effect.unsubscribe control caller).apply).slot l
      = m.slot l := fun _ => slot_mapBroker_of_pending fun _ => rfl
  constructor
  · apply h.agrees.mapBroker
  · apply h.exclusive.apply Broker.lasting_exclusive hk
  · intro l e he
    rw [hslot] at he
    rw [isRegistered_mapBroker]
    apply h.known he
  · intro l e he ho
    rw [hslot] at he
    rw [isRegistered_mapBroker] at ho
    have hl := h.heeds he ho
    by_cases ht : e.origin = target
    · apply hl.mapBroker
      intro b hw
      apply Registry.mem_unsubscribe hw
      rintro rfl hc
      have hcov := hs e he ht
      rw [Control.covers, List.contains_eq_mem, decide_eq_false_iff_not] at hcov
      exact hcov hc
    · rw [Listens, listeners_mapBroker_of_ne _ ht]
      exact hl

/-! ### Offering events -/

/-- Neither queueing nor unsubscribing apart, no effect breaks the invariant. -/
theorem framed_heeded (gone : List Vpid) :
  Framed Effect.loyal (Heeded gone)
  := ⟨Effect.plain_subset_loyal, Heeded.agrees, fun hq hk h => h.apply hq hk⟩

theorem framed_listens (gone : List Vpid) (w v : Vpid) (reason : ExitReason) :
  Framed Effect.loyal fun m => Heeded gone m ∧ m.Listens w v reason
  := by
  refine ⟨Effect.plain_subset_loyal, fun h => h.1.agrees, ?_⟩
  intro k m hq hk h
  exact ⟨h.1.apply hq hk, h.2.apply hq⟩

theorem heeded_inject (h : Heeded gone m) (hl : m.Listens l e.origin e.reason) :
  Ends (inject l e) m (fun _ => Heeded gone) (fun _ => Heeded gone)
  := by
  have hI := framed_heeded gone
  rw [inject_eq]
  apply Ends.bind ((ends_broker hI.routine l).mono (fun _ _ h => h)
    (fun _ _ hs => hI.path hs.1 h))
  rintro b m ⟨hb, rfl⟩
  split
  · rename_i he
    apply (yields_modifyBroker hb _).ends_bind
    intro j
    apply hI.walks _ ((h.queue hb (Pending.isEmpty_iff.mp he) hl).withJournal j)
    apply (walks_load hI.routine l).bind
    intro _ _ _
    apply (remains_announce hI.routine hI.aimed _).walks.bind
    intro _ _ _
    apply Walks.pure _
  · apply hI.walks _ h
    apply (remains_note hI.routine _).bind_walks
    intro _ _ _
    apply walks_fallBack hI.routine (Effect.freeing_subset_loyal _)

/-- An event is offered to somebody who listens for it. -/
theorem heeded_offered {x : SysM Unit} (h : Heeded gone m) (hl : m.Listens l e.origin e.reason)
    (hx : Walks Effect.loyal x m) :
  Ends (do x; some <$> inject l e) m (fun _ => Heeded gone) (fun _ => Heeded gone)
  := by
  apply Ends.bind ((framed_listens gone l e.origin e.reason).leads (fun _ h => h.1) hx ⟨h, hl⟩)
  rintro _ n ⟨hn, hl⟩
  apply Ends.map
  apply heeded_inject hn hl

theorem heeded_notify (gone : List Vpid) (e : ExitEvent) :
  Keeps (Heeded gone) (notify e)
  := by
  intro m h
  have hI := framed_heeded gone
  rw [notify]
  apply Ends.bind ((ends_onBroker hI.routine e.origin _).mono (fun _ _ h => h)
    (fun _ _ hs => hI.path hs.1 h))
  rintro first n ⟨b, hb, rfl, rfl⟩
  have hn : Heeded gone (m.mapBroker e.origin (Broker.Effect.first e.reason).apply) :=
    h.apply (k := .broker e.origin (.first e.reason)) trivial ⟨b, hb, trivial⟩
  split
  · exact hn
  · rename_i l hl
    have hmem : m.Listens l e.origin e.reason := by
      rw [Listens, listeners_of_broker? hb]
      apply List.mem_of_head?
      rw [← ListenerSet.fst_first]
      exact hl
    apply Ends.bind_ok contains_eq
    split
    · apply heeded_offered (x := do note _; onVCpu e.origin VcpuM.pause) hn
      · apply hmem.apply (k := .broker e.origin (.first e.reason)) trivial
      · apply (remains_note hI.routine _).bind_walks
        intro _ _ _
        apply (remains_pause hI.routine trivial).walks
    · apply hI.walks _ hn
      apply (remains_note hI.routine _).walks.bind
      intro _ _ _
      apply Walks.pure none

theorem heeded_notifyNext (gone : List Vpid) (e : ExitEvent) :
  Keeps (Heeded gone) (notifyNext e)
  := by
  intro m h
  have hI := framed_heeded gone
  rw [notifyNext]
  apply Ends.bind ((ends_onBroker hI.routine e.origin _).mono (fun _ _ h => h)
    (fun _ _ hs => hI.path hs.1 h))
  rintro next n ⟨b, hb, rfl, rfl⟩
  have hn : Heeded gone (m.mapBroker e.origin (Broker.Effect.next e.reason).apply) :=
    h.apply (k := .broker e.origin (.next e.reason)) trivial ⟨b, hb, trivial⟩
  split
  · apply hI.walks _ hn
    apply (remains_note hI.routine _).walks.bind
    intro _ _ _
    apply Walks.pure none
  · rename_i l hl
    have hmem : m.Listens l e.origin e.reason := by
      rw [Listens, listeners_of_broker? hb]
      apply List.mem_of_getElem? (i := (b.registry.get e.reason).following)
      rw [← ListenerSet.fst_advance]
      exact hl
    apply Ends.bind_ok contains_eq
    split
    · apply Ends.map
      apply heeded_inject hn
      apply hmem.apply (k := .broker e.origin (.next e.reason)) trivial
    · apply hI.walks _ hn
      apply (remains_note hI.routine _).walks.bind
      intro _ _ _
      apply Walks.pure none

/-! ### Answering events -/

theorem heeded_passOn (gone : List Vpid) (e : ExitEvent) :
  Keeps (Heeded gone) (passOn e)
  := by
  rw [passOn]
  apply (heeded_notifyNext gone e).bind
  intro t
  cases t with
  | some t => exact Keeps.pure t
  | none =>
      apply (framed_heeded gone).keeps
      intro m _
      apply walks_fallBack (framed_heeded gone).routine (Effect.freeing_subset_loyal _)

theorem heeded_endOfExit (gone : List Vpid) (v : Vpid) :
  Keeps (Heeded gone) (endOfExit v)
  := by
  have hI := framed_heeded gone
  rw [endOfExit]
  apply (hI.registers v).bind
  intro regs
  apply Keeps.bind
  · apply hI.remains
    intro m
    apply remains_onBroker hI.routine .pop trivial (fun _ _ => trivial) (fun _ => rfl)
  · intro front
    have hrefuse : ∀ k why, Keeps (Heeded gone) (do note k; refuse why : SysM Transfer) := by
      intro k why
      apply (hI.note k).bind
      intro _
      apply hI.remains
      intro _
      apply remains_refuse hI.routine
    cases front with
    | none => exact hrefuse _ _
    | some e =>
        intro m h
        apply Ends.bind_ok contains_eq
        split
        · apply Keeps.bind _ _ m h
          · apply hI.remains
            intro m
            apply remains_registersOf hI.routine (hI.results _)
            apply Registers.setsResults_id.rax
          · intro _
            split
            · apply (hI.note _).bind
              intro _
              apply hI.keeps
              intro m _
              apply walks_release hI.routine (Effect.freeing_subset_loyal _)
            · apply (hI.note _).bind
              intro _
              apply heeded_passOn
        · apply hrefuse _ _ m h

/-! ### Unsubscribing -/

/-- A processor whose only event is taken holds none that a control might cover. -/
theorem settled_pop (hc : m.slot caller = [e]) :
  Settled caller target control (m.mapBroker caller Broker.Effect.pop.apply)
  := by
  obtain ⟨b, hb, he⟩ := exists_broker_of_slot_cons hc
  intro e' he'
  rw [slot_mapBroker_self hb] at he'
  change e' ∈ b.pending.events.tail at he'
  rw [he] at he'
  exact absurd he' List.not_mem_nil

/-- After an event has been settled, the caller holds none that the control covers. -/
theorem ends_settlePending (h : Heeded gone m) (caller target : Vpid) (control : Control) :
  Ends (settlePending caller target control) m
    (fun _ n => Heeded gone n ∧ Settled caller target control n) (fun _ => Heeded gone)
  := by
  have hI := framed_heeded gone
  rw [settlePending]
  apply Ends.bind ((ends_broker hI.routine caller).mono (fun _ _ h => h)
    (fun _ _ hs => hI.path hs.1 h))
  rintro b m ⟨hb, rfl⟩
  have hs := slot_of_broker? hb
  split
  · rename_i hf
    refine Ends.pure ⟨h, ?_⟩
    intro e he
    rw [hs, Pending.front?_eq_none_iff.mp hf] at he
    exact absurd he List.not_mem_nil
  · rename_i e hf
    obtain ⟨es, hes⟩ : ∃ es, b.pending.events = e :: es := List.head?_eq_some_iff.mp hf
    have hone : m.slot caller = [e] := by
      rw [hs, hes, h.slot_eq (hs.trans hes)]
    split
    · rename_i he
      have hk : Effect.Possible (.broker caller .pop) m := ⟨b, hb, trivial⟩
      have hn := h.apply (k := .broker caller .pop) trivial hk
      apply (yields_modifyBroker hb _).ends_bind
      intro j
      have hsettled : Settled caller target control
          ((m.mapBroker caller Broker.Effect.pop.apply).withJournal j) := settled_pop hone
      apply Ends.mono (walks_settle hI.routine (hn.withJournal j).agrees.trusts
        (Effect.freeing_subset_loyal e.origin) control)
      · intro _ n' hn'
        refine ⟨hI.path hn' (hn.withJournal j), ?_⟩
        apply hsettled.path (hn'.mono Effect.loyal_subset_queueless)
      · intro _ n' hn'
        exact hI.path hn' (hn.withJournal j)
    · rename_i he
      refine Ends.pure ⟨h, ?_⟩
      intro e' he' ho
      rw [hone, List.mem_singleton] at he'
      subst e'
      rw [← Bool.not_eq_true]
      intro hc
      exact he ⟨ho, hc⟩

/-- Whoever unsubscribes holds no event any more that the control covers. -/
theorem ends_unsubscribe (h : Heeded gone m) (caller target : Vpid) (control : Control) :
  Ends (unsubscribe caller target control) m
    (fun _ n => Heeded gone n ∧ Settled caller target control n) (fun _ => Heeded gone)
  := by
  have hI := framed_heeded gone
  rw [unsubscribe]
  apply Ends.bind (Q := fun _ => Heeded gone)
  · apply Ends.adaptExcept
    apply hI.walks _ h
    apply walks_withVmcs hI.routine h.agrees.trusts
    intro l hl
    apply remains_disable hI.routine hl
  · intro _ n₁ h₁
    have hnote : ∀ k l, Heeded gone l →
        Ends (liftM (note k) : CallM Unit) l (fun _ => Heeded gone) (fun _ => Heeded gone) :=
      fun k => (hI.note k).adaptExcept
    apply (hnote _ n₁ h₁).bind
    intro _ n₂ h₂
    have hsettle : Ends (liftM (settlePending caller target control) : CallM Unit) n₂
        (fun _ n => Heeded gone n ∧ Settled caller target control n) (fun _ => Heeded gone) :=
      Ends.adaptExcept (ends_settlePending h₂ caller target control)
    apply hsettle.bind
    rintro _ n₃ ⟨h₃, hs₃⟩
    apply Ends.bind (Q := fun _ n => Heeded gone n ∧ Settled caller target control n)
    · apply Ends.adaptExcept
      apply (ends_onBroker hI.routine target _).mono
      · rintro _ _ ⟨b, hb, -, rfl⟩
        refine ⟨h₃.unsubscribe hb hs₃, hs₃.path ?_⟩
        exact Path.single (k := .broker target (.unsubscribe control caller)) trivial
          ⟨b, hb, trivial⟩
      · intro _ n hn
        apply hI.path hn.1 h₃
    · rintro refused n₄ ⟨h₄, hs₄⟩
      cases refused with
      | none => exact Ends.pure ⟨h₄, hs₄⟩
      | some reason =>
          apply (hnote _ n₄ h₄).bind
          intro _ n₅ h₅
          exact Ends.error rfl h₅

/-! ### Runs -/

theorem heeded_handleHypercall (gone : List Vpid) (v : Vpid) :
  Keeps (Heeded gone) (handleHypercall v)
  := by
  intro m h
  apply ends_handleHypercall_framed (framed_heeded gone) _ (heeded_endOfExit gone v) h
  · intro call _ ht k hk
    cases call with
    | endOfExit => exact absurd (.inl rfl) ht
    | vmwrite => exact absurd (.inr rfl) ht
    | pause | resume =>
        cases k with
        | broker w k => exact False.elim hk
        | _ => trivial
    | nextExit =>
        obtain rfl := hk
        trivial
    | _ => exact False.elim hk
  · intro target control n hn
    apply (ends_unsubscribe hn v target control).mono
    · intro _ _ hl
      exact hl.1
    · intro _ _ hl
      exact hl

theorem heeded_handleExit (gone : List Vpid) (v : Vpid) (x : HardwareExit) :
  Keeps (Heeded gone) (handleExit v x)
  := by
  have hI := framed_heeded gone
  intro m h
  apply ends_handleExit_framed hI hI (fun _ h => h) (fun e n _ hn => heeded_notify gone e n hn) h
  · intro _
    exact h
  · intro _
    apply heeded_handleHypercall gone v m h

/-- The operations in which no processor that is gone is registered again: hardware and
guests do as they like, and processors are registered and removed and exit. -/
def Onward (gone : List Vpid) : Operation → Prop
  | .time _ | .guest _ _ _ | .faults _ _ | .remove _ | .load _ | .exit _ _ | .hypercall _ => True
  | .add v _ => v ∉ gone
  | _ => False

/-- The processors that are gone after an operation. -/
def departed (m : Machine) (gone : List Vpid) : Operation → List Vpid
  | .remove v => if m.isRegistered v then v :: gone else gone
  | _ => gone

/-- Operations have led from a new machine to this one, and the processors in the list have
been removed on the way; none of them has been registered again. -/
inductive History : List Vpid → Machine → Prop
  | new {m : Machine} (h : m.IsNew) : History [] m
  | step {m : Machine} {gone : List Vpid} {o : Operation} (h : History gone m)
      (ho : Onward gone o) : History (m.departed gone o) (o.run m)

namespace Heeded

theorem new (h : m.IsNew) :
  Heeded [] m
  := by
  have hs : ∀ {l e}, e ∉ m.slot l := by
    intro l e he
    rw [slot, broker?, h.1] at he
    exact absurd he List.not_mem_nil
  constructor
  · exact h.agrees
  · exact h.everyBroker
  · intro l e he
    exact absurd he hs
  · intro l e he
    exact absurd he hs

/-- A change of a processor changes neither slots nor listeners. -/
theorem mapVCpu (h : Heeded gone m) (v : Vpid) (f : VCpu → VCpu) :
  Heeded gone (m.mapVCpu v f)
  := by
  constructor
  · apply h.agrees.mapVCpu
  · apply h.exclusive.mapVCpu
  · intro l e he
    rw [slot_mapVCpu] at he
    rw [isRegistered_mapVCpu]
    apply h.known he
  · intro l e he ho
    rw [slot_mapVCpu] at he
    rw [isRegistered_mapVCpu] at ho
    rw [Listens, listeners_mapVCpu]
    apply h.heeds he ho

/-- Nobody holds an event of a processor that is registered for the first time. -/
theorem add (h : Heeded gone m) {v : Vpid} (hv : v ∉ gone) (c : VCpu) :
  Heeded gone (after (Machine.add v c) m)
  := by
  cases hr : m.isRegistered v with
  | true =>
      rw [add_of_registered hr]
      apply h.withJournal
  | false =>
      have ho : ∀ {l e}, e ∈ m.slot l → e.origin ≠ v := by
        rintro l e he rfl
        rcases h.known he with ho | ho
        · rw [hr] at ho
          exact Bool.noConfusion ho
        · exact hv ho
      have hres : ∀ {l e}, e ∈ m.slot l →
          (after (Machine.add v c) m).residents[e.origin]? = m.residents[e.origin]? := fun he =>
        getElem?_residents_add_of_ne c (ho he)
      constructor
      · apply h.agrees.add
      · apply h.exclusive.add Broker.lasting_exclusive
      · intro l e he
        rw [slot_add] at he
        rw [isRegistered_of_residents (hres he)]
        apply h.known he
      · intro l e he hreg
        rw [slot_add] at he
        rw [isRegistered_of_residents (hres he)] at hreg
        rw [Listens, listeners_of_residents (hres he)]
        apply h.heeds he hreg

/-- A processor that is removed takes its own events with it; events of it that others hold
are known to be of a processor that is gone. -/
theorem remove (h : Heeded gone m) (v : Vpid) :
  Heeded (m.departed gone (.remove v)) (after (Machine.remove v) m)
  := by
  cases hr : m.residents[v]? with
  | none =>
      rw [remove_of_unregistered hr, departed, isRegistered_of_none hr]
      apply h.withJournal
  | some r =>
      rw [departed, if_pos (isRegistered_iff.mpr ⟨r, hr⟩)]
      constructor
      · apply h.agrees.remove
      · apply h.exclusive.remove
      · intro l e he
        by_cases ho : e.origin = v
        · right
          rw [ho]
          exact List.mem_cons_self
        · rw [isRegistered_of_residents (getElem?_residents_remove ho)]
          apply (h.known (mem_slot_of_remove he)).imp id
          exact List.mem_cons_of_mem v
      · intro l e he hreg
        have ho : e.origin ≠ v := by
          intro ho
          rw [ho, isRegistered_remove_self] at hreg
          exact Bool.noConfusion hreg
        rw [isRegistered_of_residents (getElem?_residents_remove ho)] at hreg
        rw [Listens, listeners_of_residents (getElem?_residents_remove ho)]
        apply h.heeds (mem_slot_of_remove he) hreg

theorem run (h : Heeded gone m) {o : Operation} (ho : Onward gone o) :
  Heeded (m.departed gone o) (o.run m)
  := by
  cases o with
  | time now => exact ⟨h.agrees, h.exclusive, h.known, h.heeds⟩
  | guest v regs vmcs => exact h.mapVCpu v fun c => { c with regs, vmcs }
  | faults v plans => exact h.mapVCpu v fun c => { c with faults := plans }
  | add v c => exact h.add ho c
  | remove v => exact h.remove v
  | load v =>
      have hI := framed_heeded gone
      exact (hI.walks (walks_load hI.routine v) h).after
  | exit v x => exact (heeded_handleExit gone v x m h).after
  | hypercall v => exact (heeded_handleHypercall gone v m h).after
  | _ => exact False.elim ho

end Heeded

theorem History.heeded (h : History gone m) :
  Heeded gone m
  := by
  induction h with
  | new h => exact Heeded.new h
  | step _ ho ih => exact ih.run ho

end Machine

end ExitRelay
