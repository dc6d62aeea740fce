import ExitRelay.Proofs.Conservation
import ExitRelay.Proofs.InFlight
import ExitRelay.Proofs.Membership

/-!
# Rounds of offers

A round begins with a trap and ends when the processor that exited goes on.  In between its
event is pending for one listener after the other.  `Offers aside e ls m` says that a round
has come to the machine `m`, that the event has been queued for the listeners `ls`, the last
one first, and that nothing has happened beside the declines but what `aside` allows.

The cursor is all that tells how far a round has come.  As long as it and the listeners stay
as they are between the declines, the event is queued for no listener twice.  A listener that
unsubscribes meanwhile puts the cursor back, and then the next decline may hand the event to
a listener that has declined it already.
-/

namespace ExitRelay

namespace Operation

/-- The processor ends an exit by the operation which it has not handled. -/
def Declines (o : Operation) (v : Vpid) (m : Machine) : Prop :=
  o.caller? = some v ∧ m.call? v = some .endOfExit ∧
    (m.vcpu? v).map (fun c => EndOfExit.handled c.regs.r11) = some false

/-- The operation makes no operation of a processor fail. -/
def Harmless : Operation → Prop
  | .faults _ plans => plans = {}
  | .add _ c => c.faults = {}
  | _ => True

end Operation

namespace ListenerSet

/-- The listeners in a round: those that have been offered the event, the last one first, and
those that follow it.  The cursor is on the last one that has been offered the event. -/
def during (offered rest : List Vpid) : ListenerSet where
  members := offered.reverse ++ rest
  cursor := some (offered.length - 1)

variable {l : Vpid} {offered rest : List Vpid}

/-- The next listener has not been offered the event, and the round goes on with it. -/
theorem advance_during (hne : offered ≠ []) (h : (during offered rest).advance.1 = some l) :
  ∃ rest', rest = l :: rest' ∧ (during offered rest).advance.2 = during (l :: offered) rest'
  := by
  have hfollow : (during offered rest).following = offered.length :=
    Nat.sub_add_cancel (List.length_pos_of_ne_nil hne)
  have hget : (during offered rest).members[offered.length]? = rest[0]? := by
    rw [during, List.getElem?_append_right (by rw [List.length_reverse]), List.length_reverse,
      Nat.sub_self]
  rw [fst_advance, hfollow, hget] at h
  cases rest with
  | nil => exact absurd h (Option.some_ne_none l).symm
  | cons l' rest' =>
      obtain rfl := Option.some.inj h
      refine ⟨rest', rfl, ?_⟩
      rw [advance, hfollow, hget]
      simp only [during, List.getElem?_cons_zero, List.reverse_cons, List.append_assoc,
        List.singleton_append, List.length_cons, Nat.add_sub_cancel]

/-- Putting the cursor on the first listener begins a round. -/
theorem rewind_eq_during {s : ListenerSet} (h : s.members.head? = some l) :
  ∃ rest, s.rewind = during [l] rest
  := by
  obtain ⟨rest, hr⟩ := List.head?_eq_some_iff.mp h
  use rest
  rw [rewind, hr]
  rfl

end ListenerSet

namespace Machine

/-- The operations of an orderly run on hardware that does not fail. -/
def Smooth (m : Machine) (o : Operation) : Prop :=
  Orderly m o ∧ o.Harmless

/-- The event has been queued for the listeners in turn, the last one first, for whom it is
pending; what happens beside the declines is allowed. -/
inductive Offers (aside : Machine → Operation → Prop) (e : ExitEvent) :
    List Vpid → Machine → Prop
  /-- The trap that makes the event. -/
  | trap {m₀ m : Machine} {c : VCpu} {x : HardwareExit} {l : Vpid} (h₀ : m₀.IsNew)
      (h : Run Smooth m₀ m) (hc : m.vcpu? e.origin = some c)
      (he : x.event? e.origin c = some e) (ho : Smooth m (.exit e.origin x))
      (hs : e ∈ ((Operation.exit e.origin x).run m).slot l) :
      Offers aside e [l] ((Operation.exit e.origin x).run m)
  /-- Something else happens, and the event stays where it is. -/
  | rest {m : Machine} {o : Operation} {l : Vpid} {ls : List Vpid}
      (h : Offers aside e (l :: ls) m) (ho : Smooth m o) (ha : aside m o)
      (hd : ¬ o.Declines l m) (hs : e ∈ (o.run m).slot l) :
      Offers aside e (l :: ls) (o.run m)
  /-- Something else happens, and the event comes to another listener. -/
  | stray {m : Machine} {o : Operation} {l l' : Vpid} {ls : List Vpid}
      (h : Offers aside e (l :: ls) m) (ho : Smooth m o) (ha : aside m o)
      (hd : ¬ o.Declines l m) (hs : e ∈ (o.run m).slot l') (hl : l' ≠ l) :
      Offers aside e (l' :: l :: ls) (o.run m)
  /-- The listener declines, and the event is pending again. -/
  | decline {m : Machine} {o : Operation} {l l' : Vpid} {ls : List Vpid}
      (h : Offers aside e (l :: ls) m) (ho : Smooth m o) (hd : o.Declines l m)
      (hs : e ∈ (o.run m).slot l') :
      Offers aside e (l' :: l :: ls) (o.run m)

/-- The operation changes neither the listeners for the event nor their cursor. -/
def LeavesListeners (e : ExitEvent) (m : Machine) (o : Operation) : Prop :=
  (o.run m).listeners e.origin e.reason = m.listeners e.origin e.reason

variable {m m₀ n : Machine} {v l l' : Vpid} {c : VCpu} {e : ExitEvent} {o : Operation}
  {t : Transfer} {ls : List Vpid}

/-! ### Smooth runs -/

theorem smooth_add {w : Vpid} {c : VCpu} (hp : c.paused = false) (hf : c.faults = {}) :
  Smooth m (.add w c)
  := by
  refine ⟨⟨hp, ?_⟩, hf⟩
  rw [hf]
  exact Faults.dependable_default

theorem smooth_hypercall (h : m.call? v ≠ some .pause ∧ m.call? v ≠ some .resume) :
  Smooth m (.hypercall v)
  := ⟨h, trivial⟩

theorem smooth_trap {x : HardwareExit} (hx : x.reason = .crAccess)
    (hp : m.isPaused v = false) :
  Smooth m (.exit v x)
  := by
  refine ⟨⟨?_, fun _ => hp⟩, trivial⟩
  intro hr
  rw [hx] at hr
  exact BasicReason.noConfusion hr

/-- A processor that goes on by itself declines nothing. -/
theorem not_declines_guest {w : Vpid} {regs : Registers} {vmcs : Vmcs} :
  ¬ (Operation.guest w regs vmcs).Declines v m
  := fun h => absurd h.1 (Option.some_ne_none v).symm

theorem Flawless.run (hf : m.Flawless) (h : m.Agrees) (ho : Smooth m o) :
  (o.run m).Flawless
  := by
  obtain ⟨ho, hh⟩ := ho
  cases o with
  | time now => exact hf
  | guest v regs vmcs =>
      refine hf.mapVCpu ?_ v
      intro c
      rfl
  | faults v plans =>
      refine hf.mapVCpu_of ?_ v
      intro c _
      exact hh
  | add v c => exact hf.add v hh
  | load v => exact hf.path (h.path_run (o := .load v) trivial)
  | exit v x => exact hf.path (h.path_run (o := .exit v x) trivial)
  | hypercall v => exact hf.path (h.path_run (o := .hypercall v) trivial)
  | _ => exact False.elim ho

/-- In a smooth run the books stay right, and the hardware does not fail. -/
theorem Run.smooth (h : Run Smooth m₀ m) (h₀ : m₀.IsNew) :
  Sound 0 m ∧ m.Flawless
  := by
  apply h.keeps (I := fun l => Sound 0 l ∧ l.Flawless) _
    ⟨h₀.sound, guarantees_of_residents h₀.1⟩
  intro l o ho hl
  exact ⟨hl.1.run ho.1, hl.2.run hl.1.agrees ho⟩

/-! ### The state of a round -/

/-- The event is pending for the last listener that it has been queued for, and the cursor is
on this listener. -/
structure Held (e : ExitEvent) (l : Vpid) (ls : List Vpid) (m : Machine) : Prop where
  sound : Sound 0 m
  flawless : m.Flawless
  slot : m.slot l = [e]
  distinct : (m.listeners e.origin e.reason).members.Nodup
  round : ∃ rest, m.listeners e.origin e.reason = .during (l :: ls) rest

namespace Held

theorem mem (h : Held e l ls m) :
  e ∈ m.slot l
  := by
  rw [h.slot]
  apply List.mem_singleton_self

theorem inFlight (h : Held e l ls m) :
  InFlight l e m
  := by
  constructor
  · exact h.sound.agrees
  · exact h.flawless
  · exact isRegistered_of_mem_slot h.mem
  · exact isRegistered_of_isPaused (h.sound.isPaused_of_mem h.mem)
  · exact h.slot

/-- The listeners that the event has been queued for are listed once. -/
theorem nodup (h : Held e l ls m) :
  (l :: ls).Nodup
  := by
  obtain ⟨rest, hr⟩ := h.round
  have hd := h.distinct
  rw [hr] at hd
  rw [← List.nodup_reverse]
  apply hd.of_append_left

/-- A listener behind the cursor has not been offered the event. -/
theorem notMem_of_advance (h : Held e l ls m)
    (hl : (m.listeners e.origin e.reason).advance.1 = some l') :
  l' ∉ l :: ls
  := by
  obtain ⟨rest, hr⟩ := h.round
  have hd := h.distinct
  rw [hr] at hl hd
  obtain ⟨rest', rfl, -⟩ := ListenerSet.advance_during (List.cons_ne_nil l ls) hl
  intro hm
  apply (List.disjoint_of_nodup_append hd) (List.mem_reverse.mpr hm)
  apply List.mem_cons_self

end Held

/-! ### Declines -/

/-- What becomes of an event that is passed on: its origin goes on, or the listener behind
the cursor has it, and the cursor is on this listener. -/
def PassedOn (e : ExitEvent) (m : Machine) (t : Transfer) (n : Machine) : Prop :=
  (t = .run e.origin ∧ n.isPaused e.origin = false) ∨
    ∃ l, t = .run l ∧ (m.listeners e.origin e.reason).advance.1 = some l ∧ n.slot l = [e] ∧
      n.listeners e.origin e.reason = (m.listeners e.origin e.reason).advance.2

/-- If nothing fails, a declined event comes to the listener behind the cursor, unless this
one is gone or has not answered an earlier event, or its origin goes on. -/
theorem exists_yields_passOn (ho : m.isRegistered e.origin = true) (hf : m.Flawless) :
  ∃ t n, Yields (passOn e) m t n ∧ PassedOn e m t n ∧
    ∀ w, n.isRegistered w = m.isRegistered w
  := by
  have hr : ∀ w, (m.mapBroker e.origin (Broker.Effect.next e.reason).apply).isRegistered w =
      m.isRegistered w := fun _ => isRegistered_mapBroker _
  have hs : ∀ w, (m.mapBroker e.origin (Broker.Effect.next e.reason).apply).slot w =
      m.slot w := fun _ => slot_mapBroker_of_pending fun _ => rfl
  have hgone : PassedOn e m (.run e.origin)
      ((m.mapBroker e.origin (Broker.Effect.next e.reason).apply).fallenBack e) :=
    .inl ⟨rfl, isPaused_fallenBack (by rw [hr, ho])⟩
  by_cases hl : ∃ l, (m.listeners e.origin e.reason).advance.1 = some l ∧
      m.isRegistered l = true
  · obtain ⟨l, hl, hlr⟩ := hl
    -- The next listener has the event, unless one is pending for it already.
    by_cases hls : m.slot l = []
    · refine ⟨_, _, yields_passOn hl ho hlr hls hf, .inr ⟨l, rfl, hl, ?_, ?_⟩, ?_⟩
      · rw [slot_handed (by rw [hr, hlr]) (by rw [hs, hls]), if_pos rfl]
      · rw [listeners_handed, listeners_mapBroker_next ho]
      · intro w
        rw [isRegistered_handed, hr]
    · refine ⟨_, _, yields_passOn_of_inject hl ho hlr ?_, hgone, ?_⟩
      · apply yields_inject_of_slot
        · rw [hr, hlr]
        · rw [hs]
          exact hls
        · rw [hr, ho]
        · apply hf.dependable.mapBroker
      · intro w
        rw [isRegistered_fallenBack, hr]
  · refine ⟨_, _, yields_passOn_none ?_ ho hf.dependable, hgone, ?_⟩
    · intro l hl'
      rw [← Bool.not_eq_true]
      intro hlr
      apply hl ⟨l, hl', hlr⟩
    · intro w
      rw [isRegistered_fallenBack, hr]

/-- A listener that has not handled the event passes it on. -/
theorem InFlight.decline (h : InFlight l e m) (hc : m.vcpu? l = some c)
    (hcall : m.call? l = some .endOfExit) (hh : EndOfExit.handled c.regs.r11 = false) :
  ∃ t n, handleHypercall l m = .ok (some t) n ∧ PassedOn e m t n
  := by
  have ho : (((m.switchTo l).mapVCpu l VCpu.advanced).answered l).isRegistered e.origin =
      true := by
    rw [isRegistered_answered, isRegistered_mapVCpu, isRegistered_switchTo, h.origin]
  have hf := ((h.flawless.switchTo l).mapVCpu VCpu.faults_advanced l).answered l
  obtain ⟨t, n, hx, hp, hr⟩ := exists_yields_passOn ho hf
  have hl : (((m.switchTo l).mapVCpu l VCpu.advanced).answered l).listeners e.origin e.reason =
      m.listeners e.origin e.reason := by
    rw [listeners_answered, listeners_mapVCpu, listeners_switchTo]
  obtain ⟨j, hj⟩ := (h.yields_answer hc hcall (by rw [hh]; exact hx) (by
    rw [hr, isRegistered_answered, isRegistered_mapVCpu, isRegistered_switchTo,
      h.registered])).eq_ok
  refine ⟨t, _, hj, ?_⟩
  rw [PassedOn, hl] at hp
  exact hp

/-- A decline that leaves the event pending has handed it to the listener behind the
cursor. -/
theorem Held.decline (h : Held e l ls m) (ho : Smooth m o) (hd : o.Declines l m)
    (hs : e ∈ (o.run m).slot l') :
  Held e l' (l :: ls) (o.run m)
  := by
  obtain ⟨hcaller, hcall, hh⟩ := hd
  obtain ⟨c, hc, hh⟩ := Option.map_eq_some_iff.mp hh
  have hn := h.sound.run ho.1
  have hf := h.flawless.run h.sound.agrees ho
  obtain ⟨t, n, hx, hp⟩ := h.inFlight.decline hc hcall hh
  rw [run_of_caller? hcaller, after, hx] at hs hn hf ⊢
  rcases hp with ⟨-, hp⟩ | ⟨w, -, hadv, hw, hlist⟩
  · rw [hn.isPaused_of_mem hs] at hp
    exact Bool.noConfusion hp
  · have hwe : e ∈ n.slot w := by
      rw [hw]
      apply List.mem_singleton_self
    obtain rfl := hn.eq_of_mem hs hwe rfl
    obtain ⟨rest, hr⟩ := h.round
    have hdist := h.distinct
    rw [← ListenerSet.members_advance, ← hlist] at hdist
    rw [hr] at hadv hlist
    obtain ⟨rest', -, hr'⟩ := ListenerSet.advance_during (List.cons_ne_nil l ls) hadv
    exact ⟨hn, hf, hw, hdist, rest', hlist.trans hr'⟩

/-! ### What happens beside the declines -/

/-- A processor that switches controls queues no event. -/
theorem path_queueless (h : m.Agrees) (hcall : m.call? v = some .vmwrite) :
  Path Effect.queueless m (after (handleHypercall v) m)
  := by
  apply Walks.after
  apply walks_handleHypercall Effect.routine_subset_queueless h.aimed trivial (fun _ => trivial)
  intro call hc
  obtain rfl : call = .vmwrite := by
    rw [hcall] at hc
    exact (Option.some.inj hc).symm
  rintro k (rfl | ⟨_, _, rfl⟩ | ⟨w, hk⟩)
  · trivial
  · trivial
  · cases k with
    | broker w k => exact False.elim hk
    | _ => trivial

/-- An event that its listener answers neither by a decline nor otherwise stays with it. -/
theorem Held.slot_of_undisturbed (h : Held e l ls m) (ho : Smooth m o)
    (ht : o.caller? = some l → ∀ call, m.call? l = some call → ¬ call.Takes) :
  (o.run m).slot l = [e]
  := by
  obtain ⟨ho, hh⟩ := ho
  have hrun : Undisturbed l e.origin m o → (o.run m).slot l = [e] := fun hu =>
    (h.inFlight.run hu).slot
  cases o with
  | time now => exact h.slot
  | guest v regs vmcs => exact hrun trivial
  | faults v plans =>
      rw [Operation.run, slot_mapVCpu, h.slot]
  | add v c => exact hrun hh
  | load v => exact hrun trivial
  | exit v x =>
      by_cases hx : x.entryFailure = true
      · rw [Operation.run, handleExit, if_pos hx]
        exact h.slot
      · apply hrun
        rintro rfl hr
        apply ht
        rw [Operation.caller?, if_pos ⟨Bool.eq_false_iff.mpr hx, hr⟩]
  | hypercall v =>
      apply hrun
      rintro rfl
      apply ht rfl
  | _ => exact False.elim ho

/-- Without a decline an event that stays pending stays with its listener. -/
theorem Held.slot_run (h : Held e l ls m) (ho : Smooth m o) (hd : ¬ o.Declines l m)
    (hs : e ∈ (o.run m).slot l') :
  (o.run m).slot l = [e]
  := by
  by_cases ht : o.caller? = some l ∧ ∃ call, m.call? l = some call ∧ call.Takes
  · obtain ⟨hcaller, call, hcall, htake⟩ := ht
    have hn := h.sound.run ho.1
    rw [run_of_caller? hcaller] at hs hn ⊢
    rcases htake with rfl | rfl
    · -- It has handled the event: the origin goes on, so that nothing of it is pending.
      obtain ⟨c, hc⟩ := isRegistered_iff_vcpu?.mp h.inFlight.registered
      have hh : EndOfExit.handled c.regs.r11 = true := by
        rw [← Bool.not_eq_false]
        intro hh
        apply hd ⟨hcaller, hcall, _⟩
        rw [hc, Option.map_some, hh]
      obtain ⟨n, hx, -, hp, -⟩ := h.inFlight.endOfExit hc hcall hh
      rw [after, hx] at hs hn
      rw [hn.isPaused_of_mem hs] at hp
      exact Bool.noConfusion hp
    · -- It has switched controls: what is pending now was pending before.
      have hp := path_queueless h.sound.agrees hcall
      have hl' := (hp.slot_sublist l').subset hs
      obtain rfl := h.sound.eq_of_mem h.mem hl' rfl
      have hsub := hp.slot_sublist l'
      rw [h.slot, List.sublist_singleton] at hsub
      rcases hsub with hnil | hone
      · rw [hnil] at hs
        exact absurd hs List.not_mem_nil
      · exact hone
  · apply h.slot_of_undisturbed ho
    intro hcaller call hcall htake
    exact ht ⟨hcaller, call, hcall, htake⟩

/-- A round stays where it is if nobody declines and the listeners stay as they are. -/
theorem Held.rest (h : Held e l ls m) (ho : Smooth m o) (ha : LeavesListeners e m o)
    (hd : ¬ o.Declines l m) (hs : e ∈ (o.run m).slot l') :
  l' = l ∧ Held e l ls (o.run m)
  := by
  have hslot := h.slot_run ho hd hs
  have hn := h.sound.run ho.1
  have hl : e ∈ (o.run m).slot l := by
    rw [hslot]
    apply List.mem_singleton_self
  refine ⟨hn.eq_of_mem hl hs rfl, hn, h.flawless.run h.sound.agrees ho, hslot, ?_, ?_⟩
  · rw [ha]
    exact h.distinct
  · rw [ha]
    exact h.round

/-! ### Traps -/

theorem mayTrap_of_event? {x : HardwareExit} (he : x.event? v c = some e) :
  MayTrap x.reason
  := by
  rw [HardwareExit.event?] at he
  split at he
  · exact absurd he (Option.some_ne_none e).symm
  · split at he
    · rename_i hr
      exact .inl hr
    · rename_i hr
      exact .inr (.inl hr)
    · rename_i hr
      exact .inr (.inr hr)
    · exact absurd he (Option.some_ne_none e).symm

/-- If nothing fails, the event of a trap comes to the first listener, unless this one is
gone or has not answered an earlier event, or the processor that exited goes on. -/
theorem exists_handleExit_trap {x : HardwareExit} (h : m.Agrees) (hf : m.Flawless)
    (hc : m.vcpu? e.origin = some c) (he : x.event? e.origin c = some e)
    (hp : m.isPaused e.origin = false) :
  ∃ t n, handleExit e.origin x m = .ok (some t) n ∧
    (n.isPaused e.origin = false ∨
      ∃ l, (m.listeners e.origin e.reason).members.head? = some l ∧ n.slot l = [e] ∧
        n.listeners e.origin e.reason = (m.listeners e.origin e.reason).rewind)
  := by
  let m' := m.trapped e.origin x
  obtain ⟨control, -, hx⟩ := exists_offer_of_event? h hf hc he
  have hf' : m'.Flawless := hf.trapped e.origin x
  have hfs : (m'.suspended e).Flawless := hf'.suspended e
  have ho' : m'.isRegistered e.origin = true := by
    rw [isRegistered_trapped, isRegistered_iff_vcpu?]
    exact ⟨c, hc⟩
  have hl' : m'.listeners e.origin e.reason = m.listeners e.origin e.reason :=
    listeners_trapped e.reason
  have hp' : m'.isPaused e.origin = false := isPaused_trapped.trans hp
  by_cases hl : ∃ l, (m'.listeners e.origin e.reason).members.head? = some l ∧
      m'.isRegistered l = true
  · obtain ⟨l, hl, hr⟩ := hl
    have hrs : (m'.suspended e).isRegistered l = true := by
      rw [isRegistered_suspended, hr]
    by_cases hs : (m'.suspended e).slot l = []
    · obtain ⟨j, hj⟩ := (hx _ _ (yields_offer (yields_notify_of_inject hl hr
        (yields_inject hrs hs hfs e)) control _)).eq_ok
      refine ⟨_, _, hj, .inr ⟨l, ?_, ?_, ?_⟩⟩
      · rw [← hl', hl]
      · rw [slot_withJournal, slot_handed hrs hs, if_pos rfl]
      · rw [listeners_withJournal, listeners_handed, listeners_suspended_origin ho', hl']
    · have hos : (m'.suspended e).isRegistered e.origin = true := by
        rw [isRegistered_suspended, ho']
      obtain ⟨j, hj⟩ := (hx _ _ (yields_offer (yields_notify_of_inject hl hr
        (yields_inject_of_slot hrs hs hos hfs.dependable)) control _)).eq_ok
      refine ⟨_, _, hj, .inl ?_⟩
      rw [isPaused_withJournal, isPaused_fallenBack hos]
  · -- Nobody is told, and the processor has never been stopped.
    have hnone : ∀ l, (m'.listeners e.origin e.reason).members.head? = some l →
        m'.isRegistered l = false := by
      intro l hl'
      rw [← Bool.not_eq_true]
      intro hr
      apply hl ⟨l, hl', hr⟩
    have hc' : (m'.mapBroker e.origin (Broker.Effect.first e.reason).apply).vcpu? e.origin =
        some (x.trapped c) := by
      rw [vcpu?_mapBroker, vcpu?_trapped_self hc]
    obtain ⟨j, hj⟩ := (hx _ _ (yields_offer_none (yields_notify_none ho' hnone) hc' rfl
      (by rw [x.faults_trapped]; exact hf.dependable _ c hc) control _)).eq_ok
    refine ⟨_, _, hj, .inl ?_⟩
    rw [isPaused_withJournal, isPaused_mapVCpu_of_paused, isPaused_mapBroker, hp']
    intro c
    cases control with
    | cr3LoadExiting => rfl
    | monitorTrapFlag => rfl
    | eptViolation => rfl

/-- A round begins with the first listener. -/
theorem held_of_trap {x : HardwareExit} (h₀ : m₀.IsNew) (h : Run Smooth m₀ m)
    (hc : m.vcpu? e.origin = some c) (he : x.event? e.origin c = some e)
    (ho : Smooth m (.exit e.origin x)) (hs : e ∈ ((Operation.exit e.origin x).run m).slot l) :
  Held e l [] ((Operation.exit e.origin x).run m)
  := by
  obtain ⟨hsound, hflaw⟩ := h.smooth h₀
  have hn := hsound.run ho.1
  have hf := hflaw.run hsound.agrees ho
  have hp := ho.1.2 (mayTrap_of_event? he)
  obtain ⟨t, n, hx, hq⟩ := exists_handleExit_trap hsound.agrees hflaw hc he hp
  rw [Operation.run, after, hx] at hs hn hf ⊢
  rcases hq with hq | ⟨w, hfirst, hw, hlist⟩
  · rw [hn.isPaused_of_mem hs] at hq
    exact Bool.noConfusion hq
  · have hwe : e ∈ n.slot w := by
      rw [hw]
      apply List.mem_singleton_self
    obtain rfl := hn.eq_of_mem hs hwe rfl
    refine ⟨hn, hf, hw, ?_, ?_⟩
    · rw [hlist]
      apply h.nodup_listeners h₀
    · rw [hlist]
      apply ListenerSet.rewind_eq_during hfirst

/-! ### Whole rounds -/

/-- In a round beside which the listeners stay as they are, the event is pending for the last
listener that it has been queued for, and the cursor is on this listener. -/
theorem Offers.held (h : Offers (LeavesListeners e) e ls m) :
  ∃ l before, ls = l :: before ∧ Held e l before m
  := by
  induction h with
  | trap h₀ h hc he ho hs => exact ⟨_, _, rfl, held_of_trap h₀ h hc he ho hs⟩
  | rest _ ho ha hd hs ih =>
      obtain ⟨l, before, hl, h⟩ := ih
      obtain ⟨rfl, rfl⟩ := List.cons_eq_cons.mp hl
      exact ⟨_, _, rfl, (h.rest ho ha hd hs).2⟩
  | stray _ ho ha hd hs hne ih =>
      obtain ⟨l, before, hl, h⟩ := ih
      obtain ⟨rfl, rfl⟩ := List.cons_eq_cons.mp hl
      exact absurd (h.rest ho ha hd hs).1 hne
  | decline _ ho hd hs ih =>
      obtain ⟨l, before, hl, h⟩ := ih
      obtain ⟨rfl, rfl⟩ := List.cons_eq_cons.mp hl
      exact ⟨_, _, rfl, h.decline ho hd hs⟩

/-- As long as the listeners and their cursor stay as they are between the declines, the
event is queued for no listener twice: whoever declines hands it to a listener that has not
been offered it, or its origin goes on. -/
theorem offered_once (h : Offers (LeavesListeners e) e ls m) :
  ls.Nodup ∧ ∀ l before, ls = l :: before →
    m.call? l = some .endOfExit →
    (m.vcpu? l).map (fun c => EndOfExit.handled c.regs.r11) = some false →
    ∃ t n, handleHypercall l m = .ok (some t) n ∧
      ((t = .run e.origin ∧ n.isPaused e.origin = false) ∨
        ∃ l', t = .run l' ∧ l' ∉ ls ∧ n.slot l' = [e])
  := by
  obtain ⟨l, before, rfl, hheld⟩ := h.held
  refine ⟨hheld.nodup, ?_⟩
  intro l' before' hl hcall hh
  obtain ⟨rfl, rfl⟩ := List.cons_eq_cons.mp hl
  obtain ⟨c, hc, hh⟩ := Option.map_eq_some_iff.mp hh
  obtain ⟨t, n, hx, hp⟩ := hheld.inFlight.decline hc hcall hh
  refine ⟨t, n, hx, ?_⟩
  rcases hp with hp | ⟨w, rfl, hadv, hw, -⟩
  · exact .inl hp
  · right
    exact ⟨w, rfl, hheld.notMem_of_advance hadv, hw⟩

/-- Two processors listen for the moves to CR3 of a third one.  Both decline, and the third
one goes on. -/
theorem offered_once_of_two :
  let listener : VCpu := { regs := {
    rax := 0x60003, r11 := 1, r12 := 0x4002, r13 := 0x8000, r14 := 0x8000 } }
  let declining : Registers := { rax := 0x60001 }
  let x : HardwareExit := { reason := .crAccess, qualification := 3 }
  let one := (Operation.add 1 {}).run {}
  let added := (Operation.add 3 listener).run ((Operation.add 2 listener).run one)
  let subscribed := (Operation.hypercall 3).run ((Operation.hypercall 2).run added)
  let first := (Operation.exit 1 x).run subscribed
  let second := (Operation.hypercall 2).run ((Operation.guest 2 declining {}).run first)
  let last := (Operation.guest 3 declining {}).run second
  last.slot 3 = [⟨1, .cr3Load, 0, 0⟩] ∧
    ∃ n, handleHypercall 3 last = .ok (some (.run 1)) n ∧ n.isPaused 1 = false
  := by
  intro listener declining x one added subscribed first second last
  let e : ExitEvent := ⟨1, .cr3Load, 0, 0⟩
  have h₁ : Run Smooth {} one := (Run.refl _).tail (smooth_add rfl rfl)
  have h₂ : Run Smooth {} added := (h₁.tail (smooth_add rfl rfl)).tail (smooth_add rfl rfl)
  have h₃ := h₂.tail (o := .hypercall 2) (smooth_hypercall (by decide +kernel))
  have h : Run Smooth {} subscribed :=
    h₃.tail (o := .hypercall 3) (smooth_hypercall (by decide +kernel))
  obtain ⟨c, hc, he⟩ : ∃ c, subscribed.vcpu? 1 = some c ∧ x.event? 1 c = some e :=
    Option.bind_eq_some_iff.mp (by decide +kernel)
  have ho₁ : Offers (LeavesListeners e) e [2] first :=
    .trap ⟨rfl, rfl⟩ h hc he (smooth_trap rfl (by decide +kernel)) (by decide +kernel)
  have ho₂ := ho₁.rest (o := .guest 2 declining {}) ⟨trivial, trivial⟩
    (listeners_mapVCpu _ _) not_declines_guest (by decide +kernel)
  have ho₃ : Offers (LeavesListeners e) e [3, 2] second :=
    ho₂.decline (smooth_hypercall (by decide +kernel))
      ⟨rfl, by decide +kernel, by decide +kernel⟩ (by decide +kernel)
  have ho : Offers (LeavesListeners e) e [3, 2] last :=
    ho₃.rest (o := .guest 3 declining {}) ⟨trivial, trivial⟩ (listeners_mapVCpu _ _)
      not_declines_guest (by decide +kernel)
  obtain ⟨t, n, hx, hn⟩ :=
    (offered_once ho).2 3 [2] rfl (by decide +kernel) (by decide +kernel)
  refine ⟨by decide +kernel, n, ?_⟩
  rcases hn with ⟨rfl, hp⟩ | ⟨l, rfl, -, hl⟩
  · exact ⟨hx, hp⟩
  · have hslot : (after (handleHypercall 3) last).slot 1 = [] := by
      decide +kernel
    have hrun : (match handleHypercall 3 last with
      | .ok t _ => t
      | .error _ _ => none) = some (.run 1) := by
      decide +kernel
    rw [hx] at hrun
    obtain rfl : l = 1 := Transfer.run.inj (Option.some.inj hrun)
    rw [after, hx] at hslot
    rw [hslot] at hl
    exact absurd hl (List.cons_ne_nil _ _).symm

/-- Three processors listen for the moves to CR3 of a fourth one.  The first one declines, and
while the second one has the event the third one unsubscribes.  Then the second one declines
and is offered the event once more. -/
theorem offered_twice_after_unsubscribing :
  let listener : VCpu := { regs := {
    rax := 0x60003, r11 := 1, r12 := 0x4002, r13 := 0x8000, r14 := 0x8000 } }
  let declining : Registers := { rax := 0x60001 }
  let leaving : Registers := { rax := 0x60003, r11 := 1, r12 := 0x4002, r14 := 0x8000 }
  let x : HardwareExit := { reason := .crAccess, qualification := 3 }
  let e : ExitEvent := ⟨1, .cr3Load, 0, 0⟩
  let one := (Operation.add 1 {}).run {}
  let added := (Operation.add 4 listener).run
    ((Operation.add 3 listener).run ((Operation.add 2 listener).run one))
  let subscribed := (Operation.hypercall 4).run
    ((Operation.hypercall 3).run ((Operation.hypercall 2).run added))
  let first := (Operation.exit 1 x).run subscribed
  let second := (Operation.hypercall 2).run ((Operation.guest 2 declining {}).run first)
  let left := (Operation.hypercall 4).run ((Operation.guest 4 leaving {}).run second)
  let last := (Operation.hypercall 3).run ((Operation.guest 3 declining {}).run left)
  Offers (fun _ _ => True) e [3, 3, 2] last ∧ ¬ List.Nodup [3, 3, 2]
  := by
  intro listener declining leaving x e one added subscribed first second left last
  have h₁ : Run Smooth {} one := (Run.refl _).tail (smooth_add rfl rfl)
  have h₂ : Run Smooth {} added :=
    ((h₁.tail (smooth_add rfl rfl)).tail (smooth_add rfl rfl)).tail (smooth_add rfl rfl)
  have h₃ := h₂.tail (o := .hypercall 2) (smooth_hypercall (by decide +kernel))
  have h₄ := h₃.tail (o := .hypercall 3) (smooth_hypercall (by decide +kernel))
  have h : Run Smooth {} subscribed :=
    h₄.tail (o := .hypercall 4) (smooth_hypercall (by decide +kernel))
  obtain ⟨c, hc, he⟩ : ∃ c, subscribed.vcpu? 1 = some c ∧ x.event? 1 c = some e :=
    Option.bind_eq_some_iff.mp (by decide +kernel)
  have ho₁ : Offers (fun _ _ => True) e [2] first :=
    .trap ⟨rfl, rfl⟩ h hc he (smooth_trap rfl (by decide +kernel)) (by decide +kernel)
  have ho₂ := ho₁.rest (o := .guest 2 declining {}) ⟨trivial, trivial⟩ trivial
    not_declines_guest (by decide +kernel)
  have ho₃ : Offers (fun _ _ => True) e [3, 2] second :=
    ho₂.decline (smooth_hypercall (by decide +kernel))
      ⟨rfl, by decide +kernel, by decide +kernel⟩ (by decide +kernel)
  have ho₄ := ho₃.rest (o := .guest 4 leaving {}) ⟨trivial, trivial⟩ trivial
    not_declines_guest (by decide +kernel)
  have ho₅ : Offers (fun _ _ => True) e [3, 2] left :=
    ho₄.rest (smooth_hypercall (by decide +kernel)) trivial
      (fun hd => by
        have h43 : (4 : Vpid) = 3 := Option.some.inj hd.1
        exact absurd h43 (by decide))
      (by decide +kernel)
  have ho₆ := ho₅.rest (o := .guest 3 declining {}) ⟨trivial, trivial⟩ trivial
    not_declines_guest (by decide +kernel)
  have ho : Offers (fun _ _ => True) e [3, 3, 2] last :=
    ho₆.decline (smooth_hypercall (by decide +kernel))
      ⟨rfl, by decide +kernel, by decide +kernel⟩ (by decide +kernel)
  exact ⟨ho, by decide⟩

end Machine

end ExitRelay
