import ExitRelay.Proofs.Execution.Processor

/-!
# Executions of the delivery of events

What the programs yield that switch control structures, offer events, and receive and answer
them, when the hardware does not fail: the machine they start from with some processors and
brokers changed and another control structure loaded.
-/

namespace ExitRelay

/-- The broker of a listener that has been told of an event: a wait outside the kernel is
over. -/
def Broker.told (b : Broker) : Broker :=
  if b.isKernelListener then b else b.clearDeadline

namespace Machine

variable {m n l : Machine} {v w : Vpid} {c : VCpu}

/-! ### Switching control structures -/

theorem switchTo_eq_self (hl : m.loaded = some v) (hc : m.current = some v) :
  m.switchTo v = m
  := by
  cases m
  simp only at hl hc
  subst hl hc
  rfl

theorem performs_load (hc : m.vcpu? v = some c) (hf : c.faults.get .load = {}) :
  Performs (load v) m () (m.switchTo v) [.load v]
  := by
  apply (performs_attempt hc hf).bind_quiet
  intro j
  exact ⟨j.act (.load v), rfl, rfl, rfl⟩

theorem yields_load (hc : m.vcpu? v = some c) (hf : c.faults.get .load = {}) :
  Yields (load v) m () (m.switchTo v)
  := (performs_load hc hf).yields

/-- Entering a processor trusts the record that it is loaded. -/
theorem yields_enter (h : m.loaded = some v → m.current = some v) (hc : m.vcpu? v = some c)
    (hf : c.faults.get .load = {}) :
  Yields (enter v) m () (m.switchTo v)
  := by
  apply Yields.get_bind
  intro j
  split
  · rename_i hl
    apply (Yields.pure ()).of_eq
    apply (switchTo_eq_self (m := m) hl (h hl)).symm
  · apply yields_load hc hf

/-! ### Guarantees about the hardware -/

section

variable {P : Faults → Prop}

theorem Guarantees.withJournal (h : m.Guarantees P) (j : Journal) :
  (m.withJournal j).Guarantees P
  := h

theorem Guarantees.switchTo (h : m.Guarantees P) (v : Vpid) :
  (m.switchTo v).Guarantees P
  := h

/-- A change of a processor keeps a guarantee if it keeps it for that processor. -/
theorem Guarantees.mapVCpu_of (h : m.Guarantees P) {f : VCpu → VCpu}
    (hf : ∀ c, P c.faults → P (f c).faults) (v : Vpid) :
  (m.mapVCpu v f).Guarantees P
  := by
  intro w c hc
  rw [vcpu?_mapVCpu] at hc
  split at hc
  · obtain ⟨c', hc', rfl⟩ := Option.map_eq_some_iff.mp hc
    apply hf
    apply h w c' hc'
  · apply h w c hc

theorem Guarantees.mapVCpu (h : m.Guarantees P) {f : VCpu → VCpu}
    (hf : ∀ c, (f c).faults = c.faults) (v : Vpid) :
  (m.mapVCpu v f).Guarantees P
  := by
  apply h.mapVCpu_of
  intro c hc
  rw [hf]
  exact hc

theorem Guarantees.mapBroker (h : m.Guarantees P) (v : Vpid) (f : Broker → Broker) :
  (m.mapBroker v f).Guarantees P
  := by
  intro w c hc
  rw [vcpu?_mapBroker] at hc
  apply h w c hc

theorem vcpu?_insert (r : Resident) :
  { m with residents := m.residents.insert v r }.vcpu? w =
    if w = v then some r.vcpu else m.vcpu? w
  := by
  simp only [vcpu?, Std.ExtTreeMap.getElem?_insert, Std.compare_eq_iff_eq, @eq_comm _ v w]
  split
  · rfl
  · rfl

theorem Guarantees.insert (h : m.Guarantees P) (v : Vpid) {r : Resident}
    (hr : P r.vcpu.faults) :
  { m with residents := m.residents.insert v r }.Guarantees P
  := by
  intro w c hc
  rw [vcpu?_insert] at hc
  split at hc
  · rw [← Option.some.inj hc]
    exact hr
  · apply h w c hc

/-- The machine with a processor put into it. -/
def hosting (m : Machine) (v : Vpid) (r : Resident) : Machine :=
  { m with residents := m.residents.insert v r }

theorem vcpu?_hosting_self (m : Machine) (v : Vpid) (r : Resident) :
  (m.hosting v r).vcpu? v = some r.vcpu
  := (vcpu?_insert r).trans (if_pos rfl)

theorem vcpu?_hosting_of_ne (m : Machine) (r : Resident) (h : w ≠ v) :
  (m.hosting v r).vcpu? w = m.vcpu? w
  := (vcpu?_insert r).trans (if_neg h)

/-- A machine without processors guarantees anything. -/
theorem guarantees_of_residents (h : m.residents = ∅) :
  m.Guarantees P
  := by
  intro v c hc
  rw [vcpu?, h, Std.ExtTreeMap.getElem?_empty] at hc
  exact absurd hc (Option.some_ne_none c).symm

theorem broker?_hosting_self (m : Machine) (v : Vpid) (r : Resident) :
  (m.hosting v r).broker? v = some r.broker
  := by
  simp only [broker?, hosting, Std.ExtTreeMap.getElem?_insert_self, Option.map_some]

theorem Flawless.hosting (h : m.Flawless) (v : Vpid) {r : Resident}
    (hr : r.vcpu.faults = {}) :
  (m.hosting v r).Flawless
  := h.insert v hr

end

/-! ### Working on another processor -/

/-- Unless it fails, a program that is run on a processor while its control structure is current
leaves loaded what was loaded before. -/
theorem yields_withVmcs {α : Type} {x : VcpuM α} {a : α} {f : VCpu → VCpu}
    (hl : m.loaded = some v) (h : m.current = some v) (hd : m.Dependable)
    (hv : m.isRegistered v = true) (hw : m.isRegistered w = true)
    (hx : Yields (onVCpu w x) (m.switchTo w) a ((m.switchTo w).mapVCpu w f))
    (hf : ∀ c, (f c).faults = c.faults) :
  Yields (withVmcs w x) m a (m.mapVCpu w f)
  := by
  obtain ⟨c, hc⟩ := isRegistered_iff_vcpu?.mp hw
  have henter : Yields (enter w) m () (m.switchTo w) := by
    apply yields_enter _ hc (hd w c hc).load
    intro hlw
    rw [h, ← hl, hlw]
  have hback : ((m.switchTo w).mapVCpu w f).switchTo v = m.mapVCpu w f :=
    congrArg (fun n : Machine => n.mapVCpu w f) (switchTo_eq_self hl h)
  have hrestore : Yields (restore w (some v)) ((m.switchTo w).mapVCpu w f) ()
      (m.mapVCpu w f) := by
    rw [restore, ← hback]
    split
    · rename_i hvw
      subst hvw
      apply Yields.pure
    · have hd' : ((m.switchTo w).mapVCpu w f).Dependable := (hd.switchTo w).mapVCpu hf w
      have hv' : ((m.switchTo w).mapVCpu w f).isRegistered v = true := by
        rw [isRegistered_mapVCpu, isRegistered_switchTo, hv]
      obtain ⟨c', hc'⟩ := isRegistered_iff_vcpu?.mp hv'
      apply (yields_contains v).bind
      rw [if_pos hv']
      apply yields_load hc' (hd' v c' hc').load
  rw [withVmcs]
  apply Yields.get_bind
  intro j
  rw [loaded_withJournal, hl]
  exact henter.bind (hx.outcome.bind (hrestore.bind (Yields.pure a)))

/-! ### Brokers that must be there -/

/-- A registered processor to whom nothing is pending has a broker with nothing pending. -/
theorem exists_broker_of_slot (hv : m.isRegistered v = true) (hs : m.slot v = []) :
  ∃ b, m.broker? v = some b ∧ b.pending = {}
  := by
  obtain ⟨b, hb⟩ := isRegistered_iff_broker?.mp hv
  rw [slot_of_broker? hb] at hs
  exact ⟨b, hb, congrArg Pending.mk hs⟩

/-- A processor to whom something is pending has a broker. -/
theorem exists_broker_of_slot_cons {e : ExitEvent} {es : List ExitEvent}
    (hs : m.slot v = e :: es) :
  ∃ b, m.broker? v = some b ∧ b.pending.events = e :: es
  := by
  cases hb : m.broker? v with
  | none =>
      rw [slot, hb] at hs
      exact absurd hs (List.cons_ne_nil e es).symm
  | some b =>
      rw [slot_of_broker? hb] at hs
      exact ⟨b, rfl, hs⟩

theorem isRegistered_of_slot_cons {e : ExitEvent} {es : List ExitEvent}
    (hs : m.slot v = e :: es) :
  m.isRegistered v = true
  := by
  obtain ⟨b, hb, -⟩ := exists_broker_of_slot_cons hs
  exact isRegistered_iff_broker?.mpr ⟨b, hb⟩

/-! ### Offering events -/

theorem yields_release (hc : m.vcpu? v = some c) (hd : c.faults.Mobile) (advance : Bool) :
  Yields (release v advance) m (.run v) ((m.switchTo v).mapVCpu v (VCpu.released advance))
  := by
  apply (yields_load hc hd.load).bind
  apply Yields.bind_pure
  apply yields_onVCpu_bind (yields_step (m := m.switchTo v) hc rfl hd advance)
  apply (yields_resume (vcpu?_mapVCpu_of_some (m := m.switchTo v) hc _)).of_eq
  rw [mapVCpu_mapVCpu]
  rfl

/-- The machine in which an event is handled by default, and its origin goes on. -/
def fallenBack (m : Machine) (e : ExitEvent) : Machine :=
  (m.switchTo e.origin).mapVCpu e.origin (VCpu.withPaused false ∘ VCpu.givenUp e.reason)

@[simp]
theorem isRegistered_fallenBack {e : ExitEvent} :
  (m.fallenBack e).isRegistered w = m.isRegistered w
  := by
  rw [fallenBack, isRegistered_mapVCpu, isRegistered_switchTo]

@[simp]
theorem slot_fallenBack {e : ExitEvent} :
  (m.fallenBack e).slot w = m.slot w
  := by
  rw [fallenBack, slot_mapVCpu, slot_switchTo]

@[simp]
theorem listeners_fallenBack {e : ExitEvent} (reason : ExitReason) :
  (m.fallenBack e).listeners w reason = m.listeners w reason
  := by
  rw [fallenBack, listeners_mapVCpu, listeners_switchTo]

theorem isPaused_fallenBack {e : ExitEvent} (ho : m.isRegistered e.origin = true) :
  (m.fallenBack e).isPaused e.origin = false
  := by
  obtain ⟨c, hc⟩ := isRegistered_iff_vcpu?.mp ho
  rw [fallenBack, isPaused_mapVCpu_self (m := m.switchTo e.origin) hc]
  rfl

theorem performs_fallBack {e : ExitEvent} (hc : m.vcpu? e.origin = some c)
    (hd : c.faults.Dependable) :
  Performs (fallBack e) m (.run e.origin) (m.fallenBack e)
    (.resume e.origin :: c.surrender e.origin e.reason ++ [.load e.origin])
  := by
  apply (performs_load hc hd.load).bind
  apply Performs.bind_pure
  have hx := performs_giveUp (m := m.switchTo e.origin) hc rfl hd
  have hc' := vcpu?_mapVCpu_of_some (m := m.switchTo e.origin) hc (VCpu.givenUp e.reason)
  apply (performs_onVCpu_bind hx (performs_resume hc')).of_eq
  · rw [mapVCpu_mapVCpu, fallenBack]
  · rfl

theorem yields_fallBack {e : ExitEvent} (hc : m.vcpu? e.origin = some c)
    (hd : c.faults.Dependable) :
  Yields (fallBack e) m (.run e.origin) (m.fallenBack e)
  := (performs_fallBack hc hd).yields

theorem performs_announce (hc : m.vcpu? v = some c) (h : m.current = some v)
    (hf : c.faults.get .interrupt = {}) (kernel : Bool) :
  Performs (announce v kernel) m () m
    (if kernel then [.interrupt v m.config.vector] else [])
  := by
  apply Performs.get_bind
  intro j
  cases kernel with
  | true =>
      apply (performs_note _).bind_quiet
      apply performs_queueInterrupt hc h hf
  | false => apply performs_note

/-- The machine with an event queued for a listener, which is loaded. -/
def handed (m : Machine) (listener : Vpid) (e : ExitEvent) : Machine :=
  (m.mapBroker listener (Broker.Effect.queue e).apply).switchTo listener

@[simp]
theorem vcpu?_handed (e : ExitEvent) :
  (m.handed v e).vcpu? w = m.vcpu? w
  := by
  rw [handed, vcpu?_switchTo, vcpu?_mapBroker]

@[simp]
theorem isRegistered_handed (e : ExitEvent) :
  (m.handed v e).isRegistered w = m.isRegistered w
  := by
  rw [handed, isRegistered_switchTo, isRegistered_mapBroker]

@[simp]
theorem listeners_handed (e : ExitEvent) (reason : ExitReason) :
  (m.handed v e).listeners w reason = m.listeners w reason
  := by
  rw [handed, listeners_switchTo, listeners_mapBroker_of_registry]
  intro b
  rfl

theorem Guarantees.handed {P : Faults → Prop} (h : m.Guarantees P) (v : Vpid)
    (e : ExitEvent) :
  (m.handed v e).Guarantees P
  := by
  intro w c hc
  rw [vcpu?_handed] at hc
  apply h w c hc

/-- The event is pending for the listener and for nobody else. -/
theorem slot_handed (hv : m.isRegistered v = true) (hs : m.slot v = []) (e : ExitEvent) :
  (m.handed v e).slot w = if w = v then [e] else m.slot w
  := by
  rw [handed, slot_switchTo]
  split
  · subst w
    obtain ⟨b, hb, he⟩ := exists_broker_of_slot hv hs
    rw [slot_mapBroker_self hb]
    change b.pending.events ++ [e] = [e]
    rw [he]
    rfl
  · rename_i hw
    apply slot_mapBroker_of_ne _ hw

/-- A listener to whom nothing is pending gets the event, is loaded, and is interrupted if it
receives events in the kernel. -/
theorem performs_inject {e : ExitEvent} {b : Broker} (hb : m.broker? v = some b)
    (hs : b.pending = {}) (hf : m.Flawless) :
  Performs (inject v e) m (.run v) (m.handed v e)
    ((if b.isKernelListener then [.interrupt v m.config.vector] else []) ++ [.load v])
  := by
  obtain ⟨c, hc⟩ := isRegistered_iff_vcpu?.mp (isRegistered_iff_broker?.mpr ⟨b, hb⟩)
  have hc' : (m.mapBroker v (Broker.Effect.queue e).apply).vcpu? v = some c := by
    rw [vcpu?_mapBroker, hc]
  have hc'' : (m.handed v e).vcpu? v = some c := hc'
  rw [inject_eq]
  apply (performs_broker hb).bind_quiet
  rw [if_pos (Pending.isEmpty_iff.mpr hs)]
  apply (performs_modifyBroker hb _).bind_quiet
  apply (performs_load hc' (by rw [hf v c hc]; rfl)).bind
  apply Performs.bind_pure
  apply performs_announce hc'' rfl
  rw [hf v c hc]
  rfl

/-- A listener to whom nothing is pending gets the event and is run. -/
theorem yields_inject (hv : m.isRegistered v = true) (hs : m.slot v = []) (hf : m.Flawless)
    (e : ExitEvent) :
  Yields (inject v e) m (.run v) (m.handed v e)
  := by
  obtain ⟨b, hb, he⟩ := exists_broker_of_slot hv hs
  exact (performs_inject hb he hf).yields

/-- A listener that has not answered yet gets no second event. -/
theorem performs_inject_of_pending {e : ExitEvent} {b : Broker} (hb : m.broker? v = some b)
    (hs : b.pending ≠ {}) (hc : m.vcpu? e.origin = some c) (hd : c.faults.Dependable) :
  Performs (inject v e) m (.run e.origin) (m.fallenBack e)
    (.resume e.origin :: c.surrender e.origin e.reason ++ [.load e.origin])
  := by
  rw [inject_eq]
  apply (performs_broker hb).bind_quiet
  rw [if_neg (mt Pending.isEmpty_iff.mp hs)]
  apply (performs_note _).bind_quiet
  apply performs_fallBack hc hd

/-- A listener that has not answered yet gets no second event, which is handled by
default. -/
theorem yields_inject_of_slot {e : ExitEvent} (hv : m.isRegistered v = true)
    (hs : m.slot v ≠ []) (ho : m.isRegistered e.origin = true) (hd : m.Dependable) :
  Yields (inject v e) m (.run e.origin) (m.fallenBack e)
  := by
  obtain ⟨b, hb⟩ := isRegistered_iff_broker?.mp hv
  obtain ⟨c, hc⟩ := isRegistered_iff_vcpu?.mp ho
  have hp : b.pending ≠ {} := by
    intro he
    apply hs
    rw [slot_of_broker? hb, he]
  exact (performs_inject_of_pending hb hp hc (hd _ c hc)).yields

theorem exists_yields_inject {e : ExitEvent} (hv : m.isRegistered v = true)
    (ho : m.isRegistered e.origin = true) (hf : m.Flawless) :
  ∃ t n, Yields (inject v e) m t n
  := by
  by_cases hs : m.slot v = []
  · exact ⟨_, _, yields_inject hv hs hf e⟩
  · exact ⟨_, _, yields_inject_of_slot hv hs ho hf.dependable⟩

/-- A reason that has a listener on a processor is listened for on a registered one. -/
theorem exists_broker_of_listener {o : Vpid} {reason : ExitReason}
    (h : v ∈ (m.listeners o reason).members) :
  ∃ b, m.broker? o = some b ∧ b.registry.get reason = m.listeners o reason
  := by
  cases hb : m.broker? o with
  | none =>
      rw [listeners, hb] at h
      exact absurd h List.not_mem_nil
  | some b => exact ⟨b, rfl, (listeners_of_broker? hb reason).symm⟩

theorem listeners_mapBroker_first {o : Vpid} (ho : m.isRegistered o = true)
    (reason : ExitReason) :
  (m.mapBroker o (Broker.Effect.first reason).apply).listeners o reason =
    (m.listeners o reason).rewind
  := by
  obtain ⟨b, hb⟩ := isRegistered_iff_broker?.mp ho
  rw [listeners_mapBroker_self hb, listeners_of_broker? hb]
  apply Registry.get_set_self _ _ _

theorem listeners_mapBroker_next {o : Vpid} (ho : m.isRegistered o = true)
    (reason : ExitReason) :
  (m.mapBroker o (Broker.Effect.next reason).apply).listeners o reason =
    (m.listeners o reason).advance.2
  := by
  obtain ⟨b, hb⟩ := isRegistered_iff_broker?.mp ho
  rw [listeners_mapBroker_self hb, listeners_of_broker? hb]
  apply Registry.get_set_self _ _ _

/-- The machine in which an event is about to be queued for the first time: the cursor is put
on the first listener, and the origin is stopped. -/
def suspended (m : Machine) (e : ExitEvent) : Machine :=
  (m.mapBroker e.origin (Broker.Effect.first e.reason).apply).mapVCpu e.origin
    (VCpu.withPaused true)

section

variable {e : ExitEvent}

@[simp]
theorem slot_suspended :
  (m.suspended e).slot w = m.slot w
  := by
  rw [suspended, slot_mapVCpu, slot_mapBroker_of_pending]
  intro b
  rfl

@[simp]
theorem isRegistered_suspended :
  (m.suspended e).isRegistered w = m.isRegistered w
  := by
  rw [suspended, isRegistered_mapVCpu, isRegistered_mapBroker]

theorem vcpu?_suspended_origin :
  (m.suspended e).vcpu? e.origin = (m.vcpu? e.origin).map (VCpu.withPaused true)
  := by
  rw [suspended, vcpu?_mapVCpu_self, vcpu?_mapBroker]

theorem vcpu?_suspended_of_ne (h : w ≠ e.origin) :
  (m.suspended e).vcpu? w = m.vcpu? w
  := by
  rw [suspended, vcpu?_mapVCpu_of_ne _ h, vcpu?_mapBroker]

theorem listeners_suspended_origin (ho : m.isRegistered e.origin = true) :
  (m.suspended e).listeners e.origin e.reason = (m.listeners e.origin e.reason).rewind
  := by
  rw [suspended, listeners_mapVCpu, listeners_mapBroker_first ho]

theorem Guarantees.suspended {P : Faults → Prop} (h : m.Guarantees P) (e : ExitEvent) :
  (m.suspended e).Guarantees P
  := by
  apply Guarantees.mapVCpu
  · apply h.mapBroker
  · intro c
    rfl

end

/-- An event is offered to the first listener once its origin is stopped. -/
theorem yields_notify_of_inject {e : ExitEvent} {t : Transfer}
    (hl : (m.listeners e.origin e.reason).members.head? = some v)
    (hv : m.isRegistered v = true) (hx : Yields (inject v e) (m.suspended e) t n) :
  Yields (notify e) m (some t) n
  := by
  obtain ⟨b, hb, hr⟩ := exists_broker_of_listener (List.mem_of_head? hl)
  have hfst : (b.registry.first e.reason).1 = some v := by
    change (b.registry.get e.reason).first.1 = some v
    rw [ListenerSet.fst_first, hr, hl]
  obtain ⟨c, hc⟩ := isRegistered_iff_vcpu?.mp (isRegistered_iff_broker?.mpr ⟨b, hb⟩)
  have h₁ := yields_onBroker hb fun b =>
    ((b.registry.first e.reason).1, { b with registry := (b.registry.first e.reason).2 })
  simp only [hfst] at h₁
  rw [notify]
  apply h₁.bind
  apply (yields_contains v).bind
  rw [isRegistered_mapBroker, if_pos hv]
  apply (yields_note _).bind
  apply Yields.bind (n := m.suspended e)
  · apply yields_pause (c := c)
    rw [vcpu?_mapBroker, hc]
  · apply hx.map

/-- An event is offered to the first listener: its origin is stopped, and it is queued. -/
theorem yields_notify {e : ExitEvent} {rest : List Vpid}
    (hl : (m.listeners e.origin e.reason).members = v :: rest)
    (hv : m.isRegistered v = true) (hs : m.slot v = []) (hf : m.Flawless) :
  Yields (notify e) m (some (.run v)) ((m.suspended e).handed v e)
  := by
  apply yields_notify_of_inject (by rw [hl, List.head?_cons]) hv
  apply yields_inject
  · rw [isRegistered_suspended, hv]
  · rw [slot_suspended, hs]
  · apply hf.suspended

/-- Where nobody listens, or the first listener is gone, an event is offered to nobody. -/
theorem yields_notify_none {e : ExitEvent} (ho : m.isRegistered e.origin = true)
    (hl : ∀ l, (m.listeners e.origin e.reason).members.head? = some l →
      m.isRegistered l = false) :
  Yields (notify e) m none (m.mapBroker e.origin (Broker.Effect.first e.reason).apply)
  := by
  obtain ⟨b, hb⟩ := isRegistered_iff_broker?.mp ho
  have hfst : (b.registry.first e.reason).1 =
      (m.listeners e.origin e.reason).members.head? := by
    rw [listeners_of_broker? hb]
    apply ListenerSet.fst_first
  have h₁ := yields_onBroker hb fun b =>
    ((b.registry.first e.reason).1, { b with registry := (b.registry.first e.reason).2 })
  simp only [hfst] at h₁
  rw [notify]
  apply h₁.bind
  cases hh : (m.listeners e.origin e.reason).members.head? with
  | none => exact Yields.pure none
  | some l =>
      apply (yields_contains l).bind
      rw [isRegistered_mapBroker, hl l hh]
      apply (yields_note _).bind
      apply Yields.pure

/-- If nothing fails, an event is offered to somebody or to nobody. -/
theorem exists_yields_notify {e : ExitEvent} (ho : m.isRegistered e.origin = true)
    (hf : m.Flawless) :
  (∃ t n, Yields (notify e) m (some t) n) ∨
    Yields (notify e) m none (m.mapBroker e.origin (Broker.Effect.first e.reason).apply)
  := by
  by_cases hl : ∃ l, (m.listeners e.origin e.reason).members.head? = some l ∧
      m.isRegistered l = true
  · left
    obtain ⟨l, hh, hl⟩ := hl
    obtain ⟨t, n, hx⟩ := exists_yields_inject (m := m.suspended e) (v := l) (e := e)
      (by rw [isRegistered_suspended, hl]) (by rw [isRegistered_suspended, ho])
      (hf.suspended e)
    exact ⟨t, n, yields_notify_of_inject hh hl hx⟩
  · right
    apply yields_notify_none ho
    intro l hh
    rw [Bool.eq_false_iff]
    intro hr
    exact hl ⟨l, hh, hr⟩

/-- A declined event is offered to the listener that follows the cursor. -/
theorem yields_notifyNext_of_inject {e : ExitEvent} {t : Transfer}
    (hl : (m.listeners e.origin e.reason).advance.1 = some v)
    (ho : m.isRegistered e.origin = true) (hv : m.isRegistered v = true)
    (hx : Yields (inject v e) (m.mapBroker e.origin (Broker.Effect.next e.reason).apply) t n) :
  Yields (notifyNext e) m (some t) n
  := by
  obtain ⟨b, hb⟩ := isRegistered_iff_broker?.mp ho
  have hnext : (b.registry.next e.reason).1 = some v := by
    change (b.registry.get e.reason).advance.1 = some v
    rw [← listeners_of_broker? hb, hl]
  have h₁ := yields_onBroker hb fun b =>
    ((b.registry.next e.reason).1, { b with registry := (b.registry.next e.reason).2 })
  simp only [hnext] at h₁
  rw [notifyNext]
  apply h₁.bind
  apply (yields_contains v).bind
  rw [isRegistered_mapBroker, if_pos hv]
  apply hx.map

/-- Behind the last listener, or where the next one is gone, no listener is found. -/
theorem yields_notifyNext_none {e : ExitEvent}
    (hl : ∀ l, (m.listeners e.origin e.reason).advance.1 = some l → m.isRegistered l = false)
    (ho : m.isRegistered e.origin = true) :
  Yields (notifyNext e) m none (m.mapBroker e.origin (Broker.Effect.next e.reason).apply)
  := by
  obtain ⟨b, hb⟩ := isRegistered_iff_broker?.mp ho
  have hnext : (b.registry.next e.reason).1 =
      (m.listeners e.origin e.reason).advance.1 := by
    rw [listeners_of_broker? hb]
    rfl
  have h₁ := yields_onBroker hb fun b =>
    ((b.registry.next e.reason).1, { b with registry := (b.registry.next e.reason).2 })
  simp only [hnext] at h₁
  rw [notifyNext]
  apply h₁.bind
  cases hh : (m.listeners e.origin e.reason).advance.1 with
  | none =>
      apply (yields_note _).bind
      apply Yields.pure
  | some l =>
      apply (yields_contains l).bind
      rw [isRegistered_mapBroker, hl l hh]
      apply (yields_note _).bind
      apply Yields.pure

theorem yields_passOn_of_inject {e : ExitEvent} {t : Transfer}
    (hl : (m.listeners e.origin e.reason).advance.1 = some v)
    (ho : m.isRegistered e.origin = true) (hv : m.isRegistered v = true)
    (hx : Yields (inject v e) (m.mapBroker e.origin (Broker.Effect.next e.reason).apply) t n) :
  Yields (passOn e) m t n
  := by
  rw [passOn]
  apply (yields_notifyNext_of_inject hl ho hv hx).bind
  apply Yields.pure

theorem yields_passOn {e : ExitEvent}
    (hl : (m.listeners e.origin e.reason).advance.1 = some v)
    (ho : m.isRegistered e.origin = true) (hv : m.isRegistered v = true) (hs : m.slot v = [])
    (hf : m.Flawless) :
  Yields (passOn e) m (.run v)
    ((m.mapBroker e.origin (Broker.Effect.next e.reason).apply).handed v e)
  := by
  apply yields_passOn_of_inject hl ho hv
  apply yields_inject
  · rw [isRegistered_mapBroker]
    exact hv
  · rw [slot_mapBroker_of_pending, hs]
    intro b
    rfl
  · apply hf.mapBroker

theorem yields_passOn_none {e : ExitEvent}
    (hl : ∀ l, (m.listeners e.origin e.reason).advance.1 = some l → m.isRegistered l = false)
    (ho : m.isRegistered e.origin = true) (hd : m.Dependable) :
  Yields (passOn e) m (.run e.origin)
    ((m.mapBroker e.origin (Broker.Effect.next e.reason).apply).fallenBack e)
  := by
  obtain ⟨c, hc⟩ := isRegistered_iff_vcpu?.mp ho
  rw [passOn]
  apply (yields_notifyNext_none hl ho).bind
  apply yields_fallBack _ (hd _ c hc)
  rw [vcpu?_mapBroker, hc]

/-! ### Receiving events -/

theorem yields_report (hc : m.vcpu? v = some c) (h : m.current = some v)
    (hf : c.faults.get .advance = {}) (results : Registers → Registers) :
  Yields (report v results) m (.run v)
    (m.mapVCpu v (VCpu.completed results ∘ VCpu.advanced))
  := by
  have h₁ := vcpu?_mapVCpu_of_some hc (VCpu.assigned results)
  have h₂ := vcpu?_mapVCpu_of_some h₁ VCpu.advanced
  rw [report]
  apply Yields.bind_pure
  apply yields_onVCpu_bind (yields_modifyRegisters hc results)
  apply yields_onVCpu_bind (yields_advance h₁ h hf)
  apply (yields_modifyRegisters h₂ _).of_eq
  rw [mapVCpu_mapVCpu, mapVCpu_mapVCpu]
  rfl

theorem yields_endWait {b : Broker} (hb : m.broker? v = some b) (e : ExitEvent) :
  Yields (endWait v e b.isKernelListener) m () (m.mapBroker v Broker.told)
  := by
  rw [endWait]
  split
  · rename_i hk
    rw [mapBroker_eq_self hb (by rw [Broker.told, if_pos hk])]
    apply Yields.pure
  · rename_i hk
    rw [mapBroker_congr (g := Broker.clearDeadline) hb (by rw [Broker.told, if_neg hk])]
    apply (yields_modifyBroker hb Broker.clearDeadline).bind
    apply yields_note

/-- A listener that asks is told of the event in flight, which stays in flight. -/
theorem yields_nextExit {e : ExitEvent} {es : List ExitEvent} (hc : m.vcpu? v = some c)
    (h : m.current = some v) (hf : c.faults.get .advance = {}) (hs : m.slot v = e :: es) :
  Yields (nextExit v) m (.run v)
    ((m.mapBroker v Broker.told).mapVCpu v
      (VCpu.completed (eventRegisters e) ∘ VCpu.advanced))
  := by
  obtain ⟨b, hb, he⟩ := exists_broker_of_slot_cons hs
  have hfront : b.pending.front? = some e := by
    rw [Pending.front?, he]
    rfl
  rw [nextExit]
  apply (yields_broker hb).bind
  rw [hfront]
  have hc' : (m.mapBroker v Broker.told).vcpu? v = some c := by
    rw [vcpu?_mapBroker, hc]
  apply (yields_endWait hb e).bind
  apply yields_report hc' h hf

/-! ### Answering events -/

/-- The machine with an event taken from a listener, whose call has been completed. -/
def answered (m : Machine) (v : Vpid) : Machine :=
  (m.mapBroker v Broker.Effect.pop.apply).mapVCpu v (VCpu.completed id)

@[simp]
theorem isRegistered_answered :
  (m.answered v).isRegistered w = m.isRegistered w
  := by
  rw [answered, isRegistered_mapVCpu, isRegistered_mapBroker]

theorem vcpu?_answered_of_ne (h : w ≠ v) :
  (m.answered v).vcpu? w = m.vcpu? w
  := by
  rw [answered, vcpu?_mapVCpu_of_ne _ h, vcpu?_mapBroker]

@[simp]
theorem listeners_answered (reason : ExitReason) :
  (m.answered v).listeners w reason = m.listeners w reason
  := by
  rw [answered, listeners_mapVCpu, listeners_mapBroker_of_registry]
  intro b
  rfl

/-- The event in flight is taken from the listener, and the slots of others stay as they
are. -/
theorem slot_answered {e : ExitEvent} {es : List ExitEvent} (hs : m.slot v = e :: es) :
  (m.answered v).slot w = if w = v then es else m.slot w
  := by
  rw [answered, slot_mapVCpu]
  split
  · subst w
    obtain ⟨b, hb, he⟩ := exists_broker_of_slot_cons hs
    rw [slot_mapBroker_self hb]
    change b.pending.events.tail = es
    rw [he]
    rfl
  · rename_i hw
    apply slot_mapBroker_of_ne _ hw

theorem Guarantees.answered {P : Faults → Prop} (h : m.Guarantees P) (v : Vpid) :
  (m.answered v).Guarantees P
  := by
  apply Guarantees.mapVCpu
  · apply h.mapBroker
  · intro c
    rfl

/-- The event in flight is the one that is taken. -/
theorem yields_pop {e : ExitEvent} {es : List ExitEvent} (hs : m.slot v = e :: es) :
  Yields (onBroker v fun b => (b.pending.pop.1, { b with pending := b.pending.pop.2 })) m
    (some e) (m.mapBroker v Broker.Effect.pop.apply)
  := by
  obtain ⟨b, hb, he⟩ := exists_broker_of_slot_cons hs
  have hfront : b.pending.pop.1 = some e := by
    rw [Pending.pop, Pending.front?, he]
    rfl
  have hx := yields_onBroker hb fun b => (b.pending.pop.1, { b with pending := b.pending.pop.2 })
  rw [hfront] at hx
  exact hx

/-- Where nothing is pending nothing is taken. -/
theorem yields_pop_nil (hv : m.isRegistered v = true) (hs : m.slot v = []) :
  Yields (onBroker v fun b => (b.pending.pop.1, { b with pending := b.pending.pop.2 })) m
    none m
  := by
  obtain ⟨b, hb, he⟩ := exists_broker_of_slot hv hs
  have hfront : b.pending.pop.1 = none := by
    rw [he]
    rfl
  have hself : { b with pending := b.pending.pop.2 } = b := by
    rw [Pending.pop, he, List.tail_nil, ← he]
  have hx := yields_onBroker hb fun b => (b.pending.pop.1, { b with pending := b.pending.pop.2 })
  rw [hfront, mapBroker_eq_self hb hself] at hx
  exact hx

/-- Answering an event ends as the handling of the event does once it has been taken from the
listener. -/
theorem ends_endOfExit {e : ExitEvent} {es : List ExitEvent} {Q : Transfer → Machine → Prop}
    {E : SysError → Machine → Prop} (hc : m.vcpu? v = some c) (hs : m.slot v = e :: es)
    (ho : m.isRegistered e.origin = true)
    (hx : ∀ j, Ends (if EndOfExit.handled c.regs.r11 then
      release e.origin (EndOfExit.advance c.regs.r11) else passOn e)
        ((m.answered v).withJournal j) Q E) :
  Ends (endOfExit v) m Q E
  := by
  have hc' : (m.mapBroker v Broker.Effect.pop.apply).vcpu? v = some c := by
    rw [vcpu?_mapBroker, hc]
  rw [endOfExit]
  apply Ends.bind_ok (registers_eq hc)
  apply (yields_pop hs).ends_bind
  intro j
  apply Ends.bind_ok contains_eq
  rw [isRegistered_withJournal, isRegistered_mapBroker, if_pos ho]
  apply (yields_modifyRegisters (m := (m.mapBroker v _).withJournal j) hc' _).ends_bind
  intro j
  split
  · rename_i hh
    apply (yields_note _).ends_bind
    intro j
    have hj := hx j
    rw [if_pos hh] at hj
    exact hj
  · rename_i hh
    apply (yields_note _).ends_bind
    intro j
    have hj := hx j
    rw [if_neg hh] at hj
    exact hj

/-- What answering an event yields is what becomes of the event once it has been taken from
the listener. -/
theorem yields_endOfExit {e : ExitEvent} {es : List ExitEvent} {t : Transfer}
    (hc : m.vcpu? v = some c) (hs : m.slot v = e :: es) (ho : m.isRegistered e.origin = true)
    (hx : Yields (if EndOfExit.handled c.regs.r11 then
      release e.origin (EndOfExit.advance c.regs.r11) else passOn e) (m.answered v) t n) :
  Yields (endOfExit v) m t n
  := by
  have hc' : (m.mapBroker v Broker.Effect.pop.apply).vcpu? v = some c := by
    rw [vcpu?_mapBroker, hc]
  rw [endOfExit]
  apply (yields_registers hc).bind
  apply Yields.bind (yields_pop hs)
  apply (yields_contains e.origin).bind
  rw [isRegistered_mapBroker, if_pos ho]
  apply (yields_modifyRegisters hc' _).bind
  split
  · rename_i hh
    rw [if_pos hh] at hx
    apply (yields_note _).bind hx
  · rename_i hh
    rw [if_neg hh] at hx
    apply (yields_note _).bind hx

end Machine

end ExitRelay
