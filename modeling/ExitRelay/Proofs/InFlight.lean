import ExitRelay.Proofs.Execution.Exit
import ExitRelay.Proofs.Operation

/-!
# Events in flight

An event that has been queued for a listener stays in flight until the listener answers it,
whatever other processors do meanwhile: their traps may overflow the listener, and their
calls may switch controls.  Until then every question of the listener is answered with the
event, and when the listener has handled it its origin goes on.
-/

namespace ExitRelay

/-- The effects that take no event from a listener. -/
def Effect.withoutPop (listener : Vpid) : Set Effect :=
  {k | k ≠ .broker listener .pop}

namespace Effect

variable {listener : Vpid}

theorem routine_subset_withoutPop :
  routine ⊆ withoutPop listener
  := by
  rintro _ hk rfl
  exact hk

theorem delivery_subset_withoutPop (origin : Vpid) :
  delivery origin ⊆ withoutPop listener
  := by
  rintro _ hk rfl
  exact hk

/-- Only the calls that may take an event from their caller do so, and from nobody else. -/
theorem effects_subset_withoutPop {caller : Vpid} {call : Call}
    (h : caller = listener → ¬ call.Takes) :
  call.effects caller ⊆ withoutPop listener
  := by
  rintro _ hk rfl
  cases call with
  | endOfExit =>
      obtain hk | ⟨_, hk⟩ := hk
      · obtain ⟨rfl, -⟩ := Effect.broker.inj hk
        apply h rfl (.inl rfl)
      · exact hk
  | vmwrite =>
      obtain hk | ⟨_, _, hk⟩ | ⟨_, hk⟩ := hk
      · obtain ⟨rfl, -⟩ := Effect.broker.inj hk
        apply h rfl (.inr rfl)
      · exact Broker.Effect.noConfusion (Effect.broker.inj hk).2
      · exact hk
  | nextExit => exact Effect.noConfusion hk
  | _ => exact hk

end Effect

namespace Machine

variable {m n : Machine} {v listener origin : Vpid} {k : Effect} {e : ExitEvent}

/-! ### What keeps an event in flight -/

/-- Where an event is pending, nothing is queued, and only a pop takes something away. -/
theorem slot_apply (hk : k.Possible m) (hpop : k ∈ Effect.withoutPop listener)
    (hs : m.slot listener ≠ []) :
  (k.apply m).slot listener = m.slot listener
  := by
  cases k with
  | record j => rfl
  | misdirect w => rfl
  | load w => rfl
  | vcpu w k => exact slot_mapVCpu _
  | broker w k =>
      obtain ⟨b, hb, hk⟩ := hk
      by_cases hw : listener = w
      · subst w
        cases k with
        | queue e =>
            rw [slot_of_broker? hb, show b.pending = {} from hk] at hs
            exact absurd rfl hs
        | pop => exact absurd rfl hpop
        | _ => exact slot_mapBroker_of_pending fun _ => rfl
      · apply slot_mapBroker_of_ne _ hw

/-- The listener holds the event and has not answered it yet. -/
structure InFlight (listener : Vpid) (e : ExitEvent) (m : Machine) : Prop where
  agrees : m.Agrees
  flawless : m.Flawless
  registered : m.isRegistered listener = true
  origin : m.isRegistered e.origin = true
  slot : m.slot listener = [e]

theorem InFlight.path (h : InFlight listener e m)
    (hp : Path (Effect.withoutPop listener) m n) :
  InFlight listener e n
  := by
  constructor
  · apply hp.agrees h.agrees
  · apply h.flawless.path hp
  · rw [hp.isRegistered, h.registered]
  · rw [hp.isRegistered, h.origin]
  · apply hp.keeps _ h.slot
    intro k hk l hl hs
    rw [slot_apply hl hk, hs]
    rw [hs]
    apply List.cons_ne_nil e []

/-- The operations that leave it to the listener to answer: neither the listener nor the
origin is removed, no processor that may fail is registered, and the listener neither ends
an exit nor switches controls. -/
def Undisturbed (listener origin : Vpid) (m : Machine) : Operation → Prop
  | .time _ => True
  | .guest _ _ _ => True
  | .add _ c => c.faults = {}
  | .remove v => v ≠ listener ∧ v ≠ origin
  | .load _ => True
  | .exit v x => v = listener → x.reason = .vmcall → ∀ call, m.call? v = some call → ¬ call.Takes
  | .hypercall v => v = listener → ∀ call, m.call? v = some call → ¬ call.Takes
  | _ => False

theorem Flawless.add (h : m.Flawless) (v : Vpid) {c : VCpu} (hc : c.faults = {}) :
  (after (add v c) m).Flawless
  := by
  cases hv : m.isRegistered v with
  | true =>
      rw [add_of_registered hv]
      exact h
  | false =>
      rw [add_eq hv]
      apply h.insert v hc

theorem Flawless.remove (h : m.Flawless) (v : Vpid) :
  (after (remove v) m).Flawless
  := by
  intro w c hc
  by_cases hw : w = v
  · subst w
    rw [vcpu?, getElem?_residents_remove_self] at hc
    exact absurd hc (Option.some_ne_none c).symm
  · rw [vcpu?, getElem?_residents_remove hw] at hc
    apply h w c hc

/-- Registering a processor leaves the event where it is. -/
theorem InFlight.add (h : InFlight listener e m) (v : Vpid) {c : VCpu} (hc : c.faults = {}) :
  InFlight listener e (after (Machine.add v c) m)
  := by
  obtain ⟨r, hr⟩ := isRegistered_iff.mp h.registered
  obtain ⟨r', hr'⟩ := isRegistered_iff.mp h.origin
  constructor
  · apply h.agrees.add
  · apply h.flawless.add v hc
  · rw [isRegistered_iff]
    exact ⟨r, getElem?_residents_add c hr⟩
  · rw [isRegistered_iff]
    exact ⟨r', getElem?_residents_add c hr'⟩
  · rw [slot_add, h.slot]

/-- Removing a processor other than the listener and the origin leaves the event where it
is. -/
theorem InFlight.remove (h : InFlight listener e m) {v : Vpid} (hl : v ≠ listener)
    (ho : v ≠ e.origin) :
  InFlight listener e (after (Machine.remove v) m)
  := by
  constructor
  · apply h.agrees.remove
  · apply h.flawless.remove
  · rw [isRegistered_of_residents (getElem?_residents_remove hl.symm), h.registered]
  · rw [isRegistered_of_residents (getElem?_residents_remove ho.symm), h.origin]
  · rw [slot_of_residents (getElem?_residents_remove hl.symm), h.slot]

/-- No operation that leaves it to the listener to answer takes the event from it. -/
theorem InFlight.run (h : InFlight listener e m) {o : Operation}
    (ho : Undisturbed listener e.origin m o) :
  InFlight listener e (o.run m)
  := by
  have hp : Effect.routine ⊆ Effect.withoutPop listener := Effect.routine_subset_withoutPop
  have ha : ∀ v k, Effect.vcpu v k ∈ Effect.withoutPop listener :=
    fun _ _ => Effect.noConfusion
  cases o with
  | time now => exact ⟨h.agrees, h.flawless, h.registered, h.origin, h.slot⟩
  | guest v regs vmcs =>
      constructor
      · apply h.agrees.mapVCpu v _
      · refine h.flawless.mapVCpu ?_ v
        intro c
        rfl
      · rw [Operation.run, isRegistered_mapVCpu, h.registered]
      · rw [Operation.run, isRegistered_mapVCpu, h.origin]
      · rw [Operation.run, slot_mapVCpu, h.slot]
  | add v c => exact h.add v ho
  | remove v => exact h.remove ho.1 ho.2
  | load v => exact h.path (walks_load hp v).after
  | exit v x =>
      apply h.path
      apply Walks.after
      apply walks_handleExit hp h.agrees.aimed x (ha v .advance) (fun _ f => ha v (.results f))
        (fun _ w => ha v (.cr3 w)) (fun _ => Effect.delivery_subset_withoutPop v)
      intro hx call hcall
      apply Effect.effects_subset_withoutPop
      intro hv
      apply ho hv hx call hcall
  | hypercall v =>
      apply h.path
      apply Walks.after
      apply walks_handleHypercall hp h.agrees.aimed (ha v .advance) (fun f => ha v (.results f))
      intro call hcall
      apply Effect.effects_subset_withoutPop
      intro hv
      apply ho hv call hcall
  | _ => exact False.elim ho

theorem InFlight.runs (h : InFlight listener e m)
    (hr : Run (Undisturbed listener e.origin) m n) :
  InFlight listener e n
  := hr.keeps (fun _ _ ho hl => hl.run ho) h

/-! ### Asking and answering -/

/-- A listener that asks is told of the event in flight, whatever it asks with and whatever
the time, and its call is complete. -/
theorem InFlight.nextExit {c : VCpu} (h : InFlight listener e m)
    (hc : m.vcpu? listener = some c) (hcall : m.call? listener = some .nextExit) :
  ∃ n c', handleHypercall listener m = .ok (some (.run listener)) n ∧
    n.vcpu? listener = some c' ∧
    c'.regs = { c.regs with
      rax := Status.success.code, r10 := e.origin, r11 := e.reason.code, r12 := e.data0,
      r13 := e.data1 } ∧
    c'.vmcs = c.vmcs.write Field.rip (c.vmcs.read Field.rip + VcpuM.instructionLength)
  := by
  have hx := yields_serveNextExit (yields_nextExit (m := m.switchTo listener) hc rfl
    (h.flawless.dependable listener c hc).advance h.slot)
  have hc' : (((m.switchTo listener).mapBroker listener Broker.told).mapVCpu listener
      (VCpu.completed (eventRegisters e) ∘ VCpu.advanced)).vcpu? listener =
      some ((VCpu.completed (eventRegisters e) ∘ VCpu.advanced) c) := by
    rw [vcpu?_mapVCpu_self, vcpu?_mapBroker, vcpu?_switchTo, hc]
    rfl
  obtain ⟨j, hj⟩ := (yields_handleHypercall h.agrees h.flawless.dependable hc hcall hx
    (isRegistered_iff_vcpu?.mpr ⟨_, hc'⟩)).eq_ok
  exact ⟨_, _, hj, hc', rfl, rfl⟩

/-- What the answer of the listener yields is what becomes of the event once it has been
taken from the listener. -/
theorem InFlight.yields_answer {c : VCpu} {t : Transfer} (h : InFlight listener e m)
    (hc : m.vcpu? listener = some c) (hcall : m.call? listener = some .endOfExit)
    (hx : Yields (if EndOfExit.handled c.regs.r11 then
        release e.origin (EndOfExit.advance c.regs.r11) else passOn e)
      (((m.switchTo listener).mapVCpu listener VCpu.advanced).answered listener) t n)
    (hn : n.isRegistered listener = true) :
  Yields (handleHypercall listener) m (some t) n
  := by
  have hd := h.flawless.dependable
  have hc' := vcpu?_mapVCpu_of_some (m := m.switchTo listener) hc VCpu.advanced
  have hs' : ((m.switchTo listener).mapVCpu listener VCpu.advanced).slot listener = [e] := by
    rw [slot_mapVCpu, slot_switchTo, h.slot]
  have ho' : ((m.switchTo listener).mapVCpu listener VCpu.advanced).isRegistered e.origin =
      true := by
    rw [isRegistered_mapVCpu, isRegistered_switchTo, h.origin]
  have hne : Call.endOfExit ≠ .nextExit := Call.noConfusion
  have hserve := yields_serveAdvanced hne
    (m := m.switchTo listener) hc rfl (hd listener c hc).advance
    (yields_endOfExit hc' hs' ho' hx).adaptExcept
  apply yields_handleHypercall h.agrees hd hc hcall hserve hn

/-- A listener that has handled the event ends its flight, and the origin goes on. -/
theorem InFlight.endOfExit {c : VCpu} (h : InFlight listener e m)
    (hc : m.vcpu? listener = some c) (hcall : m.call? listener = some .endOfExit)
    (hh : EndOfExit.handled c.regs.r11 = true) :
  ∃ n, handleHypercall listener m = .ok (some (.run e.origin)) n ∧ n.slot listener = [] ∧
    n.isPaused e.origin = false ∧ n.loaded = some e.origin ∧ n.current = some e.origin
  := by
  have hs' : ((m.switchTo listener).mapVCpu listener VCpu.advanced).slot listener = [e] := by
    rw [slot_mapVCpu, slot_switchTo, h.slot]
  have ho' : (((m.switchTo listener).mapVCpu listener VCpu.advanced).answered
      listener).isRegistered e.origin = true := by
    rw [isRegistered_answered, isRegistered_mapVCpu, isRegistered_switchTo, h.origin]
  have hd' := ((h.flawless.dependable.switchTo listener).mapVCpu VCpu.faults_advanced
    listener).answered listener
  obtain ⟨co, hco⟩ := isRegistered_iff_vcpu?.mp ho'
  have hx := yields_release hco (hd' _ co hco).mobile (EndOfExit.advance c.regs.r11)
  obtain ⟨j, hj⟩ := (h.yields_answer hc hcall (by rw [if_pos hh]; exact hx) (by
    rw [isRegistered_mapVCpu, isRegistered_switchTo, isRegistered_answered, isRegistered_mapVCpu,
      isRegistered_switchTo, h.registered])).eq_ok
  refine ⟨_, hj, ?_, ?_, rfl, rfl⟩
  · rw [slot_withJournal, slot_mapVCpu, slot_switchTo, slot_answered hs', if_pos rfl]
  · rw [isPaused_withJournal]
    rw [isPaused_mapVCpu_self (m := (((m.switchTo listener).mapVCpu listener
      VCpu.advanced).answered listener).switchTo e.origin) hco]
    rfl

/-! ### From the trap to the answer -/

/-- A trap of which a listener without an event is told puts the event in flight, and the
processor that exited is stopped. -/
theorem inFlight_of_event? {x : HardwareExit} {c : VCpu} {rest : List Vpid}
    (h : m.Agrees) (hf : m.Flawless) (hc : m.vcpu? e.origin = some c)
    (he : x.event? e.origin c = some e)
    (hl : (m.listeners e.origin e.reason).members = listener :: rest)
    (hr : m.isRegistered listener = true) (hs : m.slot listener = []) :
  ∃ n, handleExit e.origin x m = .ok (some (.run listener)) n ∧ n.isPaused e.origin = true ∧
    InFlight listener e n
  := by
  obtain ⟨j, hj⟩ := (yields_handleExit_told h hf hc he hl hr hs).eq_ok
  have hp := h.path_run (o := .exit e.origin x) trivial
  rw [Operation.run, after, hj] at hp
  refine ⟨_, hj, ?_, ?_⟩
  · rw [isPaused, vcpu?_withJournal, vcpu?_handed, vcpu?_suspended_origin,
      vcpu?_trapped_self hc]
    rfl
  · constructor
    · apply hp.agrees h
    · apply Guarantees.withJournal
      apply Guarantees.handed
      apply (hf.trapped e.origin x).suspended
    · rw [hp.isRegistered, hr]
    · rw [hp.isRegistered, isRegistered_iff_vcpu?]
      exact ⟨c, hc⟩
    · rw [slot_withJournal, slot_handed, if_pos rfl]
      · rw [isRegistered_suspended, isRegistered_trapped, hr]
      · rw [slot_suspended, slot_trapped, hs]

/-- The event of a trap is queued for the first listener of its reason, and the processor
that exited is stopped.  Whatever else happens, the event stays with the listener until it
answers: each of its questions is answered with the event, and when it ends the exit and has
handled the event, the processor that exited is loaded and goes on. -/
theorem in_flight_until_answered {x : HardwareExit} {c : VCpu} {rest : List Vpid}
    (h : m.Agrees) (hf : m.Flawless) (hc : m.vcpu? origin = some c)
    (he : x.event? origin c = some e)
    (hl : (m.listeners origin e.reason).members = listener :: rest)
    (hr : m.isRegistered listener = true) (hs : m.slot listener = []) :
  ∃ m₁, handleExit origin x m = .ok (some (.run listener)) m₁ ∧
    m₁.isPaused origin = true ∧
    ∀ m₂, Run (Undisturbed listener origin) m₁ m₂ →
      m₂.slot listener = [e] ∧
      ∃ c₂, m₂.vcpu? listener = some c₂ ∧
        (m₂.call? listener = some .nextExit →
          ∃ m₃ c₃, handleHypercall listener m₂ = .ok (some (.run listener)) m₃ ∧
            m₃.vcpu? listener = some c₃ ∧
            c₃.regs = { c₂.regs with
              rax := Status.success.code, r10 := origin, r11 := e.reason.code, r12 := e.data0,
              r13 := e.data1 } ∧
            c₃.vmcs =
              c₂.vmcs.write Field.rip (c₂.vmcs.read Field.rip + VcpuM.instructionLength)) ∧
        (m₂.call? listener = some .endOfExit → EndOfExit.handled c₂.regs.r11 = true →
          ∃ m₃, handleHypercall listener m₂ = .ok (some (.run origin)) m₃ ∧
            m₃.slot listener = [] ∧ m₃.isPaused origin = false ∧
            m₃.loaded = some origin ∧ m₃.current = some origin)
  := by
  obtain rfl := HardwareExit.origin_of_event? he
  obtain ⟨m₁, hm₁, hp, hi⟩ := inFlight_of_event? h hf hc he hl hr hs
  refine ⟨m₁, hm₁, hp, ?_⟩
  intro m₂ hrun
  have hi₂ := hi.runs hrun
  obtain ⟨c₂, hc₂⟩ := isRegistered_iff_vcpu?.mp hi₂.registered
  refine ⟨hi₂.slot, c₂, hc₂, ?_, ?_⟩
  · intro hcall
    apply hi₂.nextExit hc₂ hcall
  · intro hcall hh
    apply hi₂.endOfExit hc₂ hcall hh

/-- A processor moves to CR3 and is stopped, and the one that listens for it has handled the
event when it ends the exit. -/
theorem in_flight_until_handled :
  let m₀ : Machine := {}
  let m₁ : Machine := { m₀ with
    residents := m₀.residents.insert 1
      ⟨{ regs := { rax := 5 } }, { registry := { cr3Load := { members := [2] } } }⟩ }
  let m : Machine := { m₁ with residents := m₁.residents.insert 2 ⟨{}, {}⟩ }
  let trapped := after (handleExit 1 { reason := .crAccess, qualification := 3 }) m
  let asking := (Operation.guest 2 { rax := 0x60001, r11 := 1 } {}).run trapped
  trapped.isPaused 1 = true ∧ asking.slot 2 = [⟨1, .cr3Load, 5, 0⟩] ∧
    ∃ n, handleHypercall 2 asking = .ok (some (.run 1)) n ∧ n.isPaused 1 = false
  := by
  intro m₀ m₁ m trapped asking
  have hf₀ : m₀.Flawless := guarantees_of_residents rfl
  have hf₁ : m₁.Flawless := hf₀.insert 1 rfl
  have hf : m.Flawless := hf₁.insert 2 rfl
  have hm : m.Agrees := by
    intro v hv
    exact absurd hv (Option.some_ne_none v).symm
  have hl : (m.listeners 1 .cr3Load).members = [2] := rfl
  obtain ⟨n, hn, hp, h⟩ := in_flight_until_answered (e := ⟨1, .cr3Load, 5, 0⟩)
    (x := { reason := .crAccess, qualification := 3 }) (c := { regs := { rax := 5 } })
    hm hf rfl rfl hl rfl rfl
  have htrapped : trapped = n := by
    change after (handleExit 1 _) m = n
    rw [after, hn]
  rw [← htrapped] at hp h
  have hrun : Run (Undisturbed 2 1) trapped asking :=
    (Run.refl trapped).tail (o := .guest 2 { rax := 0x60001, r11 := 1 } {}) trivial
  obtain ⟨hs, c, hc, -, hend⟩ := h asking hrun
  have hcall : asking.call? 2 = some .endOfExit := by
    decide +kernel
  have hhandled : EndOfExit.handled c.regs.r11 = true := by
    change (trapped.mapVCpu 2 _).vcpu? 2 = some c at hc
    rw [vcpu?_mapVCpu_self, Option.map_eq_some_iff] at hc
    obtain ⟨c', -, rfl⟩ := hc
    change EndOfExit.handled 1 = true
    decide
  obtain ⟨k, hk, -, hp', -⟩ := hend hcall hhandled
  exact ⟨hp, hs, k, hk, hp'⟩

end Machine

end ExitRelay
