import ExitRelay.Proofs.Execution.Delivery
import Mathlib.Data.List.Induction

/-!
# Declining an event

An event that every listener declines is offered to each of them once, in the order in which
they subscribed, and is then given up: its origin goes on without the control that caused the
exit.  `Offered` describes the machine while one of the listeners holds the event, and
`GivenUp` the machine afterwards.
-/

namespace ExitRelay

namespace VCpu

/-! ### Processors after an exit has been given up -/

variable {reason : ExitReason} {control : Control}

theorem givenUp_withPaused (b : Bool) (c : VCpu) :
  (c.withPaused b).givenUp reason = (c.givenUp reason).withPaused b
  := by
  rw [givenUp, givenUp]
  split
  · rfl
  · rename_i control _
    cases control <;> rfl

/-- The control that caused the exit is switched off, and the other bits of its field are
left as they are. -/
theorem read_givenUp_control (h : control.covers reason = true) (c : VCpu) :
  (c.givenUp reason).vmcs.read control.field.encoding =
    c.vmcs.read control.field.encoding &&& ~~~control.mask
  := by
  rw [givenUp, Control.ofReason?_eq_some_iff.mpr h]
  simp only
  rw [read_switched_self, if_neg Bool.false_ne_true, read_fellBack control.field.encoding_ne_rip]

/-- The processor goes on behind the instruction that exited if the fallback of the control
says so, and repeats the instruction otherwise. -/
theorem read_givenUp_rip (h : control.covers reason = true) (c : VCpu) :
  (c.givenUp reason).vmcs.read Field.rip =
    if control.fallback = .advance then c.vmcs.read Field.rip + VcpuM.instructionLength
    else c.vmcs.read Field.rip
  := by
  rw [givenUp, Control.ofReason?_eq_some_iff.mpr h]
  simp only
  rw [read_switched control.field.encoding_ne_rip.symm, read_fellBack_rip]

end VCpu

namespace Machine

/-- The processors that listen for an event are registered, are not its origin, and hold no
event. -/
structure Audience (m : Machine) (e : ExitEvent) (ls : List Vpid) : Prop where
  members : (m.listeners e.origin e.reason).members = ls
  registered : ∀ l ∈ ls, m.isRegistered l = true
  ne_origin : ∀ l ∈ ls, l ≠ e.origin
  slot : ∀ l ∈ ls, m.slot l = []

/-- The `k`-th listener holds the event, which came to the machine `m`, and its origin is
stopped. -/
structure Offered (m : Machine) (e : ExitEvent) (k : Nat) (l : Vpid) (n : Machine) : Prop where
  /-- The event is pending for the listener and for nobody else. -/
  slot : ∀ w, n.slot w = if w = l then [e] else m.slot w
  /-- The origin is stopped and otherwise as it was. -/
  origin : n.vcpu? e.origin = (m.vcpu? e.origin).map (VCpu.withPaused true)
  listeners : n.listeners e.origin e.reason =
    { members := (m.listeners e.origin e.reason).members, cursor := some k }
  registered : ∀ w, n.isRegistered w = m.isRegistered w
  flawless : n.Flawless

/-- Nobody has handled the event, which came to the machine `m`, and its origin goes on. -/
structure GivenUp (m : Machine) (e : ExitEvent) (n : Machine) : Prop where
  /-- The event is pending for nobody. -/
  slot : ∀ w, n.slot w = m.slot w
  origin : n.vcpu? e.origin =
    (m.vcpu? e.origin).map (VCpu.withPaused false ∘ VCpu.givenUp e.reason)
  /-- The cursor is back on the first listener. -/
  listeners : n.listeners e.origin e.reason = (m.listeners e.origin e.reason).rewind
  loaded : n.loaded = some e.origin
  current : n.current = some e.origin

/-- A listener puts its answer into its registers and ends the exit. -/
def answering (answer : Vpid → Registers) (l : Vpid) : SysM Transfer := do
  modifyRegisters l fun _ => answer l
  endOfExit l

/-- The machine after listeners have answered in turn. -/
def answeredBy (answer : Vpid → Registers) (ls : List Vpid) (m : Machine) : Machine :=
  ls.foldl (fun m l => after (answering answer l) m) m

variable {m n : Machine} {e : ExitEvent} {k : Nat} {l l' : Vpid} {ls : List Vpid}
  {answer : Vpid → Registers}

/-- A processor whose exits somebody listens for is registered. -/
theorem Audience.isRegistered_origin (h : Audience m e (l :: ls)) :
  m.isRegistered e.origin = true
  := by
  have hl : l ∈ (m.listeners e.origin e.reason).members := by
    rw [h.members]
    exact List.mem_cons_self
  obtain ⟨b, hb, -⟩ := exists_broker_of_listener hl
  rw [isRegistered_iff_broker?]
  exact ⟨b, hb⟩

/-! ### A single answer -/

theorem Offered.withJournal (h : Offered m e k l n) (j : Journal) :
  Offered m e k l (n.withJournal j)
  := ⟨h.slot, h.origin, h.listeners, h.registered, h.flawless⟩

theorem GivenUp.withJournal (h : GivenUp m e n) (j : Journal) :
  GivenUp m e (n.withJournal j)
  := ⟨h.slot, h.origin, h.listeners, h.loaded, h.current⟩

/-- The machine in which a listener has declined and the event is not passed on yet. -/
def declinedBy (answer : Vpid → Registers) (l : Vpid) (n : Machine) : Machine :=
  (n.mapVCpu l (VCpu.assigned fun _ => answer l)).answered l

namespace Offered

theorem slot_declinedBy (h : Offered m e k l n) (hl : m.slot l = []) (w : Vpid) :
  (declinedBy answer l n).slot w = m.slot w
  := by
  have hs : (n.mapVCpu l (VCpu.assigned fun _ => answer l)).slot l = [e] := by
    rw [slot_mapVCpu, h.slot l, if_pos rfl]
  rw [declinedBy, slot_answered hs]
  split
  · subst w
    exact hl.symm
  · rename_i hw
    rw [slot_mapVCpu, h.slot w, if_neg hw]

theorem origin_declinedBy (h : Offered m e k l n) (hne : l ≠ e.origin) :
  (declinedBy answer l n).vcpu? e.origin = (m.vcpu? e.origin).map (VCpu.withPaused true)
  := by
  rw [declinedBy, vcpu?_answered_of_ne hne.symm, vcpu?_mapVCpu_of_ne _ hne.symm, h.origin]

theorem listeners_declinedBy (h : Offered m e k l n) :
  (declinedBy answer l n).listeners e.origin e.reason =
    { members := (m.listeners e.origin e.reason).members, cursor := some k }
  := by
  rw [declinedBy, listeners_answered, listeners_mapVCpu, h.listeners]

theorem isRegistered_declinedBy (h : Offered m e k l n) (w : Vpid) :
  (declinedBy answer l n).isRegistered w = m.isRegistered w
  := by
  rw [declinedBy, isRegistered_answered, isRegistered_mapVCpu, h.registered]

theorem flawless_declinedBy (h : Offered m e k l n) :
  (declinedBy answer l n).Flawless
  := by
  apply Guarantees.answered
  apply h.flawless.mapVCpu
  intro c
  rfl

/-- What a declining listener leads to is what becomes of the event when it is passed on. -/
theorem yields_answering {t : Transfer} {n' : Machine} (h : Offered m e k l n)
    (hl : m.isRegistered l = true) (ho : m.isRegistered e.origin = true)
    (hd : EndOfExit.handled (answer l).r11 = false)
    (hx : Yields (passOn e) (declinedBy answer l n) t n') :
  Yields (answering answer l) n t n'
  := by
  have hl' : n.isRegistered l = true := by
    rw [h.registered, hl]
  obtain ⟨c, hc⟩ := isRegistered_iff_vcpu?.mp hl'
  have hs : (n.mapVCpu l (VCpu.assigned fun _ => answer l)).slot l = [e] := by
    rw [slot_mapVCpu, h.slot l, if_pos rfl]
  rw [answering]
  apply (yields_modifyRegisters hc _).bind
  apply yields_endOfExit (vcpu?_mapVCpu_of_some hc _) hs
  · rw [isRegistered_mapVCpu, h.registered, ho]
  · change Yields (if EndOfExit.handled (answer l).r11 then _ else _) _ _ _
    rw [hd]
    exact hx

/-- A listener that declines and has a successor leaves the event to it. -/
theorem next (h : Offered m e k l n) (ha : Audience m e ls) (hl : l ∈ ls)
    (hn : ls[k + 1]? = some l') (ho : m.isRegistered e.origin = true)
    (hd : EndOfExit.handled (answer l).r11 = false) :
  ∃ n', answering answer l n = .ok (.run l') n' ∧ Offered m e (k + 1) l' n'
  := by
  have hl' : l' ∈ ls := List.mem_of_getElem? hn
  have hs : ∀ w, ((declinedBy answer l n).mapBroker e.origin
      (Broker.Effect.next e.reason).apply).slot w = m.slot w := by
    intro w
    rw [slot_mapBroker_of_pending, h.slot_declinedBy (ha.slot l hl)]
    intro b
    rfl
  have hadv : ((declinedBy answer l n).listeners e.origin e.reason).advance =
      (some l', { members := ls, cursor := some (k + 1) }) := by
    rw [h.listeners_declinedBy, ha.members, ListenerSet.advance, ListenerSet.following]
    simp only [hn]
  have ho' : (declinedBy answer l n).isRegistered e.origin = true := by
    rw [h.isRegistered_declinedBy, ho]
  have hr' : (declinedBy answer l n).isRegistered l' = true := by
    rw [h.isRegistered_declinedBy, ha.registered l' hl']
  have hp : Yields (passOn e) (declinedBy answer l n) (.run l')
      (((declinedBy answer l n).mapBroker e.origin
        (Broker.Effect.next e.reason).apply).handed l' e) := by
    apply yields_passOn _ ho' hr' _ h.flawless_declinedBy
    · rw [hadv]
    · rw [h.slot_declinedBy (ha.slot l hl), ha.slot l' hl']
  obtain ⟨j, hj⟩ := (h.yields_answering (ha.registered l hl) ho hd hp).eq_ok
  refine ⟨_, hj, withJournal ?_ j⟩
  constructor
  · intro w
    rw [slot_handed, hs]
    · rw [isRegistered_mapBroker, hr']
    · rw [hs, ha.slot l' hl']
  · rw [vcpu?_handed, vcpu?_mapBroker, h.origin_declinedBy (ha.ne_origin l hl)]
  · rw [listeners_handed, listeners_mapBroker_next ho', hadv, ha.members]
  · intro w
    rw [isRegistered_handed, isRegistered_mapBroker, h.isRegistered_declinedBy]
  · apply Guarantees.handed
    apply h.flawless_declinedBy.mapBroker

/-- When the last listener declines, the event is given up. -/
theorem last (h : Offered m e k l n) (ha : Audience m e ls) (hl : l ∈ ls)
    (hn : ls[k + 1]? = none) (ho : m.isRegistered e.origin = true)
    (hd : EndOfExit.handled (answer l).r11 = false) :
  ∃ n', answering answer l n = .ok (.run e.origin) n' ∧ GivenUp m e n'
  := by
  have hadv : ((declinedBy answer l n).listeners e.origin e.reason).advance =
      (none, (m.listeners e.origin e.reason).rewind) := by
    rw [h.listeners_declinedBy, ha.members, ListenerSet.advance, ListenerSet.following]
    simp only [hn]
    rw [ListenerSet.rewind, ListenerSet.rewind, ha.members]
  have ho' : (declinedBy answer l n).isRegistered e.origin = true := by
    rw [h.isRegistered_declinedBy, ho]
  have hnone : ∀ w, ((declinedBy answer l n).listeners e.origin e.reason).advance.1 = some w →
      (declinedBy answer l n).isRegistered w = false := by
    intro w hw
    rw [hadv] at hw
    exact absurd hw (Option.some_ne_none w).symm
  obtain ⟨j, hj⟩ := (h.yields_answering (ha.registered l hl) ho hd
    (yields_passOn_none hnone ho' h.flawless_declinedBy.dependable)).eq_ok
  refine ⟨_, hj, GivenUp.withJournal ?_ j⟩
  constructor
  · intro w
    rw [slot_fallenBack, slot_mapBroker_of_pending, h.slot_declinedBy (ha.slot l hl)]
    intro b
    rfl
  · rw [fallenBack, vcpu?_mapVCpu_self, vcpu?_switchTo, vcpu?_mapBroker,
      h.origin_declinedBy (ha.ne_origin l hl), Option.map_map]
    congr 1
    funext c
    simp only [Function.comp_apply, VCpu.givenUp_withPaused]
    rfl
  · rw [listeners_fallenBack, listeners_mapBroker_next ho', hadv]
  · rfl
  · rfl

end Offered

/-! ### The chain of answers -/

/-- The first listener is the first to be offered an event, and the origin is stopped. -/
theorem Audience.offered (ha : Audience m e (l :: ls)) (hf : m.Flawless) :
  Offered m e 0 l ((m.suspended e).handed l e)
  := by
  have hl : l ∈ l :: ls := List.mem_cons_self
  have ho := ha.isRegistered_origin
  constructor
  · intro w
    rw [slot_handed, slot_suspended]
    · rw [isRegistered_suspended, ha.registered l hl]
    · rw [slot_suspended, ha.slot l hl]
  · rw [vcpu?_handed, vcpu?_suspended_origin]
  · rw [listeners_handed, listeners_suspended_origin ho, ListenerSet.rewind, ha.members]
    rfl
  · intro w
    rw [isRegistered_handed, isRegistered_suspended]
  · apply Guarantees.handed
    apply hf.suspended

theorem notify_offered (hf : m.Flawless) (ha : Audience m e (l :: ls)) :
  ∃ n, notify e m = .ok (some (.run l)) n ∧ Offered m e 0 l n
  := by
  have hl : l ∈ l :: ls := List.mem_cons_self
  obtain ⟨j, hj⟩ := (yields_notify ha.members (ha.registered l hl) (ha.slot l hl) hf).eq_ok
  exact ⟨_, hj, (ha.offered hf).withJournal j⟩

theorem answeredBy_concat (pre : List Vpid) (l : Vpid) (m : Machine) :
  answeredBy answer (pre ++ [l]) m = after (answering answer l) (answeredBy answer pre m)
  := by
  rw [answeredBy, List.foldl_append]
  rfl

/-- A listener that holds the event and declines it leaves it to its successor. -/
theorem Offered.answeredBy_next {pre post : List Vpid} {m₁ : Machine}
    (h : Offered m e pre.length l (answeredBy answer pre m₁)) (ha : Audience m e ls)
    (hp : ls = pre ++ l :: l' :: post) (ho : m.isRegistered e.origin = true)
    (hd : ∀ l ∈ ls, EndOfExit.handled (answer l).r11 = false) :
  answering answer l (answeredBy answer pre m₁) =
      .ok (.run l') (answeredBy answer (pre ++ [l]) m₁) ∧
    Offered m e (pre.length + 1) l' (answeredBy answer (pre ++ [l]) m₁)
  := by
  have hl : l ∈ ls := by
    rw [hp]
    apply List.mem_append_right pre List.mem_cons_self
  have hn : ls[pre.length + 1]? = some l' := by
    rw [hp, List.getElem?_append_right (Nat.le_succ _)]
    simp
  obtain ⟨n', hx, hn'⟩ := h.next ha hl hn ho (hd l hl)
  have he : answeredBy answer (pre ++ [l]) m₁ = n' := by
    rw [answeredBy_concat, after, hx]
  rw [he]
  exact ⟨hx, hn'⟩

/-- When the last listener that holds the event declines it, the event is given up. -/
theorem Offered.answeredBy_last {pre : List Vpid} {m₁ : Machine}
    (h : Offered m e pre.length l (answeredBy answer pre m₁)) (ha : Audience m e ls)
    (hp : ls = pre ++ [l]) (ho : m.isRegistered e.origin = true)
    (hd : ∀ l ∈ ls, EndOfExit.handled (answer l).r11 = false) :
  answering answer l (answeredBy answer pre m₁) =
      .ok (.run e.origin) (answeredBy answer ls m₁) ∧
    GivenUp m e (answeredBy answer ls m₁)
  := by
  have hl : l ∈ ls := by
    rw [hp]
    apply List.mem_append_right pre List.mem_cons_self
  have hn : ls[pre.length + 1]? = none := by
    rw [hp]
    simp
  obtain ⟨n', hx, hn'⟩ := h.last ha hl hn ho (hd l hl)
  have he : answeredBy answer ls m₁ = n' := by
    rw [hp, answeredBy_concat, after, hx]
  rw [he]
  exact ⟨hx, hn'⟩

/-- After as many answers as there are listeners before it, a listener holds the event. -/
theorem offered_answeredBy {first : Vpid} {m₁ : Machine} (h : Offered m e 0 first m₁)
    (ha : Audience m e (first :: ls)) (ho : m.isRegistered e.origin = true)
    (hd : ∀ l ∈ first :: ls, EndOfExit.handled (answer l).r11 = false) (pre : List Vpid) :
  ∀ l post, first :: ls = pre ++ l :: post →
    Offered m e pre.length l (answeredBy answer pre m₁)
  := by
  induction pre using List.reverseRecOn with
  | nil =>
      intro l post hp
      obtain ⟨rfl, -⟩ := List.cons_eq_cons.mp hp
      exact h
  | append_singleton pre l' ih =>
      intro l post hp
      rw [List.append_assoc] at hp
      rw [List.length_append]
      apply ((ih l' (l :: post) hp).answeredBy_next ha hp ho hd).2

/-- The origin of an event that has been given up has moved on as the fallback of the control
says that covers the reason, and this control is switched off. -/
theorem GivenUp.vmcs {c : VCpu} (h : GivenUp m e n) (hc : m.vcpu? e.origin = some c) :
  ∃ c', n.vcpu? e.origin = some c' ∧ c'.paused = false ∧
    (∀ control : Control, control.covers e.reason = true →
      c'.vmcs.read control.field.encoding =
        c.vmcs.read control.field.encoding &&& ~~~control.mask ∧
      c'.vmcs.read Field.rip =
        if control.fallback = .advance then c.vmcs.read Field.rip + VcpuM.instructionLength
        else c.vmcs.read Field.rip) ∧
    ((∀ control : Control, control.covers e.reason = false) → c'.vmcs = c.vmcs)
  := by
  refine ⟨(c.givenUp e.reason).withPaused false, ?_, rfl, ?_, ?_⟩
  · rw [h.origin, hc, Option.map_some]
    rfl
  · intro control hcov
    exact ⟨VCpu.read_givenUp_control hcov c, VCpu.read_givenUp_rip hcov c⟩
  · intro hcov
    have hnone : Control.ofReason? e.reason = none := by
      rw [Option.eq_none_iff_forall_ne_some]
      intro control h
      rw [Control.ofReason?_eq_some_iff, hcov] at h
      exact Bool.false_ne_true h
    rw [VCpu.givenUp, hnone]
    rfl

/-- The listeners of an event are offered it one after the other, each of them once and in
the order in which they subscribed, as long as they decline it.  While one of them holds it
nobody else does, and the origin is stopped.  When the last one has declined, the origin goes
on: the control that covers the reason is switched off, the origin has moved behind the
instruction exactly if the fallback of the control says so, and the cursor is back on the
first listener. -/
theorem decline_chain {first : Vpid} (hf : m.Flawless) (ha : Audience m e (first :: ls))
    (hd : ∀ l ∈ first :: ls, EndOfExit.handled (answer l).r11 = false) :
  let m₁ := after (notify e) m
  let last := answeredBy answer (first :: ls) m₁
  (notify e m = .ok (some (.run first)) m₁ ∧ m₁.isPaused e.origin = true ∧
    Offered m e 0 first m₁) ∧
  (∀ pre l l' post, first :: ls = pre ++ l :: l' :: post →
    answering answer l (answeredBy answer pre m₁) =
      .ok (.run l') (answeredBy answer (pre ++ [l]) m₁) ∧
    Offered m e (pre.length + 1) l' (answeredBy answer (pre ++ [l]) m₁)) ∧
  (∀ pre l, first :: ls = pre ++ [l] →
    answering answer l (answeredBy answer pre m₁) = .ok (.run e.origin) last) ∧
  GivenUp m e last ∧ last.isPaused e.origin = false ∧
  ∃ c c', m.vcpu? e.origin = some c ∧ last.vcpu? e.origin = some c' ∧
    (∀ control : Control, control.covers e.reason = true →
      c'.vmcs.read control.field.encoding =
        c.vmcs.read control.field.encoding &&& ~~~control.mask ∧
      c'.vmcs.read Field.rip =
        if control.fallback = .advance then c.vmcs.read Field.rip + VcpuM.instructionLength
        else c.vmcs.read Field.rip) ∧
    ((∀ control : Control, control.covers e.reason = false) → c'.vmcs = c.vmcs)
  := by
  intro m₁ last
  have ho := ha.isRegistered_origin
  obtain ⟨c, hc⟩ := isRegistered_iff_vcpu?.mp ho
  obtain ⟨n, hx, hn⟩ := notify_offered hf ha
  have hm₁ : m₁ = n := by
    change after (notify e) m = n
    rw [after, hx]
  rw [← hm₁] at hx hn
  have hchain := offered_answeredBy hn ha ho hd
  obtain ⟨pre, l, hp⟩ : ∃ pre l, first :: ls = pre ++ [l] :=
    ⟨_, _, (List.dropLast_concat_getLast (List.cons_ne_nil first ls)).symm⟩
  have hend : GivenUp m e last := ((hchain pre l [] hp).answeredBy_last ha hp ho hd).2
  obtain ⟨c', hc', hrun, hcov, hnone⟩ := hend.vmcs hc
  refine ⟨⟨hx, ?_, hn⟩, ?_, ?_, hend, ?_, c, c', hc, hc', hcov, hnone⟩
  · rw [isPaused, hn.origin, hc]
    rfl
  · intro pre l l' post hp
    apply (hchain pre l _ hp).answeredBy_next ha hp ho hd
  · intro pre l hp
    apply ((hchain pre l [] hp).answeredBy_last ha hp ho hd).1
  · rw [isPaused_of_vcpu? hc', hrun]

/-- A processor that moves to CR3 and two others that listen for it and decline. -/
theorem decline_chain_of_two :
  let set : ListenerSet := { members := [2, 3], cursor := some 0 }
  let m₀ : Machine := {}
  let m₁ : Machine := { m₀ with
    residents := m₀.residents.insert 1 ⟨{}, { registry := { cr3Load := set } }⟩ }
  let m₂ : Machine := { m₁ with residents := m₁.residents.insert 2 ⟨{}, {}⟩ }
  let m : Machine := { m₂ with residents := m₂.residents.insert 3 ⟨{}, {}⟩ }
  let e : ExitEvent := { origin := 1, reason := .cr3Load, data0 := 5, data1 := 7 }
  let last := answeredBy (fun _ => {}) [2, 3] (after (notify e) m)
  GivenUp m e last ∧ last.isPaused 1 = false
  := by
  intro set m₀ m₁ m₂ m e last
  have hf₀ : m₀.Flawless := guarantees_of_residents rfl
  have hf₁ : m₁.Flawless := hf₀.insert 1 rfl
  have hf₂ : m₂.Flawless := hf₁.insert 2 rfl
  have hf : m.Flawless := hf₂.insert 3 rfl
  have ha : Audience m e [2, 3] := by
    constructor
    · decide
    · rw [List.forall_mem_cons, List.forall_mem_singleton]
      exact ⟨rfl, rfl⟩
    · rw [List.forall_mem_cons, List.forall_mem_singleton]
      decide
    · rw [List.forall_mem_cons, List.forall_mem_singleton]
      exact ⟨rfl, rfl⟩
  let answer : Vpid → Registers := fun _ => {}
  have hd : ∀ l ∈ ([2, 3] : List Vpid), EndOfExit.handled (answer l).r11 = false := by
    intro l _
    decide
  have h := decline_chain hf ha hd
  exact ⟨h.2.2.2.1, h.2.2.2.2.1⟩

end Machine

end ExitRelay
