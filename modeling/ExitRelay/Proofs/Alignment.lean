import ExitRelay.Proofs.Membership
import ExitRelay.Proofs.Registration

/-!
# Reads, writes and fetches have the same listeners

The accesses that the extended page tables do not allow come from one control and have a
listener set each: for reads, for writes and for fetches.  A request to subscribe or to
unsubscribe changes all three sets or none of them, even where one of the sets refuses a
listener that others have taken already, so that the three lists stay equal, whatever
happens and whatever fails.  Events are offered along the lists, so that the three kinds of
access are offered to the same listeners in the same order.
-/

namespace ExitRelay

namespace ListenerSet

variable {s t : ListenerSet} {i : Nat}

/-- The listener that an event is offered to after so many of them have declined it, and the
set with the cursor on it. -/
def offer (s : ListenerSet) : Nat → Option Vpid × ListenerSet
  | 0 => s.first
  | i + 1 => (s.offer i).2.advance

theorem offer_empty (i : Nat) :
  ({} : ListenerSet).offer i = (none, {})
  := by
  induction i with
  | zero => rfl
  | succ i ih =>
      rw [offer, ih]
      rfl

/-- Offers begin at the first listener, wherever the cursor has been. -/
theorem first_congr (h : s.members = t.members) :
  s.first = t.first
  := by
  have hr : s.rewind = t.rewind := by
    rw [rewind, rewind, h]
  rw [first, first, hr]

/-- Whom an event is offered to in turn depends on who listens in which order only. -/
theorem offer_congr (h : s.members = t.members) (i : Nat) :
  s.offer i = t.offer i
  := by
  induction i with
  | zero => exact first_congr h
  | succ i ih => rw [offer, offer, ih]

theorem snd_offer (h : i < s.members.length) :
  (s.offer i).2 = { s with cursor := some i }
  := by
  induction i with
  | zero =>
      have hne : s.members.isEmpty = false := by
        rw [List.isEmpty_eq_false_iff]
        exact List.ne_nil_of_length_pos h
      rw [offer, first, rewind, hne]
      rfl
  | succ i ih =>
      rw [offer, ih (Nat.lt_of_succ_lt h), advance, following, List.getElem?_eq_getElem h]

/-- An event is offered along the list, and to nobody at its end. -/
theorem fst_offer (h : i ≤ s.members.length) :
  (s.offer i).1 = s.members[i]?
  := by
  cases i with
  | zero => rw [offer, fst_first, List.head?_eq_getElem?]
  | succ i => rw [offer, snd_offer h, fst_advance, following]

end ListenerSet

namespace Registry

/-- The listener that an event is offered to after so many of them have declined it, and the
registry with the cursor on it. -/
def offer (r : Registry) (reason : ExitReason) : Nat → Option Vpid × Registry
  | 0 => r.first reason
  | i + 1 => (r.offer reason i).2.next reason

/-- Offering an event for a reason reaches only the set of the reason. -/
theorem offer_eq (r : Registry) (reason : ExitReason) (i : Nat) :
  (r.offer reason i).1 = ((r.get reason).offer i).1 ∧
    (r.offer reason i).2.get reason = ((r.get reason).offer i).2
  := by
  induction i with
  | zero => exact ⟨rfl, get_set_self ..⟩
  | succ i ih =>
      rw [offer, next, ListenerSet.offer, ih.2]
      exact ⟨rfl, get_set_self ..⟩

end Registry

/-- The control of the extended page tables covers the accesses that they do not allow. -/
theorem Control.covers_eptViolation (reason : ExitReason) :
  Control.eptViolation.covers reason = reason.isEptViolation
  := by
  cases reason <;> rfl

namespace Registry

/-- All reasons that a subscription covers have the listeners of the reason that it is for. -/
def Aligned (r : Registry) : Prop :=
  ∀ reason, ∀ a ∈ reason.subscription, (r.get a).members = (r.get reason).members

namespace Aligned

variable {r s : Registry}

/-- Whatever changes no list keeps the lists equal. -/
theorem congr (h : r.Aligned) (hs : ∀ b, (s.get b).members = (r.get b).members) :
  s.Aligned
  := by
  intro reason a ha
  rw [hs a, hs reason, h reason a ha]

/-- The lists of accesses that the extended page tables do not allow are equal. -/
theorem members_eq (h : r.Aligned) {a b : ExitReason} (ha : a.isEptViolation = true)
    (hb : b.isEptViolation = true) :
  (r.get a).members = (r.get b).members
  := by
  have hread : ∀ {a}, a.isEptViolation = true →
      (r.get a).members = (r.get .eptRead).members := by
    intro a ha
    apply h .eptRead
    rw [← Control.covers_eptViolation, Control.covers_iff] at ha
    exact ha
  rw [hread ha, hread hb]

/-- A listener is entered into all the lists of a control or into none. -/
theorem subscribe (h : r.Aligned) (c : Control) (v : Vpid) :
  (r.subscribe c.exit v).2.Aligned
  := by
  by_cases ho : r.Open c.exit v
  · intro reason a ha
    have hc := c.mem_subscription_congr ha
    by_cases hr : reason ∈ c.exit.subscription
    · rw [members_subscribe ho (hc.mpr hr), members_subscribe ho hr, h reason a ha]
    · rw [get_subscribe_of_notMem (mt hc.mp hr), get_subscribe_of_notMem hr, h reason a ha]
  · exact h.congr (members_subscribe_of_not_open ho)

/-- A listener is taken out of all the lists of a control or out of none. -/
theorem unsubscribe (h : r.Aligned) (c : Control) (v : Vpid) :
  (r.unsubscribe c.exit v).2.Aligned
  := by
  by_cases hv : v ∈ (r.get c.exit).members
  · intro reason a ha
    have hc := c.mem_subscription_congr ha
    by_cases hr : reason ∈ c.exit.subscription
    · rw [members_unsubscribe hv (hc.mpr hr), members_unsubscribe hv hr, h reason a ha]
    · rw [get_unsubscribe_of_notMem (mt hc.mp hr), get_unsubscribe_of_notMem hr, h reason a ha]
  · rw [unsubscribe_of_notMem hv]
    exact h

end Aligned

end Registry

/-- Requests keep the lists of a control equal, and nothing else changes a list. -/
theorem Broker.lasting_aligned :
  Broker.Lasting fun b => b.registry.Aligned
  := by
  constructor
  · intro reason a _
    cases a <;> cases reason <;> rfl
  · intro b k _ h
    cases k with
    | first reason => exact h.congr (Registry.members_first b.registry reason)
    | next reason => exact h.congr (Registry.members_next b.registry reason)
    | subscribe c l => exact h.subscribe c l
    | unsubscribe c l => exact h.unsubscribe c l
    | _ => exact h

namespace Machine

variable {m m₀ n : Machine} {caller target : Vpid} {control : Control}

/-! ### Requests that are granted -/

/-- Whoever has subscribed to a control listens for all that it covers. -/
theorem ends_subscribe_listeners (caller target : Vpid) (control : Control) :
  Ends (subscribe caller target control) m
    (fun _ n => ∀ a ∈ control.exit.subscription, caller ∈ (n.listeners target a).members)
    fun _ _ => True
  := by
  rw [subscribe]
  apply Ends.bind_last
  intro _ m
  apply Ends.bind_last
  intro _ m
  apply Ends.bind (Q := fun refused n => refused = none → ∀ a ∈ control.exit.subscription,
    caller ∈ (n.listeners target a).members)
  · apply Ends.adaptExcept
    apply (ends_onBroker (Set.subset_univ _) target _).imp
    rintro _ n ⟨b, hb, rfl, rfl⟩ hnone a ha
    rw [Registry.fst_subscribe_eq_none_iff] at hnone
    rw [listeners_mapBroker_self hb, Registry.members_subscribe hnone ha]
    exact List.mem_append_right _ (List.mem_singleton_self caller)
  · intro refused n hn
    cases refused with
    | none => exact Ends.pure (hn rfl)
    | some reason => exact Ends.bind_last fun _ _ => Ends.error rfl trivial

/-- Whoever has unsubscribed from a control listens for nothing that it covers. -/
theorem ends_unsubscribe_listeners (h : m.Agrees)
    (hd : m.EveryBroker fun b => b.registry.Distinct) (caller target : Vpid)
    (control : Control) :
  Ends (unsubscribe caller target control) m
    (fun _ n => ∀ a ∈ control.exit.subscription, caller ∉ (n.listeners target a).members)
    fun _ _ => True
  := by
  have hp := Set.subset_univ Effect.routine
  rw [unsubscribe]
  apply Ends.bind (Q := fun _ => Path Set.univ m)
  · apply Ends.adaptExcept
    apply Ends.forget
    apply walks_withVmcs hp h.trusts
    intro n hn
    apply remains_disable hp hn
  · intro _ n₁ h₁
    apply Ends.bind (Q := fun _ => Path Set.univ m)
    · apply Ends.adaptExcept
      apply Ends.imp (remains_note hp _).walks
      intro _ _ hn
      exact h₁.trans hn
    · intro _ n₂ h₂
      apply Ends.bind (Q := fun _ => Path Set.univ m)
      · apply Ends.adaptExcept
        apply Ends.imp (walks_settlePending hp (h₂.agrees h).trusts caller target control
          (settleable trivial (Set.subset_univ _)))
        intro _ n hn
        exact h₂.trans hn
      · intro _ n₃ h₃
        have hd₃ := hd.path Broker.lasting_distinct h₃
        apply Ends.bind (Q := fun refused n => refused = none →
          ∀ a ∈ control.exit.subscription, caller ∉ (n.listeners target a).members)
        · apply Ends.adaptExcept
          apply (ends_onBroker hp target _).imp
          rintro _ n ⟨b, hb, rfl, rfl⟩ hnone a ha
          rw [Registry.fst_unsubscribe_eq_none_iff] at hnone
          rw [listeners_mapBroker_self hb, Registry.members_unsubscribe hnone ha]
          apply (hd₃ target b hb a).not_mem_erase
        · intro refused n hn
          cases refused with
          | none => exact Ends.pure (hn rfl)
          | some reason => exact Ends.bind_last fun _ _ => Ends.error rfl trivial

/-- Whoever switches a control listens afterwards for all that it covers, or for nothing. -/
theorem ends_switchControl_listeners (h : m.Agrees)
    (hd : m.EveryBroker fun b => b.registry.Distinct) {mask value : UInt64}
    (hbit : Word.bit mask control.position = true) :
  Ends (switchControl caller target mask value control) m
    (fun _ n => ∀ a ∈ control.exit.subscription,
      (caller ∈ (n.listeners target a).members ↔ Word.bit value control.position = true))
    fun _ _ => True
  := by
  rw [switchControl, if_pos hbit]
  split
  · rename_i hon
    apply (ends_subscribe_listeners caller target control).imp
    intro _ n hn a ha
    exact iff_of_true (hn a ha) hon
  · rename_i hoff
    apply (ends_unsubscribe_listeners h hd caller target control).imp
    intro _ n hn a ha
    exact iff_of_false (hn a ha) hoff

/-- Whoever switches the control of the extended page tables listens afterwards for all the
accesses that they do not allow, or for none. -/
theorem ends_setControls_listeners {c : VCpu} (h : m.Agrees)
    (hd : m.EveryBroker fun b => b.registry.Distinct) (target : Vpid)
    (hc : m.vcpu? caller = some c)
    (hbit : Word.bit c.regs.r14 Control.eptViolation.position = true) :
  Ends (setControls caller target .secondary) m
    (fun _ n => ∀ a ∈ Control.eptViolation.exit.subscription,
      (caller ∈ (n.listeners target a).members ↔
        Word.bit c.regs.r13 Control.eptViolation.position = true))
    fun _ _ => True
  := by
  have hp := Set.subset_univ Effect.routine
  have hregs : (registers caller).adaptExcept Status.ofSysError m = .ok c.regs m := by
    rw [EStateM.adaptExcept, registers_eq hc]
  rw [setControls_eq]
  apply Ends.bind_ok hregs
  simp only
  split
  · apply Ends.bind (Q := fun _ => Path Set.univ m)
    · apply Ends.adaptExcept
      apply Ends.forget
      apply walks_withVmcs hp h.trusts
      intro l hl
      apply remains_vmread hp hl
    · intro old n hn
      have hswitch : Ends
          (switchControls caller target c.regs.r14 c.regs.r13 ControlField.secondary.controls) n
          (fun _ l => ∀ a ∈ Control.eptViolation.exit.subscription,
            (caller ∈ (l.listeners target a).members ↔
              Word.bit c.regs.r13 Control.eptViolation.position = true)) fun _ _ => True := by
        apply (ends_switchControl_listeners (hn.agrees h) (hd.path Broker.lasting_distinct hn)
          hbit).bind
        intro _ _ hl
        exact Ends.pure hl
      apply hswitch.bind
      intro _ _ hl
      exact Ends.pure hl
  · exact Ends.bind_last fun _ _ => Ends.error rfl trivial

/-! ### Runs -/

/-- The listener that an event of the processor is offered to after so many of them have
declined it. -/
def offered? (m : Machine) (v : Vpid) (reason : ExitReason) (i : Nat) : Option Vpid :=
  (m.broker? v).bind fun b => (b.registry.offer reason i).1

theorem offered?_eq (m : Machine) (v : Vpid) (reason : ExitReason) (i : Nat) :
  m.offered? v reason i = ((m.listeners v reason).offer i).1
  := by
  cases hb : m.broker? v with
  | none =>
      rw [offered?, listeners, hb]
      change none = (ListenerSet.offer {} i).1
      rw [ListenerSet.offer_empty]
  | some b => rw [offered?, hb, Option.bind_some, (b.registry.offer_eq reason i).1,
      listeners_of_broker? hb]

/-- In every state that a run comes to, the accesses have equal lists. -/
theorem Run.members_eq {allowed : Machine → Operation → Prop} (h : Run allowed m₀ m)
    (h₀ : m₀.IsNew) (v : Vpid) {a b : ExitReason} (ha : a.isEptViolation = true)
    (hb : b.isEptViolation = true) :
  (m.listeners v a).members = (m.listeners v b).members
  := by
  cases hv : m.broker? v with
  | none =>
      rw [listeners, listeners, hv]
      rfl
  | some l =>
      rw [listeners_of_broker? hv, listeners_of_broker? hv]
      apply (h.everyBroker Broker.lasting_aligned h₀ v l hv).members_eq ha hb

/-- Wherever a run leads, reads, writes and fetches that the extended page tables of a
processor do not allow have the same listeners in the same order.  They are offered to the
same listeners in turn, along these lists, and whoever switches the control of these exits
listens for all three of them afterwards, or for none. -/
theorem accesses_aligned {allowed : Machine → Operation → Prop} (h : Run allowed m₀ m)
    (h₀ : m₀.IsNew) (v : Vpid) {a b : ExitReason} (ha : a.isEptViolation = true)
    (hb : b.isEptViolation = true) :
  (m.listeners v a).members = (m.listeners v b).members ∧
    (∀ i, m.offered? v a i = m.offered? v b i) ∧
    (∀ i ≤ (m.listeners v a).members.length,
      m.offered? v a i = (m.listeners v a).members[i]?) ∧
    ∀ caller c old n, m.vcpu? caller = some c →
      Word.bit c.regs.r14 Control.eptViolation.position = true →
      setControls caller v .secondary m = .ok old n →
      (caller ∈ (n.listeners v a).members ↔
        Word.bit c.regs.r13 Control.eptViolation.position = true)
  := by
  have hm := h.members_eq h₀ v ha hb
  refine ⟨hm, ?_, ?_, ?_⟩
  · intro i
    rw [offered?_eq, offered?_eq, ListenerSet.offer_congr hm]
  · intro i hi
    rw [offered?_eq, ListenerSet.fst_offer hi]
  · intro caller c old n hc hbit hn
    have hends := ends_setControls_listeners (h.agrees h₀.agrees)
      (h.everyBroker Broker.lasting_distinct h₀) v hc hbit
    rw [Ends, hn] at hends
    apply hends a
    rw [← Control.covers_iff, Control.covers_eptViolation, ha]

/-- Two listeners subscribe through the control and the first of them leaves again; all that
is computed is the list of the reads. -/
theorem accesses_aligned_of_leaving :
  let regs : Registers := {
    rax := 0x60003, r11 := 1, r12 := 0x401e, r13 := 0x40000, r14 := 0x40000 }
  let listener : VCpu := { parent := some 1, regs }
  let registered := (Operation.add 3 listener).run
    ((Operation.add 2 listener).run ((Operation.add 1 {}).run {}))
  let both := (Operation.hypercall 3).run ((Operation.hypercall 2).run registered)
  let leaving := (Operation.guest 2 { regs with r13 := 0 } {}).run both
  (leaving.listeners 1 .eptExecute).members = [2, 3] ∧
    leaving.offered? 1 .eptWrite 1 = some 3 ∧
    ∃ old n, setControls 2 1 .secondary leaving = .ok old n ∧
      2 ∉ (n.listeners 1 .eptExecute).members
  := by
  intro regs listener registered both leaving
  have hr : Run (fun _ _ => True) {} leaving := by
    apply Run.tail _ trivial
    apply Run.tail _ trivial
    apply Run.tail _ trivial
    apply Run.tail _ trivial
    apply Run.tail _ trivial
    apply Run.tail _ trivial
    apply Run.refl
  have hread : (leaving.listeners 1 .eptRead).members = [2, 3] := by decide +kernel
  obtain ⟨hexecute, -, -, hleave⟩ :=
    accesses_aligned hr ⟨rfl, rfl⟩ 1 (a := .eptExecute) (b := .eptRead) rfl rfl
  obtain ⟨-, hoffer, halong, -⟩ :=
    accesses_aligned hr ⟨rfl, rfl⟩ 1 (a := .eptRead) (b := .eptWrite) rfl rfl
  refine ⟨hexecute.trans hread, ?_, ?_⟩
  · rw [← hoffer, halong, hread]
    · rfl
    · rw [hread]
      decide
  · have hregs : (leaving.vcpu? 2).map (·.regs) = some { regs with r13 := 0 } := by
      decide +kernel
    obtain ⟨c, hc, hregs⟩ := Option.map_eq_some_iff.mp hregs
    have hok : (match setControls 2 1 .secondary leaving with
        | .ok _ _ => true
        | .error _ _ => false) = true := by
      decide +kernel
    split at hok
    · rename_i old n hn
      refine ⟨old, n, hn, ?_⟩
      rw [hleave 2 c old n hc (by rw [hregs]; decide) hn, hregs]
      decide
    · exact absurd hok Bool.false_ne_true

end Machine

end ExitRelay
