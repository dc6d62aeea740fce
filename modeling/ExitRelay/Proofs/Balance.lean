import ExitRelay.Proofs.Execution.Delivery
import Mathlib.Algebra.Order.BigOperators.Group.Finset

/-!
# Balances

The books that are kept on events.  A processor that is stopped has one event, which is
pending for some listener, and a processor that runs has none.  While a program moves an
event, the event is owed: its origin is stopped already or still, and the event is pending
for nobody.  An event is owed for ever to a processor that was stopped when it was registered,
as the broker lets go on only whom it has stopped.  `Balanced` says that the books are right,
and the lemmas here say how stopping a processor, letting it go on, and queueing and taking
events change them.
-/

namespace ExitRelay

namespace Effect

/-- The effects that move no event and leave the scheduler alone. -/
def quiet : Set Effect
  | .vcpu _ .pause => False
  | .vcpu _ .resume => False
  | .broker _ (.queue _) => False
  | .broker _ .pop => False
  | _ => True

theorem plain_subset_quiet :
  plain ⊆ quiet
  := by
  intro k hk
  cases k with
  | vcpu v k =>
      cases k with
      | pause => exact hk
      | resume => exact hk
      | _ => trivial
  | broker v k =>
      cases k with
      | queue e => exact hk
      | pop => exact hk
      | _ => trivial
  | _ => trivial

theorem routine_subset_quiet :
  routine ⊆ quiet
  := routine_subset_plain.trans plain_subset_quiet

/-- The effects that queue no event. -/
def queueless : Set Effect
  | .broker _ (.queue _) => False
  | _ => True

theorem routine_subset_queueless :
  routine ⊆ queueless
  := by
  intro k hk
  cases k with
  | broker v k =>
      cases k with
      | queue e => exact hk
      | _ => trivial
  | _ => trivial

/-- The effects that stop no processor. -/
def withoutPause : Set Effect
  | .vcpu _ .pause => False
  | _ => True

theorem routine_subset_withoutPause :
  routine ⊆ withoutPause
  := by
  intro k hk
  cases k with
  | vcpu v k =>
      cases k with
      | pause => exact hk
      | _ => trivial
  | _ => trivial

theorem passing_subset_withoutPause (o : Vpid) :
  passing o ⊆ withoutPause
  := by
  intro k hk
  cases k with
  | vcpu v k =>
      cases k with
      | pause => exact hk
      | _ => trivial
  | _ => trivial

end Effect

namespace Machine

variable {m n : Machine} {v w l o : Vpid} {e : ExitEvent} {k : Effect}
  {owed : Multiset Vpid}

/-! ### Counting events -/

/-- The registered processors. -/
def registered (m : Machine) : Finset Vpid :=
  m.residents.keys.toFinset

/-- The number of events of a processor that are pending, for whichever listener. -/
def outstanding (m : Machine) (v : Vpid) : Nat :=
  ∑ w ∈ m.registered, (m.slot w).countP fun e => e.origin = v

theorem mem_registered :
  v ∈ m.registered ↔ m.isRegistered v = true
  := by
  rw [registered, List.mem_toFinset, Std.ExtTreeMap.mem_keys, Std.ExtTreeMap.mem_iff_contains]
  rfl

/-- Only a registered processor is stopped. -/
theorem isRegistered_of_isPaused (h : m.isPaused v = true) :
  m.isRegistered v = true
  := by
  rw [isRegistered_iff_vcpu?]
  cases hc : m.vcpu? v with
  | none =>
      rw [isPaused, hc] at h
      exact absurd h Bool.false_ne_true
  | some c => exact ⟨c, rfl⟩

/-- More processors than the registered ones may be counted, as nothing is pending for the
others. -/
theorem outstanding_eq_sum {s : Finset Vpid} (h : m.registered ⊆ s) (v : Vpid) :
  m.outstanding v = ∑ w ∈ s, (m.slot w).countP fun e => e.origin = v
  := by
  apply Finset.sum_subset h
  intro w _ hw
  rw [mem_registered, Bool.not_eq_true] at hw
  rw [slot_of_unregistered hw]
  rfl

/-- Events are counted alike in machines with the same slots. -/
theorem outstanding_congr (hs : ∀ w, n.slot w = m.slot w) (v : Vpid) :
  n.outstanding v = m.outstanding v
  := by
  rw [outstanding_eq_sum (s := n.registered ∪ m.registered) Finset.subset_union_left]
  rw [outstanding_eq_sum (m := m) Finset.subset_union_right]
  apply Finset.sum_congr rfl
  intro w _
  rw [hs]

/-- Where the slots of two machines differ for one listener only, so do the counts. -/
theorem outstanding_add_slot (hs : ∀ w, w ≠ l → n.slot w = m.slot w) (v : Vpid) :
  n.outstanding v + (m.slot l).countP (fun e => e.origin = v) =
    m.outstanding v + (n.slot l).countP fun e => e.origin = v
  := by
  have hl : l ∈ insert l (n.registered ∪ m.registered) := Finset.mem_insert_self l _
  rw [outstanding_eq_sum (m := n) (Finset.subset_union_left.trans (Finset.subset_insert l _)),
    outstanding_eq_sum (m := m) (Finset.subset_union_right.trans (Finset.subset_insert l _)),
    ← Finset.add_sum_erase _ _ hl, ← Finset.add_sum_erase _ _ hl]
  have hsum : ∑ w ∈ (insert l (n.registered ∪ m.registered)).erase l,
      (n.slot w).countP (fun e => e.origin = v) =
      ∑ w ∈ (insert l (n.registered ∪ m.registered)).erase l,
        (m.slot w).countP fun e => e.origin = v := by
    apply Finset.sum_congr rfl
    intro w hw
    rw [hs w (Finset.ne_of_mem_erase hw)]
  rw [hsum]
  omega

/-- An event that is queued counts for its origin. -/
theorem outstanding_of_concat (hs : ∀ w, w ≠ l → n.slot w = m.slot w)
    (hl : n.slot l = m.slot l ++ [e]) (v : Vpid) :
  n.outstanding v = m.outstanding v + if e.origin = v then 1 else 0
  := by
  have h := outstanding_add_slot hs v
  rw [hl, List.countP_append, List.countP_singleton] at h
  simp only [decide_eq_true_eq] at h
  omega

/-- An event that is taken counted for its origin. -/
theorem outstanding_of_cons (hs : ∀ w, w ≠ l → n.slot w = m.slot w)
    (hl : m.slot l = e :: n.slot l) (v : Vpid) :
  n.outstanding v + (if e.origin = v then 1 else 0) = m.outstanding v
  := by
  have h := outstanding_add_slot hs v
  rw [hl, List.countP_cons] at h
  simp only [decide_eq_true_eq] at h
  omega

theorem one_le_countP (h : e ∈ m.slot l) :
  1 ≤ (m.slot l).countP fun e' => e'.origin = e.origin
  := by
  apply List.countP_pos_iff.mpr
  exact ⟨e, h, decide_eq_true rfl⟩

/-- A processor to whom something is pending is registered. -/
theorem isRegistered_of_mem_slot (h : e ∈ m.slot l) :
  m.isRegistered l = true
  := by
  rw [← Bool.not_eq_false]
  intro hl
  rw [slot_of_unregistered hl] at h
  exact absurd h List.not_mem_nil

/-- An event that is pending is outstanding. -/
theorem one_le_outstanding (h : e ∈ m.slot l) :
  1 ≤ m.outstanding e.origin
  := by
  have hl := mem_registered.mpr (isRegistered_of_mem_slot h)
  apply (one_le_countP h).trans
  apply Finset.single_le_sum (f := fun w => (m.slot w).countP fun e' => e'.origin = e.origin)
    (fun _ _ => Nat.zero_le _) hl

/-- Events of one origin that are pending for two listeners are both outstanding. -/
theorem two_le_outstanding {e' : ExitEvent} {l' : Vpid} (h : e ∈ m.slot l)
    (h' : e' ∈ m.slot l') (he : e'.origin = e.origin) (hne : l ≠ l') :
  2 ≤ m.outstanding e.origin
  := by
  have hl := mem_registered.mpr (isRegistered_of_mem_slot h)
  have hl' := mem_registered.mpr (isRegistered_of_mem_slot h')
  have hc' := one_le_countP h'
  rw [he] at hc'
  apply (Nat.add_le_add (one_le_countP h) hc').trans
  apply Finset.add_le_sum (f := fun w => (m.slot w).countP fun e' => e'.origin = e.origin)
    (fun _ _ => Nat.zero_le _) hl hl' hne

/-! ### Right books -/

/-- One event of every stopped processor is pending and none of any other one, but for the
events that are owed. -/
def Balanced (owed : Multiset Vpid) (m : Machine) : Prop :=
  ∀ v, m.outstanding v + owed.count v = if m.isPaused v then 1 else 0

/-- The books are right, and the hardware is as reliable as keeping them takes. -/
structure Sound (owed : Multiset Vpid) (m : Machine) : Prop where
  agrees : m.Agrees
  dependable : m.Dependable
  balanced : m.Balanced owed

namespace Balanced

/-- An origin that an event is owed to is stopped. -/
theorem isPaused (h : m.Balanced (o ::ₘ owed)) :
  m.isPaused o = true
  := by
  have ho := h o
  rw [Multiset.count_cons_self] at ho
  split at ho
  · assumption
  · omega

theorem congr (h : m.Balanced owed) (hs : ∀ w, n.slot w = m.slot w)
    (hp : ∀ w, n.isPaused w = m.isPaused w) :
  n.Balanced owed
  := by
  intro v
  rw [outstanding_congr hs, hp]
  apply h v

/-- When a processor is stopped, its event is owed. -/
theorem pause (h : m.Balanced owed) (hs : ∀ w, n.slot w = m.slot w)
    (hp : ∀ w, n.isPaused w = if w = o then true else m.isPaused w)
    (ho : m.isPaused o = false) :
  n.Balanced (o ::ₘ owed)
  := by
  intro v
  have hv := h v
  rw [outstanding_congr hs, hp]
  by_cases hvo : v = o
  · subst v
    rw [ho, if_neg Bool.false_ne_true] at hv
    rw [Multiset.count_cons_self, ← Nat.add_assoc, hv, if_pos rfl, if_pos rfl]
  · rw [Multiset.count_cons_of_ne hvo, if_neg hvo]
    exact hv

/-- When a processor goes on whose event is owed, the event is settled. -/
theorem resume (h : m.Balanced (o ::ₘ owed)) (hs : ∀ w, n.slot w = m.slot w)
    (hp : ∀ w, n.isPaused w = if w = o then false else m.isPaused w) :
  n.Balanced owed
  := by
  intro v
  have hv := h v
  rw [outstanding_congr hs, hp]
  by_cases hvo : v = o
  · subst v
    rw [h.isPaused, if_pos rfl, Multiset.count_cons_self, ← Nat.add_assoc] at hv
    rw [if_pos rfl, if_neg Bool.false_ne_true]
    exact Nat.succ.inj hv
  · rw [Multiset.count_cons_of_ne hvo] at hv
    rw [if_neg hvo]
    exact hv

/-- An event that is owed may be queued. -/
theorem queue (h : m.Balanced (e.origin ::ₘ owed)) (hs : ∀ w, w ≠ l → n.slot w = m.slot w)
    (hl : n.slot l = m.slot l ++ [e]) (hp : ∀ w, n.isPaused w = m.isPaused w) :
  n.Balanced owed
  := by
  intro v
  rw [outstanding_of_concat hs hl, hp, ← h v, Multiset.count_cons, Nat.add_right_comm,
    Nat.add_assoc]
  simp only [eq_comm]

/-- An event that is taken from a listener is owed. -/
theorem pop (h : m.Balanced owed) (hs : ∀ w, w ≠ l → n.slot w = m.slot w)
    (hl : m.slot l = e :: n.slot l) (hp : ∀ w, n.isPaused w = m.isPaused w) :
  n.Balanced (e.origin ::ₘ owed)
  := by
  intro v
  rw [hp, ← h v, ← outstanding_of_cons hs hl, Multiset.count_cons, Nat.add_right_comm,
    Nat.add_assoc]
  simp only [eq_comm]

end Balanced

/-! ### Effects and the books -/

theorem slot_apply_of_quiet (hk : k ∈ Effect.quiet) (v : Vpid) :
  (k.apply m).slot v = m.slot v
  := by
  cases k with
  | record j => rfl
  | misdirect w => rfl
  | load w => rfl
  | vcpu w k => exact slot_mapVCpu _
  | broker w k =>
      cases k with
      | queue e => exact False.elim hk
      | pop => exact False.elim hk
      | _ => exact slot_mapBroker_of_pending fun _ => rfl

theorem isPaused_apply_of_quiet (hk : k ∈ Effect.quiet) (v : Vpid) :
  (k.apply m).isPaused v = m.isPaused v
  := by
  cases k with
  | record j => rfl
  | misdirect w => rfl
  | load w => rfl
  | broker w k => exact isPaused_mapBroker _
  | vcpu w k =>
      cases k with
      | pause => exact False.elim hk
      | resume => exact False.elim hk
      | _ => exact isPaused_mapVCpu_of_paused fun _ => rfl

theorem Path.slot (h : Path Effect.quiet m n) (v : Vpid) :
  n.slot v = m.slot v
  := by
  apply h.keeps (I := fun l => l.slot v = m.slot v) _ rfl
  intro k hk l _ hl
  rw [slot_apply_of_quiet hk, hl]

theorem Path.isPaused (h : Path Effect.quiet m n) (v : Vpid) :
  n.isPaused v = m.isPaused v
  := by
  apply h.keeps (I := fun l => l.isPaused v = m.isPaused v) _ rfl
  intro k hk l _ hl
  rw [isPaused_apply_of_quiet hk, hl]

/-- Where nobody is stopped, whoever is stopped at the end was stopped before. -/
theorem Path.isPaused_of_withoutPause (h : Path Effect.withoutPause m n)
    (hn : n.isPaused v = true) :
  m.isPaused v = true
  := by
  revert hn
  apply h.keeps (I := fun l => l.isPaused v = true → m.isPaused v = true) _ id
  intro k hk l _ hl hn
  apply hl
  cases k with
  | vcpu w k =>
      cases k with
      | pause => exact False.elim hk
      | resume =>
          change (l.mapVCpu w (VCpu.withPaused false)).isPaused v = true at hn
          by_cases hw : v = w
          · subst w
            rw [Machine.isPaused, vcpu?_mapVCpu_self, Option.any_map, Option.any_eq_true] at hn
            obtain ⟨c, -, hc⟩ := hn
            exact Bool.noConfusion hc
          · rwa [isPaused_mapVCpu_of_ne _ hw] at hn
      | _ =>
          rw [isPaused_apply_of_quiet] at hn
          · exact hn
          · trivial
  | broker w k => rwa [Effect.apply, isPaused_mapBroker] at hn
  | _ => exact hn

/-- Where no event is queued, slots lose events only. -/
theorem Path.slot_sublist (h : Path Effect.queueless m n) (v : Vpid) :
  (n.slot v).Sublist (m.slot v)
  := by
  apply h.keeps (I := fun l => (l.slot v).Sublist (m.slot v)) _ (List.Sublist.refl _)
  intro k hk l hp hl
  apply List.Sublist.trans _ hl
  cases k with
  | vcpu w k =>
      rw [Effect.apply, slot_mapVCpu]
  | broker w k =>
      obtain ⟨b, hb, -⟩ := hp
      by_cases hv : v = w
      · subst v
        rw [Effect.apply, slot_mapBroker_self hb, slot_of_broker? hb]
        cases k with
        | queue e => exact False.elim hk
        | pop => exact List.tail_sublist _
        | _ => exact List.Sublist.refl _
      · rw [Effect.apply, slot_mapBroker_of_ne _ hv]
  | _ => exact List.Sublist.refl _

namespace Sound

/-- An origin that an event is owed to is registered. -/
theorem isRegistered (h : Sound (o ::ₘ owed) m) :
  m.isRegistered o = true
  := isRegistered_of_isPaused h.balanced.isPaused

theorem withJournal (h : Sound owed m) (j : Journal) :
  Sound owed (m.withJournal j)
  := ⟨h.agrees, h.dependable, h.balanced⟩

theorem apply (h : Sound owed m) (hq : k ∈ Effect.quiet) (hk : k.Possible m) :
  Sound owed (k.apply m)
  := by
  constructor
  · apply h.agrees.apply hk
  · apply h.dependable.apply
  · apply h.balanced.congr (slot_apply_of_quiet hq) (isPaused_apply_of_quiet hq)

/-- The books stay right as long as no event is moved. -/
theorem path (h : Sound owed m) (hp : Path Effect.quiet m n) :
  Sound owed n
  := hp.keeps (fun _ hq _ hk hl => hl.apply hq hk) h

/-- A change of a processor that neither stops it nor lets it go on keeps the books right. -/
theorem mapVCpu (h : Sound owed m) {f : VCpu → VCpu} (hd : (m.mapVCpu v f).Dependable)
    (hf : ∀ c, (f c).paused = c.paused) :
  Sound owed (m.mapVCpu v f)
  := by
  refine ⟨h.agrees.mapVCpu v f, hd, ?_⟩
  apply h.balanced.congr
  · intro w
    apply slot_mapVCpu
  · intro w
    apply isPaused_mapVCpu_of_paused hf

theorem switchTo (h : Sound owed m) (hv : m.isRegistered v = true) :
  Sound owed (m.switchTo v)
  := h.apply (k := .load v) trivial hv

theorem pause (h : Sound owed m) (hv : m.isRegistered o = true) (ho : m.isPaused o = false) :
  Sound (o ::ₘ owed) (m.mapVCpu o (VCpu.withPaused true))
  := by
  obtain ⟨c, hc⟩ := isRegistered_iff_vcpu?.mp hv
  constructor
  · apply h.agrees.mapVCpu
  · apply h.dependable.apply (.vcpu o .pause)
  · apply h.balanced.pause _ _ ho
    · intro w
      apply slot_mapVCpu
    · intro w
      split
      · subst w
        rw [isPaused_mapVCpu_self hc]
        rfl
      · rename_i hw
        apply isPaused_mapVCpu_of_ne _ hw

theorem resume (h : Sound (o ::ₘ owed) m) {f : VCpu → VCpu} (hf : ∀ c, (f c).faults = c.faults)
    (hp : ∀ c, (f c).paused = false) :
  Sound owed (m.mapVCpu o f)
  := by
  obtain ⟨c, hc⟩ := isRegistered_iff_vcpu?.mp h.isRegistered
  constructor
  · apply h.agrees.mapVCpu
  · apply h.dependable.mapVCpu hf
  · apply h.balanced.resume
    · intro w
      apply slot_mapVCpu
    · intro w
      split
      · subst w
        rw [isPaused_mapVCpu_self hc, hp]
      · rename_i hw
        apply isPaused_mapVCpu_of_ne _ hw

theorem queue (h : Sound (e.origin ::ₘ owed) m) (hl : m.isRegistered l = true) :
  Sound owed (m.mapBroker l (Broker.Effect.queue e).apply)
  := by
  obtain ⟨b, hb⟩ := isRegistered_iff_broker?.mp hl
  constructor
  · apply h.agrees.mapBroker
  · apply h.dependable.mapBroker
  · apply h.balanced.queue (l := l)
    · intro w hw
      apply slot_mapBroker_of_ne _ hw
    · rw [slot_mapBroker_self hb, slot_of_broker? hb]
      rfl
    · intro w
      apply isPaused_mapBroker

theorem pop (h : Sound owed m) {es : List ExitEvent} (hs : m.slot l = e :: es) :
  Sound (e.origin ::ₘ owed) (m.mapBroker l Broker.Effect.pop.apply)
  := by
  obtain ⟨b, hb, he⟩ := exists_broker_of_slot_cons hs
  constructor
  · apply h.agrees.mapBroker
  · apply h.dependable.mapBroker
  · apply h.balanced.pop (l := l)
    · intro w hw
      apply slot_mapBroker_of_ne _ hw
    · rw [slot_mapBroker_self hb, hs]
      change _ = e :: b.pending.events.tail
      rw [he]
      rfl
    · intro w
      apply isPaused_mapBroker

/-- The origin of an event that is in flight is registered. -/
theorem isRegistered_of_slot (h : Sound owed m) {es : List ExitEvent} (hs : m.slot l = e :: es) :
  m.isRegistered e.origin = true
  := by
  rw [← (h.pop hs).isRegistered, isRegistered_mapBroker]

/-- An event that is pending has an origin that is stopped. -/
theorem isPaused_of_mem (h : Sound owed m) (he : e ∈ m.slot l) :
  m.isPaused e.origin = true
  := by
  have hb := h.balanced e.origin
  have ho := one_le_outstanding he
  by_contra hp
  rw [if_neg hp] at hb
  omega

/-- Events of one origin are pending for one listener only. -/
theorem eq_of_mem (h : Sound owed m) {e' : ExitEvent} {l' : Vpid} (he : e ∈ m.slot l)
    (he' : e' ∈ m.slot l') (ho : e'.origin = e.origin) :
  l' = l
  := by
  by_contra hne
  have hb := h.balanced e.origin
  have ht := two_le_outstanding he he' ho fun hl => hne hl.symm
  split at hb
  · omega
  · omega

end Sound

end Machine

end ExitRelay
