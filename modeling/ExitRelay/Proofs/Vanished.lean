import ExitRelay.Proofs.Execution.Delivery

/-!
# Listeners that are gone

A processor that is removed stays in the listener sets that it has subscribed to.  An event is
offered to the one listener whose turn it is, and to nobody if that one is gone: it does not go
on to the listeners behind.  So a registered listener is passed over only if it stands behind
one that is gone, and as long as none of the listeners is gone, an event is offered to nobody
only if nobody is left to offer it to.
-/

namespace ExitRelay.Machine

variable {m n : Machine} {e : ExitEvent} {l : Vpid}

/-- An event that is queued or handled by default has been dealt with. -/
theorem ends_some_inject (l : Vpid) (e : ExitEvent) :
  Ends (some <$> inject l e) m (fun t _ => t ≠ none) (fun _ _ => True)
  := by
  apply Ends.map
  apply Ends.trivial.imp
  intro t _ _
  apply Option.some_ne_none

/-- The first listener is offered the event if it is registered. -/
theorem ends_notify_of_head (hh : (m.listeners e.origin e.reason).members.head? = some l)
    (hl : m.isRegistered l = true) :
  Ends (notify e) m (fun t _ => t ≠ none) (fun _ _ => True)
  := by
  obtain ⟨b, hb, hr⟩ := exists_broker_of_listener (List.mem_of_head? hh)
  have hfst : (b.registry.first e.reason).1 = some l := by
    change (b.registry.get e.reason).first.1 = some l
    rw [ListenerSet.fst_first, hr, hh]
  rw [notify]
  apply (yields_onBroker hb _).ends_bind
  intro j
  simp only [hfst]
  apply Ends.bind_ok contains_eq
  rw [isRegistered_withJournal, isRegistered_mapBroker, if_pos hl]
  apply Ends.bind_last
  intro _ n
  apply Ends.bind_last
  intro _ n
  apply ends_some_inject

/-- The listener that follows the cursor is offered the event if it is registered. -/
theorem ends_notifyNext_of_following
    (hh : (m.listeners e.origin e.reason).advance.1 = some l)
    (ho : m.isRegistered e.origin = true) (hl : m.isRegistered l = true) :
  Ends (notifyNext e) m (fun t _ => t ≠ none) (fun _ _ => True)
  := by
  obtain ⟨b, hb⟩ := isRegistered_iff_broker?.mp ho
  have hnext : (b.registry.next e.reason).1 = some l := by
    change (b.registry.get e.reason).advance.1 = some l
    rw [← listeners_of_broker? hb, hh]
  rw [notifyNext]
  apply (yields_onBroker hb _).ends_bind
  intro j
  simp only [hnext]
  apply Ends.bind_ok contains_eq
  rw [isRegistered_withJournal, isRegistered_mapBroker, if_pos hl]
  apply ends_some_inject

/-- An event is offered to nobody exactly if there is no first listener, or it is gone. -/
theorem notify_eq_none_iff (ho : m.isRegistered e.origin = true) :
  (∃ n, notify e m = .ok none n) ↔
    ∀ l, (m.listeners e.origin e.reason).members.head? = some l → m.isRegistered l = false
  := by
  constructor
  · rintro ⟨n, hn⟩ l hh
    rw [Bool.eq_false_iff]
    intro hl
    have hx := ends_notify_of_head hh hl
    rw [Ends, hn] at hx
    exact hx rfl
  · intro hl
    obtain ⟨j, hj⟩ := (yields_notify_none ho hl).eq_ok
    exact ⟨_, hj⟩

/-- A declined event is offered to nobody exactly if no listener follows the cursor, or the one
that follows it is gone. -/
theorem notifyNext_eq_none_iff (ho : m.isRegistered e.origin = true) :
  (∃ n, notifyNext e m = .ok none n) ↔
    ∀ l, (m.listeners e.origin e.reason).advance.1 = some l → m.isRegistered l = false
  := by
  constructor
  · rintro ⟨n, hn⟩ l hh
    rw [Bool.eq_false_iff]
    intro hl
    have hx := ends_notifyNext_of_following hh ho hl
    rw [Ends, hn] at hx
    exact hx rfl
  · intro hl
    obtain ⟨j, hj⟩ := (yields_notifyNext_none hl ho).eq_ok
    exact ⟨_, hj⟩

/-- A registered listener that stands somewhere from a position on, while at that position there
is nobody or one that is gone, stands behind the one that is gone. -/
theorem exists_gone_of_getElem? {ls : List Vpid} {k i : Nat}
    (hgone : ∀ g, ls[k]? = some g → m.isRegistered g = false) (hki : k ≤ i)
    (hi : ls[i]? = some l) (hl : m.isRegistered l = true) :
  k < i ∧ ∃ g, ls[k]? = some g ∧ m.isRegistered g = false
  := by
  have hk : k < ls.length := hki.trans_lt (List.getElem?_eq_some_iff.mp hi).1
  have hg := hgone ls[k] (List.getElem?_eq_getElem hk)
  have hne : k ≠ i := by
    rintro rfl
    rw [hgone l hi] at hl
    exact Bool.false_ne_true hl
  exact ⟨hki.lt_of_ne hne, ls[k], List.getElem?_eq_getElem hk, hg⟩

/-- At most the cursors of the listener sets are elsewhere: the processors, what is pending for
them and who listens are the same. -/
structure Moved (m n : Machine) : Prop where
  vcpu : ∀ v, n.vcpu? v = m.vcpu? v
  slot : ∀ v, n.slot v = m.slot v
  members : ∀ v reason, (n.listeners v reason).members = (m.listeners v reason).members

theorem Moved.withJournal (h : Moved m n) (j : Journal) :
  Moved m (n.withJournal j)
  := ⟨h.vcpu, h.slot, h.members⟩

/-- A change of a broker that keeps what is pending and who listens moves cursors only. -/
theorem moved_mapBroker {v : Vpid} {f : Broker → Broker} (hp : ∀ b, (f b).pending = b.pending)
    (hm : ∀ b reason,
      ((f b).registry.get reason).members = (b.registry.get reason).members) :
  Moved m (m.mapBroker v f)
  := by
  constructor
  · intro w
    apply vcpu?_mapBroker
  · intro w
    apply slot_mapBroker_of_pending hp
  · intro w reason
    by_cases hw : w = v
    · subst w
      cases hb : m.broker? v with
      | none => rw [listeners, listeners, broker?_mapBroker_self, hb, Option.map_none]
      | some b => rw [listeners_mapBroker_self hb, listeners_of_broker? hb, hm]
    · rw [listeners_mapBroker_of_ne _ hw]

/-- An event that is offered to nobody moves the cursor and nothing else. -/
theorem moved_of_notify (ho : m.isRegistered e.origin = true) (hn : notify e m = .ok none n) :
  Moved m n
  := by
  obtain ⟨j, hj⟩ := (yields_notify_none ho ((notify_eq_none_iff ho).mp ⟨n, hn⟩)).eq_ok
  rw [hn] at hj
  obtain ⟨-, rfl⟩ := EStateM.Result.ok.inj hj
  apply Moved.withJournal
  apply moved_mapBroker
  · intro b
    rfl
  · intro b reason
    apply Registry.members_first

theorem moved_of_notifyNext (ho : m.isRegistered e.origin = true)
    (hn : notifyNext e m = .ok none n) :
  Moved m n
  := by
  obtain ⟨j, hj⟩ := (yields_notifyNext_none ((notifyNext_eq_none_iff ho).mp ⟨n, hn⟩) ho).eq_ok
  rw [hn] at hj
  obtain ⟨-, rfl⟩ := EStateM.Result.ok.inj hj
  apply Moved.withJournal
  apply moved_mapBroker
  · intro b
    rfl
  · intro b reason
    apply Registry.members_next

/-- An event of a registered origin is offered to nobody exactly if the listener whose turn it
is does not exist or is gone, and then only the cursor has moved.  So a registered listener
that the event does not come to stands behind one that is gone: behind the first listener when
the event arises, and behind the one that follows the cursor when the event is declined. -/
theorem passed_over_behind_gone (ho : m.isRegistered e.origin = true) :
  let s := m.listeners e.origin e.reason
  ((∃ n, notify e m = .ok none n) ↔
    ∀ l, s.members.head? = some l → m.isRegistered l = false) ∧
  ((∃ n, notifyNext e m = .ok none n) ↔
    ∀ l, s.members[s.following]? = some l → m.isRegistered l = false) ∧
  (∀ n, notify e m = .ok none n → Moved m n ∧
    ∀ i l, s.members[i]? = some l → m.isRegistered l = true →
      0 < i ∧ ∃ g, s.members[0]? = some g ∧ m.isRegistered g = false) ∧
  (∀ n, notifyNext e m = .ok none n → Moved m n ∧
    ∀ i l, s.following ≤ i → s.members[i]? = some l → m.isRegistered l = true →
      s.following < i ∧ ∃ g, s.members[s.following]? = some g ∧ m.isRegistered g = false)
  := by
  intro s
  have hfirst := notify_eq_none_iff ho
  have hnext := notifyNext_eq_none_iff ho
  rw [ListenerSet.fst_advance] at hnext
  refine ⟨hfirst, hnext, ?_, ?_⟩
  · intro n hn
    refine ⟨moved_of_notify ho hn, ?_⟩
    intro i l hi hl
    have hgone := hfirst.mp ⟨n, hn⟩
    simp only [List.head?_eq_getElem?] at hgone
    apply exists_gone_of_getElem? hgone (Nat.zero_le i) hi hl
  · intro n hn
    refine ⟨moved_of_notifyNext ho hn, ?_⟩
    intro i l hki hi hl
    apply exists_gone_of_getElem? (hnext.mp ⟨n, hn⟩) hki hi hl

/-- The first listener for the moves to CR3 of a processor is gone, and the second one is passed
over. -/
theorem passed_over_behind_first :
  let set : ListenerSet := { members := [2, 3], cursor := some 0 }
  let m : Machine := ((({} : Machine).hosting 1 ⟨{}, { registry := { cr3Load := set } }⟩).hosting
    3 ⟨{}, {}⟩)
  let e : ExitEvent := { origin := 1, reason := .cr3Load }
  ∃ n, notify e m = .ok none n ∧ Moved m n
  := by
  intro set m e
  have ho : m.isRegistered e.origin = true := by
    decide
  have hhead : (m.listeners 1 .cr3Load).members.head? = some 2 := by
    decide
  have hgone : ∀ l, (m.listeners 1 .cr3Load).members.head? = some l → m.isRegistered l = false := by
    intro l hl
    rw [hhead] at hl
    obtain rfl := Option.some.inj hl
    decide
  obtain ⟨hfirst, -, hpassed, -⟩ := passed_over_behind_gone ho
  obtain ⟨n, hn⟩ := hfirst.mpr hgone
  exact ⟨n, hn, (hpassed n hn).1⟩

/-- The processors 2 and 3 listen for the moves to CR3 of 1, and 4, 2 and 3 for its single steps.
When 2 is gone, a move to CR3 is offered to nobody, and so is a single step that 4 has
declined, although 3 is registered. -/
theorem registered_passed_over :
  let moves : ListenerSet := { members := [2, 3], cursor := some 0 }
  let steps : ListenerSet := { members := [4, 2, 3], cursor := some 0 }
  let m : Machine := ((({} : Machine).hosting 1
    ⟨{}, { registry := { cr3Load := moves, monitorTrap := steps } }⟩).hosting 3 ⟨{}, {}⟩).hosting
      4 ⟨{}, {}⟩
  let move : ExitEvent := { origin := 1, reason := .cr3Load }
  let step : ExitEvent := { origin := 1, reason := .monitorTrap }
  m.isRegistered 1 = true ∧ m.isRegistered 3 = true ∧
    (3 ∈ (m.listeners 1 .cr3Load).members ∧ ∃ n, notify move m = .ok none n) ∧
    (m.listeners 1 .monitorTrap).members[(m.listeners 1 .monitorTrap).following + 1]? = some 3 ∧
    ∃ n, notifyNext step m = .ok none n
  := by
  intro moves steps m move step
  have ho : m.isRegistered 1 = true := by
    decide
  have hgone : m.isRegistered 2 = false := by
    decide
  have hfirst : (m.listeners move.origin move.reason).members.head? = some 2 := by
    decide
  have hnext : (m.listeners step.origin step.reason).advance.1 = some 2 := by
    decide
  refine ⟨ho, by decide, ⟨by decide, ?_⟩, by decide, ?_⟩
  · apply (notify_eq_none_iff (e := move) ho).mpr
    intro l hl
    rw [hfirst] at hl
    obtain rfl := Option.some.inj hl
    exact hgone
  · apply (notifyNext_eq_none_iff (e := step) ho).mpr
    intro l hl
    rw [hnext] at hl
    obtain rfl := Option.some.inj hl
    exact hgone

end ExitRelay.Machine
