import ExitRelay.Proofs.Alignment
import ExitRelay.Proofs.Cursor

/-!
# Requests that are refused

A request to unsubscribe that is refused changes nothing.  A request to subscribe that one of
several sets refuses is undone in the sets before it: the listener is taken out of them again,
and their lists are as they were, but their cursors are back on the first listener, wherever they
have been.  `rollback` says so for every registry that requests and offers have led to, and tells
when nothing has changed: if the cursors of these sets were on their first listeners already, as
it is where the sets of a control have the same listeners, since then the first set refuses.
-/

namespace ExitRelay

/-- A member that is inserted and erased again leaves a set rewound. -/
theorem ListenerSet.erase?_of_insert? {s t : ListenerSet} {v : Vpid} (h : s.insert? v = some t) :
  t.erase? v = some s.rewind
  := by
  obtain ⟨hv, hm⟩ := members_of_insert? h
  have hmem : v ∈ t.members := by
    rw [hm]
    exact List.mem_append_right _ (List.mem_singleton_self v)
  have herase : t.members.erase v = s.members := by
    rw [hm, List.erase_append_right _ hv, List.erase_cons_head, List.append_nil]
  rw [erase?, if_pos (contains_iff.mpr hmem), herase]
  rfl

namespace Registry

variable {r r₀ : Registry} {v : Vpid} {a b reason : ExitReason} {reasons entered : List ExitReason}

/-- The listener has been inserted into the sets of some reasons. -/
structure Inserted (v : Vpid) (entered : List ExitReason) (r₀ r : Registry) : Prop where
  inserted : ∀ b ∈ entered, (r₀.get b).insert? v = some (r.get b)
  others : ∀ b, b ∉ entered → r.get b = r₀.get b

theorem Inserted.refl (v : Vpid) (r : Registry) :
  Inserted v [] r r
  := ⟨fun _ hb => absurd hb List.not_mem_nil, fun _ _ => rfl⟩

theorem Inserted.insert (h : Inserted v entered r₀ r) (ha : a ∉ entered) {s : ListenerSet}
    (hs : (r.get a).insert? v = some s) :
  Inserted v (entered ++ [a]) r₀ (r.set a s)
  := by
  rw [h.others a ha] at hs
  constructor
  · intro b hb
    rcases List.mem_append.mp hb with hb | hb
    · have hne : b ≠ a := fun he => ha (he ▸ hb)
      rw [get_set_of_ne _ _ hne, h.inserted b hb]
    · rw [List.mem_singleton.mp hb, get_set_self, hs]
  · intro b hb
    rw [List.mem_append, List.mem_singleton, not_or] at hb
    rw [get_set_of_ne _ _ hb.2, h.others b hb.1]

/-- Taking the listener out again leaves the sets rewound that it was inserted into. -/
theorem Inserted.get_foldl_withdraw (h : Inserted v entered r₀ r) (hn : entered.Nodup)
    (b : ExitReason) :
  (entered.foldl (·.withdraw v ·) r).get b =
    if b ∈ entered then (r₀.get b).rewind else r₀.get b
  := by
  split
  · rename_i hb
    have herase := ListenerSet.erase?_of_insert? (h.inserted b hb)
    rw [get_foldl_withdraw_of_mem v hn hb, herase, Option.getD_some]
  · rename_i hb
    rw [Registry.get_foldl_withdraw v hb, h.others b hb]

/-- If a set refuses the listener, the sets before it are rewound and the others are as they
were. -/
theorem enroll_refused (reasons : List ExitReason) :
  ∀ {entered : List ExitReason} {r : Registry}, Inserted v entered r₀ r →
    (entered ++ reasons).Nodup → (enroll v entered reasons r).1 = some a →
    (a ∈ reasons ∧ v ∈ (r₀.get a).members) ∧
      ∀ b, (enroll v entered reasons r).2.get b =
        if b ∈ entered ++ reasons.takeWhile (· ≠ a) then (r₀.get b).rewind else r₀.get b
  := by
  induction reasons with
  | nil =>
      intro entered r _ _ hsome
      exact absurd hsome (Option.some_ne_none a).symm
  | cons reason reasons ih =>
      intro entered r h hn hsome
      have hreason : reason ∉ entered := by
        intro he
        exact (List.disjoint_of_nodup_append hn) he List.mem_cons_self
      rw [enroll] at hsome ⊢
      split at hsome
      · rename_i hs
        obtain rfl := Option.some.inj hsome
        rw [h.others reason hreason] at hs
        rw [List.takeWhile_cons_of_neg (by simp), List.append_nil]
        refine ⟨⟨List.mem_cons_self, ListenerSet.insert?_eq_none_iff.mp hs⟩, ?_⟩
        exact h.get_foldl_withdraw (List.nodup_append.mp hn).1
      · rename_i s hs
        rw [List.append_cons] at hn
        obtain ⟨⟨ha, hv⟩, hget⟩ := ih (h.insert hreason hs) hn hsome
        have hne : reason ≠ a := by
          rintro rfl
          exact (List.disjoint_of_nodup_append hn)
            (List.mem_append_right _ (List.mem_singleton_self reason)) ha
        rw [List.takeWhile_cons_of_pos (by simpa using hne),
          List.append_cons entered reason (reasons.takeWhile (· ≠ a))]
        exact ⟨⟨List.mem_cons_of_mem reason ha, hv⟩, hget⟩

theorem subscribe_refused (h : (r.subscribe reason v).1 = some a) :
  (a ∈ reason.subscription ∧ v ∈ (r.get a).members) ∧
    ∀ b, (r.subscribe reason v).2.get b =
      if b ∈ reason.subscription.takeWhile (· ≠ a) then (r.get b).rewind else r.get b
  := enroll_refused reason.subscription (Inserted.refl v r) reason.nodup_subscription h

/-- A request that is refused because the listener has subscribed to the reason itself changes
nothing. -/
theorem subscribe_of_mem (h : v ∈ (r.get reason).members) :
  (r.subscribe reason v).2 = r
  := by
  have hnone := ListenerSet.insert?_eq_none_iff.mpr h
  obtain ⟨rest, hrest⟩ : ∃ rest, reason.subscription = reason :: rest := by
    cases reason <;> exact ⟨_, rfl⟩
  rw [subscribe, hrest, enroll, hnone]
  rfl

/-- A request to unsubscribe that is refused changes nothing.  A request to subscribe that a set
refuses rewinds the sets of the subscription that come before it, and changes nothing else.  So
it changes nothing at all if and only if the cursors of these sets are on their first members,
and in particular if the sets of a subscription have the same members. -/
theorem rollback (h : r.Reached) (reason : ExitReason) (v : Vpid) :
  ((r.unsubscribe reason v).1 ≠ none → (r.unsubscribe reason v).2 = r) ∧
    ∀ a, (r.subscribe reason v).1 = some a →
      (a ∈ reason.subscription ∧ v ∈ (r.get a).members) ∧
      (∀ b, (r.subscribe reason v).2.get b =
        if b ∈ reason.subscription.takeWhile (· ≠ a) then (r.get b).rewind else r.get b) ∧
      ((r.subscribe reason v).2 = r ↔ ∀ b ∈ reason.subscription.takeWhile (· ≠ a),
        (r.get b).current = (r.get b).members.head?) ∧
      (r.Aligned → (r.subscribe reason v).2 = r)
  := by
  constructor
  · intro hrefused
    exact unsubscribe_of_notMem (mt fst_unsubscribe_eq_none_iff.mpr hrefused)
  · intro a ha
    obtain ⟨⟨hmem, hv⟩, hget⟩ := subscribe_refused ha
    refine ⟨⟨hmem, hv⟩, hget, ⟨?_, ?_⟩, ?_⟩
    · intro heq b hb
      rw [← (h.sound b).rewind_eq_self_iff]
      have hb' := hget b
      rw [heq, if_pos hb] at hb'
      exact hb'.symm
    · intro hcursor
      apply ext_get
      intro b
      rw [hget b]
      split
      · rename_i hb
        exact (h.sound b).rewind_eq_self_iff.mpr (hcursor b hb)
      · rfl
    · intro haligned
      apply subscribe_of_mem
      rw [← haligned reason a hmem]
      exact hv

/-- The registry in which 1 and 2 listen for violations by reads, of which one is offered to 2,
and 3 listens for violations by writes only. -/
def offering : Registry :=
  let r : Registry := (({} : Registry).subscribe .eptRead 1).2
  let r := ((r.subscribe .eptRead 2).2.subscribe .eptWrite 3).2
  ((r.first .eptRead).2.next .eptRead).2

theorem reached_offering :
  offering.Reached
  := .next (.first (.subscribe (.subscribe (.subscribe .new .eptRead 1) .eptRead 2) .eptWrite 3)
      .eptRead) .eptRead

/-- The listener 3 subscribes to violations by reads, which the set for writes refuses.  In the
set for reads the cursor is back on 1, and the set for fetches is as it was. -/
theorem rollback_of_second_set :
  offering.Reached ∧ (offering.subscribe .eptRead 3).1 = some .eptWrite ∧
    (offering.subscribe .eptRead 3).2.get .eptRead = (offering.get .eptRead).rewind ∧
    (offering.subscribe .eptRead 3).2.get .eptExecute = offering.get .eptExecute ∧
    (offering.unsubscribe .eptRead 3).2 = offering
  := by
  obtain ⟨hunsubscribe, hsubscribe⟩ := rollback reached_offering .eptRead 3
  have hrefused : (offering.subscribe .eptRead 3).1 = some .eptWrite := by
    decide
  obtain ⟨-, hget, -⟩ := hsubscribe .eptWrite hrefused
  refine ⟨reached_offering, hrefused, ?_, ?_, hunsubscribe (by decide)⟩
  · exact (hget .eptRead).trans (if_pos (by decide))
  · exact (hget .eptExecute).trans (if_neg (by decide))

/-- The request of 3 is refused, and yet the set for reads is not as it was: the cursor has moved
from 2 back to 1, so that an event which 2 declines is offered to 2 once more, where it was to be
offered to nobody. -/
theorem cursor_lost_by_refused_subscription :
  offering.Reached ∧ (offering.subscribe .eptRead 3).1 ≠ none ∧
    (offering.subscribe .eptRead 3).2 ≠ offering ∧
    (offering.get .eptRead).current = some 2 ∧
    ((offering.subscribe .eptRead 3).2.get .eptRead).current = some 1 ∧
    (offering.next .eptRead).1 = none ∧
    ((offering.subscribe .eptRead 3).2.next .eptRead).1 = some 2
  := ⟨reached_offering, by decide⟩

end Registry

end ExitRelay
