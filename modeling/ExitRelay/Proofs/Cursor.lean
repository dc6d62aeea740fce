import ExitRelay.Proofs.Registration

/-!
# Cursors of listener sets

A listener set is sound if it lists no member twice and its cursor is on a member, unless it has
none.  Inserting, erasing and going along the members keep a set sound, and requests keep all
sets of a registry sound.  So every set of a registry that requests and offers have led to is
sound, whichever they were.
-/

namespace ExitRelay

namespace ListenerSet

/-- No member is listed twice, and the cursor is on a member, unless there is none. -/
structure Sound (s : ListenerSet) : Prop where
  nodup : s.members.Nodup
  cursor_eq_none_iff : s.cursor = none ↔ s.members = []
  cursor_lt : ∀ i, s.cursor = some i → i < s.members.length

variable {s t : ListenerSet} {v : Vpid} {i : Nat}

theorem sound_empty :
  ({} : ListenerSet).Sound
  where
  nodup := List.nodup_nil
  cursor_eq_none_iff := iff_of_true rfl rfl
  cursor_lt := fun _ h => absurd h (Option.some_ne_none _).symm

/-- The cursor may be on any member. -/
theorem sound_cursor {vs : List Vpid} (hn : vs.Nodup) (hi : i < vs.length) :
  ({ members := vs, cursor := some i } : ListenerSet).Sound
  where
  nodup := hn
  cursor_eq_none_iff :=
    iff_of_false (Option.some_ne_none i) (List.ne_nil_of_length_pos (Nat.zero_lt_of_lt hi))
  cursor_lt := by
    intro j hj
    rw [← Option.some.inj hj]
    exact hi

theorem sound_rewind (hn : s.members.Nodup) :
  s.rewind.Sound
  := by
  obtain ⟨_ | ⟨v, vs⟩, cursor⟩ := s
  · exact sound_empty
  · exact sound_cursor hn (Nat.zero_lt_succ _)

namespace Sound

/-- A new member comes last, and the cursor is put on the first. -/
theorem insert? (h : s.Sound) (ht : s.insert? v = some t) :
  t.Sound
  := by
  obtain ⟨hv, -⟩ := members_of_insert? ht
  rw [ListenerSet.insert?, if_neg (mt contains_iff.mp hv)] at ht
  obtain rfl := Option.some.inj ht
  have hn : (s.members ++ [v]).Nodup := by
    apply h.nodup.append (List.nodup_singleton v)
    rw [List.disjoint_singleton]
    exact hv
  apply sound_cursor hn
  rw [List.length_append]
  exact Nat.succ_pos _

theorem erase? (h : s.Sound) (ht : s.erase? v = some t) :
  t.Sound
  := by
  obtain ⟨hv, -⟩ := members_of_erase? ht
  rw [ListenerSet.erase?, if_pos (contains_iff.mpr hv)] at ht
  obtain rfl := Option.some.inj ht
  apply sound_rewind
  exact h.nodup.erase v

theorem advance (h : s.Sound) :
  s.advance.2.Sound
  := by
  rw [ListenerSet.advance]
  split
  · rename_i v hv
    exact sound_cursor h.nodup (List.getElem?_eq_some_iff.mp hv).1
  · exact sound_rewind h.nodup

/-- Rewinding a sound set changes nothing if and only if its cursor is on the first member. -/
theorem rewind_eq_self_iff (h : s.Sound) :
  s.rewind = s ↔ s.current = s.members.head?
  := by
  constructor
  · intro he
    have hc := s.current_rewind
    rw [he] at hc
    exact hc
  · intro hc
    obtain ⟨_ | ⟨v, vs⟩, _ | i⟩ := s
    · rfl
    · exact absurd (h.cursor_lt i rfl) (Nat.not_lt_zero i)
    · exact absurd (h.cursor_eq_none_iff.mp rfl) (List.cons_ne_nil v vs)
    · -- Members are listed once, so the first one is at position 0 only.
      have hi : i < (v :: vs).length := h.cursor_lt i rfl
      have hget : (v :: vs)[i] = (v :: vs)[0] := by
        apply Option.some.inj
        rw [← List.getElem?_eq_getElem hi]
        exact hc
      obtain rfl : i = 0 := (h.nodup.getElem_inj_iff).mp hget
      rfl

end Sound

end ListenerSet

namespace Registry

/-- All listener sets are sound. -/
def Sound (r : Registry) : Prop :=
  ∀ reason, (r.get reason).Sound

/-- The registries that requests and offers lead to. -/
inductive Reached : Registry → Prop where
  | new : Reached {}
  | subscribe {r : Registry} (h : Reached r) (reason : ExitReason) (v : Vpid) :
      Reached (r.subscribe reason v).2
  | unsubscribe {r : Registry} (h : Reached r) (reason : ExitReason) (v : Vpid) :
      Reached (r.unsubscribe reason v).2
  | first {r : Registry} (h : Reached r) (reason : ExitReason) : Reached (r.first reason).2
  | next {r : Registry} (h : Reached r) (reason : ExitReason) : Reached (r.next reason).2

variable {r : Registry} {s : ListenerSet} {v : Vpid} {a reason : ExitReason}
  {reasons : List ExitReason}

theorem sound_new :
  ({} : Registry).Sound
  := by
  intro reason
  cases reason <;> exact ListenerSet.sound_empty

namespace Sound

theorem set (h : r.Sound) (a : ExitReason) (hs : s.Sound) :
  (r.set a s).Sound
  := by
  intro b
  rw [get_set]
  split
  · exact hs
  · exact h b

theorem withdraw (h : r.Sound) (v : Vpid) (a : ExitReason) :
  (r.withdraw v a).Sound
  := by
  rw [Registry.withdraw]
  split
  · exact h
  · rename_i s hs
    apply h.set
    exact (h a).erase? hs

theorem foldl_withdraw (v : Vpid) :
  ∀ {r : Registry}, r.Sound → (reasons.foldl (·.withdraw v ·) r).Sound
  := by
  induction reasons with
  | nil =>
      intro r h
      exact h
  | cons reason reasons ih =>
      intro r h
      rw [List.foldl_cons]
      exact ih (h.withdraw v reason)

theorem enroll (v : Vpid) :
  ∀ {entered : List ExitReason} {r : Registry}, r.Sound →
    (enroll v entered reasons r).2.Sound
  := by
  induction reasons with
  | nil =>
      intro entered r h
      exact h
  | cons reason reasons ih =>
      intro entered r h
      rw [Registry.enroll]
      split
      · exact h.foldl_withdraw v
      · rename_i s hs
        exact ih (h.set reason ((h reason).insert? hs))

theorem unsubscribe (h : r.Sound) (reason : ExitReason) (v : Vpid) :
  (r.unsubscribe reason v).2.Sound
  := by
  rw [Registry.unsubscribe]
  split
  · exact h.foldl_withdraw v
  · exact h

end Sound

/-- Whatever requests and offers there have been, all listener sets are sound. -/
theorem Reached.sound (h : r.Reached) :
  r.Sound
  := by
  induction h with
  | new => exact sound_new
  | subscribe _ reason v ih => exact ih.enroll v
  | unsubscribe _ reason v ih => exact ih.unsubscribe reason v
  | first _ reason ih => exact ih.set reason (ListenerSet.sound_rewind (ih reason).nodup)
  | next _ reason ih => exact ih.set reason (ih reason).advance

end Registry

end ExitRelay
