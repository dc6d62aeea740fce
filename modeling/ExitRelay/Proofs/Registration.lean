import ExitRelay.Proofs.Update
import Mathlib.Data.List.Nodup

/-!
# What a request does to listener sets

A request to subscribe is granted if no set that the subscription covers has the listener
already, and then the listener is the last one in each of these sets.  A request to
unsubscribe is granted if the set of the reason itself has the listener, which is then taken
out of all the sets.  A request that is not granted leaves every list of listeners as it was,
and no request reaches a set that the subscription does not cover.
-/

namespace ExitRelay

/-- Subscriptions cover no reason twice. -/
theorem ExitReason.nodup_subscription (reason : ExitReason) :
  reason.subscription.Nodup
  := by
  cases reason <;> decide

/-- A subscription covers reasons of one control only. -/
theorem Control.covers_congr {a reason : ExitReason} (c : Control) (h : a ∈ reason.subscription) :
  c.covers a = c.covers reason
  := by
  revert a
  cases reason <;> cases c <;> decide

theorem Control.covers_iff {reason : ExitReason} {c : Control} :
  c.covers reason = true ↔ reason ∈ c.exit.subscription
  := List.contains_iff_mem

theorem Control.mem_subscription_congr {a reason : ExitReason} (c : Control)
    (h : a ∈ reason.subscription) :
  a ∈ c.exit.subscription ↔ reason ∈ c.exit.subscription
  := by
  rw [← covers_iff, ← covers_iff, c.covers_congr h]

namespace Registry

variable {r r₀ : Registry} {v : Vpid} {a b reason : ExitReason} {reasons entered : List ExitReason}

/-! ### Taking a listener out -/

theorem get_withdraw_of_ne (v : Vpid) (h : b ≠ a) :
  (r.withdraw v a).get b = r.get b
  := by
  rw [withdraw]
  split
  · rfl
  · apply get_set_of_ne _ _ h

theorem members_withdraw (r : Registry) (v : Vpid) (a : ExitReason) :
  ((r.withdraw v a).get a).members = (r.get a).members.erase v
  := by
  rw [withdraw]
  split
  · rename_i h
    rw [List.erase_of_not_mem (ListenerSet.erase?_eq_none_iff.mp h)]
  · rename_i s h
    rw [get_set_self, (ListenerSet.members_of_erase? h).2]

theorem get_foldl_withdraw (v : Vpid) (h : b ∉ reasons) :
  ∀ {r : Registry}, (reasons.foldl (·.withdraw v ·) r).get b = r.get b
  := by
  induction reasons with
  | nil =>
      intro r
      rfl
  | cons reason reasons ih =>
      intro r
      rw [List.mem_cons, not_or] at h
      rw [List.foldl_cons, ih h.2, get_withdraw_of_ne v h.1]

theorem get_withdraw_self (r : Registry) (v : Vpid) (a : ExitReason) :
  (r.withdraw v a).get a = ((r.get a).erase? v).getD (r.get a)
  := by
  rw [withdraw]
  split
  · rename_i h
    rw [h, Option.getD_none]
  · rename_i s h
    rw [h, Option.getD_some, get_set_self]

/-- A listener that is taken out of several sets is taken out of each of them once. -/
theorem get_foldl_withdraw_of_mem (v : Vpid) (hr : reasons.Nodup) (h : b ∈ reasons) :
  ∀ {r : Registry},
    (reasons.foldl (·.withdraw v ·) r).get b = ((r.get b).erase? v).getD (r.get b)
  := by
  induction reasons with
  | nil => exact absurd h List.not_mem_nil
  | cons reason reasons ih =>
      intro r
      obtain ⟨hreason, hr⟩ := List.nodup_cons.mp hr
      rw [List.foldl_cons]
      rcases List.mem_cons.mp h with rfl | h
      · rw [get_foldl_withdraw v hreason, get_withdraw_self]
      · have hne : b ≠ reason := fun he => hreason (he ▸ h)
        rw [ih hr h, get_withdraw_of_ne v hne]

theorem members_foldl_withdraw (v : Vpid) (hr : reasons.Nodup) (h : b ∈ reasons)
    {r : Registry} :
  ((reasons.foldl (·.withdraw v ·) r).get b).members = (r.get b).members.erase v
  := by
  rw [get_foldl_withdraw_of_mem v hr h, ← get_withdraw_self, members_withdraw]

/-! ### Entering a listener -/

/-- The listener, who was in none of the sets of some reasons, has been entered into them. -/
structure Entered (v : Vpid) (entered : List ExitReason) (r₀ r : Registry) : Prop where
  absent : ∀ b ∈ entered, v ∉ (r₀.get b).members
  appended : ∀ b ∈ entered, (r.get b).members = (r₀.get b).members ++ [v]
  others : ∀ b, b ∉ entered → r.get b = r₀.get b

theorem Entered.refl (v : Vpid) (r : Registry) :
  Entered v [] r r
  := by
  constructor
  · intro b hb
    exact absurd hb List.not_mem_nil
  · intro b hb
    exact absurd hb List.not_mem_nil
  · intro b _
    rfl

theorem Entered.insert (h : Entered v entered r₀ r) (ha : a ∉ entered) {s : ListenerSet}
    (hs : (r.get a).insert? v = some s) :
  Entered v (entered ++ [a]) r₀ (r.set a s)
  := by
  obtain ⟨hv, hm⟩ := ListenerSet.members_of_insert? hs
  rw [h.others a ha] at hv hm
  constructor
  · intro b hb
    rcases List.mem_append.mp hb with hb | hb
    · apply h.absent b hb
    · rw [List.mem_singleton.mp hb]
      exact hv
  · intro b hb
    rcases List.mem_append.mp hb with hb | hb
    · have hne : b ≠ a := fun he => ha (he ▸ hb)
      rw [get_set_of_ne _ _ hne, h.appended b hb]
    · rw [List.mem_singleton.mp hb, get_set_self, hm]
  · intro b hb
    rw [List.mem_append, List.mem_singleton, not_or] at hb
    rw [get_set_of_ne _ _ hb.2, h.others b hb.1]

/-- What has been entered is taken out again, and the lists are as they were. -/
theorem Entered.members_foldl_withdraw (h : Entered v entered r₀ r) (hn : entered.Nodup)
    (b : ExitReason) :
  ((entered.foldl (·.withdraw v ·) r).get b).members = (r₀.get b).members
  := by
  by_cases hb : b ∈ entered
  · rw [Registry.members_foldl_withdraw v hn hb, h.appended b hb,
      List.erase_append_right _ (h.absent b hb), List.erase_cons_head, List.append_nil]
  · rw [get_foldl_withdraw v hb, h.others b hb]

/-- The listener is entered into all the sets or, if one of them has it already, into none. -/
theorem enroll_cases (reasons : List ExitReason) :
  ∀ {entered : List ExitReason} {r : Registry}, Entered v entered r₀ r →
    (entered ++ reasons).Nodup →
    ((enroll v entered reasons r).1 = none ∧
      Entered v (entered ++ reasons) r₀ (enroll v entered reasons r).2) ∨
    (∃ a ∈ reasons, (enroll v entered reasons r).1 = some a ∧ v ∈ (r₀.get a).members) ∧
      (∀ b, ((enroll v entered reasons r).2.get b).members = (r₀.get b).members) ∧
      ∀ b, b ∉ entered ++ reasons → (enroll v entered reasons r).2.get b = r₀.get b
  := by
  induction reasons with
  | nil =>
      intro entered r h _
      left
      rw [List.append_nil]
      exact ⟨rfl, h⟩
  | cons a reasons ih =>
      intro entered r h hn
      have ha : a ∉ entered := by
        intro he
        exact (List.disjoint_of_nodup_append hn) he List.mem_cons_self
      rw [enroll]
      split
      · rename_i hs
        right
        rw [ListenerSet.insert?_eq_none_iff, h.others a ha] at hs
        refine ⟨⟨a, List.mem_cons_self, rfl, hs⟩, ?_, ?_⟩
        · apply h.members_foldl_withdraw
          exact (List.nodup_append.mp hn).1
        · intro b hb
          rw [List.mem_append, not_or] at hb
          rw [get_foldl_withdraw v hb.1, h.others b hb.1]
      · rename_i s hs
        have hcons : entered ++ a :: reasons = (entered ++ [a]) ++ reasons := List.append_cons ..
        rw [hcons] at hn ⊢
        rcases ih (h.insert ha hs) hn with hall | ⟨⟨a', ha', hex⟩, hnone⟩
        · exact .inl hall
        · exact .inr ⟨⟨a', List.mem_cons_of_mem a ha', hex⟩, hnone⟩

/-! ### Requests -/

/-- The listener may be entered into all the sets that a subscription covers. -/
def Open (r : Registry) (reason : ExitReason) (v : Vpid) : Prop :=
  ∀ a ∈ reason.subscription, v ∉ (r.get a).members

theorem subscribe_cases (r : Registry) (reason : ExitReason) (v : Vpid) :
  ((r.subscribe reason v).1 = none ∧
    Entered v reason.subscription r (r.subscribe reason v).2) ∨
  (∃ a ∈ reason.subscription, (r.subscribe reason v).1 = some a ∧ v ∈ (r.get a).members) ∧
    (∀ b, ((r.subscribe reason v).2.get b).members = (r.get b).members) ∧
    ∀ b, b ∉ reason.subscription → (r.subscribe reason v).2.get b = r.get b
  := enroll_cases reason.subscription (Entered.refl v r) reason.nodup_subscription

/-- A subscription is granted if no set that it covers has the listener. -/
theorem fst_subscribe_eq_none_iff :
  (r.subscribe reason v).1 = none ↔ r.Open reason v
  := by
  rcases subscribe_cases r reason v with ⟨hnone, he⟩ | ⟨⟨a, ha, hsome, hv⟩, -⟩
  · exact ⟨fun _ => he.absent, fun _ => hnone⟩
  · constructor
    · intro hnone
      rw [hsome] at hnone
      exact absurd hnone (Option.some_ne_none a)
    · intro hopen
      exact absurd hv (hopen a ha)

theorem members_subscribe (h : r.Open reason v) (hb : b ∈ reason.subscription) :
  ((r.subscribe reason v).2.get b).members = (r.get b).members ++ [v]
  := by
  rcases subscribe_cases r reason v with ⟨-, he⟩ | ⟨⟨a, ha, -, hv⟩, -⟩
  · apply he.appended b hb
  · exact absurd hv (h a ha)

/-- A subscription that is not granted changes no list. -/
theorem members_subscribe_of_not_open (h : ¬ r.Open reason v) (b : ExitReason) :
  ((r.subscribe reason v).2.get b).members = (r.get b).members
  := by
  rcases subscribe_cases r reason v with ⟨-, he⟩ | ⟨-, hm, -⟩
  · exact absurd he.absent h
  · apply hm

theorem get_subscribe_of_notMem (hb : b ∉ reason.subscription) :
  (r.subscribe reason v).2.get b = r.get b
  := by
  rcases subscribe_cases r reason v with ⟨-, he⟩ | ⟨-, -, ho⟩
  · apply he.others b hb
  · apply ho b hb

/-- A request to subscribe leaves a list as it was or appends the listener, who was not in
it. -/
theorem members_subscribe_cases (r : Registry) (reason : ExitReason) (v : Vpid) (b : ExitReason) :
  v ∉ (r.get b).members ∧
      ((r.subscribe reason v).2.get b).members = (r.get b).members ++ [v] ∨
    ((r.subscribe reason v).2.get b).members = (r.get b).members
  := by
  by_cases h : r.Open reason v
  · by_cases hb : b ∈ reason.subscription
    · exact .inl ⟨h b hb, members_subscribe h hb⟩
    · exact .inr (by rw [get_subscribe_of_notMem hb])
  · exact .inr (members_subscribe_of_not_open h b)

/-- Unsubscribing is granted to whoever listens for the reason itself. -/
theorem fst_unsubscribe_eq_none_iff :
  (r.unsubscribe reason v).1 = none ↔ v ∈ (r.get reason).members
  := by
  rw [unsubscribe]
  split
  · rename_i h
    exact iff_of_true rfl (ListenerSet.contains_iff.mp h)
  · rename_i h
    rw [ListenerSet.contains_iff] at h
    exact iff_of_false (Option.some_ne_none reason) h

theorem members_unsubscribe (h : v ∈ (r.get reason).members) (hb : b ∈ reason.subscription) :
  ((r.unsubscribe reason v).2.get b).members = (r.get b).members.erase v
  := by
  rw [unsubscribe, if_pos (ListenerSet.contains_iff.mpr h)]
  apply members_foldl_withdraw v reason.nodup_subscription hb

/-- Unsubscribing without having subscribed changes nothing. -/
theorem unsubscribe_of_notMem (h : v ∉ (r.get reason).members) :
  (r.unsubscribe reason v).2 = r
  := by
  rw [unsubscribe, if_neg]
  rw [ListenerSet.contains_iff]
  exact h

theorem get_unsubscribe_of_notMem (hb : b ∉ reason.subscription) :
  (r.unsubscribe reason v).2.get b = r.get b
  := by
  rw [unsubscribe]
  split
  · apply get_foldl_withdraw v hb
  · rfl

/-- A request to unsubscribe leaves a list as it was or takes the listener out of it. -/
theorem members_unsubscribe_cases (r : Registry) (reason : ExitReason) (v : Vpid)
    (b : ExitReason) :
  b ∈ reason.subscription ∧
      ((r.unsubscribe reason v).2.get b).members = (r.get b).members.erase v ∨
    ((r.unsubscribe reason v).2.get b).members = (r.get b).members
  := by
  by_cases h : v ∈ (r.get reason).members
  · by_cases hb : b ∈ reason.subscription
    · exact .inl ⟨hb, members_unsubscribe h hb⟩
    · exact .inr (by rw [get_unsubscribe_of_notMem hb])
  · exact .inr (by rw [unsubscribe_of_notMem h])

end Registry

end ExitRelay
