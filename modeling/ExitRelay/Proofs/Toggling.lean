import ExitRelay.Proofs.Execution.Subscription

/-!
# Switching controls one by one

What can be observed after a control of a target has been switched: a bit of its field, where
the target stands and whether it is stopped, the events of the caller and the listeners.
Each of these observations depends on one control at most, so that it changes only once when
several controls are switched in turn.  The listener sets agree to a request if and only if
they agree to each of its parts from the start.
-/

namespace ExitRelay

namespace Control

variable {k l : Control}

/-- Controls of one field are told apart by their positions. -/
theorem eq_of_position (hf : k.field = l.field) (hp : k.position = l.position) :
  k = l
  := by
  cases k <;> cases l <;> first | rfl | exact absurd hp (by decide)

theorem bit_mask (k : Control) {i : Nat} (h : i < 64) :
  Word.bit k.mask i = decide (i = k.position)
  := by
  revert i
  cases k <;> decide +kernel

end Control

theorem ControlField.nodup_controls (field : ControlField) :
  field.controls.Nodup
  := by
  cases field <;> decide

namespace VCpu

/-- The processor once an event of it has been settled, if there was one that the control had
caused. -/
def freed (control : Control) (settles : Bool) (c : VCpu) : VCpu :=
  if settles then (c.fellBack control).withPaused false else c

variable {k : Control} {c d : VCpu} {f : Field} {on b : Bool} {i : Nat}

/-- Switching a control sets or clears its bit. -/
theorem bit_switched (h : i < 64) :
  Word.bit ((c.switched k on).vmcs.read k.field.encoding) i =
    if i = k.position then on else Word.bit (c.vmcs.read k.field.encoding) i
  := by
  rw [read_switched_self]
  cases on with
  | true =>
      rw [if_pos rfl, Word.bit_or, k.bit_mask h]
      by_cases hi : i = k.position
      · rw [if_pos hi, decide_eq_true hi, Bool.or_true]
      · rw [if_neg hi, decide_eq_false hi, Bool.or_false]
  | false =>
      rw [if_neg Bool.false_ne_true, Word.bit_and, Word.bit_not _ h, k.bit_mask h]
      by_cases hi : i = k.position
      · rw [if_pos hi, decide_eq_true hi, Bool.not_true, Bool.and_false]
      · rw [if_neg hi, decide_eq_false hi, Bool.not_false, Bool.and_true]

theorem read_freed (h : f ≠ Field.rip) :
  (c.freed k b).vmcs.read f = c.vmcs.read f
  := by
  rw [freed]
  split
  · exact read_fellBack h
  · rfl

end VCpu

namespace Machine

variable {m n : Machine} {u v w : Vpid} {t : VCpu} {k control : Control}
  {mask value : UInt64} {field : ControlField} {controls : List Control} {on : Bool}

/-- The machine after a request about a control of the target has been obeyed. -/
def obeyed (caller target : Vpid) (mask value : UInt64) (m : Machine) (control : Control) :
    Machine :=
  match control.demand? mask value with
  | none => m
  | some on => m.toggled caller target control on

theorem obeyed_of_none (h : k.demand? mask value = none) :
  m.obeyed v w mask value k = m
  := by
  rw [obeyed, h]

theorem obeyed_of_some (h : k.demand? mask value = some on) :
  m.obeyed v w mask value k = m.toggled v w k on
  := by
  rw [obeyed, h]

@[simp]
theorem isRegistered_obeyed :
  (m.obeyed v w mask value k).isRegistered u = m.isRegistered u
  := by
  rw [obeyed]
  split
  · rfl
  · apply isRegistered_toggled

/-! ### Listeners -/

/-- The listeners on the target for what the control covers. -/
def audience (m : Machine) (target : Vpid) (control : Control)
    (a : { a : ExitReason // control.covers a = true }) : ListenerSet :=
  m.listeners target a

/-- A control that does not cover a reason has nothing to do with its listeners. -/
theorem listeners_toggled_of_uncovered {a : ExitReason} (h : k.covers a = false) :
  (m.toggled v w k on).listeners u a = m.listeners u a
  := by
  have ha : a ∉ k.exit.subscription := by
    rw [← Control.covers_iff, h]
    exact Bool.false_ne_true
  rw [toggled]
  split
  · rw [listeners_mapBroker_of_get, listeners_mapVCpu]
    intro b
    apply Registry.get_subscribe_of_notMem ha
  · rw [listeners_mapBroker_of_get, listeners_settled, listeners_mapVCpu]
    intro b
    apply Registry.get_unsubscribe_of_notMem ha

theorem listeners_toggled_of_ne {a : ExitReason} (h : u ≠ w) :
  (m.toggled v w k on).listeners u a = m.listeners u a
  := by
  rw [toggled]
  split
  · rw [listeners_mapBroker_of_ne _ h, listeners_mapVCpu]
  · rw [listeners_mapBroker_of_ne _ h, listeners_settled, listeners_mapVCpu]

section

variable {b : Broker} (hb : m.broker? w = some b) (v : Vpid) (k : Control) (a : ExitReason)

include hb

theorem listeners_toggled_on :
  (m.toggled v w k true).listeners w a = (b.registry.subscribe k.exit v).2.get a
  := by
  have hb' : (m.mapVCpu w (VCpu.switched k true)).broker? w = some b := by
    rw [broker?_mapVCpu, hb]
  rw [toggled, if_pos rfl, listeners_mapBroker_self hb']
  rfl

theorem listeners_toggled_off :
  (m.toggled v w k false).listeners w a = (b.registry.unsubscribe k.exit v).2.get a
  := by
  obtain ⟨b', hb'⟩ : ∃ b',
      ((m.mapVCpu w (VCpu.switched k false)).settled v w k).broker? w = some b' := by
    apply isRegistered_iff_broker?.mp
    rw [isRegistered_settled, isRegistered_mapVCpu]
    exact isRegistered_iff_broker?.mpr ⟨b, hb⟩
  -- settling an event touches the caller's slot, which may be in the same broker
  have hregistry : b'.registry = b.registry := by
    apply Registry.ext_get
    intro a
    rw [← listeners_of_broker? hb', ← listeners_of_broker? hb, listeners_settled,
      listeners_mapVCpu]
  rw [toggled, if_neg Bool.false_ne_true, listeners_mapBroker_self hb', ← hregistry]
  rfl

end

section

variable {a : ExitReason} (hw : m.isRegistered w = true) (h : k.covers a = true)

include hw h

/-- Whoever is accepted comes last. -/
theorem members_toggled_on (hp : m.Permits v w k true) :
  ((m.toggled v w k true).listeners w a).members = (m.listeners w a).members ++ [v]
  := by
  obtain ⟨b, hb⟩ := isRegistered_iff_broker?.mp hw
  rw [permits_on_iff hb, Registry.fst_subscribe_eq_none_iff] at hp
  rw [listeners_toggled_on hb, listeners_of_broker? hb]
  apply Registry.members_subscribe hp (Control.covers_iff.mp h)

theorem members_toggled_off (hp : m.Permits v w k false) :
  ((m.toggled v w k false).listeners w a).members = (m.listeners w a).members.erase v
  := by
  obtain ⟨b, hb⟩ := isRegistered_iff_broker?.mp hw
  rw [permits_off_iff hb, Registry.fst_unsubscribe_eq_none_iff] at hp
  rw [listeners_toggled_off hb, listeners_of_broker? hb]
  apply Registry.members_unsubscribe hp (Control.covers_iff.mp h)

end

/-- What one control covers, other controls do not. -/
theorem listeners_toggled_of_covered {a : ExitReason} (hne : control ≠ k)
    (h : k.covers a = true) :
  (m.toggled v w control on).listeners u a = m.listeners u a
  := by
  apply listeners_toggled_of_uncovered
  rw [← Bool.not_eq_true, ← Control.ofReason?_eq_some_iff, Control.ofReason?_eq_some_iff.mpr h]
  intro hk
  exact hne (Option.some.inj hk).symm

/-- What the listener sets say about a control does not depend on other controls. -/
theorem permits_toggled_of_ne (hne : control ≠ k) (b : Bool) :
  (m.toggled v w control on).Permits v w k b ↔ m.Permits v w k b
  := permits_congr (fun _ ha => listeners_toggled_of_covered hne ha) v b

/-! ### Processors and slots -/

theorem detains_congr (h : n.slot v = m.slot v) :
  n.detains v w k = m.detains v w k
  := by
  rw [detains, detains, h]

theorem vcpu?_settled_of_ne (h : u ≠ w) :
  (m.settled v w k).vcpu? u = m.vcpu? u
  := by
  rw [settled]
  split
  · rw [vcpu?_mapVCpu_of_ne _ h, vcpu?_mapBroker]
  · rfl

theorem vcpu?_settled :
  (m.settled v w k).vcpu? w = (m.vcpu? w).map (VCpu.freed k (m.detains v w k))
  := by
  rw [settled]
  cases m.detains v w k with
  | true =>
      rw [if_pos rfl, vcpu?_mapVCpu_self, vcpu?_mapBroker]
      rfl
  | false =>
      rw [if_neg Bool.false_ne_true]
      exact Option.map_id'.symm

theorem slot_mapBroker_pop :
  (m.mapBroker v Broker.Effect.pop.apply).slot v = (m.slot v).tail
  := by
  cases hb : m.broker? v with
  | none =>
      rw [slot, slot, broker?_mapBroker_self, hb]
      rfl
  | some b =>
      rw [slot_mapBroker_self hb, slot_of_broker? hb]
      rfl

theorem slot_settled :
  (m.settled v w k).slot u =
    if u = v ∧ m.detains v w k = true then (m.slot u).tail else m.slot u
  := by
  rw [settled]
  cases m.detains v w k with
  | true =>
      rw [if_pos rfl, slot_mapVCpu]
      split
      · rename_i hu
        rw [hu.1, slot_mapBroker_pop]
      · rename_i hu
        apply slot_mapBroker_of_ne
        intro he
        exact hu ⟨he, rfl⟩
  | false =>
      rw [if_neg Bool.false_ne_true, if_neg]
      intro hu
      exact Bool.false_ne_true hu.2

theorem vcpu?_toggled_of_ne (h : u ≠ w) :
  (m.toggled v w k on).vcpu? u = m.vcpu? u
  := by
  rw [toggled]
  split
  · rw [vcpu?_mapBroker, vcpu?_mapVCpu_of_ne _ h]
  · rw [vcpu?_mapBroker, vcpu?_settled_of_ne h, vcpu?_mapVCpu_of_ne _ h]

/-- The target has the control switched, and it is freed if an event of it is settled. -/
theorem vcpu?_toggled :
  (m.toggled v w k on).vcpu? w =
    (m.vcpu? w).map (VCpu.freed k (!on && m.detains v w k) ∘ VCpu.switched k on)
  := by
  rw [toggled]
  cases on with
  | true =>
      rw [if_pos rfl, vcpu?_mapBroker, vcpu?_mapVCpu_self]
      rfl
  | false =>
      rw [if_neg Bool.false_ne_true, vcpu?_mapBroker, vcpu?_settled, vcpu?_mapVCpu_self,
        Option.map_map, detains_congr (slot_mapVCpu _)]
      rfl

theorem slot_toggled :
  (m.toggled v w k on).slot u =
    if u = v ∧ (!on && m.detains v w k) = true then (m.slot u).tail else m.slot u
  := by
  rw [toggled]
  cases on with
  | true =>
      have hp : ∀ b, ((Broker.Effect.subscribe k v).apply b).pending = b.pending := fun _ => rfl
      rw [if_pos rfl, slot_mapBroker_of_pending hp, slot_mapVCpu, if_neg]
      intro hu
      exact Bool.false_ne_true hu.2
  | false =>
      have hp : ∀ b, ((Broker.Effect.unsubscribe k v).apply b).pending = b.pending :=
        fun _ => rfl
      rw [if_neg Bool.false_ne_true, slot_mapBroker_of_pending hp, slot_settled, slot_mapVCpu,
        detains_congr (slot_mapVCpu _)]
      rfl

/-- The privilege level and the deadline that a broker keeps have nothing to do with
controls. -/
theorem broker?_toggled :
  ((m.toggled v w k on).broker? u).map (fun b => (b.cpl, b.deadline)) =
    (m.broker? u).map fun b => (b.cpl, b.deadline)
  := by
  have hsettled : ∀ l : Machine, ((l.settled v w k).broker? u).map (fun b => (b.cpl, b.deadline)) =
      (l.broker? u).map fun b => (b.cpl, b.deadline) := by
    intro l
    rw [settled]
    split
    · rw [broker?_mapVCpu, map_broker?_mapBroker]
      intro b
      rfl
    · rfl
  rw [toggled]
  split
  · rw [map_broker?_mapBroker, broker?_mapVCpu]
    intro b
    rfl
  · rw [map_broker?_mapBroker, hsettled, broker?_mapVCpu]
    intro b
    rfl

/-! ### Requests in turn -/

theorem permits_obeyed_of_ne (hne : control ≠ k) (b : Bool) :
  (m.obeyed v w mask value control).Permits v w k b ↔ m.Permits v w k b
  := by
  rw [obeyed]
  split
  · exact Iff.rfl
  · exact permits_toggled_of_ne hne b

/-- A request to which the listener sets agree is obeyed control by control. -/
theorem switchedControls_of_permits (hn : controls.Nodup) :
  ∀ {m : Machine},
    (∀ k ∈ controls, ∀ on, k.demand? mask value = some on → m.Permits v w k on) →
      switchedControls v w mask value controls m =
        (.ok (), controls.foldl (obeyed v w mask value) m)
  := by
  induction controls with
  | nil =>
      intro m _
      rfl
  | cons control controls ih =>
      intro m hp
      obtain ⟨hcontrol, hn⟩ := List.nodup_cons.mp hn
      have hrest : ∀ k ∈ controls, ∀ on, k.demand? mask value = some on →
          (m.obeyed v w mask value control).Permits v w k on := by
        intro k hk on hd
        rw [permits_obeyed_of_ne]
        · exact hp k (List.mem_cons_of_mem control hk) on hd
        · rintro rfl
          exact hcontrol hk
      have hih := ih hn hrest
      rw [switchedControls, List.foldl_cons]
      cases hd : control.demand? mask value with
      | none =>
          rw [obeyed_of_none hd] at hih ⊢
          exact hih
      | some on =>
          rw [obeyed_of_some hd] at hih ⊢
          simp only
          rw [if_pos (hp control List.mem_cons_self on hd)]
          exact hih

/-- A request succeeds if and only if the listener sets agree to each of its parts. -/
theorem fst_switchedControls_iff (hn : controls.Nodup) :
  (switchedControls v w mask value controls m).1 = .ok () ↔
    ∀ k ∈ controls, ∀ on, k.demand? mask value = some on → m.Permits v w k on
  := by
  constructor
  · intro hok
    induction controls generalizing m with
    | nil =>
        intro k hk
        exact absurd hk List.not_mem_nil
    | cons control controls ih =>
        obtain ⟨hcontrol, hn⟩ := List.nodup_cons.mp hn
        have hhead : (switchedControls v w mask value controls
              (m.obeyed v w mask value control)).1 = .ok () ∧
            ∀ on, control.demand? mask value = some on → m.Permits v w control on := by
          rw [switchedControls] at hok
          cases hd : control.demand? mask value with
          | none =>
              rw [hd] at hok
              rw [obeyed_of_none hd]
              exact ⟨hok, fun on h => absurd h (Option.some_ne_none on).symm⟩
          | some on =>
              rw [hd] at hok
              rw [obeyed_of_some hd]
              simp only at hok
              split at hok
              · rename_i hp
                refine ⟨hok, ?_⟩
                rintro _ ⟨⟩
                exact hp
              · cases hok
        intro k hk on hd
        rcases List.mem_cons.mp hk with rfl | hrest
        · exact hhead.2 on hd
        · rw [← permits_obeyed_of_ne]
          · exact ih hn hhead.1 k hrest on hd
          · rintro rfl
            exact hcontrol hrest
  · intro hp
    rw [switchedControls_of_permits hn hp]

/-! ### Observations -/

/-- What every part of a request keeps, the whole request keeps. -/
theorem foldl_obeyed_keeps {I : Machine → Prop}
    (hI : ∀ k ∈ controls, ∀ l, I l → I (l.obeyed v w mask value k)) :
  ∀ {m : Machine}, I m → I (controls.foldl (obeyed v w mask value) m)
  := by
  induction controls with
  | nil =>
      intro m hm
      exact hm
  | cons control controls ih =>
      intro m hm
      rw [List.foldl_cons]
      apply ih
      · intro k hk
        exact hI k (List.mem_cons_of_mem control hk)
      · exact hI control List.mem_cons_self m hm

/-- An observation that depends on one control only changes when the request comes to it. -/
theorem observe_foldl_obeyed {β : Type} {f : Machine → β} {I : Machine → Prop}
    (hn : controls.Nodup) (hk : k ∈ controls)
    (hI : ∀ k' ∈ controls, ∀ l, I l → I (l.obeyed v w mask value k'))
    (hf : ∀ k' ∈ controls, k' ≠ k → ∀ l, I l → f (l.obeyed v w mask value k') = f l)
    (hm : I m) :
  ∃ l, I l ∧ f l = f m ∧
    f (controls.foldl (obeyed v w mask value) m) = f (l.obeyed v w mask value k)
  := by
  obtain ⟨before, rest, rfl⟩ := List.append_of_mem hk
  have hkeeps : ∀ ks ⊆ before ++ k :: rest, k ∉ ks → ∀ {l}, I l →
      I (ks.foldl (obeyed v w mask value) l) ∧
        f (ks.foldl (obeyed v w mask value) l) = f l := by
    intro ks hks hnot l hl
    apply foldl_obeyed_keeps (I := fun l' => I l' ∧ f l' = f l) _ ⟨hl, rfl⟩
    rintro k' hk' l' ⟨hl', he⟩
    have hne : k' ≠ k := by
      rintro rfl
      exact hnot hk'
    exact ⟨hI k' (hks hk') l' hl', (hf k' (hks hk') hne l' hl').trans he⟩
  have hbefore : k ∉ before := by
    intro hb
    exact (List.disjoint_of_nodup_append hn) hb List.mem_cons_self
  have hrest : k ∉ rest := (List.nodup_cons.mp (List.nodup_append.mp hn).2.1).1
  obtain ⟨hl, he⟩ := hkeeps before (List.subset_append_left _ _) hbefore hm
  refine ⟨before.foldl (obeyed v w mask value) m, hl, he, ?_⟩
  rw [List.foldl_append, List.foldl_cons]
  apply (hkeeps rest _ hrest _).2
  · intro k' hk'
    exact List.mem_append_right _ (List.mem_cons_of_mem k hk')
  · exact hI k hk _ hl

end Machine

end ExitRelay
