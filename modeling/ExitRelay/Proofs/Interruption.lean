import ExitRelay.Proofs.Switching

/-!
# Requests that stop halfway

A request to switch controls of a target stops at the lowest control for which the listener
sets refuse it.  It is not without effect then.  The controls below have been switched as a
request for them alone would have switched them.  The control itself has been switched too,
and an event that it caused has been settled, but every list of listeners is as the controls
below have left it.  The controls above have not been touched.
-/

namespace ExitRelay

/-- The controls of a field come from the lowest bit up. -/
theorem ControlField.pairwise_controls (field : ControlField) :
  field.controls.Pairwise fun k l => k.position < l.position
  := by
  cases field <;> decide

/-- A mask that is cut at a position asks nothing of the controls from there up. -/
theorem Control.demand?_slice (k : Control) (mask value : UInt64) (i : Nat) :
  k.demand? (Word.slice mask 0 i) value =
    if k.position < i then k.demand? mask value else none
  := by
  rw [demand?, demand?, Word.bit_slice, Nat.zero_add]
  by_cases h : k.position < i
  · rw [if_pos h, decide_eq_true h, Bool.true_and]
  · rw [if_neg h, decide_eq_false h, Bool.false_and, if_neg Bool.false_ne_true]

namespace VCpu

/-- The processor with another mask in the register that selects the controls of a request. -/
def masked (mask : UInt64) (c : VCpu) : VCpu :=
  c.assigned fun regs => { regs with r14 := mask }

/-- The processor `d` is the processor `c` after a control has been switched, and an event of
it has been settled if there was one that the control had caused. -/
structure Flipped (k : Control) (on settled : Bool) (c d : VCpu) : Prop
    extends AlikeBut k.field c d where
  bits : ∀ i, i < 64 → Word.bit (d.vmcs.read k.field.encoding) i =
    if i = k.position then on else Word.bit (c.vmcs.read k.field.encoding) i
  rip : d.vmcs.read Field.rip =
    if settled ∧ k = .cr3LoadExiting then c.vmcs.read Field.rip + VcpuM.instructionLength
    else c.vmcs.read Field.rip
  paused : d.paused = if settled then false else c.paused

theorem flipped (k : Control) (on settled : Bool) (c : VCpu) :
  Flipped k on settled c ((c.switched k on).freed k settled)
  := by
  have hrip : (c.switched k on).vmcs.read Field.rip = c.vmcs.read Field.rip :=
    read_switched k.field.encoding_ne_rip.symm
  refine ⟨(AlikeBut.refl k.field c).toggled rfl on settled, ?_, ?_, ?_⟩
  · intro i hi
    rw [read_freed k.field.encoding_ne_rip, bit_switched hi]
  · rw [← hrip]
    cases settled with
    | false => rfl
    | true =>
        cases k with
        | cr3LoadExiting => exact Vmcs.read_write_self _ _ _
        | monitorTrapFlag => rfl
        | eptViolation => rfl
  · cases settled with
    | false => rfl
    | true => rfl

end VCpu

namespace Machine

variable {m n : Machine} {u v w x : Vpid} {c : VCpu} {k : Control} {mask value : UInt64}
  {field : ControlField} {controls before after : List Control} {on : Bool} {s : Status}

/-- The machine with another mask in the registers of the caller. -/
def masked (m : Machine) (caller : Vpid) (mask : UInt64) : Machine :=
  m.mapVCpu caller (VCpu.masked mask)

/-- A request has stopped at a control, after the controls below have left the machine `l`. -/
structure Stopped (l : Machine) (caller target : Vpid) (k : Control) (on : Bool) (n : Machine) :
    Prop where
  frame : (n.config, n.loaded, n.current, n.clock) = (l.config, l.loaded, l.current, l.clock)
  processors : ∀ x, x ≠ target → n.vcpu? x = l.vcpu? x
  /-- The control has been switched, and an event that it caused has been settled. -/
  processor : ∀ t, l.vcpu? target = some t → ∃ t', n.vcpu? target = some t' ∧
    VCpu.Flipped k on (!on && l.detains caller target k) t t'
  /-- An event that is settled is pending no more. -/
  slot : n.slot caller =
    if !on && l.detains caller target k then (l.slot caller).tail else l.slot caller
  slots : ∀ x, x ≠ caller → n.slot x = l.slot x
  /-- No list of listeners has changed. -/
  members : ∀ x a, (n.listeners x a).members = (l.listeners x a).members
  listeners : ∀ x a, x ≠ target ∨ k.covers a = false → n.listeners x a = l.listeners x a
  brokers : ∀ x, (n.broker? x).map (fun b => (b.cpl, b.deadline)) =
    (l.broker? x).map fun b => (b.cpl, b.deadline)

/-! ### The control that is refused -/

/-- A control that the listener sets refuse is switched, but no list of listeners changes. -/
theorem members_toggled_of_refused (hw : m.isRegistered w = true) (hp : ¬ m.Permits v w k on)
    (x : Vpid) (a : ExitReason) :
  ((m.toggled v w k on).listeners x a).members = (m.listeners x a).members
  := by
  by_cases hx : x = w
  · obtain ⟨b, hb⟩ := isRegistered_iff_broker?.mp hw
    rw [hx, listeners_of_broker? hb]
    cases on with
    | true =>
        rw [permits_on_iff hb, Registry.fst_subscribe_eq_none_iff] at hp
        rw [listeners_toggled_on hb]
        apply Registry.members_subscribe_of_not_open hp
    | false =>
        rw [permits_off_iff hb, Registry.fst_unsubscribe_eq_none_iff] at hp
        rw [listeners_toggled_off hb, Registry.unsubscribe_of_notMem hp]
  · rw [listeners_toggled_of_ne hx]

/-- What a refused control leaves. -/
theorem stopped_toggled (hw : m.isRegistered w = true) (hp : ¬ m.Permits v w k on) :
  m.Stopped v w k on (m.toggled v w k on)
  := by
  constructor
  · apply frame_toggled
  · intro x hx
    apply vcpu?_toggled_of_ne hx
  · intro t ht
    refine ⟨(t.switched k on).freed k (!on && m.detains v w k), ?_, VCpu.flipped k on _ t⟩
    rw [vcpu?_toggled, ht]
    rfl
  · rw [slot_toggled]
    simp only [true_and]
  · intro x hx
    rw [slot_toggled, if_neg fun h => hx h.1]
  · apply members_toggled_of_refused hw hp
  · rintro x a (hx | ha)
    · apply listeners_toggled_of_ne hx
    · apply listeners_toggled_of_uncovered ha
  · intro x
    apply broker?_toggled

theorem Stopped.withJournal {l : Machine} (h : l.Stopped v w k on n) (i j : Journal) :
  (l.withJournal i).Stopped v w k on (n.withJournal j)
  := ⟨h.frame, h.processors, h.processor, h.slot, h.slots, h.members, h.listeners, h.brokers⟩

/-- A request that fails stops at a control that the listener sets refuse, after they have
agreed to every part of it before. -/
theorem exists_refused_of_switchedControls (hn : controls.Nodup) :
  ∀ {m : Machine}, switchedControls v w mask value controls m = (.error s, n) →
    ∃ before k after on, controls = before ++ k :: after ∧ k.demand? mask value = some on ∧
      (∀ k' ∈ before, ∀ b, k'.demand? mask value = some b → m.Permits v w k' b) ∧
      ¬ m.Permits v w k on ∧ s = Status.refusal on ∧
      n = (before.foldl (obeyed v w mask value) m).toggled v w k on
  := by
  induction controls with
  | nil =>
      intro m h
      cases congrArg Prod.fst h
  | cons control controls ih =>
      intro m h
      obtain ⟨hcontrol, hn⟩ := List.nodup_cons.mp hn
      by_cases hp : ∀ b, control.demand? mask value = some b → m.Permits v w control b
      · -- the request gets past the first control, and stops at a later one
        have hrest : switchedControls v w mask value controls
            (m.obeyed v w mask value control) = (.error s, n) := by
          rw [switchedControls] at h
          cases hd : control.demand? mask value with
          | none =>
              rw [hd] at h
              rw [obeyed_of_none hd]
              exact h
          | some b =>
              rw [hd] at h
              rw [obeyed_of_some hd]
              simp only at h
              rw [if_pos (hp b hd)] at h
              exact h
        obtain ⟨before, k, after, on, rfl, hd, hbefore, hk, hs, hl⟩ := ih hn hrest
        have hne : ∀ k' ∈ before ++ k :: after, control ≠ k' := by
          rintro k' hk' rfl
          exact hcontrol hk'
        refine ⟨control :: before, k, after, on, rfl, hd, ?_, ?_, hs, hl⟩
        · intro k' hk' b hb
          rcases List.mem_cons.mp hk' with rfl | hk'
          · exact hp b hb
          · rw [← permits_obeyed_of_ne (hne k' (List.mem_append_left _ hk'))]
            exact hbefore k' hk' b hb
        · rw [← permits_obeyed_of_ne (hne k (List.mem_append_right _ List.mem_cons_self))]
          exact hk
      · -- the first control is the one that is refused
        simp only [not_forall] at hp
        obtain ⟨on, hd, hp⟩ := hp
        rw [switchedControls, hd] at h
        simp only at h
        rw [if_neg hp] at h
        obtain ⟨hs, rfl⟩ := Prod.mk.inj h
        refine ⟨[], control, controls, on, rfl, hd, ?_, hp, (Except.error.inj hs).symm, rfl⟩
        intro k' hk'
        exact absurd hk' List.not_mem_nil

theorem switchedControls_of_controlsSet {regs : Registers}
    (hmask : regs.r14 &&& ~~~field.allowance = 0)
    (h : m.controlsSet v w regs field = (.error s, n)) :
  switchedControls v w regs.r14 regs.r13 field.controls m = (.error s, n)
  := by
  rw [controlsSet, if_pos hmask] at h
  generalize switchedControls v w regs.r14 regs.r13 field.controls m = p at h
  obtain ⟨r, l⟩ := p
  obtain ⟨hr, rfl⟩ := Prod.mk.inj h
  cases r with
  | ok => cases hr
  | error => rw [Except.error.inj hr]

/-! ### The controls below and above -/

/-- An event has been caused by one control only. -/
theorem detains_eq_false_of_ne {k' : Control} (hne : k' ≠ k) (h : m.detains v w k = true) :
  m.detains v w k' = false
  := by
  obtain ⟨e, he, -, hc⟩ := detains_iff.mp h
  rw [← Bool.not_eq_true, detains_iff]
  rintro ⟨e', he', -, hc'⟩
  obtain rfl := Option.some.inj (he.symm.trans he')
  rw [← Control.ofReason?_eq_some_iff, Control.ofReason?_eq_some_iff.mpr hc] at hc'
  exact hne (Option.some.inj hc').symm

theorem isRegistered_foldl_obeyed :
  (controls.foldl (obeyed v w mask value) m).isRegistered x = m.isRegistered x
  := by
  apply foldl_obeyed_keeps (I := fun l => l.isRegistered x = m.isRegistered x) _ rfl
  intro k _ l hl
  rw [isRegistered_obeyed, hl]

/-- A request changes processors and brokers only. -/
theorem frame_foldl_obeyed :
  ((controls.foldl (obeyed v w mask value) m).config,
    (controls.foldl (obeyed v w mask value) m).loaded,
    (controls.foldl (obeyed v w mask value) m).current,
    (controls.foldl (obeyed v w mask value) m).clock) = (m.config, m.loaded, m.current, m.clock)
  := by
  apply foldl_obeyed_keeps (I := fun l => (l.config, l.loaded, l.current, l.clock) =
    (m.config, m.loaded, m.current, m.clock)) _ rfl
  intro k _ l hl
  rw [obeyed]
  split
  · exact hl
  · rw [frame_toggled, hl]

section

variable (hcontrols : field.controls = before ++ k :: after)

include hcontrols

theorem position_lt_of_mem_before {k' : Control} (h : k' ∈ before) :
  k'.position < k.position
  := by
  have hsorted := field.pairwise_controls
  rw [hcontrols] at hsorted
  exact (List.pairwise_append.mp hsorted).2.2 k' h k List.mem_cons_self

theorem position_lt_of_mem_after {k' : Control} (h : k' ∈ after) :
  k.position < k'.position
  := by
  have hsorted := field.pairwise_controls
  rw [hcontrols] at hsorted
  exact (List.pairwise_cons.mp (List.pairwise_append.mp hsorted).2.1).1 k' h

theorem mem_before_iff {k' : Control} :
  k' ∈ before ↔ k'.field = field ∧ k'.position < k.position
  := by
  constructor
  · intro h
    refine ⟨?_, position_lt_of_mem_before hcontrols h⟩
    rw [← ControlField.mem_controls, hcontrols]
    exact List.mem_append_left _ h
  · rintro ⟨hfield, hlt⟩
    rw [← ControlField.mem_controls, hcontrols, List.mem_append, List.mem_cons] at hfield
    rcases hfield with h | rfl | h
    · exact h
    · exact absurd hlt (Nat.lt_irrefl _)
    · exact absurd (position_lt_of_mem_after hcontrols h) (Nat.lt_asymm hlt)

theorem nodup_before :
  before.Nodup ∧ k ∉ before
  := by
  have hn := field.nodup_controls
  rw [hcontrols] at hn
  refine ⟨(List.nodup_append.mp hn).1, ?_⟩
  intro hk
  exact absurd (position_lt_of_mem_before hcontrols hk) (Nat.lt_irrefl _)

/-- The controls below have no say in what the listener sets decide about a control. -/
theorem permits_foldl_before (mask value : UInt64) (on : Bool) :
  (before.foldl (obeyed v w mask value) m).Permits v w k on ↔ m.Permits v w k on
  := by
  apply foldl_obeyed_keeps (I := fun l => l.Permits v w k on ↔ m.Permits v w k on) _ Iff.rfl
  intro k' hk' l hl
  rw [permits_obeyed_of_ne _, hl]
  rintro rfl
  exact (nodup_before hcontrols).2 hk'

/-- A request whose mask is cut at a control is a request for the controls below. -/
theorem foldl_obeyed_slice (v w : Vpid) (mask value : UInt64) (m : Machine) :
  field.controls.foldl (obeyed v w (Word.slice mask 0 k.position) value) m =
    before.foldl (obeyed v w mask value) m
  := by
  have hbefore : before.foldl (obeyed v w (Word.slice mask 0 k.position) value) m =
      before.foldl (obeyed v w mask value) m := by
    apply List.foldl_ext
    intro l k' hk'
    rw [obeyed, Control.demand?_slice, if_pos (position_lt_of_mem_before hcontrols hk'), ← obeyed]
  rw [hcontrols, List.foldl_append, hbefore]
  apply foldl_obeyed_keeps (I := fun l => l = before.foldl (obeyed v w mask value) m) _ rfl
  intro k' hk' l hl
  rw [obeyed_of_none, hl]
  rw [Control.demand?_slice, if_neg]
  rcases List.mem_cons.mp hk' with rfl | hk'
  · apply Nat.lt_irrefl
  · apply Nat.lt_asymm (position_lt_of_mem_after hcontrols hk')

/-- The controls below have nothing to do with a control above. -/
theorem bit_listeners_foldl_before {k' : Control} (hw : m.isRegistered w = true)
    (hk' : k'.field = field) (hlt : k.position < k'.position) :
  Word.bit ((before.foldl (obeyed v w mask value) m).fieldOf w field.encoding) k'.position =
      Word.bit (m.fieldOf w field.encoding) k'.position ∧
    ∀ a, k'.covers a = true →
      (before.foldl (obeyed v w mask value) m).listeners w a = m.listeners w a
  := by
  have hi : k'.position < 64 := by
    cases k' <;> decide
  have hne : ∀ k₁ ∈ before, k'.position ≠ k₁.position := by
    intro k₁ hk₁ he
    have hlt₁ := position_lt_of_mem_before hcontrols hk₁
    rw [← he] at hlt₁
    exact absurd hlt (Nat.lt_asymm hlt₁)
  have hfield : ∀ k₁ ∈ before, k₁.field = field := fun k₁ hk₁ =>
    ((mem_before_iff hcontrols).mp hk₁).1
  constructor
  · rw [bit_fieldOf_foldl (nodup_before hcontrols).1 hfield hi hw, if_neg]
    rintro ⟨⟨k₁, hk₁, he⟩, -⟩
    exact hne k₁ hk₁ he
  · intro a ha
    apply foldl_obeyed_keeps (I := fun l => l.listeners w a = m.listeners w a) _ rfl
    intro k₁ hk₁ l hl
    rw [obeyed]
    split
    · exact hl
    · rw [listeners_toggled_of_covered _ ha, hl]
      rintro rfl
      exact hne k₁ hk₁ rfl

/-- An event that a control has caused is not settled before the request comes to the
control. -/
theorem slot_foldl_before (mask value : UInt64) (h : m.detains v w k = true) :
  (before.foldl (obeyed v w mask value) m).slot v = m.slot v
  := by
  apply foldl_obeyed_keeps (I := fun l => l.slot v = m.slot v) _ rfl
  intro k' hk' l hl
  rw [obeyed]
  split
  · exact hl
  · have hne : k' ≠ k := by
      rintro rfl
      exact (nodup_before hcontrols).2 hk'
    rw [slot_toggled, detains_congr hl, detains_eq_false_of_ne hne h, Bool.and_false,
      if_neg fun h => Bool.false_ne_true h.2, hl]

end

/-! ### The mask in the registers -/

section

variable {f : VCpu → VCpu}
  (hswitched : ∀ (k : Control) on c, (f c).switched k on = f (c.switched k on))
  (hfreed : ∀ (k : Control) c, ((f c).fellBack k).withPaused false =
    f ((c.fellBack k).withPaused false))

include hswitched hfreed

/-- A change of a processor that has nothing to do with its field, its stand and its place with
the scheduler can be made before or after a control is switched. -/
theorem toggled_mapVCpu (on : Bool) :
  (m.mapVCpu x f).toggled v w k on = (m.toggled v w k on).mapVCpu x f
  := by
  have hsettled : ∀ l : Machine,
      (l.mapVCpu x f).settled v w k = (l.settled v w k).mapVCpu x f := by
    intro l
    rw [settled, settled, detains_congr (slot_mapVCpu _)]
    split
    · rw [mapBroker_mapVCpu]
      apply mapVCpu_comm
      apply hfreed
    · rfl
  rw [toggled, toggled]
  split
  · rw [mapVCpu_comm (hswitched k true), mapBroker_mapVCpu]
  · rw [mapVCpu_comm (hswitched k false), hsettled, mapBroker_mapVCpu]

theorem foldl_obeyed_mapVCpu (controls : List Control) :
  ∀ {m : Machine}, controls.foldl (obeyed v w mask value) (m.mapVCpu x f) =
    (controls.foldl (obeyed v w mask value) m).mapVCpu x f
  := by
  induction controls with
  | nil =>
      intro m
      rfl
  | cons control controls ih =>
      intro m
      have hone : (m.mapVCpu x f).obeyed v w mask value control =
          (m.obeyed v w mask value control).mapVCpu x f := by
        rw [obeyed, obeyed]
        split
        · rfl
        · apply toggled_mapVCpu hswitched hfreed
      rw [List.foldl_cons, List.foldl_cons, hone, ih]

end

/-- The mask in the registers is of no concern once it has been read. -/
theorem foldl_obeyed_masked (r : UInt64) (m : Machine) :
  controls.foldl (obeyed v w mask value) (m.masked v r) =
    (controls.foldl (obeyed v w mask value) m).masked v r
  := by
  apply foldl_obeyed_mapVCpu
  · intro k on c
    rfl
  · intro k c
    cases k <;> rfl

theorem Guarantees.masked {P : Faults → Prop} (h : m.Guarantees P) (r : UInt64) :
  (m.masked v r).Guarantees P
  := h.mapVCpu (VCpu.faults_assigned _) v

theorem vcpu?_masked (hc : m.vcpu? v = some c) (r : UInt64) :
  (m.masked v r).vcpu? v = some (c.masked r)
  := vcpu?_mapVCpu_of_some hc (VCpu.masked r)

theorem listeners_masked (r : UInt64) (a : ExitReason) :
  (m.masked v r).listeners w a = m.listeners w a
  := listeners_mapVCpu _ a

theorem occupied_masked (r : UInt64) :
  (m.masked v r).occupied w = (m.occupied w).masked v r
  := by
  rw [occupied, masked, loaded_mapVCpu, occupied]
  split
  · rfl
  · rfl

theorem Agrees.masked (h : m.Agrees) (r : UInt64) :
  (m.masked v r).Agrees
  := h.mapVCpu v _

/-- The mask that stood in the registers before is put back. -/
theorem masked_masked (hc : m.vcpu? v = some c) (r : UInt64) :
  ((controls.foldl (obeyed v w mask value) m).masked v r).masked v c.regs.r14 =
    controls.foldl (obeyed v w mask value) m
  := by
  have hback : (m.masked v r).masked v c.regs.r14 = m := by
    rw [masked, masked, mapVCpu_mapVCpu]
    exact mapVCpu_eq_self hc rfl
  rw [← foldl_obeyed_masked, ← foldl_obeyed_masked, hback]

theorem fieldOf_masked (r : UInt64) (f : Field) :
  (m.masked v r).fieldOf w f = m.fieldOf w f
  := by
  rw [fieldOf, masked, vcpu?_mapVCpu]
  split
  · rw [Option.map_map]
    rfl
  · rfl

/-- The machine `l` is what a request has left of the machine `m` when it comes to a control. -/
structure Lowered (caller target : Vpid) (c : VCpu) (field : ControlField) (k : Control)
    (m l : Machine) : Prop where
  /-- A request for the controls below alone leaves the same but for the mask. -/
  request : ∃ j, setControls caller target field
      (m.masked caller (Word.slice c.regs.r14 0 k.position)) =
    .ok (m.fieldOf target field.encoding)
      ((l.masked caller (Word.slice c.regs.r14 0 k.position)).withJournal j)
  masked : ∀ r, (l.masked caller r).masked caller c.regs.r14 = l
  registered : l.isRegistered target = true
  permits : ∀ on, l.Permits caller target k on ↔ m.Permits caller target k on
  slot : m.detains caller target k = true → l.slot caller = m.slot caller
  above : ∀ k' : Control, k'.field = field → k.position < k'.position →
    Word.bit (l.fieldOf target field.encoding) k'.position =
        Word.bit (m.fieldOf target field.encoding) k'.position ∧
      ∀ a, k'.covers a = true → l.listeners target a = m.listeners target a
  loaded : ∀ u, m.loaded = some u → l.loaded = some u ∧ l.current = some u

section

variable (h : m.Agrees) (hf : m.Flawless) (hc : m.vcpu? v = some c)
  (hw : m.isRegistered w = true) (hmask : c.regs.r14 &&& ~~~field.allowance = 0)

include h hf hc hw hmask

/-- A request for the controls below succeeds if the listener sets agree to it. -/
theorem setControls_masked_slice (hcontrols : field.controls = before ++ k :: after)
    (hp : ∀ k' ∈ before, ∀ b, k'.demand? c.regs.r14 c.regs.r13 = some b →
      m.Permits v w k' b) :
  ∃ j, setControls v w field (m.masked v (Word.slice c.regs.r14 0 k.position)) =
    .ok (m.fieldOf w field.encoding)
      (((before.foldl (obeyed v w c.regs.r14 c.regs.r13) (m.occupied w)).masked v
        (Word.slice c.regs.r14 0 k.position)).withJournal j)
  := by
  have hallowed : Word.slice c.regs.r14 0 k.position &&& ~~~field.allowance = 0 := by
    rw [Word.and_not_eq_zero_iff] at hmask ⊢
    intro i hi hbit
    rw [Word.bit_slice, Nat.zero_add, Bool.and_eq_true] at hbit
    exact hmask i hi hbit.2
  have hagreed : ∀ k' ∈ field.controls, ∀ b,
      k'.demand? (Word.slice c.regs.r14 0 k.position) c.regs.r13 = some b →
        (m.masked v (Word.slice c.regs.r14 0 k.position)).Permits v w k' b := by
    intro k' hk' b hd
    rw [Control.demand?_slice, Option.ite_none_right_eq_some] at hd
    rw [permits_congr fun a _ => listeners_masked _ a]
    exact hp k' ((mem_before_iff hcontrols).mpr ⟨ControlField.mem_controls.mp hk', hd.1⟩) b hd.2
  obtain ⟨j, hj⟩ := setControls_of_permits (h.masked _) (hf.masked _)
    (vcpu?_masked hc (Word.slice c.regs.r14 0 k.position)) ((isRegistered_mapVCpu _).trans hw)
    hallowed hagreed
  use j
  rw [hj, fieldOf_masked, occupied_masked, foldl_obeyed_masked]
  change EStateM.Result.ok _ ((((field.controls.foldl
    (obeyed v w (Word.slice c.regs.r14 0 k.position) c.regs.r13) _).masked v _).withJournal j)) = _
  rw [foldl_obeyed_slice hcontrols]

/-- What the controls below leave. -/
theorem lowered_foldl_before (hcontrols : field.controls = before ++ k :: after)
    (hp : ∀ k' ∈ before, ∀ b, k'.demand? c.regs.r14 c.regs.r13 = some b →
      m.Permits v w k' b) :
  Lowered v w c field k m (before.foldl (obeyed v w c.regs.r14 c.regs.r13) (m.occupied w))
  := by
  constructor
  · apply setControls_masked_slice h hf hc hw hmask hcontrols hp
  · apply masked_masked (vcpu?_occupied.trans hc)
  · rw [isRegistered_foldl_obeyed, isRegistered_occupied, hw]
  · intro on
    rw [permits_foldl_before hcontrols, permits_occupied]
  · intro hd
    rw [slot_foldl_before hcontrols, slot_occupied]
    rw [detains_congr slot_occupied, hd]
  · intro k' hfield hlt
    rw [← fieldOf_occupied (m := m) (w := w)]
    simp only [← listeners_occupied (m := m) (w := w)]
    apply bit_listeners_foldl_before hcontrols (isRegistered_occupied.trans hw) hfield hlt
  · intro u hu
    have hloaded : (before.foldl (obeyed v w c.regs.r14 c.regs.r13) (m.occupied w)).loaded =
        (m.occupied w).loaded := congrArg (·.2.1) frame_foldl_obeyed
    have hcurrent : (before.foldl (obeyed v w c.regs.r14 c.regs.r13) (m.occupied w)).current =
        (m.occupied w).current := congrArg (·.2.2.1) frame_foldl_obeyed
    rw [hloaded, hcurrent, occupied_of_loaded hu]
    exact ⟨hu, (h u hu).2⟩

/-- Where a request stops, and what it leaves. -/
theorem exists_refused_of_setControls (hn : setControls v w field m = .error s n) :
  ∃ k on l j, k.field = field ∧ k.demand? c.regs.r14 c.regs.r13 = some on ∧
    (∀ k' : Control, k'.field = field → k'.position < k.position → ∀ b,
      k'.demand? c.regs.r14 c.regs.r13 = some b → m.Permits v w k' b) ∧
    ¬ m.Permits v w k on ∧ s = Status.refusal on ∧
    Lowered v w c field k m l ∧ n = (l.toggled v w k on).withJournal j
  := by
  obtain ⟨hr, j, rfl⟩ := (concludes_setControls_of_allowed h hf hc hw hmask).of_error hn
  obtain ⟨before, k, after, on, hcontrols, hd, hbefore, hk, hs, hl⟩ :=
    exists_refused_of_switchedControls field.nodup_controls
      (switchedControls_of_controlsSet hmask (Prod.ext hr rfl))
  have hlower : ∀ k' ∈ before, ∀ b, k'.demand? c.regs.r14 c.regs.r13 = some b →
      m.Permits v w k' b := fun k' hk' b hb => permits_occupied.mp (hbefore k' hk' b hb)
  refine ⟨k, on, _, j, ?_, hd, ?_, fun hp => hk (permits_occupied.mpr hp), hs,
    lowered_foldl_before h hf hc hw hmask hcontrols hlower, congrArg (withJournal · j) hl⟩
  · rw [← ControlField.mem_controls, hcontrols]
    exact List.mem_append_right _ List.mem_cons_self
  · intro k' hfield hlt
    exact hlower k' ((mem_before_iff hcontrols).mpr ⟨hfield, hlt⟩)

end

/-- A request that selects only bits that may be changed and fails has stopped at the lowest
control that the listener sets refuse.  The controls below are as a request for them alone,
which succeeds, would have left them.  The refused control has been switched, and an event
that it caused has been settled, but no list of listeners has changed by it.  The controls
above have not been touched.  What was loaded is loaded again. -/
theorem request_stops (h : m.Agrees) (hf : m.Flawless) (hc : m.vcpu? v = some c)
    (hw : m.isRegistered w = true)
    (hmask : ∀ i, i < 64 → Word.bit c.regs.r14 i = true → Word.bit field.allowance i = true)
    (hn : setControls v w field m = .error s n) :
  ∃ k : Control, k.field = field ∧ Word.bit c.regs.r14 k.position = true ∧
    ¬ m.Permits v w k (Word.bit c.regs.r13 k.position) ∧
    (∀ k' : Control, k'.field = field → Word.bit c.regs.r14 k'.position = true →
      k'.position < k.position → m.Permits v w k' (Word.bit c.regs.r13 k'.position)) ∧
    (∃ l, setControls v w field (m.masked v (Word.slice c.regs.r14 0 k.position)) =
        .ok (m.fieldOf w field.encoding) l ∧
      (l.masked v c.regs.r14).Stopped v w k (Word.bit c.regs.r13 k.position) n) ∧
    (Word.bit c.regs.r13 k.position = false → m.detains v w k = true →
      n.slot v = (m.slot v).tail ∧ n.isPaused w = false) ∧
    (∀ k' : Control, k'.field = field → k.position < k'.position →
      Word.bit (n.fieldOf w field.encoding) k'.position =
          Word.bit (m.fieldOf w field.encoding) k'.position ∧
        ∀ a, k'.covers a = true → n.listeners w a = m.listeners w a) ∧
    s = (if Word.bit c.regs.r13 k.position then Status.invalidExitAlreadyListening
      else Status.invalidExitNoListener) ∧
    ∀ u, m.loaded = some u → n.loaded = some u ∧ n.current = some u
  := by
  rw [← Word.and_not_eq_zero_iff] at hmask
  obtain ⟨k, on, l, j, hfield, hd, hlower, hk, rfl, hl, rfl⟩ :=
    exists_refused_of_setControls h hf hc hw hmask hn
  obtain ⟨hbit, rfl⟩ := demand?_eq_some_iff.mp hd
  have hstopped := stopped_toggled hl.registered ((hl.permits _).not.mpr hk)
  refine ⟨k, hfield, hbit, hk, ?_, ?_, ?_, ?_, rfl, ?_⟩
  · intro k' hfield' hbit' hlt
    exact hlower k' hfield' hlt _ (demand?_eq_some_iff.mpr ⟨hbit', rfl⟩)
  · obtain ⟨i, hi⟩ := hl.request
    refine ⟨_, hi, ?_⟩
    have hback := hl.masked (Word.slice c.regs.r14 0 k.position)
    have hstopped' : ((l.masked v (Word.slice c.regs.r14 0 k.position)).masked v
        c.regs.r14).Stopped v w k (Word.bit c.regs.r13 k.position)
        (l.toggled v w k (Word.bit c.regs.r13 k.position)) := by
      rwa [hback]
    exact hstopped'.withJournal i j
  · intro hoff hd
    have hdetains : (!Word.bit c.regs.r13 k.position && l.detains v w k) = true := by
      rw [hoff, detains_congr (hl.slot hd), hd]
      rfl
    obtain ⟨t, ht⟩ := isRegistered_iff_vcpu?.mp hl.registered
    obtain ⟨t', ht', hflipped⟩ := hstopped.processor t ht
    constructor
    · rw [← hl.slot hd, slot_withJournal, hstopped.slot, if_pos hdetains]
    · rw [isPaused_withJournal, isPaused_of_vcpu? ht', hflipped.paused, if_pos hdetains]
  · intro k' hfield' hlt
    obtain ⟨hbit', hlisteners⟩ := hl.above k' hfield' hlt
    have hi : k'.position < 64 := by
      cases k' <;> decide
    have hne : k ≠ k' := by
      rintro rfl
      exact Nat.lt_irrefl _ hlt
    constructor
    · rw [← hbit', fieldOf_withJournal, ← hfield, bit_fieldOf_toggled hl.registered hi,
        if_neg (Nat.ne_of_gt hlt)]
    · intro a ha
      rw [listeners_withJournal, listeners_toggled_of_covered hne ha, hlisteners a ha]
  · intro u hu
    obtain ⟨hloaded, hcurrent⟩ := hl.loaded u hu
    have hframe := hstopped.frame
    rw [hloaded, hcurrent] at hframe
    exact ⟨congrArg (·.2.1) hframe, congrArg (·.2.2.1) hframe⟩

/-- A listener asks for loads of `cr3` and gives up single steps, for which it does not listen
although an event of them is pending for it. -/
theorem request_stops_at_monitorTrapFlag :
  let target : VCpu := {
    vmcs := (({} : Vmcs).write Field.rip 0x1000).write Field.primaryControls 0x8000000
    paused := true }
  let listening : Registry := {
    cr3Load := { members := [3], cursor := some 0 }
    monitorTrap := { members := [3], cursor := some 0 } }
  let caller : VCpu := { parent := some 1, regs := { r13 := 0x8000, r14 := 0x8008000 } }
  let waiting : Broker := { pending := { events := [⟨1, .monitorTrap, 0, 0⟩] } }
  let m : Machine := (({ loaded := some 1, current := some 1 } : Machine).hosting 1
    ⟨target, { registry := listening }⟩).hosting 2 ⟨caller, waiting⟩
  ∃ n l, setControls 2 1 .primary m = .error .invalidExitNoListener n ∧
    setControls 2 1 .primary (m.masked 2 0x8000) = .ok 0x8000000 l ∧
    (l.masked 2 0x8008000).Stopped 2 1 .monitorTrapFlag false n ∧ n.slot 2 = [] ∧
    n.isPaused 1 = false ∧ n.loaded = some 1
  := by
  intro target listening caller waiting m
  have hf : m.Flawless := by
    apply Flawless.hosting _ 2 rfl
    apply Flawless.hosting _ 1 rfl
    exact guarantees_of_residents rfl
  have hc : m.vcpu? 2 = some caller := vcpu?_hosting_self _ _ _
  have ht : m.vcpu? 1 = some target :=
    (vcpu?_hosting_of_ne _ _ (by decide)).trans (vcpu?_hosting_self _ _ _)
  have hw : m.isRegistered 1 = true := isRegistered_iff_vcpu?.mpr ⟨target, ht⟩
  have hm : m.Agrees := Holds.agrees ⟨hw, rfl, rfl⟩
  have hallowed : ControlField.primary.allowance = caller.regs.r14 := by decide +kernel
  have hmask : caller.regs.r14 &&& ~~~ControlField.primary.allowance = 0 := by decide +kernel
  have hrefused : ¬ m.Permits 2 1 .monitorTrapFlag false := by decide +kernel
  have hx := concludes_setControls_of_allowed hm hf hc hw hmask
  cases hn : setControls 2 1 .primary m with
  | ok old n =>
      have hp := (fst_controlsSet_iff.mp ⟨old, (hx.of_ok hn).1⟩).2 .monitorTrapFlag
        (by decide) false (by decide +kernel)
      exact absurd (permits_occupied.mp hp) hrefused
  | error s n =>
      obtain ⟨k, hfield, -, hk, -, ⟨l, hl, hstopped⟩, hsettled, -, rfl, hloaded⟩ :=
        request_stops hm hf hc hw (fun i _ hi => by rw [hallowed]; exact hi) hn
      cases k with
      | cr3LoadExiting => exact absurd (by decide +kernel) hk
      | monitorTrapFlag =>
          have hoff : Word.bit caller.regs.r13 Control.monitorTrapFlag.position = false := by
            decide +kernel
          obtain ⟨hslot, hpaused⟩ := hsettled hoff (by decide +kernel)
          have hslice : Word.slice caller.regs.r14 0 Control.monitorTrapFlag.position = 0x8000 := by
            decide +kernel
          rw [hslice, fieldOf_of_vcpu? ht] at hl
          rw [hoff] at hstopped ⊢
          refine ⟨n, l, rfl, hl, hstopped, ?_, hpaused, (hloaded 1 rfl).1⟩
          rw [hslot]
          decide +kernel
      | eptViolation => exact absurd hfield (by decide)

end Machine

end ExitRelay
