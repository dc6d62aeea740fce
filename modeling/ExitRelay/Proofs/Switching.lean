import ExitRelay.Proofs.Toggling

/-!
# Requests that succeed

A request to switch controls of a target succeeds if and only if it selects only bits that
may be changed and the listener sets of the target agree to each of its parts.  What it
leaves can then be told from the request: the selected bits of the field are those of the
value, the caller is the last listener for what was switched on and no listener for what was
switched off, and an event of the target that is pending for the caller is settled if it
was caused by a control that was switched off.
-/

namespace ExitRelay

namespace VCpu

/-- The processor differs from another one at most in the field, in where it stands, and in
whether it is stopped. -/
structure AlikeBut (field : ControlField) (c d : VCpu) : Prop where
  domain : d.domain = c.domain
  parent : d.parent = c.parent
  regs : d.regs = c.regs
  faults : d.faults = c.faults
  read : ∀ f, f ≠ field.encoding → f ≠ Field.rip → d.vmcs.read f = c.vmcs.read f

/-- The processor `d` is the processor `c` after its field has been changed and events of it
have been settled. -/
structure Rewritten (field : ControlField) (mask value : UInt64) (settled : List ExitEvent)
    (c d : VCpu) : Prop extends AlikeBut field c d where
  /-- The bits of the field that the mask selects are those of the value. -/
  bits : d.vmcs.read field.encoding =
    (c.vmcs.read field.encoding &&& ~~~mask) ||| (value &&& mask)
  rip : d.vmcs.read Field.rip =
    if settled.any fun e => e.reason = .cr3Load then
      c.vmcs.read Field.rip + VcpuM.instructionLength
    else c.vmcs.read Field.rip
  paused : d.paused = if settled.isEmpty then c.paused else false

variable {k : Control} {c d : VCpu}

theorem AlikeBut.refl (field : ControlField) (c : VCpu) :
  AlikeBut field c c
  := ⟨rfl, rfl, rfl, rfl, fun _ _ _ => rfl⟩

/-- A control of the field is switched, and the processor may be freed. -/
theorem AlikeBut.toggled {field : ControlField} (h : AlikeBut field c d) (hk : k.field = field)
    (on b : Bool) :
  AlikeBut field c ((d.switched k on).freed k b)
  := by
  have hfreed : ∀ e : VCpu, AlikeBut field e (e.freed k b) := by
    intro e
    constructor
    · cases b <;> cases k <;> rfl
    · cases b <;> cases k <;> rfl
    · cases b <;> cases k <;> rfl
    · cases b <;> cases k <;> rfl
    · intro f _ hf
      exact read_freed hf
  have hd := hfreed (d.switched k on)
  constructor
  · exact hd.domain.trans h.domain
  · exact hd.parent.trans h.parent
  · exact hd.regs.trans h.regs
  · exact hd.faults.trans h.faults
  · intro f hf hr
    rw [hd.read f hf hr, read_switched (by rw [hk]; exact hf), h.read f hf hr]

end VCpu

namespace Machine

variable {m n : Machine} {u v w : Vpid} {c t : VCpu} {k : Control} {mask value : UInt64}
  {field : ControlField} {controls : List Control} {on : Bool}

/-! ### What is left -/

/-- The request settles the event: it is one of the target and was caused by a control that
is switched off. -/
def settles (target : Vpid) (field : ControlField) (mask value : UInt64) (e : ExitEvent) :
    Bool :=
  e.origin = target ∧
    field.controls.any fun k => k.covers e.reason && k.demand? mask value = some false

/-- A request has succeeded which found the target in the state `t`. -/
structure Switched (m : Machine) (caller target : Vpid) (field : ControlField)
    (mask value : UInt64) (t : VCpu) (n : Machine) : Prop where
  /-- What was loaded is loaded again, and no time has passed. -/
  frame : (n.config, n.loaded, n.current, n.clock) = (m.config, m.loaded, m.current, m.clock)
  processors : ∀ x, x ≠ target → n.vcpu? x = m.vcpu? x
  processor : ∃ t', n.vcpu? target = some t' ∧ VCpu.Rewritten field mask value
    ((m.slot caller).filter (settles target field mask value)) t t'
  /-- An event that is settled is pending no more. -/
  slot : n.slot caller = (m.slot caller).filter fun e => !settles target field mask value e
  slots : ∀ x, x ≠ caller → n.slot x = m.slot x
  /-- The caller comes last among the listeners for what has been switched on. -/
  entered : ∀ (k : Control) a, k.field = field → k.demand? mask value = some true →
    k.covers a = true →
      (n.listeners target a).members = (m.listeners target a).members ++ [caller]
  /-- The caller does not listen any more for what has been switched off. -/
  left : ∀ (k : Control) a, k.field = field → k.demand? mask value = some false →
    k.covers a = true →
      (n.listeners target a).members = (m.listeners target a).members.filter (· != caller)
  untouched : ∀ a, (∀ k : Control, k.field = field → k.demand? mask value ≠ none →
    k.covers a = false) → n.listeners target a = m.listeners target a
  elsewhere : ∀ x a, x ≠ target → n.listeners x a = m.listeners x a
  brokers : ∀ x, (n.broker? x).map (fun b => (b.cpl, b.deadline)) =
    (m.broker? x).map fun b => (b.cpl, b.deadline)

section

variable (hn : controls.Nodup) (hf : ∀ k ∈ controls, k.field = field)

/-! ### The field -/

/-- Switching a control of a registered target sets or clears its bit. -/
theorem bit_fieldOf_toggled (hw : m.isRegistered w = true) {i : Nat} (hi : i < 64) :
  Word.bit ((m.toggled v w k on).fieldOf w k.field.encoding) i =
    if i = k.position then on else Word.bit (m.fieldOf w k.field.encoding) i
  := by
  obtain ⟨t, ht⟩ := isRegistered_iff_vcpu?.mp hw
  have ht' : (m.toggled v w k on).vcpu? w =
      some ((t.switched k on).freed k (!on && m.detains v w k)) := by
    rw [vcpu?_toggled, ht]
    rfl
  rw [fieldOf_of_vcpu? ht, fieldOf_of_vcpu? ht', VCpu.read_freed k.field.encoding_ne_rip,
    VCpu.bit_switched hi]

include hn hf

/-- A bit of the field is the one of the value if a control at its position is selected, and
stays what it is otherwise. -/
theorem bit_fieldOf_foldl {i : Nat} (hi : i < 64) (hw : m.isRegistered w = true) :
  Word.bit ((controls.foldl (obeyed v w mask value) m).fieldOf w field.encoding) i =
    if (∃ k ∈ controls, i = k.position) ∧ Word.bit mask i = true then Word.bit value i
    else Word.bit (m.fieldOf w field.encoding) i
  := by
  have hI : ∀ k' ∈ controls, ∀ l : Machine, l.isRegistered w = true →
      (l.obeyed v w mask value k').isRegistered w = true := fun _ _ _ hl =>
    isRegistered_obeyed.trans hl
  have hother : ∀ k' ∈ controls, i ≠ k'.position → ∀ l : Machine, l.isRegistered w = true →
      Word.bit ((l.obeyed v w mask value k').fieldOf w field.encoding) i =
        Word.bit (l.fieldOf w field.encoding) i := by
    intro k' hk' hne l hl
    rw [obeyed]
    split
    · rfl
    · rw [← hf k' hk', bit_fieldOf_toggled hl hi, if_neg hne]
  by_cases hk : ∃ k ∈ controls, i = k.position
  · obtain ⟨k, hk, rfl⟩ := hk
    have hne : ∀ k' ∈ controls, k' ≠ k → k.position ≠ k'.position := by
      intro k' hk' hne hp
      exact hne (Control.eq_of_position ((hf k' hk').trans (hf k hk).symm) hp.symm)
    obtain ⟨l, hl, hm, he⟩ := observe_foldl_obeyed
      (f := fun l => Word.bit (l.fieldOf w field.encoding) k.position) hn hk hI
      (fun k' hk' hk l hl => hother k' hk' (hne k' hk' hk) l hl) hw
    rw [he, ← hm, obeyed, Control.demand?]
    cases hmask : Word.bit mask k.position with
    | false =>
        rw [if_neg Bool.false_ne_true, if_neg]
        intro h
        exact Bool.false_ne_true h.2
    | true =>
        rw [if_pos rfl, if_pos ⟨⟨k, hk, rfl⟩, rfl⟩, ← hf k hk]
        simp only
        rw [bit_fieldOf_toggled hl hi, if_pos rfl]
  · rw [if_neg fun h => hk h.1]
    apply (foldl_obeyed_keeps (I := fun l => l.isRegistered w = true ∧
      Word.bit (l.fieldOf w field.encoding) i = Word.bit (m.fieldOf w field.encoding) i) _
      ⟨hw, rfl⟩).2
    rintro k' hk' l ⟨hl, he⟩
    exact ⟨hI k' hk' l hl, (hother k' hk' (fun hp => hk ⟨k', hk', hp⟩) l hl).trans he⟩

end

/-- What a field holds after a request that selects only bits that may be changed. -/
theorem fieldOf_foldl_obeyed (v : Vpid) (value : UInt64) (hw : m.isRegistered w = true)
    (hmask : mask &&& ~~~field.allowance = 0) :
  (field.controls.foldl (obeyed v w mask value) m).fieldOf w field.encoding =
    (m.fieldOf w field.encoding &&& ~~~mask) ||| (value &&& mask)
  := by
  apply Word.ext
  intro i hi
  have hallowed : Word.bit mask i = true → ∃ k ∈ field.controls, i = k.position := by
    intro hbit
    have hb := Word.and_not_eq_zero_iff.mp hmask i hi hbit
    rw [ControlField.bit_allowance hi, ControlField.controlAt?, List.find?_isSome] at hb
    obtain ⟨k, hk, hp⟩ := hb
    exact ⟨k, hk, (of_decide_eq_true hp).symm⟩
  rw [bit_fieldOf_foldl field.nodup_controls (fun _ hk => ControlField.mem_controls.mp hk) hi hw,
    Word.bit_or, Word.bit_and, Word.bit_and, Word.bit_not mask hi]
  cases hbit : Word.bit mask i with
  | true =>
      rw [if_pos ⟨hallowed hbit, rfl⟩, Bool.not_true, Bool.and_false, Bool.false_or,
        Bool.and_true]
  | false =>
      rw [if_neg (fun h => Bool.false_ne_true h.2), Bool.not_false, Bool.and_true, Bool.and_false,
        Bool.or_false]

/-! ### Events that are settled -/

theorem detains_iff :
  m.detains v w k = true ↔
    ∃ e, (m.slot v).head? = some e ∧ e.origin = w ∧ k.covers e.reason = true
  := by
  rw [detains, Option.any_eq_true]
  simp only [decide_eq_true_eq]

theorem settles_iff {e : ExitEvent} :
  settles w field mask value e = true ↔ e.origin = w ∧
    ∃ k ∈ field.controls, k.covers e.reason = true ∧ k.demand? mask value = some false
  := by
  simp only [settles, List.any_eq_true, Bool.and_eq_true, decide_eq_true_eq]

/-- The events that are pending for the caller, whether the target is stopped, and where it
stands. -/
def plight (m : Machine) (caller target : Vpid) : List ExitEvent × Option (Bool × UInt64) :=
  (m.slot caller, (m.vcpu? target).map fun c => (c.paused, c.vmcs.read Field.rip))

/-- A control that settles nothing changes nothing about it. -/
theorem plight_toggled (h : (!on && m.detains v w k) = false) :
  (m.toggled v w k on).plight v w = m.plight v w
  := by
  have hrip : ∀ c : VCpu, (c.switched k on).vmcs.read Field.rip = c.vmcs.read Field.rip :=
    fun c => VCpu.read_switched k.field.encoding_ne_rip.symm
  rw [plight, plight, slot_toggled, vcpu?_toggled, h, if_neg fun hv => Bool.false_ne_true hv.2,
    Option.map_map]
  congr 1
  apply congrArg (Option.map · (m.vcpu? w))
  funext c
  change ((c.switched k on).paused, (c.switched k on).vmcs.read Field.rip) = _
  rw [hrip]
  rfl

/-- An event that is settled is taken from the caller, and the target goes on. -/
theorem plight_toggled_off (ht : m.vcpu? w = some t) (h : m.detains v w k = true) :
  (m.toggled v w k false).plight v w =
    ((m.slot v).tail, some (false,
      if k = .cr3LoadExiting then t.vmcs.read Field.rip + VcpuM.instructionLength
      else t.vmcs.read Field.rip))
  := by
  have hrip : (t.switched k false).vmcs.read Field.rip = t.vmcs.read Field.rip :=
    VCpu.read_switched k.field.encoding_ne_rip.symm
  have hback : ((t.switched k false).fellBack k).vmcs.read Field.rip =
      if k = .cr3LoadExiting then t.vmcs.read Field.rip + VcpuM.instructionLength
      else t.vmcs.read Field.rip := by
    rw [← hrip]
    cases k with
    | cr3LoadExiting => exact Vmcs.read_write_self _ _ _
    | monitorTrapFlag => rfl
    | eptViolation => rfl
  rw [plight, slot_toggled, vcpu?_toggled, h, if_pos ⟨rfl, rfl⟩, ht, ← hback]
  rfl

/-- Where no event of the caller is settled, no control changes anything about it. -/
theorem plight_foldl_of_unsettled
    (h : ∀ e, (m.slot v).head? = some e → settles w field mask value e = false) :
  (field.controls.foldl (obeyed v w mask value) m).plight v w = m.plight v w
  := by
  apply foldl_obeyed_keeps (I := fun l => l.plight v w = m.plight v w) _ rfl
  intro k hk l hl
  rw [obeyed]
  split
  · exact hl
  · rename_i on hd
    rw [plight_toggled _, hl]
    cases on with
    | true => rfl
    | false =>
        rw [Bool.not_false, Bool.true_and, detains_congr (congrArg Prod.fst hl),
          ← Bool.not_eq_true, detains_iff]
        rintro ⟨e, he, ho, hc⟩
        have hs := settles_iff.mpr ⟨ho, k, hk, hc, hd⟩
        rw [h e he] at hs
        exact Bool.false_ne_true hs

/-- No control brings the caller an event. -/
theorem mem_slot_obeyed {e : ExitEvent} (h : e ∈ (m.obeyed v w mask value k).slot v) :
  e ∈ m.slot v
  := by
  rw [obeyed] at h
  split at h
  · exact h
  · rw [slot_toggled] at h
    split at h
    · exact List.mem_of_mem_tail h
    · exact h

/-- Only the control for loads of `cr3` covers them, and it covers nothing else. -/
theorem eq_cr3LoadExiting_iff {reason : ExitReason} (h : k.covers reason = true) :
  k = .cr3LoadExiting ↔ reason = .cr3Load
  := by
  revert h
  cases k <;> cases reason <;> decide

/-- The one event of the caller is settled by the control that has caused it. -/
theorem plight_foldl_of_settled {e : ExitEvent} (ht : m.vcpu? w = some t)
    (hv : m.slot v = [e]) (h : settles w field mask value e = true) :
  (field.controls.foldl (obeyed v w mask value) m).plight v w =
    ([], some (false, if e.reason = .cr3Load
      then t.vmcs.read Field.rip + VcpuM.instructionLength else t.vmcs.read Field.rip))
  := by
  obtain ⟨ho, k, hk, hc, hd⟩ := settles_iff.mp h
  have hI : ∀ k' ∈ field.controls, ∀ l : Machine, (∀ e' ∈ l.slot v, e' = e) →
      ∀ e' ∈ (l.obeyed v w mask value k').slot v, e' = e := fun _ _ l hl e' he' =>
    hl e' (mem_slot_obeyed he')
  have hother : ∀ k' ∈ field.controls, k' ≠ k → ∀ l : Machine, (∀ e' ∈ l.slot v, e' = e) →
      (l.obeyed v w mask value k').plight v w = l.plight v w := by
    intro k' _ hne l hl
    rw [obeyed]
    split
    · rfl
    · apply plight_toggled
      rw [Bool.and_eq_false_iff, ← Bool.not_eq_true (l.detains v w k'), detains_iff]
      right
      rintro ⟨e', he', -, hc'⟩
      rw [hl e' (List.mem_of_mem_head? he'), ← Control.ofReason?_eq_some_iff,
        Control.ofReason?_eq_some_iff.mpr hc] at hc'
      exact hne (Option.some.inj hc').symm
  have hm : ∀ e' ∈ m.slot v, e' = e := by
    intro e' he'
    rw [hv] at he'
    exact List.mem_singleton.mp he'
  obtain ⟨l, -, hl, he⟩ :=
    observe_foldl_obeyed (f := (plight · v w)) field.nodup_controls hk hI hother hm
  have hslot : l.slot v = [e] := (congrArg Prod.fst hl).trans hv
  obtain ⟨t', ht', hplight⟩ : ∃ t', l.vcpu? w = some t' ∧
      (t'.paused, t'.vmcs.read Field.rip) = (t.paused, t.vmcs.read Field.rip) := by
    apply Option.map_eq_some_iff.mp
    exact (congrArg Prod.snd hl).trans (by rw [plight, ht, Option.map_some])
  have hdetains : l.detains v w k = true := by
    rw [detains_iff, hslot]
    exact ⟨e, rfl, ho, hc⟩
  rw [he, obeyed_of_some hd, plight_toggled_off ht' hdetains, hslot,
    show t'.vmcs.read Field.rip = t.vmcs.read Field.rip from congrArg Prod.snd hplight]
  simp only [eq_cr3LoadExiting_iff hc]
  rfl

/-- What becomes of the caller's events, and of the target by them. -/
theorem plight_foldl (field : ControlField) (mask value : UInt64) (ht : m.vcpu? w = some t)
    (hs : (m.slot v).length ≤ 1) :
  (field.controls.foldl (obeyed v w mask value) m).plight v w =
    ((m.slot v).filter fun e => !settles w field mask value e,
      some (if ((m.slot v).filter (settles w field mask value)).isEmpty then t.paused else false,
        if ((m.slot v).filter (settles w field mask value)).any fun e => e.reason = .cr3Load
        then t.vmcs.read Field.rip + VcpuM.instructionLength else t.vmcs.read Field.rip))
  := by
  by_cases hall : ∀ e ∈ m.slot v, settles w field mask value e = false
  · have hnone : (m.slot v).filter (settles w field mask value) = [] := by
      rw [List.filter_eq_nil_iff]
      intro e he
      rw [hall e he]
      exact Bool.false_ne_true
    have hkept : ((m.slot v).filter fun e => !settles w field mask value e) = m.slot v := by
      rw [List.filter_eq_self]
      intro e he
      rw [hall e he]
      rfl
    rw [plight_foldl_of_unsettled fun e he => hall e (List.mem_of_mem_head? he), plight, ht,
      hnone, hkept]
    rfl
  · obtain ⟨e, he, h⟩ : ∃ e ∈ m.slot v, settles w field mask value e = true := by
      by_contra hnone
      apply hall
      intro e he
      rw [← Bool.not_eq_true]
      intro h
      exact hnone ⟨e, he, h⟩
    have hv : m.slot v = [e] := by
      obtain ⟨e', hv⟩ := List.length_eq_one_iff.mp (Nat.le_antisymm hs (List.length_pos_of_mem he))
      rw [hv, List.mem_singleton] at he
      rw [hv, he]
    rw [plight_foldl_of_settled ht hv h, hv, List.filter_cons_of_pos h, List.filter_cons_of_neg]
    · simp
    · simp [h]

/-! ### Listeners after a request -/

section

variable {a : ExitReason} (hw : m.isRegistered w = true) (hk : k.field = field)
  (h : k.covers a = true)

include hw hk h

/-- The listeners for what a control covers are changed when the request comes to the
control. -/
theorem members_foldl_obeyed (hd : k.demand? mask value = some on)
    (hp : m.Permits v w k on) :
  ((field.controls.foldl (obeyed v w mask value) m).listeners w a).members =
    if on then (m.listeners w a).members ++ [v] else (m.listeners w a).members.erase v
  := by
  have hI : ∀ k' ∈ field.controls, ∀ l : Machine, l.isRegistered w = true →
      (l.obeyed v w mask value k').isRegistered w = true := fun _ _ _ hl =>
    isRegistered_obeyed.trans hl
  have hother : ∀ k' ∈ field.controls, k' ≠ k → ∀ l : Machine, l.isRegistered w = true →
      (l.obeyed v w mask value k').audience w k = l.audience w k := by
    intro k' _ hne l _
    rw [obeyed]
    split
    · rfl
    · funext b
      exact listeners_toggled_of_covered hne b.2
  obtain ⟨l, hl, hm, he⟩ := observe_foldl_obeyed (f := (audience · w k)) field.nodup_controls
    (ControlField.mem_controls.mpr hk) hI hother hw
  have hlm : ∀ b, k.covers b = true → l.listeners w b = m.listeners w b := fun b hb =>
    congrFun hm ⟨b, hb⟩
  have hfinal : (field.controls.foldl (obeyed v w mask value) m).listeners w a =
      (l.obeyed v w mask value k).listeners w a := congrFun he ⟨a, h⟩
  rw [hfinal, obeyed_of_some hd, ← hlm a h]
  cases on with
  | true => exact members_toggled_on hl h ((permits_congr hlm v true).mpr hp)
  | false => exact members_toggled_off hl h ((permits_congr hlm v false).mpr hp)

end

/-! ### The machine after a request -/

/-- What every switch of a control of the field keeps, a request keeps. -/
theorem foldl_controls_keeps {I : Machine → Prop}
    (hI : ∀ k, k.field = field → ∀ on, k.demand? mask value = some on →
      ∀ l, I l → I (l.toggled v w k on)) (hm : I m) :
  I (field.controls.foldl (obeyed v w mask value) m)
  := by
  apply foldl_obeyed_keeps _ hm
  intro k hk l hl
  rw [obeyed]
  split
  · exact hl
  · rename_i on hd
    exact hI k (ControlField.mem_controls.mp hk) on hd l hl

/-- The target keeps everything but the field, its stand and its place with the scheduler. -/
theorem exists_alikeBut_foldl (ht : m.vcpu? w = some t) :
  ∃ t', (field.controls.foldl (obeyed v w mask value) m).vcpu? w = some t' ∧
    VCpu.AlikeBut field t t'
  := by
  apply foldl_controls_keeps (I := fun l => ∃ t', l.vcpu? w = some t' ∧
    VCpu.AlikeBut field t t') _ ⟨t, ht, VCpu.AlikeBut.refl field t⟩
  rintro k hk on - l ⟨t', ht', ha⟩
  refine ⟨(t'.switched k on).freed k (!on && l.detains v w k), ?_, ha.toggled hk _ _⟩
  rw [vcpu?_toggled, ht']
  rfl

/-- A request that selects only bits that may be changed, and to which the listener sets
agree, leaves what it says. -/
theorem switched_foldl (ht : m.vcpu? w = some t)
    (hd : ∀ a, (m.listeners w a).members.Nodup) (hs : (m.slot v).length ≤ 1)
    (hmask : mask &&& ~~~field.allowance = 0)
    (hp : ∀ k, k.field = field → ∀ on, k.demand? mask value = some on → m.Permits v w k on) :
  m.Switched v w field mask value t (field.controls.foldl (obeyed v w mask value) m)
  := by
  have hw : m.isRegistered w = true := isRegistered_iff_vcpu?.mpr ⟨t, ht⟩
  have hplight := plight_foldl field mask value ht hs
  constructor
  · apply foldl_controls_keeps (I := fun l => (l.config, l.loaded, l.current, l.clock) =
      (m.config, m.loaded, m.current, m.clock)) _ rfl
    intro k _ on _ l hl
    rw [frame_toggled, hl]
  · intro x hx
    apply foldl_controls_keeps (I := fun l => l.vcpu? x = m.vcpu? x) _ rfl
    intro k _ on _ l hl
    rw [vcpu?_toggled_of_ne hx, hl]
  · obtain ⟨t', ht', ha⟩ := exists_alikeBut_foldl (v := v) ht
    have hbits := fieldOf_foldl_obeyed v value hw hmask
    rw [fieldOf_of_vcpu? ht', fieldOf_of_vcpu? ht] at hbits
    have hfate := congrArg Prod.snd hplight
    rw [plight, ht', Option.map_some] at hfate
    obtain ⟨hpaused, hrip⟩ := Prod.mk.inj (Option.some.inj hfate)
    exact ⟨t', ht', ha, hbits, hrip, hpaused⟩
  · exact congrArg Prod.fst hplight
  · intro x hx
    apply foldl_controls_keeps (I := fun l => l.slot x = m.slot x) _ rfl
    intro k _ on _ l hl
    rw [slot_toggled, if_neg fun h => hx h.1, hl]
  · intro k a hk hon ha
    rw [members_foldl_obeyed hw hk ha hon (hp k hk true hon), if_pos rfl]
  · intro k a hk hoff ha
    rw [members_foldl_obeyed hw hk ha hoff (hp k hk false hoff), if_neg Bool.false_ne_true,
      (hd a).erase_eq_filter]
  · intro a ha
    apply foldl_controls_keeps (I := fun l => l.listeners w a = m.listeners w a) _ rfl
    intro k hk on hon l hl
    rw [listeners_toggled_of_uncovered, hl]
    apply ha k hk
    rw [hon]
    exact Option.some_ne_none on
  · intro x a hx
    apply foldl_controls_keeps (I := fun l => l.listeners x a = m.listeners x a) _ rfl
    intro k _ on _ l hl
    rw [listeners_toggled_of_ne hx, hl]
  · intro x
    apply foldl_controls_keeps (I := fun l => (l.broker? x).map (fun b => (b.cpl, b.deadline)) =
      (m.broker? x).map fun b => (b.cpl, b.deadline)) _ rfl
    intro k _ on _ l hl
    rw [broker?_toggled, hl]

theorem Switched.withJournal (h : m.Switched v w field mask value t n) (j : Journal) :
  m.Switched v w field mask value t (n.withJournal j)
  := ⟨h.frame, h.processors, h.processor, h.slot, h.slots, h.entered, h.left, h.untouched,
    h.elsewhere, h.brokers⟩

/-! ### When a request succeeds -/

theorem demand?_eq_some_iff :
  k.demand? mask value = some on ↔
    Word.bit mask k.position = true ∧ Word.bit value k.position = on
  := by
  rw [Control.demand?, Option.ite_none_right_eq_some, Option.some_inj]

/-- What the listener sets have to agree to. -/
theorem permits_iff :
  (∀ on, k.demand? mask value = some on → m.Permits v w k on) ↔
    (Word.bit mask k.position = true →
      if Word.bit value k.position then ∀ a, k.covers a = true → v ∉ (m.listeners w a).members
      else v ∈ (m.listeners w k.exit).members)
  := by
  simp only [demand?_eq_some_iff, and_imp, forall_comm (α := Bool), forall_eq', Permits,
    Control.covers_iff]

theorem controlsSet_of_permits {regs : Registers} (hmask : regs.r14 &&& ~~~field.allowance = 0)
    (hp : ∀ k ∈ field.controls, ∀ on, k.demand? regs.r14 regs.r13 = some on →
      m.Permits v w k on) :
  m.controlsSet v w regs field =
    (.ok (m.fieldOf w field.encoding), field.controls.foldl (obeyed v w regs.r14 regs.r13) m)
  := by
  rw [controlsSet, if_pos hmask, switchedControls_of_permits field.nodup_controls hp]
  rfl

theorem permits_occupied :
  (m.occupied w).Permits v w k on ↔ m.Permits v w k on
  := permits_congr (fun a _ => listeners_occupied a) v on

/-- A request that selects only bits that may be changed succeeds if the listener sets agree
to each of its parts. -/
theorem setControls_of_permits (h : m.Agrees) (hf : m.Flawless) (hc : m.vcpu? v = some c)
    (hw : m.isRegistered w = true) (hmask : c.regs.r14 &&& ~~~field.allowance = 0)
    (hp : ∀ k ∈ field.controls, ∀ on, k.demand? c.regs.r14 c.regs.r13 = some on →
      m.Permits v w k on) :
  ∃ j, setControls v w field m = .ok (m.fieldOf w field.encoding)
    ((field.controls.foldl (obeyed v w c.regs.r14 c.regs.r13) (m.occupied w)).withJournal j)
  := by
  have hx := concludes_setControls_of_allowed h hf hc hw hmask
  rw [controlsSet_of_permits hmask, fieldOf_occupied] at hx
  · exact hx.yields.eq_ok
  · intro k hk on hd
    rw [permits_occupied]
    exact hp k hk on hd

theorem fst_controlsSet_iff {regs : Registers} :
  (∃ old, (m.controlsSet v w regs field).1 = .ok old) ↔
    regs.r14 &&& ~~~field.allowance = 0 ∧
      ∀ k ∈ field.controls, ∀ on, k.demand? regs.r14 regs.r13 = some on → m.Permits v w k on
  := by
  constructor
  · rintro ⟨old, hold⟩
    rw [controlsSet] at hold
    split at hold
    · rename_i hmask
      refine ⟨hmask, ?_⟩
      rw [← fst_switchedControls_iff field.nodup_controls]
      simp only at hold
      cases hr : (switchedControls v w regs.r14 regs.r13 field.controls m).1 with
      | ok => rfl
      | error s =>
          rw [hr] at hold
          cases hold
    · cases hold
  · rintro ⟨hmask, hp⟩
    exact ⟨_, by rw [controlsSet_of_permits hmask hp]⟩

/-- What a request that succeeds has found, and what it leaves. -/
theorem setControls_eq_ok {old : UInt64} (h : m.Agrees) (hf : m.Flawless)
    (hc : m.vcpu? v = some c) (hw : m.isRegistered w = true)
    (hn : setControls v w field m = .ok old n) :
  c.regs.r14 &&& ~~~field.allowance = 0 ∧
    (∀ k ∈ field.controls, ∀ on, k.demand? c.regs.r14 c.regs.r13 = some on →
      m.Permits v w k on) ∧
    ∃ j, n = (field.controls.foldl (obeyed v w c.regs.r14 c.regs.r13)
      (m.occupied w)).withJournal j
  := by
  by_cases hmask : c.regs.r14 &&& ~~~field.allowance = 0
  · obtain ⟨hold, -⟩ := (concludes_setControls_of_allowed h hf hc hw hmask).of_ok hn
    have hp : ∀ k ∈ field.controls, ∀ on, k.demand? c.regs.r14 c.regs.r13 = some on →
        m.Permits v w k on := fun k hk on hd =>
      permits_occupied.mp ((fst_controlsSet_iff.mp ⟨old, hold⟩).2 k hk on hd)
    obtain ⟨j, hj⟩ := setControls_of_permits h hf hc hw hmask hp
    rw [hn] at hj
    exact ⟨hmask, hp, j, (EStateM.Result.ok.inj hj).2⟩
  · nomatch ((concludes_setControls_of_denied hc w hmask).of_ok hn).1

/-- A request to switch controls of a target succeeds if and only if it selects only bits that
may be changed and the listener sets of the target agree to each of its parts: those for what
is switched on do not have the caller, and the one for the reason of a control that is
switched off has it.  Then it returns what the field held, and leaves what it says. -/
theorem switching_succeeds (h : m.Agrees) (hu : m.loaded = some u) (hf : m.Flawless)
    (hc : m.vcpu? v = some c) (ht : m.vcpu? w = some t)
    (hd : ∀ a, (m.listeners w a).members.Nodup) (hs : (m.slot v).length ≤ 1)
    (field : ControlField) :
  ((∃ old n, setControls v w field m = .ok old n) ↔
    (∀ i, i < 64 → Word.bit c.regs.r14 i = true → Word.bit field.allowance i = true) ∧
    ∀ k : Control, k.field = field → Word.bit c.regs.r14 k.position = true →
      if Word.bit c.regs.r13 k.position then
        ∀ a, k.covers a = true → v ∉ (m.listeners w a).members
      else v ∈ (m.listeners w k.exit).members) ∧
  ∀ old n, setControls v w field m = .ok old n →
    old = t.vmcs.read field.encoding ∧
      m.Switched v w field c.regs.r14 c.regs.r13 t n
  := by
  have hx := concludes_setControls ⟨(h u hu).1, hu, (h u hu).2⟩ hf hc
    (isRegistered_iff_vcpu?.mpr ⟨t, ht⟩) field
  rw [← Word.and_not_eq_zero_iff]
  constructor
  · rw [hx.ok_iff, fst_controlsSet_iff]
    simp only [ControlField.mem_controls, permits_iff]
  · intro old n hn
    obtain ⟨hmask, hp⟩ := fst_controlsSet_iff.mp (hx.ok_iff.mp ⟨old, n, hn⟩)
    rw [controlsSet_of_permits hmask hp] at hx
    obtain ⟨j, hj⟩ := hx.yields.eq_ok
    rw [hn] at hj
    obtain ⟨rfl, rfl⟩ := EStateM.Result.ok.inj hj
    refine ⟨fieldOf_of_vcpu? ht _, ?_⟩
    apply (switched_foldl ht hd hs hmask _).withJournal
    intro k hk
    exact hp k (ControlField.mem_controls.mpr hk)

/-- A listener exchanges one control of its target for another one while an event of it is
pending for the listener. -/
theorem switching_settles :
  let target : VCpu := {
    vmcs := (({} : Vmcs).write Field.rip 0x1000).write Field.primaryControls 0x8001
    paused := true }
  let listening : Registry := { cr3Load := { members := [3, 2], cursor := some 1 } }
  let caller : VCpu := { parent := some 1, regs := { r13 := 0x8000000, r14 := 0x8008000 } }
  let waiting : Broker := { pending := { events := [⟨1, .cr3Load, 0, 0⟩] } }
  let m₀ : Machine := { loaded := some 1, current := some 1 }
  let m₁ : Machine :=
    { m₀ with residents := m₀.residents.insert 1 ⟨target, { registry := listening }⟩ }
  let m : Machine := { m₁ with residents := m₁.residents.insert 2 ⟨caller, waiting⟩ }
  ∃ n t', setControls 2 1 .primary m = .ok 0x8001 n ∧ n.vcpu? 1 = some t' ∧
    t'.vmcs.read Field.primaryControls = 0x8000001 ∧ t'.vmcs.read Field.rip = 0x1003 ∧
    t'.paused = false ∧ n.slot 2 = [] ∧ (n.listeners 1 .cr3Load).members = [3] ∧
    (n.listeners 1 .monitorTrap).members = [2]
  := by
  intro target listening caller waiting m₀ m₁ m
  have hf₀ : m₀.Flawless := guarantees_of_residents rfl
  have hf₁ : m₁.Flawless := hf₀.insert 1 rfl
  have hf : m.Flawless := hf₁.insert 2 rfl
  have hc : m.vcpu? 2 = some caller := by
    change { m₁ with residents := _ }.vcpu? 2 = _
    rw [vcpu?_insert, if_pos rfl]
  have ht : m.vcpu? 1 = some target := by
    change { m₁ with residents := _ }.vcpu? 1 = _
    rw [vcpu?_insert, if_neg (by decide)]
    change { m₀ with residents := _ }.vcpu? 1 = _
    rw [vcpu?_insert, if_pos rfl]
  have hm : m.Agrees := by
    intro u hu
    obtain rfl := Option.some.inj hu
    exact ⟨isRegistered_iff_vcpu?.mpr ⟨target, ht⟩, rfl⟩
  have hd : ∀ a, (m.listeners 1 a).members.Nodup := by
    intro a
    cases a <;> decide +kernel
  obtain ⟨hiff, hok⟩ := switching_succeeds hm rfl hf hc ht hd (by decide +kernel) .primary
  have hallowed : ControlField.primary.allowance = caller.regs.r14 := by decide +kernel
  have hparts : ∀ k : Control, k.field = .primary → Word.bit caller.regs.r14 k.position = true →
      if Word.bit caller.regs.r13 k.position then
        ∀ a, k.covers a = true → 2 ∉ (m.listeners 1 a).members
      else 2 ∈ (m.listeners 1 k.exit).members := by
    intro k hk _
    cases k with
    | cr3LoadExiting =>
        rw [if_neg (by decide +kernel)]
        decide +kernel
    | monitorTrapFlag =>
        rw [if_pos (by decide +kernel)]
        intro a
        cases a <;> decide +kernel
    | eptViolation => exact absurd hk (by decide)
  obtain ⟨old, n, hn⟩ := hiff.mpr ⟨fun i _ hi => by rw [hallowed]; exact hi, hparts⟩
  obtain ⟨rfl, hs⟩ := hok old n hn
  obtain ⟨t', ht', hr⟩ := hs.processor
  refine ⟨n, t', hn, ht', ?_, ?_, ?_, ?_, ?_, ?_⟩
  · rw [show Field.primaryControls = ControlField.primary.encoding from rfl, hr.bits]
    decide +kernel
  · rw [hr.rip]
    decide +kernel
  · rw [hr.paused]
    decide +kernel
  · rw [hs.slot]
    decide +kernel
  · rw [hs.left .cr3LoadExiting .cr3Load rfl (by decide +kernel) rfl]
    decide +kernel
  · rw [hs.entered .monitorTrapFlag .monitorTrap rfl (by decide +kernel) rfl]
    decide +kernel

end Machine

end ExitRelay
