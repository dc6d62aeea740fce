import ExitRelay.Proofs.Switching

/-!
# Controls that are shared

Several listeners may listen for the exits of one control, but the control has one bit.  A
request of one of them leaves the others listeners as they were, and what becomes of the bit
is for the request alone to say: it is cleared by whoever switches the control off, however
many others listen on, and stays set otherwise.
-/

namespace ExitRelay.Machine

variable {m n : Machine} {v w x : Vpid} {c : VCpu} {k : Control} {mask value : UInt64}
  {field : ControlField} {controls : List Control}

/-- A request for a control makes nobody but the caller a listener, and takes nobody but the
caller out of a list. -/
theorem mem_listeners_toggled (hw : m.isRegistered w = true) (hx : x ≠ v) (on : Bool)
    (a : ExitReason) :
  x ∈ ((m.toggled v w k on).listeners w a).members ↔ x ∈ (m.listeners w a).members
  := by
  obtain ⟨b, hb⟩ := isRegistered_iff_broker?.mp hw
  rw [listeners_of_broker? hb]
  cases on with
  | true =>
      rw [listeners_toggled_on hb]
      rcases b.registry.members_subscribe_cases k.exit v a with ⟨-, hm⟩ | hm
      · rw [hm, List.mem_append, List.mem_singleton, or_iff_left hx]
      · rw [hm]
  | false =>
      rw [listeners_toggled_off hb]
      rcases b.registry.members_unsubscribe_cases k.exit v a with ⟨-, hm⟩ | hm
      · rw [hm, List.mem_erase_of_ne hx]
      · rw [hm]

/-- The same holds for requests for several controls. -/
theorem mem_listeners_foldl (hw : m.isRegistered w = true) (hx : x ≠ v) (a : ExitReason) :
  x ∈ ((controls.foldl (obeyed v w mask value) m).listeners w a).members ↔
    x ∈ (m.listeners w a).members
  := by
  apply (foldl_obeyed_keeps (I := fun l => l.isRegistered w = true ∧
    (x ∈ (l.listeners w a).members ↔ x ∈ (m.listeners w a).members)) _ ⟨hw, Iff.rfl⟩).2
  rintro k - l ⟨hl, he⟩
  refine ⟨isRegistered_obeyed.trans hl, ?_⟩
  rw [obeyed]
  split
  · exact he
  · rw [mem_listeners_toggled hl hx, he]

/-- After a request that succeeds, those who listened before listen still, except for the
caller, and nobody else does.  A control that was switched on before is so still if and only if
the request has not switched it off, whoever listens for its exits. -/
theorem enabled_after_iff {old : UInt64} (h : m.Agrees) (hf : m.Flawless)
    (hc : m.vcpu? v = some c) (hw : m.isRegistered w = true)
    (hn : setControls v w field m = .ok old n) (hk : k.field = field)
    (hon : Word.bit (m.fieldOf w field.encoding) k.position = true) :
  (∀ x a, x ≠ v → (x ∈ (n.listeners w a).members ↔ x ∈ (m.listeners w a).members)) ∧
    (Word.bit (n.fieldOf w field.encoding) k.position = true ↔
      ¬ (Word.bit c.regs.r14 k.position = true ∧ Word.bit c.regs.r13 k.position = false))
  := by
  obtain ⟨-, -, j, rfl⟩ := setControls_eq_ok h hf hc hw hn
  have hw' : (m.occupied w).isRegistered w = true := isRegistered_occupied.trans hw
  have hi : k.position < 64 := by
    cases k <;> decide
  constructor
  · intro x a hx
    rw [listeners_withJournal, mem_listeners_foldl hw' hx, listeners_occupied]
  · have hmem : ∃ k' ∈ field.controls, k.position = k'.position :=
      ⟨k, ControlField.mem_controls.mpr hk, rfl⟩
    rw [fieldOf_withJournal, bit_fieldOf_foldl field.nodup_controls
      (fun _ hk => ControlField.mem_controls.mp hk) hi hw', fieldOf_occupied, hon]
    by_cases hmask : Word.bit c.regs.r14 k.position = true
    · rw [if_pos ⟨hmem, hmask⟩, and_iff_right hmask, Bool.not_eq_false]
    · rw [if_neg fun h => hmask h.2]
      exact iff_of_true rfl fun h => hmask h.1

/-- A processor asks for single steps of a target, and another one goes on listening for loads
of `cr3`, which still exit. -/
theorem enabled_after_subscribing :
  let target : VCpu := { vmcs := ({} : Vmcs).write Field.primaryControls 0x8000 }
  let listening : Registry := { cr3Load := { members := [3], cursor := some 0 } }
  let caller : VCpu := { parent := some 1, regs := { r13 := 0x8000000, r14 := 0x8000000 } }
  let m : Machine := (({ loaded := some 2, current := some 2 } : Machine).hosting 1
    ⟨target, { registry := listening }⟩).hosting 2 ⟨caller, {}⟩
  ∃ n, setControls 2 1 .primary m = .ok 0x8000 n ∧ 3 ∈ (n.listeners 1 .cr3Load).members ∧
    Word.bit (n.fieldOf 1 Field.primaryControls) Control.cr3LoadExiting.position = true
  := by
  intro target listening caller m
  have hf : m.Flawless := by
    apply Flawless.hosting _ 2 rfl
    apply Flawless.hosting _ 1 rfl
    exact guarantees_of_residents rfl
  have hc : m.vcpu? 2 = some caller := vcpu?_hosting_self _ _ _
  have ht : m.vcpu? 1 = some target :=
    (vcpu?_hosting_of_ne _ _ (by decide)).trans (vcpu?_hosting_self _ _ _)
  have hw : m.isRegistered 1 = true := isRegistered_iff_vcpu?.mpr ⟨target, ht⟩
  have hm : m.Agrees := Holds.agrees ⟨isRegistered_iff_vcpu?.mpr ⟨caller, hc⟩, rfl, rfl⟩
  have hmask : caller.regs.r14 &&& ~~~ControlField.primary.allowance = 0 := by
    decide +kernel
  obtain ⟨j, hn⟩ := setControls_of_permits hm hf hc hw hmask (by decide +kernel)
  rw [fieldOf_of_vcpu? ht] at hn
  obtain ⟨hmembers, hbit⟩ := enabled_after_iff (k := .cr3LoadExiting) hm hf hc hw hn rfl
    (by decide +kernel)
  refine ⟨_, hn, (hmembers 3 .cr3Load (by decide)).mpr (by decide +kernel), hbit.mpr ?_⟩
  decide +kernel

/-- Two processors listen for the loads of `cr3` of a third one.  When one of them stops, the
other one is a listener still, but the loads do not exit any more. -/
theorem disabled_after_unsubscribing :
  let target : VCpu := { vmcs := ({} : Vmcs).write Field.primaryControls 0x8000 }
  let listening : Registry := { cr3Load := { members := [2, 3], cursor := some 0 } }
  let caller : VCpu := { parent := some 1, regs := { r13 := 0, r14 := 0x8000 } }
  let m : Machine := ((({ loaded := some 2, current := some 2 } : Machine).hosting 1
    ⟨target, { registry := listening }⟩).hosting 3 ⟨{ parent := some 1 }, {}⟩).hosting 2
      ⟨caller, {}⟩
  m.Agrees ∧ m.Flawless ∧ m.isRegistered 2 = true ∧ m.isRegistered 1 = true ∧
    m.isRegistered 3 = true ∧
    Word.bit (m.fieldOf 1 ControlField.primary.encoding) Control.cr3LoadExiting.position = true ∧
    ∃ n, setControls 2 1 .primary m = .ok 0x8000 n ∧
      3 ∈ (n.listeners 1 Control.cr3LoadExiting.exit).members ∧
      Word.bit (n.fieldOf 1 ControlField.primary.encoding) Control.cr3LoadExiting.position = false
  := by
  intro target listening caller m
  have hf : m.Flawless := by
    apply Flawless.hosting _ 2 rfl
    apply Flawless.hosting _ 3 rfl
    apply Flawless.hosting _ 1 rfl
    exact guarantees_of_residents rfl
  have hc : m.vcpu? 2 = some caller := vcpu?_hosting_self _ _ _
  have ht : m.vcpu? 1 = some target :=
    (vcpu?_hosting_of_ne _ _ (by decide)).trans
      ((vcpu?_hosting_of_ne _ _ (by decide)).trans (vcpu?_hosting_self _ _ _))
  have hv : m.isRegistered 2 = true := isRegistered_iff_vcpu?.mpr ⟨caller, hc⟩
  have hw : m.isRegistered 1 = true := isRegistered_iff_vcpu?.mpr ⟨target, ht⟩
  have hm : m.Agrees := Holds.agrees ⟨hv, rfl, rfl⟩
  have hmask : caller.regs.r14 &&& ~~~ControlField.primary.allowance = 0 := by
    decide +kernel
  obtain ⟨j, hn⟩ := setControls_of_permits hm hf hc hw hmask (by decide +kernel)
  rw [fieldOf_of_vcpu? ht] at hn
  refine ⟨hm, hf, hv, hw, by decide +kernel, by decide +kernel, _, hn, ?_, ?_⟩
  · rw [listeners_withJournal]
    decide +kernel
  · rw [fieldOf_withJournal]
    decide +kernel

end ExitRelay.Machine
