import ExitRelay.Proofs.Execution.Subscription
import ExitRelay.Proofs.Rounds

/-!
# Rejected calls

A call is rejected if its selector names no call that the caller may make, or if one of its
arguments is not one that the call takes.  On hardware that does not fail a rejected call has
no effect but its own completion: the caller is loaded, goes on behind the call, and finds the
status in `rax`.  Every call looks at its arguments before it changes anything, and once it
has begun to change something it is not rejected any more.  Only the call that switches
controls leaves a trace, as it has the broker of its caller record the privilege level first.
-/

namespace ExitRelay

namespace Status

/-- The statuses of rejected calls. -/
def rejections : List Status :=
  [.failureUnknownHypercall, .failureUnsupported, .invalidParams1, .invalidParams2,
    .invalidParams4, .invalidVpidUnsupportedSelf, .invalidVpidUnsupportedParent,
    .invalidVpidUnsupportedAny]

/-- The status says that a call is rejected. -/
def Rejects (s : Status) : Prop :=
  s ∈ rejections

instance : DecidablePred Rejects :=
  fun s => inferInstanceAs (Decidable (s ∈ rejections))

/-- Whatever the broker refuses by itself is reported as another failure. -/
theorem not_rejects_refusal (why : Refusal) :
  ¬ (ofSysError why.error).Rejects
  := by
  cases why <;> decide

/-- No status of a rejected call asks for the next event. -/
theorem ofWord?_code_of_rejects {s : Status} (h : s.Rejects) (d : DomainKind) :
  Call.ofWord? d s.code ≠ some .nextExit
  := by
  revert h
  cases s <;> cases d <;> decide +kernel

end Status

namespace Machine

variable {m n l : Machine} {v w : Vpid} {c : VCpu} {s : Status} {α β : Type}

/-- The program is not rejected: if it fails, then otherwise. -/
def Grants (x : CallM α) (m : Machine) : Prop :=
  Ends x m (fun _ _ => True) fun s _ => ¬ s.Rejects

/-- The request of the broker fails, if at all, otherwise than a rejected call. -/
def Admits (x : SysM α) (m : Machine) : Prop :=
  Ends x m (fun _ _ => True) fun e _ => ¬ (Status.ofSysError e).Rejects

/-- If the program is rejected, it leaves the machine, up to the journal. -/
def Spares (x : CallM α) (m n : Machine) : Prop :=
  Ends x m (fun _ _ => True) fun s l => s.Rejects → ∃ j, l = n.withJournal j

theorem Grants.spares {x : CallM α} (h : Grants x m) (n : Machine) :
  Spares x m n
  := h.mono (fun _ _ ht => ht) fun _ _ hs hr => absurd hr hs

namespace Spares

theorem of_withJournal {x : CallM α} {j : Journal} (h : Spares x m (n.withJournal j)) :
  Spares x m n
  := by
  apply h.mono (fun _ _ ht => ht)
  intro s l hl hs
  obtain ⟨j', rfl⟩ := hl hs
  exact ⟨j', rfl⟩

theorem bind_grants {y : CallM β} {f : β → CallM α} (hy : Spares y m n)
    (hf : ∀ b l, Grants (f b) l) :
  Spares (y >>= f) m n
  := Ends.bind hy fun b l _ => (hf b l).spares n

end Spares

/-- A program whose outcome is known leaves the machine if the outcome is a rejection. -/
theorem Concludes.spares {x : CallM α} {r : Except Status α} (hx : Concludes x m r l)
    (hr : ∀ s, r = .error s → s.Rejects → l = n) :
  Spares x m n
  := by
  obtain ⟨j, hj⟩ := hx m.journal
  change x m = _ at hj
  cases r with
  | ok a => exact Ends.ok hj trivial
  | error s =>
      apply Ends.error hj
      intro hs
      exact ⟨j, by rw [hr s rfl hs]⟩

/-! ### Programs that are not rejected -/

/-- A refused request is not a rejected call. -/
theorem admits_refuse (why : Refusal) :
  Admits (refuse why : SysM α) m
  := Ends.error rfl (Status.not_rejects_refusal why)

theorem grants_succeed (v : Vpid) (results : Registers → Registers) :
  Grants (succeed v results) m
  := by
  apply Ends.adaptExcept
  rw [succeed, modifyRegisters]
  cases hc : m.vcpu? v with
  | none => exact Ends.error (onVCpu_of_none hc _) (Status.not_rejects_refusal .unknownVpid)
  | some c => exact (yields_modifyRegisters hc _).ends fun _ => trivial

/-! ### Arguments -/

/-- The program looks for a registered processor and changes nothing, up to the journal. -/
def Finds (x : CallM Vpid) (m : Machine) : Prop :=
  Ends x m (fun w n => (∃ j, n = m.withJournal j) ∧ m.isRegistered w = true)
    (fun _ n => ∃ j, n = m.withJournal j)

theorem Spares.bind_of_finds {x : CallM Vpid} {f : Vpid → CallM α} {j : Journal}
    (hx : Finds x (m.withJournal j))
    (hf : ∀ w j, m.isRegistered w = true → Spares (f w) (m.withJournal j) m) :
  Spares (x >>= f) (m.withJournal j) m
  := by
  have hy : Ends x (m.withJournal j)
      (fun w n => (∃ j, n = m.withJournal j) ∧ m.isRegistered w = true)
      (fun s n => s.Rejects → ∃ j, n = m.withJournal j) :=
    Ends.mono hx (fun _ _ hw => hw) fun _ _ hl _ => hl
  apply Ends.bind hy
  rintro w _ ⟨⟨j', rfl⟩, hw⟩
  exact hf w j' hw

theorem finds_target (hc : m.vcpu? v = some c) (argument : Vpid) :
  Finds (target v argument) m
  := by
  cases ht : m.target? v argument with
  | none =>
      apply Ends.error (e := Status.invalidParams1) (t := m) _ ⟨m.journal, rfl⟩
      rw [target_eq hc, ht]
  | some w =>
      apply Ends.ok (a := w) (t := m) _ ⟨⟨m.journal, rfl⟩, isRegistered_of_target? ht⟩
      rw [target_eq hc, ht]

theorem finds_registerOwner (hc : m.vcpu? v = some c) (argument : Vpid) :
  Finds (registerOwner v argument) m
  := by
  rw [registerOwner]
  apply (yields_vcpu hc).adaptExcept.ends_bind
  intro j
  apply (yields_parentOf (m := m.withJournal j) hc).adaptExcept.ends_bind
  intro j₁
  split
  · exact Ends.error rfl ⟨j₁, rfl⟩
  · split
    · exact Ends.error rfl ⟨j₁, rfl⟩
    · split
      · split
        · exact Ends.error rfl ⟨j₁, rfl⟩
        · split
          · rename_i q hq
            exact Ends.pure ⟨⟨j₁, rfl⟩, (Option.filter_eq_some_iff.mp hq).2⟩
          · exact Ends.error rfl ⟨j₁, rfl⟩
      · split
        · exact Ends.error rfl ⟨j₁, rfl⟩
        · apply (yields_contains argument).adaptExcept.ends_bind
          intro j₂
          split
          · rename_i hr
            exact Ends.pure ⟨⟨j₂, rfl⟩, hr⟩
          · exact Ends.error rfl ⟨j₂, rfl⟩

/-! ### Switching controls -/

/-- What the listener sets refuse is not rejected. -/
theorem not_rejects_switchedControls (mask value : UInt64) (controls : List Control) :
  ∀ {m : Machine}, (switchedControls v w mask value controls m).1 = .error s → ¬ s.Rejects
  := by
  induction controls with
  | nil =>
      intro m hs
      nomatch hs
  | cons control controls ih =>
      intro m hs
      rw [switchedControls] at hs
      split at hs
      · exact ih hs
      · rename_i on _
        split at hs
        · exact ih hs
        · obtain rfl := Except.error.inj hs
          cases on with
          | true => decide
          | false => decide

/-- A request that is rejected has changed nothing. -/
theorem controlsSet_of_rejects {regs : Registers} {field : ControlField}
    (hs : (m.controlsSet v w regs field).1 = .error s) (hr : s.Rejects) :
  (m.controlsSet v w regs field).2 = m
  := by
  rw [controlsSet] at hs ⊢
  split
  · rename_i hd
    rw [if_pos hd] at hs
    simp only at hs
    cases hx : (switchedControls v w regs.r14 regs.r13 field.controls m).1 with
    | ok =>
        rw [hx] at hs
        cases hs
    | error s' =>
        rw [hx] at hs
        obtain rfl : s' = s := Except.error.inj hs
        exact absurd hr (not_rejects_switchedControls _ _ _ hx)
  · rfl

/-! ### Calls -/

theorem Spares.notingFailure {x : CallM α} (hx : Spares x m n) (field : ControlField) :
  Spares (notingFailure field x) m n
  := by
  apply ends_notingFailure
  apply hx.mono (fun _ _ ht => ht)
  intro s l hl hs
  obtain ⟨j, rfl⟩ := hl hs
  exact ⟨_, rfl⟩

/-- The machine after the arguments of a call have been looked at. -/
def heard (m : Machine) (v : Vpid) (call : Option Call) (cpl : UInt8) : Machine :=
  if call = some .vmwrite then m.leveled v cpl else m

theorem Holds.heard (h : m.Holds v) (call : Option Call) (cpl : UInt8) :
  (m.heard v call cpl).Holds v
  := by
  rw [Machine.heard]
  split
  · apply h.leveled
  · exact h

theorem heard_withJournal (call : Option Call) (cpl : UInt8) (j : Journal) :
  (m.withJournal j).heard v call cpl = (m.heard v call cpl).withJournal j
  := by
  rw [heard, heard]
  split
  · rfl
  · rfl

theorem vcpu?_heard (call : Option Call) (cpl : UInt8) :
  (m.heard v call cpl).vcpu? w = m.vcpu? w
  := by
  rw [heard]
  split
  · apply vcpu?_leveled
  · rfl

/-- What the call that switches controls does once the privilege level has been recorded. -/
def switching (caller : Vpid) (regs : Registers) : CallM Unit := do
  let target ← target caller regs.r11
  match ControlField.ofEncoding? regs.r12 with
  | none =>
    note (.unknownField regs.r12)
    throw .invalidParams2
  | some field =>
    let old ← notingFailure field (setControls caller target field)
    succeed caller fun regs => { regs with r10 := old }

section

variable (h : m.Holds v) (hf : m.Flawless) (hc : m.vcpu? v = some c)

include h hf hc

/-- The privilege level is recorded before the arguments are looked at. -/
theorem ends_writeControls_of_switching {Q : Unit → Machine → Prop} {E : Status → Machine → Prop}
    (hx : ∀ j, Ends (switching v c.regs) ((m.leveled v c.privilegeLevel).withJournal j) Q E) :
  Ends (writeControls v) m Q E
  := by
  obtain ⟨b, hb⟩ := isRegistered_iff_broker?.mp h.registered
  have hvmread := (hf.dependable v c hc).vmread
  rw [writeControls]
  apply (yields_privilegeLevel hc h.current hvmread).adaptExcept.ends_bind
  intro j
  have hlevel : Yields (modifyBroker v fun b => { b with cpl := c.privilegeLevel })
      (m.withJournal j) () (m.leveled v c.privilegeLevel) := yields_modifyBroker (m := m) hb _
  apply hlevel.adaptExcept.ends_bind
  intro j₁
  have hc' : ((m.leveled v c.privilegeLevel).withJournal j₁).vcpu? v = some c := by
    rw [vcpu?_withJournal, vcpu?_leveled, hc]
  apply (yields_registers hc').adaptExcept.ends_bind
  intro j₂
  exact hx j₂

/-- Bits that may not be changed are found before anything is changed. -/
theorem spares_setControls (hw : m.isRegistered w = true) (field : ControlField) :
  Spares (setControls v w field) m m
  := by
  have hs := concludes_setControls h hf hc hw field
  apply hs.spares
  intro s hx hr
  exact controlsSet_of_rejects hx hr

theorem spares_switching :
  Spares (switching v c.regs) m m
  := by
  rw [switching]
  apply Spares.bind_of_finds (j := m.journal) (finds_target hc _)
  intro w j hw
  split
  · apply (yields_note _).adaptExcept.ends_bind
    intro j₁
    exact Ends.throw fun _ => ⟨_, rfl⟩
  · rename_i field _
    have hs := spares_setControls (h.withJournal j) (m := m.withJournal j) hf hc hw field
    apply (hs.notingFailure field).of_withJournal.bind_grants
    intro old l
    apply grants_succeed

/-- The arguments are looked at before the register is read. -/
theorem spares_registerValue :
  Spares (registerValue v) m m
  := by
  rw [registerValue]
  apply (yields_registers hc).adaptExcept.ends_bind
  intro j
  apply Spares.bind_of_finds (finds_registerOwner (m := m.withJournal j) hc _)
  intro w j₁ hw
  split
  · exact Ends.throw fun _ => ⟨_, rfl⟩
  · rename_i i _
    apply Grants.spares
    obtain ⟨a, ha⟩ : ∃ a, Yields (readRegister w i) (m.withJournal j₁) a (m.withJournal j₁) := by
      rw [readRegister]
      split
      · obtain ⟨c', hc'⟩ := isRegistered_iff_vcpu?.mp hw
        exact ⟨_, (yields_registers (m := m.withJournal j₁) hc').map⟩
      · exact ⟨_, yields_vmread_elsewhere (h.withJournal j₁) hf hw _⟩
    apply ha.adaptExcept.ends_bind
    intro j₂
    apply grants_succeed

theorem spares_readField :
  Spares (readField v) m m
  := by
  rw [readField]
  apply (yields_registers hc).adaptExcept.ends_bind
  intro j
  apply Spares.bind_of_finds (finds_target (m := m.withJournal j) hc _)
  intro w j₁ hw
  split
  · apply Grants.spares
    have ha := yields_vmread_elsewhere (h.withJournal j₁) (m := m.withJournal j₁) hf hw
      c.regs.r12.toUInt32
    apply ha.adaptExcept.ends_bind
    intro j₂
    apply grants_succeed
  · exact Ends.throw fun _ => ⟨_, rfl⟩

end

/-- Pausing and resuming are not rejected, whomever they name. -/
theorem grants_schedule (hc : m.vcpu? v = some c) (pausing : Bool) :
  Grants (schedule v pausing) m
  := by
  rw [schedule]
  apply (yields_registers hc).adaptExcept.ends_bind
  intro j
  have hwho : Ends (scheduled v c.regs.r11) (m.withJournal j)
      (fun who n => ∀ w, who = some w → n.isRegistered w = true) (fun _ _ => False) := by
    rw [scheduled]
    split
    · apply (yields_parentOf (m := m.withJournal j) hc).ends
      intro _ w hw
      exact (Option.filter_eq_some_iff.mp hw).2
    · apply Ends.bind_ok contains_eq
      split
      · rename_i hr
        apply Ends.pure
        rintro w ⟨⟩
        exact hr
      · apply Ends.pure
        intro w hw
        exact absurd hw (Option.some_ne_none w).symm
  apply Ends.bind (Ends.adaptExcept (hwho.mono (fun _ _ hx => hx) (fun _ _ hx => hx.elim)))
  intro who n hn
  cases who with
  | none =>
      apply (yields_note _).adaptExcept.ends_bind
      intro _
      exact Ends.throw (by decide)
  | some w =>
      obtain ⟨c', hc'⟩ := isRegistered_iff_vcpu?.mp (hn w rfl)
      obtain ⟨l, hl⟩ : ∃ l,
          Yields (onVCpu w (if pausing then VcpuM.pause else VcpuM.resume)) n () l := by
        cases pausing with
        | true => exact ⟨_, yields_pause hc'⟩
        | false => exact ⟨_, yields_resume hc'⟩
      apply hl.adaptExcept.ends_bind
      intro _
      apply grants_succeed

theorem grants_translateAddress (hf : m.Flawless) (hc : m.vcpu? v = some c) :
  Grants (translateAddress v) m
  := by
  rw [translateAddress]
  apply (yields_registers hc).adaptExcept.ends_bind
  intro j
  have ht : c.faults.get .translate = {} := by
    rw [hf v c hc]
    rfl
  apply (yields_translate (m := m.withJournal j) hc ht _).adaptExcept.ends_bind
  intro j₁
  apply (yields_note _).adaptExcept.ends_bind
  intro j₂
  apply grants_succeed

/-- An answered event comes to somebody else or lets its origin go on, which cannot fail. -/
theorem grants_endOfExit (hf : m.Flawless) (hc : m.vcpu? v = some c) :
  Grants (endOfExit v) m
  := by
  apply Ends.adaptExcept
  rw [endOfExit]
  apply (yields_registers hc).ends_bind
  intro j
  cases hs : m.slot v with
  | nil =>
      have hv : (m.withJournal j).isRegistered v = true := isRegistered_iff_vcpu?.mpr ⟨c, hc⟩
      apply (yields_pop_nil hv hs).ends_bind
      intro j₁
      apply (yields_note _).ends_bind
      intro j₂
      apply admits_refuse
  | cons e es =>
      have hc' : (m.mapBroker v Broker.Effect.pop.apply).vcpu? v = some c := by
        rw [vcpu?_mapBroker, hc]
      apply (yields_pop (m := m.withJournal j) hs).ends_bind
      intro j₁
      apply Ends.bind_ok contains_eq
      split
      · rename_i ho
        have hset : Yields
            (modifyRegisters v fun regs => { regs with rax := Status.success.code })
            (((m.withJournal j).mapBroker v Broker.Effect.pop.apply).withJournal j₁) ()
            (m.answered v) := yields_modifyRegisters hc' _
        have hf' : (m.answered v).Flawless := hf.answered v
        have ho' : (m.answered v).isRegistered e.origin = true := by
          rw [isRegistered_answered, ← ho, isRegistered_withJournal, isRegistered_mapBroker,
            isRegistered_withJournal]
        obtain ⟨co, hco⟩ := isRegistered_iff_vcpu?.mp ho'
        apply hset.ends_bind
        intro j₂
        split
        · apply (yields_note _).ends_bind
          intro j₃
          exact (yields_release (m := (m.answered v).withJournal j₃) hco
            (hf'.dependable _ co hco).mobile _).ends fun _ => trivial
        · apply (yields_note _).ends_bind
          intro j₃
          obtain ⟨t, n, hx, -⟩ :=
            exists_yields_passOn (m := (m.answered v).withJournal j₃) ho' hf'
          exact hx.ends fun _ => trivial
      · apply (yields_note _).ends_bind
        intro j₂
        apply admits_refuse

/-- A call that is rejected has at most had the privilege level of its caller recorded. -/
theorem spares_serve (h : m.Holds v) (hf : m.Flawless) (hc : m.vcpu? v = some c) {call : Call}
    (hcall : call ≠ .nextExit) :
  Spares (serve v call) m (m.heard v (some call) c.privilegeLevel)
  := by
  have hrun : ∀ {x : CallM Unit} {n : Machine}, Spares x m n →
      Spares (do x; pure (Transfer.run v) : CallM Transfer) m n := fun hx =>
    hx.bind_grants fun _ _ => Ends.pure trivial
  cases call with
  | pause => exact hrun ((grants_schedule hc true).spares m)
  | resume => exact hrun ((grants_schedule hc false).spares m)
  | registerValue => exact hrun (spares_registerValue h hf hc)
  | nextExit => exact absurd rfl hcall
  | endOfExit => exact (grants_endOfExit hf hc).spares m
  | vmread => exact hrun (spares_readField h hf hc)
  | vmwrite =>
      apply hrun
      apply ends_writeControls_of_switching h hf hc
      intro j
      have hs := spares_switching (m := (m.leveled v c.privilegeLevel).withJournal j)
        ((h.leveled c.privilegeLevel).withJournal j) (hf.leveled v c.privilegeLevel)
        (by rw [vcpu?_withJournal, vcpu?_leveled, hc])
      exact hs.of_withJournal
  | translate => exact hrun ((grants_translateAddress hf hc).spares m)

/-- A caller that asks for the next event is not rejected. -/
theorem not_reports_serveNextExit (hc : m.vcpu? v = some c) (h : m.current = some v)
    (hs : m.Steady) (hrax : ∀ s : Status, s.Rejects → c.regs.rax ≠ s.code) :
  Ends (serveNextExit v) m (fun _ n => ∀ s : Status, s.Rejects → ¬ n.Reports v s)
    (fun _ _ => True)
  := by
  have hq : Ends (nextExit v) m (fun _ n => ∀ s : Status, s.Rejects → ¬ n.Reports v s)
      (fun e _ => ∃ why : Refusal, e = why.error) := by
    apply (ends_nextExit hc h hs).mono
    · rintro _ n (⟨-, hr⟩ | hw) s hs hs'
      · rw [hs'.eq hr] at hs
        exact absurd hs (by decide)
      · rw [Reports, hw.caller, hc, Option.map_some] at hs'
        exact hrax s hs (Option.some.inj hs')
    · intro _ _ hx
      exact hx.2
  rw [serveNextExit]
  apply Ends.tryCatch hq
  rintro _ n ⟨why, rfl⟩
  apply Ends.bind_last
  intro _ _
  apply Ends.bind_last
  intro _ n
  apply (reports_fail v _).imp
  intro _ n hr s hs hs'
  rw [hs'.eq hr] at hs
  exact Status.not_rejects_refusal why hs

/-! ### Rejection -/

/-- The machine after a call has been rejected: its caller is loaded, has gone on behind the
call and finds the status in `rax`.  The call that switches controls has been heard. -/
def rejected (m : Machine) (v : Vpid) (c : VCpu) (s : Status) : Machine :=
  (((m.switchTo v).mapVCpu v VCpu.advanced).heard v (m.call? v) c.privilegeLevel).mapVCpu v
    (VCpu.assigned fun regs => { regs with rax := s.code })

/-- If a rejection stands in `rax` of the caller, it runs, and the machine is as it is after
the rejection of a call that found the machine `l`. -/
def Spotless (l : Machine) (v : Vpid) (t : Transfer) (n : Machine) : Prop :=
  ∀ s : Status, s.Rejects → n.Reports v s → t = .run v ∧
    ∃ j, n = (l.mapVCpu v (VCpu.assigned fun regs => { regs with rax := s.code })).withJournal j

theorem spotless_fail (h : l.Holds v) (hc : l.vcpu? v = some c) (hs : c.faults.Steady)
    (hn : s.Rejects → ∃ j, n = l.withJournal j) :
  Ends (fail v s) n (Spotless l v) (fun _ _ => True)
  := by
  by_cases hr : s.Rejects
  · obtain ⟨j, rfl⟩ := hn hr
    have hx := yields_fail (m := l.withJournal j) hc hs s
    have hl : (l.withJournal j).switchTo v = l.withJournal j :=
      switchTo_eq_self h.loaded h.current
    rw [hl] at hx
    have hend : Ends (fail v s) (l.withJournal j) (fun t n => t = .run v ∧ ∃ j, n =
        (l.mapVCpu v (VCpu.assigned fun regs => { regs with rax := s.code })).withJournal j)
        (fun _ _ => True) := hx.ends fun j' => ⟨rfl, j', rfl⟩
    apply (hend.and (reports_fail v s)).imp
    rintro t n ⟨hx, hrep⟩ s' - hrep'
    rw [hrep'.eq hrep]
    exact hx
  · apply (reports_fail v s).imp
    intro t n hrep s' hs' hrep'
    rw [hrep'.eq hrep] at hs'
    exact absurd hs' hr

theorem spotless_serveAdvanced (h : m.Holds v) (hf : m.Flawless) (hc : m.vcpu? v = some c)
    {call : Option Call} (hcall : call ≠ some .nextExit) :
  Ends (serveAdvanced v call) m
    (Spotless ((m.mapVCpu v VCpu.advanced).heard v call c.privilegeLevel) v) (fun _ _ => True)
  := by
  have h₁ := h.mapVCpu v VCpu.advanced
  have hf₁ : (m.mapVCpu v VCpu.advanced).Flawless := hf.mapVCpu VCpu.faults_advanced v
  have hc₁ := vcpu?_mapVCpu_of_some hc VCpu.advanced
  have hs : c.advanced.faults.Steady := hf₁.steady v c.advanced hc₁
  have hlevel : c.advanced.privilegeLevel = c.privilegeLevel := by
    rw [VCpu.privilegeLevel, VCpu.privilegeLevel, VCpu.advanced, VCpu.written,
      Vmcs.read_write_of_ne _ _ (by decide)]
  -- A call that fails does so with the machine as it has been heard, if it is rejected.
  have hfail : ∀ {s n}, (s.Rejects → ∃ j, n =
      ((m.mapVCpu v VCpu.advanced).heard v call c.privilegeLevel).withJournal j) →
      Ends (fail v s) n
        (Spotless ((m.mapVCpu v VCpu.advanced).heard v call c.privilegeLevel) v)
        (fun _ _ => True) := fun hn =>
    spotless_fail (h₁.heard call _) ((vcpu?_heard call _).trans hc₁) hs hn
  rw [serveAdvanced.eq_def]
  apply (yields_advance hc h.current (hf.dependable v c hc).advance).ends_bind
  intro j
  apply ends_completing
  cases call with
  | none => exact Ends.error rfl (hfail fun _ => ⟨j, rfl⟩)
  | some call =>
      have hne : call ≠ .nextExit := by
        rintro rfl
        exact hcall rfl
      have hx := spares_serve (h₁.withJournal j)
        (m := (m.mapVCpu v VCpu.advanced).withJournal j) hf₁ hc₁ hne
      rw [heard_withJournal, hlevel] at hx
      apply (hx.of_withJournal.and (reports_serve v hne)).mono
      · rintro t n ⟨-, hrep⟩ s hs hrep'
        rw [hrep'.eq hrep] at hs
        exact absurd hs (by decide)
      · rintro s n ⟨hn, -⟩
        exact hfail hn

/-- A hypercall ends in what its call ends in, if a note more does not matter. -/
theorem ends_handleHypercall_of_call {Q : Transfer → Machine → Prop}
    (hm : m.loaded = some v → m.current = some v) (hf : m.Flawless) (hc : m.vcpu? v = some c)
    (hx : ∀ j, Ends (serveCall v (m.call? v)) ((m.switchTo v).withJournal j) Q (fun _ _ => True))
    (hQ : ∀ t n j, Q t n → Q t (n.withJournal j)) :
  Ends (handleHypercall v) m (fun t n => ∀ t', t = some t' → Q t' n) (fun _ _ => True)
  := by
  rw [handleHypercall]
  apply (yields_vcpu hc).ends_bind
  intro j
  simp only
  split
  · exact Ends.pure fun t' ht => absurd ht (Option.some_ne_none t').symm
  · rename_i family hfam
    have hcall : m.call? v =
        (Call.ofIndex? family (Selector.ofWord c.regs.rax).index).filter (mayCall c.domain) := by
      rw [call?, hc, Option.bind_some, Call.ofWord?, hfam, Option.bind_some]
    have hload := (hf.dependable v c hc).load
    apply (yields_enter (m := m.withJournal j) hm hc hload).ends_bind
    intro j₁
    rw [← hcall]
    apply Ends.bind (hx j₁)
    intro t n hn
    have hnote : Ends (noteChanges c.regs.rax v c.regs) n (fun _ l => ∃ j, l = n.withJournal j)
        (fun _ _ => True) := by
      rw [noteChanges]
      apply Ends.bind (ends_registers (Set.subset_univ _) v).forget
      rintro after n ⟨-, rfl⟩
      split
      · exact Ends.pure ⟨n.journal, rfl⟩
      · exact (yields_note _).ends fun j => ⟨j, rfl⟩
    apply hnote.bind
    rintro _ _ ⟨j₂, rfl⟩
    apply Ends.pure
    rintro t' ⟨⟩
    exact hQ t n j₂ hn

/-- A rejected hypercall has run its caller and left the machine as it says. -/
theorem spotless_handleHypercall (hm : m.loaded = some v → m.current = some v) (hf : m.Flawless)
    (hc : m.vcpu? v = some c) :
  Ends (handleHypercall v) m
    (fun t n => ∀ t', t = some t' →
      Spotless (((m.switchTo v).mapVCpu v VCpu.advanced).heard v (m.call? v) c.privilegeLevel) v
        t' n)
    (fun _ _ => True)
  := by
  apply ends_handleHypercall_of_call hm hf hc
  · intro j
    have h : ((m.switchTo v).withJournal j).Holds v :=
      ⟨isRegistered_iff_vcpu?.mpr ⟨c, hc⟩, rfl, rfl⟩
    rw [serveCall]
    split
    · rename_i hcall
      have hrax : ∀ s : Status, s.Rejects → c.regs.rax ≠ s.code := by
        intro s hs he
        rw [call?, hc, Option.bind_some, he] at hcall
        exact Status.ofWord?_code_of_rejects hs c.domain hcall
      apply (not_reports_serveNextExit (m := (m.switchTo v).withJournal j) hc rfl hf.steady
        hrax).imp
      intro _ _ hn s hs hs'
      exact absurd hs' (hn s hs)
    · rename_i hcall
      have hx := spotless_serveAdvanced h hf hc hcall
      have hheard : (((m.switchTo v).withJournal j).mapVCpu v VCpu.advanced).heard v (m.call? v)
          c.privilegeLevel = (((m.switchTo v).mapVCpu v VCpu.advanced).heard v (m.call? v)
            c.privilegeLevel).withJournal j :=
        heard_withJournal (m := (m.switchTo v).mapVCpu v VCpu.advanced) _ _ j
      rw [hheard] at hx
      exact hx
  · intro t n j hn s hs hs'
    obtain ⟨ht, j', rfl⟩ := hn s hs hs'
    exact ⟨ht, j, rfl⟩

/-! ### Bits that may not be changed -/

section

variable {target : Vpid} {field : ControlField}

theorem rewritten_of_denied (hfield : ControlField.ofEncoding? c.regs.r12 = some field)
    (hd : c.regs.r14 &&& ~~~field.allowance ≠ 0) :
  m.rewritten v target c =
    (m.leveled v c.privilegeLevel).mapVCpu v (VCpu.replied (.error .invalidParams4))
  := by
  have hw : (m.leveled v c.privilegeLevel).controlsWritten v target c.regs =
      (.error .invalidParams4, m.leveled v c.privilegeLevel) := by
    rw [controlsWritten, hfield]
    exact if_neg hd
  rw [rewritten, hw]
  rfl

theorem denied_serveCall (h : m.Holds v) (hf : m.Flawless) (hc : m.vcpu? v = some c)
    (ht : m.target? v c.regs.r11 = some target)
    (hfield : ControlField.ofEncoding? c.regs.r12 = some field)
    (hd : c.regs.r14 &&& ~~~field.allowance ≠ 0) :
  Ends (serveCall v (some .vmwrite)) m (fun t n => t = .run v ∧ n.Reports v .invalidParams4)
    (fun _ _ => True)
  := by
  have hc₁ := vcpu?_mapVCpu_of_some hc VCpu.advanced
  have hserve := yields_serve_vmwrite (h.mapVCpu v VCpu.advanced)
    (hf.mapVCpu VCpu.faults_advanced v) hc₁ ((target?_advanced _).trans ht)
  rw [rewritten_of_denied (c := c.advanced) hfield hd] at hserve
  have hadvance := (hf.dependable v c hc).advance
  apply (yields_serveCall (by decide) hc h.current hadvance hserve).ends
  intro j
  refine ⟨rfl, ?_⟩
  have hl : ((m.mapVCpu v VCpu.advanced).leveled v c.advanced.privilegeLevel).vcpu? v =
      some c.advanced := (vcpu?_leveled _).trans hc₁
  rw [Reports, vcpu?_withJournal, vcpu?_mapVCpu_of_some hl]
  rfl

end

/-- A hypercall that is rejected has no effect but that its caller is loaded, has gone on
behind the call and finds the status in `rax`; if it is the one that switches controls, the
privilege level of its caller has been recorded.  That call is rejected whenever it names a
target and a field of controls but is to change a bit that may not be changed. -/
theorem rejection (hm : ∀ w, m.loaded = some w → m.current = some w) (hf : m.Flawless)
    (hc : m.vcpu? v = some c) :
  (∀ t n s, handleHypercall v m = .ok (some t) n → n.Reports v s → s.Rejects →
      t = .run v ∧ ∃ j, n = (m.rejected v c s).withJournal j) ∧
    ∀ target field, m.call? v = some .vmwrite → m.target? v c.regs.r11 = some target →
      ControlField.ofEncoding? c.regs.r12 = some field →
      c.regs.r14 &&& ~~~field.allowance ≠ 0 →
      ∃ n, handleHypercall v m = .ok (some (.run v)) n ∧ n.Reports v .invalidParams4
  := by
  constructor
  · intro t n s hx hrep hs
    have hend := spotless_handleHypercall (hm v) hf hc
    rw [Ends, hx] at hend
    exact hend t rfl s hs hrep
  · intro target field hcall ht hfield hd
    obtain ⟨family, hfam, -⟩ : ∃ family, Family.ofOpcode? (Selector.ofWord c.regs.rax).opcode =
        some family ∧ _ := by
      rw [call?, hc, Option.bind_some, Call.ofWord?] at hcall
      exact Option.bind_eq_some_iff.mp hcall
    have hrun := ends_handleHypercall_of_call
      (Q := fun t n => t = .run v ∧ n.Reports v .invalidParams4) (hm v) hf hc
      (by
        intro j
        rw [hcall]
        exact denied_serveCall (m := (m.switchTo v).withJournal j)
          ⟨isRegistered_iff_vcpu?.mpr ⟨c, hc⟩, rfl, rfl⟩ hf hc ht hfield hd)
      (fun _ _ _ hx => hx)
    have hanswer := ends_handleHypercall (hm v) hf.steady hc hfam
    obtain ⟨_, n, hx, ht', _, rfl, -⟩ | ⟨_, _, -, -, h⟩ := (hrun.and hanswer).cases
    · obtain ⟨rfl, hr⟩ := ht' _ rfl
      exact ⟨n, hx, hr⟩
    · exact h.elim

/-- A guest is to switch a control of its parent that it may not change. -/
theorem rejection_of_denied_bit :
  let caller : VCpu := { parent := some 1, regs := {
    rax := 0x60003, r11 := 1, r12 := 0x4002, r13 := 1, r14 := 1 } }
  let m₀ : Machine := {}
  let m₁ : Machine := { m₀ with residents := m₀.residents.insert 1 ⟨{}, {}⟩ }
  let m : Machine := { m₁ with residents := m₁.residents.insert 2 ⟨caller, {}⟩ }
  ∃ j, handleHypercall 2 m =
    .ok (some (.run 2)) ((m.rejected 2 caller .invalidParams4).withJournal j)
  := by
  intro caller m₀ m₁ m
  have hf₀ : m₀.Flawless := guarantees_of_residents rfl
  have hf₁ : m₁.Flawless := hf₀.insert 1 rfl
  have hf : m.Flawless := hf₁.insert 2 rfl
  have hc : m.vcpu? 2 = some caller := by
    change { m₁ with residents := _ }.vcpu? 2 = _
    rw [vcpu?_insert, if_pos rfl]
  have hm : ∀ w, m.loaded = some w → m.current = some w := by
    intro w hw
    exact absurd hw (Option.some_ne_none w).symm
  obtain ⟨n, hx, hr⟩ := (rejection hm hf hc).2 1 .primary (by decide +kernel) (by decide +kernel)
    (by decide) (by decide)
  obtain ⟨-, j, rfl⟩ := (rejection hm hf hc).1 (.run 2) n .invalidParams4 hx hr (by decide)
  exact ⟨j, hx⟩

end Machine

end ExitRelay
