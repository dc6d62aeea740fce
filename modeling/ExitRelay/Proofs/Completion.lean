import ExitRelay.Proofs.Balance
import ExitRelay.Proofs.Execution.Exit
import ExitRelay.Proofs.Holding

/-!
# Completion of hypercalls

A hypercall that the broker serves is completed exactly once, whatever becomes of it: the
caller goes on behind the call, and a status stands in its `rax`.  Two things are kept apart
here.  The instruction pointer is moved before the call is carried out, and the call does not
move it again; the status is written last, by the call or after it has failed.  Only a
listener that has to wait leaves its call as it was and repeats it.

Processors must be loaded and advanced without failing; everything else may fail.
-/

namespace ExitRelay

/-- Loading and advancing never fail. -/
structure Faults.Steady (f : Faults) : Prop where
  load : f.load = {}
  advance : f.advance = {}

theorem Faults.Steady.next {f : Faults} (h : f.Steady) (k : Method) :
  (f.set k (f.get k).next).Steady
  := by
  obtain ⟨hl, ha⟩ := h
  cases k with
  | load => exact ⟨congrArg FaultPlan.next hl, ha⟩
  | advance => exact ⟨hl, congrArg FaultPlan.next ha⟩
  | _ => exact ⟨hl, ha⟩

namespace Effect

/-- The effects that do not move a processor behind an instruction. -/
def still (v : Vpid) : Set Effect :=
  {k | k ≠ .vcpu v .advance}

/-- The effects that leave the results of a processor alone. -/
def withoutResults (v : Vpid) : Set Effect :=
  {k | ∀ f, k ≠ .vcpu v (.results f)}

variable {v o : Vpid}

theorem routine_subset_still :
  routine ⊆ still v
  := by
  rintro _ hk rfl
  exact hk

theorem scheduling_subset_still :
  scheduling ⊆ still v
  := by
  rintro _ hk rfl
  exact hk

theorem delivery_subset_still (h : o ≠ v) :
  delivery o ⊆ still v
  := by
  rintro _ hk rfl
  exact h hk.symm

theorem routine_subset_withoutResults :
  routine ⊆ withoutResults v
  := by
  rintro _ hk f rfl
  exact hk

theorem delivery_subset_withoutResults :
  delivery o ⊆ withoutResults v
  := by
  rintro _ hk f rfl
  exact hk

end Effect

namespace Machine

/-- Loading and advancing never fail on any processor. -/
def Steady (m : Machine) : Prop :=
  m.Guarantees Faults.Steady

/-- The instruction pointer of a processor. -/
def rip? (m : Machine) (v : Vpid) : Option UInt64 :=
  (m.vcpu? v).map (·.vmcs.read Field.rip)

/-- The status stands in `rax` of the processor. -/
def Reports (m : Machine) (v : Vpid) (s : Status) : Prop :=
  (m.vcpu? v).map (·.regs.rax) = some s.code

variable {m n : Machine} {v w : Vpid} {c : VCpu} {k : Effect} {p : Set Effect}

theorem Flawless.steady (h : m.Flawless) :
  m.Steady
  := by
  intro v c hc
  have hd := h.dependable v c hc
  exact ⟨hd.load, hd.advance⟩

theorem Path.steady (h : Path p m n) (hm : m.Steady) :
  n.Steady
  := h.keeps (fun k _ _ _ hl => Guarantees.apply hl (fun _ k hf => hf.next k) k) hm

/-! ### What calls leave alone -/

theorem Path.rip? (h : Path (Effect.still v) m n) :
  n.rip? v = m.rip? v
  := by
  apply h.map_vcpu?
  intro k hk _ c
  cases k with
  | advance => exact absurd rfl hk
  | control control on =>
      apply Vmcs.read_write_of_ne
      cases control <;> decide
  | cr3 w =>
      apply Vmcs.read_write_of_ne
      decide
  | _ => rfl

/-- The registers change only when results are put into them. -/
theorem Path.regs (h : Path (Effect.withoutResults v) m n) :
  (n.vcpu? v).map (·.regs) = (m.vcpu? v).map (·.regs)
  := by
  apply h.map_vcpu?
  intro k hk _ c
  cases k with
  | results f => exact absurd rfl (hk f)
  | _ => rfl

theorem Path.reports_iff {s : Status} (h : Path (Effect.withoutResults v) m n) :
  n.Reports v s ↔ m.Reports v s
  := by
  have hr := congrArg (Option.map Registers.rax) h.regs
  rw [Option.map_map, Option.map_map] at hr
  rw [Reports, Reports]
  exact Eq.congr_left hr

theorem Reports.path {s : Status} (h : m.Reports v s)
    (hp : Path (Effect.withoutResults v) m n) :
  n.Reports v s
  := hp.reports_iff.mpr h

/-- At most one status stands in `rax`. -/
theorem Reports.eq {s s' : Status} (h : m.Reports v s) (h' : m.Reports v s') :
  s = s'
  := by
  rw [Reports, h] at h'
  exact Status.code_inj.mp (Option.some.inj h')

/-! ### The instruction pointer -/

/-- The events of the caller's target that may be settled are not the caller's own. -/
theorem walks_still_setControls (h : m.Agrees)
    (hs : ∀ e, (m.slot v).head? = some e → e.origin ≠ v) (target : Vpid)
    (field : ControlField) :
  Walks (Effect.still v) (setControls v target field) m
  := by
  by_cases ht : target = v
  · -- Nothing can be settled, so nothing is popped and the event in flight stays the same.
    subst ht
    have hp : Effect.routine ⊆ Effect.quiet ∩ Effect.still target :=
      Set.subset_inter Effect.routine_subset_quiet Effect.routine_subset_still
    have hw : Walks (Effect.quiet ∩ Effect.still target) (setControls target target field) m := by
      apply walks_setControls hp h.trusts
      · intro n e hn he ho
        rw [(hn.mono Set.inter_subset_left).slot] at he
        exact absurd ho (hs e he)
      · intro c
        exact ⟨trivial, Effect.noConfusion⟩
    apply hw.mono Set.inter_subset_right
  · apply walks_setControls Effect.routine_subset_still h.trusts
    · apply settleable Effect.noConfusion
      apply (Effect.freeing_subset_delivery target).trans
      apply Effect.delivery_subset_still ht
    · intro c
      exact Effect.noConfusion

/-- A call does not move its caller, unless the caller holds an event of its own. -/
theorem walks_still_serve (h : m.Holds v) {call : Call} (hcall : call ≠ .nextExit)
    (hs : ∀ e, (m.slot v).head? = some e → e.origin ≠ v) :
  Walks (Effect.still v) (serve v call) m
  := by
  have hp : Effect.routine ⊆ Effect.still v := Effect.routine_subset_still
  have ha : ∀ f, Effect.vcpu v (.results f) ∈ Effect.still v := by
    intro f hk
    exact VCpu.Effect.noConfusion (Effect.vcpu.inj hk).2
  cases call with
  | nextExit => exact absurd rfl hcall
  | endOfExit =>
      apply Walks.adaptExcept
      apply walks_endOfExit hp Effect.noConfusion _ ha
      intro e he
      apply (Effect.passing_subset_delivery _).trans (Effect.delivery_subset_still (hs e he))
  | vmwrite =>
      apply Walks.bind
      · apply ends_writeControls (Set.Subset.refl _) h.aimed (fun _ _ hn => hn.1.mono hp)
        intro _ target field n hn _ _ _
        apply Walks.behind _ (hn.1.mono hp)
        apply Walks.bind
        · apply walks_notingFailure hp
          apply walks_still_setControls (hn.1.agrees h.agrees)
          rw [(hn.1.mono Effect.routine_subset_quiet).slot]
          exact hs
        · intro old _ _
          apply Walks.adaptExcept
          apply Remains.walks
          apply remains_succeed hp (Registers.setsResults_r10 old) ha
      · intro _ _ _
        apply Walks.pure _
  | pause =>
      apply walks_serve hp h.agrees.trusts h.aimed ha
      apply Effect.scheduling_subset_still
  | resume =>
      apply walks_serve hp h.agrees.trusts h.aimed ha
      apply Effect.scheduling_subset_still
  | _ =>
      apply walks_serve hp h.agrees.trusts h.aimed ha
      intro _ hk
      exact False.elim hk

/-! ### The status -/

/-- The register changes are the last thing that a program does. -/
theorem ends_modifyRegisters {f : Registers → Registers} {s : Status}
    (hf : ∀ regs, (f regs).rax = s.code) :
  Ends (modifyRegisters v f) m (fun _ n => n.Reports v s) (fun _ _ => True)
  := by
  cases hc : m.vcpu? v with
  | none => exact Ends.error (onVCpu_of_none hc _) trivial
  | some c =>
      apply (yields_modifyRegisters hc f).ends
      intro j
      rw [Reports, vcpu?_withJournal, vcpu?_mapVCpu_of_some hc, Option.map_some]
      exact congrArg some (hf c.regs)

theorem reports_succeed (v : Vpid) (results : Registers → Registers) :
  Ends (succeed v results) m (fun _ n => n.Reports v .success) (fun _ _ => True)
  := ends_modifyRegisters fun _ => rfl

theorem reports_schedule (v : Vpid) (pausing : Bool) :
  Ends (schedule v pausing) m (fun _ n => n.Reports v .success) (fun _ _ => True)
  := by
  rw [schedule]
  apply Ends.bind_last
  intro regs _
  apply Ends.bind_last
  intro who n
  cases who with
  | none =>
      apply Ends.bind_last
      intro _ _
      apply Ends.error rfl trivial
  | some w =>
      apply Ends.bind_last
      intro _ _
      apply Ends.adaptExcept
      apply reports_succeed

theorem reports_registerValue (v : Vpid) :
  Ends (registerValue v) m (fun _ n => n.Reports v .success) (fun _ _ => True)
  := by
  rw [registerValue]
  apply Ends.bind_last
  intro regs _
  apply Ends.bind_last
  intro owner _
  split
  · apply Ends.error rfl trivial
  · apply Ends.bind_last
    intro _ _
    apply Ends.adaptExcept
    apply reports_succeed

theorem reports_readField (v : Vpid) :
  Ends (readField v) m (fun _ n => n.Reports v .success) (fun _ _ => True)
  := by
  rw [readField]
  apply Ends.bind_last
  intro regs _
  apply Ends.bind_last
  intro target _
  split
  · apply Ends.bind_last
    intro _ _
    apply Ends.adaptExcept
    apply reports_succeed
  · apply Ends.error rfl trivial

theorem reports_writeControls (v : Vpid) :
  Ends (writeControls v) m (fun _ n => n.Reports v .success) (fun _ _ => True)
  := by
  rw [writeControls]
  apply Ends.bind_last
  intro cpl _
  apply Ends.bind_last
  intro _ _
  apply Ends.bind_last
  intro regs _
  apply Ends.bind_last
  intro target _
  split
  · apply Ends.bind_last
    intro _ _
    apply Ends.error rfl trivial
  · apply Ends.bind_last
    intro _ _
    apply Ends.adaptExcept
    apply reports_succeed

theorem reports_translateAddress (v : Vpid) :
  Ends (translateAddress v) m (fun _ n => n.Reports v .success) (fun _ _ => True)
  := by
  rw [translateAddress]
  apply Ends.bind_last
  intro regs _
  apply Ends.bind_last
  intro gpa _
  apply Ends.bind_last
  intro _ _
  apply Ends.adaptExcept
  apply reports_succeed

/-- The status is written before the origin goes on or the next listener runs, which leaves
it as it is. -/
theorem reports_endOfExit (v : Vpid) :
  Ends (endOfExit v) m (fun _ n => n.Reports v .success) (fun _ _ => True)
  := by
  have hp : Effect.routine ⊆ Effect.withoutResults v := Effect.routine_subset_withoutResults
  have hd : ∀ o, Effect.delivery o ⊆ Effect.withoutResults v :=
    fun _ => Effect.delivery_subset_withoutResults
  have hlast : ∀ {x : SysM Transfer} {n : Machine}, Walks (Effect.withoutResults v) x n →
      n.Reports v .success → Ends x n (fun _ l => l.Reports v .success) (fun _ _ => True) :=
    fun hx hn => Ends.mono hx (fun _ _ hl => hn.path hl) (fun _ _ _ => trivial)
  rw [endOfExit]
  apply Ends.bind_last
  intro regs _
  apply Ends.bind_last
  intro front _
  cases front with
  | none =>
      apply Ends.bind_last
      intro _ _
      apply ends_refuse
  | some e =>
      apply Ends.bind_ok contains_eq
      split
      · apply Ends.bind (ends_modifyRegisters (s := .success) fun _ => rfl)
        intro _ n hn
        split
        · apply hlast _ hn
          apply (remains_note hp _).bind_walks
          intro _ _ _
          apply walks_release hp ((Effect.freeing_subset_delivery _).trans (hd _))
        · apply hlast _ hn
          apply (remains_note hp _).bind_walks
          intro _ _ _
          apply walks_passOn hp ((Effect.passing_subset_delivery _).trans (hd _))
      · apply Ends.bind_last
        intro _ _
        apply ends_refuse

/-- A call that succeeds reports success. -/
theorem reports_serve (v : Vpid) {call : Call} (hcall : call ≠ .nextExit) :
  Ends (serve v call) m (fun _ n => n.Reports v .success) (fun _ _ => True)
  := by
  have hrun : ∀ {x : CallM Unit}, Ends x m (fun _ n => n.Reports v .success) (fun _ _ => True) →
      Ends (do x; pure (Transfer.run v) : CallM Transfer) m (fun _ n => n.Reports v .success)
        (fun _ _ => True) := by
    intro x hx
    apply Ends.bind hx
    intro _ n hn
    exact Ends.pure hn
  cases call with
  | pause => exact hrun (reports_schedule v true)
  | resume => exact hrun (reports_schedule v false)
  | registerValue => exact hrun (reports_registerValue v)
  | nextExit => exact absurd rfl hcall
  | endOfExit => exact (reports_endOfExit v).adaptExcept
  | vmread => exact hrun (reports_readField v)
  | vmwrite => exact hrun (reports_writeControls v)
  | translate => exact hrun (reports_translateAddress v)

theorem reports_fail (v : Vpid) (s : Status) :
  Ends (fail v s) m (fun _ n => n.Reports v s) (fun _ _ => True)
  := by
  rw [fail]
  apply Ends.bind_last
  intro _ _
  apply Ends.bind_last
  intro _ _
  apply (ends_modifyRegisters fun _ => rfl).bind
  intro _ n hn
  exact Ends.pure hn

/-! ### The status of a failure -/

/-- No failure of the program is reported as a success. -/
def Candid {α : Type} (x : CallM α) : Prop :=
  ∀ m, Ends x m (fun _ _ => True) (fun s _ => s ≠ .success)

namespace Candid

variable {α β : Type}

theorem pure (a : α) :
  Candid (Pure.pure a : CallM α)
  := fun _ => Ends.pure trivial

theorem throw {s : Status} (h : s ≠ .success) :
  Candid (MonadExcept.throw s : CallM α)
  := fun _ => Ends.error rfl h

theorem bind {x : CallM α} {f : α → CallM β} (hx : Candid x) (hf : ∀ a, Candid (f a)) :
  Candid (x >>= f)
  := fun m => (hx m).bind fun a n _ => hf a n

/-- System errors are reported as failures. -/
theorem lift (x : SysM α) :
  Candid (x : CallM α)
  := fun _ => Ends.adaptExcept (Ends.trivial.mono (fun _ _ h => h)
    fun e _ _ => Status.ofSysError_ne_success e)

end Candid

theorem candid_target (caller argument : Vpid) :
  Candid (target caller argument)
  := by
  rw [target]
  split
  · apply Candid.throw (by decide)
  · split
    · apply (Candid.lift _).bind
      intro parent
      cases parent with
      | none => exact Candid.throw (by decide)
      | some q => exact Candid.pure q
    · apply (Candid.lift _).bind
      intro registered
      split
      · apply Candid.pure
      · apply Candid.throw (by decide)

theorem candid_registerOwner (caller argument : Vpid) :
  Candid (registerOwner caller argument)
  := by
  rw [registerOwner]
  apply (Candid.lift _).bind
  intro c
  apply (Candid.lift _).bind
  intro parent
  split
  · apply Candid.throw (by decide)
  · split
    · apply Candid.throw (by decide)
    · split
      · split
        · apply Candid.throw (by decide)
        · split
          · apply Candid.pure
          · apply Candid.throw (by decide)
      · split
        · apply Candid.throw (by decide)
        · apply (Candid.lift _).bind
          intro registered
          split
          · apply Candid.pure
          · apply Candid.throw (by decide)

theorem candid_registerValue (v : Vpid) :
  Candid (registerValue v)
  := by
  rw [registerValue]
  apply (Candid.lift _).bind
  intro regs
  apply (candid_registerOwner v regs.r11).bind
  intro owner
  split
  · apply Candid.throw (by decide)
  · apply (Candid.lift _).bind
    intro value
    apply Candid.lift

theorem candid_schedule (v : Vpid) (pausing : Bool) :
  Candid (schedule v pausing)
  := by
  rw [schedule]
  apply (Candid.lift _).bind
  intro regs
  apply (Candid.lift _).bind
  intro who
  split
  · apply (Candid.lift _).bind
    intro _
    apply Candid.throw (by decide)
  · apply (Candid.lift _).bind
    intro _
    apply Candid.lift

theorem candid_readField (v : Vpid) :
  Candid (readField v)
  := by
  rw [readField]
  apply (Candid.lift _).bind
  intro regs
  apply (candid_target v regs.r11).bind
  intro target
  split
  · apply (Candid.lift _).bind
    intro value
    apply Candid.lift
  · apply Candid.throw (by decide)

theorem candid_translateAddress (v : Vpid) :
  Candid (translateAddress v)
  := by
  rw [translateAddress]
  apply (Candid.lift _).bind
  intro regs
  apply (Candid.lift _).bind
  intro gpa
  apply (Candid.lift _).bind
  intro _
  apply Candid.lift

/-- What a listener set does not take is noted and reported as a failure. -/
theorem candid_refusal {k : ExitReason → Note} {s : Status} {x : SysM (Option ExitReason)}
    (hs : s ≠ .success) :
  Candid (do
    match ← x with
    | none => pure ()
    | some reason => do note (k reason); throw s : CallM Unit)
  := by
  apply (Candid.lift _).bind
  intro refused
  cases refused with
  | none => exact Candid.pure ()
  | some reason =>
      apply (Candid.lift _).bind
      intro _
      apply Candid.throw hs

theorem candid_switchControl (caller target : Vpid) (mask value : UInt64) (control : Control) :
  Candid (switchControl caller target mask value control)
  := by
  rw [switchControl]
  split
  · split
    · rw [subscribe]
      apply (Candid.lift _).bind
      intro _
      apply (Candid.lift _).bind
      intro _
      apply candid_refusal (by decide)
    · rw [unsubscribe]
      apply (Candid.lift _).bind
      intro _
      apply (Candid.lift _).bind
      intro _
      apply (Candid.lift _).bind
      intro _
      apply candid_refusal (by decide)
  · apply Candid.pure

theorem candid_switchControls (caller target : Vpid) (mask value : UInt64)
    (controls : List Control) :
  Candid (switchControls caller target mask value controls)
  := by
  induction controls with
  | nil => exact Candid.pure ()
  | cons control controls ih =>
      apply (candid_switchControl caller target mask value control).bind
      intro _
      exact ih

theorem candid_setControls (caller target : Vpid) (field : ControlField) :
  Candid (setControls caller target field)
  := by
  rw [setControls_eq]
  apply (Candid.lift _).bind
  intro regs
  simp only
  split
  · apply (Candid.lift _).bind
    intro old
    apply (candid_switchControls caller target _ _ _).bind
    intro _
    apply Candid.pure
  · apply (Candid.lift _).bind
    intro _
    apply Candid.throw (by decide)

theorem candid_writeControls (v : Vpid) :
  Candid (writeControls v)
  := by
  rw [writeControls]
  apply (Candid.lift _).bind
  intro cpl
  apply (Candid.lift _).bind
  intro _
  apply (Candid.lift _).bind
  intro regs
  apply (candid_target v regs.r11).bind
  intro target
  split
  · apply (Candid.lift _).bind
    intro _
    apply Candid.throw (by decide)
  · rename_i field _
    apply Candid.bind
    · intro m
      apply ends_notingFailure
      apply (candid_setControls v target field m).mono (fun _ _ h => h)
      intro _ _ hs
      exact hs
    · intro old
      apply Candid.lift

/-- A call that fails does not report success. -/
theorem candid_serve (v : Vpid) (call : Call) :
  Candid (serve v call)
  := by
  have hrun : ∀ {x : CallM Unit}, Candid x →
      Candid (do x; pure (Transfer.run v) : CallM Transfer) := by
    intro x hx
    apply hx.bind
    intro _
    apply Candid.pure
  cases call with
  | pause => exact hrun (candid_schedule v true)
  | resume => exact hrun (candid_schedule v false)
  | registerValue => exact hrun (candid_registerValue v)
  | nextExit => exact Candid.lift _
  | endOfExit => exact Candid.lift _
  | vmread => exact hrun (candid_readField v)
  | vmwrite => exact hrun (candid_writeControls v)
  | translate => exact hrun (candid_translateAddress v)

/-! ### Completed calls and waiting callers -/

/-- The call that a processor made in the machine `m` is complete in the machine `n`: somebody
runs, a status stands in `rax` of the caller, and the caller has gone on behind its call,
unless it held an event of its own. -/
structure Completed (m : Machine) (v : Vpid) (t : Transfer) (n : Machine) : Prop where
  runs : ∃ w, t = .run w
  reports : ∃ s, n.Reports v s
  rip : (∀ e, (m.slot v).head? = some e → e.origin ≠ v) →
    n.rip? v = (m.rip? v).map (· + VcpuM.instructionLength)

/-- The caller waits for an event: its parent runs, and the caller is as it was, so that it
makes the same call again.  It is outside the kernel, and nothing is pending for it. -/
structure Waits (m : Machine) (v : Vpid) (t : Transfer) (n : Machine) : Prop where
  returns : ∃ parent yield, t = .returnToParent parent yield
  caller : n.vcpu? v = m.vcpu? v
  listener : ∃ b, m.broker? v = some b ∧ b.isKernelListener = false ∧ b.pending = {}

variable {l : Machine} {status : Status}

theorem rip?_of_vcpu? (hc : m.vcpu? v = some c) :
  m.rip? v = some (c.vmcs.read Field.rip)
  := by
  rw [Machine.rip?, hc, Option.map_some]

/-- A failed call is completed by its status. -/
theorem yields_fail (hc : m.vcpu? v = some c) (hf : c.faults.Steady) (status : Status) :
  Yields (fail v status) m (.run v)
    ((m.switchTo v).mapVCpu v (VCpu.assigned fun regs => { regs with rax := status.code }))
  := by
  rw [fail]
  apply (yields_note _).bind
  apply (yields_load hc hf.load).bind
  apply Yields.bind_pure
  apply yields_modifyRegisters (m := m.switchTo v) hc

/-- A call that fails once its caller has gone on is completed without failing again. -/
theorem completed_fail {c' : VCpu} (hm : m.vcpu? v = some c) (hl : l.vcpu? v = some c')
    (hf : c'.faults.Steady)
    (hr : (∀ e, (m.slot v).head? = some e → e.origin ≠ v) →
      c'.vmcs.read Field.rip = c.vmcs.read Field.rip + VcpuM.instructionLength) :
  Ends (fail v status) l (Completed m v) (fun _ _ => False)
  := by
  apply (yields_fail hl hf status).ends
  intro j
  have hn := vcpu?_mapVCpu_of_some (m := l.switchTo v) hl
    (VCpu.assigned fun regs => { regs with rax := status.code })
  refine ⟨⟨v, rfl⟩, ⟨status, ?_⟩, ?_⟩
  · rw [Reports, vcpu?_withJournal, hn, Option.map_some]
    rfl
  · intro he
    rw [rip?_of_vcpu? hm, Option.map_some, ← hr he, Machine.rip?, vcpu?_withJournal, hn]
    rfl

/-! ### Asking for the next event -/

theorem yields_parentOf (hc : m.vcpu? v = some c) :
  Yields (parentOf v) m (c.parent.filter m.isRegistered) m
  := fun j => ⟨j, parentOf_eq hc⟩

/-- The caller is told something and its call has succeeded, or it waits. -/
def Told (m : Machine) (v : Vpid) (t : Transfer) (n : Machine) : Prop :=
  Completed m v t n ∧ n.Reports v .success ∨ Waits m v t n

/-- The question is refused, and the caller is as it was. -/
def Refused (c : VCpu) (v : Vpid) (e : SysError) (n : Machine) : Prop :=
  n.vcpu? v = some c ∧ ∃ why : Refusal, e = why.error

theorem told_report (hm : m.vcpu? v = some c) (hl : l.vcpu? v = some c)
    (h : l.current = some v) (hf : c.faults.Steady) (results : Registers → Registers) :
  Ends (report v results) l (Told m v) (Refused c v)
  := by
  apply (yields_report hl h hf.advance results).ends
  intro j
  have hn := vcpu?_mapVCpu_of_some hl (VCpu.completed results ∘ VCpu.advanced)
  have hr : ((l.mapVCpu v (VCpu.completed results ∘ VCpu.advanced)).withJournal j).Reports v
      .success := by
    rw [Reports, vcpu?_withJournal, hn, Option.map_some]
    rfl
  refine .inl ⟨⟨⟨v, rfl⟩, ⟨.success, hr⟩, ?_⟩, hr⟩
  · intro _
    rw [rip?_of_vcpu? hm, Option.map_some, Machine.rip?, vcpu?_withJournal, hn, Option.map_some]
    exact congrArg some (Vmcs.read_write_self _ _ _)

theorem told_returnToParent (hm : m.vcpu? v = some c) (hl : l.vcpu? v = some c)
    (hs : l.Steady) {b : Broker} (hb : m.broker? v = some b) (hk : b.isKernelListener = false)
    (hp : b.pending = {}) (yield : Option UInt64) :
  Ends (returnToParent v yield) l (Told m v) (Refused c v)
  := by
  rw [returnToParent]
  apply (yields_parentOf hl).ends_bind
  intro j
  split
  · exact Ends.error (e := Refusal.noParent.error) rfl ⟨hl, .noParent, rfl⟩
  · rename_i q hq
    obtain ⟨cq, hcq⟩ := isRegistered_iff_vcpu?.mp (Option.filter_eq_some_iff.mp hq).2
    apply (yields_load (m := l.withJournal j) hcq (hs q cq hcq).load).ends_bind
    intro j'
    exact Ends.pure (.inr ⟨⟨q, yield, rfl⟩, hl.trans hm.symm, b, hb, hk, hp⟩)

/-- A listener outside the kernel that asks while nothing is pending waits, unless its time
is over. -/
theorem ends_await (hc : m.vcpu? v = some c) (h : m.current = some v) (hs : m.Steady)
    {b : Broker} (hb : m.broker? v = some b) (hk : b.isKernelListener = false)
    (hp : b.pending = {}) :
  Ends (await v) m (Told m v) (Refused c v)
  := by
  have hc' : ∀ f, (m.mapBroker v f).vcpu? v = some c := by
    intro f
    rw [vcpu?_mapBroker, hc]
  have hw : ∀ {l yield}, l.vcpu? v = some c → l.Steady →
      Ends (returnToParent v yield) l (Told m v) (Refused c v) := fun hl hsl =>
    told_returnToParent hc hl hsl hb hk hp _
  rw [await]
  apply (yields_broker hb).ends_bind
  intro j
  apply Ends.bind_ok rfl
  split
  · split
    · apply (yields_modifyBroker (m := m.withJournal j) hb Broker.clearDeadline).ends_bind
      intro j₁
      apply (yields_note _).ends_bind
      intro j₂
      apply told_report hc (l := (m.mapBroker v Broker.clearDeadline).withJournal j₂)
        (hc' Broker.clearDeadline) h (hs v c hc)
    · apply hw
      · exact hc
      · exact hs
  · apply (yields_registers (m := m.withJournal j) hc).ends_bind
    intro j₁
    cases NextExit.timeout? c.regs.r11 with
    | none =>
        apply Ends.bind_ok rfl
        apply (yields_note _).ends_bind
        intro j₂
        apply hw
        · exact hc
        · exact hs
    | some ns =>
        have harm : Yields (arm v (some ns)) (m.withJournal j₁) () (m.mapBroker v fun b =>
            { b with deadline := some (Broker.deadlineAfter m.clock ns) }) := by
          rw [arm_some]
          apply Yields.get_bind
          intro j₂
          apply yields_modifyBroker (m := m.withJournal j₂) hb
        apply harm.ends_bind
        intro j₂
        apply (yields_note _).ends_bind
        intro j₃
        apply hw
        · exact hc' fun b => { b with deadline := some (Broker.deadlineAfter m.clock ns) }
        · exact hs.mapBroker v fun b =>
            { b with deadline := some (Broker.deadlineAfter m.clock ns) }

/-- A listener that asks is told of an event, is told that its time is over, or waits.  If it
fails, the caller is as it was. -/
theorem ends_nextExit (hc : m.vcpu? v = some c) (h : m.current = some v) (hs : m.Steady) :
  Ends (nextExit v) m (Told m v) (Refused c v)
  := by
  obtain ⟨b, hb⟩ := isRegistered_iff_broker?.mp (isRegistered_iff_vcpu?.mpr ⟨c, hc⟩)
  rw [nextExit]
  apply (yields_broker hb).ends_bind
  intro j
  split
  · rename_i e _
    apply (yields_endWait (m := m.withJournal j) hb e).ends_bind
    intro j₁
    have hc' : (m.mapBroker v Broker.told).vcpu? v = some c := by
      rw [vcpu?_mapBroker, hc]
    apply told_report hc (l := (m.mapBroker v Broker.told).withJournal j₁) hc' h (hs v c hc)
  · rename_i hf
    split
    · apply (yields_note _).ends_bind
      intro j₁
      exact Ends.error (e := Refusal.nothingPending.error) rfl ⟨hc, .nothingPending, rfl⟩
    · rename_i hk
      apply (ends_await (m := m.withJournal j) hc h hs hb (Bool.eq_false_iff.mpr hk)
        (Pending.front?_eq_none_iff.mp hf)).mono
      · rintro t n (⟨hx, hr⟩ | hx)
        · exact .inl ⟨⟨hx.runs, hx.reports, hx.rip⟩, hr⟩
        · exact .inr ⟨hx.returns, hx.caller, hx.listener⟩
      · intro e n hx
        exact hx

/-! ### Hypercalls -/

/-- A question that fails moves the caller on once, too. -/
theorem ends_serveNextExit (hc : m.vcpu? v = some c) (h : m.current = some v)
    (hs : m.Steady) :
  Ends (serveNextExit v) m (fun t n => Completed m v t n ∨ Waits m v t n) (fun _ _ => False)
  := by
  rw [serveNextExit]
  apply Ends.tryCatch ((ends_nextExit hc h hs).mono
    (fun _ _ hx => hx.imp_left And.left) (fun _ _ hx => hx.1))
  intro e n hn
  apply (yields_load hn (hs v c hc).load).ends_bind
  intro j
  apply (yields_advance (m := (n.switchTo v).withJournal j) hn rfl (hs v c hc).advance).ends_bind
  intro j₁
  have hc' : ((((n.switchTo v).withJournal j).mapVCpu v VCpu.advanced).withJournal j₁).vcpu? v =
      some c.advanced :=
    vcpu?_mapVCpu_of_some (m := (n.switchTo v).withJournal j) hn VCpu.advanced
  apply (completed_fail hc hc' (hs v c hc) fun _ => Vmcs.read_write_self _ _ _).mono
  · intro _ _ hx
    exact .inl hx
  · intro _ _ hx
    exact hx

/-- A call of a caller that has gone on already: what it runs, what it reports, and that it
does not move the caller again. -/
theorem ends_serve (h : m.Holds v) {call : Call} (hcall : call ≠ .nextExit) :
  Ends (serve v call) m
    (fun t n => (∃ w, t = .run w) ∧ n.Reports v .success ∧
      ((∀ e, (m.slot v).head? = some e → e.origin ≠ v) → n.rip? v = m.rip? v))
    (fun _ n => Path Set.univ m n ∧
      ((∀ e, (m.slot v).head? = some e → e.origin ≠ v) → n.rip? v = m.rip? v))
  := by
  have hw : Walks Set.univ (serve v call) m :=
    walks_serve (Set.subset_univ _) h.agrees.trusts h.aimed (fun _ => trivial)
      (Set.subset_univ _)
  have hrip : Ends (serve v call) m
      (fun _ n => (∀ e, (m.slot v).head? = some e → e.origin ≠ v) → n.rip? v = m.rip? v)
      (fun _ n => (∀ e, (m.slot v).head? = some e → e.origin ≠ v) → n.rip? v = m.rip? v) := by
    by_cases he : ∀ e, (m.slot v).head? = some e → e.origin ≠ v
    · apply Ends.mono (walks_still_serve h hcall he)
      · intro _ n hn _
        exact hn.rip?
      · intro _ n hn _
        exact hn.rip?
    · apply Ends.trivial.mono
      · intro _ _ _ he'
        exact absurd he' he
      · intro _ _ _ he'
        exact absurd he' he
  have hx := ((enters_serve h hcall).and (reports_serve v hcall)).and (Ends.and hw hrip)
  apply hx.mono
  · rintro t n ⟨⟨⟨w, ht, -⟩, hr⟩, -, hn⟩
    exact ⟨⟨w, ht⟩, hr, hn⟩
  · rintro _ n ⟨-, hn⟩
    exact hn

/-- Any other call is completed, whether it succeeds or fails. -/
theorem completed_serveAdvanced (h : m.Holds v) (hs : m.Steady) {call : Option Call}
    (hcall : call ≠ some .nextExit) :
  Ends (serveAdvanced v call) m (Completed m v) (fun _ _ => False)
  := by
  obtain ⟨c, hc⟩ := isRegistered_iff_vcpu?.mp h.registered
  rw [serveAdvanced.eq_def]
  apply (yields_advance hc h.current (hs v c hc).advance).ends_bind
  intro j
  have h₁ : ((m.mapVCpu v VCpu.advanced).withJournal j).Holds v := (h.mapVCpu v _).withJournal j
  have hc₁ : ((m.mapVCpu v VCpu.advanced).withJournal j).vcpu? v = some c.advanced :=
    vcpu?_mapVCpu_of_some hc VCpu.advanced
  have hs₁ : ((m.mapVCpu v VCpu.advanced).withJournal j).Steady :=
    Guarantees.mapVCpu hs VCpu.faults_advanced v
  have hslot : ((m.mapVCpu v VCpu.advanced).withJournal j).slot v = m.slot v := by
    rw [slot_withJournal, slot_mapVCpu]
  have hrip : c.advanced.vmcs.read Field.rip =
      c.vmcs.read Field.rip + VcpuM.instructionLength := Vmcs.read_write_self _ _ _
  apply ends_completing
  cases call with
  | none =>
      apply Ends.error rfl
      apply completed_fail hc hc₁ (hs v c hc) fun _ => hrip
  | some call =>
      have hne : call ≠ .nextExit := by
        rintro rfl
        exact hcall rfl
      apply (ends_serve h₁ hne).mono
      · rintro t n ⟨hrun, hrep, hn⟩
        refine ⟨hrun, ⟨_, hrep⟩, ?_⟩
        intro he
        rw [hn (by rwa [hslot]), rip?_of_vcpu? hc₁, rip?_of_vcpu? hc, hrip, Option.map_some]
      · rintro status n ⟨hp, hn⟩
        have hv : n.isRegistered v = true := by
          rw [hp.isRegistered, h₁.registered]
        obtain ⟨c', hc'⟩ := isRegistered_iff_vcpu?.mp hv
        apply completed_fail hc hc' (hp.steady hs₁ v c' hc')
        intro he
        have hr := hn (by rwa [hslot])
        rw [rip?_of_vcpu? hc₁, rip?_of_vcpu? hc', hrip] at hr
        exact Option.some.inj hr

theorem ends_serveCall (h : m.Holds v) (hs : m.Steady) (call : Option Call) :
  Ends (serveCall v call) m
    (fun t n => Completed m v t n ∨ call = some .nextExit ∧ Waits m v t n) (fun _ _ => False)
  := by
  rw [serveCall]
  split
  · rename_i hcall
    obtain ⟨c, hc⟩ := isRegistered_iff_vcpu?.mp h.registered
    apply (ends_serveNextExit hc h.current hs).mono
    · intro t n hx
      exact hx.imp id fun hw => ⟨hcall, hw⟩
    · intro _ _ hx
      exact hx
  · rename_i hcall
    apply (completed_serveAdvanced h hs hcall).mono
    · intro t n hx
      exact .inl hx
    · intro _ _ hx
      exact hx

/-- A call is answered by its completion, or its caller waits because it asks for the next
event. -/
def Answers (m : Machine) (v : Vpid) (t : Transfer) (n : Machine) : Prop :=
  Completed m v t n ∨ m.call? v = some .nextExit ∧ Waits m v t n

/-- A caller that is answered is still registered. -/
theorem Answers.exists_vcpu {t : Transfer} (h : Answers m v t n) (hc : m.vcpu? v = some c) :
  ∃ c', n.vcpu? v = some c'
  := by
  rcases h with h | ⟨-, h⟩
  · obtain ⟨s, hs⟩ := h.reports
    obtain ⟨c', hc', -⟩ := Option.map_eq_some_iff.mp hs
    exact ⟨c', hc'⟩
  · exact ⟨c, h.caller.trans hc⟩

/-- A hypercall of another family is declined. -/
theorem handleHypercall_declined (hc : m.vcpu? v = some c)
    (hf : Family.ofOpcode? (Selector.ofWord c.regs.rax).opcode = none) :
  handleHypercall v m = .ok none m
  := by
  rw [handleHypercall, bind_of_ok (vcpu_eq hc)]
  simp only [hf]
  rfl

/-- A hypercall of one of the broker's families is answered. -/
theorem ends_handleHypercall (hm : m.loaded = some v → m.current = some v) (hs : m.Steady)
    (hc : m.vcpu? v = some c) {family : Family}
    (hf : Family.ofOpcode? (Selector.ofWord c.regs.rax).opcode = some family) :
  Ends (handleHypercall v) m (fun t n => ∃ t', t = some t' ∧ Answers m v t' n)
    (fun _ _ => False)
  := by
  have hcall : m.call? v =
      (Call.ofIndex? family (Selector.ofWord c.regs.rax).index).filter (mayCall c.domain) := by
    rw [call?, hc, Option.bind_some, Call.ofWord?, hf, Option.bind_some]
  rw [handleHypercall]
  apply (yields_vcpu hc).ends_bind
  intro j
  simp only [hf]
  apply (yields_enter (m := m.withJournal j) hm hc (hs v c hc).load).ends_bind
  intro j₁
  rw [← hcall]
  have h₁ : (((m.withJournal j).switchTo v).withJournal j₁).Holds v :=
    ⟨isRegistered_iff_vcpu?.mpr ⟨c, hc⟩, rfl, rfl⟩
  apply (ends_serveCall h₁ hs (m.call? v)).bind
  intro t n hx
  have hn : Answers m v t n := by
    rcases hx with hx | ⟨ha, hx⟩
    · exact .inl ⟨hx.runs, hx.reports, hx.rip⟩
    · exact .inr ⟨ha, hx.returns, hx.caller, hx.listener⟩
  obtain ⟨c', hc'⟩ := hn.exists_vcpu hc
  apply (yields_noteChanges hc' c.regs.rax c.regs).ends_bind
  intro j₂
  refine Ends.pure ⟨t, rfl, ?_⟩
  rcases hn with hn | ⟨ha, hn⟩
  · exact .inl ⟨hn.runs, hn.reports, hn.rip⟩
  · exact .inr ⟨ha, hn.returns, hn.caller, hn.listener⟩

/-- Only guests may ask for the next event. -/
theorem domain_of_call? (hc : m.vcpu? v = some c) (h : m.call? v = some .nextExit) :
  c.domain = .guest
  := by
  rw [call?, hc, Option.bind_some, Call.ofWord?, Option.bind_eq_some_iff] at h
  obtain ⟨family, -, h⟩ := h
  have hm := (Option.filter_eq_some_iff.mp h).2
  simpa [mayCall, Call.family] using hm

/-- A hypercall whose opcode is not one of the broker's is declined, and nothing changes.
Any other one ends in a transfer and is either completed, exactly once, or left as it was by
a guest that asks for the next event while nothing is pending. -/
theorem completion (hm : ∀ w, m.loaded = some w → m.current = some w) (hs : m.Steady)
    (hc : m.vcpu? v = some c) :
  ((∀ family : Family, family.opcode ≠ Word.slice c.regs.rax 16 16) →
      handleHypercall v m = .ok none m) ∧
    ((∃ family : Family, family.opcode = Word.slice c.regs.rax 16 16) →
      ∃ t n c', handleHypercall v m = .ok (some t) n ∧ n.vcpu? v = some c' ∧
        ((∃ parent yield, t = .returnToParent parent yield) →
          c' = c ∧ m.call? v = some .nextExit ∧ c.domain = .guest ∧
            ∃ b, m.broker? v = some b ∧ b.isKernelListener = false ∧ b.pending = {}) ∧
        ((∃ w, t = .run w) →
          (∃ s : Status, c'.regs.rax = s.code) ∧
            ((∀ e, (m.slot v).head? = some e → e.origin ≠ v) →
              c'.vmcs.read Field.rip = c.vmcs.read Field.rip + VcpuM.instructionLength)))
  := by
  constructor
  · intro hne
    have hf : Family.ofOpcode? (Selector.ofWord c.regs.rax).opcode = none := by
      cases hf : Family.ofOpcode? (Selector.ofWord c.regs.rax).opcode with
      | none => rfl
      | some family => exact absurd (Family.ofOpcode?_eq_some_iff.mp hf) (hne family)
    apply handleHypercall_declined hc hf
  · rintro ⟨family, hf⟩
    have hx := ends_handleHypercall (hm v) hs hc (Family.ofOpcode?_eq_some_iff.mpr hf)
    obtain ⟨_, n, hn, t, rfl, ha⟩ | ⟨_, _, _, h⟩ := hx.cases
    · obtain ⟨c', hc'⟩ := ha.exists_vcpu hc
      refine ⟨t, n, c', hn, hc', ?_, ?_⟩
      · rintro ⟨parent, yield, rfl⟩
        rcases ha with ha | ⟨hcall, ha⟩
        · obtain ⟨w, hw⟩ := ha.runs
          exact Transfer.noConfusion hw
        · refine ⟨?_, hcall, domain_of_call? hc hcall, ha.listener⟩
          have heq := ha.caller
          rw [hc', hc] at heq
          exact Option.some.inj heq
      · rintro ⟨w, rfl⟩
        rcases ha with ha | ⟨-, ha⟩
        · constructor
          · obtain ⟨s, hs⟩ := ha.reports
            rw [Reports, hc', Option.map_some] at hs
            exact ⟨s, Option.some.inj hs⟩
          · intro he
            have hr := ha.rip he
            rw [rip?_of_vcpu? hc', rip?_of_vcpu? hc, Option.map_some] at hr
            exact Option.some.inj hr
        · obtain ⟨_, _, ht⟩ := ha.returns
          exact Transfer.noConfusion ht
    · exact False.elim h

/-- A guest reads a field of its parent, which fails: the call is complete all the same. -/
theorem completion_of_failed_read :
  let caller : VCpu := { parent := some 1, regs := { rax := 0x60002, r11 := 1, r12 := 0x681e } }
  let faulty : VCpu := { faults := { vmread := FaultPlan.failing .io 0 none } }
  let m₀ : Machine := {}
  let m₁ : Machine := { m₀ with residents := m₀.residents.insert 1 ⟨faulty, {}⟩ }
  let m : Machine := { m₁ with residents := m₁.residents.insert 2 ⟨caller, {}⟩ }
  ∃ w n c, handleHypercall 2 m = .ok (some (.run w)) n ∧ n.vcpu? 2 = some c ∧
    (∃ s : Status, c.regs.rax = s.code) ∧
    c.vmcs.read Field.rip = caller.vmcs.read Field.rip + VcpuM.instructionLength
  := by
  intro caller faulty m₀ m₁ m
  have hs₀ : m₀.Steady := guarantees_of_residents rfl
  have hs₁ : m₁.Steady := hs₀.insert 1 ⟨rfl, rfl⟩
  have hs : m.Steady := hs₁.insert 2 ⟨rfl, rfl⟩
  have hc : m.vcpu? 2 = some caller := by
    change { m₁ with residents := _ }.vcpu? 2 = _
    rw [vcpu?_insert, if_pos rfl]
  have hm : ∀ w, m.loaded = some w → m.current = some w := by
    intro w hw
    exact absurd hw (Option.some_ne_none w).symm
  have hf : Family.exit.opcode = Word.slice caller.regs.rax 16 16 := by
    decide
  obtain ⟨t, n, c, hn, hc', hwait, hrun⟩ := (completion hm hs hc).2 ⟨.exit, hf⟩
  cases t with
  | run w =>
      obtain ⟨hrax, hrip⟩ := hrun ⟨w, rfl⟩
      refine ⟨w, n, c, hn, hc', hrax, hrip ?_⟩
      have hslot : m.slot 2 = [] := by
        decide +kernel
      rw [hslot]
      intro e he
      exact absurd he (Option.some_ne_none e).symm
  | returnToParent parent yield =>
      obtain ⟨-, hcall, -⟩ := hwait ⟨parent, yield, rfl⟩
      have hread : m.call? 2 = some .vmread := by
        decide +kernel
      rw [hread] at hcall
      exact Call.noConfusion (Option.some.inj hcall)

end Machine

end ExitRelay
