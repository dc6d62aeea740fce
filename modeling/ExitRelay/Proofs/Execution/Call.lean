import ExitRelay.Proofs.Completion

/-!
# Executions of calls

`Concludes x m r n` says that the program `x` takes the machine `m` to the outcome `r`, be it
a result or an error, and to the machine `n`, whatever the journals of the two hold.  A call
of a processor that comes back to it is completed with its outcome in either case.
-/

namespace ExitRelay

/-- The processor after its call has been completed with an outcome: new results and the
status of success, or the status of the failure. -/
def VCpu.replied : Except Status (Registers → Registers) → VCpu → VCpu
  | .ok results => completed results
  | .error status => assigned fun regs => { regs with rax := status.code }

namespace Machine

/-- The machine with the results of the work of a call, if there are any. -/
def succeeded (m : Machine) (v : Vpid) : Except Status (Registers → Registers) → Machine
  | .ok results => m.mapVCpu v (VCpu.completed results)
  | .error _ => m

variable {m n l : Machine} {v w : Vpid} {c : VCpu} {ε ε' α β : Type}

/-- The end of a program with an outcome. -/
def ended (r : Except ε α) (n : Machine) : EStateM.Result ε Machine α :=
  match r with
  | .ok a => .ok a n
  | .error e => .error e n

/-- The program has the outcome and leaves the machine, up to the journal. -/
def Concludes (x : EStateM ε Machine α) (m : Machine) (r : Except ε α) (n : Machine) : Prop :=
  ∀ j, ∃ j', x (m.withJournal j) = ended r (n.withJournal j')

/-- A program whose first part has a result concludes as its second part does. -/
theorem Yields.bind_concludes {x : EStateM ε Machine α} {f : α → EStateM ε Machine β} {a : α}
    {r : Except ε β} (hx : Yields x m a n) (hf : Concludes (f a) n r l) :
  Concludes (x >>= f) m r l
  := by
  intro j
  obtain ⟨j', hx⟩ := hx j
  obtain ⟨j'', hf⟩ := hf j'
  use j''
  rw [bind_of_ok hx, hf]

namespace Concludes

variable {x : EStateM ε Machine α}

theorem throw (e : ε) :
  Concludes (MonadExcept.throw e : EStateM ε Machine α) m (.error e) m
  := fun j => ⟨j, rfl⟩

/-- A program that looks at the machine concludes as it does for the machine that it finds. -/
theorem get_bind {f : Machine → EStateM ε Machine β} {r : Except ε β}
    (hf : ∀ j, Concludes (f (m.withJournal j)) m r n) :
  Concludes (get >>= f) m r n
  := by
  intro j
  obtain ⟨j', hf⟩ := hf j j
  use j'
  exact hf

theorem yields {a : α} (hx : Concludes x m (.ok a) n) :
  Yields x m a n
  := hx

/-- A program whose first part fails does not come to its second part. -/
theorem bind_error {f : α → EStateM ε Machine β} {e : ε} (hx : Concludes x m (.error e) n) :
  Concludes (x >>= f) m (.error e) n
  := by
  intro j
  obtain ⟨j', hx⟩ := hx j
  use j'
  rw [bind_of_error hx]
  rfl

/-- A program that has a result in one state only has no other. -/
theorem ok_iff {r : Except ε α} (hx : Concludes x m r n) :
  (∃ a l, x m = .ok a l) ↔ ∃ a, r = .ok a
  := by
  obtain ⟨j, hj⟩ := hx m.journal
  change x m = _ at hj
  rw [hj]
  cases r with
  | ok a => exact ⟨fun _ => ⟨a, rfl⟩, fun _ => ⟨a, _, rfl⟩⟩
  | error e =>
      constructor
      · rintro ⟨a, l, h⟩
        nomatch h
      · rintro ⟨a, h⟩
        nomatch h

/-- A program that has a result concludes with it. -/
theorem of_ok {r : Except ε α} {a : α} (hx : Concludes x m r n) (h : x m = .ok a l) :
  r = .ok a ∧ ∃ j, l = n.withJournal j
  := by
  obtain ⟨j, hj⟩ := hx m.journal
  change x m = _ at hj
  rw [h] at hj
  cases r with
  | ok =>
      obtain ⟨rfl, rfl⟩ := EStateM.Result.ok.inj hj
      exact ⟨rfl, j, rfl⟩
  | error => nomatch hj

/-- A program that fails concludes with its error. -/
theorem of_error {r : Except ε α} {e : ε} (hx : Concludes x m r n) (h : x m = .error e l) :
  r = .error e ∧ ∃ j, l = n.withJournal j
  := by
  obtain ⟨j, hj⟩ := hx m.journal
  change x m = _ at hj
  rw [h] at hj
  cases r with
  | ok => nomatch hj
  | error =>
      obtain ⟨rfl, rfl⟩ := EStateM.Result.error.inj hj
      exact ⟨rfl, j, rfl⟩

end Concludes

/-- A change of controls is noted if it fails, and concludes as before. -/
theorem Concludes.notingFailure {x : CallM α} {r : Except Status α} (hx : Concludes x m r n)
    (field : ControlField) :
  Concludes (notingFailure field x) m r n
  := by
  intro j
  obtain ⟨j', hx⟩ := hx j
  cases r with
  | ok a =>
      use j'
      rw [Machine.notingFailure, hx]
      rfl
  | error status =>
      use j'.note (.controlFailed field status)
      rw [Machine.notingFailure, hx]
      rfl

/-! ### Completion -/

theorem holds_switchTo (hv : m.isRegistered v = true) :
  (m.switchTo v).Holds v
  := ⟨hv, rfl, rfl⟩

theorem yields_succeed (hc : m.vcpu? v = some c) (results : Registers → Registers) :
  Yields (succeed v results) m () (m.mapVCpu v (VCpu.completed results))
  := yields_modifyRegisters hc _

/-- A call that fails while its caller is loaded is completed by its status. -/
theorem yields_completing_error {x : CallM Transfer} {status : Status}
    (hx : Concludes x m (.error status) n) (h : n.Holds v) (hf : n.Flawless) :
  Yields (completing v x) m (.run v) (n.mapVCpu v (VCpu.replied (.error status)))
  := by
  obtain ⟨c, hc⟩ := isRegistered_iff_vcpu?.mp h.registered
  have hfail := yields_fail hc (hf.steady v c hc) status
  rw [switchTo_eq_self h.loaded h.current] at hfail
  intro j
  obtain ⟨j', hj⟩ := hx j
  obtain ⟨j'', hj'⟩ := hfail j'
  use j''
  rw [completing, hj]
  exact hj'

/-- A call that runs its caller again is completed with its outcome, whichever it is. -/
theorem yields_completing {x : CallM Unit} {r : Except Status α}
    {results : α → Registers → Registers}
    (hx : Concludes x m (r.map fun _ => ()) (n.succeeded v (r.map results))) (h : n.Holds v)
    (hf : n.Flawless) :
  Yields (completing v do x; pure (.run v)) m (.run v)
    (n.mapVCpu v (VCpu.replied (r.map results)))
  := by
  cases r with
  | ok a =>
      intro j
      obtain ⟨j', hj⟩ := hx.yields.bind_pure (Transfer.run v) j
      use j'
      rw [completing, hj]
      rfl
  | error s => exact yields_completing_error hx.bind_error h hf

/-! ### Calls that are carried out -/

/-- The machine on which a call of a processor is carried out: the processor is loaded and has
moved on behind the call. -/
def begun (m : Machine) (v : Vpid) : Machine :=
  (m.switchTo v).mapVCpu v VCpu.advanced

theorem Flawless.begun (hf : m.Flawless) (v : Vpid) :
  (m.begun v).Flawless
  := (hf.switchTo v).mapVCpu VCpu.faults_advanced v

@[simp]
theorem isRegistered_begun :
  (m.begun v).isRegistered w = m.isRegistered w
  := by
  rw [begun, isRegistered_mapVCpu, isRegistered_switchTo]

theorem vcpu?_begun_of_ne (h : w ≠ v) :
  (m.begun v).vcpu? w = m.vcpu? w
  := by
  rw [begun, vcpu?_mapVCpu_of_ne _ h, vcpu?_switchTo]

/-- Whom an argument names does not change when its caller moves on. -/
theorem target?_advanced (argument : Vpid) :
  (m.mapVCpu v VCpu.advanced).target? v argument = m.target? v argument
  := by
  apply target?_congr
  · intro x
    apply isRegistered_mapVCpu
  · rw [vcpu?_mapVCpu_self, Option.map_map]
    rfl

theorem target?_begun (argument : Vpid) :
  (m.begun v).target? v argument = m.target? v argument
  := target?_advanced argument

section

variable (hc : m.vcpu? v = some c)

include hc

theorem vcpu?_begun :
  (m.begun v).vcpu? v = some c.advanced
  := vcpu?_mapVCpu_of_some (m := m.switchTo v) hc VCpu.advanced

theorem holds_begun :
  (m.begun v).Holds v
  := (holds_switchTo (isRegistered_iff_vcpu?.mpr ⟨c, hc⟩)).mapVCpu v VCpu.advanced

/-- A hypercall other than the one for the next event ends as its call does once its caller
has moved on. -/
theorem yields_handleHypercall_of_begun {call : Call} {t : Transfer} (h : m.Agrees)
    (hf : m.Flawless) (hcall : m.call? v = some call) (hne : call ≠ .nextExit)
    (hx : Yields (completing v (serve v call)) (m.begun v) t n)
    (hn : n.isRegistered v = true) :
  Yields (handleHypercall v) m (some t) n
  := by
  have hadvance := (hf.dependable v c hc).advance
  have hserve := yields_serveCall (m := m.switchTo v) hne hc rfl hadvance hx
  exact yields_handleHypercall h hf.dependable hc hcall hserve hn

/-- A hypercall of one of the broker's families that is none of its calls fails once its caller
has moved on. -/
theorem yields_handleHypercall_of_uncalled {family : Family} (h : m.Agrees) (hf : m.Flawless)
    (hfamily : Family.ofOpcode? (Selector.ofWord c.regs.rax).opcode = some family)
    (hcall : m.call? v = none) :
  Yields (handleHypercall v) m (some (.run v))
    ((m.begun v).mapVCpu v (VCpu.replied (.error .failureUnknownHypercall)))
  := by
  have hholds := holds_begun hc
  have hx : Yields (completing v (throw .failureUnknownHypercall)) (m.begun v) (.run v)
      ((m.begun v).mapVCpu v (VCpu.replied (.error .failureUnknownHypercall))) :=
    yields_completing_error (Concludes.throw _) hholds (hf.begun v)
  have hadvance := (hf.dependable v c hc).advance
  have hserve := yields_serveCall_none (m := m.switchTo v) hc rfl hadvance hx
  rw [← hcall] at hserve
  exact yields_handleHypercall_of_family h hf.dependable hc hfamily hserve
    (hholds.mapVCpu v _).registered

end

end Machine

end ExitRelay
