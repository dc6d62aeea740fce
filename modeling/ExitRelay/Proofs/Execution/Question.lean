import ExitRelay.Proofs.Execution.Call

/-!
# Executions of questions

What a processor that asks for the next event comes to when the hardware does not fail, as a
function on machines.  It is told of an event or that its time is over, or it goes back to its
parent, and then its deadline is set first if it has given a waiting time.  Its question fails
if its control structure is not the current one when it is to be told something, if it has to
go back to a parent that is not there, or if it is in the kernel and nothing is pending.
-/

namespace ExitRelay.Machine

variable {m n : Machine} {v w p : Vpid} {c : VCpu} {b : Broker}

/-- The outcome of telling a processor something, and the machine that it leaves. -/
def reported (m : Machine) (v : Vpid) (results : Registers → Registers) :
    Except SysError Transfer × Machine :=
  if m.current = some v then
    (.ok (.run v), m.mapVCpu v (VCpu.completed results ∘ VCpu.advanced))
  else (.error .badState, m.mapVCpu v (VCpu.assigned results))

/-- The outcome of sending a processor in the state `c` back to its parent, and the machine that
it leaves. -/
def sentBack (m : Machine) (c : VCpu) (yield : Option UInt64) :
    Except SysError Transfer × Machine :=
  match c.parent.filter m.isRegistered with
  | none => (.error Refusal.noParent.error, m)
  | some parent => (.ok (.returnToParent parent yield), m.switchTo parent)

/-- The machine in which a wait of a processor has begun, which has a deadline if a waiting time
is given. -/
def armed (m : Machine) (v : Vpid) : Option UInt64 → Machine
  | none => m
  | some ns => m.mapBroker v fun b => { b with deadline := some (Broker.deadlineAfter m.clock ns) }

/-- The outcome of letting a processor in the state `c` with the broker `b` wait, and the machine
that it leaves. -/
def awaited (m : Machine) (v : Vpid) (c : VCpu) (b : Broker) :
    Except SysError Transfer × Machine :=
  match b.deadline with
  | some deadline =>
    if deadline ≤ m.clock then (m.mapBroker v Broker.clearDeadline).reported v timeoutRegisters
    else m.sentBack c (some (deadline - m.clock))
  | none =>
    (m.armed v (NextExit.timeout? c.regs.r11)).sentBack c (NextExit.timeout? c.regs.r11)

/-- The outcome of a question of a processor in the state `c` with the broker `b`, and the
machine that it leaves. -/
def asked (m : Machine) (v : Vpid) (c : VCpu) (b : Broker) : Except SysError Transfer × Machine :=
  match b.pending.front? with
  | some e => (m.mapBroker v Broker.told).reported v (eventRegisters e)
  | none =>
    if b.isKernelListener then (.error Refusal.nothingPending.error, m) else m.awaited v c b

theorem sentBack_of_parent (hp : c.parent = some p) (hr : m.isRegistered p = true)
    (yield : Option UInt64) :
  m.sentBack c yield = (.ok (.returnToParent p yield), m.switchTo p)
  := by
  rw [sentBack, hp, Option.filter_some, if_pos hr]

theorem awaited_of_none (hd : b.deadline = none) :
  m.awaited v c b =
    (m.armed v (NextExit.timeout? c.regs.r11)).sentBack c (NextExit.timeout? c.regs.r11)
  := by
  rw [awaited, hd]

theorem awaited_of_lt {deadline : UInt64} (hd : b.deadline = some deadline)
    (h : m.clock < deadline) :
  m.awaited v c b = m.sentBack c (some (deadline - m.clock))
  := by
  rw [awaited, hd]
  exact if_neg (UInt64.not_le.mpr h)

theorem awaited_of_le {deadline : UInt64} (hd : b.deadline = some deadline)
    (h : deadline ≤ m.clock) :
  m.awaited v c b = (m.mapBroker v Broker.clearDeadline).reported v timeoutRegisters
  := by
  rw [awaited, hd]
  exact if_pos h

/-! ### Programs -/

theorem concludes_refuse {α : Type} (why : Refusal) :
  Concludes (refuse why : SysM α) m (.error why.error) m
  := (yields_note _).bind_concludes (Concludes.throw _)

/-- A processor whose control structure is not the current one does not go on. -/
theorem concludes_advance_of_ne (hc : m.vcpu? v = some c) (h : m.current ≠ some v) :
  Concludes (onVCpu v VcpuM.advance) m (.error .badState) m
  := by
  rw [VcpuM.advance, onVCpu_bind]
  apply Concludes.bind_error
  intro j
  exact ⟨_, onVCpu_requireCurrent_of_ne (m := m.withJournal j) hc h⟩

theorem concludes_report (hc : m.vcpu? v = some c) (hf : c.faults.get .advance = {})
    (results : Registers → Registers) :
  Concludes (report v results) m (m.reported v results).1 (m.reported v results).2
  := by
  rw [reported]
  split
  · rename_i h
    exact yields_report hc h hf results
  · rename_i h
    have h₁ := vcpu?_mapVCpu_of_some hc (VCpu.assigned results)
    rw [report, onVCpu_bind]
    apply Concludes.bind_error
    apply (yields_modifyRegisters hc results).bind_concludes
    rw [onVCpu_bind]
    apply Concludes.bind_error
    exact concludes_advance_of_ne h₁ h

theorem concludes_returnToParent (hc : m.vcpu? v = some c) (hf : m.Flawless)
    (yield : Option UInt64) :
  Concludes (returnToParent v yield) m (m.sentBack c yield).1 (m.sentBack c yield).2
  := by
  rw [returnToParent, sentBack]
  apply (yields_parentOf hc).bind_concludes
  cases hp : c.parent.filter m.isRegistered with
  | none => exact concludes_refuse _
  | some parent =>
      obtain ⟨d, hd⟩ := isRegistered_iff_vcpu?.mp (Option.filter_eq_some_iff.mp hp).2
      apply (yields_load hd (hf.dependable parent d hd).load).bind_concludes
      exact Yields.pure _

theorem yields_arm (hb : m.broker? v = some b) (time : Option UInt64) :
  Yields (arm v time) m () (m.armed v time)
  := by
  cases time with
  | none => exact Yields.pure ()
  | some ns =>
      rw [arm_some]
      apply Yields.get_bind
      intro j
      exact yields_modifyBroker hb _

theorem vcpu?_armed (time : Option UInt64) :
  (m.armed v time).vcpu? w = m.vcpu? w
  := by
  cases time with
  | none => rfl
  | some ns => exact vcpu?_mapBroker _

theorem isRegistered_armed (time : Option UInt64) :
  (m.armed v time).isRegistered w = m.isRegistered w
  := by
  cases time with
  | none => rfl
  | some ns => exact isRegistered_mapBroker _

theorem broker?_armed_some (hb : m.broker? v = some b) (ns : UInt64) :
  (m.armed v (some ns)).broker? v =
    some { b with deadline := some (Broker.deadlineAfter m.clock ns) }
  := broker?_mapBroker_of_some hb _

theorem Flawless.armed (hf : m.Flawless) (v : Vpid) (time : Option UInt64) :
  (m.armed v time).Flawless
  := by
  cases time with
  | none => exact hf
  | some ns => exact hf.mapBroker v _

section

variable (hc : m.vcpu? v = some c) (hb : m.broker? v = some b) (hf : m.Flawless)

include hc hb hf

theorem concludes_await :
  Concludes (await v) m (m.awaited v c b).1 (m.awaited v c b).2
  := by
  rw [await, awaited]
  apply (yields_broker hb).bind_concludes
  apply Concludes.get_bind
  intro j
  cases b.deadline with
  | some deadline =>
      by_cases hle : deadline ≤ m.clock
      · have hc' : (m.mapBroker v Broker.clearDeadline).vcpu? v = some c := by
          rw [vcpu?_mapBroker, hc]
        have hle' : deadline ≤ (m.withJournal j).clock := hle
        simp only
        rw [if_pos hle, if_pos hle']
        apply (yields_modifyBroker hb Broker.clearDeadline).bind_concludes
        apply (yields_note _).bind_concludes
        exact concludes_report hc' (hf.dependable v c hc).advance _
      · have hle' : ¬ deadline ≤ (m.withJournal j).clock := hle
        simp only
        rw [if_neg hle, if_neg hle']
        exact concludes_returnToParent hc hf _
  | none =>
      apply (yields_registers hc).bind_concludes
      apply (yields_arm hb _).bind_concludes
      apply (yields_note _).bind_concludes
      exact concludes_returnToParent ((vcpu?_armed _).trans hc) (hf.armed v _) _

theorem concludes_nextExit :
  Concludes (nextExit v) m (m.asked v c b).1 (m.asked v c b).2
  := by
  have hc' : ∀ f, (m.mapBroker v f).vcpu? v = some c := by
    intro f
    rw [vcpu?_mapBroker, hc]
  rw [nextExit, asked]
  apply (yields_broker hb).bind_concludes
  cases b.pending.front? with
  | some e =>
      apply (yields_endWait hb e).bind_concludes
      exact concludes_report (hc' Broker.told) (hf.dependable v c hc).advance _
  | none =>
      simp only
      split
      · apply (yields_note _).bind_concludes
        exact concludes_refuse _
      · exact concludes_await hc hb hf

end

end ExitRelay.Machine
