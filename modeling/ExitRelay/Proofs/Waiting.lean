import ExitRelay.Proofs.Execution.Question

/-!
# Waiting for an event

A listener outside the kernel that asks for the next event and gives a waiting time repeats its
question until it is answered.  As long as its deadline lies ahead, each question goes back to
the parent with the time that is left and changes nothing about the listener.  The first
question after that is answered by a timeout, which ends the wait.  The deadline is found
without overflow and is never the word that stands for no deadline.
-/

namespace ExitRelay.Machine

variable {m n l l' : Machine} {v p : Vpid} {c : VCpu} {b : Broker} {t : Transfer}
  {deadline ns : UInt64} {times : List UInt64}

/-- A processor in the state `c` with the broker `b` is about to ask for the next event, from
outside the kernel and while nothing is pending, and it has a parent that can wait with it. -/
structure Asking (v p : Vpid) (c : VCpu) (b : Broker) (m : Machine) : Prop where
  agrees : m.Agrees
  flawless : m.Flawless
  vcpu : m.vcpu? v = some c
  broker : m.broker? v = some b
  call : m.call? v = some .nextExit
  user : b.cpl ≠ 0
  nothing : b.pending = {}
  parent : c.parent = some p
  registered : m.isRegistered p = true

/-- Whatever has happened between two questions of a processor, it has had nothing to do with the
processor and its broker. -/
structure Untouched (v p : Vpid) (l l' : Machine) : Prop where
  agrees : l'.Agrees
  flawless : l'.Flawless
  vcpu : l'.vcpu? v = l.vcpu? v
  broker : l'.broker? v = l.broker? v
  registered : l'.isRegistered p = true

/-- A processor has made a call on the machine `m` and has repeated it at some times. -/
inductive Retried (v p : Vpid) (m : Machine) : List UInt64 → Machine → Prop where
  | first : Retried v p m [] (after (handleHypercall v) m)
  | retry {times : List UInt64} {l l' : Machine} (h : Retried v p m times l)
      (hl : Untouched v p l l') :
      Retried v p m (times ++ [l'.clock]) (after (handleHypercall v) l')

/-- A processor waits for an event until its deadline, and its parent is loaded. -/
structure Waiting (v p : Vpid) (c : VCpu) (b : Broker) (deadline : UInt64) (l : Machine) :
    Prop where
  vcpu : l.vcpu? v = some c
  broker : l.broker? v = some { b with deadline := some deadline }
  loaded : l.loaded = some p
  agrees : l.Agrees
  flawless : l.Flawless

/-! ### One question -/

/-- A question ends as the machine tells. -/
theorem Asking.yields (h : m.Asking v p c b) (hx : (m.switchTo v).awaited v c b = (.ok t, n))
    (hn : n.isRegistered v = true) :
  Yields (handleHypercall v) m (some t) n
  := by
  have hasked := concludes_nextExit (m := m.switchTo v) h.vcpu h.broker (h.flawless.switchTo v)
  have hawaited : (m.switchTo v).asked v c b = (.ok t, n) := by
    rw [asked, h.nothing, ← hx]
    simp only [Broker.isKernelListener, h.user]
    rfl
  rw [hawaited] at hasked
  exact yields_handleHypercall h.agrees h.flawless.dependable h.vcpu h.call
    (yields_serveNextExit hasked.yields) hn

/-- The first question sets the deadline. -/
theorem Asking.yields_first (h : m.Asking v p c b) (hd : b.deadline = none)
    (ht : NextExit.timeout? c.regs.r11 = some ns) :
  Yields (handleHypercall v) m (some (.returnToParent p (some ns)))
    (((m.switchTo v).armed v (some ns)).switchTo p)
  := by
  have hr : ((m.switchTo v).armed v (some ns)).isRegistered p = true :=
    (isRegistered_armed _).trans h.registered
  apply h.yields
  · rw [awaited_of_none hd, ht]
    exact sentBack_of_parent h.parent hr _
  · rw [isRegistered_switchTo, isRegistered_armed]
    exact isRegistered_iff_vcpu?.mpr ⟨c, h.vcpu⟩

/-- A question before the deadline changes nothing. -/
theorem Asking.yields_again (h : m.Asking v p c b) (hd : b.deadline = some deadline)
    (ht : m.clock < deadline) :
  Yields (handleHypercall v) m (some (.returnToParent p (some (deadline - m.clock))))
    ((m.switchTo v).switchTo p)
  := by
  apply h.yields
  · rw [awaited_of_lt (m := m.switchTo v) hd ht]
    exact sentBack_of_parent (m := m.switchTo v) h.parent h.registered _
  · exact isRegistered_iff_vcpu?.mpr ⟨c, h.vcpu⟩

/-- A question after the deadline is answered, and the deadline is forgotten. -/
theorem Asking.yields_over (h : m.Asking v p c b) (hd : b.deadline = some deadline)
    (ht : deadline ≤ m.clock) :
  Yields (handleHypercall v) m (some (.run v))
    (((m.switchTo v).mapBroker v Broker.clearDeadline).mapVCpu v
      (VCpu.completed timeoutRegisters ∘ VCpu.advanced))
  := by
  apply h.yields
  · rw [awaited_of_le (m := m.switchTo v) hd ht, reported]
    exact if_pos rfl
  · rw [isRegistered_mapVCpu, isRegistered_mapBroker]
    exact isRegistered_iff_vcpu?.mpr ⟨c, h.vcpu⟩

/-! ### A whole wait -/

/-- The first question begins the wait. -/
theorem Asking.waiting_first (h : m.Asking v p c b) (hd : b.deadline = none)
    (ht : NextExit.timeout? c.regs.r11 = some ns) :
  (after (handleHypercall v) m).Waiting v p c b (Broker.deadlineAfter m.clock ns)
  := by
  obtain ⟨j, hj⟩ := (h.yields_first hd ht).after_eq
  have hr : ((m.switchTo v).armed v (some ns)).isRegistered p = true :=
    (isRegistered_armed _).trans h.registered
  rw [hj]
  constructor
  · exact (vcpu?_armed _).trans h.vcpu
  · exact broker?_armed_some (m := m.switchTo v) h.broker ns
  · rfl
  · exact (holds_switchTo hr).agrees
  · exact Flawless.armed (h.flawless.switchTo v) v (some ns)

/-- A processor that waits asks again. -/
theorem Waiting.asking (h : m.Asking v p c b) (hl : l.Waiting v p c b deadline)
    (hu : Untouched v p l l') :
  l'.Asking v p c { b with deadline := some deadline }
  := by
  have hc : l'.vcpu? v = some c := hu.vcpu.trans hl.vcpu
  constructor
  · exact hu.agrees
  · exact hu.flawless
  · exact hc
  · exact hu.broker.trans hl.broker
  · rw [← h.call, call?, call?, hc, h.vcpu]
  · exact h.user
  · exact h.nothing
  · exact h.parent
  · exact hu.registered

/-- Time may pass while a processor waits. -/
theorem Waiting.untouched (hl : l.Waiting v p c b deadline) (now : UInt64) :
  Untouched v p l { l with clock := now }
  := ⟨hl.agrees, hl.flawless, rfl, rfl, (hl.agrees p hl.loaded).1⟩

/-- A question before the deadline goes on with the wait. -/
theorem Asking.waiting_again (h : m.Asking v p c { b with deadline := some deadline })
    (ht : m.clock < deadline) :
  (after (handleHypercall v) m).Waiting v p c b deadline
  := by
  obtain ⟨j, hj⟩ := (h.yields_again rfl ht).after_eq
  rw [hj]
  exact ⟨h.vcpu, h.broker, rfl, (holds_switchTo h.registered).agrees, h.flawless⟩

/-- As long as the deadline lies ahead, the processor waits. -/
theorem Retried.waiting (h : m.Asking v p c b) (hd : b.deadline = none)
    (hns : NextExit.timeout? c.regs.r11 = some ns) (hl : Retried v p m times l)
    (ht : ∀ t ∈ times, t < Broker.deadlineAfter m.clock ns) :
  l.Waiting v p c b (Broker.deadlineAfter m.clock ns)
  := by
  induction hl with
  | first => exact h.waiting_first hd hns
  | retry hl hu ih =>
      have hbefore := ih fun t ht' => ht t (List.mem_append_left _ ht')
      apply (hbefore.asking h hu).waiting_again
      exact ht _ (List.mem_append_right _ List.mem_cons_self)

/-- A listener outside the kernel asks for the next event, with a waiting time in milliseconds,
while nothing is pending.  Its deadline is found without overflow and stops short of the word
that stands for no deadline.  Whatever the clock shows when it repeats its question, as long
as that is before the deadline the question goes back to the parent with the time that is
left, and nothing changes about the listener.  The first question that comes later is answered
by a timeout: the listener goes on behind its call, which has succeeded, and its broker is as
it was before the wait. -/
theorem wait_times_out (h : m.Asking v p c b) (hd : b.deadline = none)
    (ht : Word.bit c.regs.r11 0 = true) :
  ∃ deadline wait : UInt64,
    deadline.toNat =
      min (m.clock.toNat + (Word.slice c.regs.r11 32 32).toNat * 1000000) (2 ^ 64 - 2) ∧
    deadline ≠ Broker.noDeadline ∧
    wait.toNat = (Word.slice c.regs.r11 32 32).toNat * 1000000 ∧
    (∃ n, handleHypercall v m = .ok (some (.returnToParent p (some wait))) n) ∧
    ∀ times l, Retried v p m times l → (∀ t ∈ times, t < deadline) →
      l.Waiting v p c b deadline ∧
      ∀ l', Untouched v p l l' →
        (l'.clock < deadline → ∃ n, handleHypercall v l' =
          .ok (some (.returnToParent p (some (deadline - l'.clock)))) n) ∧
        (deadline ≤ l'.clock → ∃ n, handleHypercall v l' = .ok (some (.run v)) n ∧
          n.loaded = some v ∧ n.broker? v = some b ∧ b.state = .idle ∧
          n.vcpu? v = some { c with
            regs := { c.regs with r11 := ExitReason.timeout.code, rax := Status.success.code }
            vmcs := c.vmcs.write Field.rip
              (c.vmcs.read Field.rip + VcpuM.instructionLength) })
  := by
  have hns : NextExit.timeout? c.regs.r11 = some (Word.slice c.regs.r11 32 32 * 1000000) :=
    if_pos ht
  have hwait : (Word.slice c.regs.r11 32 32 * 1000000).toNat =
      (Word.slice c.regs.r11 32 32).toNat * 1000000 := by
    rw [UInt64.toNat_mul]
    exact Nat.mod_eq_of_lt (NextExit.timeout_lt c.regs.r11)
  obtain ⟨j, hfirst⟩ := (h.yields_first hd hns).eq_ok
  refine ⟨Broker.deadlineAfter m.clock (Word.slice c.regs.r11 32 32 * 1000000), _, ?_,
    Broker.deadlineAfter_ne_noDeadline _ _, hwait, ⟨_, hfirst⟩, ?_⟩
  · rw [Broker.toNat_deadlineAfter, hwait]
    rfl
  · intro times l hl hbefore
    have hwaiting := hl.waiting h hd hns hbefore
    refine ⟨hwaiting, ?_⟩
    intro l' hu
    have hasking := hwaiting.asking h hu
    constructor
    · intro hlt
      obtain ⟨i, hi⟩ := (hasking.yields_again rfl hlt).eq_ok
      exact ⟨_, hi⟩
    · intro hle
      obtain ⟨i, hi⟩ := (hasking.yields_over rfl hle).eq_ok
      have hb : ({ b with deadline := none } : Broker) = b := by
        rw [← hd]
      refine ⟨_, hi, rfl, ?_, ?_, ?_⟩
      · rw [broker?_withJournal, broker?_mapVCpu, broker?_mapBroker_self, broker?_switchTo,
          hasking.broker]
        exact congrArg some hb
      · rw [Broker.state, h.nothing, hd]
        rfl
      · rw [vcpu?_withJournal, vcpu?_mapVCpu_self, vcpu?_mapBroker, vcpu?_switchTo,
          hasking.vcpu]
        rfl

/-- A listener waits for a millisecond.  It asks again before that is over, and once more when
it is. -/
theorem wait_of_one_millisecond :
  let caller : VCpu := { parent := some 1, regs := { rax := 0x60000, r11 := 0x100000001 } }
  let user : Broker := { cpl := 3 }
  let m : Machine := (({ clock := 7 } : Machine).hosting 1 ⟨{ domain := .root }, {}⟩).hosting 2
    ⟨caller, user⟩
  let first := { after (handleHypercall 2) m with clock := 400007 }
  let second := { after (handleHypercall 2) first with clock := 1000007 }
  (∃ n, handleHypercall 2 m = .ok (some (.returnToParent 1 (some 1000000))) n) ∧
    (∃ n, handleHypercall 2 first = .ok (some (.returnToParent 1 (some 600000))) n) ∧
    ∃ n, handleHypercall 2 second = .ok (some (.run 2)) n ∧ n.broker? 2 = some user ∧
      (n.vcpu? 2).map (fun c => (c.regs, c.vmcs.read Field.rip)) =
        some ({ caller.regs with r11 := 5, rax := 0 }, 3)
  := by
  intro caller user m first second
  have hf : m.Flawless := by
    apply Flawless.hosting _ 2 rfl
    apply Flawless.hosting _ 1 rfl
    exact guarantees_of_residents rfl
  have h : m.Asking 2 1 caller user := by
    constructor
    · intro u hu
      nomatch hu
    · exact hf
    · exact vcpu?_hosting_self _ _ _
    · exact broker?_hosting_self _ _ _
    · decide +kernel
    · decide
    · rfl
    · rfl
    · decide +kernel
  obtain ⟨deadline, wait, hdeadline, -, hwait, hfirst, hretry⟩ := wait_times_out h rfl (by decide)
  obtain rfl : deadline = 1000007 := by
    apply UInt64.toNat_inj.mp
    rw [hdeadline]
    decide +kernel
  obtain rfl : wait = 1000000 := by
    apply UInt64.toNat_inj.mp
    rw [hwait]
    decide +kernel
  obtain ⟨hwaiting₁, hretry₁⟩ := hretry [] _ .first (by simp)
  have hu₁ := hwaiting₁.untouched 400007
  obtain ⟨hwaiting₂, hretry₂⟩ := hretry _ _ (Retried.first.retry hu₁) (by
    intro t ht
    rw [List.nil_append, List.mem_singleton] at ht
    rw [ht]
    decide)
  obtain ⟨n, hn, -, hb, -, hc⟩ := (hretry₂ _ (hwaiting₂.untouched 1000007)).2 (UInt64.le_refl _)
  have hleft : (1000007 : UInt64) - 400007 = 600000 := by decide
  rw [← hleft]
  refine ⟨hfirst, (hretry₁ _ hu₁).1 (by decide), n, hn, hb, ?_⟩
  rw [hc]
  decide +kernel

end ExitRelay.Machine
