import ExitRelay.Proofs.Execution.Question
import ExitRelay.Proofs.Operation

/-!
# Questions that fail

A question for the next event that fails leaves every broker as it was, except for the deadline
of the processor that has asked.  Where that processor is loaded, its deadline changes in one
case only: it is a listener outside the kernel that begins to wait, its deadline is set, and
then there is no parent that it could go back to.
-/

namespace ExitRelay.Machine

variable {m n : Machine} {v x : Vpid} {c : VCpu} {b : Broker} {e : SysError}

/-- Telling a processor something fails only if its control structure is not the current one. -/
theorem reported_eq_error {results : Registers → Registers}
    (h : (m.reported v results).1 = .error e) :
  m.current ≠ some v ∧ (m.reported v results).2 = m.mapVCpu v (VCpu.assigned results)
  := by
  rw [reported] at h ⊢
  split
  · rename_i hv
    rw [if_pos hv] at h
    cases h
  · rename_i hv
    exact ⟨hv, rfl⟩

/-- A processor fails to go back to its parent only if there is none. -/
theorem sentBack_eq_error {yield : Option UInt64} (h : (m.sentBack c yield).1 = .error e) :
  c.parent.filter m.isRegistered = none ∧ (m.sentBack c yield).2 = m
  := by
  rw [sentBack] at h ⊢
  split
  · rename_i hp
    exact ⟨hp, rfl⟩
  · rename_i p hp
    rw [hp] at h
    cases h

/-- A listener for which nothing is pending fails to begin a wait if it has no parent to go back
to, and then its deadline is set already. -/
theorem asked_of_orphan (hcpl : b.cpl ≠ 0) (hnothing : b.pending = {}) (hd : b.deadline = none)
    (hp : c.parent.filter m.isRegistered = none) :
  m.asked v c b =
    (.error Refusal.noParent.error, m.armed v (NextExit.timeout? c.regs.r11))
  := by
  have hk : b.isKernelListener = false := decide_eq_false hcpl
  have hp' : c.parent.filter (m.armed v (NextExit.timeout? c.regs.r11)).isRegistered = none := by
    rw [← hp]
    congr 1
    funext x
    exact isRegistered_armed _
  rw [asked, Pending.front?_eq_none_iff.mpr hnothing]
  simp only [hk, Bool.false_eq_true, if_false]
  rw [awaited_of_none hd, sentBack, hp']

/-! ### What is left of the brokers -/

/-- The brokers of `n` are those of `m`, except that the broker `b` of a processor has another
deadline. -/
structure LeftWith (v : Vpid) (b : Broker) (d : Option UInt64) (m n : Machine) : Prop where
  others : ∀ x, x ≠ v → n.broker? x = m.broker? x
  caller : n.broker? v = some { b with deadline := d }

theorem LeftWith.mapVCpu {d : Option UInt64} (h : LeftWith v b d m n) (f : VCpu → VCpu) :
  LeftWith v b d m (n.mapVCpu x f)
  := by
  constructor
  · intro y hy
    rw [broker?_mapVCpu, h.others y hy]
  · rw [broker?_mapVCpu, h.caller]

section

variable (hb : m.broker? v = some b)

include hb

theorem leftWith_self :
  LeftWith v b b.deadline m m
  := ⟨fun _ _ => rfl, hb⟩

theorem leftWith_mapBroker {f : Broker → Broker} {d : Option UInt64}
    (hf : f b = { b with deadline := d }) :
  LeftWith v b d m (m.mapBroker v f)
  := by
  constructor
  · intro x hx
    apply broker?_mapBroker_of_ne _ hx
  · rw [broker?_mapBroker_of_some hb, hf]

/-- A wait without a waiting time begins without a deadline. -/
theorem leftWith_armed (hd : b.deadline = none) (time : Option UInt64) :
  LeftWith v b (time.map (Broker.deadlineAfter m.clock)) m (m.armed v time)
  := by
  cases time with
  | none =>
      have hself := leftWith_self hb
      rw [hd] at hself
      exact hself
  | some ns =>
      rw [armed]
      apply leftWith_mapBroker hb
      rfl

/-- A listener that fails to begin a wait has its deadline set, and there is no parent. -/
theorem leftWith_awaited_of_none (hd : b.deadline = none)
    (h : (m.awaited v c b).1 = .error e) :
  LeftWith v b ((NextExit.timeout? c.regs.r11).map (Broker.deadlineAfter m.clock)) m
      (m.awaited v c b).2 ∧
    c.parent.filter m.isRegistered = none
  := by
  rw [awaited_of_none hd] at h ⊢
  obtain ⟨hp, hn⟩ := sentBack_eq_error h
  rw [hn, ← hp]
  refine ⟨leftWith_armed hb hd _, ?_⟩
  congr 1
  funext x
  exact (isRegistered_armed _).symm

/-- A listener that fails to go on with a wait has its deadline still, unless it was over. -/
theorem leftWith_awaited_of_some {deadline : UInt64} (hd : b.deadline = some deadline)
    (h : (m.awaited v c b).1 = .error e) :
  ∃ d, LeftWith v b d m (m.awaited v c b).2 ∧
    (d = b.deadline ∨ m.current ≠ some v ∧ d = none)
  := by
  by_cases hle : deadline ≤ m.clock
  · rw [awaited_of_le hd hle] at h ⊢
    obtain ⟨hv, hn⟩ := reported_eq_error h
    have hcleared : LeftWith v b none m (m.mapBroker v Broker.clearDeadline) := by
      apply leftWith_mapBroker hb
      rfl
    rw [hn]
    exact ⟨none, hcleared.mapVCpu _, .inr ⟨hv, rfl⟩⟩
  · rw [awaited_of_lt hd (UInt64.not_le.mp hle)] at h ⊢
    rw [(sentBack_eq_error h).2]
    exact ⟨_, leftWith_self hb, .inl rfl⟩

/-- A processor that fails to be told of an event may have had its deadline cleared. -/
theorem leftWith_reported {results : Registers → Registers}
    (h : ((m.mapBroker v Broker.told).reported v results).1 = .error e) :
  ∃ d, LeftWith v b d m ((m.mapBroker v Broker.told).reported v results).2 ∧
    (d = b.deadline ∨ m.current ≠ some v ∧ d = none)
  := by
  obtain ⟨hv, hn⟩ := reported_eq_error h
  rw [hn]
  cases hk : b.isKernelListener with
  | true =>
      have htold : LeftWith v b b.deadline m (m.mapBroker v Broker.told) := by
        apply leftWith_mapBroker hb
        rw [Broker.told, if_pos hk]
      exact ⟨_, htold.mapVCpu _, .inl rfl⟩
  | false =>
      have htold : LeftWith v b none m (m.mapBroker v Broker.told) := by
        apply leftWith_mapBroker hb
        rw [Broker.told, hk]
        rfl
      exact ⟨_, htold.mapVCpu _, .inr ⟨hv, rfl⟩⟩

/-- A question that fails changes no broker but that of the processor which has asked, and there
the deadline only. -/
theorem leftWith_asked (h : (m.asked v c b).1 = .error e) :
  ∃ d, LeftWith v b d m (m.asked v c b).2 ∧
    ((b.cpl ≠ 0 ∧ b.pending = {} ∧ b.deadline = none →
        c.parent.filter m.isRegistered = none ∧
          d = (NextExit.timeout? c.regs.r11).map (Broker.deadlineAfter m.clock)) ∧
      (¬ (b.cpl ≠ 0 ∧ b.pending = {} ∧ b.deadline = none) →
        d = b.deadline ∨ m.current ≠ some v ∧ d = none))
  := by
  cases hp : b.pending.front? with
  | some x =>
      rw [asked, hp] at h ⊢
      obtain ⟨d, hleft, hd⟩ := leftWith_reported hb h
      refine ⟨d, hleft, ?_, fun _ => hd⟩
      rintro ⟨-, hnone, -⟩
      rw [Pending.front?_eq_none_iff.mpr hnone] at hp
      cases hp
  | none =>
      rw [asked, hp] at h ⊢
      cases hk : b.isKernelListener with
      | true =>
          simp only [if_true]
          refine ⟨_, leftWith_self hb, ?_, fun _ => .inl rfl⟩
          rintro ⟨hcpl, -⟩
          exact absurd (of_decide_eq_true hk) hcpl
      | false =>
          simp only [hk, Bool.false_eq_true, if_false] at h ⊢
          have hcpl : b.cpl ≠ 0 := of_decide_eq_false hk
          cases hd : b.deadline with
          | none =>
              obtain ⟨hleft, hnone⟩ := leftWith_awaited_of_none hb hd h
              refine ⟨_, hleft, fun _ => ⟨hnone, rfl⟩, ?_⟩
              intro hnot
              exact absurd ⟨hcpl, Pending.front?_eq_none_iff.mp hp, rfl⟩ hnot
          | some deadline =>
              obtain ⟨d, hleft, hcases⟩ := leftWith_awaited_of_some hb hd h
              rw [hd] at hcases
              refine ⟨d, hleft, ?_, fun _ => hcases⟩
              rintro ⟨-, -, hnone⟩
              cases hnone

end

/-- A question for the next event that fails changes no broker but that of the processor which
has asked, and there it changes the deadline only.  If the processor is a listener outside the
kernel for which nothing is pending and no deadline is set, then it has no parent that is
registered, and the deadline of the wait that was to begin stays set if a waiting time is
given.  Otherwise the deadline is as it was, at least if the processor is the one that is
loaded. -/
theorem broker_of_failed_question (hf : m.Flawless) (hc : m.vcpu? v = some c)
    (hb : m.broker? v = some b) (hn : nextExit v m = .error e n) :
  ∃ d, (∀ x, x ≠ v → n.broker? x = m.broker? x) ∧
    n.broker? v = some { b with deadline := d } ∧
    (b.cpl ≠ 0 ∧ b.pending = {} ∧ b.deadline = none →
      c.parent.filter m.isRegistered = none ∧
        d = (NextExit.timeout? c.regs.r11).map (Broker.deadlineAfter m.clock)) ∧
    (¬ (b.cpl ≠ 0 ∧ b.pending = {} ∧ b.deadline = none) →
      d = b.deadline ∨ m.current ≠ some v ∧ d = none)
  := by
  obtain ⟨hr, j, rfl⟩ := (concludes_nextExit hc hb hf).of_error hn
  obtain ⟨d, hleft, hcases⟩ := leftWith_asked hb hr
  exact ⟨d, hleft.others, hleft.caller, hcases⟩

/-- A listener in the kernel asks although nothing is pending. -/
theorem broker_of_failed_kernel_question :
  let caller : VCpu := { parent := some 1, regs := { rax := 0x60000, r11 := 0x100000001 } }
  let m : Machine := ({ loaded := some 2, current := some 2 } : Machine).hosting 2 ⟨caller, {}⟩
  ∃ e n, nextExit 2 m = .error e n ∧ n.broker? 2 = m.broker? 2
  := by
  intro caller m
  have hf : m.Flawless := by
    apply Flawless.hosting _ 2 rfl
    exact guarantees_of_residents rfl
  have hc : m.vcpu? 2 = some caller := vcpu?_hosting_self _ _ _
  have hb : m.broker? 2 = some {} := broker?_hosting_self _ _ _
  obtain ⟨j, hn⟩ : ∃ j, nextExit 2 m = .error Refusal.nothingPending.error (m.withJournal j) :=
    concludes_nextExit hc hb hf m.journal
  obtain ⟨d, -, hd, -, hcases⟩ := broker_of_failed_question hf hc hb hn
  obtain rfl : d = none := by
    rcases hcases (by decide) with hd | ⟨hv, -⟩
    · exact hd
    · exact absurd rfl hv
  exact ⟨_, _, hn, hd.trans hb.symm⟩

/-- A listener asks for the next event within a millisecond, and has no parent to go back to.
Its call fails, but it has got a deadline.  When it asks once more, without a waiting time, it is
told that its time is over. -/
theorem timeout_after_failed_question :
  let caller : VCpu := { parent := some 1, regs := { rax := 0x60000, r11 := 0x100000001 } }
  let m : Machine := ({ loaded := some 2, current := some 2 } : Machine).hosting 2
    ⟨caller, { cpl := 3 }⟩
  let failed := (Operation.hypercall 2).run m
  let later := (Operation.guest 2 { rax := 0x60000 } {}).run ((Operation.time 1000000).run failed)
  let last := (Operation.hypercall 2).run later
  m.Agrees ∧ m.Flawless ∧ m.isRegistered 2 = true ∧
    (∃ e n, nextExit 2 m = .error e n ∧ n.broker? 2 ≠ m.broker? 2) ∧
    (failed.vcpu? 2).map (fun c => c.regs.rax) = some Status.failureUnknown.code ∧
    NextExit.timeout? 0 = none ∧
    (last.vcpu? 2).map (fun c => (c.regs.r11, c.regs.rax)) =
      some (ExitReason.timeout.code, Status.success.code)
  := by
  intro caller m failed later last
  have hf : m.Flawless := by
    apply Flawless.hosting _ 2 rfl
    exact guarantees_of_residents rfl
  have hc : m.vcpu? 2 = some caller := vcpu?_hosting_self _ _ _
  have hb : m.broker? 2 = some { cpl := 3 } := broker?_hosting_self _ _ _
  have hw : m.isRegistered 2 = true := isRegistered_iff_vcpu?.mpr ⟨caller, hc⟩
  have hm : m.Agrees := Holds.agrees ⟨hw, rfl, rfl⟩
  obtain ⟨j, hn⟩ := concludes_nextExit hc hb hf m.journal
  rw [asked_of_orphan (by decide) rfl rfl (by decide +kernel)] at hn
  refine ⟨hm, hf, hw, ⟨_, _, hn, ?_⟩, by decide +kernel, by decide, by decide +kernel⟩
  have ht : NextExit.timeout? caller.regs.r11 = some 1000000 := by
    decide +kernel
  rw [broker?_withJournal, ht, broker?_armed_some hb, hb]
  decide +kernel

end ExitRelay.Machine
