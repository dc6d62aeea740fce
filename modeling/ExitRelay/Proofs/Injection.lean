import ExitRelay.Proofs.Decline
import ExitRelay.Proofs.Toggling

/-!
# Injecting an event

A listener to whom nothing is pending takes an event and is run, and is interrupted once if it
receives events in the kernel.  A listener to whom something is pending takes no event: its
broker stays as it is, and the origin of the event goes on instead, without the control that
caused the exit.  `injection` says so for every listener and event, whether or not the listener
is the origin of the event, and however many events are pending.
-/

namespace ExitRelay

namespace ControlField

theorem encoding_injective {field field' : ControlField}
    (h : field.encoding = field'.encoding) :
  field = field'
  := by
  cases field <;> cases field' <;> first | rfl | exact absurd h (by decide)

end ControlField

namespace Control

variable {k : Control} {reason : ExitReason}

theorem position_lt (k : Control) :
  k.position < 64
  := by
  cases k <;> decide

/-- Only a move to CR3 is skipped when nobody handles it. -/
theorem fallback_eq_advance_iff (h : k.covers reason = true) :
  k.fallback = .advance ↔ reason = .cr3Load
  := by
  revert h
  cases k <;> cases reason <;> decide

end Control

namespace VCpu

/-- The second processor is the first one after it has been recovered from an exit for the
reason that no listener took. -/
structure Recovered (reason : ExitReason) (c d : VCpu) : Prop where
  /-- It goes on and is as it was, but for its control structure. -/
  frame : d = { c with vmcs := d.vmcs, paused := false }
  /-- It skips a move to CR3 and repeats any other instruction. -/
  rip : d.vmcs.read Field.rip =
    if reason = .cr3Load then c.vmcs.read Field.rip + VcpuM.instructionLength
    else c.vmcs.read Field.rip
  /-- The control that caused the exit is off. -/
  cleared : ∀ k : Control, k.covers reason = true →
    Word.bit (d.vmcs.read k.field.encoding) k.position = false
  /-- Every other bit of the control fields is as it was. -/
  kept : ∀ (field : ControlField) i, i < 64 →
    (∀ k : Control, k.covers reason = true → k.field = field → k.position ≠ i) →
    Word.bit (d.vmcs.read field.encoding) i = Word.bit (c.vmcs.read field.encoding) i
  /-- Every other field is as it was. -/
  fields : ∀ f, f ≠ Field.rip → (∀ field : ControlField, f ≠ field.encoding) →
    d.vmcs.read f = c.vmcs.read f

variable {reason : ExitReason} {c : VCpu} {f : Field}

/-- Giving up an exit writes the instruction pointer and the field of the control that caused
the exit only. -/
theorem read_givenUp (hrip : f ≠ Field.rip)
    (h : ∀ k : Control, k.covers reason = true → f ≠ k.field.encoding) :
  (c.givenUp reason).vmcs.read f = c.vmcs.read f
  := by
  rw [givenUp]
  cases hr : Control.ofReason? reason with
  | none => rfl
  | some k =>
      change ((c.fellBack k).switched k false).vmcs.read f = _
      rw [read_switched (h k (Control.ofReason?_eq_some_iff.mp hr)), read_fellBack hrip]

theorem frame_givenUp (reason : ExitReason) (c : VCpu) :
  c.givenUp reason = { c with vmcs := (c.givenUp reason).vmcs }
  := by
  rw [givenUp]
  cases Control.ofReason? reason with
  | none => rfl
  | some k => cases k <;> rfl

theorem rip_givenUp (reason : ExitReason) (c : VCpu) :
  (c.givenUp reason).vmcs.read Field.rip =
    if reason = .cr3Load then c.vmcs.read Field.rip + VcpuM.instructionLength
    else c.vmcs.read Field.rip
  := by
  cases hr : Control.ofReason? reason with
  | some k =>
      have hk := Control.ofReason?_eq_some_iff.mp hr
      rw [read_givenUp_rip hk]
      simp only [Control.fallback_eq_advance_iff hk]
  | none =>
      have hne : reason ≠ .cr3Load := by
        rintro rfl
        exact absurd hr (by decide)
      rw [if_neg hne, givenUp, hr]

/-- Giving up an exit clears the bit of the control that caused it and no other bit of the
control fields. -/
theorem bit_givenUp (field : ControlField) {i : Nat} (hi : i < 64)
    (h : ∀ k : Control, k.covers reason = true → k.field = field → k.position ≠ i) :
  Word.bit ((c.givenUp reason).vmcs.read field.encoding) i =
    Word.bit (c.vmcs.read field.encoding) i
  := by
  by_cases hk : ∃ k : Control, k.covers reason = true ∧ k.field = field
  · obtain ⟨k, hk, rfl⟩ := hk
    rw [read_givenUp_control hk, Word.bit_and, Word.bit_not _ hi, k.bit_mask hi,
      decide_eq_false (h k hk rfl).symm, Bool.not_false, Bool.and_true]
  · rw [read_givenUp field.encoding_ne_rip]
    intro k hk' he
    exact hk ⟨k, hk', (ControlField.encoding_injective he).symm⟩

theorem recovered_givenUp (reason : ExitReason) (c : VCpu) :
  Recovered reason c ((c.givenUp reason).withPaused false)
  where
  frame := congrArg (withPaused false) (frame_givenUp reason c)
  rip := rip_givenUp reason c
  cleared := by
    intro k hk
    change Word.bit ((c.givenUp reason).vmcs.read k.field.encoding) k.position = false
    rw [read_givenUp_control hk, Word.bit_and, Word.bit_not _ k.position_lt,
      k.bit_mask k.position_lt, decide_eq_true rfl, Bool.not_true, Bool.and_false]
  kept := fun field _ hi h => bit_givenUp field hi h
  fields := fun _ hrip h => read_givenUp hrip fun k _ => h k.field

/-- Giving up an exit interrupts nobody. -/
theorem interrupt_notMem_surrender (v w : Vpid) (vector : UInt8) :
  .interrupt w vector ∉ c.surrender v reason
  := by
  rw [surrender]
  cases Control.ofReason? reason with
  | none => exact List.not_mem_nil
  | some k => cases k <;> simp [Control.moves, Control.fallback]

end VCpu

namespace Machine

/-- A listener with the broker has taken the event, which came to the machine `m`, and nothing
else has changed but the notes of the journal. -/
structure Taken (m : Machine) (l : Vpid) (b : Broker) (e : ExitEvent) (n : Machine) : Prop where
  broker : n.broker? l = some { b with pending := ⟨[e]⟩, deadline := none }
  brokers : ∀ w, w ≠ l → n.broker? w = m.broker? w
  vcpus : ∀ w, n.vcpu? w = m.vcpu? w
  loaded : n.loaded = some l
  current : n.current = some l
  config : n.config = m.config
  clock : n.clock = m.clock
  /-- The listener has been loaded, and interrupted if it receives events in the kernel. -/
  actions : n.journal.actions =
    (if b.cpl = 0 then [.interrupt l m.config.vector] else []) ++
      .load l :: m.journal.actions
  misdirected : n.journal.misdirected = m.journal.misdirected

/-- The origin of the event, which came to the machine `m`, has been recovered, and nothing else
has changed but the notes of the journal. -/
structure Recovered (m : Machine) (e : ExitEvent) (c : VCpu) (n : Machine) : Prop where
  brokers : ∀ w, n.broker? w = m.broker? w
  vcpus : ∀ w, w ≠ e.origin → n.vcpu? w = m.vcpu? w
  origin : ∃ d, n.vcpu? e.origin = some d ∧ VCpu.Recovered e.reason c d
  loaded : n.loaded = some e.origin
  current : n.current = some e.origin
  config : n.config = m.config
  clock : n.clock = m.clock
  /-- The origin has been loaded, the exit given up and the origin let go, and nobody has been
  interrupted. -/
  actions : n.journal.actions =
    .resume e.origin :: c.surrender e.origin e.reason ++ .load e.origin :: m.journal.actions
  misdirected : n.journal.misdirected = m.journal.misdirected
  interrupts : ∀ w vector, .interrupt w vector ∉ c.surrender e.origin e.reason

variable {m n : Machine} {l : Vpid} {b : Broker} {c : VCpu} {e : ExitEvent}

theorem taken_handed (hb : m.broker? l = some b) (hs : b.pending = {}) {j : Journal}
    (hj : j.actions = (if b.isKernelListener then [.interrupt l m.config.vector] else []) ++
      [.load l] ++ m.journal.actions) (hm : j.misdirected = m.journal.misdirected) :
  Taken m l b e ((m.handed l e).withJournal j)
  where
  broker := by
    rw [broker?_withJournal, handed, broker?_switchTo, broker?_mapBroker_self, hb]
    change some { b with pending := b.pending.push e, deadline := none } = _
    rw [hs]
    rfl
  brokers := by
    intro w hw
    rw [broker?_withJournal, handed, broker?_switchTo, broker?_mapBroker_of_ne _ hw]
  vcpus := by
    intro w
    rw [vcpu?_withJournal, vcpu?_handed]
  loaded := rfl
  current := rfl
  config := rfl
  clock := rfl
  actions := by
    change j.actions = _
    rw [hj, Broker.isKernelListener, List.append_assoc, List.singleton_append]
    simp only [decide_eq_true_eq]
  misdirected := hm

theorem recovered_fallenBack (hc : m.vcpu? e.origin = some c) {j : Journal}
    (hj : j.actions = (.resume e.origin :: c.surrender e.origin e.reason ++ [.load e.origin]) ++
      m.journal.actions) (hm : j.misdirected = m.journal.misdirected) :
  Recovered m e c ((m.fallenBack e).withJournal j)
  where
  brokers := by
    intro w
    rw [broker?_withJournal, fallenBack, broker?_mapVCpu, broker?_switchTo]
  vcpus := by
    intro w hw
    rw [vcpu?_withJournal, fallenBack, vcpu?_mapVCpu_of_ne _ hw, vcpu?_switchTo]
  origin := by
    refine ⟨_, ?_, VCpu.recovered_givenUp e.reason c⟩
    rw [vcpu?_withJournal, fallenBack, vcpu?_mapVCpu_self, vcpu?_switchTo, hc]
    rfl
  loaded := rfl
  current := rfl
  config := rfl
  clock := rfl
  actions := by
    change j.actions = _
    rw [hj, List.append_assoc, List.singleton_append]
  misdirected := hm
  interrupts := fun _ _ => VCpu.interrupt_notMem_surrender _ _ _

/-- What is pending stays pending in front of an event that is taken. -/
theorem Taken.slot_prefix (h : Taken m l b e n) (hb : m.broker? l = some b)
    (hs : b.pending = {}) (w : Vpid) :
  m.slot w <+: n.slot w
  := by
  by_cases hw : w = l
  · subst hw
    rw [slot_of_broker? hb, hs]
    apply List.nil_prefix
  · rw [slot, slot, h.brokers w hw]

theorem Recovered.slot_eq (h : Recovered m e c n) (w : Vpid) :
  n.slot w = m.slot w
  := by
  rw [slot, slot, h.brokers w]

/-- An event that is injected into a listener is taken if nothing is pending there.  Otherwise
its origin is recovered.  In both cases every event that was pending is still pending where it
was, in the same place. -/
theorem injection (hf : m.Flawless) (hb : m.broker? l = some b)
    (hc : m.vcpu? e.origin = some c) :
  ∃ t n, inject l e m = .ok t n ∧
    (b.pending = {} → t = .run l ∧ Taken m l b e n) ∧
    (b.pending ≠ {} → t = .run e.origin ∧ Recovered m e c n) ∧
    ∀ w, m.slot w <+: n.slot w
  := by
  by_cases hs : b.pending = {}
  · obtain ⟨j, hn, hj, hm⟩ := (performs_inject (e := e) hb hs hf).eq_ok
    have ht := taken_handed (e := e) hb hs hj hm
    exact ⟨_, _, hn, fun _ => ⟨rfl, ht⟩, fun h => absurd hs h, ht.slot_prefix hb hs⟩
  · have hd : c.faults.Dependable := hf.dependable e.origin c hc
    obtain ⟨j, hn, hj, hm⟩ := (performs_inject_of_pending hb hs hc hd).eq_ok
    have hr := recovered_fallenBack hc hj hm
    refine ⟨_, _, hn, fun h => absurd h hs, fun _ => ⟨rfl, hr⟩, ?_⟩
    intro w
    rw [hr.slot_eq]

/-- The processor 1 listens to itself and has not answered an event of 2 when an event of its
own is injected.  It keeps the event of 2, and goes on behind the move to CR3. -/
theorem injection_into_itself :
  let c : VCpu := { vmcs := Vmcs.initial.write 0x4002 0x8008000, paused := true }
  let older : ExitEvent := { origin := 2, reason := .monitorTrap }
  let e : ExitEvent := { origin := 1, reason := .cr3Load }
  let b : Broker := { pending := ⟨[older]⟩ }
  let m : Machine := ({} : Machine).hosting 1 ⟨c, b⟩
  (m.Flawless ∧ m.broker? 1 = some b ∧ m.vcpu? 1 = some c) ∧
    ∃ n d, inject 1 e m = .ok (.run 1) n ∧ n.slot 1 = [older] ∧ n.vcpu? 1 = some d ∧
      d.vmcs.read Field.rip = 0x1003 ∧ Word.bit (d.vmcs.read 0x4002) 15 = false ∧
      Word.bit (d.vmcs.read 0x4002) 27 = true ∧ d.paused = false
  := by
  intro c older e b m
  have hempty : ({} : Machine).Flawless := guarantees_of_residents rfl
  have hf : m.Flawless := hempty.hosting 1 rfl
  have hb : m.broker? 1 = some b := broker?_hosting_self _ _ _
  have hc : m.vcpu? e.origin = some c := vcpu?_hosting_self _ _ _
  obtain ⟨_, n, hn, -, hfull, -⟩ := injection hf hb hc
  obtain ⟨rfl, hr⟩ := hfull (by decide)
  obtain ⟨d, hd, hrec⟩ := hr.origin
  refine ⟨⟨hf, hb, hc⟩, n, d, hn, ?_, hd, ?_, ?_, ?_, ?_⟩
  · rw [hr.slot_eq]
    rfl
  · rw [hrec.rip]
    decide +kernel
  · exact hrec.cleared .cr3LoadExiting rfl
  · refine (hrec.kept .primary 27 (by decide) ?_).trans (by decide +kernel)
    intro k hk
    cases k with
    | monitorTrapFlag => exact absurd hk (by decide)
    | _ => decide
  · rw [hrec.frame]

end Machine

end ExitRelay
