import ExitRelay.Proofs.Decline
import ExitRelay.Proofs.Translation

/-!
# Default handling

A trap that nobody listens for and a trap that every listener declines leave the processor in
the same state, with one exception: after a single step that nobody listens for, the processor
goes on behind the instruction, and after one that every listener has declined, it goes on with
the same instruction.
-/

namespace ExitRelay

variable {v : Vpid} {c : VCpu} {x : HardwareExit} {e : ExitEvent} {control : Control}
  {reason : ExitReason}

namespace VCpu

/-- What becomes of a processor when nobody hears of its trap is what becomes of it when the event
is given up, if the trap is no single step. -/
theorem unheard_eq_givenUp (h : control.covers reason = true) (hne : reason ≠ .monitorTrap)
    (c : VCpu) :
  c.unheard control = c.givenUp reason
  := by
  rw [givenUp, Control.ofReason?_eq_some_iff.mpr h]
  cases control with
  | cr3LoadExiting => exact advanced_switched _ _ _
  | monitorTrapFlag => exact absurd (List.mem_singleton.mp (List.contains_iff_mem.mp h)) hne
  | eptViolation => rfl

/-- After a single step the processor goes on behind the instruction if nobody hears of it, and with
the same instruction if the event is given up. -/
theorem unheard_monitorTrapFlag (c : VCpu) :
  c.unheard .monitorTrapFlag = (c.givenUp .monitorTrap).advanced
  := rfl

theorem paused_givenUp (c : VCpu) :
  (c.givenUp reason).paused = c.paused
  := by
  rw [givenUp]
  split
  · rfl
  · rename_i control _
    cases control <;> rfl

theorem withPaused_eq_self {b : Bool} (h : c.paused = b) :
  c.withPaused b = c
  := by
  rw [withPaused, ← h]

end VCpu

namespace Machine

variable {m m' : Machine} {first : Vpid} {ls : List Vpid} {answer : Vpid → Registers}

/-- Whoever is there to be told an event is still there when the event of a trap is offered. -/
theorem Audience.trapped (h : Audience m e ls) (v : Vpid) (x : HardwareExit) :
  Audience (m.trapped v x) e ls
  := by
  constructor
  · rw [listeners_trapped]
    exact h.members
  · intro l hl
    rw [isRegistered_trapped, h.registered l hl]
  · exact h.ne_origin
  · intro l hl
    rw [slot_trapped, h.slot l hl]

/-- The event of a trap comes to its listeners one after the other. -/
theorem offered_of_trap (h : m.Agrees) (hf : m.Flawless) (hc : m.vcpu? v = some c)
    (he : x.event? v c = some e) (ha : Audience m e (first :: ls)) :
  ∃ n, handleExit v x m = .ok (some (.run first)) n ∧ Offered (m.trapped v x) e 0 first n
  := by
  have hfirst : first ∈ first :: ls := List.mem_cons_self
  have hmembers := ha.members
  rw [HardwareExit.origin_of_event? he] at hmembers
  obtain ⟨j, hj⟩ := (yields_handleExit_told h hf hc he hmembers (ha.registered _ hfirst)
    (ha.slot _ hfirst)).eq_ok
  exact ⟨_, hj, ((ha.trapped v x).offered (hf.trapped v x)).withJournal j⟩

/-- A trap that every listener declines leaves the processor as giving up the event does. -/
theorem declined_of_trap (h : m.Agrees) (hf : m.Flawless) (hc : m.vcpu? v = some c)
    (he : x.event? v c = some e) (ha : Audience m e (first :: ls))
    (hd : ∀ l ∈ first :: ls, EndOfExit.handled (answer l).r11 = false) :
  let m₁ := after (handleExit v x) m
  handleExit v x m = .ok (some (.run first)) m₁ ∧
    (∀ pre l post, first :: ls = pre ++ l :: post → (answeredBy answer pre m₁).slot l = [e]) ∧
    (answeredBy answer (first :: ls) m₁).vcpu? v =
      some (((x.trapped c).givenUp e.reason).withPaused false)
  := by
  intro m₁
  have ha' := ha.trapped v x
  have ho' := ha'.isRegistered_origin
  obtain ⟨n, hx, hn⟩ := offered_of_trap h hf hc he ha
  obtain rfl : m₁ = n := by
    change after (handleExit v x) m = n
    rw [after, hx]
  have hchain := offered_answeredBy hn ha' ho' hd
  obtain ⟨pre, l, hp⟩ : ∃ pre l, first :: ls = pre ++ [l] :=
    ⟨_, _, (List.dropLast_concat_getLast (List.cons_ne_nil first ls)).symm⟩
  have hend := ((hchain pre l [] hp).answeredBy_last ha' hp ho' hd).2
  refine ⟨hx, ?_, ?_⟩
  · intro pre l post hp
    rw [(hchain pre l post hp).slot, if_pos rfl]
  · have horigin := hend.origin
    rw [HardwareExit.origin_of_event? he, vcpu?_trapped_self hc] at horigin
    exact horigin

/-- A processor that runs and traps is left in the same state whether nobody listens for the
trap or the listeners decline it one after the other, unless the trap is a single step.  After a
single step it is left in the same state but for the instruction pointer, which is behind the
instruction if nobody listens, and has not been moved if the listeners decline. -/
theorem default_handling (hrun : c.paused = false) (he : x.event? v c = some e)
    (h : m.Agrees) (hf : m.Flawless) (hc : m.vcpu? v = some c)
    (hnone : (m.listeners v e.reason).members = [])
    (h' : m'.Agrees) (hf' : m'.Flawless) (hc' : m'.vcpu? v = some c)
    (ha : Audience m' e (first :: ls))
    (hd : ∀ l ∈ first :: ls, EndOfExit.handled (answer l).r11 = false) :
  let m₁ := after (handleExit v x) m'
  let last := answeredBy answer (first :: ls) m₁
  ∃ n c₁ c₂, handleExit v x m = .ok (some (.run v)) n ∧ n.vcpu? v = some c₁ ∧
    handleExit v x m' = .ok (some (.run first)) m₁ ∧
    (∀ pre l post, first :: ls = pre ++ l :: post → (answeredBy answer pre m₁).slot l = [e]) ∧
    last.vcpu? v = some c₂ ∧
    (e.reason ≠ .monitorTrap → c₁ = c₂) ∧
    (e.reason = .monitorTrap → c₁ = c₂.advanced ∧
      c₂.vmcs.read Field.rip = c.vmcs.read Field.rip)
  := by
  intro m₁ last
  obtain ⟨control, hcov, -⟩ := exists_offer_of_event? h hf hc he
  obtain ⟨n, hx, -, hvcpu⟩ := exists_handleExit_unheard h hf hc he hcov (by
    rw [hnone]
    intro l hl
    exact absurd hl (Option.some_ne_none l).symm)
  obtain ⟨hx', hslot, hlast⟩ := declined_of_trap h' hf' hc' he ha hd
  have hpaused : ((x.trapped c).givenUp e.reason).paused = false := by
    rw [VCpu.paused_givenUp, x.paused_trapped, hrun]
  rw [VCpu.withPaused_eq_self hpaused] at hlast
  have hself := hvcpu v
  rw [if_pos rfl] at hself
  refine ⟨n, _, _, hx, hself, hx', hslot, hlast, ?_, ?_⟩
  · intro hne
    exact VCpu.unheard_eq_givenUp hcov hne _
  · intro hstep
    rw [hstep] at hcov ⊢
    obtain rfl : Control.monitorTrapFlag = control :=
      Option.some.inj (Control.ofReason?_eq_some_iff.mpr hcov)
    refine ⟨VCpu.unheard_monitorTrapFlag _, ?_⟩
    rw [VCpu.read_givenUp_rip hcov, x.read_trapped_rip]
    rfl

/-- A processor moves to CR3, on a machine on which nobody listens and on another one on which a
listener declines. -/
theorem default_handling_of_move :
  let c : VCpu := { vmcs := Vmcs.initial }
  let set : ListenerSet := { members := [2], cursor := some 0 }
  let m : Machine := ({} : Machine).hosting 1 ⟨c, {}⟩
  let m' : Machine := (({} : Machine).hosting 1 ⟨c, { registry := { cr3Load := set } }⟩).hosting 2
    ⟨{}, {}⟩
  let x : HardwareExit := { reason := .crAccess, qualification := 3 }
  let declining : Vpid → Registers := fun _ => {}
  ∃ n d, handleExit 1 x m = .ok (some (.run 1)) n ∧ n.vcpu? 1 = some d ∧
    (answeredBy declining [2] (after (handleExit 1 x) m')).vcpu? 1 = some d
  := by
  intro c set m m' x declining
  have hempty : ({} : Machine).Flawless := guarantees_of_residents rfl
  have hf : m.Flawless := hempty.hosting 1 rfl
  have hf' : m'.Flawless := (hempty.hosting 1 rfl).hosting 2 rfl
  have hc : m.vcpu? 1 = some c := vcpu?_hosting_self _ _ _
  have hc' : m'.vcpu? 1 = some c :=
    (vcpu?_hosting_of_ne _ _ (by decide)).trans (vcpu?_hosting_self _ _ _)
  have he : x.event? 1 c = some ⟨1, .cr3Load, 0, 0⟩ := by
    decide +kernel
  have ha : Audience m' ⟨1, .cr3Load, 0, 0⟩ [2] := by
    constructor
    · decide
    · rw [List.forall_mem_singleton]
      rfl
    · rw [List.forall_mem_singleton]
      decide
    · rw [List.forall_mem_singleton]
      rfl
  have hd : ∀ l ∈ [2], EndOfExit.handled (declining l).r11 = false := by
    rw [List.forall_mem_singleton]
    decide
  have hm : m.Agrees := agrees_of_loaded rfl
  have hm' : m'.Agrees := agrees_of_loaded rfl
  have hnone : (m.listeners 1 .cr3Load).members = [] := by
    decide
  obtain ⟨n, c₁, c₂, hx, hc₁, -, -, hc₂, heq, -⟩ := default_handling rfl he hm hf hc hnone hm'
    hf' hc' ha hd
  obtain rfl := heq (by decide)
  exact ⟨n, c₁, hx, hc₁, hc₂⟩

/-- A processor makes a single step, on a machine on which nobody listens and on another one on
which a listener declines.  On the first machine it goes on behind the instruction, and on the
second one it repeats the instruction. -/
theorem single_step_differs :
  let c : VCpu := { vmcs := Vmcs.initial }
  let set : ListenerSet := { members := [2], cursor := some 0 }
  let m : Machine := ({} : Machine).hosting 1 ⟨c, {}⟩
  let m' : Machine := (({} : Machine).hosting 1
    ⟨c, { registry := { monitorTrap := set } }⟩).hosting 2 ⟨{}, {}⟩
  let x : HardwareExit := { reason := .monitorTrapFlag }
  let declining : Vpid → Registers := fun _ => {}
  let unheard := after (handleExit 1 x) m
  let declined := answeredBy declining [2] (after (handleExit 1 x) m')
  (m.Agrees ∧ m.Flawless ∧ m.vcpu? 1 = some c ∧ (m.listeners 1 .monitorTrap).members = []) ∧
    (m'.Agrees ∧ m'.Flawless ∧ m'.vcpu? 1 = some c ∧
      Audience m' (c.instructionEvent 1 .monitorTrap) [2]) ∧
    c.paused = false ∧
    (unheard.vcpu? 1).map (·.vmcs.read Field.rip) = some 0x1003 ∧
    (declined.vcpu? 1).map (·.vmcs.read Field.rip) = some 0x1000
  := by
  intro c set m m' x declining unheard declined
  have hempty : ({} : Machine).Flawless := guarantees_of_residents rfl
  have hc' : m'.vcpu? 1 = some c :=
    (vcpu?_hosting_of_ne _ _ (by decide)).trans (vcpu?_hosting_self _ _ _)
  refine ⟨⟨agrees_of_loaded rfl, hempty.hosting 1 rfl, vcpu?_hosting_self _ _ _, by decide⟩,
    ⟨agrees_of_loaded rfl, (hempty.hosting 1 rfl).hosting 2 rfl, hc', ?_⟩, rfl, by decide +kernel,
    by decide +kernel⟩
  constructor
  · decide
  · rw [List.forall_mem_singleton]
    rfl
  · rw [List.forall_mem_singleton]
    decide
  · rw [List.forall_mem_singleton]
    rfl

end Machine

end ExitRelay
