import ExitRelay.Proofs.Primitive
import Mathlib.Logic.Relation
import Mathlib.Data.Set.Basic
import Mathlib.Tactic.Use

/-!
# Effects

Whatever a program does to a machine is a sequence of effects: changes of one processor, of
one broker, of the control structure that is loaded, or of the journal.  `Path p m n` says
that the effects in the set `p` lead from the machine `m` to the machine `n`; what each of
these effects keeps is kept along the whole path.  `Walks p x m` says that the program `x`
takes the machine `m` along such a path, whichever way it ends.
-/

namespace ExitRelay

namespace Registers

/-- The registers in which hypercalls return their results. -/
def results : List Register := [.rax, .r10, .r11, .r12, .r13, .rdi]

/-- The function sets result registers only. -/
def SetsResults (f : Registers → Registers) : Prop :=
  ∀ regs r, r ∉ results → (f regs).get r = regs.get r

variable {f : Registers → Registers}

theorem setsResults_id :
  SetsResults id
  := fun _ _ _ => rfl

/-- Results come with a status. -/
theorem SetsResults.rax (hf : SetsResults f) (w : UInt64) :
  SetsResults fun regs => { f regs with rax := w }
  := by
  intro regs r hr
  rw [← hf regs r hr]
  cases r with
  | rax => exact absurd (by decide) hr
  | _ => rfl

theorem setsResults_r10 (w : UInt64) :
  SetsResults fun regs => { regs with r10 := w }
  := by
  intro regs r hr
  cases r with
  | r10 => exact absurd (by decide) hr
  | _ => rfl

theorem setsResults_rdi (w : UInt64) :
  SetsResults fun regs => { regs with rdi := w }
  := by
  intro regs r hr
  cases r with
  | rdi => exact absurd (by decide) hr
  | _ => rfl

theorem setsResults_eventRegisters (e : ExitEvent) :
  SetsResults (Machine.eventRegisters e)
  := by
  intro regs r hr
  cases r with
  | r10 | r11 | r12 | r13 => exact absurd (by decide) hr
  | _ => rfl

theorem setsResults_timeoutRegisters :
  SetsResults Machine.timeoutRegisters
  := by
  intro regs r hr
  cases r with
  | r11 => exact absurd (by decide) hr
  | _ => rfl

end Registers

namespace VCpu

/-- A change of the state of a processor. -/
inductive Effect where
  /-- An attempt at an operation, which uses up a step of its fault plan. -/
  | attempt (k : Method)
  | control (c : Control) (on : Bool)
  | cr3 (w : UInt64)
  | advance
  | results (f : Registers → Registers)
  | pause
  | resume

namespace Effect

/-- The processor after an effect. -/
def apply : Effect → VCpu → VCpu
  | .attempt k => attempted k
  | .control c on => switched c on
  | .cr3 w => written Field.cr3 w
  | .advance => advanced
  | .results f => assigned f
  | .pause => withPaused true
  | .resume => withPaused false

/-- The effect can occur. -/
def Possible : Effect → Prop
  | .results f => Registers.SetsResults f
  | _ => True

/-- The effect is an attempt or switches a control; it neither moves the processor nor stops
it nor lets it go on. -/
def IsRoutine : Effect → Prop
  | .attempt _ | .control .. => True
  | _ => False

end Effect

end VCpu

namespace Broker

/-- A change of a broker. -/
inductive Effect where
  | first (reason : ExitReason)
  | next (reason : ExitReason)
  | subscribe (c : Control) (listener : Vpid)
  | unsubscribe (c : Control) (listener : Vpid)
  | level (cpl : UInt8)
  | arm (deadline : UInt64)
  | disarm
  | queue (e : ExitEvent)
  | pop

namespace Effect

/-- The broker after an effect. -/
def apply : Effect → Broker → Broker
  | .first reason, b => { b with registry := (b.registry.first reason).2 }
  | .next reason, b => { b with registry := (b.registry.next reason).2 }
  | .subscribe c l, b => { b with registry := (b.registry.subscribe c.exit l).2 }
  | .unsubscribe c l, b => { b with registry := (b.registry.unsubscribe c.exit l).2 }
  | .level cpl, b => { b with cpl }
  | .arm d, b => { b with deadline := some d }
  | .disarm, b => b.clearDeadline
  | .queue e, b => { b with pending := b.pending.push e, deadline := none }
  | .pop, b => { b with pending := b.pending.pop.2 }

/-- The effect can occur: events are queued and deadlines set only while nothing is pending. -/
def Possible : Effect → Broker → Prop
  | .arm _, b => b.pending = {}
  | .queue _, b => b.pending = {}
  | _, _ => True

/-- The effect moves no event and takes no listener out. -/
def IsRoutine : Effect → Prop
  | .queue _ | .pop | .unsubscribe _ _ => False
  | _ => True

end Effect

end Broker

/-- A change of a machine. -/
inductive Effect where
  /-- The journal is written, but no misdirected attempt is recorded. -/
  | record (j : Journal)
  | misdirect (v : Vpid)
  | vcpu (v : Vpid) (k : VCpu.Effect)
  | broker (v : Vpid) (k : Broker.Effect)
  | load (v : Vpid)

namespace Effect

/-- The machine after an effect. -/
def apply : Effect → Machine → Machine
  | .record j, m => m.withJournal j
  | .misdirect v, m => m.withJournal (m.journal.misdirect v)
  | .vcpu v k, m => m.mapVCpu v k.apply
  | .broker v k, m => m.mapBroker v k.apply
  | .load v, m => m.switchTo v

/-- The effect can occur on a machine. -/
def Possible : Effect → Machine → Prop
  | .record j, m => j.misdirected = m.journal.misdirected
  | .misdirect v, m => m.current ≠ some v
  | .vcpu _ k, _ => k.Possible
  | .broker v k, m => ∃ b, m.broker? v = some b ∧ k.Possible b
  | .load v, m => m.isRegistered v = true

/-- The effects that any program may have. -/
def routine : Set Effect
  | .record _ => True
  | .misdirect _ => False
  | .vcpu _ k => k.IsRoutine
  | .broker _ k => k.IsRoutine
  | .load _ => True

/-- The effects that neither stop a processor nor let it go on, and neither move an event nor
take a listener out. -/
def plain : Set Effect
  | .vcpu _ .pause => False
  | .vcpu _ .resume => False
  | .broker _ k => k.IsRoutine
  | _ => True

/-- The effects other than misdirected attempts. -/
def directed : Set Effect
  | .misdirect _ => False
  | _ => True

/-- The effects on the scheduler. -/
def scheduling : Set Effect
  | .vcpu _ .pause => True
  | .vcpu _ .resume => True
  | _ => False

/-- The effects of letting the origin of an event go on, which may be moved before. -/
def freeing (origin : Vpid) : Set Effect
  | .vcpu v .resume => v = origin
  | .vcpu v .advance => v = origin
  | _ => False

/-- The effects of passing events of an origin on: they are queued, or the origin moves and
goes on. -/
def passing (origin : Vpid) : Set Effect
  | .vcpu v .resume => v = origin
  | .vcpu v .advance => v = origin
  | .broker _ (.queue e) => e.origin = origin
  | _ => False

/-- The effects of delivering events of an origin: they are queued, and the origin stops,
moves and goes on. -/
def delivery (origin : Vpid) : Set Effect
  | .vcpu v .pause => v = origin
  | .vcpu v .resume => v = origin
  | .vcpu v .advance => v = origin
  | .broker _ (.queue e) => e.origin = origin
  | _ => False

theorem routine_subset_plain :
  routine ⊆ plain
  := by
  intro k hk
  cases k with
  | vcpu v k =>
      cases k with
      | pause => exact hk
      | resume => exact hk
      | _ => trivial
  | broker v k => exact hk
  | _ => trivial

theorem routine_subset_directed :
  routine ⊆ directed
  := by
  intro k hk
  cases k with
  | misdirect v => exact hk
  | _ => trivial

theorem freeing_subset_passing (origin : Vpid) :
  freeing origin ⊆ passing origin
  := by
  intro k hk
  cases k with
  | vcpu v k =>
      cases k with
      | resume => exact hk
      | advance => exact hk
      | _ => exact False.elim hk
  | _ => exact False.elim hk

theorem passing_subset_delivery (origin : Vpid) :
  passing origin ⊆ delivery origin
  := by
  intro k hk
  cases k with
  | vcpu v k =>
      cases k with
      | resume => exact hk
      | advance => exact hk
      | _ => exact False.elim hk
  | broker v k =>
      cases k with
      | queue e => exact hk
      | _ => exact False.elim hk
  | _ => exact False.elim hk

theorem freeing_subset_delivery (origin : Vpid) :
  freeing origin ⊆ delivery origin
  := (freeing_subset_passing origin).trans (passing_subset_delivery origin)

theorem delivery_subset_directed (origin : Vpid) :
  delivery origin ⊆ directed
  := by
  intro k hk
  cases k with
  | misdirect v => exact hk
  | _ => trivial

end Effect

namespace Machine

variable {m n : Machine} {v w : Vpid} {k : Effect} {p : Set Effect}

/-! ### What every effect leaves alone -/

@[simp]
theorem isRegistered_apply :
  (k.apply m).isRegistered v = m.isRegistered v
  := by
  cases k with
  | vcpu w k => exact isRegistered_mapVCpu _
  | broker w k => exact isRegistered_mapBroker _
  | _ => rfl

/-- An effect uses up steps of the fault plans of a processor and changes nothing else about
them. -/
theorem faults_apply {c : VCpu} (hc : (k.apply m).vcpu? v = some c) :
  ∃ c', m.vcpu? v = some c' ∧
    (c.faults = c'.faults ∨ ∃ k, c.faults = c'.faults.set k (c'.faults.get k).next)
  := by
  cases k with
  | record j => exact ⟨c, hc, .inl rfl⟩
  | misdirect w => exact ⟨c, hc, .inl rfl⟩
  | load w => exact ⟨c, hc, .inl rfl⟩
  | broker w k =>
      change (m.mapBroker w k.apply).vcpu? v = some c at hc
      rw [vcpu?_mapBroker] at hc
      exact ⟨c, hc, .inl rfl⟩
  | vcpu w k =>
      change (m.mapVCpu w k.apply).vcpu? v = some c at hc
      rw [vcpu?_mapVCpu] at hc
      split at hc
      · obtain ⟨c', hc', rfl⟩ := Option.map_eq_some_iff.mp hc
        use c', hc'
        cases k with
        | attempt k =>
            right
            exact ⟨k, rfl⟩
        | _ =>
            left
            rfl
      · exact ⟨c, hc, .inl rfl⟩

/-- An effect leaves the loaded processor and the one that the hardware holds in agreement. -/
theorem Agrees.apply (h : m.Agrees) (hk : k.Possible m) :
  (k.apply m).Agrees
  := by
  intro v hv
  rw [isRegistered_apply]
  cases k with
  | load w =>
      obtain rfl := Option.some.inj hv
      exact ⟨hk, rfl⟩
  | _ => exact h v hv

/-- Only misdirected attempts are recorded as such. -/
theorem misdirected_apply (hk : k.Possible m) (h : ∀ v, k ≠ .misdirect v) :
  (k.apply m).journal.misdirected = m.journal.misdirected
  := by
  cases k with
  | record j => exact hk
  | misdirect v => exact absurd rfl (h v)
  | _ => rfl

/-! ### Paths -/

/-- An effect in the set leads from one machine to the other. -/
def Step (p : Set Effect) (m n : Machine) : Prop :=
  ∃ k ∈ p, k.Possible m ∧ k.apply m = n

/-- Effects in the set lead from one machine to the other. -/
def Path (p : Set Effect) : Machine → Machine → Prop :=
  Relation.ReflTransGen (Step p)

namespace Path

theorem refl (p : Set Effect) (m : Machine) :
  Path p m m
  := Relation.ReflTransGen.refl

theorem single (hp : k ∈ p) (hk : k.Possible m) :
  Path p m (k.apply m)
  := Relation.ReflTransGen.single ⟨k, hp, hk, rfl⟩

theorem trans {l : Machine} (h : Path p m n) (h' : Path p n l) :
  Path p m l
  := Relation.ReflTransGen.trans h h'

/-- More effects lead at least as far. -/
theorem mono {q : Set Effect} (h : Path p m n) (hpq : p ⊆ q) :
  Path q m n
  := by
  induction h with
  | refl => exact refl q m
  | tail _ hs ih =>
      obtain ⟨k, hp, hk, rfl⟩ := hs
      apply ih.trans (single (hpq hp) hk)

/-- What every effect in the set keeps is kept along the path. -/
theorem keeps {I : Machine → Prop} (h : Path p m n)
    (hI : ∀ k ∈ p, ∀ l, k.Possible l → I l → I (k.apply l)) (hm : I m) :
  I n
  := by
  induction h with
  | refl => exact hm
  | tail _ hs ih =>
      obtain ⟨k, hp, hk, rfl⟩ := hs
      apply hI k hp _ hk ih

/-- What no effect on a processor changes of it is the same at the end of the path. -/
theorem map_vcpu? {β : Type} {g : VCpu → β} (h : Path p m n)
    (hg : ∀ k, .vcpu v k ∈ p → k.Possible → ∀ c, g (k.apply c) = g c) :
  (n.vcpu? v).map g = (m.vcpu? v).map g
  := by
  apply h.keeps (I := fun l => (l.vcpu? v).map g = (m.vcpu? v).map g) _ rfl
  intro k hk l hp hl
  rw [← hl]
  cases k with
  | broker w k => rw [Effect.apply, vcpu?_mapBroker]
  | vcpu w k =>
      rw [Effect.apply, vcpu?_mapVCpu]
      split
      · subst w
        rw [Option.map_map]
        apply congrArg (Option.map · (l.vcpu? v))
        funext c
        apply hg k hk hp
      · rfl
  | _ => rfl

theorem isRegistered (h : Path p m n) :
  n.isRegistered v = m.isRegistered v
  := by
  apply h.keeps (I := fun l => l.isRegistered v = m.isRegistered v) _ rfl
  intro k _ l _ hl
  rw [isRegistered_apply, hl]

theorem agrees (h : Path p m n) (hm : m.Agrees) :
  n.Agrees
  := h.keeps (fun _ _ _ hk hl => hl.apply hk) hm

/-- A path without misdirected attempts records none. -/
theorem misdirected (h : Path Effect.directed m n) :
  n.journal.misdirected = m.journal.misdirected
  := by
  apply h.keeps (I := fun l => l.journal.misdirected = m.journal.misdirected) _ rfl
  intro k hkp l hk hl
  rw [misdirected_apply hk, hl]
  rintro v rfl
  exact hkp

end Path

/-! ### Programs that walk along paths -/

/-- The program takes the machine along a path of effects in the set. -/
def Walks {ε α : Type} (p : Set Effect) (x : EStateM ε Machine α) (m : Machine) : Prop :=
  Ends x m (fun _ => Path p m) (fun _ => Path p m)

namespace Walks

variable {ε ε' α β : Type} {x : EStateM ε Machine α}

theorem pure (a : α) :
  Walks p (Pure.pure a : EStateM ε Machine α) m
  := Path.refl p m

theorem throw (e : ε) :
  Walks p (MonadExcept.throw e : EStateM ε Machine α) m
  := Path.refl p m

/-- What holds wherever the path may lead holds of what the program ends in. -/
theorem ends {I : Machine → Prop} (hx : Walks p x m) (hI : ∀ n, Path p m n → I n) :
  Ends x m (fun _ => I) (fun _ => I)
  := Ends.mono hx (fun _ n => hI n) (fun _ n => hI n)

theorem mono {q : Set Effect} (hx : Walks p x m) (hpq : p ⊆ q) :
  Walks q x m
  := hx.ends fun _ h => h.mono hpq

/-- A program that goes on from the end of a path makes the path longer. -/
theorem behind (hx : Walks p x n) (h : Path p m n) :
  Ends x n (fun _ => Path p m) (fun _ => Path p m)
  := hx.ends fun _ hl => h.trans hl

theorem bind {f : α → EStateM ε Machine β} (hx : Walks p x m)
    (hf : ∀ a n, Path p m n → Walks p (f a) n) :
  Walks p (x >>= f) m
  := by
  apply Ends.bind hx
  intro a n hn
  apply (hf a n hn).behind hn

theorem adaptExcept {f : ε → ε'} (hx : Walks p x m) :
  Walks p (x.adaptExcept f) m
  := Ends.adaptExcept hx

theorem map {f : α → β} (hx : Walks p x m) :
  Walks p (f <$> x) m
  := Ends.map hx

/-- The state that a program leaves is at the end of a path. -/
theorem after (hx : Walks p x m) :
  Path p m (ExitRelay.after x m)
  := Ends.after hx

end Walks

end Machine

end ExitRelay
