import ExitRelay.Proofs.Effect
import ExitRelay.Handler

/-!
# Footprints of programs on one processor

The paths along which the programs on a single processor walk, under any fault plans.  Such
a program switches no control structure, which `Stays` and `Remains` say.  A program that
reads or writes a field does so without being misdirected if it is `Aimed`: the control
structure of its processor is the current one.
-/

namespace ExitRelay.Machine

/-- The effects lead from one machine to the other, and the same control structure stays
current. -/
def Stays (p : Set Effect) (m n : Machine) : Prop :=
  Path p m n ∧ n.current = m.current

/-- The program takes the machine along a path on which the same control structure stays
current. -/
def Remains {ε α : Type} (p : Set Effect) (x : EStateM ε Machine α) (m : Machine) : Prop :=
  Ends x m (fun _ => Stays p m) (fun _ => Stays p m)

/-- The control structure of the processor is current, or attempts at it may be misdirected. -/
def Aimed (p : Set Effect) (v : Vpid) (m : Machine) : Prop :=
  m.current = some v ∨ .misdirect v ∈ p

variable {m n : Machine} {v w : Vpid} {p : Set Effect} {ε ε' α β : Type}

/-! ### Staying at a control structure -/

namespace Stays

theorem refl (p : Set Effect) (m : Machine) :
  Stays p m m
  := ⟨Path.refl p m, rfl⟩

theorem trans {l : Machine} (h : Stays p m n) (h' : Stays p n l) :
  Stays p m l
  := ⟨h.1.trans h'.1, h'.2.trans h.2⟩

theorem vcpu {k : VCpu.Effect} (hp : .vcpu v k ∈ p) (hk : k.Possible) :
  Stays p m (m.mapVCpu v k.apply)
  := ⟨Path.single (k := .vcpu v k) hp hk, rfl⟩

theorem broker {k : Broker.Effect} {b : Broker} (hp : .broker v k ∈ p)
    (hb : m.broker? v = some b) (hk : k.Possible b) :
  Stays p m (m.mapBroker v k.apply)
  := ⟨Path.single (k := .broker v k) hp ⟨b, hb, hk⟩, rfl⟩

theorem record {j : Journal} (hp : .record j ∈ p)
    (hj : j.misdirected = m.journal.misdirected) :
  Stays p m (m.withJournal j)
  := ⟨Path.single (k := .record j) hp hj, rfl⟩

theorem misdirect (hp : .misdirect v ∈ p) (h : m.current ≠ some v) :
  Stays p m (m.withJournal (m.journal.misdirect v))
  := ⟨Path.single (k := .misdirect v) hp h, rfl⟩

theorem aimed (h : Stays p m n) (hv : Aimed p v m) :
  Aimed p v n
  := by
  rcases hv with hv | hv
  · left
    rw [h.2, hv]
  · right
    exact hv

end Stays

namespace Remains

variable {x : EStateM ε Machine α}

theorem walks (h : Remains p x m) :
  Walks p x m
  := Ends.mono h (fun _ _ h => h.1) (fun _ _ h => h.1)

theorem pure (a : α) :
  Remains p (Pure.pure a : EStateM ε Machine α) m
  := Stays.refl p m

theorem throw (e : ε) :
  Remains p (MonadExcept.throw e : EStateM ε Machine α) m
  := Stays.refl p m

theorem behind (hx : Remains p x n) (h : Stays p m n) :
  Ends x n (fun _ => Stays p m) (fun _ => Stays p m)
  := by
  apply Ends.mono hx
  · intro a l hl
    apply h.trans hl
  · intro e l hl
    apply h.trans hl

theorem bind {f : α → EStateM ε Machine β} (hx : Remains p x m)
    (hf : ∀ a n, Stays p m n → Remains p (f a) n) :
  Remains p (x >>= f) m
  := by
  apply Ends.bind hx
  intro a n hn
  apply (hf a n hn).behind hn

/-- A program that stays may be followed by one that does not. -/
theorem bind_walks {f : α → EStateM ε Machine β} (hx : Remains p x m)
    (hf : ∀ a n, Stays p m n → Walks p (f a) n) :
  Walks p (x >>= f) m
  := by
  have hx' : Ends x m (fun _ => Stays p m) (fun _ => Path p m) :=
    Ends.mono hx (fun _ _ h => h) (fun _ _ h => h.1)
  apply hx'.bind
  intro a n hn
  apply (hf a n hn).behind hn.1

theorem adaptExcept {f : ε → ε'} (hx : Remains p x m) :
  Remains p (x.adaptExcept f) m
  := Ends.adaptExcept hx

theorem map {f : α → β} (hx : Remains p x m) :
  Remains p (f <$> x) m
  := Ends.map hx

end Remains

/-! ### Primitive programs -/

theorem remains_onVCpu_bind {x : VcpuM α} {f : α → VcpuM β} (hx : Remains p (onVCpu v x) m)
    (hf : ∀ a n, Stays p m n → Remains p (onVCpu v (f a)) n) :
  Remains p (onVCpu v (x >>= f)) m
  := by
  rw [onVCpu_bind]
  apply hx.bind hf

section

variable (hp : Effect.routine ⊆ p)

include hp

theorem remains_note (k : Note) :
  Remains p (note k) m
  := Stays.record (hp trivial) rfl

theorem remains_refuse (why : Refusal) :
  Remains p (refuse why : SysM α) m
  := Stays.record (hp trivial) rfl

/-- A program on a processor that is not registered is refused. -/
theorem remains_onVCpu {x : VcpuM α}
    (h : ∀ c, m.vcpu? v = some c → Remains p (onVCpu v x) m) :
  Remains p (onVCpu v x) m
  := by
  cases hc : m.vcpu? v with
  | none =>
      apply Ends.error (onVCpu_of_none hc x)
      exact Stays.record (hp trivial) rfl
  | some c => exact h c hc

theorem ends_onVCpu_pure (a : α) :
  Ends (onVCpu v (pure a)) m (fun b n => b = a ∧ n = m) (fun _ => Stays p m)
  := by
  cases hc : m.vcpu? v with
  | none =>
      apply Ends.error (onVCpu_of_none hc _)
      exact Stays.record (hp trivial) rfl
  | some c => exact Ends.ok (onVCpu_pure hc a) ⟨rfl, rfl⟩

theorem remains_onVCpu_pure (a : α) :
  Remains p (onVCpu v (pure a)) m
  := by
  apply (ends_onVCpu_pure hp a).mono
  · rintro _ _ ⟨-, rfl⟩
    apply Stays.refl
  · intro e n hn
    exact hn

theorem remains_onVCpu_note (k : Note) :
  Remains p (onVCpu v (VcpuM.note k)) m
  := by
  apply remains_onVCpu hp
  intro c hc
  apply Ends.ok (onVCpu_note hc k)
  exact Stays.record (hp trivial) rfl

theorem remains_onVCpu_act (a : Action) :
  Remains p (onVCpu v (VcpuM.act a)) m
  := by
  apply remains_onVCpu hp
  intro c hc
  apply Ends.ok (onVCpu_act hc a)
  exact Stays.record (hp trivial) rfl

theorem remains_onVCpu_here {f : Standpoint → VcpuM α}
    (h : Remains p (onVCpu v (f ⟨v, m.current = some v⟩)) m) :
  Remains p (onVCpu v (read >>= f)) m
  := by
  apply remains_onVCpu hp
  intro c hc
  rw [onVCpu_bind]
  apply Ends.bind_ok (onVCpu_here hc)
  apply h

theorem remains_onVCpu_modify {f : VCpu → VCpu} (k : VCpu.Effect) (hk : .vcpu v k ∈ p)
    (hk' : k.Possible) (hf : ∀ c, m.vcpu? v = some c → f c = k.apply c) :
  Remains p (onVCpu v (VcpuM.modifyVCpu f)) m
  := by
  apply remains_onVCpu hp
  intro c hc
  apply Ends.ok (onVCpu_modifyVCpu hc f)
  rw [mapVCpu_congr (g := k.apply) hc (hf c hc)]
  apply Stays.vcpu hk hk'

/-- An attempt leaves everything but the fault plan as it is, whether it succeeds or not. -/
theorem ends_attempt (k : Method) :
  Ends (onVCpu v (VcpuM.attempt k)) m
    (fun _ n => Stays p m n ∧ n = m.mapVCpu v (VCpu.attempted k)) (fun _ => Stays p m)
  := by
  have hs : Stays p m (m.mapVCpu v (VCpu.attempted k)) :=
    Stays.vcpu (k := .attempt k) (hp trivial) trivial
  cases hc : m.vcpu? v with
  | none =>
      apply Ends.error (onVCpu_of_none hc _)
      exact Stays.record (hp trivial) rfl
  | some c =>
      cases he : (c.faults.get k).outcome 0 with
      | none =>
          apply Ends.ok (onVCpu_attempt hc he)
          exact ⟨hs, rfl⟩
      | some e => exact Ends.error (onVCpu_attempt_of_some hc he) hs

theorem remains_attempt (k : Method) :
  Remains p (onVCpu v (VcpuM.attempt k)) m
  := Ends.mono (ends_attempt hp k) (fun _ _ h => h.1) (fun _ _ h => h)

/-- A program that needs its control structure to be current goes on if it is, and is
misdirected otherwise. -/
theorem ends_requireCurrent (h : Aimed p v m) :
  Ends (onVCpu v VcpuM.requireCurrent) m (fun _ n => n = m) (fun _ => Stays p m)
  := by
  cases hc : m.vcpu? v with
  | none =>
      apply Ends.error (onVCpu_of_none hc _)
      exact Stays.record (hp trivial) rfl
  | some c =>
      by_cases hv : m.current = some v
      · apply Ends.ok (onVCpu_requireCurrent hc hv) rfl
      · apply Ends.error (onVCpu_requireCurrent_of_ne hc hv)
        apply Stays.misdirect (h.resolve_left hv) hv

theorem remains_requireCurrent (h : Aimed p v m) :
  Remains p (onVCpu v VcpuM.requireCurrent) m
  := by
  apply (ends_requireCurrent hp h).mono
  · rintro _ _ rfl
    apply Stays.refl
  · intro e n hn
    exact hn

/-! ### Operations of the hardware -/

/-- A field is read as it stands in the state that the reading leaves. -/
theorem ends_vmread (h : Aimed p v m) (f : Field) :
  Ends (onVCpu v (VcpuM.vmread f)) m
    (fun w n => Stays p m n ∧ ∀ c, n.vcpu? v = some c → c.vmcs.read f = w) (fun _ => Stays p m)
  := by
  rw [VcpuM.vmread, onVCpu_bind]
  apply (ends_requireCurrent hp h).bind
  rintro _ _ rfl
  rw [onVCpu_bind]
  apply (ends_attempt hp .vmread).bind
  rintro _ n ⟨hn, -⟩
  rw [onVCpu_bind]
  cases hc : n.vcpu? v with
  | none =>
      apply Ends.error (bind_of_error (onVCpu_of_none hc _))
      apply hn.trans
      exact Stays.record (hp trivial) rfl
  | some c =>
      apply Ends.bind_ok (onVCpu_vcpu hc)
      apply Ends.ok (onVCpu_pure hc _)
      refine ⟨hn, ?_⟩
      intro c' hc'
      rw [hc] at hc'
      rw [Option.some.inj hc']

theorem remains_vmread (h : Aimed p v m) (f : Field) :
  Remains p (onVCpu v (VcpuM.vmread f)) m
  := Ends.mono (ends_vmread hp h f) (fun _ _ h => h.1) (fun _ _ h => h)

/-- Writing a field is an effect if it changes the processor as the effect does. -/
theorem remains_vmwrite (h : Aimed p v m) {f : Field} {w : UInt64} (k : VCpu.Effect)
    (hk : .vcpu v k ∈ p) (hk' : k.Possible)
    (hw : ∀ c, m.vcpu? v = some c →
      (c.attempted .vmwrite).written f w = k.apply (c.attempted .vmwrite)) :
  Remains p (onVCpu v (VcpuM.vmwrite f w)) m
  := by
  rw [VcpuM.vmwrite, onVCpu_bind]
  apply (ends_requireCurrent hp h).bind
  rintro _ _ rfl
  rw [onVCpu_bind]
  apply (ends_attempt hp .vmwrite).bind
  rintro _ _ ⟨hn, rfl⟩
  apply Remains.behind _ hn
  apply remains_onVCpu_bind
  · apply remains_onVCpu_modify hp k hk hk'
    intro c hc
    rw [vcpu?_mapVCpu_self, Option.map_eq_some_iff] at hc
    obtain ⟨c, hc, rfl⟩ := hc
    apply hw c hc
  · intro _ n _
    apply remains_onVCpu_here hp
    apply remains_onVCpu_act hp

theorem remains_advance (h : Aimed p v m) (hk : .vcpu v .advance ∈ p) :
  Remains p (onVCpu v VcpuM.advance) m
  := by
  apply remains_onVCpu_bind (remains_requireCurrent hp h)
  intro _ _ _
  apply remains_onVCpu_bind (remains_attempt hp .advance)
  intro _ _ _
  apply remains_onVCpu_bind
  · apply remains_onVCpu_modify hp .advance hk trivial (fun _ _ => rfl)
  · intro _ _ _
    apply remains_onVCpu_here hp
    apply remains_onVCpu_act hp

theorem remains_queueInterrupt (h : Aimed p v m) (vector : UInt8) :
  Remains p (onVCpu v (VcpuM.queueInterrupt vector)) m
  := by
  apply remains_onVCpu_bind (remains_requireCurrent hp h)
  intro _ _ _
  apply remains_onVCpu_bind (remains_attempt hp .interrupt)
  intro _ _ _
  apply remains_onVCpu_here hp
  apply remains_onVCpu_act hp

theorem remains_translate (gva : UInt64) :
  Remains p (onVCpu v (VcpuM.translate gva)) m
  := by
  apply remains_onVCpu_bind (remains_attempt hp .translate)
  intro _ _ _
  apply remains_onVCpu_pure hp

theorem remains_pause (hk : .vcpu v .pause ∈ p) :
  Remains p (onVCpu v VcpuM.pause) m
  := by
  apply remains_onVCpu_bind
  · apply remains_onVCpu_modify hp .pause hk trivial (fun _ _ => rfl)
  · intro _ _ _
    apply remains_onVCpu_here hp
    apply remains_onVCpu_act hp

theorem remains_resume (hk : .vcpu v .resume ∈ p) :
  Remains p (onVCpu v VcpuM.resume) m
  := by
  apply remains_onVCpu_bind
  · apply remains_onVCpu_modify hp .resume hk trivial (fun _ _ => rfl)
  · intro _ _ _
    apply remains_onVCpu_here hp
    apply remains_onVCpu_act hp

theorem remains_modifyRegisters {f : Registers → Registers}
    (hk : .vcpu v (.results f) ∈ p) (hf : Registers.SetsResults f) :
  Remains p (onVCpu v (VcpuM.modifyRegisters f)) m
  := remains_onVCpu_modify hp (.results f) hk hf (fun _ _ => rfl)

theorem remains_privilegeLevel (h : Aimed p v m) :
  Remains p (onVCpu v VcpuM.privilegeLevel) m
  := by
  apply remains_onVCpu_bind
  · apply remains_onVCpu_bind (remains_vmread hp h Field.cs)
    intro _ _ _
    apply remains_onVCpu_pure hp
  · intro _ _ _
    apply remains_onVCpu_pure hp

/-! ### Controls -/

/-- Reading the field of a control and writing it back switches the control. -/
theorem remains_enable (h : Aimed p v m) (control : Control) :
  Remains p (onVCpu v control.enable) m
  := by
  rw [Control.enable, onVCpu_bind]
  apply (ends_vmread hp h _).bind
  rintro bits n ⟨hn, hr⟩
  apply Remains.behind _ hn
  apply remains_vmwrite hp (hn.aimed h) (.control control true) (hp trivial) trivial
  intro c hc
  rw [← hr c hc]
  rfl

theorem remains_disable (h : Aimed p v m) (control : Control) :
  Remains p (onVCpu v control.disable) m
  := by
  rw [Control.disable, onVCpu_bind]
  apply (ends_vmread hp h _).bind
  rintro bits n ⟨hn, hr⟩
  apply Remains.behind _ hn
  apply remains_vmwrite hp (hn.aimed h) (.control control false) (hp trivial) trivial
  intro c hc
  rw [← hr c hc]
  rfl

theorem remains_runFallback (h : Aimed p v m) (hk : .vcpu v .advance ∈ p)
    (control : Control) :
  Remains p (onVCpu v control.runFallback) m
  := by
  rw [Control.runFallback]
  split
  · apply remains_advance hp h hk
  · apply remains_onVCpu_pure hp

/-! ### Programs of the delivery and of traps -/

theorem remains_step (h : Aimed p v m) (hk : .vcpu v .advance ∈ p) (advance : Bool) :
  Remains p (onVCpu v (step v advance)) m
  := by
  rw [step]
  split
  · apply remains_advance hp h hk
  · apply remains_onVCpu_note hp

theorem remains_giveUp {e : ExitEvent} (h : Aimed p e.origin m)
    (hk : .vcpu e.origin .advance ∈ p) :
  Remains p (onVCpu e.origin (giveUp e)) m
  := by
  rw [giveUp]
  split
  · apply remains_onVCpu_pure hp
  · rename_i control _
    apply remains_onVCpu_bind (remains_onVCpu_note hp _)
    intro _ n hn
    apply remains_onVCpu_bind (remains_runFallback hp (hn.aimed h) hk control)
    intro _ l hl
    apply remains_disable hp (hl.aimed (hn.aimed h))

theorem remains_exchangeCr3 (h : Aimed p v m) (new : UInt64) (hk : .vcpu v (.cr3 new) ∈ p) :
  Remains p (onVCpu v (exchangeCr3 new)) m
  := by
  apply remains_onVCpu_bind (remains_vmread hp h Field.cr3)
  intro old n hn
  apply remains_onVCpu_bind
  · apply remains_vmwrite hp (hn.aimed h) (.cr3 new) hk trivial (fun _ _ => rfl)
  · intro _ _ _
    apply remains_onVCpu_pure hp

end

/-- The event that tells where the instruction pointer stands has the processor as its
origin. -/
theorem ends_instructionEvent (hp : Effect.routine ⊆ p) (h : Aimed p v m)
    (reason : ExitReason) :
  Ends (onVCpu v (instructionEvent v reason)) m
    (fun e n => Stays p m n ∧ e.origin = v ∧ e.reason = reason) (fun _ => Stays p m)
  := by
  rw [instructionEvent, onVCpu_bind]
  apply Ends.bind (remains_vmread hp h Field.rip)
  intro rip n hn
  rw [onVCpu_bind]
  apply ((remains_translate hp rip).behind hn).bind
  intro address l hl
  apply (ends_onVCpu_pure hp _).mono
  · rintro _ _ ⟨rfl, rfl⟩
    exact ⟨hl, rfl, rfl⟩
  · intro e l' hl'
    apply hl.trans hl'

end ExitRelay.Machine
