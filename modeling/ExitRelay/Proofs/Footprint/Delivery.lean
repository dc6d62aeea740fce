import ExitRelay.Proofs.Footprint.Processor

/-!
# Footprints of the delivery of events

The paths along which programs walk that read the machine, switch control structures, offer
events, and receive and answer them.  A switch trusts the record of what is loaded: unless
this record is right, it may lead to misdirected attempts (`Trusts`).
-/

namespace ExitRelay.Machine

/-- The processor that is recorded as loaded is registered, and its control structure is the
current one, or attempts at it may be misdirected. -/
def Trusts (p : Set Effect) (m : Machine) : Prop :=
  ∀ v, m.loaded = some v → m.isRegistered v = true ∧ Aimed p v m

variable {m n : Machine} {v w : Vpid} {p : Set Effect} {α : Type}

theorem Agrees.aimed (h : m.Agrees) (hv : m.loaded = some v) :
  Aimed p v m
  := .inl (h v hv).2

theorem Agrees.trusts (h : m.Agrees) :
  Trusts p m
  := fun v hv => ⟨(h v hv).1, h.aimed hv⟩

/-- A record of what is loaded stays as right as it is. -/
theorem Trusts.path {q : Set Effect} (h : Trusts p m) (hp : Path q m n) :
  Trusts p n
  := by
  apply hp.keeps _ h
  intro k _ l hk hl v hv
  rw [isRegistered_apply]
  cases k with
  | load w =>
      obtain rfl := Option.some.inj hv
      exact ⟨hk, .inl rfl⟩
  | _ => exact hl v hv

/-- The outcome of a program is what it ends in, be it a result or an error. -/
theorem ends_outcome {x : SysM α} {Q : Except SysError α → Machine → Prop}
    {E : SysError → Machine → Prop}
    (hx : Ends x m (fun a => Q (.ok a)) (fun e => Q (.error e))) :
  Ends (outcome x) m Q E
  := by
  obtain ⟨a, l, hl, ha⟩ | ⟨e, l, hl, he⟩ := hx.cases
  · apply Ends.ok (a := .ok a) (t := l) _ ha
    rw [outcome, hl]
  · apply Ends.ok (a := .error e) (t := l) _ he
    rw [outcome, hl]

/-! ### Programs with a body that is not the broker's -/

/-- A program on one processor keeps what no change of that processor and of the journal
breaks. -/
theorem keeps_onVCpu {α : Type} {I : Machine → Prop} (x : VcpuM α)
    (hv : ∀ m f, I m → I (m.mapVCpu v f)) (hj : ∀ m j, I m → I (m.withJournal j)) :
  Keeps I (onVCpu v x)
  := by
  intro m h
  cases hc : m.vcpu? v with
  | none => exact Ends.error (onVCpu_of_none hc x) (hj _ _ h)
  | some c =>
      cases hx : x ⟨v, m.current = some v⟩ ⟨c, m.journal⟩ with
      | ok a s => exact Ends.ok (onVCpu_of_ok hc hx) (hj _ _ (hv _ _ h))
      | error e s => exact Ends.error (onVCpu_of_error hc hx) (hj _ _ (hv _ _ h))

section

variable {α : Type} {I : Machine → Prop} (hl : ∀ w, Keeps I (Machine.load w))

include hl

theorem keeps_enter (v : Vpid) :
  Keeps I (enter v)
  := by
  intro m h
  rw [enter]
  apply Ends.bind_ok rfl
  split
  · apply Ends.pure h
  · apply hl v m h

theorem keeps_restore (hn : ∀ m, I m → I { m with loaded := none }) (target : Vpid)
    (prev : Option Vpid) :
  Keeps I (restore target prev)
  := by
  intro m h
  cases prev with
  | none => exact Ends.pure h
  | some q =>
      rw [restore]
      split
      · apply Ends.pure h
      · apply Ends.bind_ok contains_eq
        split
        · apply hl q m h
        · exact hn m h

/-- What the body of a `withVmcs` and the switches around it keep is kept by the whole. -/
theorem keeps_withVmcs {x : VcpuM α} (hx : Keeps I (onVCpu v x))
    (hn : ∀ m, I m → I { m with loaded := none }) :
  Keeps I (withVmcs v x)
  := by
  intro m h
  rw [withVmcs]
  apply Ends.bind_ok rfl
  apply (keeps_enter hl v m h).bind
  intro _ n hen
  have ho : Ends (outcome (onVCpu v x)) n (fun _ => I) (fun _ => I) := ends_outcome (hx n hen)
  apply ho.bind
  intro result l hol
  apply (keeps_restore hl hn v m.loaded l hol).bind
  intro _ l' hrl
  cases result with
  | ok a => exact hrl
  | error e => exact hrl

end

/-! ### Reading the machine -/

section

variable (hp : Effect.routine ⊆ p)

include hp

theorem ends_resident (v : Vpid) :
  Ends (resident v) m (fun r n => m.residents[v]? = some r ∧ n = m) (fun _ => Stays p m)
  := by
  cases hr : m.residents[v]? with
  | none =>
      rw [Ends]
      rw [resident_of_none hr]
      exact Stays.record (hp trivial) rfl
  | some r => exact Ends.ok (resident_eq hr) ⟨rfl, rfl⟩

theorem ends_vcpu (v : Vpid) :
  Ends (vcpu v) m (fun c n => m.vcpu? v = some c ∧ n = m) (fun _ => Stays p m)
  := by
  apply (ends_resident hp v).bind
  rintro r _ ⟨hr, rfl⟩
  refine Ends.pure ⟨?_, rfl⟩
  rw [vcpu?, hr]
  rfl

theorem ends_broker (v : Vpid) :
  Ends (broker v) m (fun b n => m.broker? v = some b ∧ n = m) (fun _ => Stays p m)
  := by
  apply (ends_resident hp v).bind
  rintro r _ ⟨hr, rfl⟩
  refine Ends.pure ⟨?_, rfl⟩
  rw [broker?, hr]
  rfl

theorem ends_registers (v : Vpid) :
  Ends (registers v) m (fun regs n => (∃ c, m.vcpu? v = some c ∧ c.regs = regs) ∧ n = m)
    (fun _ => Stays p m)
  := by
  apply (ends_vcpu hp v).bind
  rintro c _ ⟨hc, rfl⟩
  apply Ends.pure ⟨⟨c, hc, rfl⟩, rfl⟩

/-- A program that looks at a broker first goes on from the same state. -/
theorem walks_broker {f : Broker → SysM α}
    (hf : ∀ b, m.broker? v = some b → Walks p (f b) m) :
  Walks p (broker v >>= f) m
  := by
  apply Ends.bind ((ends_broker hp v).mono (fun _ _ h => h) (fun _ _ h => h.1))
  rintro b _ ⟨hb, rfl⟩
  apply hf b hb

/-- A program that looks at registers first goes on from the same state. -/
theorem walks_registers {f : Registers → SysM α} (hf : ∀ regs, Walks p (f regs) m) :
  Walks p (registers v >>= f) m
  := by
  apply Ends.bind ((ends_registers hp v).mono (fun _ _ h => h) (fun _ _ h => h.1))
  rintro regs _ ⟨-, rfl⟩
  apply hf

theorem remains_vcpu (v : Vpid) :
  Remains p (vcpu v) m
  := by
  apply (ends_vcpu hp v).mono
  · rintro _ _ ⟨-, rfl⟩
    apply Stays.refl
  · intro e n hn
    exact hn

theorem remains_registers (v : Vpid) :
  Remains p (registers v) m
  := by
  apply (remains_vcpu hp v).bind
  intro c n _
  apply Remains.pure _

theorem remains_parentOf (v : Vpid) :
  Remains p (parentOf v) m
  := by
  apply (remains_vcpu hp v).bind
  intro c n _
  apply Stays.refl p n

/-- A function is run on the broker of a registered processor. -/
theorem ends_onBroker (v : Vpid) (f : Broker → α × Broker) :
  Ends (onBroker v f) m
    (fun a n => ∃ b, m.broker? v = some b ∧ a = (f b).1 ∧ n = m.mapBroker v fun b => (f b).2)
    (fun _ => Stays p m)
  := by
  cases hb : m.broker? v with
  | none =>
      rw [broker?, Option.map_eq_none_iff] at hb
      apply Ends.error
      · rw [onBroker, bind_of_error]
        rw [resident_of_none hb]
        rfl
      · exact Stays.record (hp trivial) rfl
  | some b => exact Ends.ok (onBroker_eq hb f) ⟨b, rfl, rfl, rfl⟩

/-- Changing a broker is an effect if the broker is changed as the effect does. -/
theorem remains_onBroker {f : Broker → α × Broker} (k : Broker.Effect)
    (hk : .broker v k ∈ p) (hk' : ∀ b, m.broker? v = some b → k.Possible b)
    (hf : ∀ b, (f b).2 = k.apply b) :
  Remains p (onBroker v f) m
  := by
  apply (ends_onBroker hp v f).mono
  · rintro _ _ ⟨b, hb, -, rfl⟩
    rw [show (fun b => (f b).2) = k.apply from funext hf]
    apply Stays.broker hk hb (hk' b hb)
  · intro _ _ hn
    exact hn

theorem remains_modifyBroker {f : Broker → Broker} (k : Broker.Effect)
    (hk : .broker v k ∈ p) (hk' : ∀ b, m.broker? v = some b → k.Possible b)
    (hf : ∀ b, f b = k.apply b) :
  Remains p (modifyBroker v f) m
  := remains_onBroker hp k hk hk' hf

theorem remains_registersOf {f : Registers → Registers} (hk : .vcpu v (.results f) ∈ p)
    (hf : Registers.SetsResults f) :
  Remains p (modifyRegisters v f) m
  := remains_modifyRegisters hp hk hf

/-! ### Switching control structures -/

/-- Unless it fails, loading a processor makes its control structure the current one. -/
theorem ends_load (v : Vpid) :
  Ends (load v) m (fun _ n => Path p m n ∧ n.loaded = some v ∧ n.current = some v)
    (fun _ => Path p m)
  := by
  cases hc : m.vcpu? v with
  | none =>
      apply Ends.error (bind_of_error (onVCpu_of_none hc _))
      exact Path.single (k := .record _) (hp trivial) rfl
  | some c =>
      have ha : Ends (onVCpu v (VcpuM.attempt .load)) m (fun _ => Path p m) (fun _ => Path p m) :=
        (remains_attempt hp .load).walks
      apply ha.bind
      intro _ n hn
      have hv : n.isRegistered v = true := by
        rw [hn.isRegistered, isRegistered_iff_vcpu?]
        exact ⟨c, hc⟩
      refine Ends.ok rfl ⟨?_, rfl, rfl⟩
      apply hn.trans
      apply (Path.single (k := .record (n.journal.act (.load v))) (hp trivial) rfl).trans
      exact Path.single (k := .load v) (hp trivial) hv

theorem walks_load (v : Vpid) :
  Walks p (load v) m
  := Ends.mono (ends_load hp v) (fun _ _ h => h.1) (fun _ _ h => h)

/-- Unless it fails, entering a processor leaves it loaded, and its control structure is the
current one if the record of what is loaded is right. -/
theorem ends_enter (h : m.loaded = some v → Aimed p v m) :
  Ends (enter v) m (fun _ n => Path p m n ∧ n.loaded = some v ∧ Aimed p v n)
    (fun _ => Path p m)
  := by
  rw [enter]
  apply Ends.bind_ok rfl
  split
  · rename_i hv
    apply Ends.pure ⟨Path.refl p m, hv, h hv⟩
  · apply (ends_load hp v).mono
    · rintro _ n ⟨hn, hl, hc⟩
      exact ⟨hn, hl, .inl hc⟩
    · intro _ n hn
      exact hn

theorem walks_enter (h : m.loaded = some v → Aimed p v m) :
  Walks p (enter v) m
  := Ends.mono (ends_enter hp h) (fun _ _ h => h.1) (fun _ _ h => h)

/-- Going back to a registered processor is loading it. -/
theorem walks_restore (target : Vpid) {prev : Option Vpid}
    (h : ∀ q, prev = some q → m.isRegistered q = true) :
  Walks p (restore target prev) m
  := by
  cases prev with
  | none => exact Walks.pure ()
  | some q =>
      rw [restore]
      split
      · apply Walks.pure
      · apply Ends.bind_ok contains_eq
        rw [if_pos (h q rfl)]
        apply walks_load hp

theorem walks_withVmcs (h : Trusts p m) {x : VcpuM α}
    (hx : ∀ n, Aimed p v n → Remains p (onVCpu v x) n) :
  Walks p (withVmcs v x) m
  := by
  rw [withVmcs]
  apply Ends.bind_ok rfl
  apply (ends_enter hp fun hv => (h v hv).2).bind
  rintro _ n ⟨hn, -, hv⟩
  have ho : Walks p (outcome (onVCpu v x)) n := ends_outcome (hx n hv).walks
  apply (ho.behind hn).bind
  intro result l hl
  have hr : Walks p (restore v m.loaded) l := by
    apply walks_restore hp
    intro q hq
    rw [hl.isRegistered]
    apply (h q hq).1
  apply (hr.behind hl).bind
  intro _ l' hl'
  cases result with
  | ok a => exact hl'
  | error e => exact hl'

/-! ### Offering events -/

/-- Lets the origin of an event go on, which is an effect on the origin alone. -/
theorem walks_release {o : Vpid} (hd : Effect.freeing o ⊆ p) (advance : Bool) :
  Walks p (release o advance) m
  := by
  rw [release]
  apply (ends_load hp o).bind
  rintro _ n ⟨hn, -, ho⟩
  apply Walks.behind _ hn
  apply Remains.walks
  apply Remains.bind
  · apply remains_onVCpu_bind (remains_step hp (.inl ho) (hd rfl) advance)
    intro _ _ _
    apply remains_resume hp (hd rfl)
  · intro _ _ _
    apply Remains.pure _

theorem walks_fallBack {e : ExitEvent} (hd : Effect.freeing e.origin ⊆ p) :
  Walks p (fallBack e) m
  := by
  rw [fallBack]
  apply (ends_load hp e.origin).bind
  rintro _ n ⟨hn, -, ho⟩
  apply Walks.behind _ hn
  apply Remains.walks
  apply Remains.bind
  · apply remains_onVCpu_bind (remains_giveUp hp (.inl ho) (hd rfl))
    intro _ _ _
    apply remains_resume hp (hd rfl)
  · intro _ _ _
    apply Remains.pure _

theorem remains_announce (h : Aimed p v m) (kernel : Bool) :
  Remains p (announce v kernel) m
  := by
  rw [announce]
  apply Ends.bind_ok rfl
  split
  · apply Remains.bind (remains_note hp _)
    intro _ n hn
    apply remains_queueInterrupt hp (hn.aimed h)
  · apply remains_note hp

/-- An event is queued only where nothing is pending. -/
theorem walks_inject {e : ExitEvent} (hd : Effect.passing e.origin ⊆ p) (l : Vpid) :
  Walks p (inject l e) m
  := by
  rw [inject_eq]
  apply walks_broker hp
  intro b hb
  split
  · rename_i he
    apply Remains.bind_walks
    · apply remains_modifyBroker hp (.queue e) (hd rfl)
      · intro b' hb'
        rw [hb] at hb'
        obtain rfl := Option.some.inj hb'
        apply Pending.isEmpty_iff.mp he
      · intro _
        rfl
    · intro _ n _
      apply (ends_load hp l).bind
      rintro _ n' ⟨hn', -, hl⟩
      apply Walks.behind _ hn'
      apply Remains.walks
      apply Remains.bind (remains_announce hp (.inl hl) _)
      intro _ _ _
      apply Remains.pure _
  · apply (remains_note hp _).bind_walks
    intro _ _ _
    apply walks_fallBack hp ((Effect.freeing_subset_passing _).trans hd)

/-- Unless a listener is found, offering an event switches to no other control structure. -/
theorem ends_notify {e : ExitEvent} (hd : Effect.delivery e.origin ⊆ p) :
  Ends (notify e) m (fun t n => Path p m n ∧ (t = none → n.current = m.current))
    (fun _ => Path p m)
  := by
  rw [notify]
  have hf : Remains p (onBroker e.origin fun b =>
      ((b.registry.first e.reason).1, { b with registry := (b.registry.first e.reason).2 })) m :=
    remains_onBroker hp (.first e.reason) (hp trivial) (fun _ _ => trivial) (fun _ => rfl)
  apply Ends.bind (Q := fun _ => Stays p m) (hf.mono (fun _ _ h => h) (fun _ _ h => h.1))
  intro first n hn
  cases first with
  | none => exact Ends.pure ⟨hn.1, fun _ => hn.2⟩
  | some l =>
      apply Ends.bind_ok contains_eq
      split
      · apply Ends.bind ((remains_note hp _).walks.behind hn.1)
        intro _ n₁ hn₁
        apply Ends.bind ((remains_pause hp (hd rfl)).walks.behind hn₁)
        intro _ n₂ hn₂
        apply Ends.map
        have hi := walks_inject hp ((Effect.passing_subset_delivery _).trans hd) l (m := n₂)
        apply (hi.behind hn₂).mono
        · intro t n₃ hn₃
          exact ⟨hn₃, fun h => absurd h (Option.some_ne_none t)⟩
        · intro _ _ h
          exact h
      · apply Ends.bind (Q := fun _ => Stays p n)
        · apply (remains_note hp _).mono
          · intro _ _ h
            exact h
          · intro _ _ h
            apply hn.1.trans h.1
        · intro _ n' hn'
          apply Ends.pure ⟨hn.1.trans hn'.1, fun _ => hn'.2.trans hn.2⟩

theorem walks_notify {e : ExitEvent} (hd : Effect.delivery e.origin ⊆ p) :
  Walks p (notify e) m
  := Ends.mono (ends_notify hp hd) (fun _ _ h => h.1) (fun _ _ h => h)

theorem walks_notifyNext {e : ExitEvent} (hd : Effect.passing e.origin ⊆ p) :
  Walks p (notifyNext e) m
  := by
  rw [notifyNext]
  apply Remains.bind_walks
  · apply remains_onBroker hp (.next e.reason) (hp trivial) (fun _ _ => trivial) (fun _ => rfl)
  · intro next n _
    cases next with
    | none =>
        apply (remains_note hp _).bind_walks
        intro _ _ _
        apply Walks.pure none
    | some l =>
        apply Ends.bind_ok contains_eq
        split
        · apply Walks.map
          apply walks_inject hp hd
        · apply (remains_note hp _).bind_walks
          intro _ _ _
          apply Walks.pure none

theorem walks_passOn {e : ExitEvent} (hd : Effect.passing e.origin ⊆ p) :
  Walks p (passOn e) m
  := by
  rw [passOn]
  apply (walks_notifyNext hp hd).bind
  intro t n _
  cases t with
  | some t => exact Walks.pure t
  | none => exact walks_fallBack hp ((Effect.freeing_subset_passing _).trans hd)

/-! ### Receiving and answering events -/

theorem remains_report (h : Aimed p v m) (hk : .vcpu v .advance ∈ p)
    {results : Registers → Registers} (hr : Registers.SetsResults results)
    (ha : ∀ f, .vcpu v (.results f) ∈ p) :
  Remains p (report v results) m
  := by
  rw [report]
  apply Remains.bind
  · apply remains_onVCpu_bind (remains_modifyRegisters hp (ha _) hr)
    intro _ n hn
    apply remains_onVCpu_bind (remains_advance hp (hn.aimed h) hk)
    intro _ _ _
    apply remains_modifyRegisters hp (ha _)
    apply Registers.setsResults_id.rax
  · intro _ _ _
    apply Remains.pure _

theorem walks_returnToParent (v : Vpid) (yield : Option UInt64) :
  Walks p (returnToParent v yield) m
  := by
  rw [returnToParent]
  apply (remains_parentOf hp v).bind_walks
  intro parent n _
  cases parent with
  | none => exact (remains_refuse hp _).walks
  | some q =>
      apply (walks_load hp q).bind
      intro _ _ _
      apply Walks.pure _

/-- A deadline is set only while nothing is pending. -/
theorem remains_arm {b : Broker} (hb : m.broker? v = some b) (he : b.pending = {})
    (ns : Option UInt64) :
  Remains p (arm v ns) m
  := by
  cases ns with
  | none => exact Remains.pure ()
  | some ns =>
      have hd : ∀ d, Remains p (modifyBroker v fun b => { b with deadline := some d }) m := by
        intro d
        apply remains_modifyBroker hp (.arm d) (hp trivial)
        · intro b' hb'
          rw [hb] at hb'
          obtain rfl := Option.some.inj hb'
          exact he
        · intro _
          rfl
      rw [arm_some]
      exact Ends.bind_ok (a := m) rfl (hd (Broker.deadlineAfter m.clock ns))

theorem walks_await (h : Aimed p v m) (hk : .vcpu v .advance ∈ p)
    (ha : ∀ f, .vcpu v (.results f) ∈ p)
    (he : ∀ b, m.broker? v = some b → b.pending = {}) :
  Walks p (await v) m
  := by
  rw [await]
  apply walks_broker hp
  intro b hb
  apply Ends.bind_ok rfl
  split
  · split
    · apply Remains.walks
      apply Remains.bind
      · apply remains_modifyBroker hp .disarm (hp trivial) (fun _ _ => trivial) (fun _ => rfl)
      · intro _ n hn
        apply Remains.bind (remains_note hp _)
        intro _ n' hn'
        apply remains_report hp ((hn.trans hn').aimed h) hk _ ha
        apply Registers.setsResults_timeoutRegisters
    · apply walks_returnToParent hp
  · apply walks_registers hp
    intro regs
    apply (remains_arm hp hb (he b hb) _).bind_walks
    intro _ _ _
    apply (remains_note hp _).bind_walks
    intro _ _ _
    apply walks_returnToParent hp

theorem remains_endWait (e : ExitEvent) (kernel : Bool) :
  Remains p (endWait v e kernel) m
  := by
  rw [endWait]
  split
  · apply Remains.pure ()
  · apply Remains.bind
    · apply remains_modifyBroker hp .disarm (hp trivial) (fun _ _ => trivial) (fun _ => rfl)
    · intro _ _ _
      apply remains_note hp

theorem walks_nextExit (h : Aimed p v m) (hk : .vcpu v .advance ∈ p)
    (ha : ∀ f, .vcpu v (.results f) ∈ p) :
  Walks p (nextExit v) m
  := by
  rw [nextExit]
  apply walks_broker hp
  intro b hb
  split
  · rename_i e _
    apply Remains.walks
    apply Remains.bind (remains_endWait hp e _)
    intro _ n hn
    apply remains_report hp (hn.aimed h) hk _ ha
    apply Registers.setsResults_eventRegisters
  · rename_i hf
    split
    · apply Remains.walks
      apply Remains.bind (remains_note hp _)
      intro _ _ _
      apply remains_refuse hp
    · apply walks_await hp h hk ha
      intro b' hb'
      rw [hb] at hb'
      obtain rfl := Option.some.inj hb'
      apply Pending.front?_eq_none_iff.mp hf

/-- The event that is taken from a processor is the one in flight. -/
theorem ends_pop (hpop : .broker v .pop ∈ p) :
  Ends (onBroker v fun b => (b.pending.pop.1, { b with pending := b.pending.pop.2 })) m
    (fun front n => Stays p m n ∧ front = (m.slot v).head?) (fun _ => Stays p m)
  := by
  apply (ends_onBroker hp v _).mono
  · rintro _ _ ⟨b, hb, rfl, rfl⟩
    refine ⟨Stays.broker (k := .pop) hpop hb trivial, ?_⟩
    rw [slot_of_broker? hb]
    rfl
  · intro _ _ hn
    exact hn

/-- Answering an event takes it from the caller and moves it on or lets its origin go on. -/
theorem walks_endOfExit (hpop : .broker v .pop ∈ p)
    (hd : ∀ e, (m.slot v).head? = some e → Effect.passing e.origin ⊆ p)
    (ha : ∀ f, .vcpu v (.results f) ∈ p) :
  Walks p (endOfExit v) m
  := by
  rw [endOfExit]
  apply walks_registers hp
  intro regs
  apply Ends.bind ((ends_pop hp hpop).mono (fun _ _ h => h) (fun _ _ h => h.1))
  rintro front n ⟨hn, hf⟩
  apply Walks.behind _ hn.1
  cases front with
  | none =>
      apply Remains.walks
      apply Remains.bind (remains_note hp _)
      intro _ _ _
      apply remains_refuse hp
  | some e =>
      have he := hd e hf.symm
      apply Ends.bind_ok contains_eq
      split
      · apply Remains.bind_walks
        · apply remains_registersOf hp (ha _)
          apply Registers.setsResults_id.rax
        · intro _ _ _
          split
          · apply (remains_note hp _).bind_walks
            intro _ _ _
            apply walks_release hp ((Effect.freeing_subset_passing _).trans he)
          · apply (remains_note hp _).bind_walks
            intro _ _ _
            apply walks_passOn hp he
      · apply Remains.walks
        apply Remains.bind (remains_note hp _)
        intro _ _ _
        apply remains_refuse hp

end

end ExitRelay.Machine
