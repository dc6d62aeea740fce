import ExitRelay.Proofs.Disclosure

/-!
# Calls that read

Three calls ask for a word: a field of the control structure of a target, a register of an owner,
or the translation of an address.  `Asked` says which word a call asks for, once its caller has
moved on behind it.  `reading` says that the caller finds this word in one register and the status
of success in `rax`, or the status of a failure in `rax` alone if the call asks for no word.  In
both cases the caller is loaded and has moved on, and nothing else has changed on the machine.
-/

namespace ExitRelay

namespace Call

/-- The calls that ask for a word. -/
def inquiries : List Call :=
  [.vmread, .registerValue, .translate]

/-- The registers of the caller with the word that a call has asked for. -/
def delivers : Call → UInt64 → Registers → Registers
  | .translate, w, regs => { regs with rdi := w }
  | _, w, regs => { regs with r10 := w }

/-- The call that is found under its selector, if the domain may make it. -/
theorem ofWord?_of_selector {call : Call} {w : UInt64} (h : Selector.ofWord w = call.selector)
    (domain : DomainKind) :
  ofWord? domain w = if Machine.mayCall domain call then some call else none
  := by
  rw [ofWord?, h]
  change ((Family.ofOpcode? call.family.opcode).bind fun family =>
    (ofIndex? family call.index).filter (Machine.mayCall domain)) = _
  rw [Family.ofOpcode?_opcode, Option.bind_some, ofIndex?_index, Option.filter_some]

end Call

namespace Machine

variable {m n : Machine} {v w p t : Vpid} {c : VCpu} {call : Call}

/-- The argument of a call of a processor in the state `c` names a target. -/
inductive Names (m : Machine) (c : VCpu) : Vpid → Vpid → Prop where
  | parent {p : Vpid} (hparent : c.parent = some p) (hp : m.isRegistered p = true) :
      Names m c Vpid.parent p
  | number {t : Vpid} (hself : t ≠ Vpid.self) (hparent : t ≠ Vpid.parent)
      (ht : m.isRegistered t = true) : Names m c t t

/-- The argument of a call of a processor in the state `c` names the owner of a register.  A
guest names its parent, and a processor of the root domain names any one by its number. -/
inductive NamesOwner (m : Machine) (c : VCpu) : Vpid → Vpid → Prop where
  | parent {a p : Vpid} (hg : c.domain = .guest) (hparent : c.parent = some p)
      (hp : m.isRegistered p = true) (hself : a ≠ Vpid.self) (hany : a ≠ Vpid.any)
      (ha : a = Vpid.parent ∨ a = p) : NamesOwner m c a p
  | number {p : Vpid} (hroot : c.domain = .root) (hself : p ≠ Vpid.self) (hany : p ≠ Vpid.any)
      (hparent : p ≠ Vpid.parent) (hp : m.isRegistered p = true) : NamesOwner m c p p

/-- A processor asks for a word by a call. -/
inductive Asked (m : Machine) (v : Vpid) : Call → UInt64 → Prop where
  /-- The register `r12` holds the encoding of a field, in all its 64 bits. -/
  | vmread {c d : VCpu} {t : Vpid} {f : Field} (hc : m.vcpu? v = some c) (hg : c.domain = .guest)
      (ht : Names m c c.regs.r11 t) (hd : m.vcpu? t = some d) (hf : f.toUInt64 = c.regs.r12) :
      Asked m v .vmread (d.vmcs.read f)
  | registerValue {c d : VCpu} {p : Vpid} {i : RegisterId} (hc : m.vcpu? v = some c)
      (hp : NamesOwner m c c.regs.r11 p) (hd : m.vcpu? p = some d)
      (hi : RegisterId.ofNumber? c.regs.r12 = some i) : Asked m v .registerValue (d.register i)
  | translate {c : VCpu} (hc : m.vcpu? v = some c) (hg : c.domain = .guest) :
      Asked m v .translate (c.regs.rdi + VcpuM.translationOffset)

/-- The machine `n` is the machine `m` after a processor in the state `c` has asked for a word and
is left with the registers `regs`. -/
structure Inspected (m : Machine) (v : Vpid) (c : VCpu) (regs : Registers) (n : Machine) : Prop
    where
  /-- The caller has moved on once. -/
  caller : n.vcpu? v = some { c.advanced with regs }
  vcpus : ∀ w, w ≠ v → n.vcpu? w = m.vcpu? w
  brokers : ∀ w, n.broker? w = m.broker? w
  loaded : n.loaded = some v
  current : n.current = some v
  config : n.config = m.config
  clock : n.clock = m.clock

/-! ### Whom an argument names -/

theorem target?_eq_some_iff (hc : m.vcpu? v = some c) (a : Vpid) :
  m.target? v a = some t ↔ Names m c a t
  := by
  rw [target?]
  constructor
  · intro h
    split at h
    · exact absurd h (Option.some_ne_none t).symm
    · rename_i hself
      split at h
      · rename_i hparent
        subst hparent
        rw [hc, Option.bind_some] at h
        obtain ⟨hp, hr⟩ := Option.filter_eq_some_iff.mp h
        exact .parent hp hr
      · rename_i hparent
        split at h
        · rename_i hr
          obtain rfl := Option.some.inj h
          exact .number hself hparent hr
        · exact absurd h (Option.some_ne_none t).symm
  · intro h
    cases h with
    | parent hp hr =>
        rw [if_neg (by decide), if_pos rfl, hc, Option.bind_some, hp, Option.filter_some, hr,
          if_pos rfl]
    | number hself hparent hr => rw [if_neg hself, if_neg hparent, if_pos hr]

/-- The outcome of a processor's naming the owner of a register. -/
def owner (m : Machine) (c : VCpu) (a : Vpid) : Except Status Vpid :=
  if c.isRoot then
    if a = Vpid.self then .error .invalidVpidUnsupportedSelf
    else if a = Vpid.any then .error .invalidVpidUnsupportedAny
    else if a = Vpid.parent then .error .invalidVpidUnsupportedParent
    else if m.isRegistered a then .ok a
    else .error .invalidVpidUnknown
  else Vpid.owner (c.parent.filter m.isRegistered) a

theorem concludes_owner (hc : m.vcpu? v = some c) (a : Vpid) :
  Concludes (registerOwner v a) m (m.owner c a) m
  := by
  rw [owner]
  split
  · rename_i hroot
    rw [registerOwner]
    apply (yields_vcpu hc).adaptExcept.bind_concludes
    apply (yields_parentOf hc).adaptExcept.bind_concludes
    split
    · apply Concludes.throw
    · split
      · apply Concludes.throw
      · split
        · apply Concludes.throw
        · rw [if_neg (fun h => h.1 hroot)]
          apply (yields_contains a).adaptExcept.bind_concludes
          split
          · exact Yields.pure a
          · apply Concludes.throw
  · rename_i hguest
    exact concludes_registerOwner hc (Bool.eq_false_iff.mpr hguest) a

theorem owner_of_names {a : Vpid} (h : NamesOwner m c a p) :
  m.owner c a = .ok p
  := by
  rw [owner, VCpu.isRoot]
  cases h with
  | parent hg hparent hp hself hany ha =>
      have hfilter : c.parent.filter m.isRegistered = some p := by
        rw [hparent, Option.filter_some, hp, if_pos rfl]
      rw [hg, if_neg (by decide), Vpid.owner, if_neg hself, if_neg hany, hfilter]
      rcases ha with rfl | rfl
      · rw [if_pos rfl]
        rfl
      · split
        · rfl
        · rw [if_pos rfl]
  | number hroot hself hany hparent hp =>
      rw [hroot, if_pos (by decide), if_neg hself, if_neg hany, if_neg hparent, if_pos hp]

/-- A processor names an owner, or it is told that its call has not succeeded. -/
theorem owner_cases (m : Machine) (c : VCpu) (a : Vpid) :
  (∃ p, NamesOwner m c a p) ∨ ∃ s, s ≠ .success ∧ m.owner c a = .error s
  := by
  cases hdomain : c.domain with
  | root =>
      rw [owner, VCpu.isRoot, hdomain, if_pos (by decide)]
      split
      · exact .inr ⟨_, by decide, rfl⟩
      · rename_i hself
        split
        · exact .inr ⟨_, by decide, rfl⟩
        · rename_i hany
          split
          · exact .inr ⟨_, by decide, rfl⟩
          · rename_i hparent
            split
            · rename_i hp
              exact .inl ⟨a, .number hdomain hself hany hparent hp⟩
            · exact .inr ⟨_, by decide, rfl⟩
  | guest =>
      rw [owner, VCpu.isRoot, hdomain, if_neg (by decide)]
      obtain ⟨p, hfilter, ha, hown⟩ | hrefused :=
        Vpid.owner_cases (c.parent.filter m.isRegistered) a
      · left
        obtain ⟨hparent, hp⟩ := Option.filter_eq_some_iff.mp hfilter
        refine ⟨p, .parent hdomain hparent hp ?_ ?_ ha⟩
        · intro hself
          rw [Vpid.owner, if_pos hself] at hown
          cases hown
        · intro hany
          rw [Vpid.owner, hany, if_neg (by decide), if_pos rfl] at hown
          cases hown
      · exact .inr hrefused

theorem NamesOwner.isRegistered {a : Vpid} (h : NamesOwner m c a p) :
  m.isRegistered p = true
  := by
  cases h with
  | parent _ _ hp _ _ _ => exact hp
  | number _ _ _ _ hp => exact hp

/-! ### Outcomes -/

/-- The outcome of asking for a field, the two arguments of which stand in `r11` and `r12`. -/
def fieldRead (m : Machine) (v : Vpid) (c : VCpu) : Except Status UInt64 :=
  match m.target? v c.regs.r11 with
  | none => .error .invalidParams1
  | some t =>
    if c.regs.r12.toNat < 0x1_0000_0000 then .ok (m.fieldOf t c.regs.r12.toUInt32)
    else .error .invalidParams2

/-- The outcome of a call that asks for a word, if its caller may make it. -/
def inquiry (m : Machine) (v : Vpid) (c : VCpu) : Call → Except Status UInt64
  | .vmread => m.fieldRead v c
  | .registerValue => m.registerRead (m.owner c c.regs.r11) c.regs.r12
  | .translate => .ok (c.regs.rdi + VcpuM.translationOffset)
  | _ => .error .failureUnknownHypercall

/-- The outcome of a call that asks for a word. -/
def inquired (m : Machine) (v : Vpid) (c : VCpu) (call : Call) : Except Status UInt64 :=
  if mayCall c.domain call then m.inquiry v c call else .error .failureUnknownHypercall

/-- What a call asks for is what its outcome is. -/
theorem inquired_of_asked {w : UInt64} (hc : m.vcpu? v = some c) (h : Asked m v call w) :
  m.inquired v c call = .ok w
  := by
  rw [inquired]
  cases h with
  | vmread hc' hg ht hd hf =>
      rename_i c' d t f
      obtain rfl := Option.some.inj (hc.symm.trans hc')
      have hlt : c.regs.r12.toNat < 0x1_0000_0000 := by
        rw [← hf, UInt32.toNat_toUInt64]
        exact f.toNat_lt
      rw [if_pos (by rw [hg]; rfl)]
      simp only [inquiry, fieldRead, (target?_eq_some_iff hc _).mpr ht]
      rw [if_pos hlt, ← hf, UInt32.toUInt32_toUInt64, fieldOf_of_vcpu? hd]
  | registerValue hc' hp hd hi =>
      obtain rfl := Option.some.inj (hc.symm.trans hc')
      have hmay : mayCall c.domain .registerValue = true := rfl
      rw [if_pos hmay]
      simp only [inquiry, owner_of_names hp, registerRead, hi, registerOf_of_vcpu? hd]
  | translate hc' hg =>
      obtain rfl := Option.some.inj (hc.symm.trans hc')
      rw [if_pos (by rw [hg]; rfl)]
      rfl

/-- A call asks for a word, or it does not succeed. -/
theorem inquired_cases (hc : m.vcpu? v = some c) (hcall : call ∈ Call.inquiries) :
  (∃ w, Asked m v call w) ∨ ∃ s, s ≠ .success ∧ m.inquired v c call = .error s
  := by
  rw [inquired]
  split
  · rename_i hmay
    cases call with
    | vmread =>
        have hg : c.domain = .guest := of_decide_eq_true hmay
        simp only [inquiry, fieldRead]
        cases ht : m.target? v c.regs.r11 with
        | none => exact .inr ⟨_, by decide, rfl⟩
        | some t =>
            have hnames := (target?_eq_some_iff hc _).mp ht
            obtain ⟨d, hd⟩ := isRegistered_iff_vcpu?.mp (isRegistered_of_target? ht)
            simp only
            split
            · rename_i hlt
              left
              refine ⟨_, .vmread (f := c.regs.r12.toUInt32) hc hg hnames hd ?_⟩
              apply UInt64.toNat.inj
              rw [UInt32.toNat_toUInt64, UInt64.toNat_toUInt32]
              exact Nat.mod_eq_of_lt hlt
            · exact .inr ⟨_, by decide, rfl⟩
    | registerValue =>
        obtain ⟨p, hp⟩ | ⟨s, hs, hown⟩ := owner_cases m c c.regs.r11
        · obtain ⟨d, hd⟩ := isRegistered_iff_vcpu?.mp hp.isRegistered
          cases hi : RegisterId.ofNumber? c.regs.r12 with
          | none =>
              right
              refine ⟨.invalidParams2, by decide, ?_⟩
              simp only [inquiry, owner_of_names hp, registerRead, hi]
          | some i => exact .inl ⟨_, .registerValue hc hp hd hi⟩
        · right
          refine ⟨s, hs, ?_⟩
          simp only [inquiry, hown, registerRead]
    | translate => exact .inl ⟨_, .translate hc (of_decide_eq_true hmay)⟩
    | _ => exact absurd hcall (by decide)
  · exact .inr ⟨_, by decide, rfl⟩

/-! ### The calls -/

section

variable (h : m.Holds v) (hf : m.Flawless) (hc : m.vcpu? v = some c)

include h hf hc

theorem concludes_readField {r : Except Status UInt64} (hr : m.fieldRead v c = r) :
  Concludes (readField v) m (r.map fun _ => ())
    (m.succeeded v (r.map fun value regs => { regs with r10 := value }))
  := by
  rw [readField]
  apply (yields_registers hc).adaptExcept.bind_concludes
  rw [fieldRead] at hr
  cases ht : m.target? v c.regs.r11 with
  | none =>
      rw [ht] at hr
      obtain rfl := hr
      exact (concludes_target_none hc ht).bind_error
  | some t =>
      rw [ht] at hr
      simp only at hr
      apply (yields_target hc ht).bind_concludes
      split
      · rename_i hlt
        rw [if_pos hlt] at hr
        obtain rfl := hr
        have hread := yields_vmread_elsewhere h hf (isRegistered_of_target? ht)
          c.regs.r12.toUInt32
        apply hread.adaptExcept.bind_concludes
        exact (yields_succeed hc _).adaptExcept
      · rename_i hlt
        rw [if_neg hlt] at hr
        obtain rfl := hr
        apply Concludes.throw

theorem concludes_registerValue_owner :
  Concludes (registerValue v) m
    ((m.registerRead (m.owner c c.regs.r11) c.regs.r12).map fun _ => ())
    (m.succeeded v ((m.registerRead (m.owner c c.regs.r11) c.regs.r12).map
      fun value regs => { regs with r10 := value }))
  := by
  apply concludes_registerValue_of_owner h hf hc (concludes_owner hc _)
  intro p hp
  obtain ⟨p', hp'⟩ | ⟨s, -, hs⟩ := owner_cases m c c.regs.r11
  · rw [owner_of_names hp'] at hp
    obtain rfl := Except.ok.inj hp
    exact hp'.isRegistered
  · rw [hs] at hp
    nomatch hp

omit h in
theorem yields_translateAddress :
  Yields (translateAddress v) m ()
    (m.succeeded v (.ok fun regs =>
      { regs with rdi := c.regs.rdi + VcpuM.translationOffset }))
  := by
  have hfault : c.faults.get .translate = {} := by
    rw [hf v c hc]
    rfl
  rw [translateAddress]
  apply (yields_registers hc).adaptExcept.bind
  apply (yields_translate hc hfault c.regs.rdi).adaptExcept.bind
  apply (yields_note _).adaptExcept.bind
  exact (yields_succeed hc _).adaptExcept

/-- A call that asks for a word is completed with its outcome, whichever it is. -/
theorem yields_serve_inquiry (hcall : call ∈ Call.inquiries)
    (hmay : mayCall c.domain call = true) :
  Yields (completing v (serve v call)) m (.run v)
    (m.mapVCpu v (VCpu.replied ((m.inquired v c call).map call.delivers)))
  := by
  rw [inquired, if_pos hmay]
  cases call with
  | vmread => exact yields_completing (concludes_readField h hf hc rfl) h hf
  | registerValue => exact yields_completing (concludes_registerValue_owner h hf hc) h hf
  | translate =>
      have hok : m.inquiry v c .translate = .ok (c.regs.rdi + VcpuM.translationOffset) := rfl
      have hx : Concludes (translateAddress v) m ((m.inquiry v c .translate).map fun _ => ())
          (m.succeeded v ((m.inquiry v c .translate).map Call.translate.delivers)) := by
        rw [hok]
        exact yields_translateAddress hf hc
      exact yields_completing hx h hf
  | _ => exact absurd hcall (by decide)

end

/-- The machine on which a processor that was in the state `c` has asked for a word. -/
def inspected (m : Machine) (v : Vpid) (c : VCpu) (call : Call) : Machine :=
  (m.begun v).mapVCpu v
    (VCpu.replied (((m.begun v).inquired v c.advanced call).map call.delivers))

/-- A hypercall that asks for a word runs its caller again, whether or not it succeeds. -/
theorem yields_handleHypercall_inquiry (h : m.Agrees) (hf : m.Flawless)
    (hc : m.vcpu? v = some c) (hcall : call ∈ Call.inquiries)
    (hselector : Selector.ofWord c.regs.rax = call.selector) :
  Yields (handleHypercall v) m (some (.run v)) (m.inspected v c call)
  := by
  have hcall? : m.call? v = if mayCall c.domain call then some call else none := by
    rw [call?, hc, Option.bind_some, Call.ofWord?_of_selector hselector]
  have hholds := holds_begun hc
  have hregistered : (m.inspected v c call).isRegistered v = true :=
    (hholds.mapVCpu v _).registered
  by_cases hmay : mayCall c.domain call = true
  · rw [if_pos hmay] at hcall?
    have hne : call ≠ .nextExit := by
      rintro rfl
      exact absurd hcall (by decide)
    have hserve := yields_serve_inquiry hholds (hf.begun v) (vcpu?_begun hc) hcall hmay
    exact yields_handleHypercall_of_begun hc h hf hcall? hne hserve hregistered
  · rw [if_neg hmay] at hcall?
    have hfamily : Family.ofOpcode? (Selector.ofWord c.regs.rax).opcode = some call.family := by
      rw [hselector]
      exact Family.ofOpcode?_opcode call.family
    have hinquired : (m.begun v).inquired v c.advanced call =
        .error .failureUnknownHypercall := by
      rw [inquired]
      exact if_neg hmay
    rw [inspected, hinquired] at hregistered ⊢
    exact yields_handleHypercall_of_uncalled hc h hf hfamily hcall?

theorem inspected_of_replied (hc : m.vcpu? v = some c) (r : Except Status (Registers → Registers))
    (j : Journal) :
  Inspected m v c (VCpu.replied r c.advanced).regs
    (((m.begun v).mapVCpu v (VCpu.replied r)).withJournal j)
  where
  caller := by
    rw [vcpu?_withJournal, vcpu?_mapVCpu_self, vcpu?_begun hc]
    cases r with
    | ok results => rfl
    | error s => rfl
  vcpus := by
    intro w hw
    rw [vcpu?_withJournal, vcpu?_mapVCpu_of_ne _ hw, vcpu?_begun_of_ne hw]
  brokers := by
    intro w
    rw [broker?_withJournal, broker?_mapVCpu, begun, broker?_mapVCpu, broker?_switchTo]
  loaded := rfl
  current := rfl
  config := rfl
  clock := rfl

/-- A hypercall that asks for a word, which stands in `rax` among other bits, runs its caller
again.  The caller is loaded and has moved on, and finds the word in one register and the status
of success in `rax`.  If there is no such word, it finds the status of a failure there.  Nothing
else has changed. -/
theorem reading (h : m.Agrees) (hf : m.Flawless) (hc : m.vcpu? v = some c)
    (hcall : call ∈ Call.inquiries) (hselector : Selector.ofWord c.regs.rax = call.selector) :
  ∃ n regs, handleHypercall v m = .ok (some (.run v)) n ∧ Inspected m v c regs n ∧
    (∀ w, Asked (m.begun v) v call w →
      regs = { call.delivers w c.regs with rax := Status.success.code }) ∧
    ((∀ w, ¬ Asked (m.begun v) v call w) →
      ∃ s : Status, s ≠ .success ∧ regs = { c.regs with rax := s.code })
  := by
  obtain ⟨j, hn⟩ := (yields_handleHypercall_inquiry h hf hc hcall hselector).eq_ok
  have hc' := vcpu?_begun hc
  refine ⟨_, _, hn, inspected_of_replied hc _ j, ?_, ?_⟩
  · intro w hw
    rw [inquired_of_asked hc' hw]
    rfl
  · intro hnone
    obtain ⟨w, hw⟩ | ⟨s, hs, herror⟩ := inquired_cases hc' hcall
    · exact absurd hw (hnone w)
    · refine ⟨s, hs, ?_⟩
      rw [herror]
      rfl

/-- A guest names itself by its number and asks for its instruction pointer.  It finds where it
has moved on to. -/
theorem reading_of_itself :
  let c : VCpu := {
    vmcs := Vmcs.initial, regs := { rax := 0xdead_0006_0002, r11 := 2, r12 := 0x681e } }
  let m : Machine := ({} : Machine).hosting 2 ⟨c, {}⟩
  (m.Agrees ∧ m.Flawless ∧ m.vcpu? 2 = some c ∧ .vmread ∈ Call.inquiries ∧
      Selector.ofWord c.regs.rax = Call.vmread.selector) ∧
    ∃ n, handleHypercall 2 m = .ok (some (.run 2)) n ∧
      n.vcpu? 2 = some { c.advanced with regs := { c.regs with rax := 0, r10 := 0x1003 } }
  := by
  intro c m
  have h : m.Agrees := agrees_of_loaded rfl
  have hempty : ({} : Machine).Flawless := guarantees_of_residents rfl
  have hf : m.Flawless := hempty.hosting 2 rfl
  have hc : m.vcpu? 2 = some c := vcpu?_hosting_self _ _ _
  have hselector : Selector.ofWord c.regs.rax = Call.vmread.selector := by
    decide
  obtain ⟨n, regs, hn, hi, hasked, -⟩ := reading h hf hc (by decide) hselector
  have hself : m.isRegistered 2 = true := isRegistered_iff_vcpu?.mpr ⟨c, hc⟩
  have hnames : Names (m.begun 2) c.advanced 2 2 := by
    apply Names.number (by decide) (by decide)
    rw [isRegistered_begun, hself]
  have hregs := hasked _
    (.vmread (f := Field.rip) (vcpu?_begun hc) rfl hnames (vcpu?_begun hc) rfl)
  refine ⟨⟨h, hf, hc, by decide, hselector⟩, n, hn, ?_⟩
  rw [hi.caller, hregs, VCpu.read_advanced_rip]
  rfl

end Machine

end ExitRelay
