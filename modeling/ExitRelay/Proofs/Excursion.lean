import ExitRelay.Proofs.Isolation

/-!
# Excursions to a processor

`withVmcs` is an excursion: a program is run once on a target while the control structure of
the target is loaded, and then the processor that was loaded before is loaded again.  Where the
target cannot be entered the program is not run.  Where the way back fails the target stays
loaded, and the error of the way back is the outcome.  `excursion` says so for every program on
the target and all fault plans, and that an excursion which starts with a processor loaded ends
with one loaded.
-/

namespace ExitRelay

/-- The error in which the next attempt to load the processor ends, if it fails. -/
def VCpu.loadFault? (c : VCpu) : Option SysError :=
  (c.faults.get .load).outcome 0

/-- The outcome of a program on one processor, be it a result or an error, and what the program
leaves. -/
def VcpuM.conclusion {α : Type} (body : VcpuM α) (here : Standpoint) (s : Focus) :
    Except SysError α × Focus :=
  match body here s with
  | .ok a t => (.ok a, t)
  | .error e t => (.error e, t)

namespace Machine

/-- The machine after an attempt to load a processor has failed. -/
def withFailedLoad (m : Machine) (v : Vpid) : Machine :=
  m.mapVCpu v (VCpu.attempted .load)

/-- The machine after a processor has been loaded. -/
def withLoaded (m : Machine) (v : Vpid) : Machine :=
  ((m.mapVCpu v (VCpu.attempted .load)).switchTo v).withJournal (m.journal.act (.load v))

/-- A processor is entered: nothing is done if it is loaded already, and otherwise it is
loaded. -/
inductive Entered (m : Machine) (v : Vpid) : Machine → Prop where
  | already (hl : m.loaded = some v) : Entered m v m
  | anew {c : VCpu} (hl : m.loaded ≠ some v) (hc : m.vcpu? v = some c)
      (he : c.loadFault? = none) : Entered m v (m.withLoaded v)

/-- The program is run once on the processor, which is loaded and whose control structure the
hardware holds.  It has the outcome `r` and takes the machine `m` to the machine `n`, and nothing
changes but the processor and the journal. -/
structure Visit {α : Type} (v : Vpid) (body : VcpuM α) (m : Machine) (r : Except SysError α)
    (n : Machine) : Prop where
  loaded : m.loaded = some v
  current : m.current = some v
  /-- The program finds the processor as the machine has it, and its control structure is the
  current one. -/
  run : ∃ c s, m.vcpu? v = some c ∧ body.conclusion ⟨v, true⟩ ⟨c, m.journal⟩ = (r, s) ∧
    n = (m.mapVCpu v fun _ => s.vcpu).withJournal s.journal
  vcpus : ∀ w, w ≠ v → n.vcpu? w = m.vcpu? w
  brokers : ∀ w, n.broker? w = m.broker? w
  loaded_eq : n.loaded = some v
  current_eq : n.current = some v

/-- The endings of an excursion from the machine `m` to a target. -/
inductive Excursion {α : Type} (target : Vpid) (body : VcpuM α) (m : Machine) :
    EStateM.Result SysError Machine α → Prop where
  /-- Nobody has the number, and nothing is done. -/
  | unknown (hc : m.vcpu? target = none) :
      Excursion target body m
        (.error .notFound (m.withJournal (m.journal.note (.refused .unknownVpid))))
  /-- The target cannot be loaded, and nothing is done. -/
  | refused {c : VCpu} {e : SysError} (hl : m.loaded ≠ some target)
      (hc : m.vcpu? target = some c) (he : c.loadFault? = some e) :
      Excursion target body m (.error e (m.withFailedLoad target))
  /-- No other processor was loaded before, and the target stays loaded. -/
  | stayed {u n : Machine} {r : Except SysError α} (hl : ∀ p, m.loaded = some p → p = target)
      (hu : m.Entered target u) (hv : Visit target body u r n) :
      Excursion target body m (conclude r n)
  /-- The processor that was loaded before is loaded again. -/
  | returned {u n : Machine} {r : Except SysError α} {p : Vpid} {d : VCpu}
      (hl : m.loaded = some p) (hp : p ≠ target)
      (hu : m.Entered target u) (hv : Visit target body u r n)
      (hd : n.vcpu? p = some d) (he : d.loadFault? = none) :
      Excursion target body m (conclude r (n.withLoaded p))
  /-- The processor that was loaded before cannot be loaded again, and the target stays
  loaded. -/
  | stranded {u n : Machine} {r : Except SysError α} {p : Vpid} {d : VCpu} {e : SysError}
      (hl : m.loaded = some p) (hp : p ≠ target)
      (hu : m.Entered target u) (hv : Visit target body u r n)
      (hd : n.vcpu? p = some d) (he : d.loadFault? = some e) :
      Excursion target body m (.error e (n.withFailedLoad p))

variable {m n u : Machine} {v w target p : Vpid} {c d : VCpu} {e : SysError} {α : Type}
  {body : VcpuM α} {r : Except SysError α}

/-! ### The way there -/

theorem load_eq (hc : m.vcpu? v = some c) (he : c.loadFault? = none) :
  load v m = .ok () (m.withLoaded v)
  := by
  rw [load, bind_of_ok (onVCpu_attempt hc he)]
  rfl

theorem load_of_fault (hc : m.vcpu? v = some c) (he : c.loadFault? = some e) :
  load v m = .error e (m.withFailedLoad v)
  := by
  rw [load, bind_of_error (onVCpu_attempt_of_some hc he)]
  rfl

theorem load_of_none (hc : m.vcpu? v = none) :
  load v m = .error .notFound (m.withJournal (m.journal.note (.refused .unknownVpid)))
  := by
  rw [load, bind_of_error (onVCpu_of_none hc _)]

theorem enter_of_loaded (hl : m.loaded = some v) :
  enter v m = .ok () m
  := by
  change (if m.loaded = some v then pure () else load v : SysM Unit) m = _
  rw [if_pos hl]
  rfl

theorem enter_of_not_loaded (hl : m.loaded ≠ some v) :
  enter v m = load v m
  := by
  change (if m.loaded = some v then pure () else load v : SysM Unit) m = _
  rw [if_neg hl]

theorem Entered.eq_ok (h : m.Entered v u) :
  enter v m = .ok () u
  := by
  cases h with
  | already hl => exact enter_of_loaded hl
  | anew hl hc he => rw [enter_of_not_loaded hl, load_eq hc he]

/-- A processor that is entered is loaded, and the hardware holds its control structure. -/
theorem Entered.holds (h : m.Entered v u) (ha : m.Agrees) :
  u.loaded = some v ∧ u.current = some v
  := by
  cases h with
  | already hl => exact ⟨hl, (ha v hl).2⟩
  | anew => exact ⟨rfl, rfl⟩

/-- Entering a processor registers and removes nobody. -/
theorem Entered.isRegistered (h : m.Entered v u) (w : Vpid) :
  u.isRegistered w = m.isRegistered w
  := by
  cases h with
  | already => rfl
  | anew => rw [withLoaded, isRegistered_withJournal, isRegistered_switchTo, isRegistered_mapVCpu]

/-! ### The stay -/

/-- What a run of the program leaves of a loaded processor and the journal is what a visit
leaves. -/
theorem visit_of_conclusion {s : Focus} (hl : m.loaded = some v) (hcur : m.current = some v)
    (hc : m.vcpu? v = some c) (hr : body.conclusion ⟨v, true⟩ ⟨c, m.journal⟩ = (r, s)) :
  Visit v body m r ((m.mapVCpu v fun _ => s.vcpu).withJournal s.journal)
  where
  loaded := hl
  current := hcur
  run := ⟨c, s, hc, hr, rfl⟩
  vcpus := by
    intro w hw
    rw [vcpu?_withJournal, vcpu?_mapVCpu_of_ne _ hw]
  brokers := by
    intro w
    rw [broker?_withJournal, broker?_mapVCpu]
  loaded_eq := hl
  current_eq := hcur

/-- A program can be run on a registered processor that is loaded. -/
theorem exists_visit (hl : m.loaded = some v) (hcur : m.current = some v)
    (hv : m.isRegistered v = true) (body : VcpuM α) :
  ∃ r n, Visit v body m r n
  := by
  obtain ⟨c, hc⟩ := isRegistered_iff_vcpu?.mp hv
  exact ⟨_, _, visit_of_conclusion hl hcur hc rfl⟩

/-- What a visit says is what the program does on the processor. -/
theorem Visit.outcome_eq (h : Visit v body m r n) :
  outcome (onVCpu v body) m = .ok r n
  := by
  obtain ⟨c, s, hc, hr, rfl⟩ := h.run
  have hhere : (⟨v, m.current = some v⟩ : Standpoint) = ⟨v, true⟩ := by
    rw [h.current, decide_eq_true rfl]
  rw [VcpuM.conclusion] at hr
  split at hr
  · rename_i hb
    obtain ⟨rfl, rfl⟩ := Prod.mk.inj hr
    rw [outcome, onVCpu_of_ok hc (hhere ▸ hb)]
  · rename_i hb
    obtain ⟨rfl, rfl⟩ := Prod.mk.inj hr
    rw [outcome, onVCpu_of_error hc (hhere ▸ hb)]

/-- A visit registers and removes nobody. -/
theorem Visit.isRegistered (h : Visit v body m r n) (w : Vpid) :
  n.isRegistered w = m.isRegistered w
  := by
  obtain ⟨c, s, -, -, rfl⟩ := h.run
  rw [isRegistered_withJournal, isRegistered_mapVCpu]

/-! ### The way back -/

theorem restore_of_forall_eq {prev : Option Vpid} (h : ∀ p, prev = some p → p = target) :
  restore target prev n = .ok () n
  := by
  cases prev with
  | none => rfl
  | some p =>
      rw [restore, if_pos (h p rfl)]
      rfl

theorem restore_of_ne (hp : p ≠ target) (hd : n.isRegistered p = true) :
  restore target (some p) n = load p n
  := by
  rw [restore, if_neg hp, bind_of_ok contains_eq, if_pos hd]

theorem after_conclude (r : Except SysError α) (n : Machine) :
  after (conclude r) n = n
  := by
  cases r with
  | ok a => rfl
  | error e => rfl

/-! ### The whole excursion -/

/-- An excursion whose target is not entered ends there. -/
theorem withVmcs_of_enter_error (he : enter target m = .error e n) :
  withVmcs target body m = .error e n
  := by
  change (enter target >>= fun _ => _ : SysM α) m = _
  rw [bind_of_error he]

/-- An excursion whose target is entered ends with the way back. -/
theorem withVmcs_eq (hu : enter target m = .ok () u)
    (hb : outcome (onVCpu target body) u = .ok r n) :
  withVmcs target body m = (restore target m.loaded >>= fun _ => conclude r) n
  := by
  change (enter target >>= fun _ => outcome (onVCpu target body) >>= fun result =>
    restore target m.loaded >>= fun _ => conclude result : SysM α) m = _
  rw [bind_of_ok hu, bind_of_ok hb]

/-- An excursion that has an ending of the list ends so. -/
theorem Excursion.eq {x : EStateM.Result SysError Machine α} (h : Excursion target body m x)
    (ha : m.Agrees) :
  withVmcs target body m = x
  := by
  cases h with
  | unknown hc =>
      have hl : m.loaded ≠ some target := by
        intro hl
        obtain ⟨c, hc'⟩ := isRegistered_iff_vcpu?.mp (ha target hl).1
        rw [hc] at hc'
        exact absurd hc' (Option.some_ne_none c).symm
      exact withVmcs_of_enter_error ((enter_of_not_loaded hl).trans (load_of_none hc))
  | refused hl hc he =>
      exact withVmcs_of_enter_error ((enter_of_not_loaded hl).trans (load_of_fault hc he))
  | stayed hl hu hv =>
      rw [withVmcs_eq hu.eq_ok hv.outcome_eq, bind_of_ok (restore_of_forall_eq hl)]
  | returned hl hp hu hv hd he =>
      have hreg := isRegistered_iff_vcpu?.mpr ⟨_, hd⟩
      rw [withVmcs_eq hu.eq_ok hv.outcome_eq, hl,
        bind_of_ok ((restore_of_ne hp hreg).trans (load_eq hd he))]
  | stranded hl hp hu hv hd he =>
      have hreg := isRegistered_iff_vcpu?.mpr ⟨_, hd⟩
      rw [withVmcs_eq hu.eq_ok hv.outcome_eq, hl,
        bind_of_error ((restore_of_ne hp hreg).trans (load_of_fault hd he))]

/-- An excursion whose target is entered has one of the last three endings. -/
theorem exists_excursion_of_entered (h : m.Agrees) (hr : m.isRegistered target = true)
    (hu : m.Entered target u) (body : VcpuM α) :
  ∃ x, Excursion target body m x
  := by
  obtain ⟨hl, hcur⟩ := hu.holds h
  obtain ⟨r, n, hv⟩ := exists_visit hl hcur ((hu.isRegistered target).trans hr) body
  by_cases hprev : ∀ p, m.loaded = some p → p = target
  · exact ⟨_, .stayed hprev hu hv⟩
  · obtain ⟨p, hp⟩ := Classical.not_forall.mp hprev
    obtain ⟨hl, hp⟩ := Classical.not_imp.mp hp
    -- Nobody has been removed on the way, so there is always a processor to go back to.
    have hreg : n.isRegistered p = true := by
      rw [hv.isRegistered, hu.isRegistered, (h p hl).1]
    obtain ⟨d, hd⟩ := isRegistered_iff_vcpu?.mp hreg
    cases he : d.loadFault? with
    | none => exact ⟨_, .returned hl hp hu hv hd he⟩
    | some e => exact ⟨_, .stranded hl hp hu hv hd he⟩

/-- Every excursion has an ending of the list. -/
theorem exists_excursion (h : m.Agrees) (target : Vpid) (body : VcpuM α) :
  ∃ x, Excursion target body m x
  := by
  cases hc : m.vcpu? target with
  | none => exact ⟨_, .unknown hc⟩
  | some c =>
      have hreg : m.isRegistered target = true := isRegistered_iff_vcpu?.mpr ⟨c, hc⟩
      by_cases hl : m.loaded = some target
      · exact exists_excursion_of_entered h hreg (.already hl) body
      · cases he : c.loadFault? with
        | none => exact exists_excursion_of_entered h hreg (.anew hl hc he) body
        | some e => exact ⟨_, .refused hl hc he⟩

/-- An excursion that starts with a processor loaded ends with one loaded. -/
theorem Excursion.loaded_ne_none {x : SysM α} (h : Excursion target body m (x m))
    (hl : m.loaded ≠ none) :
  (after x m).loaded ≠ none
  := by
  rw [after]
  generalize x m = y at h
  cases h with
  | unknown => exact hl
  | refused => exact hl
  | @stayed u n r _ _ hv =>
      change (after (conclude r) n).loaded ≠ none
      rw [after_conclude, hv.loaded_eq]
      exact Option.some_ne_none target
  | @returned u n r p =>
      change (after (conclude r) (n.withLoaded p)).loaded ≠ none
      rw [after_conclude]
      exact Option.some_ne_none p
  | @stranded u n _ p _ _ _ _ _ hv =>
      change n.loaded ≠ none
      rw [hv.loaded_eq]
      exact Option.some_ne_none target

/-- A program that is run on a target by way of an excursion is run once, with the target loaded
and its control structure held by the hardware, unless the target is unknown or cannot be
loaded.  Afterwards the processor that was loaded before is loaded again and the outcome is the
one of the program, unless that processor cannot be loaded again.  Whichever way it ends, a
processor is loaded if one was loaded before. -/
theorem excursion (h : m.Agrees) (target : Vpid) (body : VcpuM α) :
  (∀ x, withVmcs target body m = x ↔ Excursion target body m x) ∧
    (m.loaded ≠ none → (after (withVmcs target body) m).loaded ≠ none)
  := by
  obtain ⟨y, hy⟩ := exists_excursion h target body
  have hexc : Excursion target body m (withVmcs target body m) := by
    rw [hy.eq h]
    exact hy
  refine ⟨?_, hexc.loaded_ne_none⟩
  intro x
  constructor
  · rintro rfl
    exact hexc
  · intro hx
    exact hx.eq h

/-- The processor 1 can be loaded once only.  A program on 2 that fails when it has written a
field is run while 1 is loaded: 1 cannot be loaded again, so the outcome is the error of loading
and not the one of the program, and 2 stays loaded. -/
theorem excursion_of_no_return :
  let c : VCpu := { faults := { load := FaultPlan.failing .io 1 none } }
  let m : Machine := (Operation.load 1).run ((Operation.add 2 {}).run ((Operation.add 1 c).run {}))
  let body : VcpuM Unit := do
    VcpuM.vmwrite 0x4002 0x8000
    throw .noMemory
  m.Agrees ∧ ∃ n, withVmcs 2 body m = .error .io n ∧ n.loaded = some 2 ∧ n.current = some 2 ∧
    (n.vcpu? 2).map (·.vmcs.read 0x4002) = some 0x8000
  := by
  intro c m body
  have hnew : ({} : Machine).Agrees := agrees_of_loaded rfl
  have ha : m.Agrees := ((hnew.run _).run _).run _
  have hu : m.Entered 2 (m.withLoaded 2) := .anew (by decide) (c := {}) rfl rfl
  have hv : Visit 2 body (m.withLoaded 2) (.error .noMemory) _ :=
    visit_of_conclusion (c := ({} : VCpu).attempted .load) rfl rfl rfl rfl
  have hback : Excursion 2 body m _ :=
    .stranded (p := 1) (by decide) (by decide) hu hv rfl rfl
  refine ⟨ha, _, ((excursion ha 2 body).1 _).mpr hback, rfl, rfl, ?_⟩
  decide +kernel

end Machine

end ExitRelay
