import ExitRelay.Proofs.Footprint.Exit

/-!
# Operations and runs

What happens to a machine from outside: time passes, guests run, the hardware becomes
faulty, processors are registered and removed, and the programs of the broker are run.
`Run allowed m n` says that operations lead from the machine `m` to the machine `n` which
were allowed in the states that they found.
-/

namespace ExitRelay

/-- Something that happens to a machine.  A program that fails has happened, too. -/
inductive Operation where
  /-- The clock shows another time. -/
  | time (now : UInt64)
  /-- A guest runs and changes its registers and its control structure. -/
  | guest (v : Vpid) (regs : Registers) (vmcs : Vmcs)
  /-- The operations of a processor will fail as the plans say. -/
  | faults (v : Vpid) (plans : Faults)
  | add (v : Vpid) (c : VCpu)
  | remove (v : Vpid)
  | load (v : Vpid)
  | withVmcs (v : Vpid) (body : VcpuM Unit)
  | exit (v : Vpid) (x : HardwareExit)
  | hypercall (v : Vpid)
  | notify (e : ExitEvent)
  | notifyNext (e : ExitEvent)
  | inject (listener : Vpid) (e : ExitEvent)
  | release (origin : Vpid) (advance : Bool)
  | setControls (caller target : Vpid) (field : ControlField)
  | nextExit (caller : Vpid)
  | endOfExit (caller : Vpid)
  | readField (caller : Vpid)
  | writeControls (caller : Vpid)

/-- The machine after an operation. -/
def Operation.run : Operation → Machine → Machine
  | .time now, m => { m with clock := now }
  | .guest v regs vmcs, m => m.mapVCpu v fun c => { c with regs, vmcs }
  | .faults v plans, m => m.mapVCpu v fun c => { c with faults := plans }
  | .add v c, m => after (Machine.add v c) m
  | .remove v, m => after (Machine.remove v) m
  | .load v, m => after (Machine.load v) m
  | .withVmcs v body, m => after (Machine.withVmcs v body) m
  | .exit v x, m => after (Machine.handleExit v x) m
  | .hypercall v, m => after (Machine.handleHypercall v) m
  | .notify e, m => after (Machine.notify e) m
  | .notifyNext e, m => after (Machine.notifyNext e) m
  | .inject l e, m => after (Machine.inject l e) m
  | .release o advance, m => after (Machine.release o advance) m
  | .setControls c t field, m => after (Machine.setControls c t field) m
  | .nextExit c, m => after (Machine.nextExit c) m
  | .endOfExit c, m => after (Machine.endOfExit c) m
  | .readField c, m => after (Machine.readField c) m
  | .writeControls c, m => after (Machine.writeControls c) m

/-- The operation is a program of the broker that neither registers nor removes a processor;
what the body of a `withVmcs` does is not the broker's. -/
def Operation.IsProgram : Operation → Prop
  | .time _ | .guest _ _ _ | .faults _ _ | .add _ _ | .remove _ | .withVmcs _ _ => False
  | _ => True

/-- The processor that makes a hypercall by the operation. -/
def Operation.caller? : Operation → Option Vpid
  | .hypercall v => some v
  | .exit v x => if x.entryFailure = false ∧ x.reason = .vmcall then some v else none
  | _ => none

/-- The handling of an exit or of a hypercall ends in the transfer. -/
def Operation.EndsIn (o : Operation) (m : Machine) (t : Transfer) (n : Machine) : Prop :=
  match o with
  | .exit v x => Machine.handleExit v x m = .ok (some t) n
  | .hypercall v => Machine.handleHypercall v m = .ok (some t) n
  | _ => False

namespace Machine

/-- No processor is registered. -/
def IsNew (m : Machine) : Prop :=
  m.residents = ∅ ∧ m.loaded = none

/-- Operations that were allowed in the states that they found lead from one machine to the
other. -/
def Run (allowed : Machine → Operation → Prop) : Machine → Machine → Prop :=
  Relation.ReflTransGen fun m n => ∃ o, allowed m o ∧ o.run m = n

namespace Run

variable {allowed : Machine → Operation → Prop} {l m n : Machine}

theorem refl (m : Machine) :
  Run allowed m m
  := Relation.ReflTransGen.refl

theorem tail (h : Run allowed l m) {o : Operation} (ho : allowed m o) :
  Run allowed l (o.run m)
  := Relation.ReflTransGen.tail h ⟨o, ho, rfl⟩

/-- What every allowed operation keeps is kept along the run. -/
theorem keeps {I : Machine → Prop} (h : Run allowed m n)
    (hI : ∀ l o, allowed l o → I l → I (o.run l)) (hm : I m) :
  I n
  := by
  induction h with
  | refl => exact hm
  | tail _ ho ih =>
      obtain ⟨o, ho, rfl⟩ := ho
      apply hI _ o ho ih

end Run

variable {m : Machine} {v w : Vpid}

/-! ### Programs of the broker -/

/-- The operation is a hypercall, however it is made. -/
theorem run_of_caller? {o : Operation} (h : o.caller? = some v) :
  o.run m = after (handleHypercall v) m
  := by
  cases o with
  | hypercall w =>
      obtain rfl := Option.some.inj h
      rfl
  | exit w x =>
      rw [Operation.caller?, Option.ite_none_right_eq_some] at h
      obtain ⟨⟨hx, hr⟩, h⟩ := h
      obtain rfl := Option.some.inj h
      rw [Operation.run, handleExit, hx, if_neg Bool.false_ne_true, hr]
      apply after_adaptExcept
  | _ => exact absurd h (Option.some_ne_none v).symm

/-- Every program of the broker walks along some path. -/
theorem Agrees.path_run (h : m.Agrees) {o : Operation} (ho : o.IsProgram) :
  Path Set.univ m (o.run m)
  := by
  have hp := Set.subset_univ Effect.routine
  have hd : ∀ o, Effect.delivery o ⊆ Set.univ := fun _ => Set.subset_univ _
  have hs : ∀ {n : Machine}, n.Agrees → ∀ c t field,
      Walks Set.univ (Machine.setControls c t field) n := fun hn c t field =>
    walks_setControls hp hn.trusts c t field (settleable trivial (Set.subset_univ _))
      fun _ => trivial
  cases o with
  | load v => exact (walks_load hp v).after
  | exit v x =>
      apply (walks_handleExit hp h.aimed x trivial (fun _ _ => trivial) (fun _ _ => trivial)
        (fun _ => hd v) (fun _ _ _ => Set.subset_univ _)).after
  | hypercall v =>
      apply (walks_handleHypercall hp h.aimed trivial (fun _ => trivial)
        (fun _ _ => Set.subset_univ _)).after
  | notify e => exact (walks_notify hp (hd e.origin)).after
  | notifyNext e => exact (walks_notifyNext hp (Set.subset_univ _)).after
  | inject l e => exact (walks_inject hp (Set.subset_univ _) l).after
  | release o advance => exact (walks_release hp (Set.subset_univ _) advance).after
  | setControls c t field => exact (hs h c t field).after
  | nextExit c => exact (walks_nextExit hp (.inr trivial) trivial fun _ => trivial).after
  | endOfExit c =>
      apply (walks_endOfExit hp trivial (fun _ _ => Set.subset_univ _) fun _ => trivial).after
  | readField c => exact (walks_readField hp h.trusts fun _ => trivial).after
  | writeControls c =>
      apply (walks_writeControls hp (.inr trivial) (fun _ => trivial) _).after
      intro target field n hn
      apply hs (hn.agrees h)
  | _ => exact False.elim ho

/-! ### Transfers -/

/-- The transfer that a program hands over. -/
def transfer? {ε : Type} (x : EStateM ε Machine (Option Transfer)) (m : Machine) :
    Option Transfer :=
  match x m with
  | .ok t _ => t
  | .error _ _ => none

theorem eq_ok_of_transfer? {ε : Type} {x : EStateM ε Machine (Option Transfer)}
    {t : Transfer} (h : transfer? x m = some t) :
  x m = .ok (some t) (after x m)
  := by
  rw [transfer?] at h
  rw [after]
  cases hx : x m with
  | ok t' n =>
      rw [hx] at h
      obtain rfl : t' = some t := h
      rfl
  | error e n =>
      rw [hx] at h
      exact absurd h (Option.some_ne_none t).symm

theorem run_of_endsIn {o : Operation} {t : Transfer} (h : o.EndsIn m t n) :
  o.run m = n
  := by
  cases o with
  | exit v x =>
      change handleExit v x m = _ at h
      rw [Operation.run, after, h]
  | hypercall v =>
      change handleHypercall v m = _ at h
      rw [Operation.run, after, h]
  | _ => exact False.elim h

/-- A hypercall ends in its transfer, however it is made. -/
theorem handleHypercall_of_endsIn {o : Operation} {t : Transfer} (hcall : o.caller? = some v)
    (h : o.EndsIn m t n) :
  handleHypercall v m = .ok (some t) n
  := by
  cases o with
  | hypercall w =>
      obtain rfl := Option.some.inj hcall
      exact h
  | exit w x =>
      rw [Operation.caller?, Option.ite_none_right_eq_some] at hcall
      obtain ⟨⟨hx, hr⟩, hcall⟩ := hcall
      obtain rfl := Option.some.inj hcall
      rw [Operation.EndsIn, handleExit, hx, if_neg Bool.false_ne_true, hr] at h
      exact eq_ok_of_adaptExcept h
  | _ => exact absurd hcall (Option.some_ne_none v).symm

theorem endsIn_exit {x : HardwareExit} {t : Transfer}
    (h : transfer? (handleExit v x) m = some t) :
  (Operation.exit v x).EndsIn m t ((Operation.exit v x).run m)
  := eq_ok_of_transfer? h

theorem endsIn_hypercall {t : Transfer} (h : transfer? (handleHypercall v) m = some t) :
  (Operation.hypercall v).EndsIn m t ((Operation.hypercall v).run m)
  := eq_ok_of_transfer? h

/-! ### Registering and removing processors -/

theorem add_of_registered (h : m.isRegistered v = true) (c : VCpu) :
  after (add v c) m = m.withJournal (m.journal.note (.refused .alreadyRegistered))
  := by
  have hx : add v c m =
      .error .alreadyExists (m.withJournal (m.journal.note (.refused .alreadyRegistered))) := by
    rw [add, bind_of_ok contains_eq, if_pos h]
    rfl
  rw [after, hx]

theorem add_eq (h : m.isRegistered v = false) (c : VCpu) :
  after (add v c) m =
    { m with
      residents := m.residents.insert v { vcpu := c }
      journal := m.journal.note (.registered v) }
  := by
  have hx : add v c m = .ok () { m with
      residents := m.residents.insert v { vcpu := c }
      journal := m.journal.note (.registered v) } := by
    rw [add, bind_of_ok contains_eq, if_neg (by rw [h]; exact Bool.false_ne_true)]
    rfl
  rw [after, hx]

@[simp]
theorem loaded_add (c : VCpu) :
  (after (add v c) m).loaded = m.loaded
  := by
  cases hv : m.isRegistered v with
  | true => rw [add_of_registered hv, loaded_withJournal]
  | false => rw [add_eq hv]

@[simp]
theorem current_add (c : VCpu) :
  (after (add v c) m).current = m.current
  := by
  cases hv : m.isRegistered v with
  | true => rw [add_of_registered hv, current_withJournal]
  | false => rw [add_eq hv]

/-- Registering a processor leaves the other ones, and those that are missing, as they are. -/
theorem getElem?_residents_add_of_ne (c : VCpu) (h : w ≠ v) :
  (after (add v c) m).residents[w]? = m.residents[w]?
  := by
  cases hv : m.isRegistered v with
  | true =>
      rw [add_of_registered hv]
      rfl
  | false =>
      rw [add_eq hv]
      simp only [Std.ExtTreeMap.getElem?_insert, Std.compare_eq_iff_eq]
      rw [if_neg h.symm]

/-- Registering a processor changes no registered one. -/
theorem getElem?_residents_add {r : Resident} (c : VCpu) (h : m.residents[w]? = some r) :
  (after (add v c) m).residents[w]? = some r
  := by
  cases hv : m.isRegistered v with
  | true =>
      rw [add_of_registered hv]
      exact h
  | false =>
      rw [getElem?_residents_add_of_ne, h]
      rintro rfl
      rw [Bool.eq_false_iff] at hv
      apply hv
      rw [isRegistered_iff]
      exact ⟨r, h⟩

/-- A processor that is registered anew has a new broker. -/
theorem getElem?_residents_add_self (c : VCpu) (h : m.isRegistered v = false) :
  (after (add v c) m).residents[v]? = some { vcpu := c }
  := by
  rw [add_eq h]
  exact Std.ExtTreeMap.getElem?_insert_self

/-- A processor that is registered has no events, as it had none before. -/
theorem slot_add (c : VCpu) :
  (after (add v c) m).slot w = m.slot w
  := by
  cases hv : m.isRegistered v with
  | true => rw [add_of_registered hv, slot_withJournal]
  | false =>
      by_cases hw : w = v
      · subst w
        rw [slot_of_unregistered hv, slot, broker?, getElem?_residents_add_self c hv]
        rfl
      · apply slot_of_residents (getElem?_residents_add_of_ne c hw)

theorem remove_of_unregistered (h : m.residents[v]? = none) :
  after (remove v) m = m.withJournal (m.journal.note (.refused .unknownVpid))
  := by
  have hx : remove v m = .error .notFound
      (m.withJournal (m.journal.note (.refused .unknownVpid))) := by
    rw [remove, bind_of_error]
    rw [resident_of_none h]
    rfl
  rw [after, hx]

/-- Removing a registered processor takes it out of the table, and it is not loaded
afterwards. -/
theorem remove_eq {r : Resident} (h : m.residents[v]? = some r) :
  ∃ j, after (remove v) m =
    { m with
      residents := m.residents.erase v
      loaded := if m.loaded = some v then none else m.loaded
      journal := j }
  := by
  rw [after, remove, bind_of_ok (resident_eq h)]
  by_cases he : r.broker.pending.isEmpty = true
  · use m.journal
    simp only [noteRemoval, he, if_true]
    rfl
  · use m.journal.note (.removedWithPending v)
    simp only [noteRemoval, he]
    rfl

@[simp]
theorem current_remove :
  (after (remove v) m).current = m.current
  := by
  cases h : m.residents[v]? with
  | none => rw [remove_of_unregistered h, current_withJournal]
  | some r =>
      obtain ⟨j, hj⟩ := remove_eq h
      rw [hj]

/-- A processor that is still loaded after a removal was loaded before, and it is not the
one that has been removed. -/
theorem loaded_remove (h : (after (remove v) m).loaded = some w) :
  m.loaded = some w ∧ (m.isRegistered v = true → w ≠ v)
  := by
  cases hr : m.residents[v]? with
  | none =>
      rw [remove_of_unregistered hr] at h
      refine ⟨h, ?_⟩
      intro hv
      obtain ⟨r, hv⟩ := isRegistered_iff.mp hv
      rw [hr] at hv
      exact absurd hv (Option.some_ne_none r).symm
  | some r =>
      obtain ⟨j, hj⟩ := remove_eq hr
      rw [hj] at h
      simp only at h
      split at h
      · exact absurd h (Option.some_ne_none w).symm
      · rename_i hv
        refine ⟨h, ?_⟩
        rintro - rfl
        apply hv h

theorem getElem?_residents_remove_self :
  (after (remove v) m).residents[v]? = none
  := by
  cases hr : m.residents[v]? with
  | none =>
      rw [remove_of_unregistered hr]
      exact hr
  | some r =>
      obtain ⟨j, hj⟩ := remove_eq hr
      rw [hj]
      exact Std.ExtTreeMap.getElem?_erase_self

/-- Removing a processor changes no other one. -/
theorem getElem?_residents_remove (h : w ≠ v) :
  (after (remove v) m).residents[w]? = m.residents[w]?
  := by
  cases hr : m.residents[v]? with
  | none =>
      rw [remove_of_unregistered hr]
      rfl
  | some r =>
      obtain ⟨j, hj⟩ := remove_eq hr
      rw [hj]
      simp only [Std.ExtTreeMap.getElem?_erase, Std.compare_eq_iff_eq]
      rw [if_neg h.symm]

theorem isRegistered_remove_self :
  (after (remove v) m).isRegistered v = false
  := isRegistered_of_none getElem?_residents_remove_self

/-- Whatever is pending after a removal was pending before. -/
theorem mem_slot_of_remove {e : ExitEvent} (he : e ∈ (after (remove v) m).slot w) :
  e ∈ m.slot w
  := by
  by_cases hw : w = v
  · subst w
    rw [slot_of_unregistered isRegistered_remove_self] at he
    exact absurd he List.not_mem_nil
  · rwa [slot_of_residents (getElem?_residents_remove hw)] at he

/-! ### Agreement of the loaded processor and the hardware -/

theorem IsNew.agrees (h : m.IsNew) :
  m.Agrees
  := agrees_of_loaded h.2

theorem Agrees.add (h : m.Agrees) (v : Vpid) (c : VCpu) :
  (after (add v c) m).Agrees
  := by
  intro w hw
  rw [loaded_add] at hw
  obtain ⟨hr, hc⟩ := h w hw
  obtain ⟨r, hr⟩ := isRegistered_iff.mp hr
  constructor
  · rw [isRegistered_iff]
    exact ⟨r, getElem?_residents_add c hr⟩
  · rw [current_add, hc]

theorem Agrees.remove (h : m.Agrees) (v : Vpid) :
  (after (remove v) m).Agrees
  := by
  intro w hw
  obtain ⟨hw, hne⟩ := loaded_remove hw
  obtain ⟨hr, hc⟩ := h w hw
  have hwv : w ≠ v := by
    rintro rfl
    apply hne hr rfl
  constructor
  · rw [isRegistered_of_residents (getElem?_residents_remove hwv), hr]
  · rw [current_remove, hc]

end Machine

end ExitRelay
