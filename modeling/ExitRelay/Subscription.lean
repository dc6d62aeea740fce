import ExitRelay.Machine.Switch

/-!
# Subscribing to exits

A listener subscribes to the exits of a target by switching an exiting control of the target
on, and ends the subscription by switching it off.  `setControls` switches the controls of
one field, from the lowest bit up; when a listener set refuses the change, what has been done
so far stays done.  It goes along the bits that are selected, which is the same as going
along the controls of the field (`setControls_eq`).  `readField` and `writeControls` are the
two hypercalls about the fields of a target.
-/

namespace ExitRelay.Machine

/-- Switches a control of a target on and makes the caller a listener for its exits. -/
def subscribe (caller target : Vpid) (control : Control) : CallM Unit := do
  withVmcs target control.enable
  note (.enabled control target)
  let refused ← onBroker target fun b =>
    let (refused, registry) := b.registry.subscribe control.exit caller
    (refused, { b with registry })
  match refused with
  | none => pure ()
  | some reason =>
    note (.alreadyListening caller reason)
    throw .invalidExitAlreadyListening

/-- Takes an event that a control of the target caused from the caller, to whom it is still
pending, and lets the target run again.  Events of other processors stay pending. -/
def settlePending (caller target : Vpid) (control : Control) : SysM Unit := do
  let b ← broker caller
  match b.pending.front? with
  | none => pure ()
  | some e =>
    if e.origin = target ∧ control.covers e.reason then
      modifyBroker caller fun b => { b with pending := b.pending.pop.2 }
      note (.stillPending e.reason e.origin)
      withVmcs e.origin do
        control.runFallback
        VcpuM.resume
    else pure ()

/-- Switches a control of a target off and makes the caller no listener for its exits. -/
def unsubscribe (caller target : Vpid) (control : Control) : CallM Unit := do
  withVmcs target control.disable
  note (.disabled control target)
  settlePending caller target control
  let refused ← onBroker target fun b =>
    let (refused, registry) := b.registry.unsubscribe control.exit caller
    (refused, { b with registry })
  match refused with
  | none => pure ()
  | some reason =>
    note (.notListening caller reason)
    throw .invalidExitNoListener

/-- Switches the control at a bit of a field on or off as the value says. -/
def switchBit (caller target : Vpid) (field : ControlField) (value : UInt64) (i : Nat) :
    CallM Unit :=
  match field.controlAt? i with
  | none => throw .invalidParams4
  | some control =>
    if Word.bit value i then subscribe caller target control
    else unsubscribe caller target control

/-- Switches the controls at several bits of a field in turn; the first failure ends it. -/
def switchBits (caller target : Vpid) (field : ControlField) (value : UInt64) :
    List Nat → CallM Unit
  | [] => pure ()
  | i :: is => do
    switchBit caller target field value i
    switchBits caller target field value is

/-- Switches a control on or off as the value says, if the mask selects it. -/
def switchControl (caller target : Vpid) (mask value : UInt64) (control : Control) :
    CallM Unit :=
  if Word.bit mask control.position then
    if Word.bit value control.position then subscribe caller target control
    else unsubscribe caller target control
  else pure ()

/-- Switches several controls in turn; the first failure ends it. -/
def switchControls (caller target : Vpid) (mask value : UInt64) : List Control → CallM Unit
  | [] => pure ()
  | control :: controls => do
    switchControl caller target mask value control
    switchControls caller target mask value controls

/-- Notes each bit that may not be changed. -/
def noteDenied (field : ControlField) : List Nat → SysM Unit
  | [] => pure ()
  | i :: is => do
    note (.denied i field)
    noteDenied field is

/-- Switches the controls of a target that `r14` of the caller selects on or off as `r13`
says, and returns what the field held before. -/
def setControls (caller target : Vpid) (field : ControlField) : CallM UInt64 := do
  let regs ← registers caller
  let denied := regs.r14 &&& ~~~field.allowance
  if denied = 0 then
    let old ← withVmcs target (VcpuM.vmread field.encoding)
    switchBits caller target field regs.r13 (Word.bits regs.r14)
    pure old
  else
    noteDenied field (Word.bits denied)
    throw .invalidParams4

/-- The control at the position of a bit is found by the bit. -/
theorem switchBit_of_controlAt? {caller target : Vpid} {field : ControlField} {value : UInt64}
    {i : Nat} {control : Control} (h : field.controlAt? i = some control) :
  switchBit caller target field value i =
    if Word.bit value control.position then subscribe caller target control
    else unsubscribe caller target control
  := by
  rw [switchBit, h, ControlField.position_of_controlAt? h]

/-- Where the mask selects controls only, it is the same to go along its bits and to go along
the controls. -/
theorem switchBits_filter {caller target : Vpid} {field : ControlField} {mask value : UInt64}
    {is : List Nat} (h : ∀ i ∈ is, Word.bit mask i = true → (field.controlAt? i).isSome) :
  switchBits caller target field value (is.filter (Word.bit mask)) =
    switchControls caller target mask value (is.filterMap field.controlAt?)
  := by
  induction is with
  | nil => rfl
  | cons i is ih =>
      have ih := ih fun j hj => h j (List.mem_cons_of_mem i hj)
      cases hc : field.controlAt? i with
      | none =>
          have hi : ¬ Word.bit mask i = true := by
            intro hi
            have hsome := h i List.mem_cons_self hi
            rw [hc] at hsome
            exact absurd hsome Bool.false_ne_true
          rw [List.filter_cons_of_neg hi, List.filterMap_cons_none hc, ih]
      | some control =>
          obtain rfl := ControlField.position_of_controlAt? hc
          rw [List.filterMap_cons_some hc, switchControls, switchControl]
          by_cases hi : Word.bit mask control.position = true
          · rw [List.filter_cons_of_pos hi, switchBits, switchBit_of_controlAt? hc, if_pos hi, ih]
          · rw [List.filter_cons_of_neg hi, if_neg hi, ih]
            rfl

theorem switchBits_bits {caller target : Vpid} {field : ControlField} {mask value : UInt64}
    (h : mask &&& ~~~field.allowance = 0) :
  switchBits caller target field value (Word.bits mask) =
    switchControls caller target mask value field.controls
  := by
  rw [Word.bits, ← field.filterMap_controlAt?]
  apply switchBits_filter
  intro i hi hbit
  have hlt : i < 64 := List.mem_range.mp hi
  rw [← ControlField.bit_allowance hlt]
  exact Word.and_not_eq_zero_iff.mp h i hlt hbit

/-- A request goes along the controls of its field. -/
theorem setControls_eq (caller target : Vpid) (field : ControlField) :
  setControls caller target field = (do
    let regs ← registers caller
    let denied := regs.r14 &&& ~~~field.allowance
    if denied = 0 then
      let old ← withVmcs target (VcpuM.vmread field.encoding)
      switchControls caller target regs.r14 regs.r13 field.controls
      pure old
    else
      noteDenied field (Word.bits denied)
      throw .invalidParams4)
  := by
  rw [setControls]
  apply bind_congr
  intro regs
  simp only
  split
  · rename_i h
    rw [switchBits_bits h]
  · rfl

/-- The processor that the argument of a call names as its target. -/
def target (caller argument : Vpid) : CallM Vpid := do
  if argument = Vpid.self then throw .invalidParams1
  else if argument = Vpid.parent then
    match ← parentOf caller with
    | some parent => pure parent
    | none => throw .invalidParams1
  else if ← contains argument then pure argument
  else throw .invalidParams1

/-- The call that reads the field `r12` of the processor `r11` into `r10`. -/
def readField (caller : Vpid) : CallM Unit := do
  let regs ← registers caller
  let target ← target caller regs.r11
  if regs.r12.toNat < 0x1_0000_0000 then
    let value ← withVmcs target (VcpuM.vmread regs.r12.toUInt32)
    succeed caller fun regs => { regs with r10 := value }
  else throw .invalidParams2

/-- Notes the failure of a change of controls. -/
def notingFailure {α : Type} (field : ControlField) (x : CallM α) : CallM α := fun m =>
  match x m with
  | .ok a m' => .ok a m'
  | .error status m' =>
    .error status { m' with journal := m'.journal.note (.controlFailed field status) }

/-- The call that switches controls of the processor `r11` in the field `r12`.  What the
field held before is returned in `r10`, and the broker of the caller keeps the privilege
level that the call was made at. -/
def writeControls (caller : Vpid) : CallM Unit := do
  let cpl ← onVCpu caller VcpuM.privilegeLevel
  modifyBroker caller fun b => { b with cpl }
  let regs ← registers caller
  let target ← target caller regs.r11
  match ControlField.ofEncoding? regs.r12 with
  | none =>
    note (.unknownField regs.r12)
    throw .invalidParams2
  | some field =>
    let old ← notingFailure field (setControls caller target field)
    succeed caller fun regs => { regs with r10 := old }

end ExitRelay.Machine
