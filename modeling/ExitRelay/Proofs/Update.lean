import ExitRelay.Delivery.Answer
import ExitRelay.Proofs.Ending
import Mathlib.Data.Set.Defs

/-!
# Changes of a machine

The programs change a machine in few ways: they switch to the control structure of a
processor, change the state of a processor or its broker, and write the journal.  Each way
is a function on machines here, with what it does to the parts of a machine that can be
observed.
-/

namespace ExitRelay.Machine

/-- The machine with another journal. -/
def withJournal (m : Machine) (j : Journal) : Machine :=
  { m with journal := j }

/-- The machine with the control structure of a processor loaded. -/
def switchTo (m : Machine) (v : Vpid) : Machine :=
  { m with loaded := some v, current := some v }

/-- The machine with the state of a processor changed. -/
def mapVCpu (m : Machine) (v : Vpid) (f : VCpu → VCpu) : Machine :=
  { m with residents := m.residents.modify v fun r => { r with vcpu := f r.vcpu } }

/-- The machine with the broker of a processor changed. -/
def mapBroker (m : Machine) (v : Vpid) (f : Broker → Broker) : Machine :=
  { m with residents := m.residents.modify v fun r => { r with broker := f r.broker } }

/-- The events pending for a processor. -/
def slot (m : Machine) (v : Vpid) : List ExitEvent :=
  ((m.broker? v).map (·.pending.events)).getD []

/-- The processor is registered, and the scheduler leaves it alone. -/
def isPaused (m : Machine) (v : Vpid) : Bool :=
  (m.vcpu? v).any (·.paused)

/-- The listeners for a reason on a processor. -/
def listeners (m : Machine) (v : Vpid) (reason : ExitReason) : ListenerSet :=
  ((m.broker? v).map (·.registry.get reason)).getD {}

/-- The processor whose control structure is loaded is registered, and the hardware holds
its control structure. -/
def Agrees (m : Machine) : Prop :=
  ∀ v, m.loaded = some v → m.isRegistered v = true ∧ m.current = some v

variable {m : Machine} {v w : Vpid}

/-! ### Observing a changed machine -/

@[simp]
theorem loaded_withJournal (j : Journal) :
  (m.withJournal j).loaded = m.loaded
  := rfl

@[simp]
theorem current_withJournal (j : Journal) :
  (m.withJournal j).current = m.current
  := rfl

@[simp]
theorem vcpu?_withJournal (j : Journal) :
  (m.withJournal j).vcpu? v = m.vcpu? v
  := rfl

@[simp]
theorem broker?_withJournal (j : Journal) :
  (m.withJournal j).broker? v = m.broker? v
  := rfl

@[simp]
theorem isRegistered_withJournal (j : Journal) :
  (m.withJournal j).isRegistered v = m.isRegistered v
  := rfl

@[simp]
theorem loaded_switchTo :
  (m.switchTo v).loaded = some v
  := rfl

@[simp]
theorem current_switchTo :
  (m.switchTo v).current = some v
  := rfl

@[simp]
theorem vcpu?_switchTo :
  (m.switchTo v).vcpu? w = m.vcpu? w
  := rfl

@[simp]
theorem broker?_switchTo :
  (m.switchTo v).broker? w = m.broker? w
  := rfl

@[simp]
theorem isRegistered_switchTo :
  (m.switchTo v).isRegistered w = m.isRegistered w
  := rfl

@[simp]
theorem loaded_mapVCpu (f : VCpu → VCpu) :
  (m.mapVCpu v f).loaded = m.loaded
  := rfl

@[simp]
theorem current_mapVCpu (f : VCpu → VCpu) :
  (m.mapVCpu v f).current = m.current
  := rfl

theorem getElem?_residents_mapVCpu (f : VCpu → VCpu) :
  (m.mapVCpu v f).residents[w]? =
    if w = v then m.residents[w]?.map fun r => { r with vcpu := f r.vcpu } else m.residents[w]?
  := by
  simp only [mapVCpu, Std.ExtTreeMap.getElem?_modify, Std.compare_eq_iff_eq, @eq_comm _ v w]
  split
  · subst w
    rfl
  · rfl

theorem vcpu?_mapVCpu (f : VCpu → VCpu) :
  (m.mapVCpu v f).vcpu? w = if w = v then (m.vcpu? w).map f else m.vcpu? w
  := by
  simp only [vcpu?, getElem?_residents_mapVCpu]
  split
  · rw [Option.map_map, Option.map_map]
    rfl
  · rfl

@[simp]
theorem vcpu?_mapVCpu_self (f : VCpu → VCpu) :
  (m.mapVCpu v f).vcpu? v = (m.vcpu? v).map f
  := by
  rw [vcpu?_mapVCpu, if_pos rfl]

theorem vcpu?_mapVCpu_of_some {c : VCpu} (hc : m.vcpu? v = some c)
    (f : VCpu → VCpu) :
  (m.mapVCpu v f).vcpu? v = some (f c)
  := by
  rw [vcpu?_mapVCpu_self, hc, Option.map_some]

@[simp]
theorem vcpu?_mapVCpu_of_ne (f : VCpu → VCpu) (h : w ≠ v) :
  (m.mapVCpu v f).vcpu? w = m.vcpu? w
  := by
  rw [vcpu?_mapVCpu, if_neg h]

@[simp]
theorem broker?_mapVCpu (f : VCpu → VCpu) :
  (m.mapVCpu v f).broker? w = m.broker? w
  := by
  simp only [broker?, getElem?_residents_mapVCpu]
  split
  · rw [Option.map_map]
    rfl
  · rfl

@[simp]
theorem loaded_mapBroker (f : Broker → Broker) :
  (m.mapBroker v f).loaded = m.loaded
  := rfl

@[simp]
theorem current_mapBroker (f : Broker → Broker) :
  (m.mapBroker v f).current = m.current
  := rfl

theorem getElem?_residents_mapBroker (f : Broker → Broker) :
  (m.mapBroker v f).residents[w]? =
    if w = v then m.residents[w]?.map fun r => { r with broker := f r.broker }
    else m.residents[w]?
  := by
  simp only [mapBroker, Std.ExtTreeMap.getElem?_modify, Std.compare_eq_iff_eq, @eq_comm _ v w]
  split
  · subst w
    rfl
  · rfl

theorem broker?_mapBroker (f : Broker → Broker) :
  (m.mapBroker v f).broker? w = if w = v then (m.broker? w).map f else m.broker? w
  := by
  simp only [broker?, getElem?_residents_mapBroker]
  split
  · rw [Option.map_map, Option.map_map]
    rfl
  · rfl

@[simp]
theorem broker?_mapBroker_self (f : Broker → Broker) :
  (m.mapBroker v f).broker? v = (m.broker? v).map f
  := by
  rw [broker?_mapBroker, if_pos rfl]

theorem broker?_mapBroker_of_some {b : Broker} (hb : m.broker? v = some b)
    (f : Broker → Broker) :
  (m.mapBroker v f).broker? v = some (f b)
  := by
  rw [broker?_mapBroker_self, hb, Option.map_some]

@[simp]
theorem broker?_mapBroker_of_ne (f : Broker → Broker) (h : w ≠ v) :
  (m.mapBroker v f).broker? w = m.broker? w
  := by
  rw [broker?_mapBroker, if_neg h]

/-- What a change of brokers leaves as it is can be observed of every broker. -/
theorem map_broker?_mapBroker {β : Type} {f : Broker → Broker} {g : Broker → β}
    (hf : ∀ b, g (f b) = g b) :
  ((m.mapBroker v f).broker? w).map g = (m.broker? w).map g
  := by
  rw [broker?_mapBroker]
  split
  · rw [Option.map_map]
    apply congrArg (Option.map · (m.broker? w))
    funext b
    apply hf
  · rfl

@[simp]
theorem vcpu?_mapBroker (f : Broker → Broker) :
  (m.mapBroker v f).vcpu? w = m.vcpu? w
  := by
  simp only [vcpu?, getElem?_residents_mapBroker]
  split
  · rw [Option.map_map]
    rfl
  · rfl

@[simp]
theorem isRegistered_mapVCpu (f : VCpu → VCpu) :
  (m.mapVCpu v f).isRegistered w = m.isRegistered w
  := by
  simp only [isRegistered, mapVCpu, Std.ExtTreeMap.contains_modify]

@[simp]
theorem isRegistered_mapBroker (f : Broker → Broker) :
  (m.mapBroker v f).isRegistered w = m.isRegistered w
  := by
  simp only [isRegistered, mapBroker, Std.ExtTreeMap.contains_modify]

/-- Where nothing is loaded there is nothing to agree about. -/
theorem agrees_of_loaded (h : m.loaded = none) :
  m.Agrees
  := by
  intro v hv
  rw [h] at hv
  exact absurd hv (Option.some_ne_none v).symm

theorem Agrees.mapVCpu (h : m.Agrees) (v : Vpid) (f : VCpu → VCpu) :
  (m.mapVCpu v f).Agrees
  := by
  intro w hw
  rw [isRegistered_mapVCpu]
  apply h w hw

theorem Agrees.mapBroker (h : m.Agrees) (v : Vpid) (f : Broker → Broker) :
  (m.mapBroker v f).Agrees
  := by
  intro w hw
  rw [isRegistered_mapBroker]
  apply h w hw

/-! ### Slots, pauses and listeners -/

theorem slot_of_broker? {b : Broker} (hb : m.broker? v = some b) :
  m.slot v = b.pending.events
  := by
  rw [slot, hb]
  rfl

theorem slot_of_residents {n : Machine} (h : n.residents[v]? = m.residents[v]?) :
  n.slot v = m.slot v
  := by
  simp only [slot, broker?, h]

@[simp]
theorem slot_withJournal (j : Journal) :
  (m.withJournal j).slot v = m.slot v
  := rfl

@[simp]
theorem slot_switchTo :
  (m.switchTo v).slot w = m.slot w
  := rfl

@[simp]
theorem slot_mapVCpu (f : VCpu → VCpu) :
  (m.mapVCpu v f).slot w = m.slot w
  := by
  rw [slot, broker?_mapVCpu, slot]

theorem slot_mapBroker_self {b : Broker} (hb : m.broker? v = some b) (f : Broker → Broker) :
  (m.mapBroker v f).slot v = (f b).pending.events
  := by
  apply slot_of_broker?
  apply broker?_mapBroker_of_some hb

theorem slot_mapBroker_of_ne (f : Broker → Broker) (h : w ≠ v) :
  (m.mapBroker v f).slot w = m.slot w
  := by
  rw [slot, broker?_mapBroker_of_ne f h, slot]

/-- A change of a broker that moves no event leaves the slots as they are. -/
theorem slot_mapBroker_of_pending {f : Broker → Broker} (hf : ∀ b, (f b).pending = b.pending) :
  (m.mapBroker v f).slot w = m.slot w
  := by
  rw [slot, map_broker?_mapBroker, slot]
  intro b
  rw [hf]

theorem isPaused_of_vcpu? {c : VCpu} (hc : m.vcpu? v = some c) :
  m.isPaused v = c.paused
  := by
  rw [isPaused, hc, Option.any_some]

theorem isPaused_of_residents {n : Machine} (h : n.residents[v]? = m.residents[v]?) :
  n.isPaused v = m.isPaused v
  := by
  simp only [isPaused, vcpu?, h]

@[simp]
theorem isPaused_withJournal (j : Journal) :
  (m.withJournal j).isPaused v = m.isPaused v
  := rfl

@[simp]
theorem isPaused_switchTo :
  (m.switchTo v).isPaused w = m.isPaused w
  := rfl

@[simp]
theorem isPaused_mapBroker (f : Broker → Broker) :
  (m.mapBroker v f).isPaused w = m.isPaused w
  := by
  rw [isPaused, vcpu?_mapBroker, isPaused]

theorem isPaused_mapVCpu_self {c : VCpu} (hc : m.vcpu? v = some c) (f : VCpu → VCpu) :
  (m.mapVCpu v f).isPaused v = (f c).paused
  := by
  apply isPaused_of_vcpu?
  apply vcpu?_mapVCpu_of_some hc

theorem isPaused_mapVCpu_of_ne (f : VCpu → VCpu) (h : w ≠ v) :
  (m.mapVCpu v f).isPaused w = m.isPaused w
  := by
  rw [isPaused, vcpu?_mapVCpu_of_ne f h, isPaused]

/-- A change of a processor that neither stops it nor lets it go on. -/
theorem isPaused_mapVCpu_of_paused {f : VCpu → VCpu} (hf : ∀ c, (f c).paused = c.paused) :
  (m.mapVCpu v f).isPaused w = m.isPaused w
  := by
  rw [isPaused, isPaused, vcpu?_mapVCpu]
  split
  · rw [Option.any_map]
    apply congrArg (Option.any · (m.vcpu? w))
    funext c
    apply hf
  · rfl

theorem listeners_of_broker? {b : Broker} (hb : m.broker? v = some b) (reason : ExitReason) :
  m.listeners v reason = b.registry.get reason
  := by
  rw [listeners, hb]
  rfl

theorem listeners_of_residents {n : Machine} (h : n.residents[v]? = m.residents[v]?)
    (reason : ExitReason) :
  n.listeners v reason = m.listeners v reason
  := by
  simp only [listeners, broker?, h]

@[simp]
theorem listeners_withJournal (j : Journal) (reason : ExitReason) :
  (m.withJournal j).listeners v reason = m.listeners v reason
  := rfl

@[simp]
theorem listeners_switchTo (reason : ExitReason) :
  (m.switchTo v).listeners w reason = m.listeners w reason
  := rfl

@[simp]
theorem listeners_mapVCpu (f : VCpu → VCpu) (reason : ExitReason) :
  (m.mapVCpu v f).listeners w reason = m.listeners w reason
  := by
  rw [listeners, broker?_mapVCpu, listeners]

theorem listeners_mapBroker_self {b : Broker} (hb : m.broker? v = some b)
    (f : Broker → Broker) (reason : ExitReason) :
  (m.mapBroker v f).listeners v reason = (f b).registry.get reason
  := by
  apply listeners_of_broker?
  apply broker?_mapBroker_of_some hb

theorem listeners_mapBroker_of_ne (f : Broker → Broker) (h : w ≠ v) (reason : ExitReason) :
  (m.mapBroker v f).listeners w reason = m.listeners w reason
  := by
  rw [listeners, broker?_mapBroker_of_ne f h, listeners]

/-- A change of a broker that leaves the set of a reason as it is. -/
theorem listeners_mapBroker_of_get {f : Broker → Broker} {reason : ExitReason}
    (hf : ∀ b, (f b).registry.get reason = b.registry.get reason) :
  (m.mapBroker v f).listeners w reason = m.listeners w reason
  := by
  rw [listeners, map_broker?_mapBroker hf, listeners]

/-- A change of a broker that subscribes nobody and offers nothing. -/
theorem listeners_mapBroker_of_registry {f : Broker → Broker}
    (hf : ∀ b, (f b).registry = b.registry) (reason : ExitReason) :
  (m.mapBroker v f).listeners w reason = m.listeners w reason
  := by
  apply listeners_mapBroker_of_get
  intro b
  rw [hf]

/-! ### The table of processors -/

theorem vcpu?_eq_some_iff {c : VCpu} :
  m.vcpu? v = some c ↔ ∃ b, m.residents[v]? = some ⟨c, b⟩
  := by
  rw [vcpu?, Option.map_eq_some_iff]
  constructor
  · rintro ⟨⟨c, b⟩, h, rfl⟩
    exact ⟨b, h⟩
  · rintro ⟨b, h⟩
    exact ⟨_, h, rfl⟩

theorem broker?_eq_some_iff {b : Broker} :
  m.broker? v = some b ↔ ∃ c, m.residents[v]? = some ⟨c, b⟩
  := by
  rw [broker?, Option.map_eq_some_iff]
  constructor
  · rintro ⟨⟨c, b⟩, h, rfl⟩
    exact ⟨c, h⟩
  · rintro ⟨c, h⟩
    exact ⟨_, h, rfl⟩

theorem isRegistered_iff_vcpu? :
  m.isRegistered v = true ↔ ∃ c, m.vcpu? v = some c
  := by
  rw [isRegistered_iff]
  constructor
  · rintro ⟨r, h⟩
    exact ⟨r.vcpu, vcpu?_eq_some_iff.mpr ⟨r.broker, h⟩⟩
  · rintro ⟨c, h⟩
    obtain ⟨b, h⟩ := vcpu?_eq_some_iff.mp h
    exact ⟨_, h⟩

theorem isRegistered_iff_broker? :
  m.isRegistered v = true ↔ ∃ b, m.broker? v = some b
  := by
  rw [isRegistered_iff]
  constructor
  · rintro ⟨r, h⟩
    exact ⟨r.broker, broker?_eq_some_iff.mpr ⟨r.vcpu, h⟩⟩
  · rintro ⟨b, h⟩
    obtain ⟨c, h⟩ := broker?_eq_some_iff.mp h
    exact ⟨_, h⟩

theorem isRegistered_of_residents {n : Machine} (h : n.residents[v]? = m.residents[v]?) :
  n.isRegistered v = m.isRegistered v
  := by
  rw [Bool.eq_iff_iff, isRegistered_iff, h, ← isRegistered_iff]

theorem isRegistered_of_none (h : m.residents[v]? = none) :
  m.isRegistered v = false
  := by
  rw [← Bool.not_eq_true, isRegistered_iff, h]
  rintro ⟨r, hr⟩
  exact absurd hr (Option.some_ne_none r).symm

theorem slot_of_unregistered (h : m.isRegistered v = false) :
  m.slot v = []
  := by
  cases hb : m.broker? v with
  | none =>
      rw [slot, hb]
      rfl
  | some b =>
      have hv := isRegistered_iff_broker?.mpr ⟨b, hb⟩
      rw [h] at hv
      exact absurd hv Bool.false_ne_true

/-- Two machines with the same processors that agree in everything else are the same. -/
theorem ext_residents {n : Machine} (h : ∀ v : Vpid, m.residents[v]? = n.residents[v]?)
    (hg : m.config = n.config) (hl : m.loaded = n.loaded) (hc : m.current = n.current)
    (ht : m.clock = n.clock) (hj : m.journal = n.journal) :
  m = n
  := by
  cases m
  cases n
  simp only at hg hl hc ht hj
  subst hg hl hc ht hj
  congr 1
  apply Std.ExtTreeMap.ext_getElem?
  intro v
  apply h

/-- The change of a processor depends only on the state that the processor is in. -/
theorem mapVCpu_congr {c : VCpu} {f g : VCpu → VCpu} (hc : m.vcpu? v = some c)
    (h : f c = g c) :
  m.mapVCpu v f = m.mapVCpu v g
  := by
  refine ext_residents ?_ rfl rfl rfl rfl rfl
  intro w
  simp only [getElem?_residents_mapVCpu]
  split
  · subst w
    obtain ⟨b, hr⟩ := vcpu?_eq_some_iff.mp hc
    rw [hr, Option.map_some, Option.map_some, h]
  · rfl

/-- A change that leaves the state of the processor as it is leaves the machine as it is. -/
theorem mapVCpu_eq_self {c : VCpu} {f : VCpu → VCpu} (hc : m.vcpu? v = some c) (h : f c = c) :
  m.mapVCpu v f = m
  := by
  refine ext_residents ?_ rfl rfl rfl rfl rfl
  intro w
  rw [getElem?_residents_mapVCpu]
  split
  · subst w
    obtain ⟨b, hr⟩ := vcpu?_eq_some_iff.mp hc
    rw [hr, Option.map_some, h]
  · rfl

theorem mapVCpu_mapVCpu (f g : VCpu → VCpu) :
  (m.mapVCpu v f).mapVCpu v g = m.mapVCpu v (g ∘ f)
  := by
  refine ext_residents ?_ rfl rfl rfl rfl rfl
  intro w
  simp only [getElem?_residents_mapVCpu]
  split
  · rw [Option.map_map]
    rfl
  · rfl

/-- Changes of processors that commute can be made in either order. -/
theorem mapVCpu_comm {f g : VCpu → VCpu} (h : ∀ c, g (f c) = f (g c)) :
  (m.mapVCpu v f).mapVCpu w g = (m.mapVCpu w g).mapVCpu v f
  := by
  refine ext_residents ?_ rfl rfl rfl rfl rfl
  intro x
  simp only [getElem?_residents_mapVCpu]
  split
  · split
    · rw [Option.map_map, Option.map_map]
      congr 1
      funext r
      exact congrArg (fun c => { r with vcpu := c }) (h r.vcpu)
    · rfl
  · rfl

/-- A processor and a broker can be changed in either order. -/
theorem mapBroker_mapVCpu (f : VCpu → VCpu) (g : Broker → Broker) :
  (m.mapVCpu v f).mapBroker w g = (m.mapBroker w g).mapVCpu v f
  := by
  refine ext_residents ?_ rfl rfl rfl rfl rfl
  intro x
  simp only [getElem?_residents_mapVCpu, getElem?_residents_mapBroker]
  split
  · split
    · rw [Option.map_map, Option.map_map]
      rfl
    · rfl
  · rfl

/-- The change of a broker depends only on the state that the broker is in. -/
theorem mapBroker_congr {b : Broker} {f g : Broker → Broker} (hb : m.broker? v = some b)
    (h : f b = g b) :
  m.mapBroker v f = m.mapBroker v g
  := by
  refine ext_residents ?_ rfl rfl rfl rfl rfl
  intro w
  simp only [getElem?_residents_mapBroker]
  split
  · subst w
    obtain ⟨c, hr⟩ := broker?_eq_some_iff.mp hb
    rw [hr, Option.map_some, Option.map_some, h]
  · rfl

/-- A change that leaves the broker as it is leaves the machine as it is. -/
theorem mapBroker_eq_self {b : Broker} {f : Broker → Broker} (hb : m.broker? v = some b)
    (h : f b = b) :
  m.mapBroker v f = m
  := by
  refine ext_residents ?_ rfl rfl rfl rfl rfl
  intro w
  rw [getElem?_residents_mapBroker]
  split
  · subst w
    obtain ⟨c, hr⟩ := broker?_eq_some_iff.mp hb
    rw [hr, Option.map_some, h]
  · rfl

theorem mapBroker_mapBroker (f g : Broker → Broker) :
  (m.mapBroker v f).mapBroker v g = m.mapBroker v (g ∘ f)
  := by
  refine ext_residents ?_ rfl rfl rfl rfl rfl
  intro w
  simp only [getElem?_residents_mapBroker]
  split
  · rw [Option.map_map]
    rfl
  · rfl

/-- What a program on one processor leaves is a change of the processor and of the journal. -/
theorem adopt_eq {r : Resident} (h : m.residents[v]? = some r) (s : Focus) :
  m.adopt v r s = (m.mapVCpu v fun _ => s.vcpu).withJournal s.journal
  := by
  refine ext_residents ?_ rfl rfl rfl rfl rfl
  intro w
  change _ = (m.mapVCpu v fun _ => s.vcpu).residents[w]?
  rw [getElem?_residents_adopt, getElem?_residents_mapVCpu]
  split
  · subst w
    rw [h]
    rfl
  · rfl

/-! ### Machines that agree on some processors -/

/-- The machines have the same processors with the same brokers under the numbers. -/
def AgreeOn (S : Set Vpid) (m n : Machine) : Prop :=
  ∀ x ∈ S, m.residents[x]? = n.residents[x]?

namespace AgreeOn

variable {n : Machine} {S : Set Vpid} (h : AgreeOn S m n)

include h

theorem vcpu? (hv : v ∈ S) :
  m.vcpu? v = n.vcpu? v
  := by
  rw [Machine.vcpu?, h v hv, Machine.vcpu?]

theorem broker? (hv : v ∈ S) :
  m.broker? v = n.broker? v
  := by
  rw [Machine.broker?, h v hv, Machine.broker?]

theorem switchTo (u : Vpid) :
  AgreeOn S (m.switchTo u) (n.switchTo u)
  := h

/-- The same change of a processor leaves machines that agree still. -/
theorem mapVCpu (u : Vpid) (f : VCpu → VCpu) :
  AgreeOn S (m.mapVCpu u f) (n.mapVCpu u f)
  := by
  intro x hx
  rw [getElem?_residents_mapVCpu, getElem?_residents_mapVCpu, h x hx]

theorem mapBroker (u : Vpid) (f : Broker → Broker) :
  AgreeOn S (m.mapBroker u f) (n.mapBroker u f)
  := by
  intro x hx
  rw [getElem?_residents_mapBroker, getElem?_residents_mapBroker, h x hx]

end AgreeOn

end ExitRelay.Machine
