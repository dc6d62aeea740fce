/-!
# Hardware exits

A processor that leaves a guest reports a basic exit reason and a qualification word.
`BasicReason` lists the basic reasons; the codes that are missing from the sequence are
reserved.  `HardwareExit` is what the broker reads of such a report.
-/

namespace ExitRelay

/-- A basic exit reason. -/
inductive BasicReason where
  | exceptionNmi | externalInterrupt | tripleFault | init | sipi | smi | otherSmi
  | interruptWindow | nmiWindow | taskSwitch | cpuid | getsec | hlt | invd | invlpg | rdpmc
  | rdtsc | rsm | vmcall | vmclear | vmlaunch | vmptrld | vmptrst | vmread | vmresume
  | vmwrite | vmoff | vmon | crAccess | drAccess | ioInstruction | msrRead | msrWrite
  | invalidGuestState | msrLoadFail | mwaitInstruction | monitorTrapFlag
  | monitorInstruction | pauseInstruction | mceDuringVmentry | tprBelowThreshold
  | apicAccess | virtualizedEoi | gdtrIdtr | ldtrTr | eptViolation | eptMisconfig | invept
  | rdtscp | preemptionTimer | invvpid | wbinvd | xsetbv | apicWrite | rdrand | invpcid
  | vmfunc | encls | rdseed | pmlFull | xsaves | xrstors
  deriving DecidableEq, Repr

namespace BasicReason

/-- Every basic exit reason, by ascending code. -/
def all : List BasicReason :=
  [.exceptionNmi, .externalInterrupt, .tripleFault, .init, .sipi, .smi, .otherSmi,
    .interruptWindow, .nmiWindow, .taskSwitch, .cpuid, .getsec, .hlt, .invd, .invlpg,
    .rdpmc, .rdtsc, .rsm, .vmcall, .vmclear, .vmlaunch, .vmptrld, .vmptrst, .vmread,
    .vmresume, .vmwrite, .vmoff, .vmon, .crAccess, .drAccess, .ioInstruction, .msrRead,
    .msrWrite, .invalidGuestState, .msrLoadFail, .mwaitInstruction, .monitorTrapFlag,
    .monitorInstruction, .pauseInstruction, .mceDuringVmentry, .tprBelowThreshold,
    .apicAccess, .virtualizedEoi, .gdtrIdtr, .ldtrTr, .eptViolation, .eptMisconfig,
    .invept, .rdtscp, .preemptionTimer, .invvpid, .wbinvd, .xsetbv, .apicWrite, .rdrand,
    .invpcid, .vmfunc, .encls, .rdseed, .pmlFull, .xsaves, .xrstors]

/-- The code that the processor reports. -/
def code : BasicReason → UInt32
  | .exceptionNmi => 0
  | .externalInterrupt => 1
  | .tripleFault => 2
  | .init => 3
  | .sipi => 4
  | .smi => 5
  | .otherSmi => 6
  | .interruptWindow => 7
  | .nmiWindow => 8
  | .taskSwitch => 9
  | .cpuid => 10
  | .getsec => 11
  | .hlt => 12
  | .invd => 13
  | .invlpg => 14
  | .rdpmc => 15
  | .rdtsc => 16
  | .rsm => 17
  | .vmcall => 18
  | .vmclear => 19
  | .vmlaunch => 20
  | .vmptrld => 21
  | .vmptrst => 22
  | .vmread => 23
  | .vmresume => 24
  | .vmwrite => 25
  | .vmoff => 26
  | .vmon => 27
  | .crAccess => 28
  | .drAccess => 29
  | .ioInstruction => 30
  | .msrRead => 31
  | .msrWrite => 32
  | .invalidGuestState => 33
  | .msrLoadFail => 34
  | .mwaitInstruction => 36
  | .monitorTrapFlag => 37
  | .monitorInstruction => 39
  | .pauseInstruction => 40
  | .mceDuringVmentry => 41
  | .tprBelowThreshold => 43
  | .apicAccess => 44
  | .virtualizedEoi => 45
  | .gdtrIdtr => 46
  | .ldtrTr => 47
  | .eptViolation => 48
  | .eptMisconfig => 49
  | .invept => 50
  | .rdtscp => 51
  | .preemptionTimer => 52
  | .invvpid => 53
  | .wbinvd => 54
  | .xsetbv => 55
  | .apicWrite => 56
  | .rdrand => 57
  | .invpcid => 58
  | .vmfunc => 59
  | .encls => 60
  | .rdseed => 61
  | .pmlFull => 62
  | .xsaves => 63
  | .xrstors => 64

/-- The name of a basic exit reason. -/
def name : BasicReason → String
  | .exceptionNmi => "EXCEPTION_NMI"
  | .externalInterrupt => "EXTERNAL_INTERRUPT"
  | .tripleFault => "TRIPLE_FAULT"
  | .init => "INIT"
  | .sipi => "SIPI"
  | .smi => "SMI"
  | .otherSmi => "OTHER_SMI"
  | .interruptWindow => "INTERRUPT_WINDOW"
  | .nmiWindow => "NMI_WINDOW"
  | .taskSwitch => "TASK_SWITCH"
  | .cpuid => "CPUID"
  | .getsec => "GETSEC"
  | .hlt => "HLT"
  | .invd => "INVD"
  | .invlpg => "INVLPG"
  | .rdpmc => "RDPMC"
  | .rdtsc => "RDTSC"
  | .rsm => "RSM"
  | .vmcall => "VMCALL"
  | .vmclear => "VMCLEAR"
  | .vmlaunch => "VMLAUNCH"
  | .vmptrld => "VMPTRLD"
  | .vmptrst => "VMPTRST"
  | .vmread => "VMREAD"
  | .vmresume => "VMRESUME"
  | .vmwrite => "VMWRITE"
  | .vmoff => "VMOFF"
  | .vmon => "VMON"
  | .crAccess => "CR_ACCESS"
  | .drAccess => "DR_ACCESS"
  | .ioInstruction => "IO_INSTRUCTION"
  | .msrRead => "MSR_READ"
  | .msrWrite => "MSR_WRITE"
  | .invalidGuestState => "INVALID_GUEST_STATE"
  | .msrLoadFail => "MSR_LOAD_FAIL"
  | .mwaitInstruction => "MWAIT_INSTRUCTION"
  | .monitorTrapFlag => "MONITOR_TRAP_FLAG"
  | .monitorInstruction => "MONITOR_INSTRUCTION"
  | .pauseInstruction => "PAUSE_INSTRUCTION"
  | .mceDuringVmentry => "MCE_DURING_VMENTRY"
  | .tprBelowThreshold => "TPR_BELOW_THRESHOLD"
  | .apicAccess => "APIC_ACCESS"
  | .virtualizedEoi => "VIRTUALIZED_EOI"
  | .gdtrIdtr => "GDTR_IDTR"
  | .ldtrTr => "LDTR_TR"
  | .eptViolation => "EPT_VIOLATION"
  | .eptMisconfig => "EPT_MISCONFIG"
  | .invept => "INVEPT"
  | .rdtscp => "RDTSCP"
  | .preemptionTimer => "PREEMPTION_TIMER"
  | .invvpid => "INVVPID"
  | .wbinvd => "WBINVD"
  | .xsetbv => "XSETBV"
  | .apicWrite => "APIC_WRITE"
  | .rdrand => "RDRAND"
  | .invpcid => "INVPCID"
  | .vmfunc => "VMFUNC"
  | .encls => "ENCLS"
  | .rdseed => "RDSEED"
  | .pmlFull => "PML_FULL"
  | .xsaves => "XSAVES"
  | .xrstors => "XRSTORS"

/-- The basic exit reason with a code, unless the code is reserved. -/
def ofCode? (n : UInt32) : Option BasicReason :=
  all.find? (·.code = n)

theorem mem_all (r : BasicReason) :
  r ∈ all
  := by
  cases r <;> decide

@[simp]
theorem ofCode?_code (r : BasicReason) :
  ofCode? r.code = some r
  := by
  cases r <;> rfl

theorem code_of_ofCode? {n : UInt32} {r : BasicReason} (h : ofCode? n = some r) :
  r.code = n
  := by
  simpa using List.find?_some h

end BasicReason

/-- An exit of a guest as the processor reports it. -/
structure HardwareExit where
  /-- The guest could not be entered at all. -/
  entryFailure : Bool := false
  reason : BasicReason
  qualification : UInt64 := 0
  deriving DecidableEq, Repr

end ExitRelay
