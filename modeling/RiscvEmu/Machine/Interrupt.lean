/-
Interrupts of the BIOS machine (`machine_interrupt.go`).

The board keeps the machine timer and the supervisor's external line; advancing the one and looking at the other are
entries of its log. The answer to `poll` is not zero when the line is asserted. While the hart waits for an interrupt
the host may sleep; how long, and whether something woke it up, is the host's (`HostSleep`).
-/
import RiscvEmu.Note

namespace RiscvEmu

def interruptSSIP : BitVec 64 := 1
def interruptMSIP : BitVec 64 := 3
def interruptSTIP : BitVec 64 := 5
def interruptMTIP : BitVec 64 := 7
def interruptSEIP : BitVec 64 := 9
def interruptMEIP : BitVec 64 := 11

def biosTimerTicksPerInstruction : BitVec 64 := 1
def biosTimerTimebaseHz : BitVec 64 := 10000000
def nanosecondsPerSecond : BitVec 64 := 1000000000

namespace GuestMemory

variable (m : GuestMemory)

def advanceMachineTimer (ticks : BitVec 64) : GuestMemory :=
  { m with mmio := m.mmio.map fun d => { d with log := d.log ++ [.advance ticks] } }

/-- the external line of the board, and memory as the board left it -/
def supervisorExternalInterruptPending : Bool × GuestMemory :=
  match m.mmioAccess .poll with
  | some (.ok v, m') => (v ≠ 0, m')
  | some (.error _, m') => (false, m')
  | none => (false, m)

end GuestMemory

/-- the first of the interrupts, in the order they are served, that is among `pending` -/
def highestPendingInterrupt (pending : BitVec 64) : Option (BitVec 64) :=
  [interruptMEIP, interruptMSIP, interruptMTIP, interruptSEIP, interruptSSIP, interruptSTIP].find? fun irq =>
    pending &&& (1#64 <<< irq.toNat) ≠ 0

def interruptCause (irq : BitVec 64) : BitVec 64 := interruptCauseFlag ||| irq

namespace Cpu

variable (c : Cpu)

/-- the bit of the external line in `mip` follows the board -/
def setExternalPending (pending : Bool) : Cpu :=
  { c with csr.mip := if pending then c.csr.mip ||| mipSEIP else andNot c.csr.mip mipSEIP }

def refreshSupervisorExternalPending : Cpu :=
  let r := c.mem.supervisorExternalInterruptPending
  (c.setMem r.2).setExternalPending r.1

def serviceBiosMachineTimer : Cpu :=
  let c :=
    if c.mem.mmio.isSome then
      let c := c.setMem (c.mem.advanceMachineTimer biosTimerTicksPerInstruction)
      if !c.csr.stip ∧ c.csr.stimecmp ≠ BitVec.allOnes 64 then c.refreshSupervisorTimerPending else c
    else c
  c.refreshSupervisorExternalPending

def pendingMachineInterrupt : Option (BitVec 64) :=
  let pending := andNot (c.mipValue &&& c.csr.mie) c.csr.mideleg
  if pending = 0 then none
  else if c.priv = privMachine ∧ c.mstatus &&& statusMIE = 0 then none
  else highestPendingInterrupt pending

def pendingSupervisorInterrupt : Option (BitVec 64) :=
  if c.priv = privMachine then none
  else
    let pending := (c.mipValue ||| c.csr.sip) &&& (c.csr.mie ||| c.csr.sie) &&& c.csr.mideleg
    if pending = 0 then none
    else if c.priv = privSupervisor ∧ c.mstatus &&& statusSIE = 0 then none
    else highestPendingInterrupt pending

def trapToMachineInterruptAt (pc irq : BitVec 64) : Bool × Cpu := c.trapToMachineAt pc (interruptCause irq) 0

def trapToSupervisorInterruptAt (pc irq : BitVec 64) : Cpu := c.trapToSupervisorAt pc (interruptCause irq) 0

/-- take the highest pending interrupt; `false` when there is none, or when it is left to the host -/
def takePendingBiosInterrupt : Bool × Cpu :=
  let c := c.serviceBiosMachineTimer
  match c.pendingMachineInterrupt with
  | some irq => c.trapToMachineInterruptAt c.pc irq
  | none =>
    match c.pendingSupervisorInterrupt with
    | some irq => (true, c.trapToSupervisorInterruptAt c.pc irq)
    | none => (false, c)

def hasPendingBiosInterrupt : Bool := c.pendingMachineInterrupt.isSome || c.pendingSupervisorInterrupt.isSome

end Cpu

/-! ## Waiting for an interrupt -/

/-- the host's part of a wait: the cap on one sleep in nanoseconds, and what became of a sleep that began with this log:
`none` if it ran to its end, or how long it lasted -/
structure HostSleep where
  biosWFIHostSleepCap : BitVec 64
  sleep : List MmioAccess → BitVec 64 → Option (BitVec 64)
deriving Inhabited

def biosTimerDurationToTicksAllowZero (d : BitVec 64) : BitVec 64 :=
  if d.sle 0 then 0 else d * biosTimerTimebaseHz / nanosecondsPerSecond

def biosTimerDurationToTicks (d : BitVec 64) : BitVec 64 :=
  if d.sle 0 then 0
  else
    let ticks := d * biosTimerTimebaseHz / nanosecondsPerSecond
    if ticks = 0 then 1 else ticks

def biosTimerTicksToDuration (ticks : BitVec 64) : BitVec 64 :=
  if ticks = 0 then 0
  else
    let ns := ticks * nanosecondsPerSecond / biosTimerTimebaseHz
    let maxDuration := (1#64 <<< 63) - 1
    if ns = 0 then 1 else if ns > maxDuration then maxDuration else ns

/-- how long to sleep, and the ticks that pass meanwhile -/
def Cpu.biosWFISleepPlan (c : Cpu) (host : HostSleep) (now : BitVec 64) : BitVec 64 × BitVec 64 :=
  let sleepFor := host.biosWFIHostSleepCap
  let ticks := biosTimerDurationToTicks sleepFor
  if ticks = 0 then (0, 0)
  else if c.csr.stimecmp ≠ BitVec.allOnes 64 then
    if now ≥ c.csr.stimecmp then (0, 0)
    else
      let until_ := c.csr.stimecmp - now
      if until_ < ticks then (biosTimerTicksToDuration until_, until_) else (sleepFor, ticks)
  else (sleepFor, ticks)

/-- the sleep of a hart that waits and has nothing pending -/
def Cpu.biosWFISleep (c : Cpu) (host : HostSleep) : Cpu :=
  match c.mem.mmio with
  | none => c
  | some d =>
    let plan := c.biosWFISleepPlan host (d.machineTimerValue d.log)
    if plan.1.sle 0 ∨ plan.2 = 0 then c
    else
      let ticks :=
        match host.sleep d.log plan.1 with
        | none => plan.2
        | some elapsed =>
          let elapsedTicks := biosTimerDurationToTicksAllowZero elapsed
          if elapsedTicks < plan.2 then elapsedTicks else plan.2
      (c.setMem (c.mem.advanceMachineTimer ticks)).refreshSupervisorTimerPending.refreshSupervisorExternalPending

def Cpu.serviceBiosWFI (c : Cpu) (host : HostSleep) : Cpu :=
  if !c.wfi then c
  else
    let c := (c.setWfi false).refreshSupervisorTimerPending.refreshSupervisorExternalPending
    if c.hasPendingBiosInterrupt then c else c.biosWFISleep host

end RiscvEmu
