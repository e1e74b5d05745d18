/-
The run loop of the BIOS machine (`mmu.go`, `runMachineBudget`).

One turn takes a pending interrupt or executes one instruction; a memory fault or an illegal instruction is delivered
to the guest, every other error goes to the note chain.
-/
import RiscvEmu.Machine.Interrupt

namespace RiscvEmu

def tohostExitCode (v : BitVec 64) : BitVec 64 := if v = 1 then 0 else v

namespace Cpu

variable (c : Cpu)

/-- the exit code that the guest has written to the watched word, if there is one -/
def pollTohost : Option (BitVec 64) × Cpu :=
  if c.watchAddr = 0 then (none, c)
  else
    let r := GuestMemory.load64 c.watchAddr c.mem
    match r.1 with
    | .ok v => (if v ≠ 0 then some (tohostExitCode v) else none, c.setMem r.2)
    | .error _ => (none, c.setMem r.2)

def countBegun : Cpu := { c with riscvInstrBegun := c.riscvInstrBegun + 1 }

/-- deliver a step error to the guest; `false` leaves it to the host -/
def trapMachineError (err : StepError) : Bool × Cpu :=
  match err with
  | .memFault f => c.trapToPrivilegedAt c.pc (faultCauseAndText f).1 f.addr 0
  | .illegalInstruction => c.trapToPrivilegedAt c.pc causeIllegalInsn 0 0
  | _ => (false, c)

end Cpu

section Run

variable (fp : HostFP) (host : HostSleep) (nc : NoteChain)

/-- an error that the guest does not take: the note chain decides -/
def deliverNote (c : Cpu) (err : StepError) : Option (RunBudgetResult × RunError) × Cpu :=
  let d := nc.deliver c (noteFromCPUError c err)
  match d.1 with
  | .handled => (none, d.2)
  | .exit => (some (.exit, .exited d.2.exitCode), d.2)
  | _ => (some (.continue_, .step err), d.2)

/-- one turn of the loop; `none` means that the loop goes on -/
def machineTurn (biosMode : Bool) (c : Cpu) : Option (RunBudgetResult × RunError) × Cpu :=
  let irq := if biosMode then c.takePendingBiosInterrupt else (false, c)
  if irq.1 then (none, irq.2)
  else
    let r := step fp irq.2
    let p := r.2.countBegun.pollTohost
    match p.1, r.1 with
    | some code, _ => (some (.exit, .exited code), p.2)
    | none, .ok _ => (none, if biosMode then p.2.serviceBiosWFI host else p.2)
    | none, .error err =>
      let t := p.2.trapMachineError err
      if t.1 then (none, t.2) else deliverNote nc t.2 err

def machineTurns (biosMode : Bool) : Nat → Cpu → (RunBudgetResult × Option RunError) × Cpu
  | 0, c => ((.expired, none), c)
  | n + 1, c =>
    match machineTurn fp host nc biosMode c with
    | (none, c') => machineTurns biosMode n c'
    | (some (res, err), c') => ((res, some err), c')

def runMachineBudget (biosMode : Bool) (budget : BitVec 64) (c : Cpu) : (RunBudgetResult × Option RunError) × Cpu :=
  machineTurns fp host nc biosMode budget.toNat c

def runBiosMachineBudget (budget : BitVec 64) (c : Cpu) : (RunBudgetResult × Option RunError) × Cpu :=
  runMachineBudget fp host nc true budget c

end Run

end RiscvEmu
