/-
The hart (`cpu.go`, type `CPU`): registers, CSRs, reservation, counters, guest memory and the optional software TLB,
with the small helpers of the interpreter.

`Notes` is left out: the run loops take the chain as an argument.
-/
import RiscvEmu.GuestMemory

namespace RiscvEmu

/-- `PrivilegeMode` is a byte in the source: 0 user, 1 supervisor, 3 machine -/
abbrev PrivilegeMode := BitVec 8

def privUser : PrivilegeMode := 0
def privSupervisor : PrivilegeMode := 1
def privMachine : PrivilegeMode := 3

/-! ## Status bits -/

def statusSIE : BitVec 64 := 1#64 <<< 1
def statusMIE : BitVec 64 := 1#64 <<< 3
def statusSPIE : BitVec 64 := 1#64 <<< 5
def statusMPIE : BitVec 64 := 1#64 <<< 7
def statusSPP : BitVec 64 := 1#64 <<< 8
def statusMPP : BitVec 64 := 3#64 <<< 11
def statusFS : BitVec 64 := 3#64 <<< 13
def statusXS : BitVec 64 := 3#64 <<< 15
def statusMPRV : BitVec 64 := 1#64 <<< 17
def statusSUM : BitVec 64 := 1#64 <<< 18
def statusMXR : BitVec 64 := 1#64 <<< 19
def statusTVM : BitVec 64 := 1#64 <<< 20
def statusTW : BitVec 64 := 1#64 <<< 21
def statusTSR : BitVec 64 := 1#64 <<< 22
def statusUXL : BitVec 64 := 3#64 <<< 32
def statusSD : BitVec 64 := 1#64 <<< 63

def sstatusMask : BitVec 64 :=
  statusSIE ||| statusSPIE ||| statusSPP ||| statusFS ||| statusXS ||| statusSUM ||| statusMXR ||| statusUXL
def sstatusReadable : BitVec 64 := sstatusMask ||| statusSD
def mstatusWritable : BitVec 64 :=
  sstatusMask ||| statusMIE ||| statusMPIE ||| statusMPRV ||| statusMPP ||| statusTVM ||| statusTW ||| statusTSR

def mipSSIP : BitVec 64 := 1#64 <<< 1
def mipMSIP : BitVec 64 := 1#64 <<< 3
def mipSTIP : BitVec 64 := 1#64 <<< 5
def mipMTIP : BitVec 64 := 1#64 <<< 7
def mipSEIP : BitVec 64 := 1#64 <<< 9
def mipMEIP : BitVec 64 := 1#64 <<< 11

def supervisorIPMask : BitVec 64 := mipSSIP ||| mipSTIP ||| mipSEIP
def machineIPMask : BitVec 64 := supervisorIPMask ||| mipMSIP ||| mipMTIP ||| mipMEIP
def counterCSRMask : BitVec 64 := 7
def implementedMideleg : BitVec 64 := supervisorIPMask
def implementedMedeleg : BitVec 64 := 0x000000000004b109
def implementedMieMask : BitVec 64 := machineIPMask
def implementedSieMask : BitVec 64 := supervisorIPMask
def implementedMipMask : BitVec 64 := mipSSIP ||| mipMSIP ||| mipSEIP ||| mipMEIP
def implementedSipMask : BitVec 64 := mipSSIP ||| mipSEIP

/-- Go's `a &^ b` -/
def andNot {w : Nat} (a b : BitVec w) : BitVec w := a &&& ~~~ b

/-- the value `mstatus` takes when `val` is written over `old` -/
def sanitizeMstatus (old val : BitVec 64) : BitVec 64 :=
  let next := andNot old (mstatusWritable ||| statusSD) ||| (val &&& mstatusWritable)
  let next := if next &&& statusMPP = 2#64 <<< 11 then andNot next statusMPP else next
  if next &&& statusFS = statusFS ∨ next &&& statusXS = statusXS then next ||| statusSD else next

/-! ## The hart -/

/-- a software-TLB entry; `hostBase` is the slab offset the entry maps to -/
structure TlbEntry where
  tag : BitVec 64
  mask : BitVec 64
  paddrBase : BitVec 64
  hostBase : BitVec 64
  perms : BitVec 8
  valid : Bool
  direct : Bool
  mmio : Bool
deriving DecidableEq, Repr

/-- the three direct-mapped software TLBs -/
structure Mmu where
  loadTLB : BitVec 9 → TlbEntry
  storeTLB : BitVec 9 → TlbEntry
  fetchTLB : BitVec 9 → TlbEntry

/-- the trap, delegation, interrupt and counter CSRs -/
structure CsrFile where
  mtvec : BitVec 64
  mscratch : BitVec 64
  mepc : BitVec 64
  mcause : BitVec 64
  mtval : BitVec 64
  stvec : BitVec 64
  sscratch : BitVec 64
  sepc : BitVec 64
  scause : BitVec 64
  stval : BitVec 64
  medeleg : BitVec 64
  mideleg : BitVec 64
  mie : BitVec 64
  mip : BitVec 64
  sie : BitVec 64
  sip : BitVec 64
  mcounteren : BitVec 64
  scounteren : BitVec 64
  menvcfg : BitVec 64
  mcountinh : BitVec 64
  stimecmp : BitVec 64
  stip : Bool
deriving DecidableEq, Repr, Inhabited

structure Cpu where
  mem : GuestMemory
  pc : BitVec 64
  x : BitVec 5 → BitVec 64
  f : BitVec 5 → BitVec 64
  fcsr : BitVec 32
  riscvInstrBegun : BitVec 64
  riscvInstrRetired : BitVec 64
  wfi : Bool
  lastTrapCause : BitVec 64
  lastTrapInsnLen : BitVec 8
  priv : PrivilegeMode
  mmu : Option Mmu
  resvAddr : BitVec 64
  resvValid : Bool
  watchAddr : BitVec 64
  mstatus : BitVec 64
  satp : BitVec 64
  csr : CsrFile
  strictCSR : Bool
  exitCode : BitVec 64

def newCPU (mem : GuestMemory) : Cpu :=
  { mem := mem, pc := 0, x := fun _ => 0, f := fun _ => 0, fcsr := 0, riscvInstrBegun := 0, riscvInstrRetired := 0
    wfi := false, lastTrapCause := 0, lastTrapInsnLen := 0, priv := privUser, mmu := none, resvAddr := 0
    resvValid := false, watchAddr := 0, mstatus := sanitizeMstatus 0 statusFS, satp := 0
    csr := { (default : CsrFile) with
      mcounteren := counterCSRMask, scounteren := counterCSRMask, stimecmp := BitVec.allOnes 64 }
    strictCSR := false, exitCode := 0 }

/-- what a step may return instead of success -/
inductive StepError
  | ecall
  | ebreak
  | illegalInstruction
  | memFault (f : MemFault)
deriving DecidableEq, Repr

/-- interpreter code: changes the hart, may end with a step error -/
abbrev Step := Exec Cpu StepError

abbrev MemOp := Exec Cpu MemFault

/-- the errors of a memory helper are returned as they are -/
def MemOp.lift {α : Type} (m : MemOp α) : Step α := Exec.mapErr StepError.memFault m

def illegal {α : Type} : Step α := Exec.fail .illegalInstruction

namespace Cpu

variable (c : Cpu)

/-- write a register and hold `x0` at zero -/
def setReg (r : BitVec 5) (v : BitVec 64) : Cpu :=
  { c with x := fun i => if i = 0 then 0 else if i = r then v else c.x i }

def setFReg (r : BitVec 5) (v : BitVec 64) : Cpu :=
  { c with f := fun i => if i = r then v else c.f i }

def fpEnabled : Bool := c.mstatus &&& statusFS ≠ 0

def markFPDirty : Cpu := { c with mstatus := sanitizeMstatus c.mstatus (c.mstatus ||| statusFS) }

def orFcsr (fl : BitVec 32) : Cpu := { c with fcsr := c.fcsr ||| fl }

/-- take (`LR`) or give up (`SC`, AMO) the reservation -/
def setResv (addr : BitVec 64) : Cpu := { c with resvAddr := addr, resvValid := true }
def dropResv : Cpu := { c with resvValid := false }

def setTrap (cause : BitVec 64) (insnLen : BitVec 8) : Cpu :=
  { c with lastTrapCause := cause, lastTrapInsnLen := insnLen }

def setWfi (w : Bool) : Cpu := { c with wfi := w }

theorem eq_setWfi : c = c.setWfi c.wfi := rfl

/-- the end of an instruction: go to `target` and count the retirement -/
def finish (target : BitVec 64) : Cpu :=
  { c with pc := target, riscvInstrRetired := c.riscvInstrRetired + 1 }

end Cpu

end RiscvEmu
