/-
CSR access, traps and privilege changes of the hart (`cpu.go`, and the timer helpers of `machine_interrupt.go`).

`readCSR` and `writeCSR` return `none`, resp. `false`, where the source asks the caller to raise an illegal
instruction.
-/
import RiscvEmu.Cpu.Mmu

namespace RiscvEmu

def causeIllegalInsn : BitVec 64 := 2
def causeBreakpoint : BitVec 64 := 3
def causeEcallU : BitVec 64 := 8
def causeEcallS : BitVec 64 := 9
def causeEcallM : BitVec 64 := 11
def interruptCauseFlag : BitVec 64 := 1#64 <<< 63

def csrRequiredPrivilege (addr : BitVec 12) : PrivilegeMode := ((addr >>> 8) &&& 3).setWidth 8
def csrIsReadOnly (addr : BitVec 12) : Bool := addr &&& 0xC00 = 0xC00
def csrIsCounter (addr : BitVec 12) : Bool := addr = 0xC00 ∨ addr = 0xC01 ∨ addr = 0xC02
def csrCounterBit (addr : BitVec 12) : BitVec 64 := 1#64 <<< (addr &&& 31).toNat

def misaRV64IMAFDCSU : BitVec 64 :=
  (2#64 <<< 62) ||| ((1#64 <<< 0) ||| (1#64 <<< 2) ||| (1#64 <<< 3) ||| (1#64 <<< 5) ||| (1#64 <<< 8) |||
    (1#64 <<< 12) ||| (1#64 <<< 18) ||| (1#64 <<< 20))

def trapVectorPC (tvec cause : BitVec 64) : BitVec 64 :=
  let base := andNot tvec 3
  if cause &&& interruptCauseFlag = 0 ∨ tvec &&& 3 ≠ 1 then base
  else base + 4 * andNot cause interruptCauseFlag

namespace Cpu

variable (c : Cpu)

def counterCSRAllowed (addr : BitVec 12) : Bool :=
  let bit := csrCounterBit addr
  if c.priv < privMachine ∧ c.csr.mcounteren &&& bit = 0 then false
  else if c.priv < privSupervisor ∧ c.csr.scounteren &&& bit = 0 then false
  else true

def checkCSRAccess (addr : BitVec 12) (write : Bool) : Bool :=
  if c.strictCSR ∧ (csrRequiredPrivilege addr = 2 ∨ c.priv < csrRequiredPrivilege addr) then false
  else if c.strictCSR ∧ write ∧ csrIsReadOnly addr then false
  else if (addr = 0x001 ∨ addr = 0x002 ∨ addr = 0x003) ∧ !c.fpEnabled then false
  else if c.strictCSR ∧ csrIsCounter addr ∧ !c.counterCSRAllowed addr then false
  else true

def timerValue : BitVec 64 :=
  match c.mem.mmio with
  | none => c.riscvInstrBegun
  | some d => d.machineTimerValue d.log

def refreshSupervisorTimerPending : Cpu :=
  { c with csr.stip := c.csr.stimecmp ≠ BitVec.allOnes 64 ∧ c.timerValue ≥ c.csr.stimecmp }

def mipValue : BitVec 64 :=
  if c.csr.stip then andNot c.csr.mip mipSTIP ||| mipSTIP else andNot c.csr.mip mipSTIP

def flushTLB : Cpu := { c with mmu := c.mmu.map Mmu.flush }

def readCSR (addr : BitVec 12) : Option (BitVec 64) :=
  match addr with
  | 0x001 => some ((c.fcsr &&& 0x1F).setWidth 64)
  | 0x002 => some (((c.fcsr >>> 5) &&& 0x7).setWidth 64)
  | 0x003 => some ((c.fcsr &&& 0xFF).setWidth 64)
  | 0x100 => some (c.mstatus &&& sstatusReadable)
  | 0x104 => some (c.csr.sie ||| (c.csr.mie &&& c.csr.mideleg))
  | 0x105 => some c.csr.stvec
  | 0x106 => some c.csr.scounteren
  | 0x140 => some c.csr.sscratch
  | 0x141 => some c.csr.sepc
  | 0x142 => some c.csr.scause
  | 0x143 => some c.csr.stval
  | 0x144 => some (c.csr.sip ||| (c.mipValue &&& c.csr.mideleg))
  | 0x14d => some c.csr.stimecmp
  | 0x180 => some c.satp
  | 0x300 => some c.mstatus
  | 0x301 => some misaRV64IMAFDCSU
  | 0x302 => some c.csr.medeleg
  | 0x303 => some c.csr.mideleg
  | 0x304 => some c.csr.mie
  | 0x305 => some c.csr.mtvec
  | 0x306 => some c.csr.mcounteren
  | 0x30a => some c.csr.menvcfg
  | 0x320 => some c.csr.mcountinh
  | 0x340 => some c.csr.mscratch
  | 0x341 => some c.csr.mepc
  | 0x342 => some c.csr.mcause
  | 0x343 => some c.csr.mtval
  | 0x344 => some c.mipValue
  | 0xC00 => some c.riscvInstrBegun
  | 0xC02 => some c.riscvInstrRetired
  | 0xC01 => some c.timerValue
  | 0xF11 => some 0
  | 0xF12 => some 0
  | 0xF13 => some 0
  | 0xF14 => some 0
  | _ => if c.strictCSR then none else some 0

def writeCSR (addr : BitVec 12) (val : BitVec 64) : Bool × Cpu :=
  match addr with
  | 0x001 => (true, { c with fcsr := andNot c.fcsr 0x1F ||| (val &&& 0x1F).setWidth 32 }.markFPDirty)
  | 0x002 => (true, { c with fcsr := andNot c.fcsr 0xE0 ||| ((val &&& 0x7) <<< 5).setWidth 32 }.markFPDirty)
  | 0x003 => (true, { c with fcsr := (val &&& 0xFF).setWidth 32 }.markFPDirty)
  | 0x100 => (true, { c with
      mstatus := sanitizeMstatus c.mstatus (andNot c.mstatus sstatusMask ||| (val &&& sstatusMask)) })
  | 0x104 => (true, { c with csr.sie := val &&& implementedSieMask })
  | 0x105 => (true, { c with csr.stvec := val })
  | 0x106 => (true, { c with csr.scounteren := val &&& counterCSRMask })
  | 0x140 => (true, { c with csr.sscratch := val })
  | 0x141 => (true, { c with csr.sepc := val })
  | 0x142 => (true, { c with csr.scause := val })
  | 0x143 => (true, { c with csr.stval := val })
  | 0x144 => (true, { c with csr.sip := val &&& implementedSipMask })
  | 0x14d => (true, { c with csr.stimecmp := val }.refreshSupervisorTimerPending)
  | 0x180 =>
    if satpWriteSupported val ∧ c.satp ≠ val then (true, { c with satp := val }.flushTLB) else (true, c)
  | 0x300 => (true, { c with mstatus := sanitizeMstatus c.mstatus val })
  | 0x302 => (true, { c with csr.medeleg := val &&& implementedMedeleg })
  | 0x303 => (true, { c with csr.mideleg := val &&& implementedMideleg })
  | 0x304 => (true, { c with csr.mie := val &&& implementedMieMask })
  | 0x305 => (true, { c with csr.mtvec := val })
  | 0x306 => (true, { c with csr.mcounteren := val &&& counterCSRMask })
  | 0x30a => (true, { c with csr.menvcfg := val })
  | 0x320 => (true, { c with csr.mcountinh := val })
  | 0x340 => (true, { c with csr.mscratch := val })
  | 0x341 => (true, { c with csr.mepc := val })
  | 0x342 => (true, { c with csr.mcause := val })
  | 0x343 => (true, { c with csr.mtval := val })
  | 0x344 => (true, { c with csr.mip := val &&& implementedMipMask })
  -- accepted silently for the riscv-tests reset vector
  | 0x3A0 => (true, c)
  | 0x3B0 => (true, c)
  | 0x744 => (true, c)
  -- the read-only counters and ids fall under the same rule as unknown addresses
  | _ => (!c.strictCSR, c)

/-! ## Traps -/

def shouldDelegateException (cause : BitVec 64) : Bool :=
  c.priv ≠ privMachine ∧ cause < 64 ∧ c.csr.medeleg &&& (1#64 <<< cause.toNat) ≠ 0

def trapToSupervisorAt (pc cause tval : BitVec 64) : Cpu :=
  let sie : Bool := c.mstatus &&& statusSIE ≠ 0
  let s := andNot c.mstatus (statusSIE ||| statusSPIE ||| statusSPP)
  let s := if sie then s ||| statusSPIE else s
  let s := if c.priv = privSupervisor then s ||| statusSPP else s
  { c with mstatus := s, csr := { c.csr with sepc := pc, scause := cause, stval := tval }
           pc := trapVectorPC c.csr.stvec cause, priv := privSupervisor }

/-- `false` leaves the trap to the host (`mtvec = 0` outside strict mode) -/
def trapToMachineAt (pc cause tval : BitVec 64) : Bool × Cpu :=
  if c.csr.mtvec = 0 ∧ !c.strictCSR then (false, c)
  else
    let mie := c.mstatus &&& statusMIE
    let s := andNot c.mstatus (statusMIE ||| statusMPIE ||| statusMPP)
    let s := if mie ≠ 0 then s ||| statusMPIE else s
    let s := s ||| ((c.priv &&& 3).setWidth 64 <<< 11)
    (true, { c with mstatus := s, csr := { c.csr with mepc := pc, mcause := cause, mtval := tval }
                    pc := trapVectorPC c.csr.mtvec cause, priv := privMachine })

def trapToPrivilegedAt (pc cause tval : BitVec 64) (insnLen : BitVec 8) : Bool × Cpu :=
  let c := c.setTrap cause insnLen
  if c.shouldDelegateException cause then (true, c.trapToSupervisorAt pc cause tval)
  else c.trapToMachineAt pc cause tval

theorem trapToPrivilegedAt_false {pc cause tval : BitVec 64} {insnLen : BitVec 8}
    (h : (c.trapToPrivilegedAt pc cause tval insnLen).1 = false) :
    (c.trapToPrivilegedAt pc cause tval insnLen).2 = c.setTrap cause insnLen := by
  unfold trapToPrivilegedAt trapToMachineAt at *
  dsimp only at *
  split_ifs at h ⊢
  rfl

def ecallCause : BitVec 64 :=
  if c.priv = privSupervisor then causeEcallS else if c.priv = privMachine then causeEcallM else causeEcallU

def mret : Cpu :=
  let nextPriv := ((c.mstatus >>> 11) &&& 3).setWidth 8
  let nextPriv := if nextPriv = 2 then privUser else nextPriv
  let mpie := (c.mstatus >>> 7) &&& 1
  let s := andNot c.mstatus ((1#64 <<< 3) ||| (3#64 <<< 11))
  let s := s ||| (mpie <<< 3)
  let s := s ||| (1#64 <<< 7)
  let s := if nextPriv ≠ privMachine then andNot s statusMPRV else s
  { c with mstatus := sanitizeMstatus s s, priv := nextPriv }.finish c.csr.mepc

def sret : Cpu :=
  let nextPriv := if c.mstatus &&& statusSPP ≠ 0 then privSupervisor else privUser
  let spie := c.mstatus &&& statusSPIE
  let s := andNot c.mstatus (statusSIE ||| statusSPIE ||| statusSPP)
  let s := if spie ≠ 0 then s ||| statusSIE else s
  let s := s ||| statusSPIE
  let s := andNot s statusMPRV
  { c with mstatus := sanitizeMstatus s s, priv := nextPriv }.finish c.csr.sepc

end Cpu

end RiscvEmu
