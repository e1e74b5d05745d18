/-
One instruction through the decoder cache: the arms of `runCachedDualBudget`.

An arm works on guest memory directly (never through the MMU) and on a local `pc`. It ends in one of three ways
(`ArmEnd`): on to the next instruction, with an error that still passes the loop's bookkeeping, or out of the loop at
once (`break inner`). `runArm` is one pass of the loop body with the write-back after it.
-/
import RiscvEmu.Cached.Decode

namespace RiscvEmu

open GuestMemory BitVec

/-- how an arm leaves the megaswitch -/
inductive ArmEnd
  | next (pc : BitVec 64) (inlineRetired : Bool)
  | fail (pc : BitVec 64) (err : StepError)
  | breakInner (err : StepError)
deriving DecidableEq

namespace Cpu

/-- `cpu.x[r] = v` with nothing said about `x0` -/
def putReg (c : Cpu) (r : BitVec 5) (v : BitVec 64) : Cpu :=
  { c with x := fun i => if i = r then v else c.x i }

end Cpu

namespace GuestMemory

/-- the access by its natural alignment, byte by byte if that was refused as misaligned -/
def orBytes {α : Type} (aligned bytewise : Exec GuestMemory MemFault α) : Exec GuestMemory MemFault α :=
  Exec.onError (fun f => f.kind = .misalign) aligned bytewise

def load16M (addr : BitVec 64) : Exec GuestMemory MemFault (BitVec 16) := orBytes (load16 addr) (load16U addr)
def load32M (addr : BitVec 64) : Exec GuestMemory MemFault (BitVec 32) := orBytes (load32 addr) (load32U addr)
def store16M (addr : BitVec 64) (v : BitVec 16) : Exec GuestMemory MemFault Unit :=
  orBytes (store16 addr v) (store16U addr v)
def store32M (addr : BitVec 64) (v : BitVec 32) : Exec GuestMemory MemFault Unit :=
  orBytes (store32 addr v) (store32U addr v)

/-- the test of the inlined doubleword accesses -/
def fastDword (m : GuestMemory) (addr : BitVec 64) : Bool :=
  m.accessOverlay.isNone ∧ m.mmio.isNone ∧ addr &&& 7 = 0 ∧ andNot (addr ||| (addr + 7)) m.mask = 0

/-- the doubleword load of the arms: inline when it cannot fail, byte by byte otherwise -/
def loadDword (addr : BitVec 64) : Exec GuestMemory MemFault (BitVec 64) := fun m =>
  if m.fastDword addr then (.ok (m.bytes.readLe (addr &&& m.mask) 8), m) else load64U addr m

def storeDword (addr v : BitVec 64) : Exec GuestMemory MemFault Unit := fun m =>
  if m.fastDword addr then (.ok (), { m with bytes := m.bytes.writeLe (addr &&& m.mask) 8 v })
  else store64U addr v m

end GuestMemory

/-- an arm: from the slot's `pc` and the hart to the way it ends and the hart -/
abbrev Arm := BitVec 64 → Cpu → ArmEnd × Cpu

/-- go on behind an instruction of length `len` after updating the hart -/
def armStep (len : BitVec 64) (f : BitVec 64 → Cpu → Cpu) : Arm := fun pc c =>
  (.next (pc + len) true, f pc c)

/-- write `rd` and hold `x0` at zero -/
def armSet (len : BitVec 64) (rd : BitVec 5) (v : BitVec 64 → Cpu → BitVec 64) : Arm :=
  armStep len fun pc c => c.setReg rd (v pc c)

def armPut (len : BitVec 64) (rd : BitVec 5) (v : Cpu → BitVec 64) : Arm :=
  armStep len fun _ c => c.putReg rd (v c)

def armIllegal : Arm := fun _ c => (.breakInner .illegalInstruction, c)

/-- a load arm: the value goes through `k` into the hart -/
def armLoad {α : Type} (len : BitVec 64) (addr : Cpu → BitVec 64)
    (acc : BitVec 64 → Exec GuestMemory MemFault α) (k : Cpu → α → Cpu) : Arm := fun pc c =>
  match onMem (acc (addr c)) c with
  | (.ok v, c') => (.next (pc + len) true, k c' v)
  | (.error f, c') => (.breakInner (.memFault f), c')

def armStore (len : BitVec 64) (acc : Cpu → Exec GuestMemory MemFault Unit) : Arm := fun pc c =>
  match onMem (acc c) c with
  | (.ok (), c') => (.next (pc + len) true, c')
  | (.error f, c') => (.breakInner (.memFault f), c')

def armBranch (len : BitVec 64) (off : BitVec 64) (cond : Cpu → Bool) : Arm := fun pc c =>
  (.next (if cond c then pc + off else pc + len) true, c)

/-- `delegateInsn`: the interpreter runs the instruction -/
def armDelegate (fp : HostFP) (slot : DecodedInsn) : Arm := fun pc c =>
  let r := if slot.len = 2 then stepRVC (slot.insn.setWidth 16) { c with pc := pc }
    else stepFromInsn fp slot.insn { c with pc := pc }
  match r with
  | (.ok (), c') => (.next c'.pc false, c')
  | (.error e, c') => (.fail c'.pc e, c')

def armEbreak : Arm := fun pc c =>
  let r := c.trapToPrivilegedAt pc causeBreakpoint 0 2
  if c.priv ≠ privUser ∧ r.1 then (.next r.2.pc false, r.2)
  else if c.priv ≠ privUser then (.fail pc .ebreak, r.2.setTrap causeBreakpoint 2)
  else (.fail pc .ebreak, c.setTrap causeBreakpoint 2)

namespace DecodedInsn

variable (slot : DecodedInsn) (c : Cpu)

/-- the effective address of the memory arms, with base `rs1` or the stack pointer -/
def addr : BitVec 64 := c.x slot.rs1 + slot.imm64
def spAddr : BitVec 64 := c.x 2 + slot.imm64

/-- the operands, and their low words -/
def a : BitVec 64 := c.x slot.rs1
def b : BitVec 64 := c.x slot.rs2
def d : BitVec 64 := c.x slot.rd
def a32 : BitVec 32 := (slot.a c).setWidth 32
def b32 : BitVec 32 := (slot.b c).setWidth 32
def d32 : BitVec 32 := (slot.d c).setWidth 32

/-- the shift amounts the 32-bit arms read from the instruction word -/
def sh6 : Nat := (slot.insn >>> 20 &&& 0x3F).toNat
def sh5 : Nat := (slot.insn >>> 20 &&& 0x1F).toNat

end DecodedInsn

/-- the megaswitch on `slot.op` -/
def arm (fp : HostFP) (slot : DecodedInsn) : Arm :=
  match slot.op with
  -- loads
  | .lb => armLoad 4 slot.addr GuestMemory.load8 fun c v => c.setReg slot.rd (v.signExtend 64)
  | .lh => armLoad 4 slot.addr GuestMemory.load16M fun c v => c.setReg slot.rd (v.signExtend 64)
  | .lw => armLoad 4 slot.addr GuestMemory.load32M fun c v => c.setReg slot.rd (v.signExtend 64)
  | .ld => armLoad 4 slot.addr loadDword fun c v => c.setReg slot.rd v
  | .lbu => armLoad 4 slot.addr GuestMemory.load8 fun c v => c.setReg slot.rd (v.setWidth 64)
  | .lhu => armLoad 4 slot.addr GuestMemory.load16M fun c v => c.setReg slot.rd (v.setWidth 64)
  | .lwu => armLoad 4 slot.addr GuestMemory.load32M fun c v => c.setReg slot.rd (v.setWidth 64)
  -- stores
  | .sb => armStore 4 fun c => GuestMemory.store8 (slot.addr c) ((slot.b c).setWidth 8)
  | .sh => armStore 4 fun c => GuestMemory.store16M (slot.addr c) ((slot.b c).setWidth 16)
  | .sw => armStore 4 fun c => GuestMemory.store32M (slot.addr c) (slot.b32 c)
  | .sd => armStore 4 fun c => storeDword (slot.addr c) (slot.b c)
  -- immediates
  | .fence => armStep 4 fun _ c => c
  | .addi => armSet 4 slot.rd fun _ c => slot.a c + slot.imm64
  | .slti => armSet 4 slot.rd fun _ c => if (slot.a c).slt slot.imm64 then 1 else 0
  | .sltiu => armSet 4 slot.rd fun _ c => if (slot.a c).ult slot.imm64 then 1 else 0
  | .xori => armSet 4 slot.rd fun _ c => slot.a c ^^^ slot.imm64
  | .ori => armSet 4 slot.rd fun _ c => slot.a c ||| slot.imm64
  | .andi => armSet 4 slot.rd fun _ c => slot.a c &&& slot.imm64
  | .slli => armSet 4 slot.rd fun _ c => slot.a c <<< slot.sh6
  | .srli => armSet 4 slot.rd fun _ c => slot.a c >>> slot.sh6
  | .srai => armSet 4 slot.rd fun _ c => (slot.a c).sshiftRight slot.sh6
  | .auipc => armSet 4 slot.rd fun pc _ => pc + slot.imm64
  | .addiw => armSet 4 slot.rd fun _ c => (slot.a32 c + slot.imm).signExtend 64
  | .slliw => armSet 4 slot.rd fun _ c => (slot.a32 c <<< slot.sh5).signExtend 64
  | .srliw => armSet 4 slot.rd fun _ c => (slot.a32 c >>> slot.sh5).signExtend 64
  | .sraiw => armSet 4 slot.rd fun _ c => ((slot.a32 c).sshiftRight slot.sh5).signExtend 64
  | .lui => armSet 4 slot.rd fun _ _ => slot.imm64
  -- register-register
  | .add => armSet 4 slot.rd fun _ c => slot.a c + slot.b c
  | .sll => armSet 4 slot.rd fun _ c => slot.a c <<< (slot.b c &&& 0x3F).toNat
  | .slt => armSet 4 slot.rd fun _ c => if (slot.a c).slt (slot.b c) then 1 else 0
  | .sltu => armSet 4 slot.rd fun _ c => if (slot.a c).ult (slot.b c) then 1 else 0
  | .xor => armSet 4 slot.rd fun _ c => slot.a c ^^^ slot.b c
  | .srl => armSet 4 slot.rd fun _ c => slot.a c >>> (slot.b c &&& 0x3F).toNat
  | .or => armSet 4 slot.rd fun _ c => slot.a c ||| slot.b c
  | .and => armSet 4 slot.rd fun _ c => slot.a c &&& slot.b c
  | .sub => armSet 4 slot.rd fun _ c => slot.a c - slot.b c
  | .sra => armSet 4 slot.rd fun _ c => (slot.a c).sshiftRight (slot.b c &&& 0x3F).toNat
  | .mul => armSet 4 slot.rd fun _ c => slot.a c * slot.b c
  | .mulh => armSet 4 slot.rd fun _ c =>
      let hi := mulHi (slot.a c) (slot.b c)
      let hi := if (slot.a c).slt 0 then hi - slot.b c else hi
      if (slot.b c).slt 0 then hi - slot.a c else hi
  | .mulhsu => armSet 4 slot.rd fun _ c =>
      if (slot.a c).slt 0 then mulHi (slot.a c) (slot.b c) - slot.b c else mulHi (slot.a c) (slot.b c)
  | .mulhu => armSet 4 slot.rd fun _ c => mulHi (slot.a c) (slot.b c)
  | .div => armSet 4 slot.rd fun _ c => divS (slot.a c) (slot.b c)
  | .divu => armSet 4 slot.rd fun _ c => divU (slot.a c) (slot.b c)
  | .rem => armSet 4 slot.rd fun _ c => remS (slot.a c) (slot.b c)
  | .remu => armSet 4 slot.rd fun _ c => remU (slot.a c) (slot.b c)
  | .addw => armSet 4 slot.rd fun _ c => (slot.a32 c + slot.b32 c).signExtend 64
  | .sllw => armSet 4 slot.rd fun _ c => (slot.a32 c <<< (slot.b32 c &&& 0x1F).toNat).signExtend 64
  | .srlw => armSet 4 slot.rd fun _ c => (slot.a32 c >>> (slot.b32 c &&& 0x1F).toNat).signExtend 64
  | .subw => armSet 4 slot.rd fun _ c => (slot.a32 c - slot.b32 c).signExtend 64
  | .sraw => armSet 4 slot.rd fun _ c => ((slot.a32 c).sshiftRight (slot.b32 c &&& 0x1F).toNat).signExtend 64
  | .mulw => armSet 4 slot.rd fun _ c => (slot.a32 c * slot.b32 c).signExtend 64
  -- the word divisions write `^uint64(0)` where the divisor is zero
  | .divw => armSet 4 slot.rd fun _ c =>
      if slot.b32 c = 0 then allOnes 64
      else if slot.a32 c = intMin 32 ∧ slot.b32 c = allOnes 32 then (slot.a32 c).signExtend 64
      else ((slot.a32 c).sdiv (slot.b32 c)).signExtend 64
  | .divuw => armSet 4 slot.rd fun _ c =>
      if slot.b32 c = 0 then allOnes 64 else (slot.a32 c / slot.b32 c).signExtend 64
  | .remw => armSet 4 slot.rd fun _ c =>
      if slot.b32 c = 0 then (slot.a32 c).signExtend 64
      else if slot.a32 c = intMin 32 ∧ slot.b32 c = allOnes 32 then 0
      else ((slot.a32 c).srem (slot.b32 c)).signExtend 64
  | .remuw => armSet 4 slot.rd fun _ c =>
      if slot.b32 c = 0 then (slot.a32 c).signExtend 64 else (slot.a32 c % slot.b32 c).signExtend 64
  -- control flow
  | .beq => armBranch 4 slot.imm64 fun c => slot.a c = slot.b c
  | .bne => armBranch 4 slot.imm64 fun c => slot.a c ≠ slot.b c
  | .blt => armBranch 4 slot.imm64 fun c => (slot.a c).slt (slot.b c)
  | .bge => armBranch 4 slot.imm64 fun c => (slot.b c).sle (slot.a c)
  | .bltu => armBranch 4 slot.imm64 fun c => (slot.a c).ult (slot.b c)
  | .bgeu => armBranch 4 slot.imm64 fun c => (slot.b c).ule (slot.a c)
  | .jalr => fun pc c => (.next (andNot (slot.a c + slot.imm64) 1) true, c.setReg slot.rd (pc + 4))
  | .jal => fun pc c => (.next (pc + slot.imm64) true, c.setReg slot.rd (pc + 4))
  -- compressed classes: most of them write `rd` without restoring `x0`
  | .cADDI4SPN => if slot.imm = 0 then armIllegal else armPut 2 slot.rd fun c => c.x 2 + slot.imm64
  | .cLW => armLoad 2 slot.addr GuestMemory.load32 fun c v => c.putReg slot.rd (v.signExtend 64)
  | .cLD => armLoad 2 slot.addr loadDword fun c v => c.putReg slot.rd v
  | .cSW => armStore 2 fun c => GuestMemory.store32 (slot.addr c) (slot.b32 c)
  | .cSD => armStore 2 fun c => storeDword (slot.addr c) (slot.b c)
  | .cADDI => armSet 2 slot.rd fun _ c => slot.d c + slot.imm64
  | .cADDIW => if slot.rd = 0 then armIllegal else armPut 2 slot.rd fun c => (slot.d32 c + slot.imm).signExtend 64
  | .cLI => armSet 2 slot.rd fun _ _ => slot.imm64
  | .cLUIorADDI16SP =>
    if slot.rd = 2 then (if slot.imm = 0 then armIllegal else armPut 2 2 fun c => c.x 2 + slot.imm64)
    else if slot.rd = 0 ∨ slot.imm = 0 then armIllegal
    else armPut 2 slot.rd fun _ => slot.imm64
  | .caSRLI => armPut 2 slot.rd fun c => slot.d c >>> slot.imm64.toNat
  | .caSRAI => armPut 2 slot.rd fun c => (slot.d c).sshiftRight slot.imm64.toNat
  | .caANDI => armPut 2 slot.rd fun c => slot.d c &&& slot.imm64
  | .caSUB => armPut 2 slot.rd fun c => slot.d c - slot.b c
  | .caXOR => armPut 2 slot.rd fun c => slot.d c ^^^ slot.b c
  | .caOR => armPut 2 slot.rd fun c => slot.d c ||| slot.b c
  | .caAND => armPut 2 slot.rd fun c => slot.d c &&& slot.b c
  | .caSUBW => armPut 2 slot.rd fun c => (slot.d32 c - slot.b32 c).signExtend 64
  | .caADDW => armPut 2 slot.rd fun c => (slot.d32 c + slot.b32 c).signExtend 64
  | .cJ => armBranch 2 slot.imm64 fun _ => true
  | .cBEQZ => armBranch 2 slot.imm64 fun c => slot.a c = 0
  | .cBNEZ => armBranch 2 slot.imm64 fun c => slot.a c ≠ 0
  | .cSLLI => if slot.rd = 0 then armIllegal else armPut 2 slot.rd fun c => slot.d c <<< slot.imm64.toNat
  | .cLWSP => if slot.rd = 0 then armIllegal else armLoad 2 slot.spAddr GuestMemory.load32 fun c v => c.putReg slot.rd
      (v.signExtend 64)
  | .cLDSP => if slot.rd = 0 then armIllegal else armLoad 2 slot.spAddr loadDword fun c v => c.putReg slot.rd v
  | .cJR => fun _ c => (.next (andNot (slot.d c) 1) true, c)
  | .cMV => armPut 2 slot.rd slot.b
  | .cEBREAK => armEbreak
  | .cJALR => fun pc c => (.next (andNot (slot.d c) 1) true, c.putReg 1 (pc + 2))
  | .cADD => armPut 2 slot.rd fun c => slot.d c + slot.b c
  | .cSWSP => armStore 2 fun c => GuestMemory.store32 (slot.spAddr c) (slot.b32 c)
  | .cSDSP => armStore 2 fun c => storeDword (slot.spAddr c) (slot.b c)
  -- FP, AMO, SYSTEM, the bit extensions, the compressed FP classes and what is illegal
  | _ => armDelegate fp slot

/-- one pass of the dispatch loop and the write-back after it: `pc` and the two counters -/
def runArm (a : Arm) : Step Unit := fun c =>
  match a c.pc c with
  | (.next pc inlineRetired, c') =>
    (.ok (), { c' with
      pc := pc
      riscvInstrBegun := c'.riscvInstrBegun + 1
      riscvInstrRetired := c'.riscvInstrRetired + (if inlineRetired then 1 else 0) })
  | (.fail pc err, c') => (.error err, { c' with pc := pc, riscvInstrBegun := c'.riscvInstrBegun + 1 })
  | (.breakInner err, c') => (.error err, { c' with pc := c.pc })

def runSlot (fp : HostFP) (slot : DecodedInsn) : Step Unit := runArm (arm fp slot)

/-- a compressed instruction through the decoder cache -/
def runCachedRVC (fp : HostFP) (insn : BitVec 16) : Step Unit := runSlot fp (flattenSlotOp (decodeRVC insn))

/-- a 32-bit instruction through the decoder cache -/
def runCached32 (fp : HostFP) (insn : BitVec 32) : Step Unit := runSlot fp (flattenSlotOp (decodeInsn32 insn))

end RiscvEmu
