/-
The interpreter on compressed instructions (`stepRVC`) and the fetch-and-dispatch of one step (`step`).
-/
import RiscvEmu.Cpu.Step32

namespace RiscvEmu

open Exec

/-! ## Fields of a compressed instruction -/

def rp (f : BitVec 3) : BitVec 5 := 8 + f.setWidth 5

namespace Rvc

variable (insn : BitVec 16)

def quad : BitVec 2 := insn.extractLsb' 0 2
def funct3 : BitVec 3 := insn.extractLsb' 13 3
/-- the 3-bit register field at bit 2, resp. 7 -/
def rp2 : BitVec 5 := rp (insn.extractLsb' 2 3)
def rp7 : BitVec 5 := rp (insn.extractLsb' 7 3)
/-- the 5-bit register fields `rf(11, 7)` and `rf(6, 2)` -/
def rf7 : BitVec 5 := insn.extractLsb' 7 5
def rf2 : BitVec 5 := insn.extractLsb' 2 5
def bit12 : Bool := (insn >>> 12) &&& 1 ≠ 0

def addi4spnImm : BitVec 64 :=
  ((((insn >>> 11) &&& 3) <<< 4) ||| (((insn >>> 7) &&& 0xF) <<< 6) |||
    (((insn >>> 6) &&& 1) <<< 2) ||| (((insn >>> 5) &&& 1) <<< 3)).setWidth 64

/-- the offset of `C.LW` and `C.SW` -/
def wordImm : BitVec 64 :=
  ((((insn >>> 10) &&& 7) <<< 3) ||| (((insn >>> 6) &&& 1) <<< 2) ||| (((insn >>> 5) &&& 1) <<< 6)).setWidth 64

/-- the offset of `C.LD`, `C.SD`, `C.FLD` and `C.FSD` -/
def dwordImm : BitVec 64 :=
  ((((insn >>> 10) &&& 7) <<< 3) ||| (((insn >>> 5) &&& 3) <<< 6)).setWidth 64

def imm6 : BitVec 64 :=
  let imm := (insn >>> 2).setWidth 64 &&& 0x1F
  if bit12 insn then imm ||| (-32) else imm

def addi16spImm : BitVec 64 :=
  let imm := ((((insn >>> 12) &&& 1) <<< 9) ||| (((insn >>> 6) &&& 1) <<< 4) |||
    (((insn >>> 5) &&& 1) <<< 6) ||| (((insn >>> 3) &&& 3) <<< 7) ||| (((insn >>> 2) &&& 1) <<< 5)).setWidth 64
  if bit12 insn then imm ||| (-512) else imm

def luiImm : BitVec 64 :=
  let imm := ((((insn >>> 12) &&& 1) <<< 5) ||| ((insn >>> 2) &&& 0x1F)).setWidth 64
  if bit12 insn then imm ||| (-32) else imm

def shamt : Nat := ((((insn >>> 12) &&& 1) <<< 5) ||| ((insn >>> 2) &&& 0x1F)).toNat

/-- the offset of `C.LDSP` and `C.FLDSP`, of `C.LWSP`, of `C.SDSP` and `C.FSDSP`, of `C.SWSP` -/
def ldspImm : BitVec 64 :=
  ((((insn >>> 12) &&& 1) <<< 5) ||| (((insn >>> 5) &&& 3) <<< 3) ||| (((insn >>> 2) &&& 7) <<< 6)).setWidth 64
def lwspImm : BitVec 64 :=
  ((((insn >>> 12) &&& 1) <<< 5) ||| (((insn >>> 4) &&& 7) <<< 2) ||| (((insn >>> 2) &&& 3) <<< 6)).setWidth 64
def sdspImm : BitVec 64 :=
  ((((insn >>> 10) &&& 7) <<< 3) ||| (((insn >>> 7) &&& 7) <<< 6)).setWidth 64
def swspImm : BitVec 64 :=
  ((((insn >>> 9) &&& 0xF) <<< 2) ||| (((insn >>> 7) &&& 3) <<< 6)).setWidth 64

end Rvc

def cjOffset (insn : BitVec 16) : BitVec 64 :=
  let o := insn.setWidth 64
  let off := (((o >>> 12) &&& 1) <<< 11) ||| (((o >>> 11) &&& 1) <<< 4) ||| (((o >>> 9) &&& 3) <<< 8) |||
    (((o >>> 8) &&& 1) <<< 10) ||| (((o >>> 7) &&& 1) <<< 6) ||| (((o >>> 6) &&& 1) <<< 7) |||
    (((o >>> 3) &&& 7) <<< 1) ||| (((o >>> 2) &&& 1) <<< 5)
  if off &&& (1#64 <<< 11) ≠ 0 then off ||| ((-1#64) <<< 12) else off

/-- the offset of `C.BEQZ` and `C.BNEZ` -/
def cbOffset (insn : BitVec 16) : BitVec 64 :=
  let o := insn.setWidth 64
  let off := (((o >>> 12) &&& 1) <<< 8) ||| (((o >>> 10) &&& 3) <<< 3) ||| (((o >>> 5) &&& 3) <<< 6) |||
    (((o >>> 3) &&& 3) <<< 1) ||| (((o >>> 2) &&& 1) <<< 5)
  if off &&& (1#64 <<< 8) ≠ 0 then off ||| ((-1#64) <<< 9) else off

/-! ## The three quadrants -/

open Rvc

/-- write a value computed from the registers -/
def setRegFrom (r : BitVec 5) (v : Cpu → BitVec 64) : Step Unit := Exec.modify fun c => c.setReg r (v c)

def stepRvc0 (insn : BitVec 16) : Step Unit :=
  let rd := rp2 insn
  let rs1 := rp7 insn
  match funct3 insn with
  | 0b000 =>                                     -- C.ADDI4SPN
    if addi4spnImm insn = 0 then illegal else setRegFrom rd fun c => c.x 2 + addi4spnImm insn
  | 0b010 => do                                  -- C.LW
    let addr ← gets fun c => c.x rs1 + wordImm insn
    setRegM rd ((← (load32M addr).lift).signExtend 64)
  | 0b001 => do                                  -- C.FLD
    let addr ← gets fun c => c.x rs1 + dwordImm insn
    setFRegM rd (← (load64M addr).lift)
  | 0b011 => do                                  -- C.LD
    let addr ← gets fun c => c.x rs1 + dwordImm insn
    setRegM rd (← (load64M addr).lift)
  | 0b101 => do                                  -- C.FSD
    let addr ← gets fun c => c.x rs1 + dwordImm insn
    (store64M addr (← gets fun c => c.f rd)).lift
  | 0b110 => do                                  -- C.SW
    let addr ← gets fun c => c.x rs1 + wordImm insn
    (store32M addr ((← gets fun c => c.x rd).setWidth 32)).lift
  | 0b111 => do                                  -- C.SD
    let addr ← gets fun c => c.x rs1 + dwordImm insn
    (store64M addr (← gets fun c => c.x rd)).lift
  | _ => illegal

def stepMiscAlu (insn : BitVec 16) : Step Unit :=
  let rs1 := rp7 insn
  let rs2 := rp2 insn
  let funct2 : BitVec 2 := insn.extractLsb' 10 2
  let op : BitVec 2 := insn.extractLsb' 5 2
  match funct2 with
  | 0b00 => setRegFrom rs1 fun c => c.x rs1 >>> shamt insn                         -- C.SRLI
  | 0b01 => setRegFrom rs1 fun c => (c.x rs1).sshiftRight (shamt insn)             -- C.SRAI
  | 0b10 => setRegFrom rs1 fun c => c.x rs1 &&& imm6 insn                          -- C.ANDI
  | 0b11 =>
    if !bit12 insn then
      match op with
      | 0b00 => setRegFrom rs1 fun c => c.x rs1 - c.x rs2
      | 0b01 => setRegFrom rs1 fun c => c.x rs1 ^^^ c.x rs2
      | 0b10 => setRegFrom rs1 fun c => c.x rs1 ||| c.x rs2
      | 0b11 => setRegFrom rs1 fun c => c.x rs1 &&& c.x rs2
    else
      match op with
      | 0b00 => setRegFrom rs1 fun c => ((c.x rs1).setWidth 32 - (c.x rs2).setWidth 32).signExtend 64
      | 0b01 => setRegFrom rs1 fun c => ((c.x rs1).setWidth 32 + (c.x rs2).setWidth 32).signExtend 64
      | _ => illegal

def stepRvc1 (insn : BitVec 16) : Step Unit :=
  let rd := rf7 insn
  match funct3 insn with
  | 0b000 => fallThrough 2 (setRegFrom rd fun c => c.x rd + imm6 insn)             -- C.NOP, C.ADDI
  | 0b001 => fallThrough 2 (setRegFrom rd fun c =>
      ((c.x rd).setWidth 32 + (imm6 insn).setWidth 32).signExtend 64)              -- C.ADDIW
  | 0b010 => fallThrough 2 (setRegM rd (imm6 insn))                                -- C.LI
  | 0b011 =>
    if rd = 2 then                                                                 -- C.ADDI16SP
      if addi16spImm insn = 0 then illegal
      else fallThrough 2 (setRegFrom 2 fun c => c.x 2 + addi16spImm insn)
    else                                                                           -- C.LUI
      if luiImm insn = 0 then illegal else fallThrough 2 (setRegM rd (luiImm insn <<< 12))
  | 0b100 => fallThrough 2 (stepMiscAlu insn)
  | 0b101 => Exec.modify fun c => c.finish (c.pc + cjOffset insn)                  -- C.J
  | 0b110 => Exec.modify fun c =>                                                  -- C.BEQZ
      c.finish (if c.x (rp7 insn) = 0 then c.pc + cbOffset insn else c.pc + 2)
  | 0b111 => Exec.modify fun c =>                                                  -- C.BNEZ
      c.finish (if c.x (rp7 insn) ≠ 0 then c.pc + cbOffset insn else c.pc + 2)

def stepRvc2 (insn : BitVec 16) : Step Unit :=
  let rd := rf7 insn
  let rs2 := rf2 insn
  match funct3 insn with
  | 0b000 => fallThrough 2 (setRegFrom rd fun c => c.x rd <<< shamt insn)          -- C.SLLI
  | 0b001 => fallThrough 2 do                                                      -- C.FLDSP
    let addr ← gets fun c => c.x 2 + ldspImm insn
    setFRegM rd (← (load64M addr).lift)
  | 0b010 => fallThrough 2 do                                                      -- C.LWSP
    let addr ← gets fun c => c.x 2 + lwspImm insn
    setRegM rd ((← (load32M addr).lift).signExtend 64)
  | 0b011 => fallThrough 2 do                                                      -- C.LDSP
    let addr ← gets fun c => c.x 2 + ldspImm insn
    setRegM rd (← (load64M addr).lift)
  | 0b100 =>
    if !bit12 insn then
      if rs2 = 0 then                                                              -- C.JR
        if rd = 0 then illegal else Exec.modify fun c => c.finish (andNot (c.x rd) 1)
      else fallThrough 2 (setRegFrom rd fun c => c.x rs2)                          -- C.MV
    else
      if rd = 0 ∧ rs2 = 0 then execEbreak 2                                        -- C.EBREAK
      else if rs2 = 0 then                                                         -- C.JALR
        Exec.modify fun c => (c.setReg 1 (c.pc + 2)).finish (andNot (c.x rd) 1)
      else fallThrough 2 (setRegFrom rd fun c => c.x rd + c.x rs2)                 -- C.ADD
  | 0b101 => fallThrough 2 do                                                      -- C.FSDSP
    let addr ← gets fun c => c.x 2 + sdspImm insn
    (store64M addr (← gets fun c => c.f rs2)).lift
  | 0b110 => fallThrough 2 do                                                      -- C.SWSP
    let addr ← gets fun c => c.x 2 + swspImm insn
    (store32M addr ((← gets fun c => c.x rs2).setWidth 32)).lift
  | 0b111 => fallThrough 2 do                                                      -- C.SDSP
    let addr ← gets fun c => c.x 2 + sdspImm insn
    (store64M addr (← gets fun c => c.x rs2)).lift

def stepRVC (insn : BitVec 16) : Step Unit :=
  match quad insn with
  | 0x0 => fallThrough 2 (stepRvc0 insn)
  | 0x1 => stepRvc1 insn
  | 0x2 => stepRvc2 insn
  | _ => illegal

/-! ## One step -/

/-- fetch a 32-bit instruction, by halves where the address is not 4-byte aligned -/
def fetch32M (addr : BitVec 64) : MemOp (BitVec 32) := orMisaligned (fetch32 addr) (fetch32U addr)

def step (fp : HostFP) : Step Unit := do
  Exec.modify fun c => c.setWfi false
  let half ← (fetch16 (← gets Cpu.pc)).lift
  if half.extractLsb' 0 2 ≠ 3#2 then stepRVC half
  else do
    let insn ← (fetch32M (← gets Cpu.pc)).lift
    stepFromInsn fp insn

end RiscvEmu
