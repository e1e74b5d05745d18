/-
Integer computation of the interpreter: the value that `stepFromInsn` computes for OP-IMM, OP-IMM-32, OP and OP-32,
from the instruction word and the operands; `none` is an illegal encoding. Also the atomic operations and the
compressed jump offsets.
-/
import RiscvEmu.Cpu.State

namespace RiscvEmu

open BitVec

/-! ## Instruction fields -/

def opcodeOf (insn : BitVec 32) : BitVec 7 := insn.extractLsb' 0 7
def rdOf (insn : BitVec 32) : BitVec 5 := insn.extractLsb' 7 5
def funct3Of (insn : BitVec 32) : BitVec 3 := insn.extractLsb' 12 3
def rs1Of (insn : BitVec 32) : BitVec 5 := insn.extractLsb' 15 5
def rs2Of (insn : BitVec 32) : BitVec 5 := insn.extractLsb' 20 5
def rs3Of (insn : BitVec 32) : BitVec 5 := insn.extractLsb' 27 5
def funct5Of (insn : BitVec 32) : BitVec 5 := insn.extractLsb' 27 5
def funct7Of (insn : BitVec 32) : BitVec 7 := insn.extractLsb' 25 7
def fmtOf (insn : BitVec 32) : BitVec 2 := insn.extractLsb' 25 2
def imm12Of (insn : BitVec 32) : BitVec 12 := insn.extractLsb' 20 12

theorem funct2_cases (f : BitVec 2) : f = 0#2 ∨ f = 1#2 ∨ f = 2#2 ∨ f = 3#2 := by
  revert f
  decide

theorem funct3_cases (f : BitVec 3) :
    f = 0#3 ∨ f = 1#3 ∨ f = 2#3 ∨ f = 3#3 ∨ f = 4#3 ∨ f = 5#3 ∨ f = 6#3 ∨ f = 7#3 := by
  revert f
  decide

/-- I-type immediate: `int64(int32(insn)) >> 20` -/
def iimm (insn : BitVec 32) : BitVec 64 := (insn.signExtend 64).sshiftRight 20

/-- S-type immediate -/
def simm (insn : BitVec 32) : BitVec 64 :=
  ((insn &&& 0xFE000000).sshiftRight 20).signExtend 64 ||| ((insn >>> 7) &&& 0x1F).setWidth 64

/-- U-type immediate -/
def uimm20 (insn : BitVec 32) : BitVec 64 := (insn &&& 0xFFFFF000).signExtend 64

/-- J-type immediate -/
def jimm (insn : BitVec 32) : BitVec 64 :=
  let raw := (((insn >>> 31) &&& 1) <<< 20) ||| (((insn >>> 12) &&& 0xFF) <<< 12) |||
    (((insn >>> 20) &&& 1) <<< 11) ||| (((insn >>> 21) &&& 0x3FF) <<< 1)
  ((raw <<< 11).signExtend 64).sshiftRight 11

/-- B-type immediate -/
def bimm (insn : BitVec 32) : BitVec 64 :=
  let uimm := (((insn >>> 31) &&& 1) <<< 12) ||| (((insn >>> 7) &&& 1) <<< 11) |||
    (((insn >>> 25) &&& 0x3F) <<< 5) ||| (((insn >>> 8) &&& 0xF) <<< 1)
  ((uimm <<< 19).signExtend 64).sshiftRight 19

/-! ## Bit operations -/

/-- Go's conversion of a comparison to 0 or 1 -/
def boolBit (b : Bool) : BitVec 64 := if b then 1 else 0

/-- `ORC.B`: a byte becomes all ones if any of its bits is set -/
def orcB (x : BitVec 64) : BitVec 64 :=
  let x := x ||| (x >>> 4)
  let x := x ||| (x >>> 2)
  let x := x ||| (x >>> 1)
  (x &&& 0x0101010101010101) * 0xFF

/-- `REV8`: reverse the byte order -/
def rev8 (x : BitVec 64) : BitVec 64 :=
  x.extractLsb' 0 8 ++ x.extractLsb' 8 8 ++ x.extractLsb' 16 8 ++ x.extractLsb' 24 8 ++
    x.extractLsb' 32 8 ++ x.extractLsb' 40 8 ++ x.extractLsb' 48 8 ++ x.extractLsb' 56 8

/-- the high half of the 128-bit product (`bits.Mul64`) -/
def mulHi (a b : BitVec 64) : BitVec 64 := ((a.setWidth 128 * b.setWidth 128) >>> 64).setWidth 64

/-- a carry-less product loop: for each set bit `i` of `b` with `lo ≤ i < 64`, xor in `part i` -/
def clmulLoop (b : BitVec 64) (lo : Nat) (part : Nat → BitVec 64) : BitVec 64 :=
  (List.range' lo (64 - lo)).foldl (fun r i => if (b >>> i) &&& 1 ≠ 0 then r ^^^ part i else r) 0

/-- the word division rules, shared by the widths -/
def divS {w : Nat} (a b : BitVec w) : BitVec w :=
  if b = 0 then allOnes w
  else if a = intMin w ∧ b = allOnes w then a
  else a.sdiv b

def divU {w : Nat} (a b : BitVec w) : BitVec w := if b = 0 then allOnes w else a / b

def remS {w : Nat} (a b : BitVec w) : BitVec w :=
  if b = 0 then a
  else if a = intMin w ∧ b = allOnes w then 0
  else a.srem b

def remU {w : Nat} (a b : BitVec w) : BitVec w := if b = 0 then a else a % b

/-! ## OP-IMM and OP-IMM-32 -/

def aluOpImm (insn : BitVec 32) (a : BitVec 64) : Option (BitVec 64) :=
  let imm12 := imm12Of insn
  let funct6 : BitVec 6 := imm12.extractLsb' 6 6
  let shamt := (imm12 &&& 0x3F).toNat
  match funct3Of insn with
  | 0x0 => some (a + iimm insn)                                     -- ADDI
  | 0x1 =>
    match funct6 with
    | 0x00 => some (a <<< shamt)                                    -- SLLI
    | 0x0A => some (a ||| (1#64 <<< shamt))                         -- BSETI
    | 0x12 => some (andNot a (1#64 <<< shamt))                      -- BCLRI
    | 0x1A => some (a ^^^ (1#64 <<< shamt))                         -- BINVI
    | 0x18 =>
      match imm12 with
      | 0x600 => some a.clz                                         -- CLZ
      | 0x601 => some a.ctz                                         -- CTZ
      | 0x602 => some a.cpop                                        -- CPOP
      | 0x604 => some ((a.setWidth 8).signExtend 64)                -- SEXT.B
      | 0x605 => some ((a.setWidth 16).signExtend 64)               -- SEXT.H
      | _ => none
    | _ => none
  | 0x2 => some (boolBit (a.slt (iimm insn)))                       -- SLTI
  | 0x3 => some (boolBit (a.ult (iimm insn)))                       -- SLTIU
  | 0x4 => some (a ^^^ iimm insn)                                   -- XORI
  | 0x5 =>
    if funct6 = 0x00 then some (a >>> shamt)                        -- SRLI
    else if funct6 = 0x10 then some (a.sshiftRight shamt)           -- SRAI
    else if funct6 = 0x12 then some ((a >>> shamt) &&& 1)           -- BEXTI
    else if funct6 = 0x18 then some (a.rotateRight shamt)           -- RORI
    else if imm12 = 0x287 then some (orcB a)                        -- ORC.B
    else if imm12 = 0x6B8 then some (rev8 a)                        -- REV8
    else none
  | 0x6 => some (a ||| iimm insn)                                   -- ORI
  | 0x7 => some (a &&& iimm insn)                                   -- ANDI

def aluOpImm32 (insn : BitVec 32) (a : BitVec 64) : Option (BitVec 64) :=
  let imm12 := imm12Of insn
  let funct6 : BitVec 6 := imm12.extractLsb' 6 6
  let funct7 := funct7Of insn
  let shamt := (imm12 &&& 0x1F).toNat
  let shamt6 := (imm12 &&& 0x3F).toNat
  let a32 := a.setWidth 32
  match funct3Of insn with
  | 0x0 => some ((a32 + (iimm insn).setWidth 32).signExtend 64)     -- ADDIW
  | 0x1 =>
    if funct7 = 0x00 then some ((a32 <<< shamt).signExtend 64)      -- SLLIW
    else if funct6 = 0x02 then some ((a32.setWidth 64) <<< shamt6)  -- SLLI.UW
    else if imm12 = 0x600 then some (a32.clz.signExtend 64)         -- CLZW
    else if imm12 = 0x601 then some (a32.ctz.signExtend 64)         -- CTZW
    else if imm12 = 0x602 then some (a32.cpop.signExtend 64)        -- CPOPW
    else none
  | 0x5 =>
    match funct7 with
    | 0x00 => some ((a32 >>> shamt).signExtend 64)                  -- SRLIW
    | 0x20 => some ((a32.sshiftRight shamt).signExtend 64)          -- SRAIW
    | 0x30 => some ((a32.rotateRight shamt).signExtend 64)          -- RORIW
    | _ => none
  | _ => none

/-! ## OP and OP-32 -/

def aluOp (insn : BitVec 32) (a b : BitVec 64) : Option (BitVec 64) :=
  let sh := (b &&& 63).toNat
  match funct7Of insn with
  | 0x01 =>
    match funct3Of insn with
    | 0x0 => some (a * b)                                           -- MUL
    | 0x1 =>                                                        -- MULH
      let hi := mulHi a b
      let hi := if a.slt 0 then hi - b else hi
      some (if b.slt 0 then hi - a else hi)
    | 0x2 => some (if a.slt 0 then mulHi a b - b else mulHi a b)    -- MULHSU
    | 0x3 => some (mulHi a b)                                       -- MULHU
    | 0x4 => some (divS a b)
    | 0x5 => some (divU a b)
    | 0x6 => some (remS a b)
    | 0x7 => some (remU a b)
  | 0x04 => if funct3Of insn ≠ 4 ∨ rs2Of insn ≠ 0 then none else some (a &&& 0xFFFF)
  | 0x05 =>
    match funct3Of insn with
    | 1 => some (clmulLoop b 0 fun i => a <<< i)                    -- CLMUL
    | 2 => some (clmulLoop b 0 fun i => a >>> (63 - i))             -- CLMULR
    | 3 => some (clmulLoop b 1 fun i => a >>> (64 - i))             -- CLMULH
    | 4 => some (if a.slt b then a else b)                          -- MIN
    | 5 => some (if a.ult b then a else b)                          -- MINU
    | 6 => some (if b.slt a then a else b)                          -- MAX
    | 7 => some (if b.ult a then a else b)                          -- MAXU
    | _ => none
  | 0x07 =>
    match funct3Of insn with
    | 5 => some (if b = 0 then 0 else a)                            -- CZERO.EQZ
    | 7 => some (if b ≠ 0 then 0 else a)                            -- CZERO.NEZ
    | _ => none
  | 0x10 =>
    match funct3Of insn with
    | 2 => some (b + (a <<< 1))                                     -- SH1ADD
    | 4 => some (b + (a <<< 2))                                     -- SH2ADD
    | 6 => some (b + (a <<< 3))                                     -- SH3ADD
    | _ => none
  | 0x14 =>
    match funct3Of insn with
    | 1 => some (a ||| (1#64 <<< sh))                               -- BSET
    | _ => none
  | 0x20 =>
    match funct3Of insn with
    | 0 => some (a - b)                                             -- SUB
    | 4 => some (a ^^^ ~~~b)                                        -- XNOR
    | 5 => some (a.sshiftRight sh)                                  -- SRA
    | 6 => some (a ||| ~~~b)                                        -- ORN
    | 7 => some (a &&& ~~~b)                                        -- ANDN
    | _ => none
  | 0x24 =>
    match funct3Of insn with
    | 1 => some (andNot a (1#64 <<< sh))                            -- BCLR
    | 5 => some ((a >>> sh) &&& 1)                                  -- BEXT
    | _ => none
  | 0x30 =>
    match funct3Of insn with
    | 1 => some (a.rotateLeft sh)                                   -- ROL
    | 5 => some (a.rotateRight sh)                                  -- ROR
    | _ => none
  | 0x34 => if funct3Of insn ≠ 1 then none else some (a ^^^ (1#64 <<< sh))  -- BINV
  | 0x00 =>
    match funct3Of insn with
    | 0x0 => some (a + b)                                           -- ADD
    | 0x1 => some (a <<< sh)                                        -- SLL
    | 0x2 => some (boolBit (a.slt b))                               -- SLT
    | 0x3 => some (boolBit (a.ult b))                               -- SLTU
    | 0x4 => some (a ^^^ b)                                         -- XOR
    | 0x5 => some (a >>> sh)                                        -- SRL
    | 0x6 => some (a ||| b)                                         -- OR
    | 0x7 => some (a &&& b)                                         -- AND
  | _ => none

def aluOp32 (insn : BitVec 32) (a b : BitVec 64) : Option (BitVec 64) :=
  let a32 := a.setWidth 32
  let b32 := b.setWidth 32
  let sh := (b32 &&& 0x1F).toNat
  match funct7Of insn with
  | 0x01 =>
    match funct3Of insn with
    | 0x0 => some ((a32 * b32).signExtend 64)                       -- MULW
    | 0x4 => some ((divS a32 b32).signExtend 64)
    | 0x5 => some ((divU a32 b32).signExtend 64)
    | 0x6 => some ((remS a32 b32).signExtend 64)
    | 0x7 => some ((remU a32 b32).signExtend 64)
    | _ => none
  | 0x04 =>
    match funct3Of insn with
    | 0 => some (b + a32.setWidth 64)                               -- ADD.UW
    | 4 => if rs2Of insn ≠ 0 then none else some ((a.setWidth 16).setWidth 64)  -- ZEXT.H
    | _ => none
  | 0x10 =>
    match funct3Of insn with
    | 2 => some (b + (a32.setWidth 64 <<< 1))                       -- SH1ADD.UW
    | 4 => some (b + (a32.setWidth 64 <<< 2))                       -- SH2ADD.UW
    | 6 => some (b + (a32.setWidth 64 <<< 3))                       -- SH3ADD.UW
    | _ => none
  | 0x30 =>
    match funct3Of insn with
    | 1 => some ((a32.rotateLeft sh).signExtend 64)                 -- ROLW
    | 5 => some ((a32.rotateRight sh).signExtend 64)                -- RORW
    | _ => none
  | funct7 =>
    match funct3Of insn with
    | 0x0 =>
      if funct7 = 0x20 then some ((a32 - b32).signExtend 64)        -- SUBW
      else if funct7 = 0x00 then some ((a32 + b32).signExtend 64)   -- ADDW
      else none
    | 0x1 => if funct7 ≠ 0x00 then none else some ((a32 <<< sh).signExtend 64)  -- SLLW
    | 0x5 =>
      if funct7 = 0x20 then some ((a32.sshiftRight sh).signExtend 64)  -- SRAW
      else if funct7 = 0x00 then some ((a32 >>> sh).signExtend 64)  -- SRLW
      else none
    | _ => none

/-! ## Branches and atomics -/

/-- the branch condition; `none` for the two unassigned `funct3` -/
def branchTaken (funct3 : BitVec 3) (a b : BitVec 64) : Option Bool :=
  match funct3 with
  | 0x0 => some (a = b)
  | 0x1 => some (a ≠ b)
  | 0x4 => some (a.slt b)
  | 0x5 => some (b.sle a)
  | 0x6 => some (a.ult b)
  | 0x7 => some (b.ule a)
  | _ => none

/-- `amoOpW` and `amoOpD`; an unassigned operation stores back what it read -/
def amoOp {w : Nat} (funct5 : BitVec 5) (mem rs2 : BitVec w) : BitVec w :=
  match funct5 with
  | 0b00001 => rs2
  | 0b00000 => mem + rs2
  | 0b00100 => mem ^^^ rs2
  | 0b01100 => mem &&& rs2
  | 0b01000 => mem ||| rs2
  | 0b10000 => if mem.slt rs2 then mem else rs2
  | 0b10100 => if rs2.slt mem then mem else rs2
  | 0b11000 => if mem.ult rs2 then mem else rs2
  | 0b11100 => if rs2.ult mem then mem else rs2
  | _ => mem

def amoOpW (funct5 : BitVec 5) (mem rs2 : BitVec 32) : BitVec 32 := amoOp funct5 mem rs2
def amoOpD (funct5 : BitVec 5) (mem rs2 : BitVec 64) : BitVec 64 := amoOp funct5 mem rs2

end RiscvEmu
