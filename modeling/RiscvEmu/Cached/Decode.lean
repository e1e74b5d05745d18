/-
The decoder cache's pre-decoding (`decode.go`, and `flattenSlotOp` of `run_cached.go`): an instruction becomes a slot
with a flat operation, register fields and one immediate.
-/
import RiscvEmu.Cpu.StepRvc

namespace RiscvEmu

/-- the dispatch classes of a slot: raw opcodes before flattening, the compressed classes, and the flat operations -/
inductive SlotOp
  | raw (opcode : BitVec 7)
  | cADDI4SPN | cFLD | cLW | cLD | cFSD | cSW | cSD
  | cADDI | cADDIW | cLI | cLUIorADDI16SP | cMISCALU | cJ | cBEQZ | cBNEZ
  | cSLLI | cFLDSP | cLWSP | cLDSP | cJR | cMV | cEBREAK | cJALR | cADD | cFSDSP | cSWSP | cSDSP
  | fallback
  | lb | lh | lw | ld | lbu | lhu | lwu
  | sb | sh | sw | sd
  | beq | bne | blt | bge | bltu | bgeu
  | addi | slti | sltiu | xori | ori | andi | slli | srli | srai
  | addiw | slliw | srliw | sraiw
  | add | sll | slt | sltu | xor | srl | or | and
  | sub | sra
  | mul | mulh | mulhsu | mulhu | div | divu | rem | remu
  | addw | sllw | srlw | subw | sraw
  | mulw | divw | divuw | remw | remuw
  | fence | auipc | lui | jal | jalr
  | caSRLI | caSRAI | caANDI | caSUB | caXOR | caOR | caAND | caSUBW | caADDW
  | delegate
deriving DecidableEq, Repr

structure DecodedInsn where
  len : Nat
  op : SlotOp
  rd : BitVec 5
  rs1 : BitVec 5
  rs2 : BitVec 5
  funct3 : BitVec 3
  funct7 : BitVec 7
  imm : BitVec 32
  insn : BitVec 32
deriving DecidableEq, Repr

namespace DecodedInsn

/-- `uint64(int64(slot.imm))` -/
def imm64 (slot : DecodedInsn) : BitVec 64 := slot.imm.signExtend 64

end DecodedInsn

/-! ## 32-bit instructions -/

/-- the immediate `decodeInsn32` stores, by raw opcode -/
def decodeImm32 (insn : BitVec 32) : BitVec 32 :=
  match opcodeOf insn with
  | 0x03 | 0x13 | 0x1B | 0x67 | 0x73 | 0x07 | 0x0F => insn.sshiftRight 20
  | 0x23 | 0x27 => (insn &&& 0xFE000000).sshiftRight 20 ||| ((insn >>> 7) &&& 0x1F)
  | 0x63 =>
    let bit12 := (insn >>> 31) &&& 1
    let bit11 := (insn >>> 7) &&& 1
    let bits10_5 := (insn >>> 25) &&& 0x3F
    let bits4_1 := (insn >>> 8) &&& 0xF
    let imm := (bit12 <<< 12) ||| (bit11 <<< 11) ||| (bits10_5 <<< 5) ||| (bits4_1 <<< 1)
    if bit12 ≠ 0 then imm ||| ~~~0x1FFF else imm
  | 0x6F =>
    let bit20 := (insn >>> 31) &&& 1
    let bits10_1 := (insn >>> 21) &&& 0x3FF
    let bit11 := (insn >>> 20) &&& 1
    let bits19_12 := (insn >>> 12) &&& 0xFF
    let imm := (bit20 <<< 20) ||| (bits19_12 <<< 12) ||| (bit11 <<< 11) ||| (bits10_1 <<< 1)
    if bit20 ≠ 0 then imm ||| ~~~0x1FFFFF else imm
  | 0x37 | 0x17 => insn &&& 0xFFFFF000
  | _ => 0

def decodeInsn32 (insn : BitVec 32) : DecodedInsn :=
  { len := 4
    op := .raw (opcodeOf insn)
    rd := rdOf insn
    rs1 := rs1Of insn
    rs2 := rs2Of insn
    funct3 := funct3Of insn
    funct7 := funct7Of insn
    imm := decodeImm32 insn
    insn := insn }

def flattenOp (opcode : BitVec 7) (funct3 : BitVec 3) (funct7 : BitVec 7) : SlotOp :=
  match opcode with
  | 0x03 =>
    match funct3 with
    | 0x0 => .lb | 0x1 => .lh | 0x2 => .lw | 0x3 => .ld | 0x4 => .lbu | 0x5 => .lhu | 0x6 => .lwu
    | _ => .delegate
  | 0x23 =>
    match funct3 with
    | 0x0 => .sb | 0x1 => .sh | 0x2 => .sw | 0x3 => .sd
    | _ => .delegate
  | 0x63 =>
    match funct3 with
    | 0x0 => .beq | 0x1 => .bne | 0x4 => .blt | 0x5 => .bge | 0x6 => .bltu | 0x7 => .bgeu
    | _ => .delegate
  | 0x13 =>
    match funct3 with
    | 0x0 => .addi | 0x2 => .slti | 0x3 => .sltiu | 0x4 => .xori | 0x6 => .ori | 0x7 => .andi
    | 0x1 => if andNot funct7 1 = 0 then .slli else .delegate
    | 0x5 => if andNot funct7 1 = 0x00 then .srli else if andNot funct7 1 = 0x20 then .srai else .delegate
  | 0x1B =>
    match funct3 with
    | 0x0 => .addiw
    | 0x1 => if funct7 = 0 then .slliw else .delegate
    | 0x5 => if funct7 = 0x00 then .srliw else if funct7 = 0x20 then .sraiw else .delegate
    | _ => .delegate
  | 0x33 =>
    match funct7 with
    | 0x00 =>
      match funct3 with
      | 0x0 => .add | 0x1 => .sll | 0x2 => .slt | 0x3 => .sltu | 0x4 => .xor | 0x5 => .srl | 0x6 => .or | 0x7 => .and
    | 0x20 =>
      match funct3 with
      | 0x0 => .sub | 0x5 => .sra
      | _ => .delegate
    | 0x01 =>
      match funct3 with
      | 0x0 => .mul | 0x1 => .mulh | 0x2 => .mulhsu | 0x3 => .mulhu
      | 0x4 => .div | 0x5 => .divu | 0x6 => .rem | 0x7 => .remu
    | _ => .delegate
  | 0x3B =>
    match funct7 with
    | 0x00 =>
      match funct3 with
      | 0x0 => .addw | 0x1 => .sllw | 0x5 => .srlw
      | _ => .delegate
    | 0x20 =>
      match funct3 with
      | 0x0 => .subw | 0x5 => .sraw
      | _ => .delegate
    | 0x01 =>
      match funct3 with
      | 0x0 => .mulw | 0x4 => .divw | 0x5 => .divuw | 0x6 => .remw | 0x7 => .remuw
      | _ => .delegate
    | _ => .delegate
  | 0x0F => .fence
  | 0x17 => .auipc
  | 0x37 => .lui
  | 0x6F => .jal
  | 0x67 => .jalr
  | _ => .delegate

/-! ## Compressed instructions -/

/-- sign bit fill of a compressed immediate: `imm |= ^mask` when bit 12 is set -/
def fillIf (bit12 : Bool) (mask imm : BitVec 32) : BitVec 32 := if bit12 then imm ||| ~~~mask else imm

def decodeImm6 (insn : BitVec 16) : BitVec 32 :=
  fillIf (Rvc.bit12 insn) 0x1F (((insn >>> 2) &&& 0x1F).setWidth 32)

/-- the immediate of `C.ADDI4SPN`, the doubleword and word offsets of quadrant 0 -/
def decodeAddi4spn (insn : BitVec 16) : BitVec 32 :=
  ((((insn >>> 11) &&& 3) <<< 4) ||| (((insn >>> 7) &&& 0xF) <<< 6) |||
    (((insn >>> 6) &&& 1) <<< 2) ||| (((insn >>> 5) &&& 1) <<< 3)).setWidth 32
def decodeDword (insn : BitVec 16) : BitVec 32 :=
  ((((insn >>> 10) &&& 7) <<< 3) ||| (((insn >>> 5) &&& 3) <<< 6)).setWidth 32
def decodeWord (insn : BitVec 16) : BitVec 32 :=
  ((((insn >>> 10) &&& 7) <<< 3) ||| (((insn >>> 6) &&& 1) <<< 2) ||| (((insn >>> 5) &&& 1) <<< 6)).setWidth 32

/-- the immediates of `C.ADDI16SP` and `C.LUI` -/
def decodeAddi16sp (insn : BitVec 16) : BitVec 32 :=
  fillIf (Rvc.bit12 insn) 0x3FF
    (((((insn >>> 12) &&& 1) <<< 9) ||| (((insn >>> 6) &&& 1) <<< 4) ||| (((insn >>> 5) &&& 1) <<< 6) |||
      (((insn >>> 3) &&& 3) <<< 7) ||| (((insn >>> 2) &&& 1) <<< 5)).setWidth 32)
def decodeLui (insn : BitVec 16) : BitVec 32 :=
  let hi : BitVec 32 := ((insn >>> 12) &&& 1).setWidth 32
  let lo : BitVec 32 := ((insn >>> 2) &&& 0x1F).setWidth 32
  (if hi ≠ 0 then ((hi <<< 5) ||| lo) ||| ~~~0x3F else (hi <<< 5) ||| lo) <<< 12

/-- a slot of length 2 with the fields every compressed instruction sets -/
def rvcSlot (insn : BitVec 16) : DecodedInsn :=
  { len := 2, op := .fallback, rd := 0, rs1 := 0, rs2 := 0, funct3 := Rvc.funct3 insn, funct7 := 0
    imm := 0, insn := insn.setWidth 32 }

def decodeRvc0 (insn : BitVec 16) : DecodedInsn :=
  let slot := { rvcSlot insn with
    rd := Rvc.rp2 insn
    rs1 := Rvc.rp7 insn
    rs2 := Rvc.rp2 insn }
  match Rvc.funct3 insn with
  | 0b000 => { slot with op := .cADDI4SPN, imm := decodeAddi4spn insn }
  | 0b001 => { slot with op := .cFLD, imm := decodeDword insn }
  | 0b010 => { slot with op := .cLW, imm := decodeWord insn }
  | 0b011 => { slot with op := .cLD, imm := decodeDword insn }
  | 0b101 => { slot with op := .cFSD, imm := decodeDword insn }
  | 0b110 => { slot with op := .cSW, imm := decodeWord insn }
  | 0b111 => { slot with op := .cSD, imm := decodeDword insn }
  | _ => { slot with op := .fallback }

def decodeRvc1 (insn : BitVec 16) : DecodedInsn :=
  let slot := rvcSlot insn
  let rd := Rvc.rf7 insn
  let rs1p := Rvc.rp7 insn
  match Rvc.funct3 insn with
  | 0b000 => { slot with rd := rd, rs1 := rd, op := .cADDI, imm := decodeImm6 insn }
  | 0b001 => { slot with rd := rd, rs1 := rd, op := .cADDIW, imm := decodeImm6 insn }
  | 0b010 => { slot with rd := rd, op := .cLI, imm := decodeImm6 insn }
  | 0b011 =>
    let imm := if rd = 2 then decodeAddi16sp insn else decodeLui insn
    { slot with rd := rd, rs1 := rd, op := .cLUIorADDI16SP, imm := imm }
  | 0b100 => { slot with op := .cMISCALU }
  | 0b101 => { slot with op := .cJ, imm := (cjOffset insn).setWidth 32 }
  | 0b110 => { slot with rs1 := rs1p, op := .cBEQZ, imm := (cbOffset insn).setWidth 32 }
  | 0b111 => { slot with rs1 := rs1p, op := .cBNEZ, imm := (cbOffset insn).setWidth 32 }

/-- the shift amount of `C.SLLI` and the stack-pointer-relative offsets of quadrant 2 -/
def decodeSlli (insn : BitVec 16) : BitVec 32 :=
  (((insn >>> 12) &&& 1).setWidth 32 <<< 5) ||| ((insn >>> 2) &&& 0x1F).setWidth 32
def decodeLdsp (insn : BitVec 16) : BitVec 32 :=
  ((((insn >>> 12) &&& 1) <<< 5) ||| (((insn >>> 5) &&& 3) <<< 3) ||| (((insn >>> 2) &&& 7) <<< 6)).setWidth 32
def decodeLwsp (insn : BitVec 16) : BitVec 32 :=
  ((((insn >>> 12) &&& 1) <<< 5) ||| (((insn >>> 4) &&& 7) <<< 2) ||| (((insn >>> 2) &&& 3) <<< 6)).setWidth 32
def decodeSdsp (insn : BitVec 16) : BitVec 32 :=
  ((((insn >>> 10) &&& 7) <<< 3) ||| (((insn >>> 7) &&& 7) <<< 6)).setWidth 32
def decodeSwsp (insn : BitVec 16) : BitVec 32 :=
  ((((insn >>> 9) &&& 0xF) <<< 2) ||| (((insn >>> 7) &&& 3) <<< 6)).setWidth 32

def decodeRvc2 (insn : BitVec 16) : DecodedInsn :=
  let rd := Rvc.rf7 insn
  let rs2 := Rvc.rf2 insn
  let slot := { rvcSlot insn with rd := rd, rs1 := rd, rs2 := rs2 }
  match Rvc.funct3 insn with
  | 0b000 => { slot with op := .cSLLI, imm := decodeSlli insn }
  | 0b001 => { slot with op := .cFLDSP, imm := decodeLdsp insn }
  | 0b010 => { slot with op := .cLWSP, imm := decodeLwsp insn }
  | 0b011 => { slot with op := .cLDSP, imm := decodeLdsp insn }
  | 0b100 =>
    if !Rvc.bit12 insn then
      if rs2 = 0 then (if rd = 0 then { slot with op := .fallback } else { slot with op := .cJR })
      else { slot with op := .cMV }
    else
      if rs2 = 0 then (if rd = 0 then { slot with op := .cEBREAK } else { slot with op := .cJALR })
      else { slot with op := .cADD }
  | 0b101 => { slot with op := .cFSDSP, imm := decodeSdsp insn }
  | 0b110 => { slot with op := .cSWSP, imm := decodeSwsp insn }
  | 0b111 => { slot with op := .cSDSP, imm := decodeSdsp insn }

def decodeRVC (insn : BitVec 16) : DecodedInsn :=
  match Rvc.quad insn with
  | 0x0 => decodeRvc0 insn
  | 0x1 => decodeRvc1 insn
  | 0x2 => decodeRvc2 insn
  | _ => rvcSlot insn

/-! ## Flattening -/

/-- the shift amount of `C.SRLI` and `C.SRAI` -/
def decodeShamt (insn : BitVec 16) : BitVec 32 :=
  ((((insn >>> 12) &&& 1) <<< 5) ||| ((insn >>> 2) &&& 0x1F)).setWidth 32

def flattenMiscALU (slot : DecodedInsn) : DecodedInsn :=
  let insn := slot.insn.setWidth 16
  let r := Rvc.rp7 insn
  let slot := { slot with rs1 := r, rd := r, rs2 := Rvc.rp2 insn }
  match (insn.extractLsb' 10 2 : BitVec 2) with
  | 0b00 => { slot with op := .caSRLI, imm := decodeShamt insn }
  | 0b01 => { slot with op := .caSRAI, imm := decodeShamt insn }
  | 0b10 => { slot with op := .caANDI, imm := decodeImm6 insn }
  | 0b11 =>
    if !Rvc.bit12 insn then
      match (insn.extractLsb' 5 2 : BitVec 2) with
      | 0b00 => { slot with op := .caSUB }
      | 0b01 => { slot with op := .caXOR }
      | 0b10 => { slot with op := .caOR }
      | 0b11 => { slot with op := .caAND }
    else
      match (insn.extractLsb' 5 2 : BitVec 2) with
      | 0b00 => { slot with op := .caSUBW }
      | 0b01 => { slot with op := .caADDW }
      | _ => { slot with op := .delegate }

def flattenSlotOp (slot : DecodedInsn) : DecodedInsn :=
  match slot.op with
  | .cMISCALU => flattenMiscALU slot
  | .raw opcode => { slot with op := flattenOp opcode slot.funct3 slot.funct7 }
  | _ => slot

end RiscvEmu
