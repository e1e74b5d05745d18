/-
The immediates a slot holds are those the interpreter extracts.

The decoder cache stores 32 bits and the arms sign-extend them; the interpreter works with 64 bits from the start.
Immediates that depend on a few bits are compared over all values of their fields, the long ones by the way they are
assembled.
-/
import RiscvEmu.Lib.Bits
import RiscvEmu.Cached.Decode

namespace RiscvEmu

open BitVec

open BitField Rvc

/-! ## Compressed instructions -/

variable (x h : BitVec 16) (k : Nat)

theorem shr_and_1 : x >>> k &&& 1 = (x.extractLsb' k 1).setWidth 16 := shr_and_mask x k 1
theorem shr_and_3 : x >>> k &&& 3 = (x.extractLsb' k 2).setWidth 16 := shr_and_mask x k 2
theorem shr_and_31 : x >>> k &&& 0x1F = (x.extractLsb' k 5).setWidth 16 :=
  shr_and_mask x k 5

theorem sext_offset (e : BitVec 16) : (e.setWidth 32).signExtend 64 = e.setWidth 64 :=
  signExtend_setWidth e (by decide)

theorem decodeImm6_sext : (decodeImm6 h).signExtend 64 = imm6 h := by
  have hm : (h >>> 2 &&& 0x1F).setWidth 64 = (h >>> 2).setWidth 64 &&& 0x1F := setWidth_and
  rw [imm6, ← hm, decodeImm6, fillIf, bit12, shr_and_1, shr_and_31]
  generalize h.extractLsb' 12 1 = hi
  generalize h.extractLsb' 2 5 = lo
  revert hi lo
  decide

theorem decodeLui_sext : (decodeLui h).signExtend 64 = luiImm h <<< 12 := by
  rw [decodeLui, luiImm, bit12, shr_and_1, shr_and_31]
  generalize h.extractLsb' 12 1 = hi
  generalize h.extractLsb' 2 5 = lo
  revert hi lo
  decide

theorem decodeLui_eq_zero_iff : decodeLui h = 0 ↔ luiImm h = 0 := by
  rw [decodeLui, luiImm, bit12, shr_and_1, shr_and_31]
  generalize h.extractLsb' 12 1 = hi
  generalize h.extractLsb' 2 5 = lo
  revert hi lo
  decide

theorem decodeAddi16sp_sext : (decodeAddi16sp h).signExtend 64 = addi16spImm h := by
  rw [decodeAddi16sp, addi16spImm, fillIf, bit12, shr_and_1, shr_and_1, shr_and_1, shr_and_1, shr_and_3]
  generalize h.extractLsb' 12 1 = b9
  generalize h.extractLsb' 6 1 = b4
  generalize h.extractLsb' 5 1 = b6
  generalize h.extractLsb' 3 2 = b87
  generalize h.extractLsb' 2 1 = b5
  revert b9 b4 b6 b87 b5
  decide

theorem sext_eq_zero_iff (x : BitVec 32) : x.signExtend 64 = 0 ↔ x = 0 :=
  signExtend_injective.eq_iff' rfl

theorem decodeSlli_toNat : ((decodeSlli h).signExtend 64).toNat = shamt h := by
  rw [decodeSlli, shamt, shr_and_1, shr_and_31]
  generalize h.extractLsb' 12 1 = hi
  generalize h.extractLsb' 2 5 = lo
  revert hi lo
  decide

theorem decodeShamt_toNat : ((decodeShamt h).signExtend 64).toNat = shamt h := by
  rw [decodeShamt, sext_offset, shamt, toNat_setWidth_of_le (by decide)]

theorem decodeAddi4spn_sext : (decodeAddi4spn h).signExtend 64 = addi4spnImm h := sext_offset _
theorem decodeWord_sext : (decodeWord h).signExtend 64 = wordImm h := sext_offset _
theorem decodeDword_sext : (decodeDword h).signExtend 64 = dwordImm h := sext_offset _
theorem decodeLdsp_sext : (decodeLdsp h).signExtend 64 = ldspImm h := sext_offset _
theorem decodeLwsp_sext : (decodeLwsp h).signExtend 64 = lwspImm h := sext_offset _
theorem decodeSdsp_sext : (decodeSdsp h).signExtend 64 = sdspImm h := sext_offset _
theorem decodeSwsp_sext : (decodeSwsp h).signExtend 64 = swspImm h := sext_offset _

theorem cjOffset_sext : ((cjOffset h).setWidth 32).signExtend 64 = cjOffset h := by
  have hoff : ∀ o : BitVec 64, Within 0x7FFFFFFF#64 ((((o >>> 12) &&& 1) <<< 11) ||| (((o >>> 11) &&& 1) <<< 4) |||
      (((o >>> 9) &&& 3) <<< 8) ||| (((o >>> 8) &&& 1) <<< 10) ||| (((o >>> 7) &&& 1) <<< 6) |||
      (((o >>> 6) &&& 1) <<< 7) ||| (((o >>> 3) &&& 7) <<< 1) ||| (((o >>> 2) &&& 1) <<< 5)) := by
    intro o
    repeat' with_reducible apply Within.or
    all_goals exact within_field _ _ _ (by decide)
  unfold cjOffset
  dsimp only
  split_ifs
  · exact (hoff _).sext32.or rfl
  · exact (hoff _).sext32

theorem cbOffset_sext : ((cbOffset h).setWidth 32).signExtend 64 = cbOffset h := by
  have hoff : ∀ o : BitVec 64, Within 0x7FFFFFFF#64 ((((o >>> 12) &&& 1) <<< 8) ||| (((o >>> 10) &&& 3) <<< 3) |||
      (((o >>> 5) &&& 3) <<< 6) ||| (((o >>> 3) &&& 3) <<< 1) ||| (((o >>> 2) &&& 1) <<< 5)) := by
    intro o
    repeat' with_reducible apply Within.or
    all_goals exact within_field _ _ _ (by decide)
  unfold cbOffset
  dsimp only
  split_ifs
  · exact (hoff _).sext32.or rfl
  · exact (hoff _).sext32

/-! ## 32-bit instructions -/

theorem flattenOp_other {opcode : BitVec 7} (h : opcode ≠ 0x03#7 ∧ opcode ≠ 0x23#7 ∧ opcode ≠ 0x63#7 ∧
    opcode ≠ 0x13#7 ∧ opcode ≠ 0x1B#7 ∧ opcode ≠ 0x33#7 ∧ opcode ≠ 0x3B#7 ∧ opcode ≠ 0x0F#7 ∧ opcode ≠ 0x17#7 ∧
    opcode ≠ 0x37#7 ∧ opcode ≠ 0x6F#7 ∧ opcode ≠ 0x67#7) (funct3 : BitVec 3) (funct7 : BitVec 7) :
    flattenOp opcode funct3 funct7 = .delegate := by
  obtain ⟨h1, h2, h3, h4, h5, h6, h7, h8, h9, h10, h11, h12⟩ := h
  simp only [flattenOp]

theorem decodeImm32_itype {insn : BitVec 32} (h : decodeImm32 insn = insn.sshiftRight 20) :
    (decodeImm32 insn).signExtend 64 = iimm insn := by
  rw [h, sshiftRight_signExtend, iimm]

variable (insn : BitVec 32)

theorem stype_sext :
    ((insn &&& 0xFE000000).sshiftRight 20 ||| (insn >>> 7 &&& 0x1F)).signExtend 64 = simm insn := by
  have hlo : (insn >>> 7 &&& 0x1F).signExtend 64 = (insn >>> 7 &&& 0x1F).setWidth 64 := by
    apply signExtend_eq_setWidth_of_msb_false
    rw [msb_and, show (0x1F : BitVec 32).msb = false by decide, Bool.and_false]
  rw [signExtend_or, hlo, simm]

theorem topBit_ne_zero_iff : insn >>> 31 &&& 1 ≠ 0 ↔ insn.getLsbD 31 = true := by
  rw [show insn >>> 31 &&& 1 = (insn.extractLsb' 31 1).setWidth 32 from shr_and_mask insn 31 1]
  have hb : insn.getLsbD 31 = (insn.extractLsb' 31 1).getLsbD 0 := by simp
  rw [hb]
  generalize insn.extractLsb' 31 1 = b
  revert b
  decide

theorem btype_sext :
    (let imm := ((insn >>> 31 &&& 1) <<< 12) ||| ((insn >>> 7 &&& 1) <<< 11) |||
        ((insn >>> 25 &&& 0x3F) <<< 5) ||| ((insn >>> 8 &&& 0xF) <<< 1)
      if insn >>> 31 &&& 1 ≠ 0 then imm ||| ~~~0x1FFF else imm).signExtend 64 = bimm insn := by
  unfold bimm
  dsimp only
  generalize hx : ((insn >>> 31 &&& 1) <<< 12) ||| ((insn >>> 7 &&& 1) <<< 11) |||
        ((insn >>> 25 &&& 0x3F) <<< 5) ||| ((insn >>> 8 &&& 0xF) <<< 1) = x
  have hw : Within 0x1FFF#32 x := by
    rw [← hx]
    repeat' with_reducible apply Within.or
    all_goals exact within_field _ _ _ (by decide)
  have hb : x.getLsbD 12 = insn.getLsbD 31 := by simp [← hx]
  rw [sext_shift (s := 19) (by decide) hw (by decide), hb]
  simp only [topBit_ne_zero_iff]
  rfl

theorem jtype_sext :
    (let imm := ((insn >>> 31 &&& 1) <<< 20) ||| ((insn >>> 12 &&& 0xFF) <<< 12) |||
        ((insn >>> 20 &&& 1) <<< 11) ||| ((insn >>> 21 &&& 0x3FF) <<< 1)
      if insn >>> 31 &&& 1 ≠ 0 then imm ||| ~~~0x1FFFFF else imm).signExtend 64 = jimm insn := by
  unfold jimm
  dsimp only
  generalize hx : ((insn >>> 31 &&& 1) <<< 20) ||| ((insn >>> 12 &&& 0xFF) <<< 12) |||
        ((insn >>> 20 &&& 1) <<< 11) ||| ((insn >>> 21 &&& 0x3FF) <<< 1) = x
  have hw : Within 0x1FFFFF#32 x := by
    rw [← hx]
    repeat' with_reducible apply Within.or
    all_goals exact within_field _ _ _ (by decide)
  have hb : x.getLsbD 20 = insn.getLsbD 31 := by simp [← hx]
  rw [sext_shift (s := 11) (by decide) hw (by decide), hb]
  simp only [topBit_ne_zero_iff]
  rfl

end RiscvEmu
