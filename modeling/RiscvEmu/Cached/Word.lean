/-
32-bit instructions through the decoder cache and through the interpreter.

Everything but `LD` and `SD` agrees. These make their access byte by byte where the interpreter makes it at once, so
an overlay can refuse the one and not the other, and an access that ends outside the slab is reported at its first
byte by the one and at the byte that lies outside by the other.

• `WordAlike`: the condition on `LD` and `SD`.
• `runCached32_alike_iff`: it is exactly what is needed to agree.
-/
import RiscvEmu.Cached.Outcome
import RiscvEmu.Cached.Fields

namespace RiscvEmu

variable {rd : BitVec 5} {body : Step Unit}

open GuestMemory Exec

/-- the condition for the decoder cache and the interpreter to agree on a 32-bit instruction -/
def WordAlike (c : Cpu) (insn : BitVec 32) : Prop :=
  (opcodeOf insn = 0x03#7 ∧ funct3Of insn = 3#3 → c.mem.dwordAlike (c.x (rs1Of insn) + iimm insn) .load) ∧
  (opcodeOf insn = 0x23#7 ∧ funct3Of insn = 3#3 → c.mem.dwordAlike (c.x (rs1Of insn) + simm insn) .store)

variable {fp : HostFP} {c : Cpu} {insn : BitVec 32}

/-- the slot of a 32-bit instruction with its flat operation -/
def wordSlot (insn : BitVec 32) (op : SlotOp) : DecodedInsn := { decodeInsn32 insn with op := op }

theorem wordSlot_rd (insn : BitVec 32) (op : SlotOp) : (wordSlot insn op).rd = rdOf insn := rfl

theorem runCached32_eq {o : SlotOp} (h : flattenOp (opcodeOf insn) (funct3Of insn) (funct7Of insn) = o) :
    runCached32 fp insn = runSlot fp (wordSlot insn o) := by
  rw [runCached32, flattenSlotOp, wordSlot, ← h]
  rfl

theorem stepFromInsn_run (fp : HostFP) (insn : BitVec 32) (c : Cpu) :
    stepFromInsn fp insn c = execInsn fp insn (c.setWfi false) := rfl

theorem delegate32_alike (h : flattenOp (opcodeOf insn) (funct3Of insn) (funct7Of insn) = .delegate) :
    SameOutcome (runCached32 fp insn c) (stepFromInsn fp insn c) := by
  rw [runCached32_eq h]
  exact armDelegate_alike fp (wordSlot insn .delegate)

theorem armSet_alike {v : BitVec 64 → Cpu → BitVec 64} {res : Option (BitVec 64)}
    (hbody : body (c.setWfi false) = orIllegal res (setRegM rd) (c.setWfi false)) (hres : res = some (v c.pc c)) :
    SameOutcome (runArm (armSet 4 rd v) c) (fallThrough 4 body (c.setWfi false)) := by
  subst hres
  rw [fallThrough_run, hbody]
  exact ⟨rfl, rfl, rfl, rfl, rfl, rfl, rfl, rfl, rfl⟩

theorem funct7_cases (f : BitVec 7) : f = 0x00#7 ∨ f = 0x20#7 ∨ f = 0x01#7 ∨
    (f ≠ 0x00#7 ∧ f ≠ 0x20#7 ∧ f ≠ 0x01#7) := by
  by_cases h0 : f = 0x00#7
  · exact .inl h0
  · by_cases h1 : f = 0x20#7
    · exact .inr (.inl h1)
    · by_cases h2 : f = 0x01#7
      · exact .inr (.inr (.inl h2))
      · exact .inr (.inr (.inr ⟨h0, h1, h2⟩))

/-! ## Registers -/

theorem op_alike (ho : opcodeOf insn = 0x33#7) : SameOutcome (runCached32 fp insn c) (stepFromInsn fp insn c) := by
  have hs : stepFromInsn fp insn c = fallThrough 4 (execOp insn) (c.setWfi false) := by
    simp only [stepFromInsn_run, execInsn, ho]
  have hset {v : BitVec 64 → Cpu → BitVec 64}
      (hv : aluOp insn (c.x (rs1Of insn)) (c.x (rs2Of insn)) = some (v c.pc c)) :
      SameOutcome (runArm (armSet 4 (rdOf insn) v) c) (stepFromInsn fp insn c) := by
    rw [hs]
    exact armSet_alike rfl hv
  rcases funct7_cases (funct7Of insn) with h7 | h7 | h7 | ⟨hn0, hn1, hn2⟩
  · rcases funct3_cases (funct3Of insn) with h3 | h3 | h3 | h3 | h3 | h3 | h3 | h3 <;>
      rw [runCached32_eq (by simp only [flattenOp, ho, h3, h7]; rfl)] <;>
      exact hset (by simp only [aluOp, h3, h7]; rfl)
  · rcases funct3_cases (funct3Of insn) with h3 | h3 | h3 | h3 | h3 | h3 | h3 | h3
    case inl | inr.inr.inr.inr.inr.inl =>
      rw [runCached32_eq (by simp only [flattenOp, ho, h3, h7]; rfl)]
      exact hset (by simp only [aluOp, h3, h7]; rfl)
    all_goals exact delegate32_alike (by simp only [flattenOp, ho, h3, h7]; rfl)
  · rcases funct3_cases (funct3Of insn) with h3 | h3 | h3 | h3 | h3 | h3 | h3 | h3 <;>
      rw [runCached32_eq (by simp only [flattenOp, ho, h3, h7]; rfl)] <;>
      exact hset (by simp only [aluOp, h3, h7]; rfl)
  · exact delegate32_alike (by simp only [flattenOp, ho])

theorem divS_sext (a b : BitVec 32) : (divS a b).signExtend 64 =
    if b = 0 then BitVec.allOnes 64
    else if a = BitVec.intMin 32 ∧ b = BitVec.allOnes 32 then a.signExtend 64 else (a.sdiv b).signExtend 64 := by
  unfold divS
  split_ifs <;> rfl

theorem divU_sext (a b : BitVec 32) : (divU a b).signExtend 64 =
    if b = 0 then BitVec.allOnes 64 else (a / b).signExtend 64 := by
  unfold divU
  split_ifs <;> rfl

theorem remS_sext (a b : BitVec 32) : (remS a b).signExtend 64 =
    if b = 0 then a.signExtend 64
    else if a = BitVec.intMin 32 ∧ b = BitVec.allOnes 32 then 0 else (a.srem b).signExtend 64 := by
  unfold remS
  split_ifs <;> rfl

theorem remU_sext (a b : BitVec 32) : (remU a b).signExtend 64 =
    if b = 0 then a.signExtend 64 else (a % b).signExtend 64 := by
  unfold remU
  split_ifs <;> rfl

theorem op32_alike (ho : opcodeOf insn = 0x3B#7) : SameOutcome (runCached32 fp insn c) (stepFromInsn fp insn c) := by
  have hs : stepFromInsn fp insn c = fallThrough 4 (execOp32 insn) (c.setWfi false) := by
    simp only [stepFromInsn_run, execInsn, ho]
  have hset {v : BitVec 64 → Cpu → BitVec 64}
      (hv : aluOp32 insn (c.x (rs1Of insn)) (c.x (rs2Of insn)) = some (v c.pc c)) :
      SameOutcome (runArm (armSet 4 (rdOf insn) v) c) (stepFromInsn fp insn c) := by
    rw [hs]
    exact armSet_alike rfl hv
  rcases funct7_cases (funct7Of insn) with h7 | h7 | h7 | ⟨hn0, hn1, hn2⟩
  · rcases funct3_cases (funct3Of insn) with h3 | h3 | h3 | h3 | h3 | h3 | h3 | h3
    case inl | inr.inl | inr.inr.inr.inr.inr.inl =>
      rw [runCached32_eq (by simp only [flattenOp, ho, h3, h7]; rfl)]
      exact hset (by simp only [aluOp32, h3, h7]; rfl)
    all_goals exact delegate32_alike (by simp only [flattenOp, ho, h3, h7]; rfl)
  · rcases funct3_cases (funct3Of insn) with h3 | h3 | h3 | h3 | h3 | h3 | h3 | h3
    case inl | inr.inr.inr.inr.inr.inl =>
      rw [runCached32_eq (by simp only [flattenOp, ho, h3, h7]; rfl)]
      exact hset (by simp only [aluOp32, h3, h7]; rfl)
    all_goals exact delegate32_alike (by simp only [flattenOp, ho, h3, h7]; rfl)
  · rcases funct3_cases (funct3Of insn) with h3 | h3 | h3 | h3 | h3 | h3 | h3 | h3
    case inl | inr.inr.inr.inr.inl | inr.inr.inr.inr.inr.inl | inr.inr.inr.inr.inr.inr.inl |
        inr.inr.inr.inr.inr.inr.inr =>
      rw [runCached32_eq (by simp only [flattenOp, ho, h3, h7]; rfl)]
      exact hset (by simp only [aluOp32, h3, h7, divS_sext, divU_sext, remS_sext, remU_sext]; rfl)
    all_goals exact delegate32_alike (by simp only [flattenOp, ho, h3, h7]; rfl)
  · exact delegate32_alike (by simp only [flattenOp, ho])

/-! ## Immediates -/

theorem shamt_eq (insn : BitVec 32) {n : Nat} (hn : n ≤ 12) :
    (insn >>> 20 &&& BitVec.ofNat 32 (2 ^ n - 1)).toNat = (imm12Of insn &&& BitVec.ofNat 12 (2 ^ n - 1)).toNat := by
  have h12 : imm12Of insn &&& BitVec.ofNat 12 (2 ^ n - 1) = (insn.extractLsb' 20 n).setWidth 12 := by
    apply BitVec.eq_of_getLsbD_eq
    intro i hi
    simp only [imm12Of, BitVec.getLsbD_and, BitVec.getLsbD_extractLsb', BitVec.getLsbD_ofNat,
      Nat.testBit_two_pow_sub_one, BitVec.getLsbD_setWidth]
    grind
  rw [BitField.shr_and_mask, h12, BitVec.toNat_setWidth_of_le (by omega), BitVec.toNat_setWidth_of_le hn]

theorem sh6_eq (insn : BitVec 32) : (insn >>> 20 &&& 0x3F).toNat = (imm12Of insn &&& 0x3F).toNat :=
  shamt_eq insn (n := 6) (by decide)

theorem sh5_eq (insn : BitVec 32) : (insn >>> 20 &&& 0x1F).toNat = (imm12Of insn &&& 0x1F).toNat :=
  shamt_eq insn (n := 5) (by decide)

theorem funct6_eq (insn : BitVec 32) : (imm12Of insn).extractLsb' 6 6 = (funct7Of insn).extractLsb' 1 6 := by
  apply BitVec.eq_of_getLsbD_eq
  intro i hi
  simp only [imm12Of, funct7Of, BitVec.getLsbD_extractLsb']
  grind

theorem andNot_one_cases (f : BitVec 7) :
    (andNot f 1 = 0x00#7 ↔ f.extractLsb' 1 6 = 0x00#6) ∧ (andNot f 1 = 0x20#7 ↔ f.extractLsb' 1 6 = 0x10#6) := by
  revert f
  decide

theorem itype_imm (ho : opcodeOf insn = 0x03#7 ∨ opcodeOf insn = 0x13#7 ∨ opcodeOf insn = 0x1B#7 ∨
    opcodeOf insn = 0x67#7) (op : SlotOp) : (wordSlot insn op).imm64 = iimm insn := by
  refine decodeImm32_itype ?_
  rcases ho with ho | ho | ho | ho <;> simp only [decodeImm32, ho]

theorem opImm_alike (ho : opcodeOf insn = 0x13#7) :
    SameOutcome (runCached32 fp insn c) (stepFromInsn fp insn c) := by
  have hs : stepFromInsn fp insn c = fallThrough 4 (execOpImm insn) (c.setWfi false) := by
    simp only [stepFromInsn_run, execInsn, ho]
  have himm := itype_imm (.inr (.inl ho))
  have hset {v : BitVec 64 → Cpu → BitVec 64} (hv : aluOpImm insn (c.x (rs1Of insn)) = some (v c.pc c)) :
      SameOutcome (runArm (armSet 4 (rdOf insn) v) c) (stepFromInsn fp insn c) := by
    rw [hs]
    exact armSet_alike rfl hv
  obtain ⟨h0, h20⟩ := andNot_one_cases (funct7Of insn)
  rw [← funct6_eq] at h0 h20
  rcases funct3_cases (funct3Of insn) with h3 | h3 | h3 | h3 | h3 | h3 | h3 | h3
  case inr.inl =>
    by_cases h6 : (imm12Of insn).extractLsb' 6 6 = 0x00#6
    · rw [runCached32_eq (o := .slli) (by simp only [flattenOp, ho, h3]; exact if_pos (h0.2 h6))]
      exact hset (by simp only [aluOpImm, h3, h6]; rw [← sh6_eq]; rfl)
    · exact delegate32_alike (by simp only [flattenOp, ho, h3]; exact if_neg (mt h0.1 h6))
  case inr.inr.inr.inr.inr.inl =>
    by_cases h6 : (imm12Of insn).extractLsb' 6 6 = 0x00#6
    · rw [runCached32_eq (o := .srli) (by simp only [flattenOp, ho, h3]; exact if_pos (h0.2 h6))]
      exact hset (by simp only [aluOpImm, h3, h6]; rw [← sh6_eq]; rfl)
    · by_cases h6' : (imm12Of insn).extractLsb' 6 6 = 0x10#6
      · rw [runCached32_eq (o := .srai)
          (by simp only [flattenOp, ho, h3]; exact (if_neg (mt h0.1 h6)).trans (if_pos (h20.2 h6')))]
        exact hset (by simp only [aluOpImm, h3, h6']; rw [← sh6_eq]; rfl)
      · exact delegate32_alike
          (by simp only [flattenOp, ho, h3]; exact (if_neg (mt h0.1 h6)).trans (if_neg (mt h20.1 h6')))
  all_goals
    rw [runCached32_eq (by simp only [flattenOp, ho, h3]; rfl)]
    exact hset (by simp only [aluOpImm, h3, himm]; rfl)

theorem opImm32_alike (ho : opcodeOf insn = 0x1B#7) :
    SameOutcome (runCached32 fp insn c) (stepFromInsn fp insn c) := by
  have hs : stepFromInsn fp insn c = fallThrough 4 (execOpImm32 insn) (c.setWfi false) := by
    simp only [stepFromInsn_run, execInsn, ho]
  have hset {v : BitVec 64 → Cpu → BitVec 64} (hv : aluOpImm32 insn (c.x (rs1Of insn)) = some (v c.pc c)) :
      SameOutcome (runArm (armSet 4 (rdOf insn) v) c) (stepFromInsn fp insn c) := by
    rw [hs]
    exact armSet_alike rfl hv
  have himm : (iimm insn).setWidth 32 = decodeImm32 insn := by
    rw [← decodeImm32_itype (by simp only [decodeImm32, ho]), BitField.setWidth_signExtend32]
  rcases funct3_cases (funct3Of insn) with h3 | h3 | h3 | h3 | h3 | h3 | h3 | h3
  case inl =>
    rw [runCached32_eq (by simp only [flattenOp, ho, h3]; rfl)]
    exact hset (by simp only [aluOpImm32, h3, himm]; rfl)
  case inr.inl =>
    by_cases h7 : funct7Of insn = 0x00#7
    · rw [runCached32_eq (o := .slliw) (by simp only [flattenOp, ho, h3]; exact if_pos h7)]
      exact hset (by simp only [aluOpImm32, h3, h7]; rw [← sh5_eq]; rfl)
    · exact delegate32_alike (by simp only [flattenOp, ho, h3]; exact if_neg h7)
  case inr.inr.inr.inr.inr.inl =>
    by_cases h7 : funct7Of insn = 0x00#7
    · rw [runCached32_eq (o := .srliw) (by simp only [flattenOp, ho, h3]; exact if_pos h7)]
      exact hset (by simp only [aluOpImm32, h3, h7]; rw [← sh5_eq]; rfl)
    · by_cases h7' : funct7Of insn = 0x20#7
      · rw [runCached32_eq (o := .sraiw) (by simp only [flattenOp, ho, h3]; exact (if_neg h7).trans (if_pos h7'))]
        exact hset (by simp only [aluOpImm32, h3, h7']; rw [← sh5_eq]; rfl)
      · exact delegate32_alike (by simp only [flattenOp, ho, h3]; exact (if_neg h7).trans (if_neg h7'))
  all_goals exact delegate32_alike (by simp only [flattenOp, ho, h3]; rfl)

theorem upper_alike (ho : opcodeOf insn = 0x37#7 ∨ opcodeOf insn = 0x17#7 ∨ opcodeOf insn = 0x0F#7) :
    SameOutcome (runCached32 fp insn c) (stepFromInsn fp insn c) := by
  rcases ho with ho | ho | ho
  · have himm : (decodeImm32 insn).signExtend 64 = uimm20 insn := by simp only [decodeImm32, ho, uimm20]
    rw [runCached32_eq (o := .lui) (by simp only [flattenOp, ho]), stepFromInsn_run]
    simp only [execInsn, ho, ← himm]
    exact armStep_alike rfl rfl
  · have himm : (decodeImm32 insn).signExtend 64 = uimm20 insn := by simp only [decodeImm32, ho, uimm20]
    rw [runCached32_eq (o := .auipc) (by simp only [flattenOp, ho]), stepFromInsn_run]
    simp only [execInsn, ho, ← himm]
    exact armStep_alike rfl rfl
  · rw [runCached32_eq (o := .fence) (by simp only [flattenOp, ho]), stepFromInsn_run]
    simp only [execInsn, ho]
    exact ⟨rfl, rfl, rfl, rfl, rfl, rfl, rfl, rfl, rfl⟩

/-! ## Control flow -/

theorem jump_alike (ho : opcodeOf insn = 0x6F#7 ∨ opcodeOf insn = 0x67#7) :
    SameOutcome (runCached32 fp insn c) (stepFromInsn fp insn c) := by
  rcases ho with ho | ho
  · have himm : (decodeImm32 insn).signExtend 64 = jimm insn := by
      rw [← jtype_sext]
      simp only [decodeImm32, ho]
    rw [runCached32_eq (o := .jal) (by simp only [flattenOp, ho]), stepFromInsn_run]
    simp only [execInsn, ho, execJal, ← himm]
    exact ⟨rfl, rfl, rfl, rfl, rfl, rfl, rfl, rfl, rfl⟩
  · have himm := itype_imm (.inr (.inr (.inr ho))) .jalr
    rw [runCached32_eq (o := .jalr) (by simp only [flattenOp, ho]), stepFromInsn_run]
    simp only [execInsn, ho, execJalr, ← himm]
    exact ⟨rfl, rfl, rfl, rfl, rfl, rfl, rfl, rfl, rfl⟩

theorem branch_alike (ho : opcodeOf insn = 0x63#7) :
    SameOutcome (runCached32 fp insn c) (stepFromInsn fp insn c) := by
  have hs : stepFromInsn fp insn c = execBranch insn (c.setWfi false) := by
    simp only [stepFromInsn_run, execInsn, ho]
  have himm : (decodeImm32 insn).signExtend 64 = bimm insn := by
    rw [← btype_sext]
    simp only [decodeImm32, ho]
  have hset {cond : Cpu → Bool}
      (hv : branchTaken (funct3Of insn) (c.x (rs1Of insn)) (c.x (rs2Of insn)) = some (cond c)) :
      SameOutcome (runArm (armBranch 4 ((decodeImm32 insn).signExtend 64) cond) c) (stepFromInsn fp insn c) := by
    have hx : ∀ r, (c.setWfi false).x r = c.x r := fun _ => rfl
    rw [hs, execBranch, gets_bind_run, himm]
    simp only [id, hx, hv]
    cases hc : cond c
    · exact armBranch_alike rfl (by rw [hc]; rfl)
    · exact armBranch_alike rfl (by rw [hc]; rfl)
  rcases funct3_cases (funct3Of insn) with h3 | h3 | h3 | h3 | h3 | h3 | h3 | h3
  case inr.inr.inl | inr.inr.inr.inl => exact delegate32_alike (by simp only [flattenOp, ho, h3]; rfl)
  all_goals
    rw [runCached32_eq (by simp only [flattenOp, ho, h3]; rfl)]
    exact hset (by simp only [branchTaken, h3]; rfl)

/-! ## Memory -/

theorem armLoad_alike {α : Type} {addr : Cpu → BitVec 64} {a : BitVec 64}
    {acc : BitVec 64 → Exec GuestMemory MemFault α} {hart : MemOp α} {g : α → BitVec 64}
    (hmmu : c.mmu = none) (ha : addr c = a) (hd : Direct hart (acc a))
    (hbody : body (c.setWfi false) = (hart.lift >>= fun v => setRegM rd (g v)) (c.setWfi false)) :
    SameOutcome (runArm (armLoad 4 addr acc fun c v => c.setReg rd (g v)) c) (fallThrough 4 body (c.setWfi false)) := by
  subst ha
  refine (armLoad_alike_iff rfl hmmu hd hbody (fun _ _ => rfl) fun v v' s s' h h' _ => ?_).2 (.refl _)
  rw [h] at h'
  cases h'
  rfl

theorem armStore_alike {acc : Cpu → Exec GuestMemory MemFault Unit} {hart : MemOp Unit}
    (hmmu : c.mmu = none) (hd : Direct hart (acc c)) (hbody : body (c.setWfi false) = hart.lift (c.setWfi false)) :
    SameOutcome (runArm (armStore 4 acc) c) (fallThrough 4 body (c.setWfi false)) :=
  (armStore_alike_iff rfl hmmu hd hbody).2 (.refl _)

theorem load_alike_iff (ho : opcodeOf insn = 0x03#7) (hmmu : c.mmu = none) (hmmio : c.mem.mmio = none) :
    SameOutcome (runCached32 fp insn c) (stepFromInsn fp insn c) ↔
      (funct3Of insn = 3#3 → c.mem.dwordAlike (c.x (rs1Of insn) + iimm insn) .load) := by
  have hs : stepFromInsn fp insn c = fallThrough 4 (execLoad insn) (c.setWfi false) := by
    simp only [stepFromInsn_run, execInsn, ho]
  have hx : ∀ r, (c.setWfi false).x r = c.x r := fun _ => rfl
  have ha : ∀ op, (wordSlot insn op).addr c = c.x (rs1Of insn) + iimm insn := fun op => by
    rw [DecodedInsn.addr, itype_imm (Or.inl ho)]
    rfl
  rcases funct3_cases (funct3Of insn) with h3 | h3 | h3 | h3 | h3 | h3 | h3 | h3
  case inr.inr.inr.inl =>
    have hbody : execLoad insn (c.setWfi false) =
        ((load64M (c.x (rs1Of insn) + iimm insn)).lift >>= fun v => setRegM (rdOf insn) v) (c.setWfi false) := by
      simp only [execLoad, gets_bind_run, h3, hx]
    rw [runCached32_eq (by simp only [flattenOp, ho, h3]; rfl), hs]
    refine (armLoad_alike_iff rfl hmmu (.load64M _) hbody (fun _ _ => rfl) fun v v' s s' h h' _ => ?_).trans ?_
    · rw [ha, loadDword_eq] at h
      exact load64_values hmmio h h'
    · rw [ha, loadDword_eq, load64_alike_iff hmmio]
      simp [h3]
  case inr.inr.inr.inr.inr.inr.inr =>
    exact iff_of_true (delegate32_alike (by simp only [flattenOp, ho, h3]; rfl)) (by simp [h3])
  all_goals
    refine iff_of_true ?_ (by simp [h3])
    rw [runCached32_eq (by simp only [flattenOp, ho, h3]; rfl), hs]
  · exact armLoad_alike hmmu (ha _) (.load8 _) (by simp only [execLoad, gets_bind_run, h3, hx, wordSlot_rd])
  · exact armLoad_alike hmmu (ha _) (.load16M _) (by simp only [execLoad, gets_bind_run, h3, hx, wordSlot_rd])
  · exact armLoad_alike hmmu (ha _) (.load32M _) (by simp only [execLoad, gets_bind_run, h3, hx, wordSlot_rd])
  · exact armLoad_alike hmmu (ha _) (.load8 _) (by simp only [execLoad, gets_bind_run, h3, hx, wordSlot_rd])
  · exact armLoad_alike hmmu (ha _) (.load16M _) (by simp only [execLoad, gets_bind_run, h3, hx, wordSlot_rd])
  · exact armLoad_alike hmmu (ha _) (.load32M _) (by simp only [execLoad, gets_bind_run, h3, hx, wordSlot_rd])

theorem store_alike_iff (ho : opcodeOf insn = 0x23#7) (hmmu : c.mmu = none) (hmmio : c.mem.mmio = none) :
    SameOutcome (runCached32 fp insn c) (stepFromInsn fp insn c) ↔
      (funct3Of insn = 3#3 → c.mem.dwordAlike (c.x (rs1Of insn) + simm insn) .store) := by
  have hs : stepFromInsn fp insn c = fallThrough 4 (execStore insn) (c.setWfi false) := by
    simp only [stepFromInsn_run, execInsn, ho]
  have hx : ∀ r, (c.setWfi false).x r = c.x r := fun _ => rfl
  have himm : (decodeImm32 insn).signExtend 64 = simm insn := by
    rw [← stype_sext]
    simp only [decodeImm32, ho]
  have ha : ∀ op, (wordSlot insn op).addr c = c.x (rs1Of insn) + simm insn := fun op => by
    rw [← himm]
    rfl
  rcases funct3_cases (funct3Of insn) with h3 | h3 | h3 | h3 | h3 | h3 | h3 | h3
  case inr.inr.inr.inl =>
    have hbody : execStore insn (c.setWfi false) =
        (store64M (c.x (rs1Of insn) + simm insn) (c.x (rs2Of insn))).lift (c.setWfi false) := by
      simp only [execStore, gets_bind_run, h3, hx]
    rw [runCached32_eq (by simp only [flattenOp, ho, h3]; rfl), hs]
    refine (armStore_alike_iff rfl hmmu (.store64M _ _) hbody).trans ?_
    rw [ha, storeDword_eq]
    exact (store64_alike_iff hmmio).trans (by simp [h3])
  case inl =>
    refine iff_of_true ?_ (by simp [h3])
    rw [runCached32_eq (by simp only [flattenOp, ho, h3]; rfl), hs]
    refine armStore_alike hmmu (by rw [ha]; exact .store8 _ _) ?_
    simp only [execStore, gets_bind_run, h3, hx]
    rfl
  case inr.inl =>
    refine iff_of_true ?_ (by simp [h3])
    rw [runCached32_eq (by simp only [flattenOp, ho, h3]; rfl), hs]
    refine armStore_alike hmmu (by rw [ha]; exact .store16M _ _) ?_
    simp only [execStore, gets_bind_run, h3, hx]
    rfl
  case inr.inr.inl =>
    refine iff_of_true ?_ (by simp [h3])
    rw [runCached32_eq (by simp only [flattenOp, ho, h3]; rfl), hs]
    refine armStore_alike hmmu (by rw [ha]; exact .store32M _ _) ?_
    simp only [execStore, gets_bind_run, h3, hx]
    rfl
  all_goals exact iff_of_true (delegate32_alike (by simp only [flattenOp, ho, h3]; rfl)) (by simp [h3])

/-! ## Every instruction -/

/-- **32-bit instructions through the decoder cache.**  On a hart without an MMU and without
devices the cached arm and the interpreter end alike exactly under `WordAlike`. -/
theorem runCached32_alike_iff (fp : HostFP) (c : Cpu) (insn : BitVec 32) (hmmu : c.mmu = none)
    (hmmio : c.mem.mmio = none) :
    SameOutcome (runCached32 fp insn c) (stepFromInsn fp insn c) ↔ WordAlike c insn := by
  by_cases hl : opcodeOf insn = 0x03#7
  · rw [load_alike_iff hl hmmu hmmio, WordAlike]
    simp [hl]
  by_cases hs : opcodeOf insn = 0x23#7
  · rw [store_alike_iff hs hmmu hmmio, WordAlike]
    simp [hs]
  refine iff_of_true ?_ ⟨fun h => absurd h.1 hl, fun h => absurd h.1 hs⟩
  by_cases h63 : opcodeOf insn = 0x63#7
  · exact branch_alike h63
  by_cases h13 : opcodeOf insn = 0x13#7
  · exact opImm_alike h13
  by_cases h1B : opcodeOf insn = 0x1B#7
  · exact opImm32_alike h1B
  by_cases h33 : opcodeOf insn = 0x33#7
  · exact op_alike h33
  by_cases h3B : opcodeOf insn = 0x3B#7
  · exact op32_alike h3B
  by_cases hu : opcodeOf insn = 0x37#7 ∨ opcodeOf insn = 0x17#7 ∨ opcodeOf insn = 0x0F#7
  · exact upper_alike hu
  by_cases hj : opcodeOf insn = 0x6F#7 ∨ opcodeOf insn = 0x67#7
  · exact jump_alike hj
  simp only [not_or] at hu hj
  exact delegate32_alike
    (flattenOp_other ⟨hl, hs, h63, h13, h1B, h33, h3B, hu.2.2, hu.2.1, hu.1, hj.1, hj.2⟩ _ _)

/-- an overlay that forbids every page but the first -/
def firstPageOnly : AccessOverlay where
  checkGuestAccess addr width kind _ :=
    if addr + width ≤ 4096 then none else some { addr := addr, width := width, kind := kind }
  reports addr width kind size f h := by
    split_ifs at h
    exact (Option.some.inj h).symm

/-- a hart that may use the first page of its memory, with 4092 in every register but `x0` -/
def pagedCpu : Cpu :=
  let m := newGuestMemoryWithModel 16 .sandbox true
  { newCPU { m with accessOverlay := some firstPageOnly } with x := fun r => if r = 0 then 0 else 4092 }

/-- the condition is met by an addition … -/
theorem runCached32_alike_add : SameOutcome (runCached32 default 0x00628333#32 pagedCpu)
    (stepFromInsn default 0x00628333#32 pagedCpu) :=
  (runCached32_alike_iff default pagedCpu 0x00628333#32 rfl rfl).2
    ⟨fun h => absurd h.1 (by decide), fun h => absurd h.1 (by decide)⟩

/-- … but not by `ld x5, 0(x6)` across the end of the page: the cache reports the fault at 4096, the interpreter at 4092
-/
theorem runCached32_ld_straddle : pagedCpu.mmu = none ∧ pagedCpu.mem.mmio = none ∧
    ¬ SameOutcome (runCached32 default 0x00033283#32 pagedCpu) (stepFromInsn default 0x00033283#32 pagedCpu) := by
  refine ⟨rfl, rfl, fun hs => ?_⟩
  have hc : (runCached32 default 0x00033283#32 pagedCpu).1.mapError StepError.view =
      .error (.inr (.load, 4096#64)) := by rfl
  have hi : (stepFromInsn default 0x00033283#32 pagedCpu).1.mapError StepError.view =
      .error (.inr (.load, 4092#64)) := by rfl
  have h := hs.result
  rw [hc, hi] at h
  simp at h

end RiscvEmu
