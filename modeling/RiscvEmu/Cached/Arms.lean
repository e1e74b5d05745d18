/-
What the arms of the megaswitch do, said once.

• `ArmDoes`, `arm_does`: an inline arm is illegal, or it makes at most one access straight on guest memory
  (`inlineAccess`) and leaves the inner loop at once if that is refused, or it writes the integer registers and goes
  on. `C.EBREAK` may trap.
• `arm_next_pc`: a slot that has a successor goes there.
-/
import RiscvEmu.Cached.Loop
import RiscvEmu.Cpu.Effect

namespace RiscvEmu

open GuestMemory List

open Exec

/-- the classes with a compressed encoding -/
def SlotOp.compressed : SlotOp → Bool
  | .cADDI4SPN | .cFLD | .cLW | .cLD | .cFSD | .cSW | .cSD
  | .cADDI | .cADDIW | .cLI | .cLUIorADDI16SP | .cMISCALU | .cJ | .cBEQZ | .cBNEZ
  | .cSLLI | .cFLDSP | .cLWSP | .cLDSP | .cJR | .cMV | .cEBREAK | .cJALR | .cADD | .cFSDSP | .cSWSP | .cSDSP
  | .caSRLI | .caSRAI | .caANDI | .caSUB | .caXOR | .caOR | .caAND | .caSUBW | .caADDW => true
  | _ => false

def SlotOp.bytes (op : SlotOp) : BitVec 64 := if op.compressed then 2 else 4

/-- the inline classes that do not simply go on behind the instruction -/
def SlotOp.flow : SlotOp → Bool
  | .beq | .bne | .blt | .bge | .bltu | .bgeu | .jal | .jalr
  | .cJ | .cBEQZ | .cBNEZ | .cJR | .cEBREAK | .cJALR => true
  | _ => false

namespace DecodedInsn

variable (slot : DecodedInsn) (c : Cpu)

/-- the encodings that an inline arm refuses -/
def inlineIllegal : Bool :=
  match slot.op with
  | .cADDI4SPN => slot.imm = 0
  | .cADDIW | .cSLLI | .cLWSP | .cLDSP => slot.rd = 0
  | .cLUIorADDI16SP => if slot.rd = 2 then slot.imm = 0 else slot.rd = 0 ∨ slot.imm = 0
  | _ => false

/-- the access of an inline arm -/
def inlineAccess : Option (Exec GuestMemory MemFault Unit) :=
  match slot.op with
  | .lb | .lbu => some (forget (GuestMemory.load8 (slot.addr c)))
  | .lh | .lhu => some (forget (GuestMemory.load16M (slot.addr c)))
  | .lw | .lwu => some (forget (GuestMemory.load32M (slot.addr c)))
  | .ld | .cLD => some (forget (loadDword (slot.addr c)))
  | .cLW => some (forget (GuestMemory.load32 (slot.addr c)))
  | .cLWSP => if slot.rd = 0 then none else some (forget (GuestMemory.load32 (slot.spAddr c)))
  | .cLDSP => if slot.rd = 0 then none else some (forget (loadDword (slot.spAddr c)))
  | .sb => some (GuestMemory.store8 (slot.addr c) ((slot.b c).setWidth 8))
  | .sh => some (GuestMemory.store16M (slot.addr c) ((slot.b c).setWidth 16))
  | .sw => some (GuestMemory.store32M (slot.addr c) (slot.b32 c))
  | .sd | .cSD => some (storeDword (slot.addr c) (slot.b c))
  | .cSW => some (GuestMemory.store32 (slot.addr c) (slot.b32 c))
  | .cSWSP => some (GuestMemory.store32 (slot.spAddr c) (slot.b32 c))
  | .cSDSP => some (storeDword (slot.spAddr c) (slot.b c))
  | _ => none

end DecodedInsn

/-- what an inline arm can do -/
inductive ArmDoes (slot : DecodedInsn) (pc : BitVec 64) (c : Cpu) : ArmEnd × Cpu → Prop
  | illegal (hi : slot.inlineIllegal = true) : ArmDoes slot pc c (.breakInner .illegalInstruction, c)
  | refused {a : Exec GuestMemory MemFault Unit} {f : MemFault} {m : GuestMemory} (hi : slot.inlineIllegal = false)
      (ha : slot.inlineAccess c = some a) (hr : a c.mem = (.error f, m)) :
      ArmDoes slot pc c (.breakInner (.memFault f), c.setMem m)
  | accessed {a : Exec GuestMemory MemFault Unit} {m : GuestMemory} (hi : slot.inlineIllegal = false)
      (ha : slot.inlineAccess c = some a) (hr : a c.mem = (.ok (), m)) (hflow : slot.op.flow = false)
      (x : BitVec 5 → BitVec 64) : ArmDoes slot pc c (.next (pc + slot.op.bytes) true, { c with mem := m, x := x })
  | wrote (hi : slot.inlineIllegal = false) (ha : slot.inlineAccess c = none) {pc' : BitVec 64}
      (hfall : slot.op.flow = false → pc' = pc + slot.op.bytes)
      (hjump : slot.op = .jal ∨ slot.op = .cJ → pc' = pc + slot.imm64) (x : BitVec 5 → BitVec 64) :
      ArmDoes slot pc c (.next pc' true, { c with x := x })
  | ebreak (hop : slot.op = .cEBREAK) : ArmDoes slot pc c (armEbreak pc c)

section Does

variable {slot : DecodedInsn} {pc : BitVec 64} {c : Cpu} {len : BitVec 64} {o : SlotOp}

def Does (slot : DecodedInsn) (pc : BitVec 64) (c : Cpu) (a : Arm) : Prop := ArmDoes slot pc c (a pc c)

/-- the slot has the class `o`, is not refused and makes the access `a` -/
structure Takes (slot : DecodedInsn) (c : Cpu) (o : SlotOp) (a : Option (Exec GuestMemory MemFault Unit)) : Prop where
  op : slot.op = o
  legal : slot.inlineIllegal = false
  access : slot.inlineAccess c = a

/-- the inline classes that only write a register, whatever their fields are -/
def SlotOp.plain : SlotOp → Bool
  | .fence | .addi | .slti | .sltiu | .xori | .ori | .andi | .slli | .srli | .srai
  | .auipc | .addiw | .slliw | .srliw | .sraiw | .lui
  | .add | .sll | .slt | .sltu | .xor | .srl | .or | .and | .sub | .sra
  | .mul | .mulh | .mulhsu | .mulhu | .div | .divu | .rem | .remu
  | .addw | .sllw | .srlw | .subw | .sraw | .mulw | .divw | .divuw | .remw | .remuw
  | .cADDI | .cLI | .caSRLI | .caSRAI | .caANDI | .caSUB | .caXOR | .caOR | .caAND | .caSUBW | .caADDW
  | .cMV | .cADD => true
  | _ => false

theorem takes_plain (hp : slot.op.plain = true) : Takes slot c slot.op none := by
  obtain ⟨len, op, rd, rs1, rs2, funct3, funct7, imm, insn⟩ := slot
  refine ⟨rfl, ?_, ?_⟩ <;> cases op <;> first | rfl | cases hp

theorem armStep_does {u : BitVec 64 → Cpu → Cpu} (h : Takes slot c o none) (hb : o.bytes = len)
    (hj : o ≠ .jal ∧ o ≠ .cJ) (hu : ∃ x, u pc c = { c with x := x }) : Does slot pc c (armStep len u) := by
  obtain ⟨x, hx⟩ := hu
  unfold Does armStep
  rw [hx]
  refine .wrote h.legal h.access (fun _ => ?_) (fun hjump => ?_) x
  · rw [h.op, hb]
  · rw [h.op] at hjump
    exact (hjump.elim hj.1 hj.2).elim

theorem armSet_does {rd : BitVec 5} {v : BitVec 64 → Cpu → BitVec 64} (hp : slot.op.plain = true)
    (hb : slot.op.bytes = len) : Does slot pc c (armSet len rd v) := by
  refine armStep_does (takes_plain hp) hb ?_ ⟨_, rfl⟩
  constructor <;> intro hop <;> rw [hop] at hp <;> cases hp

theorem armPut_does {rd : BitVec 5} {v : Cpu → BitVec 64} (h : Takes slot c o none) (hb : o.bytes = len)
    (hj : o ≠ .jal ∧ o ≠ .cJ) : Does slot pc c (armPut len rd v) := armStep_does h hb hj ⟨_, rfl⟩

theorem orIllegal_does {p : Prop} [Decidable p] {a : Arm} (hi : slot.inlineIllegal = decide p)
    (ha : slot.inlineIllegal = false → ¬ p → Does slot pc c a) : Does slot pc c (if p then armIllegal else a) := by
  split_ifs with hp
  · exact .illegal (by rw [hi, decide_eq_true hp])
  · exact ha (by rw [hi, decide_eq_false hp]) hp

theorem armLoad_does {α : Type} {addr : Cpu → BitVec 64} {acc : BitVec 64 → Exec GuestMemory MemFault α}
    {k : Cpu → α → Cpu} (h : Takes slot c o (some (forget (acc (addr c))))) (hb : o.bytes = len)
    (hflow : o.flow = false)
    (hk : ∀ m v, ∃ x, k (c.setMem m) v = { c with mem := m, x := x }) : Does slot pc c (armLoad len addr acc k) := by
  unfold Does armLoad
  rw [onMem_run]
  rcases hr : acc (addr c) c.mem with ⟨f | v, m⟩
  · exact .refused h.legal h.access (forget_of_error hr)
  · obtain ⟨x, hx⟩ := hk m v
    dsimp only
    rw [hx, ← hb, ← h.op]
    exact .accessed h.legal h.access (forget_of_ok hr) (by rw [h.op, hflow]) x

theorem armStore_does {acc : Cpu → Exec GuestMemory MemFault Unit} (h : Takes slot c o (some (acc c)))
    (hb : o.bytes = len) (hflow : o.flow = false) : Does slot pc c (armStore len acc) := by
  unfold Does armStore
  rw [onMem_run]
  rcases hr : acc c c.mem with ⟨f | v, m⟩
  · exact .refused h.legal h.access hr
  · dsimp only
    rw [← hb, ← h.op]
    exact .accessed h.legal h.access hr (by rw [h.op, hflow]) c.x

theorem jump_does {pc' : BitVec 64} (h : Takes slot c o none) (hflow : o.flow = true) {x : BitVec 5 → BitVec 64}
    (hjump : o = .jal ∨ o = .cJ → pc' = pc + slot.imm64) : ArmDoes slot pc c (.next pc' true, { c with x := x }) := by
  refine .wrote h.legal h.access (fun hf => ?_) (fun hj => hjump (by rwa [h.op] at hj)) x
  rw [h.op, hflow] at hf
  cases hf

end Does

variable (fp : HostFP)

/-- **The arms.**  Every inline arm does one of these. -/
theorem arm_does (slot : DecodedInsn) (pc : BitVec 64) (c : Cpu) (hd : slot.op.delegated = false) :
    ArmDoes slot pc c (arm fp slot pc c) := by
  change Does slot pc c (arm fp slot)
  obtain ⟨len, op, rd, rs1, rs2, funct3, funct7, imm, insn⟩ := slot
  cases op
  case raw | cFLD | cFSD | cFLDSP | cFSDSP | cMISCALU | fallback | delegate => cases hd
  case lb | lh | lw | ld | lbu | lhu | lwu | cLW | cLD =>
    exact armLoad_does ⟨rfl, rfl, rfl⟩ rfl rfl fun m v => ⟨_, rfl⟩
  case sb | sh | sw | sd | cSW | cSD | cSWSP | cSDSP => exact armStore_does ⟨rfl, rfl, rfl⟩ rfl rfl
  case beq | bne | blt | bge | bltu | bgeu | jalr | jal | cJ | cBEQZ | cBNEZ | cJR | cJALR =>
    exact jump_does ⟨rfl, rfl, rfl⟩ rfl (by simp)
  -- classes that refuse some encodings
  case cADDI4SPN | cADDIW | cSLLI =>
    exact orIllegal_does rfl fun hl _ => armPut_does ⟨rfl, hl, rfl⟩ rfl ⟨nofun, nofun⟩
  case cLWSP | cLDSP =>
    exact orIllegal_does rfl fun hl hrd => armLoad_does ⟨rfl, hl, if_neg hrd⟩ rfl rfl fun m v => ⟨_, rfl⟩
  case cLUIorADDI16SP =>
    by_cases h2 : rd = 2
    · subst h2
      exact orIllegal_does rfl fun hl _ => armPut_does ⟨rfl, hl, rfl⟩ rfl ⟨nofun, nofun⟩
    · have harm : arm fp ⟨len, .cLUIorADDI16SP, rd, rs1, rs2, funct3, funct7, imm, insn⟩ =
        if rd = 0 ∨ imm = 0 then armIllegal else armPut 2 rd fun _ => imm.signExtend 64 := if_neg h2
      rw [harm]
      exact orIllegal_does (if_neg h2) fun hl _ => armPut_does ⟨rfl, hl, rfl⟩ rfl ⟨nofun, nofun⟩
  case cEBREAK => exact .ebreak rfl
  -- register writes
  case fence => exact armStep_does (takes_plain rfl) rfl ⟨nofun, nofun⟩ ⟨c.x, rfl⟩
  case caSRLI | caSRAI | caANDI | caSUB | caXOR | caOR | caAND | caSUBW | caADDW | cMV | cADD =>
    exact armPut_does (takes_plain rfl) rfl ⟨nofun, nofun⟩
  all_goals exact armSet_does rfl rfl

theorem ArmDoes.next_pc {pc' : BitVec 64} {retired : Bool} {c' : Cpu} {c : Cpu} {slot : DecodedInsn} {pc : BitVec 64}
    {r : ArmEnd × Cpu} (h : ArmDoes slot pc c r)
    (he : slot.op ≠ .cEBREAK) (hr : r = (.next pc' retired, c')) :
    (slot.op.flow = false → pc' = pc + slot.op.bytes) ∧ (slot.op = .jal ∨ slot.op = .cJ → pc' = pc + slot.imm64) := by
  cases h with
  | illegal hi => cases hr
  | refused hi ha hm => cases hr
  | accessed hi ha hm hflow x =>
    cases hr
    refine ⟨fun _ => rfl, fun hop => ?_⟩
    rcases hop with hop | hop <;> rw [hop] at hflow <;> cases hflow
  | wrote hi ha hfall hjump x =>
    cases hr
    exact ⟨hfall, hjump⟩
  | ebreak hop => exact absurd hop he

/-! ## Recorded slots -/

def Fetched.len : Fetched → Nat
  | .half _ => 2
  | .word _ => 4

def Fetched.bits : Fetched → BitVec 32
  | .half insn => insn.setWidth 32
  | .word insn => insn

/-- the instruction that a slot was recorded from -/
def DecodedInsn.fetched (d : DecodedInsn) : Fetched := if d.len = 2 then .half (d.insn.setWidth 16) else .word d.insn

variable (d : DecodedInsn)

theorem flattenSlotOp_keeps : (flattenSlotOp d).len = d.len ∧ (flattenSlotOp d).insn = d.insn := by
  unfold flattenSlotOp flattenMiscALU
  dsimp only
  split
  · split
    · exact ⟨rfl, rfl⟩
    · exact ⟨rfl, rfl⟩
    · exact ⟨rfl, rfl⟩
    · split_ifs <;> split <;> exact ⟨rfl, rfl⟩
  · exact ⟨rfl, rfl⟩
  · exact ⟨rfl, rfl⟩

variable (insn : BitVec 16)

theorem decodeRVC_keeps : (decodeRVC insn).len = 2 ∧ (decodeRVC insn).insn = insn.setWidth 32 := by
  unfold decodeRVC
  split
  · unfold decodeRvc0
    dsimp only
    split <;> exact ⟨rfl, rfl⟩
  · unfold decodeRvc1
    dsimp only
    split <;> exact ⟨rfl, rfl⟩
  · unfold decodeRvc2
    dsimp only
    split
    case h_5 => split_ifs <;> exact ⟨rfl, rfl⟩
    all_goals exact ⟨rfl, rfl⟩
  · exact ⟨rfl, rfl⟩

section Recorded

variable (dc : DecoderCache) (pc : BitVec 64) (i : Fetched)

theorem slotOf_len : (slotOf dc pc i).insn.len = i.len := by
  refine (flattenSlotOp_keeps _).1.trans ?_
  cases i with
  | half insn => exact (decodeRVC_keeps insn).1
  | word insn => rfl

theorem slotOf_insn : (slotOf dc pc i).insn.insn = i.bits := by
  refine (flattenSlotOp_keeps _).2.trans ?_
  cases i with
  | half insn => exact (decodeRVC_keeps insn).2
  | word insn => rfl

theorem slotOf_next :
    (slotOf dc pc i).next = if (decodeFetched i).blockEnd = false then dc.lookup (pc + BitVec.ofNat 64 i.len)
    else if (slotOf dc pc i).insn.op = .jal ∨ (slotOf dc pc i).insn.op = .cJ then
      dc.lookup (pc + (slotOf dc pc i).insn.imm64)
    else none := by
  rw [← slotOf_len dc pc i]
  unfold slotOf
  dsimp only
  cases (decodeFetched i).blockEnd <;> rfl

theorem slotOf_fetched : (slotOf dc pc i).insn.fetched = i := by
  unfold DecodedInsn.fetched
  rw [slotOf_len, slotOf_insn]
  cases i with
  | half insn => exact congrArg Fetched.half (by simp [Fetched.bits])
  | word insn => rfl

end Recorded

/-- the flat class of a 32-bit instruction is not compressed, and it is control flow only where the
opcode is -/
theorem flattenOp_fits (opcode : BitVec 7) (funct3 : BitVec 3) (funct7 : BitVec 7) :
    (flattenOp opcode funct3 funct7).compressed = false ∧
      ((flattenOp opcode funct3 funct7).flow = true → opcode ∈ [0x63#7, 0x67#7, 0x6F#7]) := by
  unfold flattenOp
  split
  case h_3 => exact ⟨by split <;> rfl, fun _ => by decide⟩
  case h_11 => exact ⟨rfl, fun _ => by decide⟩
  case h_12 => exact ⟨rfl, fun _ => by decide⟩
  case h_4 | h_5 => split <;> (try split_ifs) <;> exact ⟨rfl, nofun⟩
  case h_6 | h_7 => split <;> (try split) <;> exact ⟨rfl, nofun⟩
  case h_1 | h_2 => split <;> exact ⟨rfl, nofun⟩
  all_goals exact ⟨rfl, nofun⟩

/-- an inline slot has the length of the instruction, and goes on behind it unless the instruction ends its block -/
structure Fits (raw flat : DecodedInsn) (len : BitVec 64) : Prop where
  bytes : flat.op.delegated = false → flat.op.bytes = len
  still : raw.blockEnd = false → flat.op.flow = false

theorem fits32 (insn : BitVec 32) : Fits (decodeInsn32 insn) (flattenSlotOp (decodeInsn32 insn)) 4 := by
  obtain ⟨hc, hf⟩ := flattenOp_fits (opcodeOf insn) (funct3Of insn) (funct7Of insn)
  constructor
  · intro _
    exact if_neg (by rw [Bool.not_eq_true]; exact hc)
  · intro hb
    by_contra hflow
    have hop := hf (Bool.eq_true_of_not_eq_false hflow)
    simp only [mem_cons, not_mem_nil, or_false] at hop
    rcases hop with h | h | h <;> simp [DecodedInsn.blockEnd, decodeInsn32, h] at hb

theorem fitsRVC : Fits (decodeRVC insn) (flattenSlotOp (decodeRVC insn)) 2 := by
  unfold decodeRVC
  split
  · unfold decodeRvc0
    dsimp only
    split <;> exact ⟨by first | exact fun _ => rfl | exact nofun, fun _ => rfl⟩
  · unfold decodeRvc1
    dsimp only
    split
    case h_5 =>
      unfold flattenSlotOp flattenMiscALU
      dsimp only
      split
      · exact ⟨fun _ => rfl, fun _ => rfl⟩
      · exact ⟨fun _ => rfl, fun _ => rfl⟩
      · exact ⟨fun _ => rfl, fun _ => rfl⟩
      · split_ifs <;> split <;> exact ⟨by first | exact fun _ => rfl | exact nofun, fun _ => rfl⟩
    all_goals exact ⟨fun _ => rfl, by first | exact fun _ => rfl | exact nofun⟩
  · unfold decodeRvc2
    dsimp only
    split
    case h_5 =>
      split_ifs <;>
        exact ⟨by first | exact fun _ => rfl | exact nofun, by first | exact fun _ => rfl | exact nofun⟩
    all_goals exact ⟨fun _ => rfl, fun _ => rfl⟩
  · exact ⟨nofun, fun _ => rfl⟩

variable (dc : DecoderCache) (pc : BitVec 64)

theorem slotOf_fits (i : Fetched) :
    Fits (decodeFetched i) (slotOf dc pc i).insn (BitVec.ofNat 64 i.len) := by
  cases i with
  | half insn => exact fitsRVC insn
  | word insn => exact fits32 insn

/-! ## Where a slot goes on -/

theorem fallThrough_pc {c' : Cpu} {c : Cpu} {len : BitVec 64} {body : Step Unit}
    (h : fallThrough len body c = (.ok (), c')) :
    c'.pc = c.pc + len := by
  unfold fallThrough at h
  rw [gets_bind_run] at h
  obtain ⟨a, s, hr, h⟩ := bind_ok_iff.1 h
  cases h
  rfl

theorem illegal_not_ok {c' : Cpu} {c : Cpu} (h : (illegal : Step Unit) c = (.ok (), c')) : False := nomatch h

theorem execInsn_falls {c' : Cpu} {c : Cpu} {insn : BitVec 32} (hb : (decodeInsn32 insn).blockEnd = false)
    (h : execInsn fp insn c = (.ok (), c')) : c'.pc = c.pc + 4 := by
  have hne : ∀ o, opcodeOf insn = o → o ∉ [0x63#7, 0x6F#7, 0x67#7, 0x73#7] := by
    intro o ho hm
    simp only [mem_cons, not_mem_nil, or_false] at hm
    rcases hm with rfl | rfl | rfl | rfl <;> simp [DecodedInsn.blockEnd, decodeInsn32, ho] at hb
  generalize hm : execInsn fp insn = m at h
  unfold execInsn at hm
  split at hm
  case h_11 ho | h_12 ho | h_13 ho | h_14 ho => exact absurd (by decide) (hne _ ho)
  case h_22 =>
    subst hm
    exact (illegal_not_ok h).elim
  all_goals
    subst hm
    exact fallThrough_pc h

theorem stepRVC_falls {c' : Cpu} {c : Cpu} {insn : BitVec 16} (hb : (decodeRVC insn).blockEnd = false)
    (h : stepRVC insn c = (.ok (), c')) : c'.pc = c.pc + 2 := by
  generalize hm : stepRVC insn = m at h
  unfold stepRVC at hm
  unfold decodeRVC at hb
  split at hm
  case h_1 =>
    subst hm
    exact fallThrough_pc h
  case h_2 hq =>
    rw [hq] at hb
    unfold stepRvc1 at hm
    unfold decodeRvc1 at hb
    dsimp only at hm hb
    split at hm
    case h_4 => split_ifs at hm <;> subst hm <;> first | exact (illegal_not_ok h).elim | exact fallThrough_pc h
    case h_6 h3 | h_7 h3 | h_8 h3 =>
      rw [h3] at hb
      cases hb
    all_goals
      subst hm
      exact fallThrough_pc h
  case h_3 hq =>
    rw [hq] at hb
    unfold stepRvc2 at hm
    unfold decodeRvc2 at hb
    dsimp only at hm hb
    split at hm
    case h_5 h3 =>
      rw [h3] at hb
      split_ifs at hm hb <;> subst hm <;> first
        | exact fallThrough_pc h
        | exact (illegal_not_ok h).elim
        | (cases hb; done)
        | exact absurd (And.right ‹_ ∧ _›) ‹_›
    all_goals
      subst hm
      exact fallThrough_pc h
  case h_4 =>
    subst hm
    exact (illegal_not_ok h).elim

theorem execFetched_falls {c' : Cpu} {c : Cpu} {i : Fetched} (hb : (decodeFetched i).blockEnd = false)
    (h : execFetched fp i c = (.ok (), c')) : c'.pc = c.pc + BitVec.ofNat 64 i.len := by
  cases i with
  | half insn => exact stepRVC_falls hb h
  | word insn => exact execInsn_falls (c := c.setWfi false) fp hb h

/-- how an arm ends that hands the instruction to the interpreter -/
def handOver : Except StepError Unit × Cpu → ArmEnd × Cpu
  | (.ok (), c) => (.next c.pc false, c)
  | (.error e, c) => (.fail c.pc e, c)

variable (r : Except StepError Unit × Cpu)

theorem handOver_hart : (handOver r).2 = r.2 := by
  rcases r with ⟨e | u, s⟩ <;> rfl

theorem handOver_not_break (e : StepError) : (handOver r).1 ≠ .breakInner e := by
  rcases r with ⟨e' | u, s⟩ <;> nofun

theorem armDelegate_run (c : Cpu) :
    armDelegate fp d pc c = handOver (execFetched fp d.fetched { c with pc := pc }) := by
  unfold armDelegate DecodedInsn.fetched
  split_ifs <;> rfl

theorem armInterp_run (c : Cpu) :
    armInterp fp pc c = handOver (step fp { c with pc := pc }) := rfl

theorem arm_delegated {d : DecodedInsn} (h : d.op.delegated = true) : arm fp d = armDelegate fp d := by
  obtain ⟨len, op, rd, rs1, rs2, funct3, funct7, imm, insn⟩ := d
  cases op <;> first | rfl | cases h

/-- **Chaining.**  A slot that has a successor goes to the address that the successor is the slot
of. -/
theorem arm_next_pc {pc' : BitVec 64} {retired : Bool} {c' : Cpu} {c : Cpu} {pc : BitVec 64} {i : Fetched}
    (h : arm fp (slotOf dc pc i).insn pc c = (.next pc' retired, c')) {j : BitVec 64}
    (hj : (slotOf dc pc i).next = some j) : dc.lookup pc' = some j := by
  have hfit := slotOf_fits dc pc i
  rw [slotOf_next] at hj
  cases hb : (decodeFetched i).blockEnd with
  | false =>
    rw [hb, if_pos rfl] at hj
    rw [← hj]
    congr 1
    cases hd : (slotOf dc pc i).insn.op.delegated with
    | true =>
      rw [arm_delegated fp hd, armDelegate_run, slotOf_fetched] at h
      rcases hr : execFetched fp i { c with pc := pc } with ⟨e | u, s⟩
      · rw [hr] at h
        cases h
      · rw [hr] at h
        cases h
        exact execFetched_falls fp hb hr
    | false =>
      have hstill := hfit.still hb
      have he : (slotOf dc pc i).insn.op ≠ .cEBREAK := by
        intro hop
        rw [hop] at hstill
        cases hstill
      rw [((arm_does fp _ pc c hd).next_pc he h).1 hstill, hfit.bytes hd]
  | true =>
    rw [hb, if_neg (by decide)] at hj
    split_ifs at hj with hop
    rw [← hj]
    congr 1
    have hd : (slotOf dc pc i).insn.op.delegated = false := by rcases hop with h | h <;> rw [h] <;> rfl
    have he : (slotOf dc pc i).insn.op ≠ .cEBREAK := by rcases hop with h | h <;> rw [h] <;> nofun
    exact ((arm_does fp _ pc c hd).next_pc he h).2 hop

end RiscvEmu
