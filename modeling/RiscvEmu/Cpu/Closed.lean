/-
What one step can do to the hart, said once.

`StepClosed P Q` lists the updates an instruction is made of (accesses to memory, register writes, flags, the move of
`pc`, delivered traps) and the errors it may return. A property that the updates keep is kept by a whole step, failed
or not, and its errors are of that kind (`step_obeys`). Most instructions need part of the list only: `MemClosed` for
integer loads and stores, `FloatClosed` and `FlowClosed` for floating point and control flow, `CoreClosed` for
whatever makes no access. CSR instructions, the two returns from a trap and the breakpoint in user mode are not in the
list: what is wanted of them is a premise about the state they are executed in (`Special`).
-/
import RiscvEmu.Cpu.Parts

namespace RiscvEmu

variable {c : Cpu} {insn : BitVec 16} {body : Step Unit}

open BitVec Bytes

open Exec

def accessWidths : List (BitVec 64) := [1, 2, 4, 8]

/-- `P` is kept by register writes, and `Q` holds of an illegal instruction -/
structure RegClosed (P : Cpu → Prop) (Q : StepError → Prop) : Prop where
  reg : ∀ c r v, P c → P (c.setReg r v)
  illegal : Q .illegalInstruction

/-- … and by accesses to memory -/
structure MemClosed (P : Cpu → Prop) (Q : StepError → Prop) : Prop extends RegClosed P Q where
  load : ∀ w ∈ accessWidths, ∀ a, Keeps P (loadVia w a)
  store : ∀ w ∈ accessWidths, ∀ a v, Keeps P (storeVia w a v)
  fault : ∀ f, Q (.memFault f)

/-- … and by the updates of floating point and of the reservation -/
structure FloatClosed (P : Cpu → Prop) (Q : StepError → Prop) : Prop extends RegClosed P Q where
  freg : ∀ c r v, P c → P (c.setFReg r v)
  resv : ∀ c a, P c → P (c.setResv a)
  noResv : ∀ c, P c → P c.dropResv
  flags : ∀ c (fl : BitVec 5), P c → P (c.orFcsr (fl.setWidth 32))
  dirty : ∀ c, P c → P c.markFPDirty

/-- … and by the moves of `pc` -/
structure FlowClosed (P : Cpu → Prop) (Q : StepError → Prop) : Prop extends RegClosed P Q where
  next : ∀ c₀ c off, P c₀ → P c → off.getLsbD 0 = false → P (c.finish (c₀.pc + off))
  jump : ∀ c t, P c → P (c.finish (andNot t 1))

/-- `P` is kept by everything an instruction does before it moves `pc` -/
structure BodyClosed (P : Cpu → Prop) (Q : StepError → Prop) : Prop extends MemClosed P Q, FloatClosed P Q

/-- `P` is kept by everything an instruction does but its accesses -/
structure CoreClosed (P : Cpu → Prop) (Q : StepError → Prop) : Prop extends FloatClosed P Q, FlowClosed P Q where
  note : ∀ c cause len, P c → P (c.setTrap cause len)
  wfi : ∀ c w, P c → P (c.setWfi w)
  flush : ∀ c, P c → c.supervisorRefused statusTVM = false → P c.flushTLB
  trap : ∀ c cause tval len, P c → (c.trapToPrivilegedAt c.pc cause tval len).1 = true →
    P (c.trapToPrivilegedAt c.pc cause tval len).2
  /-- a trap that is left to the host -/
  unhandled : ∀ c cause len, P c → (c.trapToPrivilegedAt c.pc cause 0 len).1 = false → Q .ecall ∧ Q .ebreak

/-- `P` is kept by the updates that instructions are made of, and `Q` holds of the errors that
any instruction may return -/
structure StepClosed (P : Cpu → Prop) (Q : StepError → Prop) : Prop extends BodyClosed P Q, CoreClosed P Q where
  fetch : ∀ w a, Keeps P (fetchVia w a)

/-- `P` does not look at guest memory and at what the TLB holds -/
structure MemBlind (P : Cpu → Prop) : Prop where
  mem : ∀ c m, P c → P (Cpu.setMem m c)
  tlb : ∀ c mm, P c → c.mmu ≠ none → P { c with mmu := some mm }

/-- … or only at what accesses leave as it is -/
structure ShapeBlind (P : Cpu → Prop) : Prop where
  mem : ∀ c m, P c → m.shape = c.mem.shape → P (Cpu.setMem m c)
  tlb : ∀ c mm, P c → c.mmu ≠ none → P { c with mmu := some mm }

namespace ShapeBlind

variable {P : Cpu → Prop} (h : ShapeBlind P)

include h

theorem withMmu : ShapeBlind fun c => P c ∧ c.mmu ≠ none :=
  ⟨fun c m hc hm => ⟨h.mem c m hc.1 hm, hc.2⟩, fun c mm hc hm => ⟨h.tlb c mm hc.1 hm, Option.some_ne_none mm⟩⟩

theorem onMem {α : Type} {a : Exec GuestMemory MemFault α} (ha : ∀ m, (a m).2.shape = m.shape) : Keeps P (onMem a) :=
  fun c hc => h.mem c _ hc (ha c.mem)

theorem lookup (mm : Mmu) (addr : BitVec 64) (kind : FaultKind) :
    Keeps (fun c => P c ∧ c.mmu ≠ none) (mm.lookup addr kind) := by
  have hwalk : Keeps (fun c => P c ∧ c.mmu ≠ none) (walk addr kind) := by
    intro c hc
    have hshape := walk_shape addr kind c
    obtain ⟨m, hm⟩ := walk_onlyMem addr kind c
    rw [hm] at hshape ⊢
    exact h.withMmu.mem c m hc hshape
  refine (Keeps.gets _).bind fun c => Keeps.ite (Keeps.pure _) (Keeps.ite (Keeps.pure _) ?_)
  exact hwalk.bind fun r => (Keeps.modify fun c hc => h.withMmu.tlb c _ hc hc.2).bind fun _ => Keeps.pure _

theorem translated (hc : P c) (kind : FaultKind) (w a : BitVec 64) : P (c.translated kind w a) :=
  translated_ends hc fun mm hmm => (h.lookup mm a kind c ⟨hc, by simp [hmm]⟩).1

theorem load (w a : BitVec 64) : Keeps P (loadVia w a) :=
  fun _ hc => loadVia_ends (h.translated hc _ _ _) fun p => h.onMem (GuestMemory.load_shape w p)

theorem store (w a v : BitVec 64) : Keeps P (storeVia w a v) :=
  fun _ hc => storeVia_ends (h.translated hc _ _ _) (fun p => h.onMem (GuestMemory.store_shape w p v)) fun c _ hc =>
    h.mem c _ hc rfl

theorem fetch (w a : BitVec 64) : Keeps P (fetchVia w a) :=
  fun _ hc => fetchVia_ends (h.translated hc _ _ _) fun p => h.onMem (GuestMemory.fetch_shape w p)

theorem flush (hc : P c) : P c.flushTLB := by
  unfold Cpu.flushTLB
  cases hmm : c.mmu with
  | none =>
    rw [Option.map_none, ← hmm]
    exact hc
  | some mm => exact h.tlb c mm.flush hc (by simp [hmm])

end ShapeBlind

namespace MemBlind

variable {P : Cpu → Prop} (h : MemBlind P)

include h

theorem shapeBlind : ShapeBlind P := ⟨fun c m hc _ => h.mem c m hc, h.tlb⟩

theorem load (w a : BitVec 64) : Keeps P (loadVia w a) := h.shapeBlind.load w a

theorem store (w a v : BitVec 64) : Keeps P (storeVia w a v) := h.shapeBlind.store w a v

theorem fetch (w a : BitVec 64) : Keeps P (fetchVia w a) := h.shapeBlind.fetch w a

theorem flush (hc : P c) : P c.flushTLB := h.shapeBlind.flush hc

end MemBlind

/-- CSRRW, CSRRS, CSRRC and their immediate forms -/
def IsCsr (insn : BitVec 32) : Prop := opcodeOf insn = 0x73#7 ∧ funct3Of insn ≥ 1 ∧ funct3Of insn ≠ 4

/-- what is wanted of the other instructions: a CSR instruction and a permitted return from a trap lead into `P`, and a
breakpoint in user mode is an error in `Q` -/
structure SpecialWord (P : Cpu → Prop) (Q : StepError → Prop) (c : Cpu) (insn : BitVec 32) : Prop where
  csr : IsCsr insn → P (execCsr insn c).2
  mret : insn = 0x30200073 → ¬ (c.strictCSR ∧ c.priv ≠ privMachine) → P c.mret
  sret : insn = 0x10200073 → c.supervisorRefused statusTSR = false → P c.sret
  ebreak : insn = 0x00100073 → c.priv = privUser → Q .ebreak

def Special (P : Cpu → Prop) (Q : StepError → Prop) (c : Cpu) : Fetched → Prop
  | .half insn => insn = 0x9002 → c.priv = privUser → Q .ebreak
  | .word insn => SpecialWord P Q c insn

theorem execCsr_obeys {P : Cpu → Prop} (hreg : ∀ c r v, P c → P (c.setReg r v))
    (hwrite : ∀ c a v, P c → c.checkCSRAccess a true = true → (c.writeCSR a v).1 = true → P (c.writeCSR a v).2)
    (insn : BitVec 32) : Obeys P (fun e => e = .illegalInstruction) (execCsr insn) := by
  intro c hc
  refine .gets_bind (.ite (fun _ => .fail hc rfl) fun hacc => ?_)
  dsimp only
  generalize (if decide (rdOf insn ≠ 0 ∨ funct3Of insn ≠ 1 ∧ funct3Of insn ≠ 5) = true then
    (id c).readCSR (imm12Of insn) else some 0) = old
  cases old with
  | none => exact .fail hc rfl
  | some old =>
    refine .ite (fun hw => .ite (fun hok => .modify ?_) fun _ => .fail hc rfl) fun _ =>
      .modify (hreg c _ _ hc)
    rw [hw] at hacc
    exact hreg _ _ _ (hwrite c _ _ hc (by simpa using hacc) hok)

theorem keeps_execCsr {P : Cpu → Prop} (hreg : ∀ c r v, P c → P (c.setReg r v))
    (hwrite : ∀ c a v, P c → c.checkCSRAccess a true = true → (c.writeCSR a v).1 = true → P (c.writeCSR a v).2)
    (insn : BitVec 32) : Keeps P (execCsr insn) := fun c hc => (execCsr_obeys hreg hwrite insn c hc).1

/-! ## Fields -/

theorem bimm_even (insn : BitVec 32) : (bimm insn).getLsbD 0 = false := by
  unfold bimm
  dsimp only
  rw [getLsbD_sshiftRight, getLsbD_signExtend]
  simp

theorem jimm_even (insn : BitVec 32) : (jimm insn).getLsbD 0 = false := by
  unfold jimm
  dsimp only
  rw [getLsbD_sshiftRight, getLsbD_signExtend]
  simp

theorem cjOffset_even (insn : BitVec 16) : (cjOffset insn).getLsbD 0 = false := by
  unfold cjOffset
  dsimp only
  split_ifs <;> simp

theorem cbOffset_even (insn : BitVec 16) : (cbOffset insn).getLsbD 0 = false := by
  unfold cbOffset
  dsimp only
  split_ifs <;> simp

theorem cebreak_insn (hq : Rvc.quad insn = 2#2) (h3 : Rvc.funct3 insn = 4#3)
    (hb : Rvc.bit12 insn = true) (hd : Rvc.rf7 insn = 0#5) (hs : Rvc.rf2 insn = 0#5) : insn = 0x9002#16 := by
  have hfield : ∀ {k n : Nat} {v : BitVec n}, insn.extractLsb' k n = v →
      ∀ j < n, insn.getLsbD (k + j) = v.getLsbD j := by
    intro k n v hv j hj
    rw [← hv, getLsbD_extractLsb', decide_eq_true hj, Bool.true_and]
  have h12 : insn.getLsbD 12 = true := by
    have hne : (insn >>> 12) &&& 1 ≠ 0 := by simpa [Rvc.bit12] using hb
    by_contra hf
    refine hne (eq_of_getLsbD_eq fun i hi => ?_)
    rcases i with _ | i
    · simpa using hf
    · simp
  apply eq_of_getLsbD_eq
  intro i hi
  have hcases : i < 2 ∨ (2 ≤ i ∧ i < 7) ∨ (7 ≤ i ∧ i < 12) ∨ i = 12 ∨ (13 ≤ i ∧ i < 16) := by omega
  rcases hcases with hc | hc | hc | rfl | hc
  · have := hfield hq i hc
    rw [Nat.zero_add] at this
    rw [this]
    interval_cases i <;> rfl
  · have := hfield hs (i - 2) (by omega)
    rw [show 2 + (i - 2) = i by omega] at this
    rw [this]
    obtain ⟨hl, hu⟩ := hc
    interval_cases i <;> rfl
  · have := hfield hd (i - 7) (by omega)
    rw [show 7 + (i - 7) = i by omega] at this
    rw [this]
    obtain ⟨hl, hu⟩ := hc
    interval_cases i <;> rfl
  · exact h12
  · have := hfield h3 (i - 13) (by omega)
    rw [show 13 + (i - 13) = i by omega] at this
    rw [this]
    obtain ⟨hl, hu⟩ := hc
    interval_cases i <;> rfl

theorem fcvt_flags (fp : HostFP) (isNaN : Bool) (nanValue limit high floor low : BitVec 64)
    (convert : BitVec 64 → BitVec 64) (f : BitVec 64) (rm : BitVec 3) :
    ∃ fl : BitVec 5, (fcvt fp isNaN nanValue limit high floor low convert f rm).2 = fl.setWidth 32 := by
  unfold fcvt
  dsimp only
  split_ifs
  · exact ⟨1#5 <<< 4, rfl⟩
  · exact ⟨1#5 <<< 4, rfl⟩
  · exact ⟨1#5 <<< 4, rfl⟩
  · exact ⟨1#5, rfl⟩
  · exact ⟨0#5, rfl⟩

/-! ## Registers -/

section Registers

variable {P : Cpu → Prop} {Q : StepError → Prop} (h : RegClosed P Q)

include h

theorem obeys_setRegM (r : BitVec 5) (v : BitVec 64) : Obeys P Q (setRegM r v) := .modify fun c => h.reg c r v

theorem obeys_setRegFrom (r : BitVec 5) (v : Cpu → BitVec 64) : Obeys P Q (setRegFrom r v) :=
  .modify fun c => h.reg c r (v c)

theorem obeys_orIllegal (v : Option (BitVec 64)) (r : BitVec 5) : Obeys P Q (orIllegal v (setRegM r)) := by
  cases v with
  | some v => exact obeys_setRegM h r v
  | none => exact Obeys.fail h.illegal

theorem obeys_requireFP : Obeys P Q requireFP :=
  (Obeys.gets _).bind fun _ => Obeys.ite (Obeys.fail h.illegal) (Obeys.pure _)

theorem obeys_withRm (insn : BitVec 32) {k : BitVec 3 → Step Unit} (hk : ∀ rm, Obeys P Q (k rm)) :
    Obeys P Q (withRm insn k) := by
  refine (Obeys.gets _).bind fun c => ?_
  split
  · exact .fail h.illegal
  · exact hk _

theorem obeys_stepMiscAlu (insn : BitVec 16) : Obeys P Q (stepMiscAlu insn) := by
  unfold stepMiscAlu
  dsimp only
  split
  · exact obeys_setRegFrom h _ _
  · exact obeys_setRegFrom h _ _
  · exact obeys_setRegFrom h _ _
  · refine .ite ?_ ?_
    · split <;> exact obeys_setRegFrom h _ _
    · split <;> first | exact obeys_setRegFrom h _ _ | exact .fail h.illegal

end Registers

/-! ## Memory -/

section Memory

variable {P : Cpu → Prop} {Q : StepError → Prop} (h : MemClosed P Q)

include h

variable (addr : BitVec 64)

theorem kept_load8 : Keeps P (load8 addr) := (h.load 1 (by decide) addr).bind fun _ => .pure _
theorem kept_load32 : Keeps P (load32 addr) := (h.load 4 (by decide) addr).bind fun _ => .pure _
theorem kept_load64 : Keeps P (load64 addr) := h.load 8 (by decide) addr

theorem kept_load16M : Keeps P (load16M addr) :=
  ((h.load 2 (by decide) addr).bind fun _ => .pure _).onError (loadBytes_keeps 16 addr (kept_load8 h) 2)
theorem kept_load32M : Keeps P (load32M addr) :=
  (kept_load32 h addr).onError (loadBytes_keeps 32 addr (kept_load8 h) 4)
theorem kept_load64M : Keeps P (load64M addr) :=
  (kept_load64 h addr).onError (loadBytes_keeps 64 addr (kept_load8 h) 8)

theorem kept_store8 (v : BitVec 8) : Keeps P (store8 addr v) := h.store 1 (by decide) addr _

theorem kept_store16M (v : BitVec 16) : Keeps P (store16M addr v) :=
  (h.store 2 (by decide) addr _).onError (storeBytes_keeps v addr (kept_store8 h) 2)
theorem kept_store32M (v : BitVec 32) : Keeps P (store32M addr v) :=
  (h.store 4 (by decide) addr _).onError (storeBytes_keeps v addr (kept_store8 h) 4)
theorem kept_store64M (v : BitVec 64) : Keeps P (store64M addr v) :=
  (h.store 8 (by decide) addr v).onError (storeBytes_keeps v addr (kept_store8 h) 8)

theorem kept_amoLoad (word : Bool) (addr : BitVec 64) : Keeps P (amoLoad word addr) :=
  .ite ((kept_load32 h addr).bind fun _ => .pure _) (kept_load64 h addr)

theorem kept_amoStore (word : Bool) (addr v : BitVec 64) : Keeps P (amoStore word addr v) :=
  Keeps.ite (h.store 4 (by decide) addr _) (h.store 8 (by decide) addr v)

theorem obeys_loadReg {α : Type} {a : MemOp α} (ha : Keeps P a) {r : BitVec 5} {v : α → BitVec 64} :
    Obeys P Q (a.lift >>= fun x => setRegM r (v x)) := (ha.obeys_mapErr h.fault).bind fun _ =>
      obeys_setRegM h.toRegClosed _ _

theorem obeys_execLoad (insn : BitVec 32) : Obeys P Q (execLoad insn) := by
  refine (Obeys.gets _).bind fun addr => ?_
  split
  · exact obeys_loadReg h (kept_load8 h addr)
  · exact obeys_loadReg h (kept_load16M h addr)
  · exact obeys_loadReg h (kept_load32M h addr)
  · exact obeys_loadReg h (kept_load64M h addr)
  · exact obeys_loadReg h (kept_load8 h addr)
  · exact obeys_loadReg h (kept_load16M h addr)
  · exact obeys_loadReg h (kept_load32M h addr)
  · exact Obeys.fail h.illegal

theorem obeys_execStore (insn : BitVec 32) : Obeys P Q (execStore insn) := by
  refine (Obeys.gets _).bind fun addr => (Obeys.gets _).bind fun v => ?_
  split
  · exact (kept_store8 h addr _).obeys_mapErr h.fault
  · exact (kept_store16M h addr _).obeys_mapErr h.fault
  · exact (kept_store32M h addr _).obeys_mapErr h.fault
  · exact (kept_store64M h addr v).obeys_mapErr h.fault
  · exact Obeys.fail h.illegal

theorem obeys_execStoreFP (insn : BitVec 32) : Obeys P Q (execStoreFP insn) := by
  refine (obeys_requireFP h.toRegClosed).bind fun _ => (Obeys.gets _).bind fun addr => (Obeys.gets _).bind fun v => ?_
  split
  · exact (kept_store32M h addr _).obeys_mapErr h.fault
  · exact (kept_store64M h addr v).obeys_mapErr h.fault
  · exact .fail h.illegal

end Memory

/-! ## Floating point -/

section Float

variable {P : Cpu → Prop} {Q : StepError → Prop} (h : FloatClosed P Q)

include h

theorem obeys_setFRegM (r : BitVec 5) (v : BitVec 64) : Obeys P Q (setFRegM r v) := .modify fun c => h.freg c r v

theorem obeys_flagNVIf (b : Bool) : Obeys P Q (flagNVIf b) := by
  refine .modify fun c hc => ?_
  split_ifs
  · exact h.flags c (1#5 <<< 4) hc
  · exact hc

theorem obeys_fpDirtying (hb : Obeys P Q body) : Obeys P Q (fpDirtying body) :=
  (obeys_requireFP h.toRegClosed).bind fun _ => hb.bind fun _ => .modify h.dirty

variable (rd : BitVec 5)

theorem obeys_result {r : BitVec 5} {v : BitVec 64} {fl : BitVec 5} :
    Obeys P Q (Exec.modify fun c => (c.orFcsr (fl.setWidth 32)).setFReg r v : Step Unit) :=
  .modify fun c hc => h.freg _ _ _ (h.flags c fl hc)

theorem obeys_fcvt (fp : HostFP) (isNaN : Bool) (nanValue limit high floor low : BitVec 64)
    (convert : BitVec 64 → BitVec 64) (f : BitVec 64) (rm : BitVec 3) :
    Obeys P Q (intResult rd (fcvt fp isNaN nanValue limit high floor low convert f rm)) := by
  obtain ⟨fl, hfl⟩ := fcvt_flags fp isNaN nanValue limit high floor low convert f rm
  refine Obeys.modify fun c hc => h.reg _ _ _ ?_
  rw [hfl]
  exact h.flags c fl hc

variable (fp : HostFP)

theorem obeys_execFma (insn : BitVec 32) : Obeys P Q (execFma fp insn) := by
  refine obeys_fpDirtying h (obeys_withRm h.toRegClosed insn fun rm => (Obeys.gets _).bind fun c => ?_)
  exact Obeys.ite (obeys_result h) (Obeys.ite (obeys_result h) (Obeys.fail h.illegal))

theorem obeys_flagged (b : Bool) {k : Step Unit} (hk : Obeys P Q k) : Obeys P Q (flagNVIf b >>= fun _ => k) :=
  (obeys_flagNVIf h b).bind fun _ => hk

theorem obeys_execFpSD (insn : BitVec 32) : Obeys P Q (execFpS fp insn) ∧ Obeys P Q (execFpD fp insn) := by
  constructor
  all_goals
    refine (Obeys.gets _).bind fun c => ?_
    split
    case h_6 =>
      split <;> first | exact obeys_setFRegM h _ _ | exact .fail h.illegal
    case h_7 =>
      refine obeys_flagged h _ ?_
      split <;> first | exact obeys_setFRegM h _ _ | exact .fail h.illegal
    case h_8 =>
      refine .ite (.fail h.illegal) (obeys_withRm h.toRegClosed insn fun _ => ?_)
      first | exact obeys_flagged h _ (obeys_result h) | exact obeys_result h
    case h_9 =>
      split <;> first | exact obeys_flagged h _ (obeys_setRegM h.toRegClosed _ _) | exact .fail h.illegal
    case h_10 =>
      refine obeys_withRm h.toRegClosed insn fun rm => ?_
      split <;> first | exact obeys_fcvt h _ _ _ _ _ _ _ _ _ _ _ | exact .fail h.illegal
    case h_11 =>
      refine obeys_withRm h.toRegClosed insn fun rm => ?_
      dsimp only
      split <;> first | exact obeys_result h | exact .fail h.illegal
    case h_12 =>
      split <;> first | exact obeys_setRegM h.toRegClosed _ _ | exact .fail h.illegal
    case h_13 => exact obeys_setFRegM h _ _
    case h_14 => exact .fail h.illegal
    all_goals exact obeys_withRm h.toRegClosed insn fun _ => obeys_result h

theorem obeys_execFp (insn : BitVec 32) : Obeys P Q (execFp fp insn) :=
  obeys_fpDirtying h (.ite (obeys_execFpSD h fp insn).1 (.ite (obeys_execFpSD h fp insn).2 (.fail h.illegal)))

end Float

/-! ## Floating-point loads and atomics -/

section Body

variable {P : Cpu → Prop} {Q : StepError → Prop} (h : BodyClosed P Q)

include h

theorem obeys_loadFReg {α : Type} {a : MemOp α} (ha : Keeps P a) {r : BitVec 5} {v : α → BitVec 64} :
    Obeys P Q (a.lift >>= fun x => setFRegM r (v x)) := (ha.obeys_mapErr h.fault).bind fun _ =>
      obeys_setFRegM h.toFloatClosed _ _

theorem obeys_execAmo (insn : BitVec 32) : Obeys P Q (execAmo insn) := by
  have hdrop : ∀ (v : Cpu → BitVec 64),
      Obeys P Q (Exec.modify fun c => (c.setReg (rdOf insn) (v c)).dropResv : Step Unit) :=
    fun v => Obeys.modify fun c hc => h.noResv _ (h.reg c _ _ hc)
  refine (Obeys.gets _).bind fun addr => (Obeys.gets _).bind fun rs2 => ?_
  split
  · refine (kept_amoLoad h.toMemClosed _ addr).obeys_mapErr h.fault |>.bind fun v => Obeys.modify fun c hc => ?_
    exact h.resv _ addr (h.reg c _ v hc)
  · refine (Obeys.gets _).bind fun held => Obeys.ite ?_ (hdrop fun _ => 1)
    exact (kept_amoStore h.toMemClosed _ addr rs2).obeys_mapErr h.fault |>.bind fun _ => hdrop fun _ => 0
  · refine Obeys.ite ?_ ?_
    · exact (kept_load32 h.toMemClosed addr).obeys_mapErr h.fault |>.bind fun old =>
        (h.store 4 (by decide) addr _).obeys_mapErr h.fault |>.bind fun _ =>
        hdrop fun _ => old.signExtend 64
    · exact (kept_load64 h.toMemClosed addr).obeys_mapErr h.fault |>.bind fun old =>
        (h.store 8 (by decide) addr _).obeys_mapErr h.fault |>.bind fun _ => hdrop fun _ => old

theorem obeys_execLoadFP (insn : BitVec 32) : Obeys P Q (execLoadFP insn) := by
  refine obeys_fpDirtying h.toFloatClosed ((Obeys.gets _).bind fun addr => ?_)
  split
  · exact obeys_loadFReg h (kept_load32M h.toMemClosed addr)
  · exact obeys_loadFReg h (kept_load64M h.toMemClosed addr)
  · exact .fail h.illegal

theorem obeys_stepRvc0 (insn : BitVec 16) : Obeys P Q (stepRvc0 insn) := by
  unfold stepRvc0
  dsimp only
  split
  · exact .ite (.fail h.illegal) (obeys_setRegFrom h.toRegClosed _ _)
  · exact (Obeys.gets _).bind fun addr => obeys_loadReg h.toMemClosed (kept_load32M h.toMemClosed addr)
  · exact (Obeys.gets _).bind fun addr => obeys_loadFReg h (kept_load64M h.toMemClosed addr)
  · exact (Obeys.gets _).bind fun addr => obeys_loadReg h.toMemClosed (kept_load64M h.toMemClosed addr)
  · exact (Obeys.gets _).bind fun addr => (Obeys.gets _).bind fun v =>
      (kept_store64M h.toMemClosed addr v).obeys_mapErr h.fault
  · exact (Obeys.gets _).bind fun addr => (Obeys.gets _).bind fun v =>
      (kept_store32M h.toMemClosed addr _).obeys_mapErr h.fault
  · exact (Obeys.gets _).bind fun addr => (Obeys.gets _).bind fun v =>
      (kept_store64M h.toMemClosed addr v).obeys_mapErr h.fault
  · exact Obeys.fail h.illegal

end Body

/-! ## Control flow -/

section Flow

variable {P : Cpu → Prop} {Q : StepError → Prop} (h : FlowClosed P Q)

include h

theorem obeys_fallThrough {len : BitVec 64} (hlen : len.getLsbD 0 = false) (hb : Obeys P Q body) :
    Obeys P Q (fallThrough len body) := by
  intro c hc
  refine Obeys.bind hb (fun _ => ?_) c hc
  exact Obeys.modify fun c' hc' => h.next c c' len hc hc' hlen

theorem obeys_execBranch (insn : BitVec 32) : Obeys P Q (execBranch insn) := by
  refine (Obeys.gets _).bind fun c => ?_
  split
  · exact .fail h.illegal
  · exact .modify fun c hc => h.next c c _ hc hc (bimm_even insn)
  · exact .modify fun c hc => h.next c c _ hc hc rfl

theorem obeys_execJal (insn : BitVec 32) : Obeys P Q (execJal insn) :=
  .modify fun c hc => h.next c _ _ hc (h.reg c _ _ hc) (jimm_even insn)

theorem obeys_execJalr (insn : BitVec 32) : Obeys P Q (execJalr insn) :=
  .modify fun c hc => h.jump _ _ (h.reg c _ _ hc)

theorem obeys_execCsr {insn : BitVec 32} (hc : P c) (hp : P (execCsr insn c).2) :
    ObeysAt P Q (fallThrough 4 (execCsr insn)) c := by
  refine .gets_bind (.bind (P := P) ⟨hp, fun e he => ?_⟩ fun _ c' hc' => ?_)
  · rw [(execCsr_obeys (P := fun _ => True) (fun _ _ _ _ => trivial)
      (fun _ _ _ _ _ _ => trivial) insn c trivial).2 e he]
    exact h.illegal
  · exact .modify (h.next c c' 4 hc hc' rfl)

theorem obeys_stepRvc1 (insn : BitVec 16) : Obeys P Q (stepRvc1 insn) := by
  have hbranch : ∀ (taken : Cpu → Prop) [∀ c, Decidable (taken c)], Obeys P Q
      (Exec.modify fun c => c.finish (if taken c then c.pc + cbOffset insn else c.pc + 2) : Step Unit) := by
    intro taken _
    refine .modify fun c hc => ?_
    split_ifs
    · exact h.next c c _ hc hc (cbOffset_even insn)
    · exact h.next c c _ hc hc rfl
  unfold stepRvc1
  dsimp only
  split
  · exact obeys_fallThrough h rfl (obeys_setRegFrom h.toRegClosed _ _)
  · exact obeys_fallThrough h rfl (obeys_setRegFrom h.toRegClosed _ _)
  · exact obeys_fallThrough h rfl (obeys_setRegM h.toRegClosed _ _)
  · refine .ite (.ite (.fail h.illegal) ?_) (.ite (.fail h.illegal) ?_)
    · exact obeys_fallThrough h rfl (obeys_setRegFrom h.toRegClosed _ _)
    · exact obeys_fallThrough h rfl (obeys_setRegM h.toRegClosed _ _)
  · exact obeys_fallThrough h rfl (obeys_stepMiscAlu h.toRegClosed insn)
  · exact .modify fun c hc => h.next c c _ hc hc (cjOffset_even insn)
  · exact hbranch fun c => c.x (Rvc.rp7 insn) = 0
  · exact hbranch fun c => c.x (Rvc.rp7 insn) ≠ 0

end Flow

/-! ## Traps -/

section Core

variable {P : Cpu → Prop} {Q : StepError → Prop} (h : CoreClosed P Q)

include h

theorem obeys_execEbreak {len : BitVec 8} (hc : P c) (hq : c.priv = privUser → Q .ebreak) :
    ObeysAt P Q (execEbreak len) c := by
  unfold ObeysAt execEbreak
  dsimp only
  split_ifs with h1 h2
  · exact ⟨h.trap c _ _ _ hc h1.2, fun _ he => nomatch he⟩
  · have hfalse : (c.trapToPrivilegedAt c.pc causeBreakpoint 0 len).1 = false := by
      simpa [h2] using h1
    rw [c.trapToPrivilegedAt_false hfalse]
    refine ⟨h.note _ _ _ (h.note c _ _ hc), fun e he => ?_⟩
    cases he
    exact (h.unhandled c _ _ hc hfalse).2
  · refine ⟨h.note c _ _ hc, fun e he => ?_⟩
    cases he
    exact hq (not_not.1 h2)

theorem obeys_execEcall : Obeys P Q execEcall := by
  intro c hc
  unfold ObeysAt execEcall
  dsimp only
  split_ifs with h1
  · exact ⟨h.trap c _ _ _ hc h1, fun _ he => nomatch he⟩
  · have hfalse : (c.trapToPrivilegedAt c.pc c.ecallCause 0 4).1 = false := by simpa using h1
    rw [c.trapToPrivilegedAt_false hfalse]
    refine ⟨h.note c _ _ hc, fun e he => ?_⟩
    cases he
    exact (h.unhandled c _ _ hc hfalse).1

theorem obeys_execSystem {insn : BitVec 32} (ho : opcodeOf insn = 0x73#7) (hc : P c)
    (hs : SpecialWord P Q c insn) : ObeysAt P Q (execSystem insn) c := by
  have hill : ObeysAt P Q (illegal : Step Unit) c := .fail hc h.illegal
  refine .gets_bind ?_
  refine .ite (fun hi => obeys_execEbreak h hc (hs.ebreak hi)) fun _ => ?_
  refine .ite (fun _ => obeys_execEcall h c hc) fun _ => ?_
  refine .ite (fun hi => .ite (fun _ => hill) fun hp => .modify (hs.mret hi hp)) fun _ => ?_
  refine .ite (fun hi => .ite (fun _ => hill) fun hp => .modify (hs.sret hi (by simpa using hp))) fun _ => ?_
  refine .ite (fun _ => .ite (fun _ => hill) fun _ => ?_) fun _ => ?_
  · exact obeys_fallThrough h.toFlowClosed rfl (.modify fun c hc => h.wfi c true hc) c hc
  refine .ite (fun _ => .ite (fun _ => hill) fun hp => ?_) fun _ => ?_
  · exact ⟨h.next c _ _ hc (h.flush c hc (by simpa using hp)) rfl, fun _ he => nomatch he⟩
  exact .ite (fun hf => obeys_execCsr h.toFlowClosed hc (hs.csr ⟨ho, hf⟩)) fun _ => hill

end Core

/-! ## One step -/

section Kept

variable {P : Cpu → Prop} {Q : StepError → Prop} (h : StepClosed P Q)

include h

variable (fp : HostFP)

theorem obeys_execInsn {insn : BitVec 32} (hc : P c) (hs : SpecialWord P Q c insn) :
    ObeysAt P Q (execInsn fp insn) c := by
  have hreg : ∀ v : Cpu → BitVec 64, Obeys P Q (Exec.modify fun c => c.setReg (rdOf insn) (v c) : Step Unit) :=
    fun v => .modify fun c hc => h.reg c _ _ hc
  unfold execInsn
  split
  case h_14 ho => exact obeys_execSystem h.toCoreClosed ho hc hs
  all_goals refine (?_ : Obeys P Q _) c hc
  case h_1 => exact obeys_fallThrough h.toFlowClosed rfl (obeys_execLoad h.toMemClosed insn)
  case h_2 => exact obeys_fallThrough h.toFlowClosed rfl (obeys_execStore h.toMemClosed insn)
  case h_3 | h_4 =>
    exact obeys_fallThrough h.toFlowClosed rfl ((Obeys.gets _).bind fun _ => obeys_orIllegal h.toRegClosed _ _)
  case h_5 | h_6 =>
    exact obeys_fallThrough h.toFlowClosed rfl
      ((Obeys.gets _).bind fun _ => (Obeys.gets _).bind fun _ => obeys_orIllegal h.toRegClosed _ _)
  case h_7 => exact obeys_fallThrough h.toFlowClosed rfl (obeys_execAmo h.toBodyClosed insn)
  case h_8 => exact obeys_fallThrough h.toFlowClosed rfl (.pure ())
  case h_9 => exact obeys_fallThrough h.toFlowClosed rfl (hreg _)
  case h_10 => exact obeys_fallThrough h.toFlowClosed rfl (hreg _)
  case h_11 => exact obeys_execJal h.toFlowClosed insn
  case h_12 => exact obeys_execJalr h.toFlowClosed insn
  case h_13 => exact obeys_execBranch h.toFlowClosed insn
  case h_15 => exact obeys_fallThrough h.toFlowClosed rfl (obeys_execLoadFP h.toBodyClosed insn)
  case h_16 => exact obeys_fallThrough h.toFlowClosed rfl (obeys_execStoreFP h.toMemClosed insn)
  case h_17 | h_18 | h_19 | h_20 => exact obeys_fallThrough h.toFlowClosed rfl (obeys_execFma h.toFloatClosed fp insn)
  case h_21 => exact obeys_fallThrough h.toFlowClosed rfl (obeys_execFp h.toFloatClosed fp insn)
  case h_22 => exact .fail h.illegal

theorem obeys_stepRvc2 (hquad : Rvc.quad insn = 2#2) (hc : P c)
    (hs : Special P Q c (.half insn)) : ObeysAt P Q (stepRvc2 insn) c := by
  unfold stepRvc2
  dsimp only
  split
  case h_5 h3 =>
    refine .ite (fun _ => ?_) fun hb => ?_
    · refine Obeys.ite (Obeys.ite (Obeys.fail h.illegal) ?_) ?_ c hc
      · exact Obeys.modify fun c hc => h.jump c _ hc
      · exact obeys_fallThrough h.toFlowClosed rfl (obeys_setRegFrom h.toRegClosed _ _)
    · refine ObeysAt.ite (fun hz => obeys_execEbreak h.toCoreClosed hc (hs ?_)) fun _ => Obeys.ite ?_ ?_ c hc
      · exact cebreak_insn hquad h3 (by simpa using hb) hz.1 hz.2
      · exact Obeys.modify fun c hc => h.jump _ _ (h.reg c _ _ hc)
      · exact obeys_fallThrough h.toFlowClosed rfl (obeys_setRegFrom h.toRegClosed _ _)
  all_goals refine (?_ : Obeys P Q _) c hc
  case h_1 => exact obeys_fallThrough h.toFlowClosed rfl (obeys_setRegFrom h.toRegClosed _ _)
  case h_2 => exact obeys_fallThrough h.toFlowClosed rfl ((Obeys.gets _).bind fun addr =>
      obeys_loadFReg h.toBodyClosed (kept_load64M h.toMemClosed addr))
  case h_3 => exact obeys_fallThrough h.toFlowClosed rfl ((Obeys.gets _).bind fun addr =>
      obeys_loadReg h.toMemClosed (kept_load32M h.toMemClosed addr))
  case h_4 => exact obeys_fallThrough h.toFlowClosed rfl ((Obeys.gets _).bind fun addr =>
      obeys_loadReg h.toMemClosed (kept_load64M h.toMemClosed addr))
  case h_6 => exact obeys_fallThrough h.toFlowClosed rfl ((Obeys.gets _).bind fun addr => (Obeys.gets _).bind fun v =>
      (kept_store64M h.toMemClosed addr v).obeys_mapErr h.fault)
  case h_7 => exact obeys_fallThrough h.toFlowClosed rfl ((Obeys.gets _).bind fun addr => (Obeys.gets _).bind fun v =>
      (kept_store32M h.toMemClosed addr _).obeys_mapErr h.fault)
  case h_8 => exact obeys_fallThrough h.toFlowClosed rfl ((Obeys.gets _).bind fun addr => (Obeys.gets _).bind fun v =>
      (kept_store64M h.toMemClosed addr v).obeys_mapErr h.fault)

theorem obeys_stepRVC (hc : P c) (hs : Special P Q c (.half insn)) :
    ObeysAt P Q (stepRVC insn) c := by
  unfold stepRVC
  split
  case h_1 => exact obeys_fallThrough h.toFlowClosed rfl (obeys_stepRvc0 h.toBodyClosed insn) c hc
  case h_2 => exact obeys_stepRvc1 h.toFlowClosed insn c hc
  case h_3 hquad => exact obeys_stepRvc2 h hquad hc hs
  case h_4 => exact .fail hc h.illegal

theorem obeys_execFetched {i : Fetched} (hc : P c) (hw : c.wfi = false)
    (hs : Special P Q c i) : ObeysAt P Q (execFetched fp i) c := by
  cases i with
  | half insn => exact obeys_stepRVC h hc hs
  | word insn =>
    have hself : c.setWfi false = c := by
      rw [← hw]
      rfl
    have hrun : execFetched fp (.word insn) c = execInsn fp insn c := by
      rw [execFetched, stepFromInsn, modify_bind_run, hself]
    unfold ObeysAt
    rw [hrun]
    exact obeys_execInsn h fp hc hs

/-- **What a step does.** A step keeps what the updates of instructions keep, failed or not, and its errors are of their
kind, if so much is known of the special instruction that it may execute. -/
theorem step_obeys (hc : P c)
    (hs : ∀ i c', fetchInsn (c.setWfi false) = (.ok i, c') → Special P Q c' i) : ObeysAt P Q (step fp) c := by
  have hblind : MemBlind fun c => c.wfi = false := ⟨fun _ _ hc => hc, fun _ _ hc _ => hc⟩
  have hk := keeps_fetchInsn h.fetch (c.setWfi false) (h.wfi c false hc)
  have hw := keeps_fetchInsn hblind.fetch (c.setWfi false) rfl
  unfold ObeysAt
  rw [step_run]
  rcases hr : fetchInsn (c.setWfi false) with ⟨f | i, c'⟩
  · rw [hr] at hk
    rw [bind_of_error (lift_of_error hr)]
    refine ⟨hk, fun e he => ?_⟩
    cases he
    exact h.fault f
  · rw [hr] at hk hw
    rw [bind_of_ok (lift_of_ok hr)]
    exact obeys_execFetched h fp hk hw (hs i c' hr)

end Kept

theorem writeCSR_frame (c : Cpu) (a : BitVec 12) (v : BitVec 64) :
    (c.writeCSR a v).2.mem = c.mem ∧ (c.writeCSR a v).2.pc = c.pc ∧ (c.writeCSR a v).2.priv = c.priv := by
  unfold Cpu.writeCSR
  split
  case h_14 => split_ifs <;> exact ⟨rfl, rfl, rfl⟩
  all_goals exact ⟨rfl, rfl, rfl⟩

/-! ## The setup of a hart -/

/-- what only CSR instructions and accesses change; the registers that a trap sets are left out -/
def Cpu.setup (c : Cpu) : GuestMemory × Option Mmu × CsrFile × Bool × BitVec 64 × BitVec 64 :=
  (c.mem, c.mmu, { c.csr with mepc := 0, mcause := 0, mtval := 0, sepc := 0, scause := 0, stval := 0 }, c.strictCSR,
    c.watchAddr, c.riscvInstrBegun)

theorem trapToMachineAt_setup (c : Cpu) (pc cause tval : BitVec 64) :
    (c.trapToMachineAt pc cause tval).2.setup = c.setup := by
  unfold Cpu.trapToMachineAt
  split_ifs <;> rfl

theorem trapToPrivilegedAt_setup (c : Cpu) (pc cause tval : BitVec 64) (len : BitVec 8) :
    (c.trapToPrivilegedAt pc cause tval len).2.setup = c.setup := by
  unfold Cpu.trapToPrivilegedAt
  dsimp only
  split_ifs
  · rfl
  · exact trapToMachineAt_setup (c.setTrap cause len) pc cause tval

/-- `P` looks at the setup only -/
structure SetupOnly (P : Cpu → Prop) : Prop extends ShapeBlind P where
  congr : ∀ {c c' : Cpu}, c'.setup = c.setup → P c → P c'

namespace SetupOnly

variable {P : Cpu → Prop} {Q : StepError → Prop} (h : SetupOnly P)

include h

theorem stepClosed (hill : Q .illegalInstruction) (hfault : ∀ f, Q (.memFault f))
    (hun : ∀ c cause len, P c → (c.trapToPrivilegedAt c.pc cause 0 len).1 = false → Q .ecall ∧ Q .ebreak) :
    StepClosed P Q where
  load w _ := h.load w
  store w _ := h.store w
  fetch := h.fetch
  reg _ _ _ := h.congr rfl
  freg _ _ _ := h.congr rfl
  resv _ _ := h.congr rfl
  noResv _ := h.congr rfl
  note _ _ _ := h.congr rfl
  wfi _ _ := h.congr rfl
  flags _ _ := h.congr rfl
  dirty _ := h.congr rfl
  next _ c _ _ hc _ := h.congr (c := c) rfl hc
  jump _ _ := h.congr rfl
  flush _ hc _ := h.flush hc
  trap _ _ _ _ hc _ := h.congr (trapToPrivilegedAt_setup _ _ _ _ _) hc
  illegal := hill
  fault := hfault
  unhandled := hun

theorem writeCSR (hcsr : ∀ c csr, P c → P { c with csr := csr }) (c : Cpu) (a : BitVec 12) (v : BitVec 64) (hc : P c) :
    P (c.writeCSR a v).2 := by
  unfold Cpu.writeCSR
  split
  case h_14 =>
    split_ifs
    · exact h.flush (h.congr (c := c) rfl hc)
    · exact hc
  all_goals first
    | exact h.congr (c := c) rfl hc
    | exact hcsr c _ hc

theorem special (hwrite : ∀ c a v, P c → P (c.writeCSR a v).2) (hc : P c) (i : Fetched) :
    Special P (fun _ => True) c i := by
  cases i with
  | half insn => exact fun _ _ => trivial
  | word insn =>
    exact { csr := fun _ =>
      keeps_execCsr (P := P) (fun _ _ _ => h.congr rfl) (fun _ a v hc _ _ => hwrite _ a v hc) insn c hc
            mret := fun _ _ => h.congr (c := c) rfl hc, sret := fun _ _ => h.congr (c := c) rfl hc,
              ebreak := fun _ _ => trivial }

theorem step (hwrite : ∀ c a v, P c → P (c.writeCSR a v).2) (fp : HostFP) (hc : P c) : P (step fp c).2 := by
  have hclosed :
      StepClosed P fun _ => True := h.stepClosed trivial (fun _ => trivial) fun _ _ _ _ _ => ⟨trivial, trivial⟩
  refine (step_obeys hclosed fp hc fun i c' hi => ?_).1
  have hc' := keeps_fetchInsn h.fetch (c.setWfi false) (h.congr (c := c) rfl hc)
  rw [hi] at hc'
  exact h.special hwrite hc' i

end SetupOnly

end RiscvEmu
