/-
The interpreter on 32-bit instructions (`stepFromInsn`).

Each opcode has its own function under the source's case; the cases that fall out of the switch end with
`fallThrough`, which moves `pc` and counts the retirement.
-/
import RiscvEmu.Cpu.Alu
import RiscvEmu.Cpu.Csr
import RiscvEmu.Cpu.Float

namespace RiscvEmu

open Exec

def setRegM (r : BitVec 5) (v : BitVec 64) : Step Unit := Exec.modify fun c => c.setReg r v

def setFRegM (r : BitVec 5) (v : BitVec 64) : Step Unit := Exec.modify fun c => c.setFReg r v

/-- run the body, then go to the next instruction, `len` bytes on -/
def fallThrough (len : BitVec 64) (body : Step Unit) : Step Unit := do
  let pc ← gets Cpu.pc
  body
  Exec.modify fun c => c.finish (pc + len)

/-- a value that may be an illegal encoding -/
def orIllegal (v : Option (BitVec 64)) (k : BitVec 64 → Step Unit) : Step Unit :=
  match v with
  | some v => k v
  | none => illegal

/-! ## Memory -/

def execLoad (insn : BitVec 32) : Step Unit := do
  let addr ← gets fun c => c.x (rs1Of insn) + iimm insn
  match funct3Of insn with
  | 0x0 => do setRegM (rdOf insn) ((← (load8 addr).lift).signExtend 64)    -- LB
  | 0x1 => do setRegM (rdOf insn) ((← (load16M addr).lift).signExtend 64)  -- LH
  | 0x2 => do setRegM (rdOf insn) ((← (load32M addr).lift).signExtend 64)  -- LW
  | 0x3 => do setRegM (rdOf insn) (← (load64M addr).lift)                  -- LD
  | 0x4 => do setRegM (rdOf insn) ((← (load8 addr).lift).setWidth 64)      -- LBU
  | 0x5 => do setRegM (rdOf insn) ((← (load16M addr).lift).setWidth 64)    -- LHU
  | 0x6 => do setRegM (rdOf insn) ((← (load32M addr).lift).setWidth 64)    -- LWU
  | _ => illegal

def execStore (insn : BitVec 32) : Step Unit := do
  let addr ← gets fun c => c.x (rs1Of insn) + simm insn
  let v ← gets fun c => c.x (rs2Of insn)
  match funct3Of insn with
  | 0x0 => (store8 addr (v.setWidth 8)).lift     -- SB
  | 0x1 => (store16M addr (v.setWidth 16)).lift  -- SH
  | 0x2 => (store32M addr (v.setWidth 32)).lift  -- SW
  | 0x3 => (store64M addr v).lift                -- SD
  | _ => illegal

/-- the access an atomic makes: a sign-extended word, or a doubleword -/
def amoLoad (word : Bool) (addr : BitVec 64) : MemOp (BitVec 64) :=
  if word then do return (← load32 addr).signExtend 64 else load64 addr

def amoStore (word : Bool) (addr v : BitVec 64) : MemOp Unit :=
  if word then store32 addr (v.setWidth 32) else store64 addr v

def execAmo (insn : BitVec 32) : Step Unit := do
  let addr ← gets fun c => c.x (rs1Of insn)
  let rs2 ← gets fun c => c.x (rs2Of insn)
  -- every `funct3` other than 2 is taken for the doubleword form
  let word : Bool := funct3Of insn = 2
  match funct5Of insn with
  | 0b00010 => do                                -- LR
    let v ← (amoLoad word addr).lift
    Exec.modify fun c => (c.setReg (rdOf insn) v).setResv addr
  | 0b00011 => do                                -- SC
    if (← gets fun c => c.resvValid && c.resvAddr = addr) then do
      (amoStore word addr rs2).lift
      Exec.modify fun c => (c.setReg (rdOf insn) 0).dropResv
    else
      Exec.modify fun c => (c.setReg (rdOf insn) 1).dropResv
  | funct5 =>
    if word then do
      let old ← (load32 addr).lift
      (store32 addr (amoOpW funct5 old (rs2.setWidth 32))).lift
      Exec.modify fun c => (c.setReg (rdOf insn) (old.signExtend 64)).dropResv
    else do
      let old ← (load64 addr).lift
      (store64 addr (amoOpD funct5 old rs2)).lift
      Exec.modify fun c => (c.setReg (rdOf insn) old).dropResv

/-! ## Integer and control flow -/

def execOpImm (insn : BitVec 32) : Step Unit := do
  orIllegal (aluOpImm insn (← gets fun c => c.x (rs1Of insn))) (setRegM (rdOf insn))

def execOpImm32 (insn : BitVec 32) : Step Unit := do
  orIllegal (aluOpImm32 insn (← gets fun c => c.x (rs1Of insn))) (setRegM (rdOf insn))

def execOp (insn : BitVec 32) : Step Unit := do
  orIllegal (aluOp insn (← gets fun c => c.x (rs1Of insn)) (← gets fun c => c.x (rs2Of insn)))
    (setRegM (rdOf insn))

def execOp32 (insn : BitVec 32) : Step Unit := do
  orIllegal (aluOp32 insn (← gets fun c => c.x (rs1Of insn)) (← gets fun c => c.x (rs2Of insn)))
    (setRegM (rdOf insn))

def execJal (insn : BitVec 32) : Step Unit :=
  Exec.modify fun c => (c.setReg (rdOf insn) (c.pc + 4)).finish (c.pc + jimm insn)

def execJalr (insn : BitVec 32) : Step Unit :=
  Exec.modify fun c =>
    (c.setReg (rdOf insn) (c.pc + 4)).finish (andNot (c.x (rs1Of insn) + iimm insn) 1)

def execBranch (insn : BitVec 32) : Step Unit := do
  let c ← gets id
  match branchTaken (funct3Of insn) (c.x (rs1Of insn)) (c.x (rs2Of insn)) with
  | none => illegal
  | some true => Exec.modify fun c => c.finish (c.pc + bimm insn)
  | some false => Exec.modify fun c => c.finish (c.pc + 4)

/-! ## SYSTEM -/

/-- `EBREAK` of the given length: delivered to the guest outside user mode, else to the host -/
def execEbreak (insnLen : BitVec 8) : Step Unit := fun c =>
  let r := c.trapToPrivilegedAt c.pc causeBreakpoint 0 insnLen
  if c.priv ≠ privUser ∧ r.1 then (.ok (), r.2)
  else if c.priv ≠ privUser then (.error .ebreak, r.2.setTrap causeBreakpoint insnLen)
  else (.error .ebreak, c.setTrap causeBreakpoint insnLen)

def execEcall : Step Unit := fun c =>
  let r := c.trapToPrivilegedAt c.pc c.ecallCause 0 4
  if r.1 then (.ok (), r.2) else (.error .ecall, r.2)

/-- a strict hart refuses the instruction in user mode, and in supervisor mode when the `mstatus` bit is set -/
def Cpu.supervisorRefused (c : Cpu) (bit : BitVec 64) : Bool :=
  c.strictCSR ∧ (c.priv = privUser ∨ (c.priv < privMachine ∧ c.mstatus &&& bit ≠ 0))

def execCsr (insn : BitVec 32) : Step Unit := do
  let c ← gets id
  let funct3 := funct3Of insn
  let csrAddr := imm12Of insn
  let src := if funct3 ≥ 5 then (rs1Of insn).setWidth 64 else c.x (rs1Of insn)
  let write : Bool := funct3 = 1 ∨ funct3 = 5 ∨ rs1Of insn ≠ 0
  if !c.checkCSRAccess csrAddr write then illegal
  else
    let needOld : Bool := rdOf insn ≠ 0 ∨ (funct3 ≠ 1 ∧ funct3 ≠ 5)
    match (if needOld then c.readCSR csrAddr else some 0) with
    | none => illegal
    | some old =>
      let newVal :=
        if funct3 = 1 ∨ funct3 = 5 then src
        else if funct3 = 2 ∨ funct3 = 6 then old ||| src
        else andNot old src
      if write then
        let r := c.writeCSR csrAddr newVal
        if r.1 then Exec.modify fun _ => r.2.setReg (rdOf insn) old
        else illegal
      else setRegM (rdOf insn) old

def execSystem (insn : BitVec 32) : Step Unit := do
  let c ← gets id
  if insn = 0x00100073 then execEbreak 4
  else if insn = 0x00000073 then execEcall
  else if insn = 0x30200073 then                                    -- MRET
    if c.strictCSR ∧ c.priv ≠ privMachine then illegal else Exec.modify Cpu.mret
  else if insn = 0x10200073 then                                    -- SRET
    if c.supervisorRefused statusTSR then illegal else Exec.modify Cpu.sret
  else if insn = 0x10500073 then                                    -- WFI
    if c.supervisorRefused statusTW then illegal
    else fallThrough 4 (Exec.modify fun c => c.setWfi true)
  else if funct3Of insn = 0 ∧ funct7Of insn = 0x09 then             -- SFENCE.VMA
    if c.supervisorRefused statusTVM then illegal
    else fallThrough 4 (Exec.modify Cpu.flushTLB)
  else if funct3Of insn ≥ 1 ∧ funct3Of insn ≠ 4 then fallThrough 4 (execCsr insn)
  else illegal

/-! ## Floating point -/

def requireFP : Step Unit := do
  if !(← gets Cpu.fpEnabled) then illegal

def Cpu.resolveRoundingMode (c : Cpu) (encoded : BitVec 3) : Option (BitVec 3) :=
  let rm := if encoded = rmDYN then (c.fcsr >>> 5).setWidth 3 else encoded
  if rm > rmRMM then none else some rm

/-- go on under the rounding mode of the instruction -/
def withRm (insn : BitVec 32) (k : BitVec 3 → Step Unit) : Step Unit := do
  match (← gets id).resolveRoundingMode (funct3Of insn) with
  | none => illegal
  | some rm => k rm

/-- the FP opcodes that end with `markFPDirty`: FP must be on, and FS becomes dirty -/
def fpDirtying (body : Step Unit) : Step Unit := do
  requireFP
  body
  Exec.modify Cpu.markFPDirty

def execLoadFP (insn : BitVec 32) : Step Unit := fpDirtying do
  let addr ← gets fun c => c.x (rs1Of insn) + iimm insn
  match funct3Of insn with
  | 0b010 => do setFRegM (rdOf insn) (boxF32 (← (load32M addr).lift))
  | 0b011 => do setFRegM (rdOf insn) (← (load64M addr).lift)
  | _ => illegal

def execStoreFP (insn : BitVec 32) : Step Unit := do
  requireFP
  let addr ← gets fun c => c.x (rs1Of insn) + simm insn
  let v ← gets fun c => c.f (rs2Of insn)
  match funct3Of insn with
  | 0b010 => (store32M addr (v.setWidth 32)).lift
  | 0b011 => (store64M addr v).lift
  | _ => illegal

/-- accumulate the flags of a single-precision result and write it, with NaNs canonical -/
def fpResult32 (rd : BitVec 5) (r : BitVec 32 × BitVec 5) : Step Unit :=
  Exec.modify fun c => (c.orFcsr (r.2.setWidth 32)).setFReg rd (boxF32 (canonNaN32 r.1))

def fpResult64 (rd : BitVec 5) (r : BitVec 64 × BitVec 5) : Step Unit :=
  Exec.modify fun c => (c.orFcsr (r.2.setWidth 32)).setFReg rd (canonNaN64 r.1)

/-- accumulate flags and write an integer result -/
def intResult (rd : BitVec 5) (r : BitVec 64 × BitVec 32) : Step Unit :=
  Exec.modify fun c => (c.orFcsr r.2).setReg rd r.1

def flagNVIf (b : Bool) : Step Unit :=
  Exec.modify fun c => if b then c.orFcsr fflagNV else c

section Host

variable (fp : HostFP)

def execFma (insn : BitVec 32) : Step Unit := fpDirtying <|
  withRm insn fun rm => do
    let c ← gets id
    if fmtOf insn = 0 then
      let a := unboxF32 (c.f (rs1Of insn))
      let b := unboxF32 (c.f (rs2Of insn))
      let d := unboxF32 (c.f (rs3Of insn))
      fpResult32 (rdOf insn) <|
        match opcodeOf insn with
        | 0x43 => fp.f32.mAdd rm a b d
        | 0x47 => fp.f32.mSub rm a b d
        | 0x4B => fp.f32.nmSub rm a b d
        | _ => fp.f32.nmAdd rm a b d
    else if fmtOf insn = 1 then
      let a := c.f (rs1Of insn)
      let b := c.f (rs2Of insn)
      let d := c.f (rs3Of insn)
      fpResult64 (rdOf insn) <|
        match opcodeOf insn with
        | 0x43 => fp.f64.mAdd rm a b d
        | 0x47 => fp.f64.mSub rm a b d
        | 0x4B => fp.f64.nmSub rm a b d
        | _ => fp.f64.nmAdd rm a b d
    else illegal

/-- opcode 0x53, single precision -/
def execFpS (insn : BitVec 32) : Step Unit := do
  let c ← gets id
  let rd := rdOf insn
  let x1 := c.x (rs1Of insn)
  let a := unboxF32 (c.f (rs1Of insn))
  let b := unboxF32 (c.f (rs2Of insn))
  match funct5Of insn with
  | 0x00 => withRm insn fun rm => fpResult32 rd (fp.f32.add rm a b)
  | 0x01 => withRm insn fun rm => fpResult32 rd (fp.f32.sub rm a b)
  | 0x02 => withRm insn fun rm => fpResult32 rd (fp.f32.mul rm a b)
  | 0x03 => withRm insn fun rm => fpResult32 rd (fp.f32.div rm a b)
  | 0x0B => withRm insn fun rm => fpResult32 rd (fp.f32.sqrt rm a)
  | 0x04 =>
    match funct3Of insn with
    | 0 => setFRegM rd (boxF32 (fsgnjF32 a b))
    | 1 => setFRegM rd (boxF32 (fsgnjnF32 a b))
    | 2 => setFRegM rd (boxF32 (fsgnjxF32 a b))
    | _ => illegal
  | 0x05 => do
    -- the flag is raised before `funct3` is looked at
    flagNVIf (isSNaNF32 a || isSNaNF32 b)
    match funct3Of insn with
    | 0 => setFRegM rd (boxF32 (fminF32 fp a b))
    | 1 => setFRegM rd (boxF32 (fmaxF32 fp a b))
    | _ => illegal
  | 0x08 =>
    if rs2Of insn ≠ 1 then illegal
    else withRm insn fun rm => fpResult32 rd (fp.narrow rm (c.f (rs1Of insn)))
  | 0x14 =>
    match funct3Of insn with
    | 2 => do flagNVIf (isSNaNF32 a || isSNaNF32 b); setRegM rd (boolBit (fp.f32.eq a b))
    | 1 => do flagNVIf (isNaNF32 a || isNaNF32 b); setRegM rd (boolBit (fp.f32.lt a b))
    | 0 => do flagNVIf (isNaNF32 a || isNaNF32 b); setRegM rd (boolBit (fp.f32.le a b))
    | _ => illegal
  | 0x18 => withRm insn fun rm =>
    match rs2Of insn with
    | 0 => intResult rd (fcvtWS fp a rm)
    | 1 => intResult rd (fcvtWUS fp a rm)
    | 2 => intResult rd (fcvtLS fp a rm)
    | 3 => intResult rd (fcvtLUS fp a rm)
    | _ => illegal
  | 0x1A => withRm insn fun rm =>
    let put (r : BitVec 32 × BitVec 5) : Step Unit :=
      Exec.modify fun c => (c.orFcsr (r.2.setWidth 32)).setFReg rd (boxF32 r.1)
    match rs2Of insn with
    | 0 => put (fp.f32.ofInt32 rm (x1.setWidth 32))
    | 1 => put (fp.f32.ofUint32 rm (x1.setWidth 32))
    | 2 => put (fp.f32.ofInt64 rm x1)
    | 3 => put (fp.f32.ofUint64 rm x1)
    | _ => illegal
  | 0x1C =>
    match funct3Of insn with
    | 0 => setRegM rd (((c.f (rs1Of insn)).setWidth 32).signExtend 64)
    | 1 => setRegM rd (fclassF32 a)
    | _ => illegal
  | 0x1E => setFRegM rd (boxF32 (x1.setWidth 32))
  | _ => illegal

/-- opcode 0x53, double precision -/
def execFpD (insn : BitVec 32) : Step Unit := do
  let c ← gets id
  let rd := rdOf insn
  let x1 := c.x (rs1Of insn)
  let a := c.f (rs1Of insn)
  let b := c.f (rs2Of insn)
  match funct5Of insn with
  | 0x00 => withRm insn fun rm => fpResult64 rd (fp.f64.add rm a b)
  | 0x01 => withRm insn fun rm => fpResult64 rd (fp.f64.sub rm a b)
  | 0x02 => withRm insn fun rm => fpResult64 rd (fp.f64.mul rm a b)
  | 0x03 => withRm insn fun rm => fpResult64 rd (fp.f64.div rm a b)
  | 0x0B => withRm insn fun rm => fpResult64 rd (fp.f64.sqrt rm a)
  | 0x04 =>
    match funct3Of insn with
    | 0 => setFRegM rd (fsgnjF64 a b)
    | 1 => setFRegM rd (fsgnjnF64 a b)
    | 2 => setFRegM rd (fsgnjxF64 a b)
    | _ => illegal
  | 0x05 => do
    flagNVIf (isSNaNF64 a || isSNaNF64 b)
    match funct3Of insn with
    | 0 => setFRegM rd (fminF64 fp a b)
    | 1 => setFRegM rd (fmaxF64 fp a b)
    | _ => illegal
  | 0x08 =>
    if rs2Of insn ≠ 0 then illegal
    else withRm insn fun rm => do
      let src := unboxF32 (c.f (rs1Of insn))
      flagNVIf (isSNaNF32 src)
      fpResult64 rd (fp.widen rm src)
  | 0x14 =>
    match funct3Of insn with
    | 2 => do flagNVIf (isSNaNF64 a || isSNaNF64 b); setRegM rd (boolBit (fp.f64.eq a b))
    | 1 => do flagNVIf (isNaNF64 a || isNaNF64 b); setRegM rd (boolBit (fp.f64.lt a b))
    | 0 => do flagNVIf (isNaNF64 a || isNaNF64 b); setRegM rd (boolBit (fp.f64.le a b))
    | _ => illegal
  | 0x18 => withRm insn fun rm =>
    match rs2Of insn with
    | 0 => intResult rd (fcvtWD fp a rm)
    | 1 => intResult rd (fcvtWUD fp a rm)
    | 2 => intResult rd (fcvtLD fp a rm)
    | 3 => intResult rd (fcvtLUD fp a rm)
    | _ => illegal
  | 0x1A => withRm insn fun rm =>
    let put (r : BitVec 64 × BitVec 5) : Step Unit :=
      Exec.modify fun c => (c.orFcsr (r.2.setWidth 32)).setFReg rd r.1
    match rs2Of insn with
    | 0 => put (fp.f64.ofInt32 rm (x1.setWidth 32))
    | 1 => put (fp.f64.ofUint32 rm (x1.setWidth 32))
    | 2 => put (fp.f64.ofInt64 rm x1)
    | 3 => put (fp.f64.ofUint64 rm x1)
    | _ => illegal
  | 0x1C =>
    match funct3Of insn with
    | 0 => setRegM rd a
    | 1 => setRegM rd (fclassF64 a)
    | _ => illegal
  | 0x1E => setFRegM rd x1
  | _ => illegal

def execFp (insn : BitVec 32) : Step Unit := fpDirtying <|
  if fmtOf insn = 0 then execFpS fp insn
  else if fmtOf insn = 1 then execFpD fp insn
  else illegal

/-! ## One 32-bit instruction -/

def execInsn (insn : BitVec 32) : Step Unit :=
  match opcodeOf insn with
  | 0x03 => fallThrough 4 (execLoad insn)
  | 0x23 => fallThrough 4 (execStore insn)
  | 0x13 => fallThrough 4 (execOpImm insn)
  | 0x1B => fallThrough 4 (execOpImm32 insn)
  | 0x33 => fallThrough 4 (execOp insn)
  | 0x3B => fallThrough 4 (execOp32 insn)
  | 0x2F => fallThrough 4 (execAmo insn)
  | 0x0F => fallThrough 4 (pure ())
  | 0x37 => fallThrough 4 (setRegM (rdOf insn) (uimm20 insn))
  | 0x17 => fallThrough 4 (Exec.modify fun c => c.setReg (rdOf insn) (c.pc + uimm20 insn))
  | 0x6F => execJal insn
  | 0x67 => execJalr insn
  | 0x63 => execBranch insn
  | 0x73 => execSystem insn
  | 0x07 => fallThrough 4 (execLoadFP insn)
  | 0x27 => fallThrough 4 (execStoreFP insn)
  | 0x43 => fallThrough 4 (execFma fp insn)
  | 0x47 => fallThrough 4 (execFma fp insn)
  | 0x4B => fallThrough 4 (execFma fp insn)
  | 0x4F => fallThrough 4 (execFma fp insn)
  | 0x53 => fallThrough 4 (execFp fp insn)
  | _ => illegal

def stepFromInsn (insn : BitVec 32) : Step Unit := do
  Exec.modify fun c => c.setWfi false
  execInsn fp insn

end Host

end RiscvEmu
