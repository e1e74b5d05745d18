/-
The dispatch loop of the decoder cache (`decoder_cache.go`, `run_cached.go`).

A slot is recorded when its instruction is executed for the first time (`populateSlot`) and used as it is from then
on; the loop follows `slot.next` where there is one and looks the slot up otherwise. Instructions run in batches
between two looks at the watched word. The counts of a batch stay in locals and are added to the hart's counters
before the interpreter runs and when the batch ends.

The loop is a machine of two kinds of steps (`turn`): one pass of the inner loop with what follows it when the batch
ends, and the delivery of a note. `RunWithChain` is the loop without the cache.
-/
import RiscvEmu.Cpu.Dealings
import RiscvEmu.Machine.Run

namespace RiscvEmu

/-! ## The decoder cache -/

/-- a recorded slot: the decoded instruction and the index of the pre-resolved successor -/
structure Slot where
  insn : DecodedInsn
  next : Option (BitVec 64)
deriving DecidableEq, Repr

/-- the slots of the addresses from `base` up to `base + size`, one for every two bytes -/
structure DecoderCache where
  base : BitVec 64
  size : BitVec 64
  slots : BitVec 64 → Option Slot

namespace DecoderCache

variable (dc : DecoderCache)

def newDecoderCache (base size : BitVec 64) : DecoderCache :=
  { base := base, size := if size &&& 1 ≠ 0 then size + 1 else size, slots := fun _ => none }

/-- the index of the slot of `pc`; `none` is the sentinel -/
def lookup (pc : BitVec 64) : Option (BitVec 64) :=
  let off := pc - dc.base
  if off ≥ dc.size then none else some (off >>> 1)

def setSlot (i : BitVec 64) (s : Slot) : DecoderCache :=
  { dc with slots := fun j => if j = i then some s else dc.slots j }

end DecoderCache

/-- the classes on which `decodeInsn32` and `decodeRVC` set `flagBlockEnd`, and `FENCE.I` -/
def DecodedInsn.blockEnd (d : DecodedInsn) : Bool :=
  match d.op with
  | .raw 0x63 | .raw 0x6F | .raw 0x67 | .raw 0x73 => true
  | .raw 0x0F => d.funct3 = 1
  | .cJ | .cBEQZ | .cBNEZ | .cJR | .cEBREAK | .cJALR => true
  | _ => false

namespace GuestMemory

def fetch32U (addr : BitVec 64) : Exec GuestMemory MemFault (BitVec 32) := do
  let lo ← fetch16 addr
  let hi ← fetch16 (addr + 2)
  pure (lo.setWidth 32 ||| (hi.setWidth 32 <<< 16))

/-- the instruction at `pc` as `populateSlot` fetches it -/
def fetchInsn (pc : BitVec 64) : Exec GuestMemory MemFault Fetched := do
  let half ← fetch16 pc
  if half.extractLsb' 0 2 ≠ 3#2 then pure (.half half)
  else return .word (← orBytes (fetch32 pc) (fetch32U pc))

end GuestMemory

def decodeFetched : Fetched → DecodedInsn
  | .half insn => decodeRVC insn
  | .word insn => decodeInsn32 insn

/-- the slot that is recorded for an instruction at `pc` -/
def slotOf (dc : DecoderCache) (pc : BitVec 64) (i : Fetched) : Slot :=
  let raw := decodeFetched i
  let d := flattenSlotOp raw
  { insn := d
    next := if !raw.blockEnd then dc.lookup (pc + BitVec.ofNat 64 d.len)
      else if d.op = .jal ∨ d.op = .cJ then dc.lookup (pc + d.imm64)
      else none }

/-- fetch and record; `none` leaves the slot empty -/
def populateSlot (m : GuestMemory) (dc : DecoderCache) (pc : BitVec 64) : Option Slot :=
  match (GuestMemory.fetchInsn pc m).1 with
  | .ok i => some (slotOf dc pc i)
  | .error _ => none

/-! ## Locals -/

inductive RunBudgetLimit
  | none | attempt | retired
deriving DecidableEq, Repr

/-- the arguments of a call, and the retired count it started with; a budget of 0 is no budget -/
structure Budgets where
  attemptBudget : BitVec 64
  retiredBudget : BitVec 64
  retiredBase : BitVec 64

/-- the variables of `runCachedDualBudget` at the top of the inner loop -/
structure Locals where
  cpu : Cpu
  cache : DecoderCache
  pc : BitVec 64
  slot : Option (BitVec 64)
  attemptsUsed : BitVec 64
  retiredUsed : BitVec 64
  instrBegun : BitVec 64
  instrRetired : BitVec 64
  countdown : Nat

def Cpu.addCounts (c : Cpu) (begun retired : BitVec 64) : Cpu :=
  { c with riscvInstrBegun := c.riscvInstrBegun + begun, riscvInstrRetired := c.riscvInstrRetired + retired }

def pollBatch : Nat := 10240

abbrev RunReturn := RunBudgetResult × RunBudgetLimit × Option RunError

/-- where the loop is: at the top of the inner loop, with an error to deliver, or back at its caller -/
inductive Phase
  | inner (s : Locals)
  | deliver (err : StepError) (s : Locals)
  | returned (res : RunReturn) (s : Locals)

/-- the classes that the megaswitch leaves to the interpreter -/
def SlotOp.delegated : SlotOp → Bool
  | .raw _ | .cFLD | .cFSD | .cFLDSP | .cFSDSP | .cMISCALU | .fallback | .delegate => true
  | _ => false

namespace Locals

variable (s : Locals)

/-- the recorded slot that `slot` points to -/
def recorded : Option Slot := s.slot.bind s.cache.slots

/-- the counts of the batch go to the hart before the interpreter runs -/
def flush : Locals :=
  if s.instrBegun ≠ 0 then
    { s with cpu := s.cpu.addCounts s.instrBegun s.instrRetired, instrBegun := 0, instrRetired := 0 }
  else s

def run (a : Arm) : ArmEnd × Locals :=
  let r := a s.pc s.cpu
  (r.1, { s with cpu := r.2 })

def spent (b : Budgets) : Option RunBudgetLimit :=
  if b.retiredBudget ≠ 0 ∧ s.retiredUsed ≥ b.retiredBudget then some .retired
  else if b.attemptBudget ≠ 0 ∧ s.attemptsUsed ≥ b.attemptBudget then some .attempt
  else none

/-- the length of the next batch: no longer than what is left of the budgets -/
def batch (b : Budgets) : Nat :=
  let n := if b.attemptBudget ≠ 0 then min (b.attemptBudget - s.attemptsUsed).toNat pollBatch else pollBatch
  if b.retiredBudget ≠ 0 then min (b.retiredBudget - s.retiredUsed).toNat n else n

def outer (b : Budgets) : Phase :=
  match s.spent b with
  | some limit => .returned (.expired, limit, none) s
  | none => .inner { s with
      instrBegun := 0, instrRetired := 0, countdown := s.batch b, slot := s.cache.lookup s.pc }

/-- the bookkeeping behind the megaswitch -/
def count (b : Budgets) (pc : BitVec 64) (retired : Bool) : Locals :=
  let instrRetired := s.instrRetired + (if retired then 1 else 0)
  let retiredNow := s.cpu.riscvInstrRetired + instrRetired
  { s with
    pc := pc
    instrBegun := s.instrBegun + 1
    instrRetired := instrRetired
    attemptsUsed := if b.attemptBudget ≠ 0 then s.attemptsUsed + 1 else s.attemptsUsed
    retiredUsed := if b.retiredBudget ≠ 0 ∧ retiredNow ≥ b.retiredBase then retiredNow - b.retiredBase
      else s.retiredUsed
    countdown := s.countdown - 1 }

def advance : Locals :=
  { s with slot := match s.recorded.bind Slot.next with
      | some i => some i
      | none => s.cache.lookup s.pc }

/-- the end of a batch.  Without an error the budgets are looked at, as they are again at the top
of the outer loop. -/
def afterInner (b : Budgets) (err : Option StepError) : Phase :=
  let p := { s.cpu.addCounts s.instrBegun s.instrRetired with pc := s.pc }.pollTohost
  let s' := { s with cpu := p.2, instrBegun := 0, instrRetired := 0 }
  match p.1, err with
  | some code, _ => .returned (.exit, .none, some (.exited code)) s'
  | none, none => s'.outer b
  | none, some e => .deliver e s'

end Locals

/-- the interpreter fetches and executes the instruction -/
def armInterp (fp : HostFP) : Arm := fun pc c =>
  match step fp { c with pc := pc } with
  | (.ok (), c') => (.next c'.pc false, c')
  | (.error e, c') => (.fail c'.pc e, c')

section Loop

variable (fp : HostFP) (nc : NoteChain) (b : Budgets)

def execSlot (s : Locals) (d : Slot) : ArmEnd × Locals :=
  if d.insn.op.delegated then s.flush.run (arm fp d.insn) else s.run (arm fp d.insn)

/-- the megaswitch. An empty slot is recorded first; the sentinel and a slot that cannot be fetched go to the
interpreter (`slowStep`). -/
def dispatch (s : Locals) : ArmEnd × Locals :=
  match s.recorded with
  | some d => execSlot fp s d
  | none =>
    match s.slot with
    | none => s.flush.run (armInterp fp)
    | some i =>
      match populateSlot s.cpu.mem s.cache s.pc with
      | none => s.flush.run (armInterp fp)
      | some d => execSlot fp { s.flush with cache := s.cache.setSlot i d } d

def innerTurn (s : Locals) : Phase :=
  match dispatch fp s with
  | (.breakInner err, s') => s'.afterInner b (some err)
  | (.fail pc err, s') => (s'.count b pc false).afterInner b (some err)
  | (.next pc inlineRetired, s') =>
    let t := s'.count b pc inlineRetired
    if t.countdown = 0 then t.afterInner b none else .inner t.advance

/-- deliver a note; a handled one goes on at the `pc` that the handlers left -/
def deliverTurn (err : StepError) (s : Locals) : Phase :=
  match deliverNote nc s.cpu err with
  | (none, c) => { s with cpu := c, pc := c.pc }.outer b
  | (some (res, e), c) => .returned (res, .none, some e) { s with cpu := c }

def turn : Phase → Phase
  | .inner s => innerTurn fp b s
  | .deliver err s => deliverTurn nc b err s
  | .returned res s => .returned res s

end Loop

/-! ## Calls -/

/-- the budgets of a call on the hart `c` -/
def budgetsOf (attemptBudget retiredBudget : BitVec 64) (c : Cpu) : Budgets :=
  { attemptBudget := attemptBudget, retiredBudget := retiredBudget, retiredBase := c.riscvInstrRetired }

def startCached (cache : DecoderCache) (b : Budgets) (c : Cpu) : Phase :=
  Locals.outer { cpu := c, cache := cache, pc := c.pc, slot := none, attemptsUsed := 0, retiredUsed := 0
                 instrBegun := 0, instrRetired := 0, countdown := 0 } b

section Calls

variable (fp : HostFP) (nc : NoteChain)

/-- `runCachedDualBudget` after `n` steps of the loop -/
def runCachedDualBudget (cache : DecoderCache) (attemptBudget retiredBudget : BitVec 64) (c : Cpu) (n : Nat) : Phase :=
  (turn fp nc (budgetsOf attemptBudget retiredBudget c))^[n]
    (startCached cache (budgetsOf attemptBudget retiredBudget c) c)

/-- the cache that the default entry points allocate -/
def defaultCache (c : Cpu) : DecoderCache :=
  let base := andNot c.pc 0xFFF
  DecoderCache.newDecoderCache (if base > 0x1000 then base - 0x1000 else base) (256#64 <<< 10)

/-- one turn of `RunWithChain`; `none` means that the loop goes on -/
def chainTurn (c : Cpu) : Option RunError × Cpu :=
  let r := step fp c
  let p := r.2.countBegun.pollTohost
  match p.1, r.1 with
  | some code, _ => (some (.exited code), p.2)
  | none, .ok _ => (none, p.2)
  | none, .error err =>
    let d := deliverNote nc p.2 err
    (d.1.map Prod.snd, d.2)

end Calls

end RiscvEmu
