/-
The intermediate representation of the translator (`ir.go`).

An instruction has an operation, a type and up to four virtual registers; which of the four are read or written
depends on the operation (`IRInstr.vregs`, the visits of `forEachVReg`), and register 0 stands for none. A block keeps
an upper bound of its registers (`maxVreg`); it is built by `appendIns`, so the bound comes with it.
-/
import Mathlib.Data.List.Basic

namespace RiscvEmu.Jit

/-- a virtual register: 1 to 31 are x1 to x31, 32 to 63 are f0 to f31, temporaries follow -/
abbrev VReg := Nat

def vregZero : VReg := 0
def vregTempStart : VReg := 64

inductive IRType where
  | i8 | i16 | i32 | i64 | f32 | f64
deriving DecidableEq, Repr

inductive IROp where
  | invalid
  | load | store | loadX | storeX
  | add | addImm | sub | subImm | mul | divS | divU | rem | remU | mulHS | mulHU | mulHSU | neg
  | shl | shlImm | shr | shrImm | sar | sarImm
  | and | andImm | or | orImm | xor | xorImm | not
  | clz | ctz | popcount | bswap
  | set | setImm
  | mov | const | sext | zext
  | label | branch | branchImm | jump | call | ret | retDyn | chainExit | jalrIC | syscall
  | misalignLoad | misalignStore
  | fAdd | fSub | fMul | fDiv | fSqrt | fma | fmsub | fnmadd | fnmsub | fCmp | fNeg | fAbs
  | fCvtToI | fCvtToU | fCvtFromI | fCvtFromU | fCvtFF
  | stopperLoad | memAdd | memBudget
  | zeroIC | loadIC | incIC | decIC | spillIC | regBudget | budgetZero | budgetReserve | setPC | retBudget
  | markLive | markDead | writeback
deriving DecidableEq, Repr

structure IRInstr where
  op : IROp
  t : IRType
  dst : VReg
  a : VReg
  b : VReg
  c : VReg
deriving DecidableEq, Repr

/-- the operands that are registers -/
def IRInstr.operands (ins : IRInstr) : List VReg :=
  match ins.op with
  | .const => [ins.dst]
  | .load | .misalignLoad => [ins.dst, ins.a]
  | .store | .misalignStore => [ins.a, ins.b]
  | .loadX => [ins.dst, ins.a, ins.b]
  | .storeX => [ins.a, ins.b, ins.dst]
  | .add | .sub | .mul | .divS | .divU | .rem | .remU | .mulHS | .mulHU | .mulHSU
  | .shl | .shr | .sar | .and | .or | .xor | .set | .fAdd | .fSub | .fMul | .fDiv | .fCmp => [ins.dst, ins.a, ins.b]
  | .addImm | .subImm | .neg | .shlImm | .shrImm | .sarImm | .andImm | .orImm | .xorImm | .not
  | .clz | .ctz | .popcount | .bswap | .setImm | .mov | .sext | .zext | .fSqrt | .fNeg | .fAbs
  | .fCvtToI | .fCvtToU | .fCvtFromI | .fCvtFromU | .fCvtFF => [ins.dst, ins.a]
  | .ret => [ins.a]
  | .retDyn => [ins.a, ins.b]
  | .jalrIC => [ins.a]
  | .branch => [ins.a, ins.b]
  | .branchImm => [ins.a]
  | .fma | .fmsub | .fnmadd | .fnmsub => [ins.dst, ins.a, ins.b, ins.c]
  | .markLive | .markDead => [ins.a]
  | _ => []

/-- the registers that `forEachVReg` visits -/
def IRInstr.vregs (ins : IRInstr) : List VReg := ins.operands.filter fun v => v ≠ vregZero

/-- a block, as far as registers are placed in it -/
structure Block where
  instrs : List IRInstr
  maxVreg : VReg
  bound : ∀ ins ∈ instrs, ∀ vr ∈ ins.vregs, vr ≤ maxVreg

namespace Block

def new : Block := { instrs := [], maxVreg := 0, bound := fun _ h => absurd h List.not_mem_nil }

theorem le_foldl_max (l : List VReg) (m : VReg) : m ≤ l.foldl max m ∧ ∀ v ∈ l, v ≤ l.foldl max m := by
  induction l generalizing m with
  | nil => exact ⟨Nat.le_refl m, fun v hv => absurd hv List.not_mem_nil⟩
  | cons v l ih =>
    obtain ⟨hacc, hall⟩ := ih (max m v)
    refine ⟨Nat.le_trans (Nat.le_max_left m v) hacc, fun w hw => ?_⟩
    obtain rfl | hw := List.mem_cons.mp hw
    · exact Nat.le_trans (Nat.le_max_right m w) hacc
    · exact hall w hw

def appendIns (b : Block) (ins : IRInstr) : Block :=
  { instrs := b.instrs ++ [ins]
    maxVreg := ins.vregs.foldl max b.maxVreg
    bound := fun i hi vr hvr => by
      obtain ⟨hacc, hall⟩ := le_foldl_max ins.vregs b.maxVreg
      obtain hi | hi := List.mem_append.mp hi
      · exact Nat.le_trans (b.bound i hi vr hvr) hacc
      · rw [List.mem_singleton.mp hi] at hvr
        exact hall vr hvr }

/-- a register occurs in instruction `i` -/
def Occurs (b : Block) (vr : VReg) (i : Nat) : Prop := ∃ ins, b.instrs[i]? = some ins ∧ vr ∈ ins.vregs

end Block

end RiscvEmu.Jit
