/-
What an instruction leaves behind.

• `Deals.leaves`: the memory that its access leaves.
• `step_untouched`: the count of instructions begun, the watched address and a missing MMU are as they were.
-/
import RiscvEmu.Cpu.Dealings

namespace RiscvEmu

open Exec

def memAfter (c : Cpu) : Option InsnAccess → GuestMemory
  | none => c.mem
  | some a => (a.run c).2.mem

/-- the computation leaves the memory that the access leaves -/
def Leaves (c : Cpu) (m : Step Unit) (a : Option InsnAccess) : Prop := (m c).2.mem = memAfter c a

theorem mem_of_dealt (m : Step Unit) (c : Cpu) : (m c).2.mem = (dealt m c).elim (fun r => r.2.mem) id := by
  unfold dealt
  split
  · rename_i hr
    rw [hr]
    rfl
  · rename_i hr
    rw [hr]
    rfl

theorem Deals.leaves {c : Cpu} {m : Step Unit} {a : Option InsnAccess} (h : Deals c m a) : Leaves c m a := by
  unfold Leaves
  rw [mem_of_dealt, h]
  cases a with
  | none => rfl
  | some x =>
    rw [dealtBy, ← mem_of_dealt]
    change (x.run.lift c).2.mem = (x.run c).2.mem
    unfold MemOp.lift Exec.mapErr
    rcases x.run c with ⟨e | v, s⟩ <;> rfl

/-! ## What no instruction changes -/

/-- the count of instructions begun and the watched address are as they were, and no MMU has come
up -/
structure Untouched (c c' : Cpu) : Prop where
  begun : c'.riscvInstrBegun = c.riscvInstrBegun
  watch : c'.watchAddr = c.watchAddr
  bare : c.mmu = none → c'.mmu = none

namespace Untouched

variable {c s : Cpu}

theorem refl (c : Cpu) : Untouched c c := ⟨rfl, rfl, id⟩

theorem setupOnly (c : Cpu) : SetupOnly (Untouched c) where
  mem _ _ h _ := ⟨h.begun, h.watch, h.bare⟩
  tlb _ _ h hm := ⟨h.begun, h.watch, fun hc => absurd (h.bare hc) hm⟩
  congr hs h := ⟨(congrArg (·.2.2.2.2.2) hs).trans h.begun, (congrArg (·.2.2.2.2.1) hs).trans h.watch,
    fun hc => (congrArg (·.2.1) hs).trans (h.bare hc)⟩

theorem trap (h : Untouched c s) (pc cause tval : BitVec 64) (len : BitVec 8) :
    Untouched c (s.trapToPrivilegedAt pc cause tval len).2 :=
  (setupOnly c).congr (trapToPrivilegedAt_setup s pc cause tval len) h

theorem writeCSR (s : Cpu) (a : BitVec 12) (v : BitVec 64) (h : Untouched c s) : Untouched c (s.writeCSR a v).2 :=
  (setupOnly c).writeCSR (fun _ _ h => ⟨h.begun, h.watch, h.bare⟩) s a v h

theorem stepClosed (c : Cpu) : StepClosed (Untouched c) fun _ => True :=
  (setupOnly c).stepClosed trivial (fun _ => trivial) fun _ _ _ _ _ => ⟨trivial, trivial⟩

theorem special (c : Cpu) (i : Fetched) : Special (Untouched c) (fun _ => True) c i :=
  (setupOnly c).special writeCSR (refl c) i

end Untouched

theorem execInsn_untouched (fp : HostFP) (insn : BitVec 32) (c : Cpu) : Untouched c (execInsn fp insn c).2 :=
  (obeys_execInsn (Untouched.stepClosed c) fp (Untouched.refl c) (Untouched.special c (.word insn))).1

theorem stepRVC_untouched (insn : BitVec 16) (c : Cpu) : Untouched c (stepRVC insn c).2 :=
  (obeys_stepRVC (Untouched.stepClosed c) (Untouched.refl c) (Untouched.special c (.half insn))).1

/-- **What a step never changes.** -/
theorem step_untouched (fp : HostFP) (c : Cpu) : Untouched c (step fp c).2 :=
  (Untouched.setupOnly c).step Untouched.writeCSR fp (Untouched.refl c)

end RiscvEmu
