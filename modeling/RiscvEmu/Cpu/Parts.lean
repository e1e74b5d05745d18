/-
The parts of a step: the fetch of an instruction and its execution (`step_run`), the stores that are made at once or
byte by byte, and the check that floating point is on.
-/
import RiscvEmu.Cpu.Tlb

namespace RiscvEmu

open GuestMemory Exec BitVec Bytes

/-! ## A step in two parts -/

inductive Fetched
  | half (insn : BitVec 16)
  | word (insn : BitVec 32)

def fetchInsn : MemOp Fetched := do
  let half ← fetch16 (← gets Cpu.pc)
  if half.extractLsb' 0 2 ≠ 3#2 then pure (.half half)
  else return .word (← fetch32M (← gets Cpu.pc))

/-- the rest of a step -/
def execFetched (fp : HostFP) : Fetched → Step Unit
  | .half insn => stepRVC insn
  | .word insn => stepFromInsn fp insn

theorem lift_of_ok {α : Type} {m : MemOp α} {c c' : Cpu} {a : α} (h : m c = (.ok a, c')) : m.lift c = (.ok a, c') := by
  rw [MemOp.lift, mapErr, h]

theorem lift_of_error {α : Type} {m : MemOp α} {c c' : Cpu} {f : MemFault} (h : m c = (.error f, c')) :
    m.lift c = (.error (.memFault f), c') := by
  rw [MemOp.lift, mapErr, h]

theorem step_run (fp : HostFP) (c : Cpu) : step fp c = (fetchInsn.lift >>= execFetched fp) (c.setWfi false) := by
  rw [step, modify_bind_run, gets_bind_run]
  generalize c.setWfi false = s
  rcases hh : fetch16 s.pc s with ⟨f | half, s'⟩
  · have hf : fetchInsn s = (.error f, s') := by
      rw [fetchInsn, gets_bind_run, bind_of_error hh]
    rw [bind_of_error (lift_of_error hh), bind_of_error (lift_of_error hf)]
  · rw [bind_of_ok (lift_of_ok hh)]
    have hf : fetchInsn s = (if half.extractLsb' 0 2 ≠ 3#2 then pure (.half half)
        else return .word (← fetch32M (← gets Cpu.pc)) : MemOp Fetched) s' := by
      rw [fetchInsn, gets_bind_run, bind_of_ok hh]
    by_cases hq : half.extractLsb' 0 2 ≠ 3#2
    · rw [if_pos hq] at hf ⊢
      rw [bind_of_ok (lift_of_ok hf)]
      rfl
    · rw [if_neg hq, gets_bind_run] at hf ⊢
      rcases hw : fetch32M s'.pc s' with ⟨f | word, s''⟩
      · rw [bind_of_error hw] at hf
        rw [bind_of_error (lift_of_error hw), bind_of_error (lift_of_error hf)]
      · rw [bind_of_ok hw] at hf
        rw [bind_of_ok (lift_of_ok hw), bind_of_ok (lift_of_ok hf)]
        rfl

theorem keeps_fetchInsn {P : Cpu → Prop} (h : ∀ w a, Keeps P (fetchVia w a)) : Keeps P fetchInsn := by
  have h16 : ∀ a, Keeps P (fetch16 a) := fun a => (h 2 a).bind fun _ => .pure _
  have h32 : ∀ a, Keeps P (fetch32M a) := by
    intro a
    have haligned : Keeps P (fetch32 a) := (h 4 a).bind fun _ => .pure _
    exact haligned.onError ((h16 a).bind fun lo => (h16 (a + 2)).bind fun hi => .pure _)
  refine (Keeps.gets _).bind fun pc => (h16 pc).bind fun half => Keeps.ite (Keeps.pure _) ?_
  exact (Keeps.gets _).bind fun pc => (h32 pc).bind fun word => Keeps.pure _

/-! ## Floating point on and off -/

theorem requireFP_of_enabled {c : Cpu} (h : c.fpEnabled = true) : requireFP c = (.ok (), c) := by
  rw [requireFP, gets_bind_run, h]
  rfl

theorem requireFP_of_disabled {c : Cpu} (h : c.fpEnabled = false) : requireFP c = (.error .illegalInstruction, c) := by
  rw [requireFP, gets_bind_run, h]
  rfl

/-! ## Stores of several bytes -/

theorem and_width_eq_zero_iff {n : Nat} (hn : n = 1 ∨ n = 2 ∨ n = 4 ∨ n = 8) (a : BitVec 64) :
    a &&& (BitVec.ofNat 64 n - 1) = 0 ↔ a.toNat % n = 0 := by
  have hmask : ∀ k, (BitVec.ofNat 64 (2 ^ k) - 1).toNat = 2 ^ k - 1 → (a &&& (BitVec.ofNat 64 (2 ^ k) - 1) = 0 ↔
      a.toNat % 2 ^ k = 0) := by
    intro k hk
    rw [← toNat_inj, toNat_and, hk, Nat.and_two_pow_sub_one_eq_mod]
    rfl
  rcases hn with rfl | rfl | rfl | rfl
  · exact hmask 0 rfl
  · exact hmask 1 rfl
  · exact hmask 2 rfl
  · exact hmask 3 rfl

theorem and_seven_eq_zero {p : BitVec 64} (h : p.toNat % 8 = 0) : p &&& (8 - 1) = 0 :=
  (and_width_eq_zero_iff (n := 8) (by simp) p).2 h

/-- the form of `store16M`, `store32M` and `store64M`: at once, else byte by byte -/
def storeM {w : Nat} (n : Nat) (addr : BitVec 64) (v : BitVec w) : MemOp Unit :=
  orMisaligned (storeVia (BitVec.ofNat 64 n) addr (v.setWidth 64)) (storeBytes store8 v addr n)

theorem store64M_eq (addr v : BitVec 64) : store64M addr v = storeM 8 addr v := by
  rw [store64M, storeM, setWidth_eq]
  rfl

/-- one page of memory that holds `insn` at address 0, and 4092 in every register but `x0` -/
def onePageCpu (insn : BitVec 32) : Cpu :=
  let m := newGuestMemoryWithModel 12 .sandbox true
  { newCPU { m with bytes := writeLe (fun _ => 0) 0 4 (insn.setWidth 64) } with
    x := fun r => if r = 0 then 0 else 4092 }

end RiscvEmu
