/-
One instruction by two ways: what is compared, and how each kind of arm compares with the interpreter code it stands
for.

• `SameOutcome`: the integer and FP registers, `fcsr`, `mstatus`, `pc`, the reservation, the memory bytes and the
  error agree; a memory fault is compared by kind and address.
• `armPut_alike_iff`: an arm that writes `rd` without restoring `x0` agrees with the interpreter exactly if `rd` is
  not `x0` or the value is zero.
• `armLoad_alike_iff`, `armStore_alike_iff`: a memory arm agrees exactly if its access looks the same as the
  interpreter's.
-/
import RiscvEmu.Cpu.Direct

namespace RiscvEmu

variable {α : Type} {g : Cpu → Cpu} {body : Step Unit}

open Exec

/-- what two step errors are compared by -/
def StepError.view : StepError → StepError ⊕ (FaultKind × BitVec 64)
  | .memFault f => .inr f.view
  | e => .inl e

/-- the two ways an instruction was executed cannot be told apart -/
structure SameOutcome (r₁ r₂ : Except StepError Unit × Cpu) : Prop where
  result : r₁.1.mapError StepError.view = r₂.1.mapError StepError.view
  x : r₁.2.x = r₂.2.x
  f : r₁.2.f = r₂.2.f
  fcsr : r₁.2.fcsr = r₂.2.fcsr
  mstatus : r₁.2.mstatus = r₂.2.mstatus
  pc : r₁.2.pc = r₂.2.pc
  resvAddr : r₁.2.resvAddr = r₂.2.resvAddr
  resvValid : r₁.2.resvValid = r₂.2.resvValid
  bytes : r₁.2.mem.bytes = r₂.2.mem.bytes

-- The interpreter clears `wfi` before a 32-bit instruction and the arms do not: `c₀` is the
-- hart the interpreter starts from.
variable {c c₀ : Cpu} {w : Bool} {len : BitVec 64} {rd : BitVec 5}

theorem SameOutcome.refl (r : Except StepError Unit × Cpu) : SameOutcome r r :=
  ⟨rfl, rfl, rfl, rfl, rfl, rfl, rfl, rfl, rfl⟩

theorem not_sameOutcome_illegal {r : Except StepError Unit × Cpu} (h : r.1 ≠ .error .illegalInstruction) :
    ¬ SameOutcome (runArm armIllegal c) r := by
  intro hs
  rcases r with ⟨e | _, c'⟩
  · have hv : StepError.view .illegalInstruction =
        e.view := by simpa [runArm, armIllegal, Except.mapError] using hs.result
    cases e <;> simp [StepError.view] at hv h
  · simpa [runArm, armIllegal, Except.mapError] using hs.result

theorem armIllegal_alike : SameOutcome (runArm armIllegal c) (illegal c) := SameOutcome.refl _

/-! ## Registers -/

theorem fallThrough_run (body : Step Unit) (c : Cpu) :
    fallThrough len body c = match body c with
      | (.ok _, c') => (.ok (), c'.finish (c.pc + len))
      | (.error e, c') => (.error e, c') := by
  rw [fallThrough, gets_bind_run, bind_run]
  rcases body c with ⟨_ | _, _⟩ <;> rfl

theorem fallThrough_gets (f : Cpu → α) (k : α → Step Unit) (c : Cpu) :
    fallThrough len (gets f >>= k) c = fallThrough len (k (f c)) c := by
  rw [fallThrough_run, fallThrough_run, gets_bind_run]

theorem fallThrough_modify (g : Cpu → Cpu) (c : Cpu) :
    fallThrough len (Exec.modify g) c = (.ok (), (g c).finish (c.pc + len)) := rfl

theorem armStep_alike {u : BitVec 64 → Cpu → Cpu} (h₀ : c₀ = c.setWfi w)
    (h : g c₀ = (u c.pc c).setWfi w) :
    SameOutcome (runArm (armStep len u) c) (fallThrough len (Exec.modify g) c₀) := by
  rw [fallThrough_modify, h, h₀]
  exact ⟨rfl, rfl, rfl, rfl, rfl, rfl, rfl, rfl, rfl⟩

theorem putReg_eq_setReg {v : BitVec 64} (hx : c.x 0#5 = 0#64) (h : rd = 0#5 → v = 0#64) :
    c.putReg rd v = c.setReg rd v := by
  have hfun : (fun i => if i = rd then v else c.x i) = fun i => if i = 0 then 0 else if i = rd then v else c.x i := by
    funext i
    by_cases hi : i = 0#5
    · subst hi
      by_cases hrd : 0#5 = rd
      · simp [← hrd, h hrd.symm]
      · simp [hrd, hx]
    · simp [hi]
  simp only [Cpu.putReg, Cpu.setReg, hfun]

theorem armPut_alike_iff {v : Cpu → BitVec 64} (hx : c.x 0#5 = 0#64) (hg : g c = c.setReg rd (v c)) :
    SameOutcome (runArm (armPut len rd v) c) (fallThrough len (Exec.modify g) c) ↔ (rd = 0#5 → v c = 0#64) := by
  constructor
  · rintro hs rfl
    have h0 := congrFun hs.x 0#5
    rw [fallThrough_modify, hg] at h0
    simpa [runArm, armPut, armStep, Cpu.putReg, Cpu.setReg, Cpu.finish] using h0
  · intro h
    exact armStep_alike rfl (by rw [hg, ← putReg_eq_setReg hx h]; rfl)

/-! ## Memory -/

theorem mapError_view_iff {e e' : MemFault} :
    (StepError.memFault e).view = (StepError.memFault e').view ↔ e.view = e'.view := by
  simp [StepError.view]

theorem armLoad_alike_iff {d : BitVec 5} {addr : Cpu → BitVec 64} {acc : BitVec 64 → Exec GuestMemory MemFault α}
    {acc' : Exec GuestMemory MemFault α} {hart : MemOp α} {k : Cpu → α → Cpu} {g : α → BitVec 64}
    (h₀ : c₀ = c.setWfi w) (hmmu : c.mmu = none) (hd : Direct hart acc')
    (hbody : body c₀ = (hart.lift >>= fun v => setRegM d (g v)) c₀)
    (hk : ∀ m v, k (c.setMem m) v = (c.setMem m).setReg d (g v))
    (hval : ∀ v v' s s', acc (addr c) c.mem = (.ok v, s) → acc' c.mem = (.ok v', s') →
      (d ≠ 0#5 → g v = g v') → v = v') :
    SameOutcome (runArm (armLoad len addr acc k) c) (fallThrough len body c₀) ↔
      MemAlike (acc (addr c) c.mem) (acc' c.mem) := by
  subst h₀
  have hd' : hart (c.setWfi w) = ((acc' c.mem).1, (c.setWfi w).setMem (acc' c.mem).2) := hd.run hmmu
  have hok : ∀ v m, acc' c.mem = (.ok v, m) → fallThrough len body (c.setWfi w) =
      (.ok (), (((c.setWfi w).setMem m).setReg d (g v)).finish (c.pc + len)) := by
    intro v m hacc
    simp only [fallThrough_run, hbody, bind_run, MemOp.lift, mapErr, hd', hacc]
    rfl
  have herr : ∀ f m, acc' c.mem = (.error f, m) → fallThrough len body (c.setWfi w) =
      (.error (.memFault f), (c.setWfi w).setMem m) := by
    intro f m hacc
    simp only [fallThrough_run, hbody, bind_run, MemOp.lift, mapErr, hd', hacc]
  simp only [runArm, armLoad, onMem_run]
  rcases ha : acc (addr c) c.mem with ⟨e | v, m⟩ <;> rcases hb : acc' c.mem with ⟨e' | v', m'⟩
  · rw [memAlike_error_iff, herr e' m' hb]
    constructor
    · intro hs
      exact ⟨mapError_view_iff.1 (by simpa [Except.mapError] using hs.result), hs.bytes⟩
    · rintro ⟨hv, hbytes⟩
      exact ⟨by simp [Except.mapError, mapError_view_iff, hv], rfl, rfl, rfl, rfl, rfl, rfl, rfl, hbytes⟩
  · rw [hok v' m' hb]
    exact iff_of_false (fun hs => by simpa [Except.mapError] using hs.result) not_memAlike_error_ok
  · rw [herr e' m' hb]
    exact iff_of_false (fun hs => by simpa [Except.mapError] using hs.result) not_memAlike_ok_error
  · rw [hok v' m' hb]
    dsimp only
    rw [hk]
    constructor
    · intro hs
      obtain rfl := hval v v' m m' ha hb fun hrd => by
        simpa [Cpu.setReg, Cpu.finish, hrd] using congrFun hs.x d
      exact ⟨rfl, hs.bytes⟩
    · rintro ⟨hv, hbytes⟩
      obtain rfl : v = v' := by simpa [Except.mapError] using hv
      exact ⟨rfl, rfl, rfl, rfl, rfl, rfl, rfl, rfl, hbytes⟩

theorem armStore_alike_iff {acc : Cpu → Exec GuestMemory MemFault Unit} {acc' : Exec GuestMemory MemFault Unit}
    {hart : MemOp Unit} (h₀ : c₀ = c.setWfi w) (hmmu : c.mmu = none) (hd : Direct hart acc')
    (hbody : body c₀ = hart.lift c₀) :
    SameOutcome (runArm (armStore len acc) c) (fallThrough len body c₀) ↔ MemAlike (acc c c.mem) (acc' c.mem) := by
  subst h₀
  have hrun : fallThrough len body (c.setWfi w) = match acc' c.mem with
      | (.ok _, m) => (.ok (), ((c.setWfi w).setMem m).finish (c.pc + len))
      | (.error f, m) => (.error (.memFault f), (c.setWfi w).setMem m) := by
    have hd' : hart (c.setWfi w) = ((acc' c.mem).1, (c.setWfi w).setMem (acc' c.mem).2) := hd.run hmmu
    simp only [fallThrough_run, hbody, MemOp.lift, mapErr, hd']
    rcases acc' c.mem with ⟨f | v, m⟩ <;> rfl
  rw [hrun]
  simp only [runArm, armStore, onMem_run]
  rcases ha : acc c c.mem with ⟨e | v, m⟩ <;> rcases hb : acc' c.mem with ⟨e' | v', m'⟩
  · rw [memAlike_error_iff]
    constructor
    · intro hs
      exact ⟨mapError_view_iff.1 (by simpa [Except.mapError] using hs.result), hs.bytes⟩
    · rintro ⟨hv, hbytes⟩
      exact ⟨by simp [Except.mapError, mapError_view_iff, hv], rfl, rfl, rfl, rfl, rfl, rfl, rfl, hbytes⟩
  · exact iff_of_false (fun hs => by simpa [Except.mapError] using hs.result) not_memAlike_error_ok
  · exact iff_of_false (fun hs => by simpa [Except.mapError] using hs.result) not_memAlike_ok_error
  · exact ⟨fun hs => ⟨rfl, hs.bytes⟩, fun hm => ⟨rfl, rfl, rfl, rfl, rfl, rfl, rfl, rfl, hm.2⟩⟩

/-! ## Control flow -/

theorem armBranch_alike {off target : BitVec 64} {cond : Cpu → Bool} (h₀ : c₀ = c.setWfi w)
    (h : (if cond c then c.pc + off else c.pc + len) = target) :
    SameOutcome (runArm (armBranch len off cond) c) (.ok (), c₀.finish target) := by
  subst h h₀
  exact ⟨rfl, rfl, rfl, rfl, rfl, rfl, rfl, rfl, rfl⟩

theorem armDelegate_alike (fp : HostFP) (slot : DecodedInsn) :
    SameOutcome (runArm (armDelegate fp slot) c)
      (if slot.len = 2 then stepRVC (slot.insn.setWidth 16) c else stepFromInsn fp slot.insn c) := by
  simp only [runArm, armDelegate]
  rcases (if slot.len = 2 then stepRVC (slot.insn.setWidth 16) c else stepFromInsn fp slot.insn c) with ⟨e | u, c'⟩
  · exact ⟨rfl, rfl, rfl, rfl, rfl, rfl, rfl, rfl, rfl⟩
  · exact ⟨rfl, rfl, rfl, rfl, rfl, rfl, rfl, rfl, rfl⟩

end RiscvEmu
