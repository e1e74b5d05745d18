/-
Machine mode is out of reach of the modes below it.

• `machineSide_kept`: no instruction, trap or interrupt below machine mode changes what belongs to machine mode.
-/
import RiscvEmu.Machine.Invariant

namespace RiscvEmu

open Exec BitVec BitField

/-- the bits of `mstatus` that belong to machine mode, without MPRV, which `sret` clears -/
def machineStatus : BitVec 64 := statusMIE ||| statusMPIE ||| statusMPP ||| statusTVM ||| statusTW ||| statusTSR

/-- strictness, the machine's part of `mstatus` and its CSRs; SEIP in `mip` follows the board -/
def Cpu.machineSide (c : Cpu) : Bool × BitVec 64 × CsrFile :=
  (c.strictCSR, c.mstatus &&& machineStatus,
    { c.csr with
      stvec := 0, sscratch := 0, sepc := 0, scause := 0, stval := 0, sie := 0, sip := 0, scounteren := 0, stimecmp := 0
      stip := false, mip := andNot c.csr.mip mipSEIP })

/-- the hart is in machine mode, or its machine side is that of `c` -/
def HeldBelow (c s : Cpu) : Prop := s.priv = privMachine ∨ s.priv < privMachine ∧ s.machineSide = c.machineSide

variable {c s : Cpu}

theorem sanitizeMstatus_machine {val : BitVec 64} (old : BitVec 64) (h : val &&& statusMPP ≠ 2#64 <<< 11) :
    sanitizeMstatus old val &&& machineStatus = val &&& machineStatus := by
  have hnext (m : BitVec 64) (hm : Within mstatusWritable m) :
      (andNot old (mstatusWritable ||| statusSD) ||| (val &&& mstatusWritable)) &&& m = val &&& m := by
    rw [BitVec.or_comm, or_and_disjoint, BitVec.and_assoc, BitVec.and_comm mstatusWritable, hm]
    rw [← hm, BitVec.and_comm m, ← BitVec.and_assoc, andNot, clear_and_within (by decide), zero_and]
  unfold sanitizeMstatus
  dsimp only
  rw [← hnext statusMPP (by decide)] at h
  rw [if_neg h, ← hnext machineStatus (by decide)]
  split_ifs
  · exact or_and_disjoint (by decide)
  · rfl

namespace HeldBelow

theorem setStatus (h : HeldBelow c s) {status : BitVec 64}
    (hs : status &&& machineStatus = s.mstatus &&& machineStatus) :
    HeldBelow c { s with mstatus := status } :=
  h.imp_right fun ⟨hp, hside⟩ => ⟨hp, by rw [← hside, Cpu.machineSide, hs]; rfl⟩

theorem trapToSupervisorAt (h : HeldBelow c s) (hp : s.priv ≠ privMachine) (pc cause tval : BitVec 64) :
    HeldBelow c (s.trapToSupervisorAt pc cause tval) := by
  have hstatus : (s.trapToSupervisorAt pc cause tval).mstatus &&& machineStatus = s.mstatus &&& machineStatus := by
    simp only [Cpu.trapToSupervisorAt, andNot]
    split_ifs <;> simp (disch := decide) only [or_and_disjoint, clear_and_disjoint]
  exact .inr ⟨show privSupervisor < privMachine by decide, ((h.setStatus hstatus).resolve_left hp).2⟩

theorem trapToMachineAt (h : HeldBelow c s) (pc cause tval : BitVec 64) :
    HeldBelow c (s.trapToMachineAt pc cause tval).2 := by
  unfold Cpu.trapToMachineAt
  split_ifs
  · exact h
  · exact .inl rfl

theorem trapToPrivilegedAt (h : HeldBelow c s) (pc cause tval : BitVec 64) (len : BitVec 8) :
    HeldBelow c (s.trapToPrivilegedAt pc cause tval len).2 := by
  have hs : HeldBelow c (s.setTrap cause len) := h
  unfold Cpu.trapToPrivilegedAt
  dsimp only
  split_ifs with hd
  · exact hs.trapToSupervisorAt (of_decide_eq_true hd).1 pc cause tval
  · exact hs.trapToMachineAt pc cause tval

theorem memBlind : MemBlind (HeldBelow c) := ⟨fun _ _ h => h, fun _ _ h _ => h⟩

section Step

variable (hmpp : c.mstatus &&& statusMPP ≠ 2#64 <<< 11)

include hmpp

theorem sanitize (h : HeldBelow c s) (old : BitVec 64) {val : BitVec 64}
    (hv : val &&& machineStatus = s.mstatus &&& machineStatus) :
    HeldBelow c { s with mstatus := sanitizeMstatus old val } := by
  refine h.elim .inl fun ⟨hp, hside⟩ => setStatus (.inr ⟨hp, hside⟩) ?_
  have hpart (x : BitVec 64) : x &&& statusMPP = x &&& machineStatus &&& statusMPP := by
    rw [BitVec.and_assoc]
    rfl
  have hsame : val &&& machineStatus = c.mstatus &&& machineStatus := hv.trans (congrArg (·.2.1) hside)
  refine (sanitizeMstatus_machine old ?_).trans hv
  rwa [hpart, hsame, ← hpart]

theorem markFPDirty (h : HeldBelow c s) : HeldBelow c s.markFPDirty := h.sanitize hmpp _ (or_and_disjoint (by decide))

theorem stepClosed : StepClosed (HeldBelow c) fun _ => True where
  load w _ := memBlind.load w
  store w _ := memBlind.store w
  fetch := memBlind.fetch
  reg _ _ _ h := h
  freg _ _ _ h := h
  resv _ _ h := h
  noResv _ h := h
  note _ _ _ h := h
  wfi _ _ h := h
  flags _ _ h := h
  dirty _ h := h.markFPDirty hmpp
  next _ _ _ _ h _ := h
  jump _ _ h := h
  flush _ h _ := memBlind.flush h
  trap _ cause tval len h _ := h.trapToPrivilegedAt _ cause tval len
  illegal := trivial
  fault _ := trivial
  unhandled _ _ _ _ _ := ⟨trivial, trivial⟩

theorem sret (h : HeldBelow c s) (hp : s.priv ≠ privMachine) : HeldBelow c s.sret := by
  unfold Cpu.sret
  dsimp only
  generalize ht : andNot _ statusMPRV = t
  have hstatus : t &&& machineStatus = s.mstatus &&& machineStatus := by
    rw [← ht]
    simp only [andNot]
    split_ifs <;> simp (disch := decide) only [or_and_disjoint, clear_and_disjoint]
  refine .inr ⟨?_, ((h.sanitize hmpp t hstatus).resolve_left hp).2⟩
  show (if s.mstatus &&& statusSPP ≠ 0 then privSupervisor else privUser) < privMachine
  split_ifs <;> decide

variable (hstrict : c.strictCSR = true)

include hstrict

theorem writeCSR (h : HeldBelow c s) {a : BitVec 12} (hc : s.checkCSRAccess a true = true) (v : BitVec 64) :
    HeldBelow c (s.writeCSR a v).2 := by
  by_cases hp : s.priv = privMachine
  · exact .inl ((writeCSR_frame s a v).2.2.trans hp)
  obtain ⟨hlt, hside⟩ := h.resolve_left hp
  have hs : s.strictCSR = true := (congrArg (·.1) hside).trans hstrict
  have hreq : ¬ s.priv < csrRequiredPrivilege a := by
    unfold Cpu.checkCSRAccess at hc
    split_ifs at hc with h1
    exact fun hlow => h1 ⟨hs, .inr hlow⟩
  unfold Cpu.writeCSR
  split
  case h_1 | h_2 | h_3 => exact markFPDirty hmpp (by exact h)
  case h_4 =>
    refine h.sanitize hmpp _ ?_
    rw [or_and_disjoint, andNot, clear_and_disjoint (by decide)]
    rw [BitVec.and_assoc, show sstatusMask &&& machineStatus = 0#64 by decide, and_zero]
  case h_14 =>
    split_ifs
    · exact memBlind.flush (by exact h)
    · exact h
  -- a register of the supervisor, or one that asks for machine mode
  all_goals first | exact h | exact absurd hlt hreq

theorem step (fp : HostFP) (h : HeldBelow c s) (hp : s.priv ≠ privMachine) : HeldBelow c (RiscvEmu.step fp s).2 := by
  refine (step_obeys (stepClosed hmpp) fp h fun i t hi => ?_).1
  have ht := keeps_fetchInsn memBlind.fetch (s.setWfi false) h
  rw [hi] at ht
  have hpt : t.priv ≠ privMachine := (fetchInsn_frame hi).2.1 ▸ hp
  have hst : t.strictCSR = true := (congrArg (·.1) (ht.resolve_left hpt).2).trans hstrict
  cases i with
  | half insn => exact fun _ _ => trivial
  | word insn =>
    have hcsr := keeps_execCsr (fun _ _ _ h => h) (fun _ _ v h hc _ => h.writeCSR hmpp hstrict hc v) insn t ht
    exact { csr := fun _ => hcsr, mret := fun _ hm => absurd ⟨hst, hpt⟩ hm, sret := fun _ _ => ht.sret hmpp hpt
            ebreak := fun _ _ => trivial }

end Step

theorem serviceBiosMachineTimer (h : HeldBelow c s) : HeldBelow c s.serviceBiosMachineTimer := by
  have hline (t : Cpu) : t.refreshSupervisorExternalPending.machineSide = t.machineSide := by
    have hseip : andNot t.refreshSupervisorExternalPending.csr.mip mipSEIP = andNot t.csr.mip mipSEIP := by
      simp only [Cpu.refreshSupervisorExternalPending, Cpu.setExternalPending, andNot]
      split_ifs
      · exact or_and_disjoint (by decide)
      · exact (BitVec.and_assoc ..).trans (by rw [BitVec.and_self]; rfl)
    unfold Cpu.machineSide
    rw [hseip]
    rfl
  unfold Cpu.serviceBiosMachineTimer
  refine h.imp (fun hp => ?_) fun hb => ⟨?_, (hline _).trans (.trans ?_ hb.2)⟩
  · dsimp only
    split_ifs <;> exact hp
  · dsimp only
    split_ifs <;> exact hb.1
  · dsimp only
    split_ifs <;> rfl

theorem takePendingBiosInterrupt (h : HeldBelow c s) : HeldBelow c s.takePendingBiosInterrupt.2 := by
  have ht := h.serviceBiosMachineTimer
  unfold Cpu.takePendingBiosInterrupt
  dsimp only
  split
  · exact ht.trapToMachineAt _ _ _
  · split
    · rename_i irq hirq
      refine ht.trapToSupervisorAt (fun hp => ?_) _ _ _
      rw [Cpu.pendingSupervisorInterrupt, if_pos hp] at hirq
      cases hirq
    · exact ht

theorem trapMachineError (h : HeldBelow c s) (err : StepError) : HeldBelow c (s.trapMachineError err).2 := by
  cases err <;> first | exact h.trapToPrivilegedAt _ _ _ _ | exact h

end HeldBelow

/-- **Machine mode is out of reach.**  As long as a strict hart has not got to machine mode, its machine side is as it
was, whatever it executes and whichever errors and interrupts it takes. -/
theorem machineSide_kept (fp : HostFP) {c : Cpu} (hstrict : c.strictCSR = true)
    (hmpp : c.mstatus &&& statusMPP ≠ 2#64 <<< 11)
    (hpriv : c.priv < privMachine) (ops : List MachineOp) (hbelow : Along fp (fun s _ => s.priv ≠ privMachine) ops c) :
    Throughout fp (HeldBelow c) ops c := by
  suffices h : ∀ s, HeldBelow c s → Along fp (fun s _ => s.priv ≠ privMachine) ops s →
    Throughout fp (HeldBelow c) ops s from
    h c (.inr ⟨hpriv, rfl⟩) hbelow
  clear hbelow
  induction ops with
  | nil => exact fun s h _ => h
  | cons op ops ih =>
    intro s h ⟨hp, hrest⟩
    refine ⟨h, ih _ ?_ hrest⟩
    cases op with
    | step => exact h.step hmpp hstrict fp hp
    | trapMachineError err => exact h.trapMachineError err
    | takePendingBiosInterrupt => exact h.takePendingBiosInterrupt

/-- a strict hart in supervisor mode executes `csrrw x0, sscratch, x10` -/
theorem machineSide_kept_sscratch :
    let c := (bootCpu (Bytes.writeLe (fun _ => 0) 0 4 0x14051073)).enableStrictCSR.setPrivilegeMode privSupervisor
    Throughout default (HeldBelow c) [.step] c :=
  machineSide_kept default rfl (by decide) (by decide) _ ⟨by decide, trivial⟩

end RiscvEmu
