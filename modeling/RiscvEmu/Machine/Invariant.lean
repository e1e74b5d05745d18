/-
What holds of the hart in every state the machine reaches.

A machine is set up from `NewCPU` (`Boot`) and then takes steps, delivers errors of steps and takes interrupts in any
order (`MachineOp`). `x0` reads zero, the privilege mode exists, `mstatus` is consistent, `satp` and the delegation
and interrupt registers stay inside what is implemented, and `fcsr` has eight bits (`Sane`). `pc` stays even except
through a return from a trap: `mepc` and `sepc` are written as they are given (`machineInv_iff`).
-/
import RiscvEmu.Lib.Bits
import RiscvEmu.Cpu.Closed
import RiscvEmu.Machine.Run

namespace RiscvEmu

variable {c : Cpu} {a b : BitVec 32}

open BitVec

open Exec BitField

/-! ## The runs -/

namespace Cpu

def enableStrictCSR (c : Cpu) : Cpu := { c with strictCSR := true }

def setPrivilegeMode (c : Cpu) (mode : PrivilegeMode) : Cpu := { c with priv := mode }

def setPC (c : Cpu) (addr : BitVec 64) : Cpu := { c with pc := addr }

end Cpu

/-- the harts a machine starts with -/
inductive Boot (mem : GuestMemory) : Cpu → Prop
  | new : Boot mem (newCPU mem)
  | strict {c : Cpu} : Boot mem c → Boot mem c.enableStrictCSR
  | mmu {c : Cpu} : Boot mem c → Boot mem c.enableMMU
  | machine {c : Cpu} : Boot mem c → Boot mem (c.setPrivilegeMode privMachine)
  | start {c : Cpu} (pc : BitVec 64) : pc.getLsbD 0 = false → Boot mem c → Boot mem (c.setPC pc)

/-- what the machine may do next -/
inductive MachineOp
  | step
  | trapMachineError (err : StepError)
  | takePendingBiosInterrupt

def MachineOp.run (fp : HostFP) : MachineOp → Cpu → Cpu
  | .step, c => (RiscvEmu.step fp c).2
  | .trapMachineError err, c => (c.trapMachineError err).2
  | .takePendingBiosInterrupt, c => c.takePendingBiosInterrupt.2

/-- `P` holds in every state of the run -/
def Throughout (fp : HostFP) (P : Cpu → Prop) : List MachineOp → Cpu → Prop
  | [], c => P c
  | op :: ops, c => P c ∧ Throughout fp P ops (op.run fp c)

/-- every operation of the run meets `Q` in the state it starts from -/
def Along (fp : HostFP) (Q : Cpu → MachineOp → Prop) : List MachineOp → Cpu → Prop
  | [], _ => True
  | op :: ops, c => Q c op ∧ Along fp Q ops (op.run fp c)

/-! ## The invariant -/

structure Sane (c : Cpu) : Prop where
  x0 : c.x 0 = 0
  priv : c.priv = privUser ∨ c.priv = privSupervisor ∨ c.priv = privMachine
  mpp : c.mstatus &&& statusMPP ≠ 2#64 <<< 11
  sd : c.mstatus &&& statusSD ≠ 0 ↔ c.mstatus &&& statusFS = statusFS ∨ c.mstatus &&& statusXS = statusXS
  satp : satpMode c.satp = satpModeBare ∨ satpMode c.satp = satpModeSv39 ∨ satpMode c.satp = satpModeSv48
  medeleg : Within implementedMedeleg c.csr.medeleg
  mideleg : Within implementedMideleg c.csr.mideleg
  mie : Within implementedMieMask c.csr.mie
  mip : Within implementedMipMask c.csr.mip
  sie : Within implementedSieMask c.csr.sie
  sip : Within implementedSipMask c.csr.sip
  fcsr : c.fcsr < 256

structure MachineInv (c : Cpu) : Prop extends Sane c where
  pc : c.pc.getLsbD 0 = false

/-! ## `mstatus` -/

/-- `SD` sums up `FS` and `XS` -/
def SummaryOk (s : BitVec 64) : Prop :=
  s &&& statusSD ≠ 0 ↔ s &&& statusFS = statusFS ∨ s &&& statusXS = statusXS

/-- `MPP` names a mode, and `SD` sums up -/
def StatusOk (s : BitVec 64) : Prop := s &&& statusMPP ≠ 2#64 <<< 11 ∧ SummaryOk s

def statusSummary : BitVec 64 := statusSD ||| statusFS ||| statusXS

theorem summaryOk_congr {s s' : BitVec 64} (hs : s &&& statusSummary = s' &&& statusSummary) :
    SummaryOk s ↔ SummaryOk s' := by
  have hpart : ∀ m, statusSummary &&& m = m → s &&& m = s' &&& m := by
    intro m hm
    rw [← hm, ← BitVec.and_assoc, hs, BitVec.and_assoc]
  unfold SummaryOk
  rw [hpart statusSD (by decide), hpart statusFS (by decide), hpart statusXS (by decide)]

theorem sanitizeMstatus_ok (old val : BitVec 64) : StatusOk (sanitizeMstatus old val) := by
  unfold sanitizeMstatus
  dsimp only
  generalize hn : andNot old (mstatusWritable ||| statusSD) ||| (val &&& mstatusWritable) = next
  have hsd : next &&& statusSD = 0 := by
    rw [← hn, or_and_disjoint]
    · exact clear_and_within (by decide)
    · rw [BitVec.and_assoc, show mstatusWritable &&& statusSD = 0 by decide]
      exact and_zero
  -- the next status with a mode in `MPP`, before `SD` is summed up
  generalize hm : (if next &&& statusMPP = 2#64 <<< 11 then andNot next statusMPP else next) = s
  have hmpp : s &&& statusMPP ≠ 2#64 <<< 11 := by
    rw [← hm]
    split_ifs with h2
    · rw [andNot, clear_and_within (by decide)]
      decide
    · exact h2
  have hclear : s &&& statusSD = 0 := by
    rw [← hm]
    split_ifs
    · rw [andNot, clear_and_disjoint (by decide), hsd]
    · exact hsd
  have hor : ∀ m, statusSD &&& m = 0 → (s ||| statusSD) &&& m = s &&& m := fun m h => or_and_disjoint h
  split_ifs with hd
  · refine ⟨by rwa [hor _ (by decide)], fun _ => ?_, fun _ => ?_⟩
    · rwa [hor _ (by decide), hor _ (by decide)]
    · rw [BitVec.and_comm, and_or_distrib_left, BitVec.and_comm, hclear]
      decide
  · exact ⟨hmpp, fun h => absurd hclear h, fun h => absurd h hd⟩

/-! ## Traps -/

theorem trapToSupervisorAt_statusOk (h : StatusOk c.mstatus) (pc cause tval : BitVec 64) :
    StatusOk (c.trapToSupervisorAt pc cause tval).mstatus := by
  have hclear : ∀ m, (statusSIE ||| statusSPIE ||| statusSPP) &&& m = 0 →
      (c.trapToSupervisorAt pc cause tval).mstatus &&& m = c.mstatus &&& m := by
    intro m hm
    have hpart : ∀ b, Within (statusSIE ||| statusSPIE ||| statusSPP) b → b &&& m = 0 := by
      intro b hb
      rw [← hb, BitVec.and_assoc, hm]
      exact and_zero
    unfold Cpu.trapToSupervisorAt
    dsimp only
    split_ifs
    all_goals
      simp only [andNot]
      rw [← clear_and_disjoint (a := c.mstatus) hm]
    · rw [or_and_disjoint (hpart _ (by decide)), or_and_disjoint (hpart _ (by decide))]
    · rw [or_and_disjoint (hpart _ (by decide))]
    · rw [or_and_disjoint (hpart _ (by decide))]
  refine ⟨?_, (summaryOk_congr (hclear _ (by decide))).2 h.2⟩
  rw [hclear _ (by decide)]
  exact h.1

theorem trapToMachineAt_statusOk (h : StatusOk c.mstatus)
    (hp : c.priv = privUser ∨ c.priv = privSupervisor ∨ c.priv = privMachine) (pc cause tval : BitVec 64) :
    StatusOk (c.trapToMachineAt pc cause tval).2.mstatus := by
  unfold Cpu.trapToMachineAt
  split_ifs with hm
  · exact h
  dsimp only
  generalize ha : andNot c.mstatus (statusMIE ||| statusMPIE ||| statusMPP) = a
  have hmpp : a &&& statusMPP = 0 := by
    rw [← ha]
    exact clear_and_within (by decide)
  have hsum : a &&& statusSummary = c.mstatus &&& statusSummary := by
    rw [← ha]
    exact clear_and_disjoint (by decide)
  generalize hb : (if c.mstatus &&& statusMIE ≠ 0 then a ||| statusMPIE else a) = b
  have hbit : ∀ m, statusMPIE &&& m = 0 → b &&& m = a &&& m := by
    intro m hm
    rw [← hb]
    split_ifs
    · exact or_and_disjoint hm
    · rfl
  have hmode : ∀ v : BitVec 64, v &&& statusMPP ≠ 2#64 <<< 11 → v &&& statusSummary = 0 → StatusOk (b ||| v) := by
    intro v hv hs
    constructor
    · rw [BitVec.and_comm, and_or_distrib_left, BitVec.and_comm statusMPP b, hbit _ (by decide), hmpp,
        BitVec.and_comm statusMPP v]
      simpa using hv
    · refine (summaryOk_congr ?_).2 h.2
      rw [or_and_disjoint hs, hbit _ (by decide), hsum]
  rcases hp with hp | hp | hp <;> rw [hp] <;> exact hmode _ (by decide) (by decide)

theorem trapVectorPC_even (tvec cause : BitVec 64) : (trapVectorPC tvec cause).getLsbD 0 = false := by
  unfold trapVectorPC
  dsimp only
  have hbase : (andNot tvec 3).getLsbD 0 = false := by simp [andNot]
  split_ifs
  · exact hbase
  · have hvec : (4 * andNot cause interruptCauseFlag).getLsbD 0 = false := by
      rw [bit0_iff, toNat_mul]
      generalize (andNot cause interruptCauseFlag).toNat = n
      simp only [reduceToNat]
      omega
    exact bit0_add hbase hvec

/-! ## The steps keep it -/

theorem Sane.statusOk (h : Sane c) : StatusOk c.mstatus := ⟨h.mpp, h.sd⟩

theorem Sane.setStatus (h : Sane c) {s : BitVec 64} (hs : StatusOk s) : Sane { c with mstatus := s } :=
  { h with mpp := hs.1, sd := hs.2 }

theorem Sane.markFPDirty (h : Sane c) : Sane c.markFPDirty := h.setStatus (sanitizeMstatus_ok _ _)

theorem or_lt_256 (ha : a < 256) (hb : b < 256) : a ||| b < 256 := by
  rw [lt_def] at *
  rw [toNat_or]
  exact Nat.or_lt_two_pow (n := 8) ha hb

theorem and_lt_256 (ha : a < 256) : a &&& b < 256 := by
  rw [lt_def] at *
  rw [toNat_and]
  exact lt_of_le_of_lt Nat.and_le_left ha

theorem field_lt_256 (v : BitVec 64) {m k : Nat} (h : m * 2 ^ k < 256) :
    ((v &&& BitVec.ofNat 64 m) <<< k).setWidth 32 < 256 := by
  have hand : (v &&& BitVec.ofNat 64 m).toNat ≤ m := by
    rw [toNat_and, toNat_ofNat]
    exact le_trans Nat.and_le_right (Nat.mod_le m _)
  have hshift : ((v &&& BitVec.ofNat 64 m).toNat) <<< k < 256 := by
    rw [Nat.shiftLeft_eq]
    exact lt_of_le_of_lt (Nat.mul_le_mul_right _ hand) h
  rw [lt_def, toNat_setWidth, toNat_shiftLeft]
  exact lt_of_le_of_lt (le_trans (Nat.mod_le _ _) (Nat.mod_le _ _)) hshift

theorem Sane.writeCSR (h : Sane c) (a : BitVec 12) (v : BitVec 64) : Sane (c.writeCSR a v).2 := by
  unfold Cpu.writeCSR
  split
  case h_1 =>
    have hf : (v &&& 0x1F#64).setWidth 32 < 256 := by simpa using field_lt_256 v (m := 0x1F) (k := 0) (by decide)
    exact Sane.markFPDirty { h with fcsr := or_lt_256 (and_lt_256 h.fcsr) hf }
  case h_2 =>
    exact Sane.markFPDirty { h with fcsr := or_lt_256 (and_lt_256 h.fcsr) (field_lt_256 v (m := 7) (by decide)) }
  case h_3 =>
    have hf : (v &&& 0xFF#64).setWidth 32 < 256 := by simpa using field_lt_256 v (m := 0xFF) (k := 0) (by decide)
    exact Sane.markFPDirty { h with fcsr := hf }
  case h_4 | h_15 => exact h.setStatus (sanitizeMstatus_ok _ _)
  case h_5 => exact { h with sie := within_and _ _ }
  case h_12 => exact { h with sip := within_and _ _ }
  case h_14 =>
    split_ifs with hs
    · have hmode : satpMode v = satpModeBare ∨ satpMode v = satpModeSv39 ∨ satpMode v = satpModeSv48 := by
        simpa [satpWriteSupported] using hs.1
      exact { h with satp := hmode }
    · exact h
  case h_16 => exact { h with medeleg := within_and _ _ }
  case h_17 => exact { h with mideleg := within_and _ _ }
  case h_18 => exact { h with mie := within_and _ _ }
  case h_27 => exact { h with mip := within_and _ _ }
  all_goals exact { h with }

theorem Sane.trapToSupervisorAt (h : Sane c) (pc cause tval : BitVec 64) :
    Sane (c.trapToSupervisorAt pc cause tval) :=
  have hs := trapToSupervisorAt_statusOk h.statusOk pc cause tval
  { h with priv := .inr (.inl rfl), mpp := hs.1, sd := hs.2 }

theorem Sane.trapToMachineAt (h : Sane c) (pc cause tval : BitVec 64) :
    Sane (c.trapToMachineAt pc cause tval).2 := by
  have hs := trapToMachineAt_statusOk h.statusOk h.priv pc cause tval
  unfold Cpu.trapToMachineAt at hs ⊢
  split_ifs at hs ⊢
  · exact h
  · exact { h with priv := .inr (.inr rfl), mpp := hs.1, sd := hs.2 }

theorem Sane.trapToPrivilegedAt (h : Sane c) (pc cause tval : BitVec 64) (len : BitVec 8) :
    Sane (c.trapToPrivilegedAt pc cause tval len).2 := by
  have hn : Sane (c.setTrap cause len) := { h with }
  unfold Cpu.trapToPrivilegedAt
  dsimp only
  split_ifs
  · exact hn.trapToSupervisorAt pc cause tval
  · exact hn.trapToMachineAt pc cause tval

theorem Sane.mret (h : Sane c) : Sane c.mret := by
  have hmode : ∀ m : BitVec 64, (if (m &&& 3).setWidth 8 = 2#8 then privUser else (m &&& 3).setWidth 8) = privUser ∨
      (if (m &&& 3).setWidth 8 = 2#8 then privUser else (m &&& 3).setWidth 8) = privSupervisor ∨
        (if (m &&& 3).setWidth 8 = 2#8 then privUser else (m &&& 3).setWidth 8) = privMachine := by
    intro m
    have hm : m &&& 3 = 0 ∨ m &&& 3 = 1 ∨ m &&& 3 = 2 ∨ m &&& 3 = 3 := by
      have hle : (m &&& 3).toNat ≤ 3 := by
        rw [toNat_and]
        exact Nat.and_le_right
      have hcases : ∀ x : BitVec 64, x.toNat ≤ 3 → x = 0 ∨ x = 1 ∨ x = 2 ∨ x = 3 := by
        intro x hx
        bv_omega
      exact hcases _ hle
    rcases hm with hm | hm | hm | hm <;> rw [hm] <;> decide
  have hs := sanitizeMstatus_ok
  exact { h with priv := hmode _, mpp := (hs _ _).1, sd := (hs _ _).2 }

theorem Sane.sret (h : Sane c) : Sane c.sret := by
  have hmode : (if c.mstatus &&& statusSPP ≠ 0 then privSupervisor else privUser) = privUser ∨
      (if c.mstatus &&& statusSPP ≠ 0 then privSupervisor else privUser) = privSupervisor ∨
        (if c.mstatus &&& statusSPP ≠ 0 then privSupervisor else privUser) = privMachine := by
    split_ifs
    · exact .inr (.inl rfl)
    · exact .inl rfl
  have hs := sanitizeMstatus_ok
  exact { h with priv := hmode, mpp := (hs _ _).1, sd := (hs _ _).2 }

theorem Sane.memBlind : MemBlind Sane := ⟨fun _ _ h => { h with }, fun _ _ h _ => { h with }⟩

theorem Sane.stepClosed : StepClosed Sane fun _ => True where
  load w _ := Sane.memBlind.load w
  store w _ := Sane.memBlind.store w
  fetch := Sane.memBlind.fetch
  reg c r v h := { h with x0 := rfl }
  freg c r v h := { h with }
  resv c a h := { h with }
  noResv c h := { h with }
  note c cause len h := { h with }
  wfi c w h := { h with }
  flags c fl h := by
    have hfl : fl.setWidth 32 < 256 := by
      rw [lt_def, toNat_setWidth]
      exact lt_of_le_of_lt (Nat.mod_le _ _) (lt_trans fl.isLt (by decide))
    exact { h with fcsr := or_lt_256 h.fcsr hfl }
  dirty c h := h.markFPDirty
  next c₀ c off _ h _ := { h with }
  jump c t h := { h with }
  flush c h _ := Sane.memBlind.flush h
  trap c cause tval len h _ := h.trapToPrivilegedAt _ cause tval len
  illegal := trivial
  fault _ := trivial
  unhandled _ _ _ _ _ := ⟨trivial, trivial⟩

variable (fp : HostFP)

theorem step_sane (h : Sane c) : Sane (step fp c).2 := by
  refine (step_obeys Sane.stepClosed fp h fun i c' hi => ?_).1
  have hc' := keeps_fetchInsn Sane.memBlind.fetch (c.setWfi false) (Sane.stepClosed.wfi c false h)
  rw [hi] at hc'
  cases i with
  | half insn => exact fun _ _ => trivial
  | word insn =>
    have hcsr := keeps_execCsr (fun _ _ _ h => { h with x0 := rfl }) (fun _ a v h _ _ => h.writeCSR a v) insn c' hc'
    exact { csr := fun _ => hcsr, mret := fun _ _ => hc'.mret, sret := fun _ _ => hc'.sret
            ebreak := fun _ _ => trivial }

theorem trapMachineError_setup (c : Cpu) (err : StepError) : (c.trapMachineError err).2.setup = c.setup := by
  cases err with
  | memFault f => exact trapToPrivilegedAt_setup _ _ _ _ _
  | illegalInstruction => exact trapToPrivilegedAt_setup _ _ _ _ _
  | ecall => rfl
  | ebreak => rfl

theorem trapMachineError_sane (h : Sane c) (err : StepError) : Sane (c.trapMachineError err).2 := by
  cases err with
  | memFault f => exact h.trapToPrivilegedAt _ _ _ _
  | illegalInstruction => exact h.trapToPrivilegedAt _ _ _ _
  | ecall => exact h
  | ebreak => exact h

theorem refreshSupervisorExternalPending_sane (h : Sane c) : Sane c.refreshSupervisorExternalPending := by
  refine { h with mip := ?_ }
  unfold Cpu.refreshSupervisorExternalPending Cpu.setExternalPending
  dsimp only
  split_ifs
  · exact h.mip.or (by decide)
  · exact h.mip.and _

theorem takePendingBiosInterrupt_sane (h : Sane c) : Sane c.takePendingBiosInterrupt.2 := by
  have htimer : Sane c.serviceBiosMachineTimer := by
    unfold Cpu.serviceBiosMachineTimer
    dsimp only
    split_ifs <;> exact refreshSupervisorExternalPending_sane { h with }
  unfold Cpu.takePendingBiosInterrupt
  dsimp only
  split
  · exact htimer.trapToMachineAt _ _ _
  · split
    · exact htimer.trapToSupervisorAt _ _ _
    · exact htimer

/-! ## `pc` -/

def EvenPc (c : Cpu) : Prop := c.pc.getLsbD 0 = false

theorem trapToMachineAt_evenPc (h : EvenPc c) (pc cause tval : BitVec 64) :
    EvenPc (c.trapToMachineAt pc cause tval).2 := by
  unfold Cpu.trapToMachineAt
  split_ifs
  · exact h
  · exact trapVectorPC_even _ _

theorem trapToPrivilegedAt_evenPc (h : EvenPc c) (pc cause tval : BitVec 64) (len : BitVec 8) :
    EvenPc (c.trapToPrivilegedAt pc cause tval len).2 := by
  unfold Cpu.trapToPrivilegedAt
  dsimp only
  split_ifs
  · exact trapVectorPC_even _ _
  · exact trapToMachineAt_evenPc (show EvenPc (c.setTrap cause len) from h) pc cause tval

theorem EvenPc.memBlind : MemBlind EvenPc := ⟨fun _ _ h => h, fun _ _ h _ => h⟩

theorem EvenPc.stepClosed : StepClosed EvenPc fun _ => True where
  load w _ := EvenPc.memBlind.load w
  store w _ := EvenPc.memBlind.store w
  fetch := EvenPc.memBlind.fetch
  reg _ _ _ h := h
  freg _ _ _ h := h
  resv _ _ h := h
  noResv _ h := h
  note _ _ _ h := h
  wfi _ _ h := h
  flags _ _ h := h
  dirty _ h := h
  next c₀ c off h _ hoff := bit0_add h hoff
  jump c t _ := by simp [EvenPc, Cpu.finish, andNot]
  flush c h _ := EvenPc.memBlind.flush h
  trap c cause tval len h _ := trapToPrivilegedAt_evenPc h _ cause tval len
  illegal := trivial
  fault _ := trivial
  unhandled _ _ _ _ _ := ⟨trivial, trivial⟩

/-- a permitted return from a trap is to an even address -/
def EvenReturn (c : Cpu) : MachineOp → Prop
  | .step => ∀ insn c', fetchInsn (c.setWfi false) = (.ok (.word insn), c') →
      (insn = 0x30200073 → ¬ (c.strictCSR ∧ c.priv ≠ privMachine) → c.csr.mepc.getLsbD 0 = false) ∧
        (insn = 0x10200073 → c.supervisorRefused statusTSR = false → c.csr.sepc.getLsbD 0 = false)
  | _ => True

theorem fetchInsn_frame {c' : Cpu} {r : Except MemFault Fetched} (h : fetchInsn c = (r, c')) :
    c'.csr = c.csr ∧ c'.priv = c.priv ∧ c'.mstatus = c.mstatus ∧ c'.strictCSR = c.strictCSR := by
  have hblind : MemBlind fun s => s.csr = c.csr ∧ s.priv = c.priv ∧ s.mstatus = c.mstatus ∧ s.strictCSR = c.strictCSR :=
    ⟨fun _ _ h => h, fun _ _ h _ => h⟩
  have hk := keeps_fetchInsn hblind.fetch c ⟨rfl, rfl, rfl, rfl⟩
  rwa [h] at hk

theorem execFetched_mret (h : ¬ (c.strictCSR ∧ c.priv ≠ privMachine)) :
    execFetched fp (.word 0x30200073) c = (.ok (), (c.setWfi false).mret) := by
  have hrun : execFetched fp (.word 0x30200073) c = execSystem 0x30200073 (c.setWfi false) := rfl
  have h' : ¬ ((c.setWfi false).strictCSR ∧ (c.setWfi false).priv ≠ privMachine) := h
  rw [hrun, execSystem, gets_bind_run]
  dsimp only [id]
  rw [if_neg (by decide), if_neg (by decide), if_pos rfl, if_neg h']
  rfl

theorem execFetched_sret (h : c.supervisorRefused statusTSR = false) :
    execFetched fp (.word 0x10200073) c = (.ok (), (c.setWfi false).sret) := by
  have hrun : execFetched fp (.word 0x10200073) c = execSystem 0x10200073 (c.setWfi false) := rfl
  have h' : ¬ (c.setWfi false).supervisorRefused statusTSR = true := by
    simpa using show (c.setWfi false).supervisorRefused statusTSR = false from h
  rw [hrun, execSystem, gets_bind_run]
  dsimp only [id]
  rw [if_neg (by decide), if_neg (by decide), if_neg (by decide), if_pos rfl, if_neg h']
  rfl

theorem step_evenPc_iff (h : EvenPc c) : EvenPc (step fp c).2 ↔ EvenReturn c .step := by
  constructor
  · intro hstep insn c' hi
    obtain ⟨hcsr, hpriv, hstatus, hstrict⟩ := fetchInsn_frame hi
    rw [step_run, bind_of_ok (lift_of_ok hi)] at hstep
    refine ⟨?_, ?_⟩
    · rintro rfl hperm
      have hperm' : ¬ (c'.strictCSR ∧ c'.priv ≠ privMachine) := by
        rw [hstrict, hpriv]
        exact hperm
      rw [execFetched_mret fp hperm'] at hstep
      have hpc : (c'.setWfi false).mret.pc = c'.csr.mepc := rfl
      rw [EvenPc, hpc, hcsr] at hstep
      exact hstep
    · rintro rfl hperm
      have hperm' : c'.supervisorRefused statusTSR = false := by
        unfold Cpu.supervisorRefused at hperm ⊢
        rw [hstrict, hpriv, hstatus]
        exact hperm
      rw [execFetched_sret fp hperm'] at hstep
      have hpc : (c'.setWfi false).sret.pc = c'.csr.sepc := rfl
      rw [EvenPc, hpc, hcsr] at hstep
      exact hstep
  · intro hret
    refine (step_obeys EvenPc.stepClosed fp h fun i c' hi => ?_).1
    obtain ⟨hcsr, hpriv, hstatus, hstrict⟩ := fetchInsn_frame hi
    cases i with
    | half insn => exact fun _ _ => trivial
    | word insn =>
      obtain ⟨hm, hs⟩ := hret insn c' hi
      have hc' := keeps_fetchInsn EvenPc.memBlind.fetch (c.setWfi false) h
      rw [hi] at hc'
      have hcsr' := keeps_execCsr (P := EvenPc) (fun _ _ _ h => h)
        (fun c a v h _ _ => by rwa [EvenPc, (writeCSR_frame c a v).2.1]) insn c' hc'
      refine { csr := fun _ => hcsr', mret := fun hinsn hperm => ?_, sret := fun hinsn hperm => ?_
               ebreak := fun _ _ => trivial }
      · rw [hstrict, hpriv] at hperm
        have hpc : c'.mret.pc = c'.csr.mepc := rfl
        rw [EvenPc, hpc, hcsr]
        exact hm hinsn hperm
      · have hperm' : c.supervisorRefused statusTSR = false := by
          unfold Cpu.supervisorRefused at hperm ⊢
          rw [hstrict, hpriv, hstatus] at hperm
          exact hperm
        have hpc : c'.sret.pc = c'.csr.sepc := rfl
        rw [EvenPc, hpc, hcsr]
        exact hs hinsn hperm'

theorem takePendingBiosInterrupt_evenPc (h : EvenPc c) : EvenPc c.takePendingBiosInterrupt.2 := by
  have htimer : EvenPc c.serviceBiosMachineTimer := by
    unfold Cpu.serviceBiosMachineTimer
    dsimp only
    split_ifs <;> exact h
  unfold Cpu.takePendingBiosInterrupt
  dsimp only
  split
  · exact trapToMachineAt_evenPc htimer _ _ _
  · split
    · exact trapVectorPC_even _ _
    · exact htimer

/-! ## Every run -/

variable (op : MachineOp)

theorem MachineOp.run_sane (h : Sane c) : Sane (op.run fp c) := by
  cases op with
  | step => exact step_sane fp h
  | trapMachineError err => exact trapMachineError_sane h err
  | takePendingBiosInterrupt => exact takePendingBiosInterrupt_sane h

theorem MachineOp.run_evenPc_iff (h : EvenPc c) :
    EvenPc (op.run fp c) ↔ EvenReturn c op := by
  cases op with
  | step => exact step_evenPc_iff fp h
  | trapMachineError err =>
    refine iff_of_true ?_ trivial
    cases err with
    | memFault f => exact trapToPrivilegedAt_evenPc h _ _ _ _
    | illegalInstruction => exact trapToPrivilegedAt_evenPc h _ _ _ _
    | ecall => exact h
    | ebreak => exact h
  | takePendingBiosInterrupt => exact iff_of_true (takePendingBiosInterrupt_evenPc h) trivial

theorem Boot.machineInv {mem : GuestMemory} (h : Boot mem c) : MachineInv c := by
  induction h with
  | new =>
    have hs := sanitizeMstatus_ok 0 statusFS
    have hzero : ∀ mask : BitVec 64, Within mask 0#64 := fun mask => zero_and
    exact { x0 := rfl, priv := .inl rfl, mpp := hs.1, sd := hs.2, satp := .inl (show satpMode 0#64 = 0 by decide)
            medeleg := hzero _, mideleg := hzero _, mie := hzero _, mip := hzero _, sie := hzero _, sip := hzero _
            fcsr := show 0#32 < 256 by decide, pc := show (0#64).getLsbD 0 = false by decide }
  | strict _ ih => exact { ih with }
  | mmu _ ih =>
    unfold Cpu.enableMMU
    split_ifs
    · exact { ih with }
    · exact ih
  | machine _ ih => exact { ih with priv := .inr (.inr rfl) }
  | start pc hpc _ ih => exact { ih with pc := hpc }

variable (ops : List MachineOp)

theorem throughout_sane (h : Sane c) : Throughout fp Sane ops c := by
  induction ops generalizing c with
  | nil => exact h
  | cons op ops ih => exact ⟨h, ih (op.run_sane fp h)⟩

theorem throughout_machineInv_iff (h : MachineInv c) :
    Throughout fp MachineInv ops c ↔ Along fp EvenReturn ops c := by
  induction ops generalizing c with
  | nil => exact iff_of_true h trivial
  | cons op ops ih =>
    have hsane := op.run_sane fp h.toSane
    by_cases hret : EvenReturn c op
    · have hpc := (op.run_evenPc_iff fp h.pc).2 hret
      have htail := ih (c := op.run fp c) { hsane with pc := hpc }
      exact ⟨fun ht => ⟨hret, htail.1 ht.2⟩, fun ha => ⟨h, htail.2 ha.2⟩⟩
    · have hodd : ¬ EvenPc (op.run fp c) := fun hpc => hret ((op.run_evenPc_iff fp h.pc).1 hpc)
      refine ⟨fun ht => ?_, fun ha => absurd ha.1 hret⟩
      cases ops with
      | nil => exact absurd ht.2.pc hodd
      | cons op' ops' => exact absurd ht.2.1.pc hodd

/-- **The machine invariant.**  Along every run of a machine that was set up from `NewCPU` the
hart stays sane, and its `pc` stays even exactly if no return from a trap is to an odd address. -/
theorem machineInv_iff {mem : GuestMemory} {c : Cpu} (hb : Boot mem c) (fp : HostFP) (ops : List MachineOp) :
    Throughout fp Sane ops c ∧ (Throughout fp MachineInv ops c ↔ Along fp EvenReturn ops c) :=
  ⟨throughout_sane fp ops hb.machineInv.toSane, throughout_machineInv_iff fp ops hb.machineInv⟩

/-- a machine-mode hart that starts at address 0 of one page of memory -/
def bootCpu (program : Bytes) : Cpu :=
  let m := GuestMemory.newGuestMemoryWithModel 12 .sandbox true
  (newCPU { m with bytes := program }).setPrivilegeMode privMachine

theorem bootCpu_boot (program : Bytes) : Boot (bootCpu program).mem (bootCpu program) := Boot.machine Boot.new

/-- a step over `addi x1, x0, 0` keeps `pc` even … -/
theorem machineInv_addi :
    Throughout default MachineInv [.step] (bootCpu (Bytes.writeLe (fun _ => 0) 0 4 0x00000093)) := by
  refine (machineInv_iff (bootCpu_boot _) default [.step]).2.2 ⟨fun insn c' hi => ?_, trivial⟩
  have hfetch : (fetchInsn ((bootCpu (Bytes.writeLe (fun _ => 0) 0 4 0x00000093)).setWfi false)).1 =
      .ok (.word 0x00000093) := by rfl
  rw [hi] at hfetch
  cases hfetch
  exact ⟨fun h => absurd h (by decide), fun h => absurd h (by decide)⟩

/-- … but `csrrwi x0, mepc, 1` followed by `mret` leads to an odd `pc` -/
theorem machineInv_mepc_odd : ¬ Throughout default MachineInv [.step, .step]
    (bootCpu (Bytes.writeLe (fun _ => 0) 0 8 0x302000733410D073)) := by
  intro h
  have hpc := h.2.2.pc
  revert hpc
  decide

end RiscvEmu
