/-
The BIOS machine keeps guest exceptions in the guest, except one.

On a strict hart every trap is taken by the guest: by the supervisor if it is delegated and the hart is below machine
mode, by machine mode otherwise (`TrapTaken`). The loop delivers memory faults and illegal instructions, `ECALL` and
the breakpoint deliver themselves; a breakpoint in user mode is returned to the host and ends the run
(`runBios_expired_iff`). An access that meets the page without rights is a fault of the host, which ends the process;
the run on the host (`runBiosOnHost`) has no result then.
-/
import RiscvEmu.Cpu.Trace
import RiscvEmu.Machine.Invariant

namespace RiscvEmu

variable {c s : Cpu}

open Exec

/-! ## What is wanted -/

/-- the guest takes the trap: in supervisor mode if it is delegated, in machine mode otherwise -/
def TrapTaken (c : Cpu) (cause tval : BitVec 64) (c' : Cpu) : Prop :=
  if c.shouldDelegateException cause then
    c'.priv = privSupervisor ∧ c'.csr.sepc = c.pc ∧ c'.csr.scause = cause ∧ c'.csr.stval = tval ∧
      c'.pc = trapVectorPC c.csr.stvec cause
  else
    c'.priv = privMachine ∧ c'.csr.mepc = c.pc ∧ c'.csr.mcause = cause ∧ c'.csr.mtval = tval ∧
      c'.pc = trapVectorPC c.csr.mtvec cause

/-- a BIOS machine as `prepareBiosGuest` sets it up -/
structure BiosHart (c : Cpu) : Prop where
  strict : c.strictCSR = true
  mmu : c.mmu ≠ none
  watch : c.watchAddr = 0

/-- the instruction at `pc` is a breakpoint that is executed in user mode -/
def UserBreak (c : Cpu) : Prop :=
  c.priv = privUser ∧ ∃ i c', fetchInsn (c.setWfi false) = (.ok i, c') ∧ (i = .word 0x00100073 ∨ i = .half 0x9002)

section Turns

variable (fp : HostFP) (host : HostSleep)

/-- a turn that takes no interrupt executes a breakpoint in user mode -/
def BreakTurn (c : Cpu) : Prop := c.takePendingBiosInterrupt.1 = false ∧ UserBreak c.takePendingBiosInterrupt.2

/-- `ECALL` and breakpoints trap inside the step, and every error of the step is delivered after it -/
def TurnDelivers (c : Cpu) : Prop :=
  c.takePendingBiosInterrupt.1 = false →
    (∀ i s, fetchInsn (c.takePendingBiosInterrupt.2.setWfi false) = (.ok i, s) →
      (i = .word 0x00000073 → TrapTaken s s.ecallCause 0 (step fp c.takePendingBiosInterrupt.2).2) ∧
        (i = .word 0x00100073 ∨ i = .half 0x9002 →
          TrapTaken s causeBreakpoint 0 (step fp c.takePendingBiosInterrupt.2).2)) ∧
      ∀ e s, step fp c.takePendingBiosInterrupt.2 = (.error e, s) →
        (e = .illegalInstruction ∧ TrapTaken s causeIllegalInsn 0 (machineTurn fp host [] true c).2) ∨
          ∃ f, e = .memFault f ∧ TrapTaken s (faultCauseAndText f).1 f.addr (machineTurn fp host [] true c).2

/-- the host does not survive the event: the page without rights is touched, or a device touches it when it answers -/
def MemEvent.strikes (dma : GuestMemory → MmioAccess → Bool) (m : GuestMemory) : MemEvent → Bool
  | .touch off n => m.touchesGuard off n
  | .board m a => dma m a
  | .refused _ => false

/-- a turn that takes no interrupt makes an access that the host does not survive -/
def strikeTurn (dma : GuestMemory → MmioAccess → Bool) (c : Cpu) : Bool :=
  !c.takePendingBiosInterrupt.1 && (stepEvents (c.takePendingBiosInterrupt.2.setWfi false)).any fun a =>
    a.2.any (MemEvent.strikes dma c.mem)

/-- the host survives the turns that are made, at most `n` -/
def survives (dma : GuestMemory → MmioAccess → Bool) : Nat → Cpu → Bool
  | 0, _ => true
  | n + 1, c => !strikeTurn dma c &&
    match machineTurn fp host [] true c with
    | (none, c') => survives dma n c'
    | (some _, _) => true

/-- `RunBiosMachineBudget` with an empty note chain; `none` if the process ends in it -/
def runBiosOnHost (dma : GuestMemory → MmioAccess → Bool) (budget : BitVec 64) (c : Cpu) :
    Option ((RunBudgetResult × Option RunError) × Cpu) :=
  if survives fp host dma budget.toNat c then some (runBiosMachineBudget fp host [] budget c) else none

/-- `P` holds at the start of each of the next `n` turns -/
def EveryTurn (P : Cpu → Prop) : Nat → Cpu → Prop
  | 0, _ => True
  | n + 1, c => P c ∧ EveryTurn P n (machineTurn fp host [] true c).2

end Turns

/-! ## Traps on a strict hart -/

theorem trapToPrivilegedAt_taken (hs : c.strictCSR = true) (cause tval : BitVec 64) (len : BitVec 8) :
    (c.trapToPrivilegedAt c.pc cause tval len).1 = true ∧
      TrapTaken c cause tval (c.trapToPrivilegedAt c.pc cause tval len).2 := by
  have hd : (c.setTrap cause len).shouldDelegateException cause = c.shouldDelegateException cause := rfl
  unfold Cpu.trapToPrivilegedAt TrapTaken
  dsimp only
  rw [hd]
  split_ifs
  · exact ⟨rfl, rfl, rfl, rfl, rfl, rfl⟩
  · have hstrict : ¬ ((c.setTrap cause len).csr.mtvec = 0 ∧ (!(c.setTrap cause len).strictCSR) = true) := by
      rintro ⟨-, h⟩
      have : (c.setTrap cause len).strictCSR = true := hs
      simp [this] at h
    rw [Cpu.trapToMachineAt, if_neg hstrict]
    exact ⟨rfl, rfl, rfl, rfl, rfl, rfl⟩

theorem BiosHart.setupOnly : SetupOnly BiosHart where
  mem _ _ h _ := { h with }
  tlb _ mm h _ := { h with mmu := Option.some_ne_none mm }
  congr hs h := ⟨(congrArg (·.2.2.2.1) hs).trans h.strict, fun hc => h.mmu ((congrArg (·.2.1) hs).symm.trans hc),
    (congrArg (·.2.2.2.2.1) hs).trans h.watch⟩

theorem writeCSR_biosHart (h : BiosHart c) (a : BitVec 12) (v : BitVec 64) : BiosHart (c.writeCSR a v).2 :=
  BiosHart.setupOnly.writeCSR (fun _ _ h => { h with }) c a v h

/-- an error that the loop delivers to the guest -/
def Deliverable (e : StepError) : Prop := e = .illegalInstruction ∨ ∃ f, e = .memFault f

theorem BiosHart.stepClosed : StepClosed BiosHart Deliverable :=
  setupOnly.stepClosed (.inl rfl) (fun f => .inr ⟨f, rfl⟩) fun c cause len h hf => by
    rw [(trapToPrivilegedAt_taken h.strict cause 0 len).1] at hf
    cases hf

/-! ## One turn -/

theorem fetchInsn_priv {c' : Cpu} {r : Except MemFault Fetched} (h : fetchInsn c = (r, c')) : c'.priv = c.priv := by
  have hblind : MemBlind fun s => s.priv = c.priv := ⟨fun _ _ h => h, fun _ _ h _ => h⟩
  have hk := keeps_fetchInsn hblind.fetch c rfl
  rwa [h] at hk

variable (fp : HostFP)

theorem step_biosHart (h : BiosHart c) (hb : ¬ UserBreak c) :
    ObeysAt BiosHart Deliverable (step fp) c := by
  refine step_obeys BiosHart.stepClosed fp h fun i c' hi => ?_
  have hc' := keeps_fetchInsn BiosHart.setupOnly.fetch (c.setWfi false) { h with }
  have hpriv := fetchInsn_priv hi
  rw [hi] at hc'
  cases i with
  | half insn =>
    rintro rfl hu
    exact absurd ⟨hpriv.symm.trans hu, _, c', hi, .inr rfl⟩ hb
  | word insn =>
    have hcsr := keeps_execCsr (P := BiosHart) (fun _ _ _ h => { h with })
        (fun _ a v h _ _ => writeCSR_biosHart h a v) insn c' hc'
    refine { csr := fun _ => hcsr, mret := fun _ _ => { hc' with }, sret := fun _ _ => { hc' with }, ebreak := ?_ }
    rintro rfl hu
    exact absurd ⟨hpriv.symm.trans hu, _, c', hi, .inl rfl⟩ hb

theorem execEcall_taken (hs : c.strictCSR = true) : TrapTaken c c.ecallCause 0 (execEcall c).2 := by
  obtain ⟨h1, ht⟩ := trapToPrivilegedAt_taken hs c.ecallCause 0 4
  unfold execEcall
  dsimp only
  rw [if_pos h1]
  exact ht

theorem execEbreak_taken (hs : c.strictCSR = true) (hp : c.priv ≠ privUser) (len : BitVec 8) :
    TrapTaken c causeBreakpoint 0 (execEbreak len c).2 := by
  obtain ⟨h1, ht⟩ := trapToPrivilegedAt_taken hs causeBreakpoint 0 len
  unfold execEbreak
  dsimp only
  rw [if_pos ⟨hp, h1⟩]
  exact ht

theorem execEbreak_user (hp : c.priv = privUser) (len : BitVec 8) :
    execEbreak len c = (.error .ebreak, c.setTrap causeBreakpoint len) := by
  unfold execEbreak
  dsimp only
  rw [if_neg (fun h => h.1 hp), if_neg (not_not.2 hp)]

theorem execFetched_ebreak (c : Cpu) : execFetched fp (.word 0x00100073) c = execEbreak 4 (c.setWfi false) := rfl
theorem execFetched_cebreak (c : Cpu) : execFetched fp (.half 0x9002) c = execEbreak 2 c := rfl

theorem step_userBreak (h : BiosHart c) (hb : UserBreak c) :
    ∃ s, step fp c = (.error .ebreak, s) ∧ BiosHart s := by
  obtain ⟨hpriv, i, c', hi, hinsn⟩ := hb
  have hp : c'.priv = privUser := (fetchInsn_priv hi).trans hpriv
  have hc' := keeps_fetchInsn BiosHart.setupOnly.fetch (c.setWfi false) { h with }
  rw [hi] at hc'
  rw [step_run, bind_of_ok (lift_of_ok hi)]
  rcases hinsn with rfl | rfl
  · rw [execFetched_ebreak, execEbreak_user (show (c'.setWfi false).priv = privUser from hp)]
    exact ⟨_, rfl, { hc' with }⟩
  · rw [execFetched_cebreak, execEbreak_user hp]
    exact ⟨_, rfl, { hc' with }⟩

theorem step_traps (h : BiosHart c) (hb : ¬ UserBreak c) {i : Fetched}
    (hi : fetchInsn (c.setWfi false) = (.ok i, s)) :
    (i = .word 0x00000073 → TrapTaken s s.ecallCause 0 (step fp c).2) ∧
      (i = .word 0x00100073 ∨ i = .half 0x9002 → TrapTaken s causeBreakpoint 0 (step fp c).2) := by
  have hs := keeps_fetchInsn BiosHart.setupOnly.fetch (c.setWfi false) { h with }
  rw [hi] at hs
  have hpriv : (i = .word 0x00100073 ∨ i = .half 0x9002) → s.priv ≠ privUser := fun hinsn hu =>
    hb ⟨(fetchInsn_priv hi).symm.trans hu, i, s, hi, hinsn⟩
  rw [step_run, bind_of_ok (lift_of_ok hi)]
  refine ⟨?_, ?_⟩
  · rintro rfl
    exact execEcall_taken (c := s.setWfi false) hs.strict
  · rintro hinsn
    have hp := hpriv hinsn
    rcases hinsn with rfl | rfl
    · exact execEbreak_taken (c := s.setWfi false) hs.strict hp 4
    · exact execEbreak_taken hs.strict hp 2

theorem takePendingBiosInterrupt_biosHart (h : BiosHart c) : BiosHart c.takePendingBiosInterrupt.2 := by
  have htimer : BiosHart c.serviceBiosMachineTimer := by
    unfold Cpu.serviceBiosMachineTimer
    dsimp only
    split_ifs <;> exact { h with }
  unfold Cpu.takePendingBiosInterrupt
  dsimp only
  split
  · unfold Cpu.trapToMachineInterruptAt Cpu.trapToMachineAt
    split_ifs <;> exact { htimer with }
  · split <;> exact { htimer with }

theorem serviceBiosWFI_biosHart (h : BiosHart c) (host : HostSleep) : BiosHart (c.serviceBiosWFI host) := by
  unfold Cpu.serviceBiosWFI Cpu.biosWFISleep
  dsimp only
  split_ifs
  · exact h
  · exact { h with }
  · split
    · exact { h with }
    · split_ifs <;> exact { h with }

theorem pollTohost_unwatched (h : c.watchAddr = 0) : c.pollTohost = (none, c) := by
  rw [Cpu.pollTohost, if_pos h]

section

variable (fp : HostFP) (host : HostSleep)

theorem machineTurn_interrupt (hint : c.takePendingBiosInterrupt = (true, s)) :
    machineTurn fp host [] true c = (none, s) := by
  simp only [machineTurn, if_true, hint]

theorem machineTurn_ok {s' : Cpu} (hint : c.takePendingBiosInterrupt = (false, s)) {u : Unit}
    (hstep : step fp s = (.ok u, s')) (hw : s'.watchAddr = 0) :
    machineTurn fp host [] true c = (none, s'.countBegun.serviceBiosWFI host) := by
  have hpoll := pollTohost_unwatched (c := s'.countBegun) hw
  simp only [machineTurn, if_true, hint, Bool.false_eq_true, if_false, hstep, hpoll]

theorem machineTurn_error {s' : Cpu} (hint : c.takePendingBiosInterrupt = (false, s)) {e : StepError}
    (hstep : step fp s = (.error e, s')) (hw : s'.watchAddr = 0) :
    machineTurn fp host
      [] true c = if (s'.countBegun.trapMachineError e).1 then (none, (s'.countBegun.trapMachineError e).2)
      else deliverNote [] (s'.countBegun.trapMachineError e).2 e := by
  have hpoll := pollTohost_unwatched (c := s'.countBegun) hw
  simp only [machineTurn, if_true, hint, Bool.false_eq_true, if_false, hstep, hpoll]

/-- a turn without a breakpoint in user mode goes on, and keeps its exceptions in the guest -/
theorem machineTurn_delivers (h : BiosHart c) (hb : ¬ BreakTurn c) :
    (machineTurn fp host [] true c).1 = none ∧ TurnDelivers fp host c ∧ BiosHart (machineTurn fp host [] true c).2 := by
  have hirq := takePendingBiosInterrupt_biosHart h
  unfold TurnDelivers
  unfold BreakTurn at hb
  rcases hint : c.takePendingBiosInterrupt with ⟨b, s⟩
  rw [hint] at hirq hb
  cases b with
  | true =>
    rw [machineTurn_interrupt fp host hint]
    exact ⟨rfl, (fun hf => nomatch hf), hirq⟩
  | false =>
    have hu : ¬ UserBreak s := fun hu => hb ⟨rfl, hu⟩
    obtain ⟨hkept, herr⟩ := step_biosHart fp hirq hu
    have htraps : ∀ i t, fetchInsn (s.setWfi false) = (.ok i, t) → _ := fun i t hi => step_traps fp hirq hu hi
    rcases hstep : step fp s with ⟨e | u, s'⟩
    · rw [hstep] at hkept herr htraps
      have hc : BiosHart s'.countBegun := { hkept with }
      -- the error is one of the two that are delivered
      have htaken : ∃ cause tval, ((e = .illegalInstruction ∧ cause = causeIllegalInsn ∧ tval = 0) ∨
          ∃ f, e = .memFault f ∧ cause = (faultCauseAndText f).1 ∧ tval = f.addr) ∧
          s'.countBegun.trapMachineError e = s'.countBegun.trapToPrivilegedAt s'.countBegun.pc cause tval 0 := by
        rcases herr e rfl with rfl | ⟨f, rfl⟩
        · exact ⟨_, _, .inl ⟨rfl, rfl, rfl⟩, rfl⟩
        · exact ⟨_, _, .inr ⟨f, rfl, rfl, rfl⟩, rfl⟩
      obtain ⟨cause, tval, hcause, htrap⟩ := htaken
      obtain ⟨h1, ht⟩ := trapToPrivilegedAt_taken hc.strict cause tval 0
      rw [machineTurn_error fp host hint hstep hkept.watch, htrap, if_pos h1]
      refine ⟨rfl, fun _ => ⟨fun i t hi => htraps i t hi, fun e' t het => ?_⟩,
        BiosHart.setupOnly.congr (trapToPrivilegedAt_setup _ _ _ _ _) hc⟩
      cases het
      rcases hcause with ⟨rfl, rfl, rfl⟩ | ⟨f, rfl, rfl, rfl⟩
      · exact .inl ⟨rfl, ht⟩
      · exact .inr ⟨f, rfl, ht⟩
    · rw [hstep] at hkept htraps
      rw [machineTurn_ok fp host hint hstep hkept.watch]
      refine ⟨rfl, fun _ => ⟨fun i t hi => htraps i t hi, fun e t het => nomatch het⟩, ?_⟩
      exact serviceBiosWFI_biosHart (show BiosHart s'.countBegun from { hkept with }) host

theorem machineTurn_break (h : BiosHart c) (hb : BreakTurn c) :
    ∃ s, machineTurn fp host [] true c = (some (.continue_, .step .ebreak), s) := by
  obtain ⟨hno, hu⟩ := hb
  have hirq := takePendingBiosInterrupt_biosHart h
  rcases hint : c.takePendingBiosInterrupt with ⟨b, s⟩
  rw [hint] at hno hu hirq
  obtain rfl : b = false := hno
  obtain ⟨s', hstep, hs'⟩ := step_userBreak fp hirq hu
  rw [machineTurn_error fp host hint hstep hs'.watch]
  exact ⟨_, rfl⟩

/-- the turns of a run, one after the other -/
theorem turns_expired_iff (dma : GuestMemory → MmioAccess → Bool) {c : Cpu} (h : BiosHart c) (n : Nat) :
    (survives fp host dma n c = true ∧ (machineTurns fp host [] true n c).1 = (.expired, none) ∧
        EveryTurn fp host (TurnDelivers fp host) n c) ↔
      EveryTurn fp host (fun c => ¬ BreakTurn c ∧ strikeTurn dma c = false) n c := by
  induction n generalizing c with
  | zero => exact iff_of_true ⟨rfl, rfl, trivial⟩ trivial
  | succ n ih =>
    unfold survives machineTurns EveryTurn
    cases hstrike : strikeTurn dma c with
    | true => exact iff_of_false (fun hr => nomatch hr.1) fun hr => nomatch hr.1.2
    | false =>
      by_cases hb : BreakTurn c
      · obtain ⟨s, hs⟩ := machineTurn_break fp host h hb
        rw [hs]
        exact iff_of_false (fun hr => nomatch hr.2.1) fun hr => hr.1.1 hb
      · obtain ⟨hgo, hdel, hnext⟩ := machineTurn_delivers fp host h hb
        rcases ht : machineTurn fp host [] true c with ⟨r, s⟩
        rw [ht] at hgo hnext
        obtain rfl : r = none := hgo
        have hrest := ih hnext
        constructor
        · rintro ⟨hlives, hexpired, -, hlater⟩
          exact ⟨⟨hb, rfl⟩, hrest.1 ⟨hlives, hexpired, hlater⟩⟩
        · rintro ⟨-, hlater⟩
          obtain ⟨hlives, hexpired, hdelivers⟩ := hrest.2 hlater
          exact ⟨hlives, hexpired, hdel, hdelivers⟩

/-- **Exceptions stay in the guest.**  With an empty note chain a BIOS machine uses up its budget
and delivers every exception exactly if no turn executes a breakpoint in user mode or makes an access that the host does
not survive. -/
theorem runBios_expired_iff (dma : GuestMemory → MmioAccess → Bool) {c : Cpu} (h : BiosHart c) (budget : BitVec 64) :
    ((runBiosOnHost fp host dma budget c).map Prod.fst = some (.expired, none) ∧
        EveryTurn fp host (TurnDelivers fp host) budget.toNat c) ↔
      EveryTurn fp host (fun c => ¬ BreakTurn c ∧ strikeTurn dma c = false) budget.toNat c := by
  rw [← turns_expired_iff fp host dma h, ← and_assoc]
  refine and_congr ?_ Iff.rfl
  unfold runBiosOnHost
  cases survives fp host dma budget.toNat c with
  | true => exact ⟨fun hr => ⟨rfl, Option.some.inj hr⟩, fun hr => congrArg some hr.2⟩
  | false => exact iff_of_false (fun hr => nomatch hr) fun hr => nomatch hr.1

end

/-- a BIOS hart with 64 KiB of memory that holds `insn` at address 0 -/
def biosCpu (insn : BitVec 32) (mode : PrivilegeMode) : Cpu :=
  let m := GuestMemory.newGuestMemoryWithModel 16 .sandbox true
  { newCPU { m with bytes := Bytes.writeLe (fun _ => 0) 0 4 (insn.setWidth 64) } with
    strictCSR := true, mmu := some Cpu.emptyMmu, priv := mode }

theorem biosCpu_hart (insn : BitVec 32) (mode : PrivilegeMode) : BiosHart (biosCpu insn mode) :=
  ⟨rfl, Option.some_ne_none _, rfl⟩

/-- `ecall` in user mode is delivered … -/
theorem runBios_expired_ecall :
    (runBiosOnHost default default (fun _ _ => false) 1 (biosCpu 0x00000073 privUser)).map Prod.fst =
      some (.expired, none) := by
  refine ((runBios_expired_iff default default (fun _ _ => false) (biosCpu_hart _ _) 1).2 ⟨⟨?_, rfl⟩, trivial⟩).1
  rintro ⟨-, -, i, c', hi, hinsn⟩
  have hfetch : (fetchInsn ((biosCpu 0x00000073 privUser).takePendingBiosInterrupt.2.setWfi false)).1 =
      .ok (.word 0x00000073) := by rfl
  rw [hi] at hfetch
  cases hfetch
  rcases hinsn with h | h
  · exact absurd (Fetched.word.inj h) (by decide)
  · cases h

/-- … and `ebreak` in user mode is not -/
theorem runBios_ebreak_stops : BiosHart (biosCpu 0x00100073 privUser) ∧
    (runBiosOnHost default default (fun _ _ => false) 1 (biosCpu 0x00100073 privUser)).map Prod.fst =
      some (.continue_, some (.step .ebreak)) :=
  ⟨biosCpu_hart _ _, by rfl⟩

/-- `lb x5, 0(x6)` from the page without rights, in machine mode -/
example : runBiosOnHost default default (fun _ _ => false) 1
    { biosCpu 0x00030283 privMachine with x := fun r => if r = 0 then 0 else 0xe000 } = none := rfl

end RiscvEmu
