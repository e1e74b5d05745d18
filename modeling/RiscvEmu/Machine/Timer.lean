/-
The supervisor's timer interrupt (`serviceBiosMachineTimer`, `refreshSupervisorTimerPendingAt` in
`machine_interrupt.go`).

`stip` says whether `mtime` has reached `stimecmp`. A turn of the machine, which begins with a tick of the timer,
computes it again only while it is clear. So the bit follows the timer up, and stays set when `mtime` goes back below
`stimecmp`, after a store to the CLINT or when it wraps.

`stip_level_iff`: the bit is what the timer says, wherever it matters, iff no turn begins with the bit set and its
tick leaves the timer short of `stimecmp`, the fetch of no read of `sip` or `mip` moves the timer across `stimecmp`,
and `sip` is not read while the timer is due and its interrupt not delegated.
-/
import RiscvEmu.Board.Claim
import RiscvEmu.Machine.Views

namespace RiscvEmu

open BitVec Exec

variable {c : Cpu}

/-- `mtime` has reached `stimecmp` at the time `now` -/
def Cpu.dueAt (c : Cpu) (now : BitVec 64) : Bool := c.csr.stimecmp ≠ allOnes 64 ∧ now ≥ c.csr.stimecmp

def Cpu.due (c : Cpu) : Bool := c.dueAt c.timerValue

/-- the timer of a board counts the ticks it is given, and a look at the line takes no time -/
structure BiosMmio.KeepsTime (d : BiosMmio) : Prop where
  advance : ∀ log ticks, d.machineTimerValue (log ++ [.advance ticks]) = d.machineTimerValue log + ticks
  poll : ∀ log, d.machineTimerValue (log ++ [.poll]) = d.machineTimerValue log

def GuestMemory.Timed (m : GuestMemory) : Prop := ∃ d, m.mmio = some d ∧ d.KeepsTime

/-! ## The runs -/

/-- the machine takes an interrupt or else executes an instruction, delivers the error of one, waits for an interrupt,
or time passes -/
inductive TimerEvent
  | turn
  | trapMachineError (err : StepError)
  | serviceBiosWFI (host : HostSleep)
  | advance (ticks : BitVec 64)

def TimerEvent.run (fp : HostFP) : TimerEvent → Cpu → Cpu
  | turn, c => if c.takePendingBiosInterrupt.1 then c.takePendingBiosInterrupt.2 else (step fp
    c.takePendingBiosInterrupt.2).2
  | trapMachineError err, c => (c.trapMachineError err).2
  | serviceBiosWFI host, c => c.serviceBiosWFI host
  | advance ticks, c => c.setMem (c.mem.advanceMachineTimer ticks)

/-- a turn from `c` executes the CSR instruction `insn`, which reads its register, in the state `c'` -/
structure Reads (c : Cpu) (insn : BitVec 32) (c' : Cpu) : Prop where
  idle : c.takePendingBiosInterrupt.1 = false
  fetched : fetchInsn (c.takePendingBiosInterrupt.2.setWfi false) = (.ok (.word insn), c')
  csr : IsCsr insn
  allowed : c'.checkCSRAccess (imm12Of insn) (csrWrites insn) = true
  needOld : rdOf insn ≠ 0 ∨ (funct3Of insn ≠ 1 ∧ funct3Of insn ≠ 5)

namespace TimerEvent

/-- where a turn selects an interrupt, and where it reads `sip` or `mip`, STIP is what the timer says -/
def Level (c : Cpu) : TimerEvent → Prop
  | turn => c.serviceBiosMachineTimer.mipValue.getLsbD 5 = c.serviceBiosMachineTimer.due ∧
      ∀ insn c', Reads c insn c' → imm12Of insn = 0x144 ∨ imm12Of insn = 0x344 →
        (c'.readCSR (imm12Of insn)).map (·.getLsbD 5) = some c'.due
  | _ => True

/-- if the bit is set the timer is due after the tick of the turn, the fetch of a read does not change whether it is,
and it is not if `sip` is read and the interrupt not delegated -/
def Fresh (c : Cpu) : TimerEvent → Prop
  | turn => (c.csr.stip = true → c.dueAt (c.timerValue + 1) = true) ∧
      ∀ insn c', Reads c insn c' →
        (imm12Of insn = 0x144 → c'.due = (c.dueAt (c.timerValue + 1) && c.csr.mideleg.getLsbD 5)) ∧
        (imm12Of insn = 0x344 → c'.due = c.dueAt (c.timerValue + 1))
  | _ => True

/-- every event of a run has the property in the state before it -/
def Along (fp : HostFP) (p : Cpu → TimerEvent → Prop) : Cpu → List TimerEvent → Prop
  | _, [] => True
  | c, e :: events => p c e ∧ Along fp p (e.run fp c) events

end TimerEvent

/-! ## The board stays -/

theorem GuestMemory.Timed.of_shape {m m' : GuestMemory} (h : m.Timed) (hs : m'.shape = m.shape) : m'.Timed := by
  obtain ⟨d, hd, ht⟩ := h
  have hmmio := congrArg mmio hs
  simp only [shape, hd, Option.map_some] at hmmio
  obtain ⟨d', hd', heq⟩ := Option.map_eq_some_iff.1 hmmio
  have htime : d'.machineTimerValue = d.machineTimerValue := (BiosMmio.mk.injEq ..).mp heq |>.2.2.2
  exact ⟨d', hd', by rw [htime]; exact ht.advance, by rw [htime]; exact ht.poll⟩

theorem timed_setupOnly : SetupOnly fun c => c.mem.Timed where
  mem _ _ h hm := h.of_shape hm
  tlb _ _ h _ := h
  congr hs h := h.of_shape (congrArg (GuestMemory.shape ∘ Prod.fst) hs)

/-! ## One tick -/

theorem timerValue_advance (h : c.mem.Timed) (ticks : BitVec 64) :
    (c.setMem (c.mem.advanceMachineTimer ticks)).timerValue = c.timerValue + ticks := by
  obtain ⟨d, hd, ht⟩ := h
  simp only [Cpu.timerValue, Cpu.setMem, GuestMemory.advanceMachineTimer, hd, Option.map_some]
  exact ht.advance d.log ticks

theorem advance_shape (m : GuestMemory) (ticks : BitVec 64) : (m.advanceMachineTimer ticks).shape = m.shape := by
  cases h : m.mmio <;> simp [GuestMemory.advanceMachineTimer, GuestMemory.shape, h]

/-- a look at the line leaves the timer alone -/
theorem poll_timer (h : c.mem.Timed) :
    c.refreshSupervisorExternalPending.timerValue = c.timerValue ∧ c.refreshSupervisorExternalPending.mem.Timed := by
  obtain ⟨d, hd, ht⟩ := h
  simp only [Cpu.refreshSupervisorExternalPending, GuestMemory.supervisorExternalInterruptPending,
    GuestMemory.mmioAccess, hd]
  rcases d.reply d.log c.mem.bytes .poll with _ | ⟨v, b⟩ | ⟨f, b⟩
  · exact ⟨rfl, d, hd, ht⟩
  all_goals
    simp only [Cpu.timerValue, Cpu.setExternalPending, Cpu.setMem, hd]
    exact ⟨ht.poll d.log, _, rfl, ht.advance, ht.poll⟩

theorem service_timer (h : c.mem.Timed) :
    c.serviceBiosMachineTimer.csr.stip = (c.csr.stip || c.dueAt (c.timerValue + 1)) ∧
      c.serviceBiosMachineTimer.timerValue = c.timerValue + 1 ∧ c.serviceBiosMachineTimer.mem.Timed ∧
      c.serviceBiosMachineTimer.csr.stimecmp = c.csr.stimecmp ∧
        c.serviceBiosMachineTimer.csr.mideleg = c.csr.mideleg := by
  have hsome : c.mem.mmio.isSome = true := by obtain ⟨d, hd, -⟩ := h; rw [hd]; rfl
  have htick := timerValue_advance h biosTimerTicksPerInstruction
  have hT : (c.setMem (c.mem.advanceMachineTimer biosTimerTicksPerInstruction)).mem.Timed :=
      h.of_shape (advance_shape _ _)
  unfold Cpu.serviceBiosMachineTimer
  simp only [hsome, if_true]
  split_ifs with hs
  · obtain ⟨ht, hm⟩ := poll_timer
        (c := (c.setMem (c.mem.advanceMachineTimer biosTimerTicksPerInstruction)).refreshSupervisorTimerPending) hT
    refine ⟨?_, ht.trans htick, hm, rfl, rfl⟩
    have hclear : c.csr.stip = false := by simpa [Cpu.setMem] using hs.1
    rw [hclear, Bool.false_or, ← show biosTimerTicksPerInstruction = 1 from rfl, ← htick]
    rfl
  · obtain ⟨ht, hm⟩ := poll_timer hT
    refine ⟨?_, ht.trans htick, hm, rfl, rfl⟩
    show c.csr.stip = _
    by_cases hstip : c.csr.stip = true
    · rw [hstip, Bool.true_or]
    · have hmax : c.csr.stimecmp = allOnes 64 := by
        by_contra hne
        exact hs ⟨by simpa [Cpu.setMem] using hstip, hne⟩
      simp [Cpu.dueAt, hmax]

theorem takePending_setup (c : Cpu) : c.takePendingBiosInterrupt.2.setup = c.serviceBiosMachineTimer.setup := by
  unfold Cpu.takePendingBiosInterrupt
  dsimp only
  split
  · exact trapToMachineAt_setup _ _ _ _
  · split <;> rfl

theorem takePending_idle (h : c.takePendingBiosInterrupt.1 = false) :
    c.takePendingBiosInterrupt.2 = c.serviceBiosMachineTimer := by
  unfold Cpu.takePendingBiosInterrupt at *
  dsimp only at *
  split at h
  · unfold Cpu.trapToMachineInterruptAt Cpu.trapToMachineAt at *
    split_ifs at h ⊢
    rfl
  · split at h
    · cases h
    · rfl

/-! ## Every run -/

namespace TimerEvent

theorem level_iff (hc : Sane c) (h : c.mem.Timed) (e : TimerEvent) : Level c e ↔ Fresh c e := by
  cases e with
  | turn =>
    obtain ⟨hstip, htime, -, hcmp, hdeleg⟩ := service_timer h
    have hdue : c.serviceBiosMachineTimer.due = c.dueAt (c.timerValue + 1) := by
      unfold Cpu.due Cpu.dueAt
      rw [htime, hcmp]
    have hselect : c.serviceBiosMachineTimer.mipValue.getLsbD 5 = c.serviceBiosMachineTimer.due ↔
        (c.csr.stip = true → c.dueAt (c.timerValue + 1) = true) := by
      rw [mipValue_getLsbD _ (by decide), if_pos rfl, hstip, hdue]
      cases c.csr.stip <;> simp
    refine (and_congr_left fun _ => hselect).trans
      (and_congr_right fun hfresh => forall₂_congr fun insn c' => forall_congr' fun hr => ?_)
    have hbit : c.serviceBiosMachineTimer.csr.stip = c.dueAt (c.timerValue + 1) := by
      rw [hstip]
      cases hs : c.csr.stip with
      | true => rw [hfresh hs, Bool.true_or]
      | false => rw [Bool.false_or]
    -- the read sees the registers as the tick has left them
    have hcsr : c'.csr = c.serviceBiosMachineTimer.csr := by
      have := (fetchInsn_frame hr.fetched).1
      rwa [takePending_idle hr.idle] at this
    have hsip : c.serviceBiosMachineTimer.csr.sip.getLsbD 5 = false := by
      have := (takePendingBiosInterrupt_sane hc).sip
      rw [takePending_idle hr.idle] at this
      exact this.getLsbD (by decide)
    rw [or_imp]
    refine and_congr (forall_congr' fun ha => ?_) (forall_congr' fun ha => ?_)
    · rw [ha]
      show some ((c'.csr.sip ||| (c'.mipValue &&& c'.csr.mideleg)).getLsbD 5) = _ ↔ _
      rw [getLsbD_or, getLsbD_and, mipValue_getLsbD _ (by decide), if_pos rfl, hcsr, hsip, hbit, hdeleg, Bool.false_or,
        Option.some_inj, eq_comm]
    · rw [ha]
      show some (c'.mipValue.getLsbD 5) = _ ↔ _
      rw [mipValue_getLsbD _ (by decide), if_pos rfl, hcsr, hbit, Option.some_inj, eq_comm]
  | _ => exact Iff.rfl

/-- the look at the line at the end of a service -/
theorem refresh_onBoard (hc : Sane c) (h : c.mem.Timed) :
    Sane c.refreshSupervisorExternalPending ∧ c.refreshSupervisorExternalPending.mem.Timed :=
  ⟨refreshSupervisorExternalPending_sane hc, (poll_timer h).2⟩

theorem serviceBiosWFI_onBoard (host : HostSleep) (hc : Sane c) (h : c.mem.Timed) :
    Sane (c.serviceBiosWFI host) ∧ (c.serviceBiosWFI host).mem.Timed := by
  have hfirst := refresh_onBoard (c := (c.setWfi false).refreshSupervisorTimerPending) { hc with } h
  unfold Cpu.serviceBiosWFI
  dsimp only
  split_ifs
  · exact ⟨hc, h⟩
  · exact hfirst
  · unfold Cpu.biosWFISleep
    dsimp only
    split
    · exact hfirst
    · split_ifs
      · exact hfirst
      · exact refresh_onBoard { hfirst.1 with } (hfirst.2.of_shape (advance_shape _ _))

theorem run_onBoard (fp : HostFP) (hc : Sane c) (h : c.mem.Timed) (e : TimerEvent) :
    Sane (e.run fp c) ∧ (e.run fp c).mem.Timed := by
  cases e with
  | turn =>
    have hsane := takePendingBiosInterrupt_sane hc
    have htimed :
        c.takePendingBiosInterrupt.2.mem.Timed := timed_setupOnly.congr (takePending_setup c) (service_timer h).2.2.1
    simp only [run]
    split_ifs
    · exact ⟨hsane, htimed⟩
    · exact ⟨step_sane fp hsane, timed_setupOnly.step (timed_setupOnly.writeCSR fun _ _ h => h) fp htimed⟩
  | trapMachineError err => exact ⟨trapMachineError_sane hc err, timed_setupOnly.congr (trapMachineError_setup c err) h⟩
  | serviceBiosWFI host => exact serviceBiosWFI_onBoard host hc h
  | advance ticks => exact ⟨{ hc with }, h.of_shape (advance_shape _ _)⟩

/-- **The timer interrupt.** Throughout a run STIP is what the timer says, at every selection of an interrupt and every
read of `sip` and `mip`, iff each turn finds the bit, and each read the timer, as the tick leaves it. -/
theorem stip_level_iff (fp : HostFP) (hc : Sane c) (h : c.mem.Timed) (events : List TimerEvent) :
    Along fp Level c events ↔ Along fp Fresh c events := by
  induction events generalizing c with
  | nil => exact Iff.rfl
  | cons e events ih => exact and_congr (level_iff hc h e) (ih (run_onBoard fp hc h e).1 (run_onBoard fp hc h e).2)

end TimerEvent

/-- the board's time after the accesses of a log -/
def clintTime (log : List MmioAccess) : BitVec 64 :=
  (log.foldl (fun (b : BoardState) a => match a with
    | .advance ticks => b.advanceMachineTimer ticks
    | .store addr width value => b.storeCLINT (addr - biosCLINTBase) width value
    | _ => b) (.newBiosMmio false false none none)).mtime

/-- a board that has nothing but `mtime` -/
def clintBoard : BiosMmio :=
  { log := []
    reply := fun _ b a => match a with
      | .store addr _ _ => if addr = 0x200bff8 then .value 0 b else .pass
      | _ => .pass
    fault_kind := by
      intro l b a f b' h
      cases a <;> simp only [reduceCtorEq] at h
      split_ifs at h
    mmioOverlaps := fun _ _ => false
    machineTimerValue := clintTime }

/-- `sd x0, 0(x5)`, where `x5` holds the address of `mtime`; `stimecmp` is 5 -/
def clintCpu : Cpu :=
  let m := { GuestMemory.newGuestMemoryWithModel 26 .linear
      true with bytes := Bytes.writeLe (fun _ => 0) 0 4 0x2B023, mmio := some clintBoard }
  { ((newCPU m).writeCSR 0x14d 5).2 with x := fun r => if r = 0 then 0 else 0x200bff8 }

namespace TimerEvent

theorem clintBoard_keepsTime : clintBoard.KeepsTime := by
  constructor <;> intros <;> simp [clintBoard, clintTime, BoardState.advanceMachineTimer]

theorem stip_level_rises : Along default Level clintCpu [.advance 10, .turn] := by
  have hsane : Sane clintCpu := { Boot.new.machineInv.toSane.writeCSR 0x14d 5 with x0 := rfl }
  refine (stip_level_iff default hsane ⟨clintBoard, rfl, clintBoard_keepsTime⟩ _).2
    ⟨trivial, ⟨by decide, fun insn c' hr => ?_⟩, trivial⟩
  have hcsr := hr.csr
  cases hr.fetched
  exact absurd hcsr (by decide)

/-- the store sets `mtime` back to 0, and the bit stays -/
theorem stip_level_stale : ¬ Along default Level clintCpu [.advance 10, .turn, .turn] :=
  fun h => absurd h.2.2.1.1 (by decide +kernel)

end TimerEvent

end RiscvEmu
