/-
The scheduler of the Linux personality (`jea9linux.go`): which context runs next, the chaos windows, the virtual
clock, and what happens when the current thread blocks.

The functions are those of the source under their names. `cpu` is passed only where registers are loaded or saved.
-/
import Mathlib.Order.Nat
import RiscvEmu.Linux.State

namespace RiscvEmu.Linux

open BitVec

/-! ## Waking -/

/-- a thread that was inside a system call goes on behind it -/
def completeContextEcallTrap (ctx : Context) : Context :=
  if !ctx.syscallTrap.active then ctx
  else { ctx with
    snapshot.pc := if ctx.snapshot.pc = ctx.syscallTrap.trapPC then ctx.syscallTrap.resumePC else ctx.snapshot.pc
    syscallTrap := .idle }

namespace Context

variable (ctx : Context)

def clearWait : Context :=
  { ctx with
    waitKind := .none, waitAddr := 0, waitDeadlineNS := 0, waitHasDeadline := false, waitFD := 0
    waitEventAddr := 0, waitMaxEvents := 0 }

end Context

namespace Jea9Linux

variable (jos : Jea9Linux)

def dropTimed (kind : WaitKind) : Jea9Linux :=
  match kind with
  | .futex => { jos with timedFutexWaiters := jos.timedFutexWaiters - 1 }
  | .epoll => { jos with timedEpollWaiters := jos.timedEpollWaiters - 1 }
  | .nanosleep => { jos with timedNanosleepWaiters := jos.timedNanosleepWaiters - 1 }
  | .none => jos

/-- `clearContextWaitFields` on the context of `tid` -/
def clearContextWaitFields (tid : Tid) : Jea9Linux :=
  match jos.contexts tid with
  | none => jos
  | some ctx =>
    (if ctx.waitHasDeadline then jos.dropTimed ctx.waitKind else jos).modifyContext tid Context.clearWait

def markRunnable (tid : Tid) (retval : BitVec 64) : Jea9Linux :=
  match jos.contexts tid with
  | none => jos
  | some ctx =>
    if ctx.state = .exited then jos
    else
      (jos.modifyContext tid fun c => completeContextEcallTrap
        { c with state := .runnable, snapshot := c.snapshot.setX 10 retval }).clearContextWaitFields tid

def removeFutexWaiter (addr : BitVec 64) (tid : Tid) : Jea9Linux :=
  { jos with futexWaiters := Function.update jos.futexWaiters addr ((jos.futexWaiters addr).erase tid) }

/-- `cancelContextWait` on the context of `tid` -/
def cancelContextWait (tid : Tid) : Jea9Linux :=
  match jos.contexts tid with
  | none => jos
  | some ctx =>
    (if ctx.waitKind = .futex then jos.removeFutexWaiter ctx.waitAddr tid else jos).clearContextWaitFields tid

/-! ## Timeouts -/

section Timeouts

variable (env : Env)

def syncRealClock : Jea9Linux :=
  match jos.timeMode with
  | .hermitTime => jos
  | .realTime => { jos with
      monotonicNS := int64 (jos.realStartNS + env.elapsed jos.realReads), realReads := jos.realReads + 1 }

/-- the context waits for something of this kind and its time is up -/
def timedOut (kind : WaitKind) (tid : Tid) : Bool :=
  match jos.contexts tid with
  | none => false
  | some ctx =>
    ctx.state = .waiting ∧ ctx.waitKind = kind ∧ ctx.waitHasDeadline ∧ ctx.waitDeadlineNS ≤ jos.monotonicNS

/-- the address that the context of `tid` waits for -/
def waitAddrOf (tid : Tid) : BitVec 64 :=
  match jos.contexts tid with
  | none => 0
  | some ctx => ctx.waitAddr

def refreshFutexTimeouts : Jea9Linux :=
  (env.order jos).foldl (fun jos tid =>
    if jos.timedOut .futex tid then
      (jos.removeFutexWaiter (jos.waitAddrOf tid) tid).markRunnable tid errETIMEDOUT
    else jos) jos

def refreshEpollTimeouts : Jea9Linux :=
  (env.order jos).foldl (fun jos tid => if jos.timedOut .epoll tid then jos.markRunnable tid 0 else jos) jos

def refreshNanosleepTimeouts : Jea9Linux :=
  (env.order jos).foldl (fun jos tid => if jos.timedOut .nanosleep tid then jos.markRunnable tid 0 else jos) jos

def isRunnable (tid : Tid) : Bool :=
  match jos.contexts tid with
  | none => false
  | some ctx => ctx.state = .runnable

def hasRunnableContext : Bool := jos.contextOrder.any jos.isRunnable

def unblock : Jea9Linux := { jos with blocked := false, blockedHasDeadline := false }

def refreshBlocked : Jea9Linux :=
  let jos := jos.syncRealClock env
  let jos := if jos.timedFutexWaiters > 0 then jos.refreshFutexTimeouts env else jos
  let jos := if jos.timedEpollWaiters > 0 then jos.refreshEpollTimeouts env else jos
  let jos := if jos.timedNanosleepWaiters > 0 then jos.refreshNanosleepTimeouts env else jos
  if jos.blocked ∧ jos.hasRunnableContext then jos.unblock
  else if jos.blocked ∧ jos.blockedHasDeadline ∧ jos.monotonicNS ≥ jos.blockedUntil then jos.unblock
  else jos

end Timeouts

/-! ## The generator -/

/-- `schedN` draws again above this -/
def schedLimit (n : BitVec 64) : BitVec 64 := allOnes 64 - allOnes 64 % n

theorem schedLimit_large {n : BitVec 64} (h : n ≠ 0) : 1#64 <<< 63 ≤ schedLimit n := by
  have hn : 0 < n.toNat := Nat.pos_of_ne_zero fun h0 => h (eq_of_toNat_eq h0)
  have hmod : (allOnes 64 % n).toNat = (2 ^ 64 - 1) % n.toNat := by
    rw [toNat_umod, toNat_allOnes]
  have hle : (2 ^ 64 - 1) % n.toNat ≤ 2 ^ 63 - 1 := by
    rcases Nat.lt_or_ge n.toNat (2 ^ 63 + 1) with hsmall | hlarge
    · have := Nat.mod_lt (2 ^ 64 - 1) hn
      omega
    · have hlt := n.isLt
      have hone : (2 ^ 64 - 1) % n.toNat = 2 ^ 64 - 1 - n.toNat := by
        rw [Nat.mod_eq_sub_mod (by omega), Nat.mod_eq_of_lt (by omega)]
      omega
  rw [le_def, schedLimit, toNat_sub, hmod, toNat_allOnes]
  have h63 : (1#64 <<< 63).toNat = 2 ^ 63 := by decide
  omega

/-- how many draws are thrown away before one is below the limit -/
def schedSkip (n : BitVec 64) : Option Nat :=
  (List.range (jos.schedRNG.within jos.schedDraws + 1)).find? fun j =>
    jos.schedRNG.draw (jos.schedDraws + j) < schedLimit n

theorem schedSkip_isSome {n : BitVec 64} (h : n ≠ 0) : (jos.schedSkip n).isSome := by
  obtain ⟨j, hj, hsmall⟩ := jos.schedRNG.small jos.schedDraws
  refine List.find?_isSome.mpr ⟨j, List.mem_range.mpr (by omega), ?_⟩
  exact decide_eq_true (Std.lt_of_lt_of_le hsmall (schedLimit_large h))

/-- a number below `n`: draw until the value is below the largest multiple of `n` -/
def schedN (n : BitVec 64) : BitVec 64 × Jea9Linux :=
  if n = 0 then (0, jos)
  else
    let j := (jos.schedSkip n).getD 0
    (jos.schedRNG.draw (jos.schedDraws + j) % n, { jos with schedDraws := jos.schedDraws + j + 1 })

def schedulerActive : Bool := jos.schedulerConfig.mode ≠ .deadlock

def drawSchedulerQuantum : BitVec 64 × Jea9Linux :=
  let minQ := jos.schedulerConfig.minQuantumRetired
  let maxQ := if jos.schedulerConfig.maxQuantumRetired < minQ then minQ else jos.schedulerConfig.maxQuantumRetired
  if jos.schedulerConfig.mode = .roundRobin ∨ minQ = maxQ then (minQ, jos)
  else
    let r := jos.schedN (maxQ - minQ + 1)
    (minQ + r.1, r.2)

/-- `retired` is `cpu.RiscvInstrRetired()` -/
def installNextSchedulerQuantum (retired : BitVec 64) : Jea9Linux :=
  let r := jos.drawSchedulerQuantum
  { r.2 with nextScheduleAtRetired := retired + r.1 }

def drawSchedulerPriority : SchedPriority × Jea9Linux :=
  let denom := if jos.schedulerConfig.lowPriorityDenominator = 0 then 10 else jos.schedulerConfig.lowPriorityDenominator
  if jos.schedulerConfig.lowPriorityNumerator = 0 then (.high, jos)
  else
    let r := jos.schedN denom
    (if r.1 < jos.schedulerConfig.lowPriorityNumerator then .low else .high, r.2)

/-- a new priority for the context of `tid`, unless it has exited -/
def reshufflePriority (tid : Tid) : Jea9Linux :=
  match jos.contexts tid with
  | none => jos
  | some ctx =>
    if ctx.state = .exited then jos
    else
      let r := jos.drawSchedulerPriority
      r.2.modifyContext tid fun c => { c with schedPriority := r.1 }

def reshuffleSchedulerPriorities (retired : BitVec 64) : Jea9Linux :=
  let jos := jos.contextOrder.foldl reshufflePriority jos
  let cfg := jos.schedulerConfig
  let r := jos.schedN (cfg.priorityShuffleMaxRetired - cfg.priorityShuffleMinRetired + 1)
  { r.2 with nextPriorityShuffleRetired := retired + (cfg.priorityShuffleMinRetired + r.1) }

def maybeReshuffleSchedulerPriorities (retired : BitVec 64) : Jea9Linux :=
  if jos.schedulerConfig.mode ≠ .dst ∧ jos.schedulerConfig.mode ≠ .chaos then jos
  else if jos.nextPriorityShuffleRetired = 0 ∨ retired ≥ jos.nextPriorityShuffleRetired then
    jos.reshuffleSchedulerPriorities retired
  else jos

/-! ## Chaos windows -/

def refreshChaosWindow : Jea9Linux :=
  if !jos.chaosActive ∨ jos.monotonicNS < jos.chaosUntilNS then jos
  else { jos with
    chaosBlockedNS := if jos.chaosUntilNS > jos.chaosStartNS then
        int64 (jos.chaosBlockedNS + int64 (jos.chaosUntilNS - jos.chaosStartNS))
      else jos.chaosBlockedNS
    chaosActive := false, chaosStartNS := 0, chaosUntilNS := 0 }

def remainingChaosBudgetNS : Int :=
  if jos.monotonicNS ≤ 0 then int64 (-jos.chaosBlockedNS)
  else
    let denom := if jos.schedulerConfig.chaosBudgetDenominator =
        0 then 5 else jos.schedulerConfig.chaosBudgetDenominator
    let numer := if jos.schedulerConfig.chaosBudgetNumerator = 0 then 1 else jos.schedulerConfig.chaosBudgetNumerator
    let allowed := BitVec.toInt (BitVec.ofInt 64 jos.monotonicNS * numer / denom)
    int64 (allowed - jos.chaosBlockedNS)

def startChaosWindow (durationNS : Int) : Jea9Linux :=
  if durationNS ≤ 0 ∨ jos.schedulerConfig.mode ≠ .chaos ∨ jos.clockPolicy ≠ .chaos then jos
  else
    let jos := jos.refreshChaosWindow
    if jos.chaosActive then jos
    else
      let remaining := jos.remainingChaosBudgetNS
      if remaining ≤ 0 then jos
      else { jos with
        chaosActive := true, chaosStartNS := jos.monotonicNS
        chaosUntilNS := int64 (jos.monotonicNS + min durationNS remaining) }

def maybeStartChaosWindow : Jea9Linux :=
  let jos := jos.refreshChaosWindow
  if jos.schedulerConfig.mode ≠ .chaos ∨ jos.chaosActive then jos
  else
    let denom := if jos.schedulerConfig.chaosWindowProbDenominator = 0 then 100
      else jos.schedulerConfig.chaosWindowProbDenominator
    let numer := jos.schedulerConfig.chaosWindowProbNumerator
    if numer = 0 ∨ numer > denom then jos
    else
      let r := jos.schedN denom
      if r.1 ≥ numer then r.2
      else
        let maxNS := if jos.schedulerConfig.chaosWindowMaxNS ≤
            0 then 3000000000 else jos.schedulerConfig.chaosWindowMaxNS
        let d := r.2.schedN (BitVec.ofInt 64 maxNS)
        d.2.startChaosWindow (1 + d.1).toInt

/-! ## Choosing a context -/

/-- the context may be chosen: it is runnable and no chaos window holds it back -/
def selectable (tid : Tid) : Bool :=
  match jos.contexts tid with
  | none => false
  | some ctx => ctx.state = .runnable ∧ ¬ (jos.chaosActive ∧ ctx.schedPriority = .low)

/-- the contexts behind the current one, around the list -/
def afterCurrent : List Tid :=
  let start := if jos.currentTID ∈ jos.contextOrder then jos.contextOrder.idxOf jos.currentTID else 0
  jos.contextOrder.rotate (start + 1)

def nextRunnableByPolicyAfterCurrent : Option Tid × Jea9Linux :=
  let jos := jos.refreshChaosWindow
  (jos.afterCurrent.find? fun tid => tid ≠ jos.currentTID ∧ jos.selectable tid, jos)

def firstRunnableByPolicy : Option Tid × Jea9Linux :=
  let jos := jos.refreshChaosWindow
  (jos.contextOrder.find? jos.selectable, jos)

def hasRunnableClockCandidate : Bool × Jea9Linux :=
  if jos.clockPolicy ≠ .chaos then (jos.hasRunnableContext, jos)
  else
    let r := jos.firstRunnableByPolicy
    (r.1.isSome, r.2)

/-- the deadline of the context of `tid`, if it waits for one -/
def deadlineOf (tid : Tid) : Option Int :=
  match jos.contexts tid with
  | none => none
  | some ctx => if ctx.state = .waiting ∧ ctx.waitHasDeadline then some ctx.waitDeadlineNS else none

def nextWaitDeadline : Option Int := (jos.contextOrder.filterMap jos.deadlineOf).min?

/-! ## The virtual clock -/

section Clock

variable (env : Env)

/-- how far the PRNG policy goes in one step -/
def clockPRNGStep : Int × Jea9Linux :=
  let minNS := if jos.clockPRNGMinNS ≤ 0 then 1000000 else jos.clockPRNGMinNS
  let maxNS := if jos.clockPRNGMaxNS < minNS then minNS else jos.clockPRNGMaxNS
  let r := jos.schedN (BitVec.ofInt 64 (maxNS - minNS + 1))
  (int64 (minNS + r.1.toInt), r.2)

def setClock (ns : Int) : Jea9Linux := { jos with monotonicNS := ns }

/-- the clock was moved: what has timed out, and how far it went -/
def clockMoved (before : Int) : (Int × Bool) × Jea9Linux :=
  let jos := jos.refreshBlocked env
  ((int64 (jos.monotonicNS - before), true), jos)

/-- if nothing can run, the clock jumps to the next deadline -/
def jumpIfIdle : (Int × Bool) × Jea9Linux :=
  let r := jos.hasRunnableClockCandidate
  if r.1 then ((0, false), r.2)
  else
    match r.2.nextWaitDeadline with
    | none => ((0, false), r.2)
    | some deadline => (r.2.setClock (max deadline r.2.monotonicNS)).clockMoved env jos.monotonicNS

/-- the clock of a scheduler event: how far it went, and whether it was advanced at all -/
def advanceVirtualClockForSchedulerEvent : (Int × Bool) × Jea9Linux :=
  match jos.timeMode with
  | .realTime => ((0, false), (jos.syncRealClock env).refreshBlocked env)
  | .hermitTime =>
    match jos.clockPolicy with
    | .onlyDeadlockAdvances | .chaos => jos.jumpIfIdle env
    | .prng =>
      let r := jos.clockPRNGStep
      (r.2.setClock (int64 (r.2.monotonicNS + r.1))).clockMoved env jos.monotonicNS
    | .fixed => (jos.setClock (int64 (jos.monotonicNS + jos.clockFixedAdvanceNS))).clockMoved env jos.monotonicNS

/-- how far the clock goes towards `target`; `none` if the policy does not move it -/
def stepToward (target : Int) : Option Int × Jea9Linux :=
  match jos.clockPolicy with
  | .onlyDeadlockAdvances | .chaos => (some target, jos)
  | .prng =>
    let r := jos.clockPRNGStep
    (if r.1 ≤ 0 then none
      else some (int64 (jos.monotonicNS + min r.1 (int64 (target - jos.monotonicNS)))), r.2)
  | .fixed =>
    (if jos.clockFixedAdvanceNS ≤ 0 then none
      else some (int64 (jos.monotonicNS + min jos.clockFixedAdvanceNS (int64 (target - jos.monotonicNS)))), jos)

/-- how far the clock went towards the deadline, and whether it got there -/
def advanceVirtualClockTowardDeadline (deadline : Int) : (Int × Bool) × Jea9Linux :=
  match jos.timeMode with
  | .realTime =>
    let jos := (jos.syncRealClock env).refreshBlocked env
    ((0, jos.monotonicNS ≥ deadline), jos)
  | .hermitTime =>
    let before := jos.monotonicNS
    if deadline ≤ before then ((0, true), jos)
    else
      let target := if jos.chaosActive ∧ jos.chaosUntilNS > before ∧ jos.chaosUntilNS < deadline then jos.chaosUntilNS
        else deadline
      match jos.stepToward target with
      | (none, jos) => ((0, false), jos)
      | (some ns, jos) =>
        let jos := (jos.setClock ns).refreshChaosWindow.refreshBlocked env
        ((int64 (jos.monotonicNS - before), jos.monotonicNS ≥ deadline), jos)

/-- the next deadline or the end of the chaos window, whichever comes first -/
def nextClockEvent : Option Int :=
  let windowEnd := if jos.chaosActive ∧ jos.chaosUntilNS > jos.monotonicNS then some jos.chaosUntilNS else none
  match jos.nextWaitDeadline, windowEnd with
  | none, windowEnd => windowEnd
  | some deadline, none => some deadline
  | some deadline, some e => some (if e < deadline then e else deadline)

def advanceVirtualClockWhenNoRunnableCandidate : (Int × Bool) × Jea9Linux :=
  match jos.timeMode with
  | .realTime => ((0, false), (jos.syncRealClock env).refreshBlocked env)
  | .hermitTime =>
    let before := jos.monotonicNS
    match jos.nextClockEvent with
    | none =>
      match jos.clockPolicy with
      | .onlyDeadlockAdvances | .chaos => ((0, false), jos)
      | .prng | .fixed => jos.advanceVirtualClockForSchedulerEvent env
    | some deadline =>
      let r := jos.advanceVirtualClockTowardDeadline env deadline
      if r.1.1 = 0 then ((0, false), r.2) else ((int64 (r.2.monotonicNS - before), true), r.2)

def advanceIdleClockToNextDeadline : Jea9Linux :=
  match jos.clockMode with
  | .idleJump => (jos.advanceVirtualClockForSchedulerEvent env).2
  | .icTick => jos

/-- real time is counted from now on -/
def restartRealClock (ns : Int) : Jea9Linux :=
  { jos with realStartNS := int64 (ns - env.elapsed jos.realReads), realReads := jos.realReads + 1 }

def setMonotonicNS (ns : Int) : Jea9Linux :=
  match jos.timeMode with
  | .hermitTime => (jos.setClock ns).refreshBlocked env
  | .realTime => ((jos.setClock ns).restartRealClock env ns).refreshBlocked env

end Clock

/-! ## The current context -/

/-- the system call that is being handled belongs to the current context -/
def attachActiveEcallTrap (tid : Tid) : Jea9Linux :=
  if !jos.activeEcallTrap.active ∨ tid ≠ jos.currentTID then jos
  else jos.modifyContext tid fun c => { c with syscallTrap := jos.activeEcallTrap }

/-- the context of `currentTID`, made if there is none -/
def ensureScheduler (c : Cpu) : Jea9Linux :=
  let jos := match jos.contexts jos.currentTID with
    | some _ => jos
    | none => { jos with
        contexts := Function.update jos.contexts jos.currentTID (some (Context.new jos.currentTID (snapshotCPU c)))
        contextOrder := jos.contextOrder ++ [jos.currentTID] }
  let jos := if jos.nextTID ≤ jos.currentTID then { jos with nextTID := jos.currentTID + 1 } else jos
  jos.attachActiveEcallTrap jos.currentTID

/-- the return of a system call, made for the current context -/
def syscallReturnSnapshot (c : Cpu) (retval : BitVec 64) : CPUSnapshot :=
  let snap := (snapshotCPU c).setX 10 retval
  let snap := snap.setX 0 0
  if jos.activeEcallTrap.active then { snap with pc := jos.activeEcallTrap.resumePC } else snap

end Jea9Linux

namespace Sys

variable (s : Sys)

def mapJos (f : Jea9Linux → Jea9Linux) : Sys := { s with jos := f s.jos }

def setReg (r : BitVec 5) (v : BitVec 64) : Sys := { s with cpu := s.cpu.setReg r v }

def ensureScheduler : Sys := s.mapJos fun jos => jos.ensureScheduler s.cpu

/-- `ctx.snapshot = snapshotJea9LinuxCPU(cpu)` for the current context -/
def saveCurrent : Sys :=
  s.mapJos fun jos => jos.modifyContext jos.currentTID fun c => { c with snapshot := snapshotCPU s.cpu }

/-- run the context of `tid`, if it is runnable -/
def loadContext (tid : Tid) : Sys :=
  match s.jos.contexts tid with
  | none => s
  | some ctx =>
    if ctx.state ≠ .runnable then s
    else
      let ctx := completeContextEcallTrap ctx
      { jos := { s.jos.modifyContext tid completeContextEcallTrap with currentTID := tid, tid := tid }
        cpu := (restoreCPU s.cpu ctx.snapshot).clearReservation }

/-- load the context that was found, if one was found -/
def loadUnblocked (r : Option Tid × Jea9Linux) : Bool × Sys :=
  match r with
  | (none, jos) => (false, { s with jos := jos })
  | (some next, jos) => (true, (loadContext { s with jos := jos } next).mapJos Jea9Linux.unblock)

def loadFirstRunnableAfterBlocked : Bool × Sys := s.loadUnblocked s.jos.firstRunnableByPolicy

/-- nothing can run: the personality is blocked until the next deadline, if there is one -/
def reportBlocked : NoteDisposition × Sys :=
  (.exit, s.mapJos fun jos => { jos with
    blocked := true, blockedUntil := jos.nextWaitDeadline.getD 0
    blockedHasDeadline := jos.nextWaitDeadline.isSome })

end Sys

end RiscvEmu.Linux
