/-
The run loop of the Linux personality (`Jea9Linux.Run`): slices of guest code between scheduler quanta and host
budgets, and what happens between two slices.

A slice (`RunDefaultDualBudget`) is a parameter: it runs guest code and hands notes to `handle`.

`Reached` are the states that the personality can get into: guest code runs, a note is handled, a quantum or a budget
expires, the work between two slices is done, or the host sets the clock. `run_stays_reached` says that the loop stays
in them.
-/
import RiscvEmu.Linux.Calls

namespace RiscvEmu.Linux

section Run

variable (env : Env) (sv : Services)

/-- what comes before the choice of the next context at the end of a quantum -/
def prepareQuantum (s : Sys) : Sys :=
  let s := s.ensureScheduler.keepRunning.saveCurrent
  s.mapJos fun jos => (jos.maybeReshuffleSchedulerPriorities s.cpu.riscvInstrRetired).maybeStartChaosWindow

/-- the next context after a quantum; when there is none the clock is advanced -/
def switchAfterQuantum (s : Sys) : Sys :=
  match s.loadIfFound s.jos.nextRunnableByPolicyAfterCurrent with
  | (true, s) => s
  | (false, s) =>
    match s.jos.advanceVirtualClockWhenNoRunnableCandidate env with
    | ((_, false), jos) => { s with jos := jos }
    | ((_, true), jos) => (Sys.loadIfFound { s with jos := jos } jos.nextRunnableByPolicyAfterCurrent).2

def expireSchedulerQuantum (s : Sys) : Sys :=
  let s := switchAfterQuantum env (prepareQuantum s)
  s.mapJos fun jos => jos.installNextSchedulerQuantum s.cpu.riscvInstrRetired

def expireBudget (s : Sys) : Sys := s.ensureScheduler.keepRunning.saveCurrent

def Jea9Linux.accountInsAttempts (jos : Jea9Linux) (attempts : BitVec 64) : Jea9Linux :=
  match jos.timeMode, jos.clockMode with
  | .hermitTime, .icTick => jos.setClock (int64 (jos.monotonicNS + int64 (attempts.toInt * jos.nsPerInstruction)))
  | _, _ => jos

/-- the instructions left in the quantum -/
def schedulerRemainingRetired (s : Sys) : Option (BitVec 64) × Sys :=
  if !s.jos.schedulerActive then (none, s)
  else
    let retired := s.cpu.riscvInstrRetired
    let s := if s.jos.nextScheduleAtRetired = 0 then s.mapJos fun jos => jos.installNextSchedulerQuantum retired else s
    (some (if retired ≥ s.jos.nextScheduleAtRetired then 0 else s.jos.nextScheduleAtRetired - retired), s)

/-! ## Between two slices -/

inductive Boundary
  /-- a context was loaded after the personality had been blocked -/
  | again
  /-- `ErrJea9LinuxBlocked` -/
  | blocked
  | goOn
deriving DecidableEq, Repr

/-- external events, the readiness of descriptors and timeouts; `wasBlocked` is what the slice left -/
def boundary (s : Sys) : Boundary × Sys :=
  let wasBlocked := s.jos.blocked
  let s := ((s.drainExternalEvents env).refreshEpollReadiness env).mapJos fun jos => jos.refreshBlocked env
  if wasBlocked then
    match s.loadFirstRunnableAfterBlocked with
    | (true, s) => (.again, s)
    | (false, s) => (if s.jos.blocked then .blocked else .goOn, s)
  else (if s.jos.blocked then .blocked else .goOn, s)

/-- one turn of the loop in which the driver waits in real time: whether a context was loaded -/
def waitRealTimeBlocked (s : Sys) : Bool × Sys :=
  ((s.drainExternalEvents env).mapJos fun jos => jos.refreshBlocked env).loadFirstRunnableAfterBlocked

inductive RunBudgetLimit
  | none | attempt | retired
deriving DecidableEq, Repr

structure SliceEnd where
  res : RunBudgetResult
  limit : RunBudgetLimit
  err : Option RunError

inductive RunEnd
  | budget | blocked | error (e : RunError) | done
deriving DecidableEq

/-- one turn of the loop of `Run`; `used` counts the instructions of the host budget -/
def runTurn (slice : BitVec 64 → BitVec 64 → Sys → SliceEnd × Sys) (budget used : BitVec 64) (s : Sys) :
    (RunEnd ⊕ BitVec 64) × Sys :=
  if budget ≠ 0 ∧ used ≥ budget then (.inl .budget, expireBudget s)
  else
    let (remaining, s) := schedulerRemainingRetired s
    if remaining = some 0 then (.inl .budget, expireSchedulerQuantum env s)
    else
      let before := s.cpu.riscvInstrBegun
      let (e, s) := slice (if budget ≠ 0 then budget - used else budget) (remaining.getD (BitVec.allOnes 64)) s
      let attempts := s.cpu.riscvInstrBegun - before
      let used := used + attempts
      match boundary env (s.mapJos fun jos => jos.accountInsAttempts attempts) with
      | (.again, s) => (.inr used, s)
      | (.blocked, s) => (.inl .blocked, s)
      | (.goOn, s) =>
        match e.err, e.res with
        | some err, _ => (.inl (.error err), s)
        | none, .expired =>
          if e.limit = .retired then (.inl .budget, expireSchedulerQuantum env s)
          else if e.limit = .attempt ∨ (budget ≠ 0 ∧ used ≥ budget) ∨ attempts = 0 then (.inl .budget, expireBudget s)
          else (.inr used, s)
        | none, _ => (.inl .done, s)

/-! ## The start -/

/-- what `NewJea9Linux` is given; the fixed advance of the clock has a setter of its own -/
structure Options where
  timeMode : TimeMode
  clockMode : ClockMode
  clockPolicy : ClockPolicy
  clockFixedAdvanceNS : Int
  monotonicStartNS : Int
  nsPerInstruction : Int
  nanosleepMode : NanosleepMode
  nanosleepFixedNS : Int
  scheduler : SchedulerConfig
  schedRNG : SchedRng
  pid : Tid
  tid : Tid

namespace SchedulerConfig

/-- the defaults of `normalizeSchedulerConfig`, one after the other -/
def normalize (cfg : SchedulerConfig) : SchedulerConfig :=
  let cfg := if cfg.minQuantumRetired = 0 then
      { cfg with minQuantumRetired := if cfg.mode = .roundRobin then 65536 else 100 } else cfg
  let cfg := if cfg.maxQuantumRetired < cfg.minQuantumRetired then
      { cfg with maxQuantumRetired := cfg.minQuantumRetired } else cfg
  let cfg := if cfg.lowPriorityDenominator = 0 then { cfg with lowPriorityDenominator := 10 } else cfg
  let cfg := if cfg.lowPriorityNumerator > cfg.lowPriorityDenominator then
      { cfg with lowPriorityNumerator := cfg.lowPriorityDenominator } else cfg
  let cfg := if cfg.priorityShuffleMinRetired = 0 then
      { cfg with priorityShuffleMinRetired := cfg.minQuantumRetired * 10 } else cfg
  let cfg := if cfg.priorityShuffleMaxRetired < cfg.priorityShuffleMinRetired then
      { cfg with priorityShuffleMaxRetired := cfg.priorityShuffleMinRetired } else cfg
  let cfg := if cfg.chaosWindowProbDenominator = 0 then { cfg with chaosWindowProbDenominator := 100 } else cfg
  let cfg := if cfg.chaosWindowMaxNS ≤ 0 then { cfg with chaosWindowMaxNS := 3000000000 } else cfg
  let cfg := if cfg.chaosBudgetDenominator = 0 then { cfg with chaosBudgetDenominator := 5 } else cfg
  if cfg.chaosBudgetNumerator = 0 then { cfg with chaosBudgetNumerator := 1 } else cfg

end SchedulerConfig

namespace Options

variable (o : Options)

/-- either both the clock and the scheduler are chaotic or neither is (`normalizeClockPolicyChaos`) -/
def chaotic : Bool := o.clockPolicy = .chaos ∨ o.scheduler.mode = .chaos

def policy : ClockPolicy := if o.chaotic then .chaos else o.clockPolicy

def schedulerConfig : SchedulerConfig :=
  (if o.chaotic then { o.scheduler with mode := .chaos } else o.scheduler).normalize

def startPID : Tid := if o.pid = 0 then 1 else o.pid

def startTID : Tid := if o.tid = 0 then o.startPID else o.tid

end Options

/-- an open descriptor of one of the standard streams -/
def stdStream (kind : FDKind) : FD := { kind := kind, flags := 0, eventfdCounter := 0, epoll := none, pipe := none }

def newVM (size : BitVec 64) : VM :=
  let base := alignUp (size / 4)
  let base := if base < 0x400000 ∧ size > 0x800000 then 0x400000 else base
  { pages := fun _ => none, guestSize := size, mmapNext := if base ≥ size then guestPageSize else base }

/-- the personality as `NewJea9Linux` and `InstallJea9Linux` leave it on a hart -/
def installed (o : Options) (c : Cpu) : Jea9Linux :=
  { timeMode := o.timeMode, clockMode := o.clockMode, clockPolicy := o.policy
    clockFixedAdvanceNS := o.clockFixedAdvanceNS, clockPRNGMinNS := 1000000, clockPRNGMaxNS := 500000000
    monotonicNS := o.monotonicStartNS, realStartNS := o.monotonicStartNS, realReads := 0
    nsPerInstruction := if o.nsPerInstruction = 0 then 1 else o.nsPerInstruction
    nanosleepMode := o.nanosleepMode, nanosleepFixedNS := o.nanosleepFixedNS
    schedulerConfig := o.schedulerConfig, schedRNG := o.schedRNG, schedDraws := 0
    nextScheduleAtRetired := 0, nextPriorityShuffleRetired := 0
    chaosActive := false, chaosStartNS := 0, chaosUntilNS := 0, chaosBlockedNS := 0
    blocked := false, blockedUntil := 0, blockedHasDeadline := false
    fds := fun fd => if fd = 0 then some (stdStream .stdin) else if fd = 1 then some (stdStream .stdout)
      else if fd = 2 then some (stdStream .stderr) else none
    nextFD := 3, epolls := fun _ => { registrations := fun _ => none, order := [] }, nextEpoll := 0
    pipes := fun _ => { buf := [], readFD := 0, writeFD := 0 }, nextPipe := 0
    pid := o.startPID, tid := o.startTID
    contexts := Function.update (fun _ => none) o.startTID (some (Context.new o.startTID (snapshotCPU c)))
    contextOrder := [o.startTID], currentTID := o.startTID, nextTID := o.startTID + 1
    futexWaiters := fun _ => [], timedFutexWaiters := 0, timedEpollWaiters := 0, timedNanosleepWaiters := 0
    signalActions := fun _ => .zero, signalFrames := [], signalRestorer := 0, activeEcallTrap := .idle
    vm := newVM c.mem.size }

def boot (o : Options) (c : Cpu) : Sys := Sys.setVM { jos := installed o c, cpu := c } (newVM c.mem.size)

/-! ## What can happen -/

/-- the states of the personality, whatever the guest and the host do, and whether the hart runs guest code in them. It
does until a note is not answered with `handled`; then `Run` loads a context or returns, and in real time the driver
waits until a context can be loaded. -/
inductive Reached (o : Options) : Bool → Sys → Prop
  | boot (c : Cpu) : Reached o true (boot o c)
  /-- guest code runs: the personality does not notice -/
  | guest {s : Sys} (c : Cpu) (h : Reached o true s) : Reached o true { s with cpu := c }
  | handle {s : Sys} (env : Env) (sv : Services) (n : Note) (h : Reached o true s) :
    Reached o ((handle env sv n s).1 = .handled) (handle env sv n s).2
  | quantum {s : Sys} (env : Env) (h : Reached o true s) : Reached o true (expireSchedulerQuantum env s)
  | budget {s : Sys} (h : Reached o true s) : Reached o true (expireBudget s)
  | remaining {s : Sys} (h : Reached o true s) : Reached o true (schedulerRemainingRetired s).2
  | account {r : Bool} {s : Sys} (attempts : BitVec 64) (h : Reached o r s) :
    Reached o r (s.mapJos fun jos => jos.accountInsAttempts attempts)
  | boundary {r : Bool} {s : Sys} (env : Env) (h : Reached o r s) :
    Reached o ((boundary env s).1 = .again ∨ (r ∧ (boundary env s).1 = .goOn)) (boundary env s).2
  | wait {s : Sys} (env : Env) (h : Reached o false s) (ht : s.jos.timeMode = .realTime) (hb : s.jos.blocked) :
    Reached o (waitRealTimeBlocked env s).1 (waitRealTimeBlocked env s).2
  | setMonotonicNS {r : Bool} {s : Sys} (env : Env) (ns : Int) (h : Reached o r s) :
    Reached o r (s.mapJos fun jos => jos.setMonotonicNS env ns)

end Run

/-! ## The loop -/

section Loop

variable (env : Env) (sv : Services)

/-- guest code runs and notes are handled, from `s` on; `false` once a note was answered with something else -/
inductive Ran (s : Sys) : Bool → Sys → Prop
  | start : Ran s true s
  | guest {t : Sys} (c : Cpu) (h : Ran s true t) : Ran s true { t with cpu := c }
  | handle {t : Sys} (n : Note) (h : Ran s true t) : Ran s ((handle env sv n t).1 = .handled) (handle env sv n t).2

/-- what `Run` relies on: a slice does nothing else, and expires only while guest code runs -/
def IsSlice (slice : BitVec 64 → BitVec 64 → Sys → SliceEnd × Sys) : Prop :=
  ∀ attempts retired s, ∃ r, Ran env sv s r (slice attempts retired s).2 ∧
    ((slice attempts retired s).1.err = none → (slice attempts retired s).1.res = .expired → r = true)

/-- `Run`, for at most `n` turns -/
def run (slice : BitVec 64 → BitVec 64 → Sys → SliceEnd × Sys) (budget : BitVec 64) :
    Nat → BitVec 64 → Sys → Option RunEnd × Sys
  | 0, _, s => (none, s)
  | n + 1, used, s =>
    match runTurn env slice budget used s with
    | (.inl e, s) => (some e, s)
    | (.inr used, s) => run slice budget n used s

variable {env sv} {o : Options} {s t : Sys} {r : Bool}

theorem Ran.reached (h : Ran env sv s r t) (hs : Reached o true s) : Reached o r t := by
  induction h with
  | start => exact hs
  | guest c _ ih => exact .guest c ih
  | handle n _ ih => exact .handle env sv n ih

variable {slice : BitVec 64 → BitVec 64 → Sys → SliceEnd × Sys}

theorem runTurn_reached (hslice : IsSlice env sv slice) (budget used : BitVec 64) (h : Reached o true s) :
    ∃ r, Reached o r (runTurn env slice budget used s).2 ∧
      (r = false → ∃ e, (runTurn env slice budget used s).1 = .inl e ∧ e ≠ .budget) := by
  have hrem := Reached.remaining h
  unfold runTurn
  by_cases hbudget : budget ≠ 0 ∧ used ≥ budget
  · rw [if_pos hbudget]
    exact ⟨true, .budget h, nofun⟩
  rw [if_neg hbudget]
  generalize schedulerRemainingRetired s = rest at hrem ⊢
  obtain ⟨remaining, s₁⟩ := rest
  dsimp only at hrem ⊢
  by_cases hquantum : remaining = some 0
  · rw [if_pos hquantum]
    exact ⟨true, .quantum env hrem, nofun⟩
  rw [if_neg hquantum]
  obtain ⟨r, hran, hexpired⟩ :=
    hslice (if budget ≠ 0 then budget - used else budget) (remaining.getD (BitVec.allOnes 64)) s₁
  generalize slice _ _ s₁ = ended at hran hexpired ⊢
  obtain ⟨e, s₂⟩ := ended
  have hnext := Reached.boundary env (.account (s₂.cpu.riscvInstrBegun - s₁.cpu.riscvInstrBegun) (hran.reached hrem))
  dsimp only at hexpired hnext ⊢
  generalize boundary env _ = b at hnext ⊢
  obtain ⟨_ | _ | _, s₃⟩ := b
  · exact ⟨true, hnext, nofun⟩
  · exact ⟨_, hnext, fun _ => ⟨_, rfl, nofun⟩⟩
  obtain ⟨res, limit, _ | err⟩ := e
  swap
  · exact ⟨_, hnext, fun _ => ⟨_, rfl, nofun⟩⟩
  cases res with
  | expired =>
    obtain rfl := hexpired rfl rfl
    dsimp only
    split_ifs
    · exact ⟨true, .quantum env hnext, nofun⟩
    · exact ⟨true, .budget hnext, nofun⟩
    · exact ⟨true, hnext, nofun⟩
  | _ => exact ⟨_, hnext, fun _ => ⟨_, rfl, nofun⟩⟩

/-- **The run loop.**  `Run` stays in the states that are reached, and guest code can go on unless it ends for another
reason than a budget. -/
theorem run_stays_reached (hslice : IsSlice env sv slice) (budget : BitVec 64) (n : Nat) (used : BitVec 64)
    (h : Reached o true s) :
    ∃ r, Reached o r (run env slice budget n used s).2 ∧
      (r = false → ∃ e, (run env slice budget n used s).1 = some e ∧ e ≠ .budget) := by
  induction n generalizing s used with
  | zero => exact ⟨true, h, nofun⟩
  | succ n ih =>
    have hturn := runTurn_reached hslice budget used h
    unfold run
    generalize runTurn env slice budget used s = turn at hturn ⊢
    obtain ⟨e | used', s'⟩ := turn
    · obtain ⟨r, hr, hend⟩ := hturn
      refine ⟨r, hr, fun hfalse => ?_⟩
      obtain ⟨_, he, hne⟩ := hend hfalse
      cases he
      exact ⟨e, rfl, hne⟩
    · obtain ⟨_ | _, hr, hend⟩ := hturn
      · obtain ⟨_, he, -⟩ := hend rfl
        cases he
      · exact ih used' hr

end Loop

/-! ## A small guest -/

/-- what one thread of a guest does next, or the end of its quantum -/
inductive Act
  | store (addr v : BitVec 64)
  | call (a : SyscallArgs)
  | quantum
deriving DecidableEq, Repr

def quietEnv : Env :=
  { elapsed := fun _ => 0, socketReady := fun _ _ => 0, events := fun _ => [], order := Jea9Linux.contextOrder
    order_perm := fun jos => List.Perm.refl jos.contextOrder }

def noServices : Services :=
  { answer := fun _ s => (errENOSYS, s), answer_keeps := fun _ _ => ⟨⟨rfl, fun _ => rfl⟩, rfl⟩, wakes := fun _ _ => [] }

/-- the registers of a thread that makes a system call -/
def calling (a : SyscallArgs) (c : Cpu) : Cpu :=
  { c with x := fun r => if r = 17 then a.num else if r = 10 then a.a0 else if r = 11 then a.a1 else if r = 12 then a.a2
      else if r = 13 then a.a3 else if r = 14 then a.a4 else if r = 15 then a.a5 else c.x r }

def ask (num : BitVec 64) (a0 a1 a2 a3 a4 a5 : BitVec 64 := 0) : Act :=
  .call { num := num, a0 := a0, a1 := a1, a2 := a2, a3 := a3, a4 := a4, a5 := a5 }

def ecallAt (pc : BitVec 64) : Note := { text := "", cause := causeEcallU, tval := 0, pc := pc, insnLen := 4 }

/-- the guest does one thing; whether guest code runs afterwards -/
def Act.run (a : Act) (s : Sys) : Bool × Sys :=
  match a with
  | .store addr v =>
    (true, { s with cpu := { s.cpu with mem := { s.cpu.mem with bytes := Bytes.writeLe s.cpu.mem.bytes addr 8 v } } })
  | .call args =>
    let r := handle quietEnv noServices (ecallAt s.cpu.pc) { s with cpu := calling args s.cpu }
    (r.1 = .handled, r.2)
  | .quantum => (true, expireSchedulerQuantum quietEnv s)

/-- one thing after the other, as long as guest code runs -/
def runActs : List Act → Sys → Bool × Sys
  | [], s => (true, s)
  | a :: rest, s =>
    match a.run s with
    | (true, s) => runActs rest s
    | (false, s) => (false, s)

theorem Act.run_reached {o : Options} {s : Sys} (a : Act) (h : Reached o true s) :
    Reached o (a.run s).1 (a.run s).2 := by
  cases a with
  | store addr v => exact .guest _ h
  | call args => exact .handle quietEnv noServices _ (.guest _ h)
  | quantum => exact .quantum quietEnv h

theorem runActs_reached {o : Options} (l : List Act) {s : Sys} (h : Reached o true s) :
    Reached o (runActs l s).1 (runActs l s).2 := by
  induction l generalizing s with
  | nil => exact h
  | cons a rest ih =>
    have hstep := a.run_reached h
    unfold runActs
    generalize a.run s = r at hstep
    obtain ⟨_ | _, s'⟩ := r
    · exact hstep
    · exact ih hstep

def steadyRng : SchedRng := { draw := fun _ => 0, within := fun _ => 0, small := fun _ => ⟨0, by decide⟩ }

def smallOptions : Options :=
  { timeMode := .hermitTime, clockMode := .idleJump, clockPolicy := .onlyDeadlockAdvances, clockFixedAdvanceNS := 0
    monotonicStartNS := 0, nsPerInstruction := 1, nanosleepMode := .requested, nanosleepFixedNS := 0
    scheduler :=
      { mode := .roundRobin, minQuantumRetired := 0, maxQuantumRetired := 0, lowPriorityNumerator := 0
        lowPriorityDenominator := 0, priorityShuffleMinRetired := 0, priorityShuffleMaxRetired := 0
        chaosWindowProbNumerator := 0, chaosWindowProbDenominator := 0, chaosWindowMaxNS := 0
        chaosBudgetNumerator := 0, chaosBudgetDenominator := 0 }
    schedRNG := steadyRng, pid := 1, tid := 1 }

def smallBoot : Sys := boot smallOptions (newCPU (GuestMemory.newGuestMemoryWithModel 24 .linear false))

def spawn : Act := ask 220 cloneRequired 0x1000

/-- the timespec of `ns` nanoseconds at `addr` -/
def timespec (addr ns : BitVec 64) : List Act := [.store addr 0, .store (addr + 8) ns]

theorem smallBoot_reached : Reached smallOptions true smallBoot := .boot _

/-- the guest loads its registers in one slice and calls `exit_group` in the next -/
def exitingSlice (_ _ : BitVec 64) (s : Sys) : SliceEnd × Sys :=
  if s.cpu.x 17 = 94 then
    ({ res := .exit, limit := .none, err := some (.exited (s.cpu.x 10)) },
      (handle quietEnv noServices (ecallAt s.cpu.pc) s).2)
  else
    let c := calling { num := 94, a0 := 7, a1 := 0, a2 := 0, a3 := 0, a4 := 0, a5 := 0 } s.cpu
    ({ res := .expired, limit := .none, err := none },
      { s with cpu := { c with riscvInstrBegun := c.riscvInstrBegun + 1 } })

theorem exitingSlice_isSlice : IsSlice quietEnv noServices exitingSlice := by
  intro attempts retired s
  unfold exitingSlice
  split_ifs
  · exact ⟨_, .handle _ .start, nofun⟩
  · exact ⟨true, .guest _ .start, fun _ _ => rfl⟩

theorem run_stays_reached_smallBoot :
    let ended := run quietEnv exitingSlice 0 2 0 smallBoot
    ended.1 = some (.error (.exited 7)) ∧
      ∃ r, Reached smallOptions r ended.2 ∧ (r = false → ∃ e, ended.1 = some e ∧ e ≠ .budget) :=
  ⟨by decide +kernel, run_stays_reached exitingSlice_isSlice 0 2 0 smallBoot_reached⟩

end RiscvEmu.Linux
