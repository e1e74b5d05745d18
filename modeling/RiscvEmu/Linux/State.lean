/-
The Linux personality (`jea9linux.go`): thread contexts, descriptors, wait queues, signals, the virtual clock and the
settings of the scheduler.

Go's `int64` is `Int` with its wrap-around written out (`int64`); addresses, registers, thread ids and descriptors
keep their 64 bits. A map is a function; what is shared through a pointer (pipes, epoll instances) lives in a table of
its own. `contexts` and `contextOrder` are filled together and never emptied, so `contextOrder` lists the keys of the
map.

What the code does not decide is in `Env`: the host clock, host sockets and the order in which Go enumerates the map
of contexts. The generator of the scheduler is a stream of draws (`SchedRng`).

Left out: traces and statistics, which nothing reads back.
-/
import Mathlib.Logic.Function.Basic
import RiscvEmu.Note

namespace RiscvEmu

def Cpu.clearReservation (c : Cpu) : Cpu := { c with resvAddr := 0, resvValid := false }

end RiscvEmu

namespace RiscvEmu.Linux

/-- the value of an `int64` expression -/
def int64 (n : Int) : Int := n.bmod (2 ^ 64)

abbrev Tid := BitVec 64
abbrev Fd := BitVec 64

def errENOENT : BitVec 64 := -2
def errESRCH : BitVec 64 := -3
def errEBADF : BitVec 64 := -9
def errEAGAIN : BitVec 64 := -11
def errENOMEM : BitVec 64 := -12
def errEFAULT : BitVec 64 := -14
def errEEXIST : BitVec 64 := -17
def errEISDIR : BitVec 64 := -21
def errEINVAL : BitVec 64 := -22
def errENOSYS : BitVec 64 := -38
def errETIMEDOUT : BitVec 64 := -110

/-! ## Settings -/

inductive TimeMode
  | hermitTime | realTime
deriving DecidableEq, Repr

inductive ClockMode
  | idleJump | icTick
deriving DecidableEq, Repr

inductive ClockPolicy
  | onlyDeadlockAdvances | prng | fixed | chaos
deriving DecidableEq, Repr

inductive NanosleepMode
  | requested | fixed
deriving DecidableEq, Repr

inductive SchedulerMode
  | roundRobin | dst | chaos | deadlock
deriving DecidableEq, Repr

structure SchedulerConfig where
  mode : SchedulerMode
  minQuantumRetired : BitVec 64
  maxQuantumRetired : BitVec 64
  lowPriorityNumerator : BitVec 64
  lowPriorityDenominator : BitVec 64
  priorityShuffleMinRetired : BitVec 64
  priorityShuffleMaxRetired : BitVec 64
  chaosWindowProbNumerator : BitVec 64
  chaosWindowProbDenominator : BitVec 64
  chaosWindowMaxNS : Int
  chaosBudgetNumerator : BitVec 64
  chaosBudgetDenominator : BitVec 64
deriving DecidableEq, Repr

/-- the draws of the scheduler's generator; small values keep coming, so that drawing a number below
a bound comes to an end -/
structure SchedRng where
  draw : Nat → BitVec 64
  /-- how far away the next small value is at most -/
  within : Nat → Nat
  small : ∀ k, ∃ j, j ≤ within k ∧ draw (k + j) < 1#64 <<< 63

/-! ## Contexts -/

inductive SchedPriority
  | high | low
deriving DecidableEq, Repr

inductive ContextState
  | runnable | waiting | exited
deriving DecidableEq, Repr

inductive WaitKind
  | none | futex | epoll | nanosleep
deriving DecidableEq, Repr

/-- the registers of a thread that is not running -/
structure CPUSnapshot where
  pc : BitVec 64
  x : BitVec 5 → BitVec 64
  f : BitVec 5 → BitVec 64
  fcsr : BitVec 32
  mtvec : BitVec 64
  mepc : BitVec 64
  mcause : BitVec 64
  mstatus : BitVec 64
  mtval : BitVec 64

/-- the system call that is being handled: where it was made and where it goes on -/
structure EcallTrapFrame where
  active : Bool
  trapPC : BitVec 64
  resumePC : BitVec 64
deriving DecidableEq, Repr

def EcallTrapFrame.idle : EcallTrapFrame := { active := false, trapPC := 0, resumePC := 0 }

structure SignalInfo where
  signo : BitVec 64
  code : BitVec 32
  pid : BitVec 64
  uid : BitVec 64
  addr : BitVec 64
deriving DecidableEq, Repr

structure PendingSignal where
  sig : BitVec 64
  info : SignalInfo
deriving DecidableEq, Repr

structure Context where
  tid : Tid
  state : ContextState
  snapshot : CPUSnapshot
  syscallTrap : EcallTrapFrame
  schedPriority : SchedPriority
  clearChildTID : BitVec 64
  waitKind : WaitKind
  waitAddr : BitVec 64
  waitDeadlineNS : Int
  waitHasDeadline : Bool
  waitFD : Fd
  waitEventAddr : BitVec 64
  waitMaxEvents : BitVec 64
  signalMask : BitVec 64
  pendingSignals : List PendingSignal
  sigaltSP : BitVec 64
  sigaltSize : BitVec 64
  sigaltFlags : BitVec 64

/-- a context as a composite literal leaves it -/
def Context.new (tid : Tid) (snapshot : CPUSnapshot) : Context :=
  { tid := tid, state := .runnable, snapshot := snapshot, syscallTrap := .idle, schedPriority := .high
    clearChildTID := 0, waitKind := .none, waitAddr := 0, waitDeadlineNS := 0, waitHasDeadline := false
    waitFD := 0, waitEventAddr := 0, waitMaxEvents := 0, signalMask := 0, pendingSignals := []
    sigaltSP := 0, sigaltSize := 0, sigaltFlags := 0 }

/-! ## Descriptors -/

inductive FDKind
  | stdin | stdout | stderr | random | file | eventfd | epoll | pipeRead | pipeWrite | hostFile | dir | socket
deriving DecidableEq, Repr

/-- a descriptor; `epoll` and `pipe` point into the tables of epoll instances and pipes -/
structure FD where
  kind : FDKind
  flags : BitVec 64
  eventfdCounter : BitVec 64
  epoll : Option Nat
  pipe : Option Nat
deriving DecidableEq, Repr

structure EpollRegistration where
  events : BitVec 32
  data : BitVec 64
  lastReady : BitVec 32
deriving DecidableEq, Repr

structure Epoll where
  registrations : Fd → Option EpollRegistration
  order : List Fd

structure Pipe where
  buf : List (BitVec 8)
  readFD : Fd
  writeFD : Fd

/-- the capacity that `pipe2` gives the buffer of a pipe -/
def pipeCapacity : Nat := 65536

/-! ## Signals -/

structure SignalAction where
  handler : BitVec 64
  flags : BitVec 64
  restorer : BitVec 64
  mask : BitVec 64
deriving DecidableEq, Repr

def SignalAction.zero : SignalAction := { handler := 0, flags := 0, restorer := 0, mask := 0 }

structure SignalFrameKey where
  tid : Tid
  sp : BitVec 64
deriving DecidableEq, Repr

structure SignalFrame where
  snapshot : CPUSnapshot
  signalMask : BitVec 64

/-! ## The personality -/

structure VM where
  pages : BitVec 64 → Option (BitVec 64)
  guestSize : BitVec 64
  mmapNext : BitVec 64

structure Jea9Linux where
  timeMode : TimeMode
  clockMode : ClockMode
  clockPolicy : ClockPolicy
  clockFixedAdvanceNS : Int
  clockPRNGMinNS : Int
  clockPRNGMaxNS : Int
  monotonicNS : Int
  realStartNS : Int
  /-- how often the host clock has been read -/
  realReads : Nat
  nsPerInstruction : Int
  nanosleepMode : NanosleepMode
  nanosleepFixedNS : Int
  schedulerConfig : SchedulerConfig
  schedRNG : SchedRng
  schedDraws : Nat
  nextScheduleAtRetired : BitVec 64
  nextPriorityShuffleRetired : BitVec 64
  chaosActive : Bool
  chaosStartNS : Int
  chaosUntilNS : Int
  chaosBlockedNS : Int
  blocked : Bool
  blockedUntil : Int
  blockedHasDeadline : Bool
  fds : Fd → Option FD
  nextFD : Fd
  epolls : Nat → Epoll
  nextEpoll : Nat
  pipes : Nat → Pipe
  nextPipe : Nat
  pid : Tid
  tid : Tid
  contexts : Tid → Option Context
  contextOrder : List Tid
  currentTID : Tid
  nextTID : Tid
  futexWaiters : BitVec 64 → List Tid
  timedFutexWaiters : Nat
  timedEpollWaiters : Nat
  timedNanosleepWaiters : Nat
  signalActions : BitVec 64 → SignalAction
  signalFrames : List (SignalFrameKey × SignalFrame)
  signalRestorer : BitVec 64
  activeEcallTrap : EcallTrapFrame
  vm : VM

/-- the personality and the hart it runs on -/
structure Sys where
  jos : Jea9Linux
  cpu : Cpu

/-- what a socket event comes to: nothing, a connection to accept, or data, an end of file or an error -/
inductive ExternalEvent
  | dropped
  | accepted (fd : Fd)
  | arrived (fd : Fd)
deriving DecidableEq, Repr

/-- what the code does not decide -/
structure Env where
  /-- nanoseconds since `realStart` at each reading of the host clock -/
  elapsed : Nat → Int
  /-- what a poll of a socket answers -/
  socketReady : Jea9Linux → Fd → BitVec 32
  /-- the socket events that have arrived -/
  events : Jea9Linux → List ExternalEvent
  /-- the order in which the map of contexts is enumerated -/
  order : Jea9Linux → List Tid
  order_perm : ∀ jos, (order jos).Perm jos.contextOrder

/-! ## Snapshots -/

def snapshotCPU (c : Cpu) : CPUSnapshot :=
  { pc := c.pc, x := c.x, f := c.f, fcsr := c.fcsr, mtvec := c.csr.mtvec, mepc := c.csr.mepc
    mcause := c.csr.mcause, mstatus := c.mstatus, mtval := c.csr.mtval }

def restoreCPU (c : Cpu) (snap : CPUSnapshot) : Cpu :=
  { c with
    pc := snap.pc, x := fun r => if r = 0 then 0 else snap.x r, f := snap.f, fcsr := snap.fcsr
    mstatus := snap.mstatus
    csr := { c.csr with mtvec := snap.mtvec, mepc := snap.mepc, mcause := snap.mcause, mtval := snap.mtval } }

/-- `snap.x[r] = v` -/
def CPUSnapshot.setX (snap : CPUSnapshot) (r : BitVec 5) (v : BitVec 64) : CPUSnapshot :=
  { snap with x := fun i => if i = r then v else snap.x i }

namespace Jea9Linux

variable (jos : Jea9Linux)

def setContext (ctx : Context) : Jea9Linux :=
  { jos with contexts := Function.update jos.contexts ctx.tid (some ctx) }

/-- change the context of `tid`, if there is one -/
def modifyContext (tid : Tid) (f : Context → Context) : Jea9Linux :=
  { jos with contexts := Function.update jos.contexts tid ((jos.contexts tid).map f) }

def current : Option Context := jos.contexts jos.currentTID

end Jea9Linux

end RiscvEmu.Linux
