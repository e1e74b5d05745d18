/-
The system calls on threads and time (`jea9linux.go`) and their dispatch: futexes, `epoll_pwait`, `pselect6`,
`nanosleep`, `clone`, `sched_yield`, `exit`.

The calls that block do it in one way: the registers are saved, the context waits (`beginWait`), and another context
is scheduled.
-/
import RiscvEmu.Linux.Descriptors

namespace RiscvEmu.Linux

open Exec Call

structure Wait where
  kind : WaitKind
  addr : BitVec 64 := 0
  deadline : Option Int
  fd : Fd := 0
  eventAddr : BitVec 64 := 0
  maxEvents : BitVec 64 := 0
deriving DecidableEq, Repr

/-- the wait fields of a context that waits for `w` -/
def Context.waitFor (ctx : Context) (w : Wait) : Context :=
  { ctx with
    waitKind := w.kind, waitAddr := w.addr, waitDeadlineNS := w.deadline.getD 0, waitHasDeadline := w.deadline.isSome
    waitFD := w.fd, waitEventAddr := w.eventAddr, waitMaxEvents := w.maxEvents }

namespace Jea9Linux

variable (jos : Jea9Linux) (env : Env)

def addTimed (kind : WaitKind) : Jea9Linux :=
  match kind with
  | .futex => { jos with timedFutexWaiters := jos.timedFutexWaiters + 1 }
  | .epoll => { jos with timedEpollWaiters := jos.timedEpollWaiters + 1 }
  | .nanosleep => { jos with timedNanosleepWaiters := jos.timedNanosleepWaiters + 1 }
  | .none => jos

/-- the thread queues up at the futex it waits for -/
def enqueue (tid : Tid) (w : Wait) : Jea9Linux :=
  if w.kind = .futex then
    { jos with futexWaiters := Function.update jos.futexWaiters w.addr (jos.futexWaiters w.addr ++ [tid]) }
  else jos

/-- the current context waits for `w` -/
def beginWait (w : Wait) : Jea9Linux :=
  let tid := jos.currentTID
  let jos := (jos.modifyContext tid fun c => { c with state := .waiting }).clearContextWaitFields tid
  let jos := (jos.modifyContext tid fun c => c.waitFor w).enqueue tid w
  if w.deadline.isSome then jos.addTimed w.kind else jos

/-- if no other context may run, the clock goes towards the deadline; whether it got there -/
def advanceIfAlone (deadline : Int) : Bool × Jea9Linux :=
  match jos.nextRunnableByPolicyAfterCurrent with
  | (some _, jos) => (false, jos)
  | (none, jos) =>
    let r := jos.advanceVirtualClockTowardDeadline env deadline
    (r.1.2, r.2)

/-- the clock on the way to a deadline, if there is one; whether the deadline was reached -/
def advanceToDeadline : Option Int → Bool × Jea9Linux
  | none => (false, jos)
  | some deadline => jos.advanceIfAlone env deadline

/-- wake up to `limit` of the threads that wait at `addr`, the first ones first -/
def wakeFutex (addr : BitVec 64) (limit : Int) : Nat × Jea9Linux :=
  let waiters := jos.futexWaiters addr
  let woken := waiters.take limit.toNat
  let jos := woken.foldl (fun (jos : Jea9Linux) tid => jos.markRunnable tid 0) jos
  let jos := { jos with futexWaiters := Function.update jos.futexWaiters addr (waiters.drop limit.toNat) }
  (woken.length, if woken.length > 0 ∧ jos.hasRunnableContext then jos.unblock else jos)

end Jea9Linux

section Calls

variable (env : Env) (sv : Services)

/-! ## Blocking -/

namespace Sys

/-- the current thread gives up the hart and waits for `w` -/
def beginWait (w : Wait) (s : Sys) : Sys := s.saveCurrent.mapJos fun jos => jos.beginWait w

/-- the guest goes on if a context was loaded -/
def goOnOr (r : Bool × Sys) (k : Sys → NoteDisposition × Sys) : NoteDisposition × Sys :=
  if r.1 then (.handled, r.2) else k r.2

/-- the clock goes on, and the first context that can run now is loaded -/
def scheduleAtDeadline (s : Sys) : NoteDisposition × Sys :=
  if s.jos.nextWaitDeadline.isSome then
    goOnOr (s.mapJos fun jos => (jos.advanceVirtualClockWhenNoRunnableCandidate env).2).loadFirstRunnableAfterBlocked
      reportBlocked
  else s.reportBlocked

/-- run another context, or the first one whose deadline comes, or report that nothing can run -/
def scheduleNext (s : Sys) : NoteDisposition × Sys :=
  goOnOr (s.loadUnblocked s.jos.nextRunnableByPolicyAfterCurrent) (scheduleAtDeadline env)

def scheduleAfterCurrentBlocked (s : Sys) : NoteDisposition × Sys :=
  match s.jos.timeMode with
  | .hermitTime => s.scheduleNext env
  | .realTime =>
    goOnOr ((s.drainExternalEvents env).mapJos fun jos => jos.refreshBlocked env).loadFirstRunnableAfterBlocked
      (scheduleNext env)

end Sys

/-- the absolute deadline of a relative timeout in guest memory -/
def timespecDeadline (timeoutAddr : BitVec 64) : Call Int := do
  Exec.modify fun s => s.mapJos fun jos => jos.syncRealClock env
  let sec ← mem errEFAULT (GuestMemory.load64 timeoutAddr)
  let nsec ← mem errEFAULT (GuestMemory.load64 (timeoutAddr + 8))
  failIf (sec.toInt < 0 ∨ nsec.toInt < 0 ∨ nsec.toInt ≥ 1000000000) errEINVAL
  let now ← gets fun s => s.jos.monotonicNS
  pure (int64 (int64 (now + int64 (sec.toInt * 1000000000)) + nsec.toInt))

/-! ## Futexes -/

def futexDeadline (timeoutAddr : BitVec 64) : Call (Option Int) :=
  if timeoutAddr = 0 then pure none else some <$> timespecDeadline env timeoutAddr

/-- begin to wait at `addr`; an errno means that the thread does not wait -/
def futexWait (addr : BitVec 64) (expected : BitVec 32) (timeoutAddr : BitVec 64) : Call Unit := do
  failIf (addr % 4 ≠ 0) errEINVAL
  let got ← mem errEFAULT (GuestMemory.load32 addr)
  failIf (got ≠ expected) errEAGAIN
  let deadline ← futexDeadline env timeoutAddr
  let now ← gets fun s => s.jos.monotonicNS
  failIf (deadline.isSome ∧ deadline.getD 0 ≤ now) errETIMEDOUT
  let reached ← (fun s =>
    let r := s.jos.advanceToDeadline env deadline
    (.ok r.1, { s with jos := r.2 }) : Call Bool)
  failIf reached errETIMEDOUT
  Exec.modify (Sys.beginWait { kind := .futex, addr := addr, deadline := deadline })

def sysFutex (addr op val timeoutAddr : BitVec 64) (s : Sys) : NoteDisposition × Sys :=
  let s := s.ensureScheduler
  let cmd := op &&& 0xf
  if cmd = 0 ∨ cmd = 9 then
    match futexWait env addr (val.setWidth 32) timeoutAddr s with
    | (.ok (), s) => s.scheduleAfterCurrentBlocked env
    | (.error errno, s) => s.returnSaved errno
  else if cmd = 1 ∨ cmd = 10 then
    let r := s.jos.wakeFutex addr val.toInt
    Sys.returnSaved { s with jos := r.2 } (BitVec.ofNat 64 r.1)
  else s.returnSaved errEINVAL

/-! ## Waiting for events and for time -/

def Jea9Linux.epollDeadline (jos : Jea9Linux) (timeoutRaw : BitVec 64) : Option Int × Jea9Linux :=
  let jos := jos.syncRealClock env
  (if timeoutRaw.toInt < 0 then none else some (int64 (jos.monotonicNS + int64 (timeoutRaw.toInt * 1000000))), jos)

def sysEpollPwait (epfd eventsAddr maxEvents timeoutRaw : BitVec 64) (s : Sys) : NoteDisposition × Sys :=
  match epollCollectReady env epfd eventsAddr maxEvents (s.drainExternalEvents env).ensureScheduler with
  | (.error errno, s) => s.returnSaved errno
  | (.ok n, s) =>
    if n > 0 ∨ timeoutRaw = 0 then s.returnSaved (BitVec.ofNat 64 n)
    else
      let d := s.jos.epollDeadline env timeoutRaw
      let r := d.2.advanceToDeadline env d.1
      let s : Sys := { s with jos := r.2 }
      if r.1 then s.returnSaved 0
      else
        (s.beginWait { kind := .epoll, deadline := d.1, fd := epfd, eventAddr := eventsAddr, maxEvents := maxEvents }
          ).scheduleAfterCurrentBlocked env

def sysPselect6 (timeoutAddr : BitVec 64) (s : Sys) : NoteDisposition × Sys :=
  if timeoutAddr = 0 then s.return 0
  else
    match timespecDeadline env timeoutAddr s with
    | (.error errno, s) => s.return errno
    | (.ok deadline, s) =>
      if deadline ≤ s.jos.monotonicNS then s.return 0
      else
        let s := s.ensureScheduler
        let r := s.jos.advanceIfAlone env deadline
        let s : Sys := { s with jos := r.2 }
        if r.1 then s.returnSaved 0
        else (s.beginWait { kind := .nanosleep, deadline := some deadline }).scheduleAfterCurrentBlocked env

/-- how long `nanosleep` sleeps: `none` if the request cannot be read or makes no sense -/
def sleepTime (reqAddr : BitVec 64) : Call Int := do
  Exec.modify fun s => s.mapJos fun jos => jos.syncRealClock env
  let sec ← mem errEFAULT (GuestMemory.load64 reqAddr)
  let nsec ← mem errEFAULT (GuestMemory.load64 (reqAddr + 8))
  failIf (sec.toInt < 0 ∨ nsec.toInt < 0 ∨ nsec.toInt ≥ 1000000000) errEINVAL
  let jos ← gets Sys.jos
  match jos.nanosleepMode with
  | .requested => pure (int64 (int64 (sec.toInt * 1000000000) + nsec.toInt))
  | .fixed => pure (max jos.nanosleepFixedNS 0)

def sysNanosleep (reqAddr : BitVec 64) (s : Sys) : NoteDisposition × Sys :=
  match sleepTime env reqAddr s with
  | (.error errno, s) => s.return errno
  | (.ok advance, s) =>
    if advance ≤ 0 then s.return 0
    else
      let s := s.ensureScheduler
      let deadline := int64 (s.jos.monotonicNS + advance)
      (s.beginWait { kind := .nanosleep, deadline := some deadline }).scheduleAfterCurrentBlocked env

/-! ## Threads -/

def cloneParentSetTID : BitVec 64 := 0x00100000
def cloneChildClearTID : BitVec 64 := 0x00200000
def cloneChildSetTID : BitVec 64 := 0x01000000
def cloneSetTLS : BitVec 64 := 0x00080000

/-- `CLONE_VM | CLONE_FS | CLONE_FILES | CLONE_SIGHAND | CLONE_THREAD | CLONE_SYSVSEM` -/
def cloneRequired : BitVec 64 := 0x00050f00

def cloneFlagsSupported (flags : BitVec 64) : Bool :=
  andNot flags (cloneRequired ||| cloneSetTLS ||| cloneParentSetTID ||| cloneChildClearTID ||| cloneChildSetTID) = 0 ∧
    flags &&& cloneRequired = cloneRequired

/-- the first thread id from `tid` on that is free -/
def Jea9Linux.freeTID (jos : Jea9Linux) : Nat → Tid → Option Tid
  | 0, _ => none
  | fuel + 1, tid => if tid = 0 ∨ (jos.contexts tid).isSome then jos.freeTID fuel (tid + 1) else some tid

/-- the thread that `clone` makes -/
def cloneChild (s : Sys) (tid : Tid) (flags childStack tls childTIDAddr : BitVec 64) : Context :=
  let snap := s.jos.syscallReturnSnapshot s.cpu 0
  let snap := if childStack ≠ 0 then snap.setX 2 childStack else snap
  let snap := if flags &&& cloneSetTLS ≠ 0 then snap.setX 4 tls else snap
  { Context.new tid (snap.setX 0 0) with
    signalMask := (s.jos.current.map Context.signalMask).getD 0
    clearChildTID := if flags &&& cloneChildClearTID ≠ 0 then childTIDAddr else 0 }

/-- the number of a new thread, written where the guest asked for it -/
def storeTID (addr : BitVec 64) (tid : Tid) : Call Unit := do
  failIf (addr = 0) errEFAULT
  mem errEFAULT (GuestMemory.store32 addr (tid.setWidth 32))

/-- the child is added, and the parent returns from the call with its number -/
def startThread (tid : Tid) (flags childStack tls childTIDAddr : BitVec 64) (s : Sys) : Sys :=
  let s := s.mapJos fun jos =>
    { jos.setContext (cloneChild s tid flags childStack tls childTIDAddr) with contextOrder := jos.contextOrder ++
      [tid] }
  let s := s.setReg 10 tid
  s.mapJos fun jos => jos.modifyContext jos.currentTID fun c =>
    { c with state := .runnable, snapshot := jos.syscallReturnSnapshot s.cpu tid }

/-- when every thread id is taken the source looks for a free one forever; here the call is refused -/
def sysClone (flags childStack parentTIDAddr tls childTIDAddr : BitVec 64) : Call (BitVec 64) := do
  failIf (!cloneFlagsSupported flags) errEINVAL
  let free ← gets fun s => s.jos.freeTID (2 ^ 64) s.jos.nextTID
  match free with
  | none => Exec.fail errEAGAIN
  | some tid =>
    Exec.modify fun s => s.mapJos fun jos => { jos with nextTID := tid + 1 }
    when (flags &&& cloneParentSetTID ≠ 0) (storeTID parentTIDAddr tid)
    when (flags &&& cloneChildSetTID ≠ 0) (storeTID childTIDAddr tid)
    Exec.modify (startThread tid flags childStack tls childTIDAddr)
    pure tid

/-- `ctx.state = jea9LinuxContextRunnable` for the current context -/
def Sys.keepRunning (s : Sys) : Sys :=
  s.mapJos fun jos => jos.modifyContext jos.currentTID fun c => { c with state := .runnable }

/-- load the context that was found, if one was found -/
def Sys.loadIfFound (s : Sys) (r : Option Tid × Jea9Linux) : Bool × Sys :=
  match r with
  | (none, jos) => (false, { s with jos := jos })
  | (some next, jos) => (true, Sys.loadContext { s with jos := jos } next)

def sysSchedYield (s : Sys) : NoteDisposition × Sys :=
  let s := (s.ensureScheduler.setReg 10 0).keepRunning.saveCurrent
  let s := s.mapJos fun jos => jos.advanceIdleClockToNextDeadline env
  (.handled, (s.loadIfFound s.jos.nextRunnableByPolicyAfterCurrent).2)

def sysSetTidAddress (addr : BitVec 64) (s : Sys) : NoteDisposition × Sys :=
  let s := s.ensureScheduler.mapJos fun jos => jos.modifyContext jos.currentTID fun c =>
      { c with clearChildTID := addr }
  s.saveCurrent.return s.jos.currentTID

def Sys.exitProcess (s : Sys) (code : BitVec 64) : NoteDisposition × Sys :=
  (.exit, { jos := { s.jos with fds := fun _ => none }
            cpu := { s.cpu with exitCode := (code.setWidth 32).signExtend 64 } })

/-- the word that the thread clears when it ends, and the waking of a thread that waits for it -/
def clearChildTID (addr : BitVec 64) (s : Sys) : Sys :=
  if addr = 0 then s
  else
    match mem errEFAULT (GuestMemory.store32 addr 0) s with
    | (.ok (), s) => s.mapJos fun jos => (jos.wakeFutex addr 1).2
    | (.error _, s) => s

def exitCurrentThread (s : Sys) : Sys :=
  let s := s.ensureScheduler.saveCurrent
  let s := s.mapJos fun jos => (jos.cancelContextWait jos.currentTID).modifyContext jos.currentTID fun c =>
    { c with state := .exited }
  clearChildTID ((s.jos.current.map Context.clearChildTID).getD 0) s

def sysExit (code : BitVec 64) (exitGroup : Bool) (s : Sys) : NoteDisposition × Sys :=
  let s := s.ensureScheduler
  if exitGroup ∨ s.jos.currentTID = s.jos.pid then s.exitProcess code
  else
    let s := exitCurrentThread s
    Sys.goOnOr (s.loadIfFound s.jos.nextRunnableByPolicyAfterCurrent) fun s => s.exitProcess code

/-! ## Dispatch -/

/-- the system calls on threads, waits and signals -/
inductive Syscall
  | eventfd2 | epollCreate1 | epollCtl | epollPwait | close | pipe2 | read | write | readv | writev | pselect6
  | setTidAddress | futex | kill | tkill | tgkill | sigaltstack | rtSigaction | rtSigprocmask | rtSigreturn
  | setRobustList | exit | exitGroup | schedYield | gettid | clone | nanosleep | other
deriving DecidableEq, Repr

def syscallTable : List (BitVec 64 × Syscall) :=
  [(19, .eventfd2), (20, .epollCreate1), (21, .epollCtl), (22, .epollPwait), (57, .close), (59, .pipe2), (63, .read),
    (64, .write), (65, .readv), (66, .writev), (72, .pselect6), (96, .setTidAddress), (98, .futex), (422, .futex),
    (99, .setRobustList), (129, .kill), (130, .tkill), (131, .tgkill), (132, .sigaltstack), (134, .rtSigaction),
      (135, .rtSigprocmask),
    (139, .rtSigreturn), (93, .exit), (94, .exitGroup), (124, .schedYield), (178, .gettid), (220, .clone),
    (101, .nanosleep)]

def Syscall.ofNum (num : BitVec 64) : Syscall := (syscallTable.lookup num).getD .other

/-- a handler whose value is the result of the call -/
def Sys.answer (c : Call (BitVec 64)) (s : Sys) : NoteDisposition × Sys :=
  let r := c.result s
  r.2.return r.1

def sysClose (fd : Fd) : Call (BitVec 64) := fun s =>
  match s.jos.fds fd with
  | none => (.error errEBADF, s)
  | some _ =>
    (do
      setFD fd none
      pure 0 : Call (BitVec 64)) s

def dispatch (a : SyscallArgs) (s : Sys) : NoteDisposition × Sys :=
  match Syscall.ofNum a.num with
  | .eventfd2 => s.answer (sysEventfd2 a.a0 a.a1)
  | .epollCreate1 => s.answer (sysEpollCreate1 a.a0)
  | .epollCtl => s.answer (sysEpollCtl a.a0 a.a1 a.a2 a.a3)
  | .epollPwait => sysEpollPwait env a.a0 a.a1 a.a2 a.a3 s
  | .close => s.answer (sysClose a.a0)
  | .pipe2 => s.answer (sysPipe2 a.a0 a.a1)
  | .read => s.answer (sysRead env sv a.a0 a.a1 a.a2)
  | .write => s.answer (sysWrite env sv a.a0 a.a1 a.a2)
  | .readv => s.answer (sysReadv env sv a.a0 a.a1 a.a2)
  | .writev => s.answer (sysWritev env sv a.a0 a.a1 a.a2)
  | .pselect6 => sysPselect6 env a.a4 s
  | .setTidAddress => sysSetTidAddress a.a0 s
  | .futex => sysFutex env a.a0 a.a1 a.a2 a.a3 s
  | .setRobustList => s.ensureScheduler.saveCurrent.return 0
  | .kill => sysKill a.a0 a.a1 s
  | .tkill => sysTkill a.a0 a.a1 s
  | .tgkill => sysTgkill a.a0 a.a1 a.a2 s
  | .sigaltstack => s.ensureScheduler.answer (sysSigaltstack a.a0 a.a1)
  | .rtSigaction => s.answer (sysRtSigaction a.a0 a.a1 a.a2 a.a3)
  | .rtSigprocmask => sysRtSigprocmask a.a0 a.a1 a.a2 a.a3 s
  | .rtSigreturn => sysRtSigreturn s
  | .exit => sysExit a.a0 false s
  | .exitGroup => sysExit a.a0 true s
  | .schedYield => sysSchedYield env s
  | .gettid => s.ensureScheduler.return s.jos.tid
  | .clone => s.ensureScheduler.answer (sysClone a.a0 a.a1 a.a2 a.a3 a.a4)
  | .nanosleep => sysNanosleep env a.a0 s
  | .other => s.answer (serve env sv (.call a))

def isEcall (n : Note) : Bool := n.cause = causeEcallU ∨ n.cause = causeEcallS ∨ n.cause = causeEcallM

def ecallTrapFromNote (n : Note) : EcallTrapFrame :=
  if !isEcall n ∨ n.insnLen = 0 then .idle
  else { active := true, trapPC := n.pc, resumePC := n.pc + n.insnLen.setWidth 64 }

/-- the hart goes on behind the system call, unless it was moved elsewhere -/
def resumeAfter (trap : EcallTrapFrame) (c : Cpu) : Cpu :=
  if c.pc = trap.trapPC then { c.clearReservation with pc := trap.resumePC }
  else if c.pc = trap.resumePC then c.clearReservation
  else c

/-- the end of a handled system call of the thread `startTID` -/
def finishHandledEcall (startTID : Tid) (trap : EcallTrapFrame) (r : NoteDisposition × Sys) : Sys :=
  let s := r.2
  if r.1 ≠ .handled then s
  else
    match s.jos.contexts startTID with
    | none => { s with cpu := resumeAfter trap s.cpu }
    | some ctx =>
      let jos := if ctx.state = .runnable ∧ ctx.snapshot.pc = trap.trapPC then
          s.jos.modifyContext startTID completeContextEcallTrap
        else s.jos
      { jos := jos
        cpu := if s.jos.currentTID = startTID ∧ ctx.state = .runnable then resumeAfter trap s.cpu else s.cpu }

def syscallArgs (c : Cpu) : SyscallArgs :=
  { num := c.x 17, a0 := c.x 10, a1 := c.x 11, a2 := c.x 12, a3 := c.x 13, a4 := c.x 14, a5 := c.x 15 }

def Sys.setActiveTrap (s : Sys) (trap : EcallTrapFrame) : Sys :=
  s.mapJos fun jos => { jos with activeEcallTrap := trap }

/-- the handler of notes; after `rt_sigreturn` the hart stays where the frame has put it -/
def handle (n : Note) (s : Sys) : NoteDisposition × Sys :=
  if !isEcall n then
    if noteIsFault n then handleFaultSignal n s else (.forward, s)
  else
    let trap := ecallTrapFromNote n
    let args := syscallArgs s.cpu
    let prevTrap := s.jos.activeEcallTrap
    if !trap.active then dispatch env sv args (s.drainExternalEvents env)
    else
      let r := dispatch env sv args ((s.setActiveTrap trap).drainExternalEvents env)
      let s' := if Syscall.ofNum args.num = .rtSigreturn then r.2 else finishHandledEcall s.jos.currentTID trap r
      (r.1, s'.setActiveTrap prevTrap)

end Calls

end RiscvEmu.Linux
