/-
Descriptors that threads wait for (`jea9linux.go`, `jea9linux_socket.go`): epoll instances, pipes and eventfds, and
the waking of their waiters.

A handler that returns an errno is a computation on the personality and the hart that ends with it (`Call`); whatever
it has changed by then stays. The waiters are woken in the order in which Go enumerates the map of contexts
(`Env.order`).
-/
import RiscvEmu.Linux.Sched

namespace RiscvEmu.Linux

/-- a handler: it may change the personality and the hart and may end with an errno -/
abbrev Call := Exec Sys (BitVec 64)

/-- an access to guest memory; a fault is the given errno -/
def Call.mem {α : Type} (errno : BitVec 64) (m : Exec GuestMemory MemFault α) : Call α := fun s =>
  match m s.cpu.mem with
  | (.ok a, mem) => (.ok a, { s with cpu.mem := mem })
  | (.error _, mem) => (.error errno, { s with cpu.mem := mem })

/-- do `m` if the condition holds -/
def Call.when (p : Prop) [Decidable p] (m : Call Unit) : Call Unit := if p then m else pure ()

/-- end with an errno if the condition holds -/
def Call.failIf (p : Prop) [Decidable p] (errno : BitVec 64) : Call Unit := Call.when p (Exec.fail errno)

/-- the value a handler puts into `a0` -/
def Call.result (c : Call (BitVec 64)) (s : Sys) : BitVec 64 × Sys :=
  match c s with
  | (.ok v, s) => (v, s)
  | (.error errno, s) => (errno, s)

def leBytes (v : BitVec 64) : List (BitVec 8) := (List.range 8).map (Bytes.byteOf v)

def ofLeBytes (l : List (BitVec 8)) : BitVec 64 := Bytes.assemble 64 (fun i => l.getD i 0) 8

def epollIn : BitVec 32 := 1
def epollOut : BitVec 32 := 4
def epollET : BitVec 32 := 0x80000000
def epollEventSize : BitVec 64 := 16

def fdNonblock : BitVec 64 := 0x800
def fdCloexec : BitVec 64 := 0x80000
def efdSemaphore : BitVec 64 := 1

/-- the instance with another registration of `fd` -/
def Epoll.withRegistration (e : Epoll) (fd : Fd) (reg : Option EpollRegistration) : Epoll :=
  { e with registrations := Function.update e.registrations fd reg }

namespace Jea9Linux

variable (jos : Jea9Linux) (env : Env)

def allocFD (fd : FD) : Fd × Jea9Linux :=
  (jos.nextFD, { jos with nextFD := jos.nextFD + 1, fds := Function.update jos.fds jos.nextFD (some fd) })

def epollOf (fd : Fd) : Option Nat :=
  match jos.fds fd with
  | none => none
  | some f => if f.kind = .epoll then f.epoll else none

def setEpoll (ep : Nat) (e : Epoll) : Jea9Linux := { jos with epolls := Function.update jos.epolls ep e }

def setRegistration (ep : Nat) (fd : Fd) (reg : Option EpollRegistration) : Jea9Linux :=
  jos.setEpoll ep ((jos.epolls ep).withRegistration fd reg)

/-- the bytes in the pipe behind a descriptor -/
def pipeBuf (f : FD) : Option (List (BitVec 8)) := f.pipe.map fun p => (jos.pipes p).buf

def fdReadyEvents (fd : Fd) : BitVec 32 :=
  match jos.fds fd with
  | none => 0
  | some f =>
    match f.kind with
    | .eventfd => if f.eventfdCounter ≠ 0 then epollOut ||| epollIn else epollOut
    | .pipeRead =>
      match jos.pipeBuf f with
      | some buf => if buf.length > 0 then epollIn else 0
      | none => 0
    | .pipeWrite =>
      match jos.pipeBuf f with
      | some buf => if buf.length < pipeCapacity then epollOut else 0
      | none => 0
    | .stdout | .stderr => epollOut
    | .socket => env.socketReady jos fd
    | _ => 0

/-- the events to report; an edge-triggered registration reports what was not ready before and
remembers what is ready now -/
def epollReadyForRegistration (epfd fd : Fd) (reg : EpollRegistration) : BitVec 32 × Jea9Linux :=
  let ready := jos.fdReadyEvents env fd &&& reg.events
  if reg.events &&& epollET = 0 then (ready, jos)
  else
    (andNot ready reg.lastReady,
      match jos.epollOf epfd with
      | none => jos
      | some ep => jos.setRegistration ep fd (some { reg with lastReady := ready }))

/-- a registration of `fd` forgets that these events were ready; an instance that no descriptor points to any more is
changed too, but out of reach -/
def clearEpollReadyBitsForFD (fd : Fd) (bits : BitVec 32) : Jea9Linux :=
  let forget (reg : EpollRegistration) := { reg with lastReady := andNot reg.lastReady bits }
  { jos with epolls := fun ep =>
      (jos.epolls ep).withRegistration fd (((jos.epolls ep).registrations fd).map forget) }

/-- the context of `tid`, if it waits in `epoll_pwait` -/
def epollWaiter (tid : Tid) : Option Context :=
  match jos.contexts tid with
  | none => none
  | some ctx => if ctx.state = .waiting ∧ ctx.waitKind = .epoll then some ctx else none

/-- the descriptor that the context waits for has a registration of `fd` -/
def watches (ctx : Context) (fd : Fd) : Bool :=
  match (jos.fds ctx.waitFD).bind FD.epoll with
  | none => false
  | some ep => ((jos.epolls ep).registrations fd).isSome

end Jea9Linux

/-! ## Collecting events -/

def storeEpollEvent (addr : BitVec 64) (events : BitVec 32) (data : BitVec 64) : Call Unit := do
  Call.mem errEFAULT (GuestMemory.store32 addr events)
  Call.mem errEFAULT (GuestMemory.store32 (addr + 4) 0)
  Call.mem errEFAULT (GuestMemory.writeBytes (addr + 8) (leBytes data))

def loadEpollEvent (addr : BitVec 64) : Call EpollRegistration := do
  let events ← Call.mem errEFAULT (GuestMemory.load32 addr)
  let raw ← Call.mem errEFAULT (GuestMemory.readBytes (addr + 8) 8)
  pure { events := events, data := ofLeBytes raw, lastReady := 0 }

/-- the loop of `epollCollectReady` over the descriptors that are left -/
def collectReady (env : Env) (epfd : Fd) (ep : Nat) (eventsAddr maxEvents : BitVec 64) :
    List Fd → Nat → Call Nat
  | [], count => pure count
  | fd :: rest, count => fun s =>
    if BitVec.ofNat 64 count ≥ maxEvents then (.ok count, s)
    else
      match (s.jos.epolls ep).registrations fd with
      | none => collectReady env epfd ep eventsAddr maxEvents rest count s
      | some reg =>
        let r := s.jos.epollReadyForRegistration env epfd fd reg
        let s := { s with jos := r.2 }
        if r.1 = 0 then collectReady env epfd ep eventsAddr maxEvents rest count s
        else
          (do
            storeEpollEvent (eventsAddr + BitVec.ofNat 64 count * epollEventSize) r.1 reg.data
            collectReady env epfd ep eventsAddr maxEvents rest (count + 1) : Call Nat) s

/-- write the events that are ready to the guest's buffer and count them -/
def epollCollectReady (env : Env) (epfd : Fd) (eventsAddr maxEvents : BitVec 64) : Call Nat := fun s =>
  if maxEvents = 0 then (.error errEINVAL, s)
  else
    match s.jos.epollOf epfd with
    | none => (.error errEBADF, s)
    | some ep => collectReady env epfd ep eventsAddr maxEvents (s.jos.epolls ep).order 0 s

namespace Sys

variable (env : Env)

/-- wake a context that waits in `epoll_pwait` if there is something to report to it -/
def wakeIfReady (tid : Tid) (ctx : Context) (s : Sys) : Sys :=
  match epollCollectReady env ctx.waitFD ctx.waitEventAddr ctx.waitMaxEvents s with
  | (.error errno, s) => s.mapJos fun jos => jos.markRunnable tid errno
  | (.ok n, s) => if n > 0 then s.mapJos fun jos => jos.markRunnable tid (BitVec.ofNat 64 n) else s

def wakeEpollWaitersForFD (fd : Fd) (s : Sys) : Sys :=
  (env.order s.jos).foldl (fun s tid =>
    match s.jos.epollWaiter tid with
    | none => s
    | some ctx => if s.jos.watches ctx fd then s.wakeIfReady env tid ctx else s) s

def refreshEpollReadiness (s : Sys) : Sys :=
  (env.order s.jos).foldl (fun s tid =>
    match s.jos.epollWaiter tid with
    | none => s
    | some ctx => s.wakeIfReady env tid ctx) s

def applyExternalEvent (s : Sys) : ExternalEvent → Sys
  | .dropped => s
  | .accepted fd => (s.mapJos fun jos => jos.clearEpollReadyBitsForFD fd epollIn).wakeEpollWaitersForFD env fd
  | .arrived fd => s.wakeEpollWaitersForFD env fd

def drainExternalEvents (s : Sys) : Sys :=
  match s.jos.timeMode with
  | .hermitTime => s
  | .realTime => (env.events s.jos).foldl (applyExternalEvent env) s

end Sys

end RiscvEmu.Linux
