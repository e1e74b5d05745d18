/-
The system calls on descriptors (`jea9linux.go`, `jea9linux_fs.go`): eventfds, pipes, epoll instances, and `read` and
`write` over them.

Files, sockets, memory mapping and process data are answered by `Services`: what such a call returns is left open, and
it changes guest memory, descriptors and mappings only, apart from the waiters of sockets that a write to a socket
wakes.

A length beyond guest memory ends with `EFAULT` here. The source allocates the buffer of a `write` before it looks
(`make([]byte, int(n))`), which panics for a length beyond what the runtime allocates.
-/
import RiscvEmu.Linux.Signal

namespace RiscvEmu.Linux

open GuestMemory Exec Function Call BitVec

structure SyscallArgs where
  num : BitVec 64
  a0 : BitVec 64
  a1 : BitVec 64
  a2 : BitVec 64
  a3 : BitVec 64
  a4 : BitVec 64
  a5 : BitVec 64
deriving DecidableEq, Repr

/-- what the personality asks of its files, sockets, mappings and process data -/
inductive Request
  | call (args : SyscallArgs)
  | read (fd : Fd) (bufAddr n : BitVec 64)
  | write (fd : Fd) (bufAddr n : BitVec 64)
deriving DecidableEq, Repr

/-- nothing about threads, waits, signals and the scheduler has changed; only real time goes on -/
def Jea9Linux.SameThreads (jos jos' : Jea9Linux) : Prop :=
  jos' = { jos with
    fds := jos'.fds, nextFD := jos'.nextFD, epolls := jos'.epolls, nextEpoll := jos'.nextEpoll
    pipes := jos'.pipes, nextPipe := jos'.nextPipe, vm := jos'.vm, monotonicNS := jos'.monotonicNS
    realReads := jos'.realReads } ∧
  (jos.timeMode = .hermitTime → jos'.monotonicNS = jos.monotonicNS)

/-- the threads of the personality are as they were, and of the hart only memory has changed -/
def Sys.SameThreads (s s' : Sys) : Prop :=
  s.jos.SameThreads s'.jos ∧ s'.cpu = { s.cpu with mem := s'.cpu.mem }

structure Services where
  answer : Request → Sys → BitVec 64 × Sys
  answer_keeps : ∀ (r : Request) (s : Sys), s.SameThreads (answer r s).2
  /-- the sockets whose waiters are looked at afterwards -/
  wakes : Request → Sys → List Fd

section Calls

variable (env : Env) (sv : Services)

/-- a request, and the waking of the waiters of sockets -/
def serve (r : Request) : Call (BitVec 64) := fun s =>
  let answer := sv.answer r s
  (.ok answer.1, (sv.wakes r s).foldl (fun s fd => s.wakeEpollWaitersForFD env fd) answer.2)

def sysEventfd2 (init flags : BitVec 64) : Call (BitVec 64) := fun s =>
  if andNot flags (efdSemaphore ||| fdNonblock ||| fdCloexec) ≠ 0 ∨ init = allOnes 64 then (.error errEINVAL, s)
  else
    let r := s.jos.allocFD { kind := .eventfd, flags := flags, eventfdCounter := init, epoll := none, pipe := none }
    (.ok r.1, { s with jos := r.2 })

def sysEpollCreate1 (flags : BitVec 64) : Call (BitVec 64) := fun s =>
  if andNot flags fdCloexec ≠ 0 then (.error errEINVAL, s)
  else
    let ep := s.jos.nextEpoll
    let jos := { s.jos.setEpoll ep { registrations := fun _ => none, order := [] } with nextEpoll := ep + 1 }
    let r := jos.allocFD { kind := .epoll, flags := flags, eventfdCounter := 0, epoll := some ep, pipe := none }
    (.ok r.1, { s with jos := r.2 })

/-- the three operations of `epoll_ctl` on the registration of `fd` -/
def changeRegistration (ep : Nat) (op : BitVec 64) (fd : Fd) (eventAddr : BitVec 64) : Call (BitVec 64) := do
  let e ← gets fun s => s.jos.epolls ep
  let registered := (e.registrations fd).isSome
  if op = 1 then
    failIf registered errEEXIST
    let reg ← loadEpollEvent eventAddr
    Exec.modify fun s => s.mapJos fun jos =>
      jos.setEpoll ep { e.withRegistration fd (some reg) with order := e.order ++ [fd] }
    pure 0
  else if op = 3 then
    failIf (!registered) errENOENT
    let reg ← loadEpollEvent eventAddr
    Exec.modify fun s => s.mapJos fun jos => jos.setRegistration ep fd (some reg)
    pure 0
  else if op = 2 then
    failIf (!registered) errENOENT
    Exec.modify fun s => s.mapJos fun jos =>
      jos.setEpoll ep { e.withRegistration fd none with order := e.order.erase fd }
    pure 0
  else Exec.fail errEINVAL

def sysEpollCtl (epfd op fd eventAddr : BitVec 64) : Call (BitVec 64) := fun s =>
  match s.jos.epollOf epfd, s.jos.fds fd with
  | some ep, some _ => changeRegistration ep op fd eventAddr s
  | _, _ => (.error errEBADF, s)

/-! ## Eventfds and pipes -/

def Call.clearReady (fd : Fd) : Call Unit :=
  Exec.modify fun s => s.mapJos fun jos => jos.clearEpollReadyBitsForFD fd epollIn

def Call.setFD (fd : Fd) (f : Option FD) : Call Unit :=
  Exec.modify fun s => s.mapJos fun jos => { jos with fds := update jos.fds fd f }

def Call.setPipeBuf (p : Nat) (buf : List (BitVec 8)) : Call Unit :=
  Exec.modify fun s => s.mapJos fun jos =>
    { jos with pipes := update jos.pipes p { jos.pipes p with buf := buf } }

def sysEventfdRead (fd : Fd) (f : FD) (bufAddr n : BitVec 64) : Call (BitVec 64) := do
  failIf (n < 8) errEINVAL
  when (f.eventfdCounter = 0) do
    clearReady fd
    Exec.fail errEAGAIN
  let semaphore := f.flags &&& efdSemaphore ≠ 0
  let value := if semaphore then 1 else f.eventfdCounter
  let f := { f with eventfdCounter := if semaphore then f.eventfdCounter - 1 else 0 }
  mem errEFAULT (GuestMemory.store64 bufAddr value)
  setFD fd (some f)
  when (f.eventfdCounter = 0) (clearReady fd)
  pure 8

def sysEventfdWrite (fd : Fd) (f : FD) (bufAddr n : BitVec 64) : Call (BitVec 64) := do
  failIf (n < 8) errEINVAL
  let value ← mem errEFAULT (GuestMemory.load64 bufAddr)
  failIf (value = allOnes 64 ∨ f.eventfdCounter > allOnes 64 - 1 - value) errEAGAIN
  setFD fd (some { f with eventfdCounter := f.eventfdCounter + value })
  Exec.modify fun s => s.wakeEpollWaitersForFD env fd
  pure 8

def sysPipeRead (fd : Fd) (f : FD) (bufAddr n : BitVec 64) : Call (BitVec 64) :=
  match f.pipe with
  | none => Exec.fail errEBADF
  | some p => do
    let buf ← gets fun s => (s.jos.pipes p).buf
    when (buf.length = 0) do
      clearReady fd
      Exec.fail errEAGAIN
    let count := min n.toNat buf.length
    mem errEFAULT (writeBytes bufAddr (buf.take count))
    setPipeBuf p (buf.drop count)
    when ((buf.drop count).length = 0) (clearReady fd)
    pure (BitVec.ofNat 64 count)

def sysPipeWrite (f : FD) (bufAddr n : BitVec 64) : Call (BitVec 64) :=
  match f.pipe with
  | none => Exec.fail errEBADF
  | some p => do
    let buf ← gets fun s => (s.jos.pipes p).buf
    failIf (pipeCapacity - buf.length = 0) errEAGAIN
    let count := min n.toNat (pipeCapacity - buf.length)
    let data ← mem errEFAULT (readBytes bufAddr count)
    setPipeBuf p (buf ++ data)
    Exec.modify fun s => s.wakeEpollWaitersForFD env (s.jos.pipes p).readFD
    pure (BitVec.ofNat 64 count)

/-- the numbers of the two ends of a pipe, written to guest memory; if that fails the ends are closed -/
def storePipeFDs (pipefdAddr : BitVec 64) (readFD writeFD : Fd) : Call Unit := fun s =>
  match (do
    mem errEFAULT (GuestMemory.store32 pipefdAddr (readFD.setWidth 32))
    mem errEFAULT (GuestMemory.store32 (pipefdAddr + 4) (writeFD.setWidth 32)) : Call Unit) s with
  | (.ok (), s) => (.ok (), s)
  | (.error errno, s) =>
    (do
      setFD readFD none
      setFD writeFD none
      Exec.fail errno : Call Unit) s

def sysPipe2 (pipefdAddr flags : BitVec 64) : Call (BitVec 64) := do
  failIf (andNot flags (fdNonblock ||| fdCloexec) ≠ 0) errEINVAL
  let p ← gets fun s => s.jos.nextPipe
  let readFD ← gets fun s => s.jos.nextFD
  let pipeEnd (kind : FDKind) : FD :=
    { kind := kind, flags := flags, eventfdCounter := 0, epoll := none, pipe := some p }
  Exec.modify fun s => s.mapJos fun jos =>
    { ((jos.allocFD (pipeEnd .pipeRead)).2.allocFD (pipeEnd .pipeWrite)).2 with
      nextPipe := p + 1, pipes := update jos.pipes p { buf := [], readFD := readFD, writeFD := readFD + 1 } }
  storePipeFDs pipefdAddr readFD (readFD + 1)
  pure 0

/-! ## Reading and writing -/

def sysRead (fd : Fd) (bufAddr n : BitVec 64) : Call (BitVec 64) := fun s =>
  match s.jos.fds fd with
  | none => (.error errEBADF, s)
  | some f =>
    if n = 0 then (.ok 0, s)
    else if n ≥ 1#64 <<< 63 then (.error errEINVAL, s)
    else
      match f.kind with
      | .stdin | .random | .file | .hostFile | .socket => serve env sv (.read fd bufAddr n) s
      | .eventfd => sysEventfdRead fd f bufAddr n s
      | .pipeRead => sysPipeRead fd f bufAddr n s
      | .dir => (.error errEISDIR, s)
      | .stdout | .stderr | .epoll | .pipeWrite => (.error errEBADF, s)

def sysWrite (fd : Fd) (bufAddr n : BitVec 64) : Call (BitVec 64) := fun s =>
  match s.jos.fds fd with
  | none => (.error errEBADF, s)
  | some f =>
    if n = 0 then (.ok 0, s)
    else if n ≥ 1#64 <<< 63 then (.error errEINVAL, s)
    else
      (do
        let _ ← mem errEFAULT (readBytes bufAddr n.toNat)
        match f.kind with
        | .stdout | .stderr | .hostFile | .socket => serve env sv (.write fd bufAddr n)
        | .eventfd => sysEventfdWrite env fd f bufAddr n
        | .pipeWrite => sysPipeWrite env f bufAddr n
        | .stdin | .random | .file | .epoll | .pipeRead | .dir => Exec.fail errEBADF : Call (BitVec 64)) s

/-- the buffers that `readv` and `writev` name -/
def loadIovecs (addr : BitVec 64) : List Nat → Call (List (BitVec 64 × BitVec 64))
  | [] => pure []
  | i :: rest => do
    let base ← mem errEFAULT (GuestMemory.load64 (addr + BitVec.ofNat 64 i * 16))
    let length ← mem errEFAULT (GuestMemory.load64 (addr + BitVec.ofNat 64 i * 16 + 8))
    failIf (length ≥ 1#64 <<< 63) errEINVAL
    let iovs ← loadIovecs addr rest
    pure ((base, length) :: iovs)

/-- the buffers one after the other, until one is refused or transferred in part only -/
def transferIovecs (transfer : BitVec 64 → BitVec 64 → Call (BitVec 64)) :
    List (BitVec 64 × BitVec 64) → BitVec 64 → Call (BitVec 64)
  | [], total => pure total
  | (base, length) :: rest, total => fun s =>
    if length = 0 then transferIovecs transfer rest total s
    else
      let r := (transfer base length).result s
      if r.1.slt 0 then (.ok (if 0 < total.toInt then total else r.1), r.2)
      else if r.1 < length then (.ok (total + r.1), r.2)
      else transferIovecs transfer rest (total + r.1) r.2

/-- the common body of `sysReadv` and `sysWritev` -/
def vectored (transfer : BitVec 64 → BitVec 64 → Call (BitVec 64)) (iovAddr iovcnt : BitVec 64) : Call (BitVec 64) := do
  failIf (iovcnt > 1024) errEINVAL
  let iovs ← loadIovecs iovAddr (List.range iovcnt.toNat)
  transferIovecs transfer iovs 0

def sysReadv (fd : Fd) (iovAddr iovcnt : BitVec 64) : Call (BitVec 64) := vectored (sysRead env sv fd) iovAddr iovcnt
def sysWritev (fd : Fd) (iovAddr iovcnt : BitVec 64) : Call (BitVec 64) := vectored (sysWrite env sv fd) iovAddr iovcnt

end Calls

end RiscvEmu.Linux
