/-
Signals (`jea9linux.go`): actions, masks, pending signals, the frames that handlers run on and the return from them.

A delivery saves the interrupted registers twice, in a frame in guest memory and in `signalFrames`; the return takes
the integer registers, the pc and the mask from guest memory and the rest from `signalFrames`.
-/
import RiscvEmu.Linux.Epoll

namespace RiscvEmu.Linux

open GuestMemory Exec Call List BitVec

/-! ## Pages -/

def guestPageSize : BitVec 64 := 4096

def protRead : BitVec 64 := 1
def protWrite : BitVec 64 := 2
def protExec : BitVec 64 := 4
def protMask : BitVec 64 := protRead ||| protWrite ||| protExec
def pageMapped : BitVec 64 := 1#64 <<< 63

def alignDown (v : BitVec 64) : BitVec 64 := andNot v (guestPageSize - 1)
def alignUp (v : BitVec 64) : BitVec 64 := andNot (v + guestPageSize - 1) (guestPageSize - 1)

def protAllows (prot : BitVec 64) : FaultKind → Bool
  | .store => prot &&& protWrite ≠ 0
  | .fetch => prot &&& protExec ≠ 0
  | _ => prot &&& protRead ≠ 0

namespace VM

variable (vm : VM)

/-- page 0 is never accessible; a page nobody has mapped is -/
def protOf (page : BitVec 64) : BitVec 64 :=
  if page = 0 then 0
  else
    match vm.pages page with
    | none => protMask
    | some p => if p &&& pageMapped = 0 then 0 else p &&& protMask

/-- the numbers of the pages from `first` up to `last` -/
def pageRange (first last : BitVec 64) : List (BitVec 64) :=
  (range (last.toNat + 1 - first.toNat)).map fun i => first + BitVec.ofNat 64 i

def checkGuestAccess (addr width : BitVec 64) (kind : FaultKind) : Option MemFault :=
  if width = 0 then none
  else if addr + width < addr ∨ addr + width > vm.guestSize then some { addr := addr, width := width, kind := kind }
  else if (pageRange (addr / guestPageSize) ((addr + width - 1) / guestPageSize)).all
      fun page => protAllows (vm.protOf page) kind then none
  else some { addr := addr, width := width, kind := kind }

/-- the personality as the overlay of guest memory -/
def overlay : AccessOverlay where
  checkGuestAccess addr width kind _ := vm.checkGuestAccess addr width kind
  reports addr width kind _ f h := by
    unfold checkGuestAccess at h
    split_ifs at h <;> exact (Option.some.inj h).symm

def rangeFree (addr length : BitVec 64) : Bool :=
  let first := alignDown addr / guestPageSize
  let past := alignUp (addr + length) / guestPageSize
  (range (past.toNat - first.toNat)).all fun i =>
    match vm.pages (first + BitVec.ofNat 64 i) with
    | none => true
    | some state => state &&& pageMapped = 0

/-- the first free range from `addr` on; `fuel` pages are looked at -/
def allocLoop (length limit : BitVec 64) : Nat → BitVec 64 → Option (BitVec 64)
  | 0, _ => none
  | fuel + 1, addr =>
    if addr + length < addr ∨ addr + length > limit then none
    else if addr ≥ guestPageSize ∧ vm.rangeFree addr length then some addr
    else allocLoop length limit fuel (addr + guestPageSize)

/-- a free range above `mmapNext`; there are no more than `guestSize / 4096` pages to look at -/
def allocRange (length : BitVec 64) : Option (BitVec 64) × VM :=
  if vm.guestSize ≤ 2 * guestPageSize then (none, vm)
  else
    let limit := alignDown (vm.guestSize - 2 * guestPageSize)
    match vm.allocLoop length limit ((vm.guestSize / guestPageSize).toNat + 1) (alignUp vm.mmapNext) with
    | none => (none, vm)
    | some addr => (some addr, { vm with mmapNext := addr + length })

def mapRange (addr length prot : BitVec 64) : VM :=
  let covers (page : BitVec 64) : Bool :=
    alignDown addr / guestPageSize ≤ page ∧ page < alignUp (addr + length) / guestPageSize
  if length = 0 then vm
  else { vm with
    pages := fun page => if covers page then some (pageMapped ||| (prot &&& protMask)) else vm.pages page }

end VM

/-! ## Actions and masks -/

def sigSEGV : BitVec 64 := 11
def saSiginfo : BitVec 64 := 0x4
def saOnstack : BitVec 64 := 0x08000000
def ssDisable : BitVec 64 := 2
def ssAutoDisarm : BitVec 64 := 1#64 <<< 31

def signalFrameSize : BitVec 64 := 2048
def signalFrameSiginfoOff : BitVec 64 := 128
def signalFrameUctxOff : BitVec 64 := 256
def ucontextSigmaskOff : BitVec 64 := 40
def ucontextMContextOff : BitVec 64 := 176

def signalValid (sig : BitVec 64) : Bool := 0 < sig ∧ sig ≤ 64

def signalBit (sig : BitVec 64) : BitVec 64 := if sig = 0 ∨ sig > 64 then 0 else 1#64 <<< (sig.toNat - 1)

/-- neither the default action nor `SIG_IGN` -/
def SignalAction.hasHandler (a : SignalAction) : Bool := a.handler ≠ 0 ∧ a.handler ≠ 1

def loadSignalAction (addr : BitVec 64) : Call SignalAction := do
  let handler ← mem errEFAULT (GuestMemory.load64 addr)
  let flags ← mem errEFAULT (GuestMemory.load64 (addr + 8))
  let third ← mem errEFAULT (GuestMemory.load64 (addr + 16))
  let fourth ← mem errEFAULT (GuestMemory.load64 (addr + 24))
  if flags &&& saSiginfo ≠ 0 ∧ third ≠ 0 ∧ fourth = 0 then
    pure { handler := handler, flags := flags, restorer := fourth, mask := third }
  else pure { handler := handler, flags := flags, restorer := third, mask := fourth }

def storeSignalAction (addr : BitVec 64) (action : SignalAction) : Call Unit := do
  mem errEFAULT (GuestMemory.store64 addr action.handler)
  mem errEFAULT (GuestMemory.store64 (addr + 8) action.flags)
  mem errEFAULT (GuestMemory.store64 (addr + 16) action.restorer)
  mem errEFAULT (GuestMemory.store64 (addr + 24) action.mask)

/-- change the context of `tid` -/
def Call.modifyContext (tid : Tid) (f : Context → Context) : Call Unit :=
  Exec.modify fun s => s.mapJos fun jos => jos.modifyContext tid f

def sysRtSigaction (sig actAddr oldAddr sigsetSize : BitVec 64) : Call (BitVec 64) := do
  failIf (!signalValid sig ∨ sigsetSize ≠ 8) errEINVAL
  let old ← gets fun s => s.jos.signalActions sig
  when (oldAddr ≠ 0) (storeSignalAction oldAddr old)
  when (actAddr ≠ 0) do
    let action ← loadSignalAction actAddr
    Exec.modify fun s => s.mapJos fun jos => { jos with signalActions := Function.update jos.signalActions sig action }
  pure 0

/-! ## Frames -/

/-- what the frame holds of the registers: the pc, then `x1` to `x31` -/
def signalRegs (snap : CPUSnapshot) (i : BitVec 5) : BitVec 64 := if i = 0 then snap.pc else snap.x i

/-- a word for every register, in order -/
def forRegs {α : Type} (f : BitVec 5 → Call α) : Call Unit :=
  (finRange 32).forM fun i => do
    let _ ← f (ofFin i)

def regSlot (base : BitVec 64) (i : BitVec 5) : BitVec 64 := base + i.setWidth 64 * 8

def storeSignalUContext (addr : BitVec 64) (snap : CPUSnapshot) (mask : BitVec 64) : Call Unit := do
  mem errEFAULT (GuestMemory.store64 (addr + ucontextSigmaskOff) mask)
  forRegs fun i =>
    mem errEFAULT (GuestMemory.store64 (regSlot (addr + ucontextMContextOff) i) (signalRegs snap i))

/-- the words of the registers from number `i` on -/
def loadRegs (base : BitVec 64) : List (Fin 32) → (BitVec 5 → BitVec 64) → Call (BitVec 5 → BitVec 64)
  | [], regs => pure regs
  | i :: rest, regs => do
    let v ← mem errEFAULT (GuestMemory.load64 (regSlot base (ofFin i)))
    loadRegs base rest (Function.update regs (ofFin i) v)

def loadSignalUContext (addr : BitVec 64) (fallback : CPUSnapshot) : Call (CPUSnapshot × BitVec 64) := do
  let mask ← mem errEFAULT (GuestMemory.load64 (addr + ucontextSigmaskOff))
  let regs ← loadRegs (addr + ucontextMContextOff) (finRange 32) fun _ => 0
  pure ({ fallback with pc := regs 0, x := fun i => if i = 0 then 0 else regs i }, mask)

def storeSignalInfo (addr : BitVec 64) (info : SignalInfo) : Call Unit := do
  mem errEFAULT (GuestMemory.store32 addr (info.signo.setWidth 32))
  mem errEFAULT (GuestMemory.store32 (addr + 4) 0)
  mem errEFAULT (GuestMemory.store32 (addr + 8) info.code)
  when (info.addr ≠ 0) (mem errEFAULT (GuestMemory.store64 (addr + 16) info.addr))
  when (info.addr = 0) do
    mem errEFAULT (GuestMemory.store32 (addr + 16) (info.pid.setWidth 32))
    mem errEFAULT (GuestMemory.store32 (addr + 20) (info.uid.setWidth 32))
  mem errEFAULT (GuestMemory.store64 (addr + 24) info.addr)

/-- below the megabyte at the end of guest memory -/
def defaultSignalStackTop (m : GuestMemory) : BitVec 64 :=
  if m.size ≤ 0x100000 + guestPageSize then m.size else m.size - 0x100000

/-- where the stack of a handler starts: on the alternate stack if the action asks for it and there is one, even if the
thread runs on it already -/
def signalStackTop (jos : Jea9Linux) (ctx : Context) (snap : CPUSnapshot) (signo : BitVec 64) : BitVec 64 :=
  if ctx.sigaltFlags &&& ssDisable = 0 ∧ ctx.sigaltSP ≠ 0 ∧ ctx.sigaltSize ≥ signalFrameSize ∧
      (jos.signalActions signo).flags &&& saOnstack ≠ 0 then ctx.sigaltSP + ctx.sigaltSize
  else snap.x 2

/-- below a frame there has to be a stack; where there is none the default one is taken -/
def frameStackTop (s : Sys) (ctx : Context) (snap : CPUSnapshot) (signo : BitVec 64) : BitVec 64 :=
  let top := signalStackTop s.jos ctx snap signo
  if top < signalFrameSize then defaultSignalStackTop s.cpu.mem else top

/-- the frame below `stackTop`, on a multiple of 16 -/
def frameBelow (stackTop : BitVec 64) : BitVec 64 := andNot (stackTop - signalFrameSize) 15

def writeFrameAt (frameSP mask : BitVec 64) (snap : CPUSnapshot) (info : SignalInfo) : Call Unit := do
  mem errEFAULT (zero frameSP signalFrameSize)
  storeSignalInfo (frameSP + signalFrameSiginfoOff) info
  storeSignalUContext (frameSP + signalFrameUctxOff) snap mask

def writeSignalFrame (ctx : Context) (snap : CPUSnapshot) (info : SignalInfo) : Call (BitVec 64) := do
  let stackTop ← gets fun s => frameStackTop s ctx snap info.signo
  failIf (stackTop < signalFrameSize) errEFAULT
  writeFrameAt (frameBelow stackTop) ctx.signalMask snap info
  pure (frameBelow stackTop)

def sysRtSigreturnNum : BitVec 64 := 139

def encodeADDI (rd rs1 imm : BitVec 32) : BitVec 32 :=
  ((imm &&& 0xfff) <<< 20) ||| (rs1 <<< 15) ||| (rd <<< 7) ||| 0x13

def Sys.setVM (s : Sys) (vm : VM) : Sys :=
  { jos := { s.jos with vm := vm }, cpu := { s.cpu with mem := { s.cpu.mem with accessOverlay := some vm.overlay } } }

/-- the page with the code that returns from a handler, made when it is first needed -/
def ensureSignalRestorer : Call (BitVec 64) := fun s =>
  if s.jos.signalRestorer ≠ 0 then (.ok s.jos.signalRestorer, s)
  else
    match s.jos.vm.allocRange guestPageSize with
    | (none, vm) => (.error errENOMEM, s.setVM vm)
    | (some addr, vm) =>
      (do
        mem errENOMEM (zero addr guestPageSize)
        mem errENOMEM (GuestMemory.store32 addr (encodeADDI 17 0 (sysRtSigreturnNum.setWidth 32)))
        mem errENOMEM (GuestMemory.store32 (addr + 4) 0x00000073)
        Exec.modify fun s => s.setVM (s.jos.vm.mapRange addr guestPageSize (protRead ||| protExec))
        Exec.modify fun s => s.mapJos fun jos => { jos with signalRestorer := addr }
        pure addr : Call (BitVec 64)) (s.setVM vm)

def restorerOf (action : SignalAction) : Call (BitVec 64) :=
  if action.restorer = 0 then ensureSignalRestorer else pure action.restorer

/-! ## The table of frames -/

namespace Jea9Linux

variable (jos : Jea9Linux)

def setSignalFrame (key : SignalFrameKey) (frame : SignalFrame) : Jea9Linux :=
  { jos with signalFrames := (key, frame) :: jos.signalFrames.filter fun e => e.1 ≠ key }

def deleteSignalFrame (key : SignalFrameKey) : Jea9Linux :=
  { jos with signalFrames := jos.signalFrames.filter fun e => e.1 ≠ key }

/-- the frame with the lower stack pointer -/
def lowerFrame (best : Option (SignalFrameKey × SignalFrame)) (e : SignalFrameKey × SignalFrame) :
    Option (SignalFrameKey × SignalFrame) :=
  match best with
  | none => some e
  | some b => if e.1.sp < b.1.sp then some e else some b

/-- the frame of the thread at its stack pointer, or else the next one above it -/
def findSignalFrame (tid : Tid) (currentSP : BitVec 64) : Option (SignalFrameKey × SignalFrame) :=
  match jos.signalFrames.find? fun e => e.1 = { tid := tid, sp := currentSP } with
  | some e => some e
  | none => (jos.signalFrames.filter fun e => e.1.tid = tid ∧ currentSP ≤ e.1.sp).foldl lowerFrame none

end Jea9Linux

/-! ## Delivery and return -/

/-- the registers that a signal interrupts: inside a system call the thread goes on behind it -/
def interruptedSnapshot (s : Sys) (ctx : Context) : CPUSnapshot :=
  if ctx.tid = s.jos.currentTID then
    let snap := snapshotCPU s.cpu
    if s.jos.activeEcallTrap.active ∧ snap.pc = s.jos.activeEcallTrap.trapPC then
      { snap with pc := s.jos.activeEcallTrap.resumePC }
    else snap
  else if ctx.syscallTrap.active ∧ ctx.snapshot.pc = ctx.syscallTrap.trapPC then
    { ctx.snapshot with pc := ctx.syscallTrap.resumePC }
  else ctx.snapshot

/-- the registers a handler starts with -/
def handlerSnapshot (snap : CPUSnapshot) (sig frameSP restorer handler : BitVec 64) : CPUSnapshot :=
  { (((((snap.setX 1 restorer).setX 2 frameSP).setX 10 sig).setX 11 (frameSP + signalFrameSiginfoOff)).setX 12
      (frameSP + signalFrameUctxOff)).setX 0 0 with pc := handler }

/-- the thread leaves whatever it waits for and runs the handler -/
def enterHandler (tid : Tid) (snap : CPUSnapshot) (blockedSignals : BitVec 64) (s : Sys) : Sys :=
  let jos := s.jos.modifyContext tid fun c => { c with signalMask := c.signalMask ||| blockedSignals }
  let jos := (jos.cancelContextWait tid).modifyContext tid fun c =>
    { c with state := .runnable, syscallTrap := .idle, snapshot := snap }
  { jos := jos, cpu := if tid = s.jos.currentTID then restoreCPU s.cpu snap else s.cpu }

def deliverSignal (ctx : Context) (sig : BitVec 64) (info : SignalInfo) (action : SignalAction) : Call Unit := do
  let snap ← gets fun s => interruptedSnapshot s ctx
  let frameSP ← writeSignalFrame ctx snap info
  Exec.modify fun s => s.mapJos fun jos =>
    jos.setSignalFrame { tid := ctx.tid, sp := frameSP } { snapshot := snap, signalMask := ctx.signalMask }
  let restorer ← restorerOf action
  Exec.modify (enterHandler ctx.tid (handlerSnapshot snap sig frameSP restorer action.handler)
    (action.mask ||| signalBit sig))

def Jea9Linux.setPending (jos : Jea9Linux) (tid : Tid) (signals : List PendingSignal) : Jea9Linux :=
  jos.modifyContext tid fun c => { c with pendingSignals := signals }

/-- deliver the signal, keep it for later or drop it; whether it was delivered -/
def signalContext (ctx : Context) (sig : BitVec 64) (info : SignalInfo) : Call Bool := fun s =>
  if signalBit sig = 0 then (.error errEINVAL, s)
  else if ctx.signalMask &&& signalBit sig ≠ 0 then
    (.ok false, s.mapJos fun jos => jos.setPending ctx.tid (ctx.pendingSignals ++ [{ sig := sig, info := info }]))
  else if !(s.jos.signalActions sig).hasHandler then (.ok false, s)
  else
    (do
      deliverSignal ctx sig info (s.jos.signalActions sig)
      pure true : Call Bool) s

/-- the loop of `deliverPendingSignals`: `kept` are the blocked signals met so far -/
def deliverPending (ctx : Context) : List PendingSignal → List PendingSignal → Call Bool
  | kept, [] => fun s => (.ok false, s.mapJos fun jos => jos.setPending ctx.tid kept)
  | kept, p :: rest => fun s =>
    if ctx.signalMask &&& signalBit p.sig ≠ 0 then deliverPending ctx (kept ++ [p]) rest s
    else if !(s.jos.signalActions p.sig).hasHandler then deliverPending ctx kept rest s
    else
      (do
        deliverSignal ctx p.sig p.info (s.jos.signalActions p.sig)
        pure true : Call Bool) (s.mapJos fun jos => jos.setPending ctx.tid (kept ++ rest))

/-- deliver the first pending signal that is not blocked and has a handler; unblocked ones without one are dropped on
the way -/
def deliverPendingSignals (ctx : Context) : Call Bool := deliverPending ctx [] ctx.pendingSignals

/-- the mask after `rt_sigprocmask`, if `how` is known -/
def nextSignalMask (how old mask : BitVec 64) : Option (BitVec 64) :=
  if how = 0 then some (old ||| mask)
  else if how = 1 then some (andNot old mask)
  else if how = 2 then some mask
  else none

/-- the new mask of the current thread: `EFAULT` if it cannot be read, `EINVAL` if `how` is unknown -/
def changeSignalMask (how setAddr : BitVec 64) : Call Unit :=
  when (setAddr ≠ 0) do
    let mask ← mem errEFAULT (GuestMemory.load64 setAddr)
    let next ← gets fun s => s.jos.current.bind fun ctx => nextSignalMask how ctx.signalMask mask
    match next with
    | none => Exec.fail errEINVAL
    | some next => Exec.modify fun s => s.mapJos fun jos => jos.modifyContext jos.currentTID fun c =>
        { c with signalMask := next }

/-! ## The system calls -/

/-- return `v` from the system call -/
def Sys.return (s : Sys) (v : BitVec 64) : NoteDisposition × Sys := (.handled, s.setReg 10 v)

/-- return `v` and save the registers in the current context -/
def Sys.returnSaved (s : Sys) (v : BitVec 64) : NoteDisposition × Sys := (.handled, (s.setReg 10 v).saveCurrent)

/-- a computation on the current context -/
def Call.onCurrent {α : Type} (f : Context → Call α) : Call α := fun s =>
  match s.jos.current with
  | none => (.error errESRCH, s)
  | some ctx => f ctx s

/-- the part of `rt_sigprocmask` that may fail -/
def prepareSigprocmask (how setAddr oldAddr sigsetSize : BitVec 64) : Call Unit := do
  failIf (sigsetSize ≠ 8) errEINVAL
  when (oldAddr ≠ 0)
    (onCurrent fun ctx => mem errEFAULT (GuestMemory.store64 oldAddr ctx.signalMask))
  changeSignalMask how setAddr

def sysRtSigprocmask (how setAddr oldAddr sigsetSize : BitVec 64) (s : Sys) : NoteDisposition × Sys :=
  match prepareSigprocmask how setAddr oldAddr sigsetSize s.ensureScheduler with
  | (.error errno, s) => s.return errno
  | (.ok (), s) =>
    match onCurrent deliverPendingSignals (s.setReg 10 0) with
    | (.error errno, s) => s.returnSaved errno
    | (.ok true, s) => (.handled, s)
    | (.ok false, s) => (.handled, s.saveCurrent)

def storeSigaltstack (addr sp flags size : BitVec 64) : Call Unit := do
  mem errEFAULT (GuestMemory.store64 addr sp)
  mem errEFAULT (GuestMemory.store32 (addr + 8) (flags.setWidth 32))
  mem errEFAULT (GuestMemory.store32 (addr + 12) 0)
  mem errEFAULT (GuestMemory.store64 (addr + 16) size)

def sysSigaltstack (newAddr oldAddr : BitVec 64) : Call (BitVec 64) := do
  when (oldAddr ≠ 0)
    (onCurrent fun ctx => storeSigaltstack oldAddr ctx.sigaltSP ctx.sigaltFlags ctx.sigaltSize)
  when (newAddr ≠ 0) do
    let sp ← mem errEFAULT (GuestMemory.load64 newAddr)
    let flags32 ← mem errEFAULT (GuestMemory.load32 (newAddr + 8))
    let size ← mem errEFAULT (GuestMemory.load64 (newAddr + 16))
    failIf (andNot (flags32.setWidth 64) (ssDisable ||| ssAutoDisarm) ≠ 0) errEINVAL
    onCurrent fun ctx => modifyContext ctx.tid fun c =>
      { c with sigaltSP := sp, sigaltFlags := flags32.setWidth 64, sigaltSize := size }
  Exec.modify Sys.saveCurrent
  pure 0

def signalTIDSyscall (tid sig : BitVec 64) (s : Sys) : NoteDisposition × Sys :=
  if !signalValid sig then s.return errEINVAL
  else
    let s := s.ensureScheduler
    match s.jos.contexts tid with
    | none => s.return errESRCH
    | some ctx =>
      if ctx.state = .exited then s.return errESRCH
      else
        let info := { signo := sig, code := 0, pid := s.jos.pid, uid := 0, addr := 0 }
        match signalContext ctx sig info s with
        | (.error errno, s) => s.return errno
        | (.ok delivered, s) =>
          if delivered ∧ ctx.tid = s.jos.currentTID then (.handled, s) else s.returnSaved 0

def sysKill (pid sig : BitVec 64) (s : Sys) : NoteDisposition × Sys :=
  if sig = 0 then s.return 0
  else if pid ≠ s.jos.pid then s.return errESRCH
  else signalTIDSyscall s.jos.currentTID sig s

def sysTkill (tid sig : BitVec 64) (s : Sys) : NoteDisposition × Sys :=
  if sig = 0 then s.return 0 else signalTIDSyscall tid sig s

def sysTgkill (pid tid sig : BitVec 64) (s : Sys) : NoteDisposition × Sys :=
  if sig = 0 then s.return 0
  else if pid ≠ s.jos.pid then s.return errESRCH
  else signalTIDSyscall tid sig s

/-- the end of a return from a handler: the frame is gone, mask and registers are back -/
def restoreFrame (key : SignalFrameKey) (snap : CPUSnapshot) (mask : BitVec 64) (s : Sys) : Sys :=
  let s := s.mapJos fun jos => (jos.deleteSignalFrame key).modifyContext jos.currentTID fun c =>
    { c with signalMask := mask, syscallTrap := .idle }
  Sys.saveCurrent { s with cpu := restoreCPU s.cpu snap }

def sysRtSigreturn (s : Sys) : NoteDisposition × Sys :=
  let s := s.ensureScheduler
  match s.jos.findSignalFrame s.jos.currentTID (s.cpu.x 2) with
  | none => s.return errEINVAL
  | some (key, frame) =>
    match loadSignalUContext (key.sp + signalFrameUctxOff) frame.snapshot s with
    | (.error errno, s) => s.return errno
    | (.ok (snap, mask), s) => (.handled, restoreFrame key snap mask s)

/-- the notes that become `SIGSEGV`: `n.Text` starts with `fault:`, or the cause is one of these -/
def noteIsFault (n : Note) : Bool :=
  n.text.startsWith "fault:" ∨ n.cause = causeInsnFault ∨ n.cause = causeLoadFault ∨ n.cause = causeStoreFault ∨
    n.cause = causeLoadMisalign ∨ n.cause = causeMisalignStore

def handleFaultSignal (n : Note) (s : Sys) : NoteDisposition × Sys :=
  if !(s.jos.signalActions sigSEGV).hasHandler then (.forward, s)
  else
    let s := s.ensureScheduler
    let info := { signo := sigSEGV, code := 1, pid := s.jos.pid, uid := 0, addr := n.tval }
    match onCurrent (fun ctx => signalContext ctx sigSEGV info) s with
    | (.ok true, s) => (.handled, s)
    | (_, s) => (.forward, s)

end RiscvEmu.Linux
