/-
The device board of the BIOS machine (`bios.go`): two UARTs, the timer, the interrupt controller (PLIC), and the
optional host file and network devices.

Host goroutines put the bytes of the console into a channel per UART (`RxChannel`); the board takes them out when it
looks at the UART. `externalInterruptDirty` says that the cached line `supervisorExternalPending` may be out of date.
The host file device is seen through what it answers.
-/
import RiscvEmu.Board.Virtio

namespace RiscvEmu

open Function Bytes

def biosSysconBase : BitVec 64 := 0x00100000
def biosSysconSize : BitVec 64 := 0x1000
def biosUARTBase : BitVec 64 := 0x10000000
def biosUART1Base : BitVec 64 := 0x10000100
def biosUARTSize : BitVec 64 := 0x100
def biosHostIOBase : BitVec 64 := 0x10001000
def biosHostIOSize : BitVec 64 := 0x1000
def biosVirtioNetBase : BitVec 64 := 0x10008000
def biosVirtioNetSize : BitVec 64 := 0x1000
def biosCLINTBase : BitVec 64 := 0x02000000
def biosCLINTSize : BitVec 64 := 0x00010000
def biosPLICBase : BitVec 64 := 0x0c000000
def biosPLICSize : BitVec 64 := 0x04000000
def biosVirtioNetIRQ : Nat := 1
def biosUARTIRQ : Nat := 10
def biosUART1IRQ : Nat := 11
def plicSContext : Fin 2 := 1

def uartIERRDI : BitVec 8 := 0x01
def uartIERTHRI : BitVec 8 := 0x02
def uartIIRNone : BitVec 8 := 0x01
def uartIIRTHRI : BitVec 8 := 0x02
def uartIIRRDI : BitVec 8 := 0x04
def uartLCRDLAB : BitVec 8 := 0x80
def uartMCRDTR : BitVec 8 := 0x01
def uartLSRDR : BitVec 8 := 0x01
def uartLSRTHRE : BitVec 8 := 0x20
def uartLSRTEMT : BitVec 8 := 0x40
def uartRXLimit : Nat := 4096

def mmioRangeOffset (addr width base size : BitVec 64) : Option (BitVec 64) :=
  if width = 0 ∨ addr < base then none
  else if addr - base ≥ size ∨ width > size - (addr - base) then none
  else some (addr - base)

def mmioRangeTouches (addr width base size : BitVec 64) : Bool :=
  !(width = 0 ∨ addr < base) && addr - base < size

/-! ## The UARTs -/

/-- the channel that a host goroutine fills with input -/
structure RxChannel where
  queue : List (BitVec 8)
  closed : Bool
deriving DecidableEq, Repr

/-- where the output of a port goes: nowhere special, to a writer, or to a console socket -/
inductive UartSink
  | none | writer | socket
deriving DecidableEq, Repr

inductive UartOutput
  | byte (b : BitVec 8)
  | guestClose
  | close
deriving DecidableEq, Repr

structure BiosUARTPort where
  regs : BitVec 8 → BitVec 8
  txInterrupt : Bool
  rx : List (BitVec 8)
  rxCh : Option RxChannel
  out : UartSink
  written : List UartOutput

namespace BiosUARTPort

variable (u : BiosUARTPort)

def dlab : Bool := u.regs 3 &&& uartLCRDLAB ≠ 0

def uartRXInterruptPending : Bool := u.regs 1 &&& uartIERRDI ≠ 0 ∧ u.rx ≠ []

def uartTXInterruptPending : Bool := u.regs 1 &&& uartIERTHRI ≠ 0 ∧ u.txInterrupt = true

def setReg (i : BitVec 64) (b : BitVec 8) : BiosUARTPort :=
  { u with regs := update u.regs (i.setWidth 8) b }

/-- one round of the loop of `drainUARTInput`: `none` when there is nothing to take -/
def receive : Option BiosUARTPort :=
  match u.rxCh with
  | none => none
  | some ch =>
    if u.rx.length < uartRXLimit then
      match ch.queue with
      | b :: rest => some { u with rx := u.rx ++ [b], rxCh := some { ch with queue := rest } }
      | [] => if ch.closed then some { u with rxCh := none } else none
    else none

/-- the loop, for at most `n` rounds, and whether it took something -/
def receiveAll : Nat → BiosUARTPort → Bool × BiosUARTPort
  | 0, u => (false, u)
  | n + 1, u =>
    match u.receive with
    | none => (false, u)
    | some u' => (true, (receiveAll n u').2)

/-- a round takes a byte out of the channel or drops the channel -/
def rounds : Nat :=
  match u.rxCh with
  | none => 0
  | some ch => ch.queue.length + 1

def drain : Bool × BiosUARTPort := receiveAll u.rounds u

/-- the output of a byte; port 0 writes to standard output if nothing else is attached -/
def writeUARTOutput (index : Fin 2) (b : BitVec 8) : BiosUARTPort :=
  if u.out = .none ∧ index ≠ 0 then u else { u with written := u.written ++ [.byte b] }

/-- the guest drops DTR: a console socket hangs up -/
def uartModemControlChanged (old new : BitVec 8) : BiosUARTPort :=
  if old &&& uartMCRDTR = 0 ∨ new &&& uartMCRDTR ≠ 0 ∨ u.out ≠ .socket then u
  else { u with written := u.written ++ [.guestClose] }

def closeOutput : BiosUARTPort :=
  if u.out = .none then u else { u with out := .none, written := u.written ++ [.close] }

def storeByte (index : Fin 2) (i : BitVec 64) (b : BitVec 8) : BiosUARTPort :=
  let dlab := u.dlab
  let old := u.regs (i.setWidth 8)
  let u := u.setReg i b
  let u :=
    if i = 0 ∧ !dlab then
      let u := u.writeUARTOutput index b
      if u.regs 1 &&& uartIERTHRI ≠ 0 then { u with txInterrupt := true } else u
    else u
  let u := if i = 1 ∧ !dlab then { u with txInterrupt := b &&& uartIERTHRI ≠ 0 } else u
  if i = 4 then u.uartModemControlChanged old b else u

/-- the lowest `n` bytes of a store -/
def storeBytes (index : Fin 2) (off value : BitVec 64) : Nat → BiosUARTPort → BiosUARTPort
  | 0, u => u
  | n + 1, u => (storeBytes index off value n u).storeByte index (off + BitVec.ofNat 64 n) (byteOf value n)

end BiosUARTPort

/-! ## The board -/

/-- the host file device, by its answers; `log` holds the stores so far -/
structure HostIODevice where
  log : List (BitVec 64 × BitVec 64 × BitVec 64)
  load : List (BitVec 64 × BitVec 64 × BitVec 64) → BitVec 64 → BitVec 64 → BitVec 64
  store : List (BitVec 64 × BitVec 64 × BitVec 64) → BitVec 64 → BitVec 64 → BitVec 64 → Bytes → Option MemFault × Bytes

structure BoardState where
  uarts : Fin 2 → BiosUARTPort
  resets : Nat
  hostio : Option HostIODevice
  virtioNet : Option VirtioNet
  sent : List NetFrame
  clint : BitVec 64 → BitVec 8
  mtime : BitVec 64
  plicPriority : Nat → BitVec 32
  plicEnable : Fin 2 → BitVec 64
  plicThreshold : Fin 2 → BitVec 32
  plicClaimed : Fin 2 → BitVec 32
  supervisorExternalPending : Bool
  externalInterruptDirty : Bool

namespace BoardState

variable (m : BoardState)

def markExternalInterruptDirty : BoardState := { m with externalInterruptDirty := true }

def setUart (i : Fin 2) (u : BiosUARTPort) : BoardState := { m with uarts := update m.uarts i u }

def drainUARTInput (i : Fin 2) : BoardState :=
  let r := (m.uarts i).drain
  let m := m.setUart i r.2
  if r.1 then m.markExternalInterruptDirty else m

def uartByte (i : Fin 2) (off : BitVec 64) : BitVec 8 × BoardState :=
  let m := m.drainUARTInput i
  let u := m.uarts i
  if off = 0 then
    if u.dlab then (u.regs 0, m)
    else
      match u.rx with
      | [] => (0, m)
      | b :: rest => (b, (m.setUart i { u with rx := rest }).markExternalInterruptDirty)
  else if off = 1 then (u.regs 1, m)
  else if off = 2 then
    if !u.dlab ∧ u.uartRXInterruptPending then (uartIIRRDI, m)
    else if !u.dlab ∧ u.uartTXInterruptPending then
      (uartIIRTHRI, (m.setUart i { u with txInterrupt := false }).markExternalInterruptDirty)
    else (uartIIRNone, m)
  else if off = 5 then
    (uartLSRTHRE ||| uartLSRTEMT ||| (if u.rx ≠ [] then uartLSRDR else 0), m)
  else (u.regs (off.setWidth 8), m)

/-- the bytes of a load, lowest first -/
def loadUARTPort (i : Fin 2) (off : BitVec 64) : Nat → BoardState → BitVec 64 × BoardState
  | 0, m => (0, m)
  | n + 1, m =>
    let r := loadUARTPort i off n m
    let s := r.2.uartByte i (off + BitVec.ofNat 64 n)
    (r.1 ||| (s.1.setWidth 64 <<< (8 * n)), s.2)

def storeUARTPort (i : Fin 2) (off width value : BitVec 64) : BoardState :=
  let u := BiosUARTPort.storeBytes i off value width.toNat (m.uarts i)
  (m.setUart i (u.setReg 5 (uartLSRTHRE ||| uartLSRTEMT))).markExternalInterruptDirty

/-! ## The interrupt controller -/

def uartInterruptPendingAt (i : Fin 2) : Bool × BoardState :=
  let m := m.drainUARTInput i
  ((m.uarts i).uartRXInterruptPending || (m.uarts i).uartTXInterruptPending, m)

def virtioPending : Bool :=
  match m.virtioNet with
  | none => false
  | some d => d.interruptPending

/-- the bits of the sources that are pending -/
def plicBits (uart0 uart1 virtio : Bool) : BitVec 32 :=
  (if uart0 then 1#32 <<< biosUARTIRQ else 0) ||| (if uart1 then 1#32 <<< biosUART1IRQ else 0) |||
    (if virtio then 1#32 <<< biosVirtioNetIRQ else 0)

def plicPendingBits : BitVec 32 × BoardState :=
  let u0 := m.uartInterruptPendingAt 0
  let u1 := u0.2.uartInterruptPendingAt 1
  (plicBits u0.1 u1.1 u1.2.virtioPending, u1.2)

/-- the loop over the pending sources: the best one so far and its priority -/
def plicBest (priority : Nat → BitVec 32) (threshold : BitVec 32) : List Nat → Nat × BitVec 32 → Nat × BitVec 32
  | [], best => best
  | source :: rest, best =>
    plicBest priority threshold rest
      (if priority source ≤ threshold ∨ priority source ≤ best.2 then best else (source, priority source))

/-- the source that context `ctx` is offered among those pending -/
def plicSelect (ctx : Fin 2) (bits : BitVec 32) : BitVec 32 :=
  let pending := bits &&& (m.plicEnable ctx).setWidth 32
  BitVec.ofNat 32 (plicBest m.plicPriority (m.plicThreshold ctx) ((List.range 32).filter pending.getLsbD) (0, 0)).1

def plicPendingForContext (ctx : Fin 2) : BitVec 32 × BoardState :=
  if m.plicClaimed ctx ≠ 0 then (0, m)
  else
    let r := m.plicPendingBits
    (r.2.plicSelect ctx r.1, r.2)

def plicClaim (ctx : Fin 2) : BitVec 32 × BoardState :=
  let r := m.plicPendingForContext ctx
  (r.1, { r.2 with plicClaimed := update r.2.plicClaimed ctx r.1 }.markExternalInterruptDirty)

def plicComplete (ctx : Fin 2) (source : BitVec 32) : BoardState :=
  if m.plicClaimed ctx = source then
    { m with plicClaimed := update m.plicClaimed ctx 0 }.markExternalInterruptDirty
  else m

/-- the context whose registers of `size` bytes from `base` on hold `off` -/
def plicContext (off base size : BitVec 64) : Option (Fin 2) :=
  if off < base then none
  else if off < base + size then some 0
  else if off < base + size * 2 then some 1
  else none

def loadPLIC (off width : BitVec 64) : BitVec 64 × BoardState :=
  if width ≠ 4 then (0, m)
  else if off < 0x1000 then (if off / 4 < 64 then (m.plicPriority (off / 4).toNat).setWidth 64 else 0, m)
  else if off < 0x2000 then
    let r := m.plicPendingBits
    (r.1.setWidth 64, r.2)
  else
    match plicContext off 0x2000 0x80 with
    | some ctx =>
      let word := (off - 0x2000) % 0x80 / 4
      (if word = 0 then ((m.plicEnable ctx).setWidth 32).setWidth 64
        else if word = 1 then ((m.plicEnable ctx >>> 32).setWidth 32).setWidth 64 else 0, m)
    | none =>
      match plicContext off 0x200000 0x1000 with
      | some ctx =>
        let reg := (off - 0x200000) % 0x1000
        if reg = 0 then ((m.plicThreshold ctx).setWidth 64, m)
        else if reg = 4 then
          let r := m.plicClaim ctx
          (r.1.setWidth 64, r.2)
        else (0, m)
      | none => (0, m)

def storePLIC (off width value : BitVec 64) : BoardState :=
  if width ≠ 4 then m
  else if off < 0x1000 then
    (if off / 4 < 64 then
      { m with plicPriority := update m.plicPriority (off / 4).toNat (value.setWidth 32) }
      else m).markExternalInterruptDirty
  else
    match plicContext off 0x2000 0x80 with
    | some ctx =>
      let word := (off - 0x2000) % 0x80 / 4
      let low := value &&& 0xffffffff
      let old := m.plicEnable ctx
      (if word = 0 then
        { m with plicEnable := update m.plicEnable ctx ((old &&& 0xffffffff00000000) ||| low) }
        else if word = 1 then
          { m with plicEnable := update m.plicEnable ctx ((old &&& 0xffffffff) ||| (low <<< 32)) }
        else m).markExternalInterruptDirty
    | none =>
      match plicContext off 0x200000 0x1000 with
      | some ctx =>
        let reg := (off - 0x200000) % 0x1000
        (if reg = 0 then
          { m with plicThreshold := update m.plicThreshold ctx (value.setWidth 32) }
          else if reg = 4 then m.plicComplete ctx (value.setWidth 32)
          else m).markExternalInterruptDirty
      | none => m.markExternalInterruptDirty

def supervisorExternalInterruptPending : Bool × BoardState :=
  if !m.externalInterruptDirty then (m.supervisorExternalPending, m)
  else
    let r := { m with externalInterruptDirty := false }.plicPendingForContext plicSContext
    let pending : Bool := r.1 ≠ 0
    (pending, { r.2 with supervisorExternalPending := pending })

/-! ## The other devices -/

def storeSyscon (off width : BitVec 64) : BoardState :=
  if !mmioRangeTouches off width 0 4 then m
  else { m with uarts := fun i => (m.uarts i).closeOutput, resets := m.resets + 1 }

def syncCLINTTime : BoardState :=
  { m with clint := writeLe m.clint 0xbff8 8 m.mtime }

def loadCLINT (off width : BitVec 64) : BitVec 64 × BoardState :=
  let m := m.syncCLINTTime
  (readLe m.clint off width.toNat, m)

def storeCLINT (off width value : BitVec 64) : BoardState :=
  let m := { m with clint := writeLe m.clint off width.toNat value }
  if mmioRangeTouches off width 0xbff8 8 then { m with mtime := readLe m.clint 0xbff8 8 } else m

def advanceMachineTimer (delta : BitVec 64) : BoardState := { m with mtime := m.mtime + delta }

def biosUARTRangeOffset (addr width : BitVec 64) : Option (Fin 2 × BitVec 64) :=
  match mmioRangeOffset addr width biosUARTBase biosUARTSize with
  | some off => some (0, off)
  | none =>
    match mmioRangeOffset addr width biosUART1Base biosUARTSize with
    | some off => some (1, off)
    | none => none

/-- the address lies in the range of a device, though the access does not fit in it -/
def touches (addr width : BitVec 64) : Bool :=
  mmioRangeTouches addr width biosSysconBase biosSysconSize ||
    (mmioRangeTouches addr width biosUARTBase biosUARTSize || mmioRangeTouches addr width biosUART1Base biosUARTSize) ||
    (m.hostio.isSome && mmioRangeTouches addr width biosHostIOBase biosHostIOSize) ||
    (m.virtioNet.isSome && mmioRangeTouches addr width biosVirtioNetBase biosVirtioNetSize) ||
    mmioRangeTouches addr width biosCLINTBase biosCLINTSize || mmioRangeTouches addr width biosPLICBase biosPLICSize

/-- the device an access reaches, in the order in which the board asks -/
inductive Device
  | syscon (off : BitVec 64)
  | uart (index : Fin 2) (off : BitVec 64)
  | hostio (d : HostIODevice) (off : BitVec 64)
  | virtioNet (d : VirtioNet) (off : BitVec 64)
  | clint (off : BitVec 64)
  | plic (off : BitVec 64)

/-- what an optional device answers to, if it is there -/
def optionalOffset {α : Type} (d : Option α) (off : Option (BitVec 64)) : Option (α × BitVec 64) :=
  match d, off with
  | some d, some off => some (d, off)
  | _, _ => none

def device (addr width : BitVec 64) : Option Device :=
  match mmioRangeOffset addr width biosSysconBase biosSysconSize with
  | some off => some (.syscon off)
  | none =>
    match biosUARTRangeOffset addr width with
    | some (i, off) => some (.uart i off)
    | none =>
      match optionalOffset m.hostio (mmioRangeOffset addr width biosHostIOBase biosHostIOSize) with
      | some (d, off) => some (.hostio d off)
      | none =>
        match optionalOffset m.virtioNet (mmioRangeOffset addr width biosVirtioNetBase biosVirtioNetSize) with
        | some (d, off) => some (.virtioNet d off)
        | none =>
          match mmioRangeOffset addr width biosCLINTBase biosCLINTSize with
          | some off => some (.clint off)
          | none => (mmioRangeOffset addr width biosPLICBase biosPLICSize).map .plic

/-- `none` if the address is not one of the board's -/
def load (addr width : BitVec 64) : Option (Except MemFault (BitVec 64)) × BoardState :=
  match m.device addr width with
  | some (.syscon _) => (some (.ok 0), m)
  | some (.uart i off) =>
    let r := loadUARTPort i off width.toNat m
    (some (.ok r.1), r.2)
  | some (.hostio d off) => (some (.ok (d.load d.log off width)), m)
  | some (.virtioNet d off) => (some (.ok (d.load off width)), m)
  | some (.clint off) =>
    let r := m.loadCLINT off width
    (some (.ok r.1), r.2)
  | some (.plic off) =>
    let r := m.loadPLIC off width
    (some (.ok r.1), r.2)
  | none =>
    if m.touches addr width then (some (.error { addr := addr, width := width, kind := .load }), m) else (none, m)

/-- `none` if the address is not one of the board's; a device may write guest memory -/
def store (addr width value : BitVec 64) (mem : GuestMemory) : Option (Option MemFault) × BoardState × GuestMemory :=
  match m.device addr width with
  | some (.syscon off) => (some none, m.storeSyscon off width, mem)
  | some (.uart i off) => (some none, m.storeUARTPort i off width value, mem)
  | some (.hostio d off) =>
    let r := d.store d.log off width value mem.bytes
    (some r.1, { m with hostio := some { d with log := d.log ++ [(off, width, value)] } }, { mem with bytes := r.2 })
  | some (.virtioNet d off) =>
    let r := d.store off value mem
    (some r.1.2, { m with virtioNet := some r.2.1, sent := m.sent ++ r.1.1 }.markExternalInterruptDirty, r.2.2)
  | some (.clint off) => (some none, m.storeCLINT off width value, mem)
  | some (.plic off) => (some none, m.storePLIC off width value, mem)
  | none =>
    if m.touches addr width then (some (some { addr := addr, width := width, kind := .store }), m, mem)
    else (none, m, mem)

end BoardState

end RiscvEmu
