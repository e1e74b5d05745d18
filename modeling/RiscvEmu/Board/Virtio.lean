/-
The virtio network device (`virtio_net.go`).

The device reads the rings and the descriptor chains of its queues from guest memory and writes received frames and
used elements to it. What a transmit hands to the network stack is a list of frames. A fault ends a transmit where it
is; a receive just stops, and the frame stays queued.
-/
import RiscvEmu.GuestMemory

namespace RiscvEmu

open GuestMemory Bytes

abbrev NetFrame := List (BitVec 8)

def virtioMMIOIntVring : BitVec 32 := 1
def virtioNetQueueRX : BitVec 16 := 0
def virtioNetQueueTX : BitVec 16 := 1
def virtioQueueSize : BitVec 16 := 256
def virtioNetHeaderSize : Nat := 12
def virtioNetMTU : BitVec 16 := 1280
def virtioNetMaxFrameLen : Nat := 65536
def virtqDescFNext : BitVec 16 := 1
def virtqDescFWrite : BitVec 16 := 2

instance neZeroPair : NeZero 2 := ⟨by decide⟩

structure VirtqDesc where
  addr : BitVec 64
  len : BitVec 32
  flags : BitVec 16
  next : BitVec 16
deriving DecidableEq, Repr

structure VirtioNetQueue where
  num : BitVec 16
  numMax : BitVec 16
  ready : Bool
  desc : BitVec 64
  avail : BitVec 64
  used : BitVec 64
  lastAvail : BitVec 16
deriving DecidableEq, Repr

structure VirtioNet where
  deviceFeaturesSel : BitVec 32
  driverFeaturesSel : BitVec 32
  driverFeatures : BitVec 64
  queueSel : BitVec 16
  status : BitVec 32
  interruptStatus : BitVec 32
  configGeneration : BitVec 32
  queues : Fin 2 → VirtioNetQueue
  pendingRX : List NetFrame
  mac : Vector (BitVec 8) 6
deriving DecidableEq

/-! ## Guest memory, as the device reaches it -/

def readGuestU16 (addr : BitVec 64) : Exec GuestMemory MemFault (BitVec 16) := do
  return ofLe 16 (← readBytes addr 2)

def writeGuestU16 (addr : BitVec 64) (v : BitVec 16) : Exec GuestMemory MemFault Unit :=
  writeBytes addr (toLe 2 (v.setWidth 64))

def writeGuestU32 (addr : BitVec 64) (v : BitVec 32) : Exec GuestMemory MemFault Unit :=
  writeBytes addr (toLe 4 (v.setWidth 64))

namespace VirtioNetQueue

variable (q : VirtioNetQueue)

/-- `virtioNetQueue{numMax: virtioQueueSize}` -/
def fresh : VirtioNetQueue :=
  { num := 0, numMax := virtioQueueSize, ready := false, desc := 0, avail := 0, used := 0, lastAvail := 0 }

/-- a descriptor past the table reads as zero -/
def readDescLocked (id : BitVec 16) : Exec GuestMemory MemFault VirtqDesc :=
  if q.num = 0 ∨ id ≥ q.num then pure { addr := 0, len := 0, flags := 0, next := 0 }
  else do
    let raw ← readBytes (q.desc + id.setWidth 64 * 16) 16
    return { addr := ofLe 64 (raw.take 8), len := ofLe 32 ((raw.drop 8).take 4)
             flags := ofLe 16 ((raw.drop 12).take 2), next := ofLe 16 ((raw.drop 14).take 2) }

/-- the loop of `readDescriptorChainLocked`, with `n` rounds left and the bytes collected so far -/
def readChain (requireWrite : Bool) : Nat → BitVec 16 → NetFrame → Exec GuestMemory MemFault NetFrame
  | 0, _, out => pure out
  | n + 1, id, out => do
    let desc ← q.readDescLocked id
    if requireWrite ∧ desc.flags &&& virtqDescFWrite = 0 then pure out
    else if !requireWrite ∧ desc.flags &&& virtqDescFWrite = 0 ∧ desc.len ≠ 0 then
      if out.length + desc.len.toNat > virtioNetMaxFrameLen then pure out
      else do
        let buf ← readBytes desc.addr desc.len.toNat
        if desc.flags &&& virtqDescFNext = 0 then pure (out ++ buf)
        else readChain requireWrite n desc.next (out ++ buf)
    else if desc.flags &&& virtqDescFNext = 0 then pure out
    else readChain requireWrite n desc.next out

def readDescriptorChainLocked (head : BitVec 16) (requireWrite : Bool) : Exec GuestMemory MemFault NetFrame :=
  q.readChain requireWrite q.num.toNat head []

/-- the loop of `writeDescriptorChainLocked`, with `n` rounds left and the bytes still to be written -/
def writeChain : Nat → BitVec 16 → NetFrame → Exec GuestMemory MemFault Bool
  | 0, _, _ => pure false
  | n + 1, id, packet => do
    let desc ← q.readDescLocked id
    if desc.flags &&& virtqDescFWrite = 0 then pure false
    else do
      writeBytes desc.addr (packet.take desc.len.toNat)
      let rem := packet.drop desc.len.toNat
      if rem = [] then pure true
      else if desc.flags &&& virtqDescFNext = 0 then pure false
      else writeChain n desc.next rem

def writeDescriptorChainLocked (head : BitVec 16) (packet : NetFrame) : Exec GuestMemory MemFault Bool :=
  q.writeChain q.num.toNat head packet

def addUsedLocked (id : BitVec 16) (length : BitVec 32) : Exec GuestMemory MemFault Unit := do
  let usedIdx ← readGuestU16 (q.used + 2)
  let entry := q.used + 4 + 8 * (usedIdx % q.num).setWidth 64
  writeGuestU32 entry (id.setWidth 32)
  writeGuestU32 (entry + 4) length
  writeGuestU16 (q.used + 2) (usedIdx + 1)

/-- the head of the chain that the next available entry names -/
def readHead (lastAvail : BitVec 16) : Exec GuestMemory MemFault (BitVec 16) :=
  readGuestU16 (q.avail + 4 + 2 * (lastAvail % q.num).setWidth 64)

end VirtioNetQueue

/-! ## Transmitting -/

/-- the loop variables of `drainTXLocked` -/
structure TxLoop where
  mem : GuestMemory
  lastAvail : BitVec 16
  frames : List NetFrame

namespace TxLoop

def onMem {α : Type} (m : Exec GuestMemory MemFault α) : Exec TxLoop MemFault α :=
  Exec.zoom (fun s => s.mem) (fun mem s => { s with mem := mem }) m

/-- the frame in a payload, if it holds more than the header -/
def frameOf (payload : NetFrame) : List NetFrame :=
  if payload.length ≥ virtioNetHeaderSize ∧ payload.drop virtioNetHeaderSize ≠ [] then
    [payload.drop virtioNetHeaderSize] else []

def entry (q : VirtioNetQueue) : Exec TxLoop MemFault Unit := do
  let lastAvail ← Exec.gets TxLoop.lastAvail
  let head ← onMem (q.readHead lastAvail)
  let payload ← onMem (q.readDescriptorChainLocked head false)
  Exec.modify fun s => { s with frames := s.frames ++ frameOf payload }
  onMem (q.addUsedLocked head 0)
  Exec.modify fun s => { s with lastAvail := s.lastAvail + 1 }

/-- the loop, for at most `fuel` rounds -/
def run (q : VirtioNetQueue) (availIdx : BitVec 16) : Nat → Exec TxLoop MemFault Unit
  | 0 => pure ()
  | fuel + 1 => do
    let lastAvail ← Exec.gets TxLoop.lastAvail
    if lastAvail = availIdx then pure ()
    else do
      entry q
      run q availIdx fuel

end TxLoop

/-! ## Receiving -/

/-- the loop variables of `pumpRXLocked` -/
structure RxLoop where
  mem : GuestMemory
  lastAvail : BitVec 16
  delivered : Bool

namespace RxLoop

/-- one round of the loop: whether the packet was delivered, and memory as the round left it -/
def entry (q : VirtioNetQueue) (lastAvail : BitVec 16) (frame : NetFrame) : Exec GuestMemory MemFault Bool := do
  let availIdx ← readGuestU16 (q.avail + 2)
  if lastAvail = availIdx then pure false
  else do
    let head ← q.readHead lastAvail
    let packet := List.replicate virtioNetHeaderSize 0 ++ frame
    let ok ← q.writeDescriptorChainLocked head packet
    if !ok then pure false
    else do
      q.addUsedLocked head (BitVec.ofNat 32 packet.length)
      pure true

/-- the loop over the queued frames: those left, and the loop variables at the end -/
def run (q : VirtioNetQueue) : List NetFrame → RxLoop → List NetFrame × RxLoop
  | [], s => ([], s)
  | frame :: rest, s =>
    match entry q s.lastAvail frame s.mem with
    | (.ok true, mem) => run q rest { mem := mem, lastAvail := s.lastAvail + 1, delivered := true }
    | (.ok false, mem) => (frame :: rest, { s with mem := mem })
    | (.error _, mem) => (frame :: rest, { s with mem := mem })

end RxLoop

namespace VirtioNet

variable (d : VirtioNet)

def newVirtioNetDevice (mac : Vector (BitVec 8) 6) : VirtioNet :=
  { deviceFeaturesSel := 0, driverFeaturesSel := 0, driverFeatures := 0, queueSel := 0, status := 0
    interruptStatus := 0, configGeneration := 0, queues := fun _ => .fresh, pendingRX := [], mac := mac }

def interruptPending : Bool := d.interruptStatus ≠ 0

def raiseVringInterruptLocked : VirtioNet := { d with interruptStatus := d.interruptStatus ||| virtioMMIOIntVring }

def setQueue (i : Fin 2) (f : VirtioNetQueue → VirtioNetQueue) : VirtioNet :=
  { d with queues := Function.update d.queues i (f (d.queues i)) }

/-- the frames for the network stack, the fault if there was one, and what is left behind -/
def drainTXLocked (mem : GuestMemory) : (List NetFrame × Option MemFault) × VirtioNet × GuestMemory :=
  let q := d.queues 1
  if !q.ready ∨ q.num = 0 then (([], none), d, mem)
  else
    match readGuestU16 (q.avail + 2) mem with
    | (.error f, mem) => (([], some f), d, mem)
    | (.ok availIdx, mem) =>
      match TxLoop.run q availIdx (2 ^ 16) { mem := mem, lastAvail := q.lastAvail, frames := [] } with
      | (.error f, s) => ((s.frames, some f), d.setQueue 1 fun q => { q with lastAvail := s.lastAvail }, s.mem)
      | (.ok (), s) =>
        let d := d.setQueue 1 fun q => { q with lastAvail := s.lastAvail }
        ((s.frames, none), if s.frames ≠ [] then d.raiseVringInterruptLocked else d, s.mem)

def pumpRXLocked (mem : GuestMemory) : Bool × VirtioNet × GuestMemory :=
  let q := d.queues 0
  if !q.ready ∨ q.num = 0 then (false, d, mem)
  else
    let r := RxLoop.run q d.pendingRX { mem := mem, lastAvail := q.lastAvail, delivered := false }
    let d := { d.setQueue 0 fun q => { q with lastAvail := r.2.lastAvail } with pendingRX := r.1 }
    (r.2.delivered, if r.2.delivered then d.raiseVringInterruptLocked else d, r.2.mem)

def notifyQueueLocked (index : BitVec 16) (mem : GuestMemory) :
    (List NetFrame × Option MemFault) × VirtioNet × GuestMemory :=
  if index = virtioNetQueueTX then d.drainTXLocked mem
  else if index = virtioNetQueueRX then (([], none), (d.pumpRXLocked mem).2)
  else (([], none), d, mem)

/-- the frame is queued if its length is right; the answer is whether something was delivered -/
def injectGuestFrame (frame : NetFrame) (mem : GuestMemory) : Bool × VirtioNet × GuestMemory :=
  if frame.length = 0 ∨ frame.length > virtioNetMaxFrameLen then (false, d, mem)
  else { d with pendingRX := d.pendingRX ++ [frame] }.pumpRXLocked mem

def resetLocked : VirtioNet :=
  { d with
    driverFeatures := 0, driverFeaturesSel := 0, deviceFeaturesSel := 0, queueSel := 0, interruptStatus := 0
    pendingRX := [], queues := fun _ => .fresh }

/-! ## The registers -/

/-- the queue that `queueSel` selects; past the last one a queue that nobody keeps -/
def selectedQueueLocked : VirtioNetQueue :=
  if h : d.queueSel.toNat < 2 then d.queues ⟨d.queueSel.toNat, h⟩ else { VirtioNetQueue.fresh with numMax := 0 }

def setSelected (f : VirtioNetQueue → VirtioNetQueue) : VirtioNet :=
  if h : d.queueSel.toNat < 2 then d.setQueue ⟨d.queueSel.toNat, h⟩ f else d

def deviceFeaturesLocked : BitVec 64 := (1#64 <<< 32) ||| (1#64 <<< 5) ||| (1#64 <<< 16) ||| (1#64 <<< 3)

def configBytesLocked : List (BitVec 8) :=
  d.mac.toList ++ toLe 2 1 ++ toLe 2 1 ++ toLe 2 (virtioNetMTU.setWidth 64)

/-- the registers below the configuration space -/
def register (off : BitVec 64) : BitVec 32 :=
  if off = 0x000 then 0x74726976
  else if off = 0x004 then 2
  else if off = 0x008 then 1
  else if off = 0x00c then 0x52564547
  else if off = 0x010 then (deviceFeaturesLocked >>> (32 * d.deviceFeaturesSel).toNat).setWidth 32
  else if off = 0x034 then d.selectedQueueLocked.numMax.setWidth 32
  else if off = 0x044 then if d.selectedQueueLocked.ready then 1 else 0
  else if off = 0x060 then d.interruptStatus
  else if off = 0x070 then d.status
  else if off = 0x0fc then d.configGeneration
  else 0

def load (off width : BitVec 64) : BitVec 64 :=
  if off ≥ 0x100 then
    let cfg := d.configBytesLocked.drop (off - 0x100).toNat
    ofLe 64 (cfg.take width.toNat)
  else ofLe 64 ((toLe 4 ((d.register off).setWidth 64)).take width.toNat)

/-- replace the low or the high half of an address -/
def setLow (a value : BitVec 64) : BitVec 64 := (a &&& 0xffffffff00000000) ||| (value &&& 0xffffffff)
def setHigh (a value : BitVec 64) : BitVec 64 := (a &&& 0xffffffff) ||| (value <<< 32)

/-- the stores that do not notify a queue -/
def storeRegister (off value : BitVec 64) : VirtioNet :=
  if off = 0x014 then { d with deviceFeaturesSel := value.setWidth 32 }
  else if off = 0x024 then { d with driverFeaturesSel := value.setWidth 32 }
  else if off = 0x020 then
    let shift := (32 * d.driverFeaturesSel).toNat
    let mask := 0xffffffff#64 <<< shift
    { d with driverFeatures := (d.driverFeatures &&& ~~~ mask) ||| ((value &&& 0xffffffff) <<< shift) }
  else if off = 0x030 then { d with queueSel := value.setWidth 16 }
  else if off = 0x038 then d.setSelected fun q => { q with num := value.setWidth 16 }
  else if off = 0x044 then
    d.setSelected fun q => { q with ready := value ≠ 0, lastAvail := if value ≠ 0 then q.lastAvail else 0 }
  else if off = 0x080 then d.setSelected fun q => { q with desc := setLow q.desc value }
  else if off = 0x084 then d.setSelected fun q => { q with desc := setHigh q.desc value }
  else if off = 0x090 then d.setSelected fun q => { q with avail := setLow q.avail value }
  else if off = 0x094 then d.setSelected fun q => { q with avail := setHigh q.avail value }
  else if off = 0x0a0 then d.setSelected fun q => { q with used := setLow q.used value }
  else if off = 0x0a4 then d.setSelected fun q => { q with used := setHigh q.used value }
  else if off = 0x064 then { d with interruptStatus := d.interruptStatus &&& ~~~ (value.setWidth 32) }
  else if off = 0x070 then
    let d := { d with status := value.setWidth 32 }
    if value = 0 then d.resetLocked else d
  else d

/-- the frames handed to the network stack, the fault if there was one, and what is left behind -/
def store (off value : BitVec 64) (mem : GuestMemory) :
    (List NetFrame × Option MemFault) × VirtioNet × GuestMemory :=
  if off = 0x050 then d.notifyQueueLocked (value.setWidth 16) mem
  else (([], none), d.storeRegister off value, mem)

end VirtioNet

end RiscvEmu
