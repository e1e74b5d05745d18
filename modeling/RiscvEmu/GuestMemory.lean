/-
Guest memory (`guestmem.go`): a power-of-two slab with an optional permission overlay and an optional device board.

Every load and store makes the same checks in the same order: sandbox escape, overlay, device, then alignment and
bounds. Fetches skip the sandbox and the device checks. The `...U` helpers go byte by byte and stop at the first byte
that faults.

The overlay (`guestMemoryAccessOverlay`) is an interface: any function of the access that reports a refused access as
such, as `jea9LinuxVM.CheckGuestAccess` does. The board (`biosMMIO`) is seen through what it answers: a reply may
depend on every access before and on guest memory, and may write guest memory (DMA).

One page of the slab is protected by the host (`touchesGuard`): the process does not survive an access to it. The
accesses here go on all the same; what they say of that page is not what the program does, and where a result is
about the process as a whole the page is excluded by name.
-/
import RiscvEmu.Lib.Bytes

namespace RiscvEmu

open Bytes

/-- what kind of access failed, and why -/
inductive FaultKind
  | load | store | fetch | misalign | sandboxEscape | pageLoad | pageStore | pageFetch
deriving DecidableEq, Repr

structure MemFault where
  addr : BitVec 64
  width : BitVec 64
  kind : FaultKind
deriving DecidableEq, Repr

inductive MemoryModel
  | linear | sandbox
deriving DecidableEq, Repr

/-- the personality's permission check (address, width, kind, memory size); a refused access is reported as it is -/
structure AccessOverlay where
  checkGuestAccess : BitVec 64 → BitVec 64 → FaultKind → BitVec 64 → Option MemFault
  reports : ∀ addr width kind size f, checkGuestAccess addr width kind size = some f →
    f = { addr := addr, width := width, kind := kind }

/-- an access the board has answered; the machine timer that was advanced, or the interrupt line
that was looked at -/
inductive MmioAccess
  | load (addr width : BitVec 64)
  | store (addr width value : BitVec 64)
  | advance (ticks : BitVec 64)
  | poll
deriving DecidableEq, Repr

/-- what the board answers: not its address, a value, or a fault; the last two with guest memory as the device left it
-/
inductive MmioReply
  | pass
  | value (v : BitVec 64) (bytes : Bytes)
  | fault (f : MemFault) (bytes : Bytes)

/-- the device board, by its answers; `log` holds the accesses answered so far.  A device
reports load and store faults only. -/
structure BiosMmio where
  log : List MmioAccess
  reply : List MmioAccess → Bytes → MmioAccess → MmioReply
  fault_kind : ∀ l b a f b', reply l b a = .fault f b' → f.kind = .load ∨ f.kind = .store
  mmioOverlaps : BitVec 64 → BitVec 64 → Bool
  machineTimerValue : List MmioAccess → BitVec 64

instance neZeroLogSizes : NeZero 40 := ⟨by decide⟩

/-- one guest address space; `NewGuestMemoryWithModel` admits the sizes `2^0 … 2^39` -/
structure GuestMemory where
  bytes : Bytes
  logSize : Fin 40
  model : MemoryModel
  /-- the package variable `CheckSandboxBounds` -/
  checkSandboxBounds : Bool
  accessOverlay : Option AccessOverlay
  mmio : Option BiosMmio

namespace GuestMemory

variable (m : GuestMemory)

/-- a fresh slab of `2 ^ logSize` zero bytes -/
def newGuestMemoryWithModel (logSize : Fin 40) (model : MemoryModel) (checkSandboxBounds : Bool) : GuestMemory :=
  { bytes := fun _ => 0, logSize := logSize, model := model, checkSandboxBounds := checkSandboxBounds
    accessOverlay := none, mmio := none }

def size : BitVec 64 := 1#64 <<< m.logSize.val

def mask : BitVec 64 := m.size - 1

/-- one of the `n` bytes at offset `off` lies in the page between stack and register file that is mapped without any
right; a slab of less than two pages has no such page -/
def touchesGuard (off : BitVec 64) (n : Nat) : Bool :=
  0 < n ∧ m.size.toNat < off.toNat + n + 0x2000 ∧ off.toNat + 0x1000 < m.size.toNat

/-- zero iff the access is naturally aligned and inside the slab -/
def check (addr width : BitVec 64) : BitVec 64 :=
  (addr &&& (width - 1)) ||| ((addr ||| (addr + width - 1)) &&& ~~~ m.mask)

def checkSandboxEscape (addr width : BitVec 64) : Option MemFault :=
  if m.model ≠ .sandbox then none
  else if m.checkSandboxBounds ∧ addr &&& ~~~ m.mask ≠ 0 then
    some { addr := addr, width := width, kind := .sandboxEscape }
  else none

def checkAccessOverlay (addr width : BitVec 64) (kind : FaultKind) : Option MemFault :=
  match m.accessOverlay with
  | none => none
  | some o => o.checkGuestAccess addr width kind m.size

/-- the slab offset of a guest address (`hostPtr` less the slab's base) -/
def hostPtr (addr : BitVec 64) : BitVec 64 :=
  if m.model = .sandbox then addr &&& m.mask else addr

/-- the fault of a failed `check`: misalignment is told apart from bounds -/
def fault (addr width : BitVec 64) (defaultKind : FaultKind) : MemFault :=
  { addr := addr, width := width, kind := if addr &&& (width - 1) ≠ 0 then .misalign else defaultKind }

/-- the answer of the board to an access, if it has one; the answer is logged -/
def mmioAccess (a : MmioAccess) : Option (Except MemFault (BitVec 64) × GuestMemory) :=
  match m.mmio with
  | none => none
  | some d =>
    let d' := { d with log := d.log ++ [a] }
    match d.reply d.log m.bytes a with
    | .pass => none
    | .value v b => some (.ok v, { m with bytes := b, mmio := some d' })
    | .fault f b => some (.error f, { m with bytes := b, mmio := some d' })

/-- the checks every load and store starts with -/
def precheck (addr width : BitVec 64) (kind : FaultKind) : Option MemFault :=
  match m.checkSandboxEscape addr width with
  | some f => some f
  | none => m.checkAccessOverlay addr width kind

end GuestMemory

namespace GuestMemory

/-- the common body of `Load8`, `Load16`, `Load32` and `Load64` -/
def load (width addr : BitVec 64) : Exec GuestMemory MemFault (BitVec 64) := fun m =>
  match m.precheck addr width .load with
  | some f => (.error f, m)
  | none =>
    match m.mmioAccess (.load addr width) with
    | some r => r
    | none =>
      if m.check addr width ≠ 0 then (.error (fault addr width .load), m)
      else (.ok (m.bytes.readLe (m.hostPtr addr) width.toNat), m)

/-- the common body of `Store8`, `Store16`, `Store32` and `Store64` -/
def store (width addr v : BitVec 64) : Exec GuestMemory MemFault Unit := fun m =>
  match m.precheck addr width .store with
  | some f => (.error f, m)
  | none =>
    match m.mmioAccess (.store addr width v) with
    | some (.ok _, m') => (.ok (), m')
    | some (.error f, m') => (.error f, m')
    | none =>
      if m.check addr width ≠ 0 then (.error (fault addr width .store), m)
      else (.ok (), { m with bytes := m.bytes.writeLe (m.hostPtr addr) width.toNat v })

/-- the common body of `Fetch16` and `Fetch32` -/
def fetch (width addr : BitVec 64) : Exec GuestMemory MemFault (BitVec 64) := fun m =>
  match m.checkAccessOverlay addr width .fetch with
  | some f => (.error f, m)
  | none =>
    if m.check addr width ≠ 0 then (.error (fault addr width .fetch), m)
    else (.ok (m.bytes.readLe (m.hostPtr addr) width.toNat), m)

def load8 (addr : BitVec 64) : Exec GuestMemory MemFault (BitVec 8) := do
  return (← load 1 addr).setWidth 8
def load16 (addr : BitVec 64) : Exec GuestMemory MemFault (BitVec 16) := do
  return (← load 2 addr).setWidth 16
def load32 (addr : BitVec 64) : Exec GuestMemory MemFault (BitVec 32) := do
  return (← load 4 addr).setWidth 32
def load64 (addr : BitVec 64) : Exec GuestMemory MemFault (BitVec 64) := load 8 addr

def store8 (addr : BitVec 64) (v : BitVec 8) : Exec GuestMemory MemFault Unit :=
  store 1 addr (v.setWidth 64)
def store16 (addr : BitVec 64) (v : BitVec 16) : Exec GuestMemory MemFault Unit :=
  store 2 addr (v.setWidth 64)
def store32 (addr : BitVec 64) (v : BitVec 32) : Exec GuestMemory MemFault Unit :=
  store 4 addr (v.setWidth 64)
def store64 (addr v : BitVec 64) : Exec GuestMemory MemFault Unit := store 8 addr v

def fetch16 (addr : BitVec 64) : Exec GuestMemory MemFault (BitVec 16) := do
  return (← fetch 2 addr).setWidth 16
def fetch32 (addr : BitVec 64) : Exec GuestMemory MemFault (BitVec 32) := do
  return (← fetch 4 addr).setWidth 32

def load16U (addr : BitVec 64) : Exec GuestMemory MemFault (BitVec 16) := loadBytes load8 16 addr 2
def load32U (addr : BitVec 64) : Exec GuestMemory MemFault (BitVec 32) := loadBytes load8 32 addr 4
def load64U (addr : BitVec 64) : Exec GuestMemory MemFault (BitVec 64) := loadBytes load8 64 addr 8

def store16U (addr : BitVec 64) (v : BitVec 16) : Exec GuestMemory MemFault Unit := storeBytes store8 v addr 2
def store32U (addr : BitVec 64) (v : BitVec 32) : Exec GuestMemory MemFault Unit := storeBytes store8 v addr 4
def store64U (addr v : BitVec 64) : Exec GuestMemory MemFault Unit := storeBytes store8 v addr 8

/-! ## Bulk transfers

These look at the overlay and the bounds only: neither alignment nor the board matters to them. -/

/-- the range lies inside the slab and does not wrap -/
def guestRange (m : GuestMemory) (addr length : BitVec 64) : Bool :=
  length = 0 ∨ (addr ≤ addr + length ∧ addr + length ≤ m.size)

def bulkCheck (m : GuestMemory) (addr length : BitVec 64) (kind : FaultKind) : Option MemFault :=
  match m.checkAccessOverlay addr length kind with
  | some f => some f
  | none => if m.guestRange addr length then none else some { addr := addr, width := length, kind := kind }

def readBytes (addr : BitVec 64) (n : Nat) : Exec GuestMemory MemFault (List (BitVec 8)) := fun m =>
  if n = 0 then (.ok [], m)
  else
    match m.bulkCheck addr (BitVec.ofNat 64 n) .load with
    | some f => (.error f, m)
    | none => (.ok ((List.range n).map fun i => m.bytes (m.hostPtr addr + BitVec.ofNat 64 i)), m)

def writeBytes (addr : BitVec 64) (src : List (BitVec 8)) : Exec GuestMemory MemFault Unit := fun m =>
  if src = [] then (.ok (), m)
  else
    match m.bulkCheck addr (BitVec.ofNat 64 src.length) .store with
    | some f => (.error f, m)
    | none => (.ok (), { m with bytes := m.bytes.writeList (m.hostPtr addr) src })

/-- `Zero` does not ask the overlay -/
def zero (addr length : BitVec 64) : Exec GuestMemory MemFault Unit := fun m =>
  if !m.guestRange addr length then (.error { addr := addr, width := length, kind := .store }, m)
  else (.ok (), { m with bytes := fun p => if p - m.hostPtr addr < length then 0 else m.bytes p })

end GuestMemory

end RiscvEmu
