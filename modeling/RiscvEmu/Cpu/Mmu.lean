/-
Guest memory as the hart sees it (`mmu.go`): direct when there is no MMU, through the software TLB and the Sv39/Sv48
walk otherwise.

A walk reads page-table entries with ordinary loads and writes back the A and D bits; a lookup that misses fills one
TLB entry. Both may fail in the middle of an instruction.
-/
import RiscvEmu.Cpu.State

namespace RiscvEmu

open Bytes

def satpModeBare : BitVec 64 := 0
def satpModeSv39 : BitVec 64 := 8
def satpModeSv48 : BitVec 64 := 9

def pteV : BitVec 64 := 1#64 <<< 0
def pteR : BitVec 64 := 1#64 <<< 1
def pteW : BitVec 64 := 1#64 <<< 2
def pteX : BitVec 64 := 1#64 <<< 3
def pteU : BitVec 64 := 1#64 <<< 4
def pteA : BitVec 64 := 1#64 <<< 6
def pteD : BitVec 64 := 1#64 <<< 7

def tlbR : BitVec 8 := 1
def tlbW : BitVec 8 := 2
def tlbX : BitVec 8 := 4
def tlbU : BitVec 8 := 8

def Cpu.setMem (m : GuestMemory) (c : Cpu) : Cpu := { c with mem := m }

/-- run a guest-memory access on the hart's memory -/
def onMem {α : Type} (a : Exec GuestMemory MemFault α) : MemOp α := Exec.zoom Cpu.mem Cpu.setMem a

def satpMode (satp : BitVec 64) : BitVec 64 := satp >>> 60

def satpWriteSupported (satp : BitVec 64) : Bool :=
  satpMode satp = satpModeBare ∨ satpMode satp = satpModeSv39 ∨ satpMode satp = satpModeSv48

def canonicalVA (addr : BitVec 64) (levels : Nat) : Bool :=
  match levels with
  | 3 =>
    if (addr >>> 38) &&& 1 = 0 then addr >>> 39 = 0 else addr >>> 39 = (1#64 <<< 25) - 1
  | 4 =>
    if (addr >>> 47) &&& 1 = 0 then addr >>> 48 = 0 else addr >>> 48 = (1#64 <<< 16) - 1
  | _ => false

def tlbPerms (pte : BitVec 64) : BitVec 8 :=
  (if pte &&& pteR ≠ 0 then tlbR else 0) ||| (if pte &&& pteW ≠ 0 then tlbW else 0) |||
    (if pte &&& pteX ≠ 0 then tlbX else 0) ||| (if pte &&& pteU ≠ 0 then tlbU else 0)

def pageFaultKind : FaultKind → FaultKind
  | .store => .pageStore
  | .fetch => .pageFetch
  | _ => .pageLoad

def pageFault (addr : BitVec 64) (kind : FaultKind) : MemFault :=
  { addr := addr, width := 1, kind := pageFaultKind kind }

namespace Cpu

variable (c : Cpu)

/-- the privilege an access is made with (`MPRV` lowers that of loads and stores) -/
def memoryPrivilege (kind : FaultKind) : PrivilegeMode :=
  if kind ≠ .fetch ∧ c.priv = privMachine ∧ c.mstatus &&& statusMPRV ≠ 0 then
    let mode := ((c.mstatus >>> 11) &&& 3).setWidth 8
    if mode = 2 then privUser else mode
  else c.priv

def mmuBypass (kind : FaultKind) : Bool := c.memoryPrivilege kind = privMachine

def accessAllowed (perms : BitVec 8) (kind : FaultKind) : Bool :=
  let priv := c.memoryPrivilege kind
  let userPage : Bool := perms &&& tlbU ≠ 0
  if priv = privUser ∧ !userPage then false
  else if priv = privSupervisor ∧ kind = .fetch ∧ userPage then false
  else if priv = privSupervisor ∧ kind ≠ .fetch ∧ userPage ∧ c.mstatus &&& statusSUM = 0 then false
  else match kind with
    | .fetch => perms &&& tlbX ≠ 0
    | .store => perms &&& tlbW ≠ 0
    | _ => perms &&& tlbR ≠ 0 ∨ (c.mstatus &&& statusMXR ≠ 0 ∧ perms &&& tlbX ≠ 0)

def canDirectMap (paddr size : BitVec 64) : Bool :=
  if paddr > c.mem.size ∨ size > c.mem.size - paddr then false
  else match c.mem.mmio with
    | some d => !d.mmioOverlaps paddr size
    | none => true

/-- the TLB entry a walk fills for the page of `addr` that a leaf at `level` maps to `ppn` -/
def tlbFill (addr ppn : BitVec 64) (level : Nat) (perms : BitVec 8) : BitVec 64 × TlbEntry :=
  let pageSize := 1#64 <<< (12 + 9 * level)
  let mask := pageSize - 1
  let paddrBase := andNot (ppn <<< 12) mask
  let direct := c.canDirectMap paddrBase pageSize
  (paddrBase ||| (addr &&& mask),
    { tag := andNot addr mask
      mask := mask
      paddrBase := paddrBase
      hostBase := if direct then c.mem.hostPtr paddrBase else 0
      perms := perms
      valid := true
      direct := direct
      mmio := !direct && (match c.mem.mmio with
        | some d => d.mmioOverlaps paddrBase pageSize
        | none => false) })

end Cpu

/-- the entry after the walk marked it accessed, and dirty for a store -/
def pteUpdated (pte : BitVec 64) (kind : FaultKind) : BitVec 64 :=
  if kind = .store then (pte ||| pteA) ||| pteD else pte ||| pteA

def writeBackPte (pteAddr pte updated : BitVec 64) : MemOp Unit :=
  if updated ≠ pte then onMem (GuestMemory.store64 pteAddr updated) else pure ()

/-- a leaf entry: check it, write its A and D bits back, and give the page it maps -/
def walkLeaf (addr : BitVec 64) (kind : FaultKind) (level : Nat) (pteAddr pte : BitVec 64) :
    MemOp (BitVec 64 × TlbEntry) := do
  let c ← Exec.gets id
  let ppn := (pte >>> 10) &&& ((1#64 <<< 44) - 1)
  if !c.accessAllowed (tlbPerms pte) kind then
    Exec.fail (pageFault addr kind)
  else if level > 0 ∧ ppn &&& ((1#64 <<< (9 * level)) - 1) ≠ 0 then
    Exec.fail (pageFault addr kind)
  else do
    writeBackPte pteAddr pte (pteUpdated pte kind)
    Exec.gets fun c => c.tlbFill addr ppn level (tlbPerms pte)

/-- the walk from the table `pt` down, `level + 1` levels to go -/
def walkFrom (addr : BitVec 64) (kind : FaultKind) : Nat → BitVec 64 → MemOp (BitVec 64 × TlbEntry)
  | 0, _ => Exec.fail (pageFault addr kind)
  | level + 1, pt => do
    let pteAddr := pt + ((addr >>> (12 + 9 * level)) &&& 0x1ff) * 8
    let pte ← onMem (GuestMemory.load64 pteAddr)
    if pte &&& pteV = 0 ∨ (pte &&& pteW ≠ 0 ∧ pte &&& pteR = 0) then
      Exec.fail (pageFault addr kind)
    else if pte &&& (pteR ||| pteX) = 0 then
      walkFrom addr kind level (((pte >>> 10) &&& ((1#64 <<< 44) - 1)) <<< 12)
    else walkLeaf addr kind level pteAddr pte

/-- `MMU.walk`: the physical address and the TLB entry to fill -/
def walk (addr : BitVec 64) (kind : FaultKind) : MemOp (BitVec 64 × TlbEntry) := do
  let c ← Exec.gets id
  let levels := if satpMode c.satp = satpModeSv39 then 3 else if satpMode c.satp = satpModeSv48 then 4 else 0
  if !canonicalVA addr levels then Exec.fail (pageFault addr kind)
  else walkFrom addr kind levels ((c.satp &&& ((1#64 <<< 44) - 1)) <<< 12)

namespace Mmu

def table (mm : Mmu) : FaultKind → BitVec 9 → TlbEntry
  | .store => mm.storeTLB
  | .fetch => mm.fetchTLB
  | _ => mm.loadTLB

/-- overwrite one entry of the table an access kind uses -/
def setEntry (mm : Mmu) (kind : FaultKind) (idx : BitVec 9) (e : TlbEntry) : Mmu :=
  match kind with
  | .store => { mm with storeTLB := fun i => if i = idx then e else mm.storeTLB i }
  | .fetch => { mm with fetchTLB := fun i => if i = idx then e else mm.fetchTLB i }
  | _ => { mm with loadTLB := fun i => if i = idx then e else mm.loadTLB i }

def flush (mm : Mmu) : Mmu :=
  { loadTLB := fun i => { mm.loadTLB i with valid := false }
    storeTLB := fun i => { mm.storeTLB i with valid := false }
    fetchTLB := fun i => { mm.fetchTLB i with valid := false } }

/-- translate an address: bypass, TLB hit, or walk and fill -/
def lookup (mm : Mmu) (addr : BitVec 64) (kind : FaultKind) : MemOp (Option TlbEntry × BitVec 64) := do
  let c ← Exec.gets id
  let idx := (addr >>> 12).setWidth 9
  let e := mm.table kind idx
  if c.mmuBypass kind ∨ satpMode c.satp = satpModeBare then
    pure (none, addr)
  else if e.valid ∧ andNot addr e.mask = e.tag ∧ c.accessAllowed e.perms kind then
    pure (some e, e.paddrBase + (addr &&& e.mask))
  else do
    let (paddr, fill) ← walk addr kind
    Exec.modify fun c => { c with mmu := some (mm.setEntry kind idx fill) }
    pure (some fill, paddr)

/-- `MMU.load`: naturally aligned only; a directly mapped page is read without further checks -/
def load (mm : Mmu) (width addr : BitVec 64) : MemOp (BitVec 64) :=
  if addr &&& (width - 1) ≠ 0 then Exec.fail { addr := addr, width := width, kind := .misalign }
  else do
    let (e, paddr) ← mm.lookup addr .load
    match e with
    | some e =>
      if e.direct then Exec.gets fun c => c.mem.bytes.readLe (e.hostBase + (addr &&& e.mask)) width.toNat
      else onMem (GuestMemory.load width paddr)
    | none => onMem (GuestMemory.load width paddr)

def store (mm : Mmu) (width addr value : BitVec 64) : MemOp Unit :=
  if addr &&& (width - 1) ≠ 0 then Exec.fail { addr := addr, width := width, kind := .misalign }
  else do
    let (e, paddr) ← mm.lookup addr .store
    match e with
    | some e =>
      if e.direct then
        Exec.modify fun c => { c with mem := { c.mem with
          bytes := c.mem.bytes.writeLe (e.hostBase + (addr &&& e.mask)) width.toNat value } }
      else onMem (GuestMemory.store width paddr value)
    | none => onMem (GuestMemory.store width paddr value)

/-- `MMU.fetch16` and `MMU.fetch32`; there is no fetch from a device page -/
def fetch (mm : Mmu) (width addr : BitVec 64) : MemOp (BitVec 64) :=
  if addr &&& (width - 1) ≠ 0 then Exec.fail { addr := addr, width := width, kind := .misalign }
  else do
    let (e, paddr) ← mm.lookup addr .fetch
    match e with
    | some e =>
      if e.direct then Exec.gets fun c => c.mem.bytes.readLe (e.hostBase + (addr &&& e.mask)) width.toNat
      else if e.mmio then Exec.fail { addr := addr, width := width, kind := .fetch }
      else onMem (GuestMemory.fetch width paddr)
    | none => onMem (GuestMemory.fetch width paddr)

end Mmu

namespace Cpu

def emptyMmu : Mmu :=
  let e : TlbEntry :=
    { tag := 0, mask := 0, paddrBase := 0, hostBase := 0, perms := 0, valid := false, direct := false, mmio := false }
  { loadTLB := fun _ => e, storeTLB := fun _ => e, fetchTLB := fun _ => e }

def enableMMU (c : Cpu) : Cpu := if c.mmu = none then { c with mmu := some emptyMmu } else c

end Cpu

/-! ## The hart's accesses -/

/-- the common body of the hart's `load8`, `load16`, `load32` and `load64` -/
def loadVia (width addr : BitVec 64) : MemOp (BitVec 64) := fun c =>
  match c.mmu with
  | none => onMem (GuestMemory.load width addr) c
  | some mm => mm.load width addr c

/-- the common body of the hart's `store8`, `store16`, `store32` and `store64` -/
def storeVia (width addr v : BitVec 64) : MemOp Unit := fun c =>
  match c.mmu with
  | none => onMem (GuestMemory.store width addr v) c
  | some mm => mm.store width addr v c

/-- the common body of the hart's `fetch16` and `fetch32` -/
def fetchVia (width addr : BitVec 64) : MemOp (BitVec 64) := fun c =>
  match c.mmu with
  | none => onMem (GuestMemory.fetch width addr) c
  | some mm => mm.fetch width addr c

def load8 (addr : BitVec 64) : MemOp (BitVec 8) := do return (← loadVia 1 addr).setWidth 8
def load16 (addr : BitVec 64) : MemOp (BitVec 16) := do return (← loadVia 2 addr).setWidth 16
def load32 (addr : BitVec 64) : MemOp (BitVec 32) := do return (← loadVia 4 addr).setWidth 32
def load64 (addr : BitVec 64) : MemOp (BitVec 64) := loadVia 8 addr

def store8 (addr : BitVec 64) (v : BitVec 8) : MemOp Unit := storeVia 1 addr (v.setWidth 64)
def store16 (addr : BitVec 64) (v : BitVec 16) : MemOp Unit := storeVia 2 addr (v.setWidth 64)
def store32 (addr : BitVec 64) (v : BitVec 32) : MemOp Unit := storeVia 4 addr (v.setWidth 64)
def store64 (addr v : BitVec 64) : MemOp Unit := storeVia 8 addr v

def fetch16 (addr : BitVec 64) : MemOp (BitVec 16) := do return (← fetchVia 2 addr).setWidth 16
def fetch32 (addr : BitVec 64) : MemOp (BitVec 32) := do return (← fetchVia 4 addr).setWidth 32

def load16U (addr : BitVec 64) : MemOp (BitVec 16) := loadBytes load8 16 addr 2
def load32U (addr : BitVec 64) : MemOp (BitVec 32) := loadBytes load8 32 addr 4
def load64U (addr : BitVec 64) : MemOp (BitVec 64) := loadBytes load8 64 addr 8

def store16U (addr : BitVec 64) (v : BitVec 16) : MemOp Unit := storeBytes store8 v addr 2
def store32U (addr : BitVec 64) (v : BitVec 32) : MemOp Unit := storeBytes store8 v addr 4
def store64U (addr v : BitVec 64) : MemOp Unit := storeBytes store8 v addr 8

def fetch32U (addr : BitVec 64) : MemOp (BitVec 32) := do
  let lo ← fetch16 addr
  let hi ← fetch16 (addr + 2)
  pure (lo.setWidth 32 ||| (hi.setWidth 32 <<< 16))

/-- the retry the interpreter writes out at every scalar access: go byte by byte when the
access was refused as misaligned -/
def orMisaligned {α : Type} (aligned bytewise : MemOp α) : MemOp α :=
  Exec.onError (fun f => f.kind = .misalign) aligned bytewise

def load16M (addr : BitVec 64) : MemOp (BitVec 16) := orMisaligned (load16 addr) (load16U addr)
def load32M (addr : BitVec 64) : MemOp (BitVec 32) := orMisaligned (load32 addr) (load32U addr)
def load64M (addr : BitVec 64) : MemOp (BitVec 64) := orMisaligned (load64 addr) (load64U addr)

def store16M (addr : BitVec 64) (v : BitVec 16) : MemOp Unit :=
  orMisaligned (store16 addr v) (store16U addr v)
def store32M (addr : BitVec 64) (v : BitVec 32) : MemOp Unit :=
  orMisaligned (store32 addr v) (store32U addr v)
def store64M (addr v : BitVec 64) : MemOp Unit := orMisaligned (store64 addr v) (store64U addr v)

end RiscvEmu
