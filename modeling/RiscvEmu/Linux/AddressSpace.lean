/-
The address space of a process (`jea9linux.go`): the page map, and the calls `mmap` and `munmap`.

A page that is not in the page map is accessible; one that is there is accessible if it is marked as mapped, as its
protection says. Zeroing is put off for pages that are mapped without access (`pageNeedsZero`). The page map is the
overlay of guest memory, so `AddressSpace` keeps the two together.
-/
import RiscvEmu.Linux.Run
import RiscvEmu.Elf.Load

namespace RiscvEmu.Linux

open Elf

/-! ## The page map -/

def pageNeedsZero : BitVec 64 := 1#64 <<< 62

def mapFixed : BitVec 64 := 0x10
def mapAnonymous : BitVec 64 := 0x20

/-- `jea9LinuxPageRange` -/
def pagesIn (addr length memSize : BitVec 64) : Option (BitVec 64 × BitVec 64) :=
  if length = 0 then none
  else if addr + length < addr ∨ addr + length > memSize then none
  else if alignUp (addr + length) < alignDown addr ∨ alignUp (addr + length) > memSize then none
  else some (alignDown addr, alignUp (addr + length))

namespace VM

variable (vm : VM)

/-- the page is one of those that a loop over `[addr, addr + length)` visits -/
def covers (addr length page : BitVec 64) : Prop :=
  alignDown addr / guestPageSize ≤ page ∧ page < alignUp (addr + length) / guestPageSize

instance (addr length page : BitVec 64) : Decidable (covers addr length page) := inferInstanceAs (Decidable (_ ∧ _))

/-- other states for the pages of a range -/
def updateRange (addr length : BitVec 64) (state : BitVec 64 → BitVec 64) : VM :=
  if length = 0 then vm
  else { vm with pages := fun page => if covers addr length page then some (state page) else vm.pages page }

def mapRangeState (addr length prot extra : BitVec 64) : VM :=
  vm.updateRange addr length fun _ => pageMapped ||| (prot &&& protMask) ||| extra

def unmapRange (addr length : BitVec 64) : VM := vm.updateRange addr length fun _ => 0

end VM

/-! ## The state -/

/-- a process's memory: the slab with the page map as its overlay, the table of executable regions, and the break -/
structure AddressSpace where
  mem : GuestMemory
  execRegions : ExecTable
  vm : VM
  brk : BitVec 64
  minBrk : BitVec 64
  watched : mem.accessOverlay = some vm.overlay
  sized : vm.guestSize = mem.size
  boardless : mem.mmio = none

namespace AddressSpace

variable (s : AddressSpace)

/-- another page map for the same slab -/
def setVM (vm : VM) : AddressSpace :=
  let vm' := { vm with guestSize := s.vm.guestSize }
  { s with
    vm := vm', mem := { s.mem with accessOverlay := some vm'.overlay }
    watched := rfl, sized := s.sized, boardless := s.boardless }

def setBytes (bytes : Bytes) : AddressSpace :=
  { s with mem := { s.mem with bytes := bytes }, watched := s.watched, sized := s.sized, boardless := s.boardless }

/-- an access to guest memory; without a board it changes bytes only -/
def onMem {α : Type} (x : Exec GuestMemory MemFault α) : Exec AddressSpace MemFault α := fun s =>
  ((x s.mem).1, s.setBytes (x s.mem).2.bytes)

end AddressSpace

/-- a call on the address space: a value, or an error number -/
abbrev SpaceCall := Exec AddressSpace (BitVec 64)

namespace AddressSpace

-- how much room `append` adds when it has to move the table of executable regions
variable (slack : Nat → Nat)

def removeExecRegion (b e : BitVec 64) : SpaceCall Unit :=
  Exec.modify fun s => { s with execRegions := s.execRegions.removeExecRegion slack b e }

def updateExecMetadata (addr length prot : BitVec 64) : SpaceCall Unit :=
  if prot &&& protExec ≠ 0 then
    Exec.modify fun s => { s with
      execRegions := s.execRegions.addExecRegion slack (alignDown addr) (alignUp (addr + length))
        (prot &&& protWrite ≠ 0) }
  else removeExecRegion slack (alignDown addr) (alignUp (addr + length))

/-! ## The calls -/

/-- the pages of a new mapping are entered in the page map -/
def enterMapping (chosen length prot extra : BitVec 64) : SpaceCall (BitVec 64) := do
  Exec.modify fun s => s.setVM (s.vm.mapRangeState chosen length prot extra)
  updateExecMetadata slack chosen length prot
  return chosen

/-- a new mapping at an address that has been chosen -/
def placeMapping (chosen length prot : BitVec 64) : SpaceCall (BitVec 64) := fun s =>
  if prot = 0 then enterMapping slack chosen length prot pageNeedsZero s
  else
    match onMem (GuestMemory.zero chosen length) s with
    | (.error _, s') => (.error errENOMEM, s')
    | (.ok _, s') => enterMapping slack chosen length prot 0 s'

/-- a mapping at the address that the guest gives -/
def mmapFixed (addr length prot : BitVec 64) : SpaceCall (BitVec 64) := fun s =>
  if addr = 0 ∨ addr % guestPageSize ≠ 0 then (.error errEINVAL, s)
  else if pagesIn addr length s.vm.guestSize = none then (.error errEINVAL, s)
  else placeMapping slack addr length prot s

/-- a mapping at an address that is looked for -/
def mmapAnywhere (length prot : BitVec 64) : SpaceCall (BitVec 64) := fun s =>
  match s.vm.allocRange length with
  | (none, vm) => (.error errENOMEM, s.setVM vm)
  | (some chosen, vm) => placeMapping slack chosen length prot (s.setVM vm)

def sysMmap (addr length prot flags : BitVec 64) : SpaceCall (BitVec 64) := fun s =>
  if length = 0 ∨ andNot prot protMask ≠ 0 then (.error errEINVAL, s)
  else if flags &&& mapAnonymous = 0 then (.error errEINVAL, s)
  else if flags &&& mapFixed ≠ 0 then mmapFixed slack addr (alignUp length) prot s
  else mmapAnywhere slack (alignUp length) prot s

def sysMunmap (addr length : BitVec 64) : SpaceCall Unit := fun s =>
  if addr % guestPageSize ≠ 0 then (.error errEINVAL, s)
  else
    match pagesIn addr length s.vm.guestSize with
    | none => (.error errEINVAL, s)
    | some (b, e) => removeExecRegion slack b e (s.setVM (s.vm.unmapRange b (e - b)))

end AddressSpace

end RiscvEmu.Linux
