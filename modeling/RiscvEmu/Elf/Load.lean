/-
The ELF loader (`elf.go`).

A Go function returns a value or an error, or it panics: a slice expression, an index or a length for `make` is out of
range (`Stop`). A copy to guest memory that meets the page without rights (`touchesGuard`) is a fault of the host, which
ends the process. Indices and lengths are 64-bit words; one that is negative as an `int` is above every length. The
buffers whose length comes from the input are logged (`allocs`). Loops over tables are bounded by their counters; the
one over the dynamic section, which has none, is given rounds and says so when they are used up.

What `ZeroRange` leaves in memory is up to the host (`madvise`) and a parameter.
-/
import RiscvEmu.GuestMemory
import RiscvEmu.ExecRegions

namespace RiscvEmu.Elf

open GuestMemory BitVec Bytes

/-- the errors that are returned, with what their texts mention -/
inductive ElfError where
  | readHeader
  | notElf
  | not64
  | notLittleEndian
  | notExecutable (type : BitVec 16)
  | notRiscv (machine : BitVec 16)
  | phentsize (n : BitVec 16)
  | noProgramHeaders
  | seekPhdr (i : Nat)
  | readPhdr (i : Nat)
  | imageSizeOverflow
  | addressOverflow (i : Nat)
  | seekSegment (i : Nat)
  | readSegment (i : Nat)
  | writeSegment (i : Nat) (addr : BitVec 64) (f : MemFault)
  | bssAddressOverflow (i : Nat)
  | zeroBss (i : Nat) (f : MemFault)
  | executableRangeOverflow (i : Nat)
  | noLoadSegments
  | relaFileOffset (vaddr : BitVec 64)
  | relaOutOfBounds (i : Nat)
  | relocationType (type : BitVec 64) (i : Nat)
  | writeReloc (i : Nat) (target : BitVec 64) (f : MemFault)
deriving DecidableEq, Repr

/-- how a function ends without a value: an error, a panic, the end of the process, or a loop that goes on -/
inductive Stop where
  | error (e : ElfError)
  | panic
  | killed
  | rounds
deriving DecidableEq, Repr

/-- the longest buffer that the runtime allocates -/
def maxAlloc : Nat := 2 ^ 48

/-- a file header and one program header -/
theorem headers_le_maxAlloc : 120 ≤ maxAlloc := by decide

structure GoBytes where
  bytes : List (BitVec 8)
  fits : bytes.length ≤ maxAlloc

/-! ## Slices and fields -/

def sliceFrom (b : List (BitVec 8)) (off : BitVec 64) : Except Stop (List (BitVec 8)) :=
  if off.toNat ≤ b.length then .ok (b.drop off.toNat) else .error .panic

def slice (b : List (BitVec 8)) (lo hi : BitVec 64) : Except Stop (List (BitVec 8)) :=
  if lo.toNat ≤ hi.toNat ∧ hi.toNat ≤ b.length then .ok ((b.take hi.toNat).drop lo.toNat) else .error .panic

/-- `le.Uint16`, `le.Uint32`, `le.Uint64` -/
def uint (w : Nat) (b : List (BitVec 8)) : Except Stop (BitVec w) :=
  if w / 8 ≤ b.length then .ok (ofLe w (b.take (w / 8))) else .error .panic

/-- the field of `w` bits at an offset of a structure that `binary.Read` has filled -/
def field (w : Nat) (b : List (BitVec 8)) (off : Nat) : BitVec w := ofLe w ((b.drop off).take (w / 8))

/-- `int(x) > len(b)`, for a sum of words -/
def above (x : BitVec 64) (b : List (BitVec 8)) : Prop := (b.length : Int) < x.toInt

instance (x : BitVec 64) (b : List (BitVec 8)) : Decidable (above x b) := inferInstanceAs (Decidable (_ < _))

/-! ## The headers -/

def elfMagic : List (BitVec 8) := [0x7f, 0x45, 0x4c, 0x46]
def elfClass64 : BitVec 8 := 2
def elfDataLE : BitVec 8 := 1
def elfTypeExec : BitVec 16 := 2
def elfTypeDyn : BitVec 16 := 3
def elfMachRISCV : BitVec 16 := 0xf3
def ptLoad : BitVec 32 := 1
def ptDynamic : BitVec 32 := 2
def shtProgbits : BitVec 32 := 1
def shtSymtab : BitVec 32 := 2
def pfX : BitVec 32 := 1
def pfW : BitVec 32 := 2
def staticPieBase : BitVec 64 := 0x80000000

structure Elf64Header where
  ident : List (BitVec 8)
  type : BitVec 16
  machine : BitVec 16
  entry : BitVec 64
  phOff : BitVec 64
  shOff : BitVec 64
  phEntSize : BitVec 16
  phNum : BitVec 16
  shEntSize : BitVec 16
  shNum : BitVec 16
  shStrNdx : BitVec 16
deriving DecidableEq, Repr

structure Elf64Phdr where
  type : BitVec 32
  flags : BitVec 32
  offset : BitVec 64
  vaddr : BitVec 64
  fileSz : BitVec 64
  memSz : BitVec 64
deriving DecidableEq, Repr

structure Elf64Shdr where
  name : BitVec 32
  type : BitVec 32
  addr : BitVec 64
  offset : BitVec 64
  size : BitVec 64
  link : BitVec 32
  entSize : BitVec 64
deriving DecidableEq, Repr

structure Elf64Sym where
  name : BitVec 32
  value : BitVec 64
deriving DecidableEq, Repr

def Elf64Header.parse (b : List (BitVec 8)) : Elf64Header :=
  { ident := b.take 16, type := field 16 b 16, machine := field 16 b 18, entry := field 64 b 24, phOff := field 64 b 32
    shOff := field 64 b 40, phEntSize := field 16 b 54, phNum := field 16 b 56, shEntSize := field 16 b 58
    shNum := field 16 b 60, shStrNdx := field 16 b 62 }

def Elf64Phdr.parse (b : List (BitVec 8)) : Elf64Phdr :=
  { type := field 32 b 0, flags := field 32 b 4, offset := field 64 b 8, vaddr := field 64 b 16
    fileSz := field 64 b 32, memSz := field 64 b 40 }

def Elf64Shdr.parse (b : List (BitVec 8)) : Elf64Shdr :=
  { name := field 32 b 0, type := field 32 b 4, addr := field 64 b 16, offset := field 64 b 24, size := field 64 b 32
    link := field 32 b 40, entSize := field 64 b 56 }

def Elf64Sym.parse (b : List (BitVec 8)) : Elf64Sym := { name := field 32 b 0, value := field 64 b 8 }

/-- `binary.Read` into a structure of `n` bytes; `none` is the error of an input that is too short -/
def binaryRead {α : Type} (n : Nat) (parse : List (BitVec 8) → α) (b : List (BitVec 8)) : Option α :=
  if n ≤ b.length then some (parse (b.take n)) else none

/-- the file offset of entry `i` of a table, as an `int` -/
def tableOffset (off : BitVec 64) (entSize : BitVec 16) (i : Nat) : BitVec 64 :=
  off + BitVec.ofNat 64 i * entSize.setWidth 64

/-! ## Loading -/

/-- what loading changes: guest memory with its bookkeeping, and the lengths of the buffers it allocates -/
structure Loader where
  mem : GuestMemory
  execRegions : ExecTable
  loadedELFSize : BitVec 64
  loadedELFImageSize : BitVec 64
  tohostAddr : BitVec 64
  allocs : List Nat

structure ELF where
  entry : BitVec 64
  loadBias : BitVec 64
  tohostAddr : BitVec 64
  header : Elf64Header
  shdrs : List Elf64Shdr
  data : List (BitVec 8)
deriving DecidableEq

abbrev Load (α : Type) := Exec Loader Stop α

def ofExcept {α : Type} (r : Except Stop α) : Load α := Exec.reads fun _ => r

def fail {α : Type} (e : ElfError) : Load α := Exec.fail (.error e)

/-- run an access to guest memory; a fault becomes an error -/
def access (error : MemFault → ElfError) (m : Exec GuestMemory MemFault Unit) : Load Unit :=
  Exec.zoom Loader.mem (fun mem s => { s with mem := mem }) (Exec.mapErr (fun f => .error (error f)) m)

/-- the host ends the process if the bytes that were copied meet the page without rights -/
def keepOffGuard (addr : BitVec 64) (n : Nat) : Load Unit := fun s =>
  if s.mem.touchesGuard (s.mem.hostPtr addr) n then (.error .killed, s) else (.ok (), s)

/-- `WriteBytes` -/
def copyOut (error : MemFault → ElfError) (addr : BitVec 64) (src : List (BitVec 8)) : Load Unit := do
  access error (writeBytes addr src)
  keepOffGuard addr src.length

def makeBytes (n : BitVec 64) : Load Unit :=
  if n.toNat ≤ maxAlloc then Exec.modify fun s => { s with allocs := s.allocs ++ [n.toNat] } else Exec.fail .panic

-- what `madvise` leaves of a range, and how much room `append` adds when it has to move a slice
variable (madvise : Bytes → BitVec 64 → BitVec 64 → Bytes) (slack : Nat → Nat)

def zeroRange (addr length : BitVec 64) : Exec GuestMemory MemFault Unit := fun m =>
  if m.guestRange addr length then
    (.ok (), { m with bytes := madvise m.bytes (if length = 0 then 0 else addr) length })
  else (.error { addr := addr, width := length, kind := .store }, m)

def addExecRegion (b e : BitVec 64) (isJIT : Bool) : Load Unit :=
  Exec.modify fun s => { s with execRegions := s.execRegions.addExecRegion slack b e isJIT }

/-- `byteReader.Seek` from the start: the bytes that follow -/
def seek (data : List (BitVec 8)) (off : BitVec 64) (e : ElfError) : Load (List (BitVec 8)) :=
  if off.toInt < 0 then fail e else pure (data.drop off.toNat)

/-- the file bytes of a segment go to guest memory -/
def copySegment (data : List (BitVec 8)) (i : Nat) (ph : Elf64Phdr) (segAddr : BitVec 64) : Load Unit :=
  if ph.fileSz = 0 then pure ()
  else do
    let rest ← seek data ph.offset (.seekSegment i)
    makeBytes ph.fileSz
    if rest.length < ph.fileSz.toNat then fail (.readSegment i)
    else copyOut (.writeSegment i segAddr) segAddr (rest.take ph.fileSz.toNat)

def clearBss (i : Nat) (ph : Elf64Phdr) (segAddr : BitVec 64) : Load Unit :=
  if ph.memSz ≤ ph.fileSz then pure ()
  else if segAddr > allOnes 64 - ph.fileSz then fail (.bssAddressOverflow i)
  else access (.zeroBss i) (zeroRange madvise (segAddr + ph.fileSz) (ph.memSz - ph.fileSz))

def recordExec (i : Nat) (ph : Elf64Phdr) (segAddr : BitVec 64) : Load Unit :=
  if ph.flags &&& pfX = 0 then pure ()
  else if segAddr > allOnes 64 - ph.memSz then fail (.executableRangeOverflow i)
  else addExecRegion slack segAddr (segAddr + ph.memSz) (ph.flags &&& pfW ≠ 0)

/-- program header `i`; the counters are the segments loaded so far and their size in memory -/
def loadPhdr (data : List (BitVec 8)) (hdr : Elf64Header) (loadBias : BitVec 64) (i : Nat)
    (counters : Nat × BitVec 64) : Load (Nat × BitVec 64) := do
  let rest ← seek data (tableOffset hdr.phOff hdr.phEntSize i) (.seekPhdr i)
  match binaryRead 56 Elf64Phdr.parse rest with
  | none => fail (.readPhdr i)
  | some ph =>
    if ph.type ≠ ptLoad ∨ ph.memSz = 0 then pure counters
    else if counters.2 > allOnes 64 - ph.memSz then fail .imageSizeOverflow
    else if ph.vaddr > allOnes 64 - loadBias then fail (.addressOverflow i)
    else do
      copySegment data i ph (ph.vaddr + loadBias)
      clearBss madvise i ph (ph.vaddr + loadBias)
      recordExec slack i ph (ph.vaddr + loadBias)
      pure (counters.1 + 1, counters.2 + ph.memSz)

/-- the program headers from `i` on, `n` of them -/
def loadPhdrs (data : List (BitVec 8)) (hdr : Elf64Header) (loadBias : BitVec 64) :
    Nat → Nat → Nat × BitVec 64 → Load (Nat × BitVec 64)
  | 0, _, counters => pure counters
  | n + 1, i, counters => do
    let counters ← loadPhdr madvise slack data hdr loadBias i counters
    loadPhdrs data hdr loadBias n (i + 1) counters

/-! ## Relocations -/

/-- the offset and the size of the dynamic section, 0 if there is none; `n` program headers from `i` on -/
def dynamicSegment (data : List (BitVec 8)) (phOff : BitVec 64) (phEntSize : BitVec 16) :
    Nat → Nat → Except Stop (BitVec 64 × BitVec 64)
  | 0, _ => .ok (0, 0)
  | n + 1, i =>
    let off := tableOffset phOff phEntSize i
    if above (off + 56) data then .ok (0, 0)
    else do
      let phType ← uint 32 (← sliceFrom data off)
      if phType ≠ ptDynamic then dynamicSegment data phOff phEntSize n (i + 1)
      else do
        let dynOffset ← uint 64 (← sliceFrom data (off + 8))
        let dynFileSz ← uint 64 (← sliceFrom data (off + 32))
        return (dynOffset, dynFileSz)

/-- where the relocation table is, how long it is and how long its entries are -/
structure Rela where
  vaddr : BitVec 64
  size : BitVec 64
  ent : BitVec 64
deriving DecidableEq, Repr

/-- the entries of the dynamic section from `pos` on -/
def dynamicEntries (data : List (BitVec 8)) (dynEnd : BitVec 64) : Nat → BitVec 64 → Rela → Except Stop Rela
  | 0, _, _ => .error .rounds
  | n + 1, pos, r =>
    if pos + 16 ≤ dynEnd ∧ pos + 16 ≤ BitVec.ofNat 64 data.length then do
      let tag ← uint 64 (← sliceFrom data pos)
      let val ← uint 64 (← sliceFrom data (pos + 8))
      if tag = 7 then dynamicEntries data dynEnd n (pos + 16) { r with vaddr := val }
      else if tag = 8 then dynamicEntries data dynEnd n (pos + 16) { r with size := val }
      else if tag = 9 then dynamicEntries data dynEnd n (pos + 16) { r with ent := val }
      else if tag = 0 then return r
      else dynamicEntries data dynEnd n (pos + 16) r
    else return r

/-- the file offset of an address, 0 if no loaded segment holds it; `n` program headers from `i` on -/
def relaFileOffset (data : List (BitVec 8)) (phOff : BitVec 64) (phEntSize : BitVec 16) (vaddr : BitVec 64) :
    Nat → Nat → Except Stop (BitVec 64)
  | 0, _ => .ok 0
  | n + 1, i =>
    let off := tableOffset phOff phEntSize i
    if above (off + 56) data then .ok 0
    else do
      let phType ← uint 32 (← sliceFrom data off)
      if phType ≠ ptLoad then relaFileOffset data phOff phEntSize vaddr n (i + 1)
      else do
        let segVAddr ← uint 64 (← sliceFrom data (off + 16))
        let segFileSz ← uint 64 (← sliceFrom data (off + 32))
        let segOffset ← uint 64 (← sliceFrom data (off + 8))
        if vaddr ≥ segVAddr ∧ vaddr < segVAddr + segFileSz then return segOffset + (vaddr - segVAddr)
        else relaFileOffset data phOff phEntSize vaddr n (i + 1)

/-- where entry `i` of the relocation table is in the file -/
def relaPos (fileOffset ent : BitVec 64) (i : Nat) : BitVec 64 := fileOffset + BitVec.ofNat 64 i * ent

/-- entry `i` of the relocation table, at `pos` -/
def relocateEntry (data : List (BitVec 8)) (loadBias : BitVec 64) (i : Nat) (pos : BitVec 64) : Load Unit :=
  if pos + 24 > BitVec.ofNat 64 data.length then fail (.relaOutOfBounds i)
  else do
    let rOffset ← ofExcept (sliceFrom data pos >>= uint 64)
    let rInfo ← ofExcept (sliceFrom data (pos + 8) >>= uint 64)
    let rAddend ← ofExcept (sliceFrom data (pos + 16) >>= uint 64)
    let relocType := rInfo &&& 0xffffffff
    if relocType ≠ 3 then fail (.relocationType relocType i)
    else copyOut (.writeReloc i (loadBias + rOffset)) (loadBias + rOffset) (toLe 8 (loadBias + rAddend))

/-- the entries of the relocation table from `i` on, `n` of them -/
def relocate (data : List (BitVec 8)) (loadBias fileOffset ent : BitVec 64) : Nat → Nat → Load Unit
  | 0, _ => pure ()
  | n + 1, i => do
    relocateEntry data loadBias i (relaPos fileOffset ent i)
    relocate data loadBias fileOffset ent n (i + 1)

/-- the relocation table that a dynamic section names -/
def applyRela (data : List (BitVec 8)) (loadBias phOff : BitVec 64) (phEntSize phNum : BitVec 16) (rela : Rela) :
    Load Unit :=
  if rela.vaddr = 0 ∨ rela.size = 0 ∨ rela.ent = 0 then pure ()
  else do
    let fileOffset ← ofExcept (relaFileOffset data phOff phEntSize rela.vaddr phNum.toNat 0)
    if fileOffset = 0 then fail (.relaFileOffset rela.vaddr)
    else relocate data loadBias fileOffset rela.ent (rela.size / rela.ent).toNat 0

/-- the dynamic section, by its offset and its size -/
def applyDynamic (data : List (BitVec 8)) (loadBias phOff : BitVec 64) (phEntSize phNum : BitVec 16)
    (dyn : BitVec 64 × BitVec 64) :
    Load Unit :=
  if dyn.1 = 0 then pure ()
  else do
    let rela ← ofExcept
        (dynamicEntries data (dyn.1 + dyn.2) (data.length + 1) dyn.1 { vaddr := 0, size := 0, ent := 24 })
    applyRela data loadBias phOff phEntSize phNum rela

def applyRelaRelocations (data : List (BitVec 8)) (loadBias : BitVec 64) : Load Unit :=
  if data.length < 64 then pure ()
  else do
    let phOff ← ofExcept (sliceFrom data 32 >>= uint 64)
    let phEntSize ← ofExcept (sliceFrom data 54 >>= uint 16)
    let phNum ← ofExcept (sliceFrom data 56 >>= uint 16)
    if phOff = 0 ∨ phNum = 0 ∨ phEntSize < 56 then pure ()
    else do
      let dyn ← ofExcept (dynamicSegment data phOff phEntSize phNum.toNat 0)
      applyDynamic data loadBias phOff phEntSize phNum dyn

/-! ## Sections and symbols -/

/-- the section headers from `i` on, at most `n` of them -/
def parseShdrs (data : List (BitVec 8)) (hdr : Elf64Header) : Nat → Nat → Except Stop (List Elf64Shdr)
  | 0, _ => .ok []
  | n + 1, i =>
    let off := tableOffset hdr.shOff hdr.shEntSize i
    if above (off + 64) data then .ok []
    else do
      match binaryRead 64 Elf64Shdr.parse (← sliceFrom data off) with
      | none => return []
      | some sh => return sh :: (← parseShdrs data hdr n (i + 1))

/-- the text at an offset of a string table, up to the next zero byte -/
def nameAt (names : List (BitVec 8)) (nameOff : BitVec 32) : Except Stop (List (BitVec 8)) :=
  let nameEnd := nameOff.toNat + ((names.drop nameOff.toNat).takeWhile (· ≠ 0)).length
  slice names (nameOff.setWidth 64) (BitVec.ofNat 64 nameEnd)

/-- the symbols from `i` on, `n` of them -/
def findSymbol (data strData name : List (BitVec 8)) (loadBias symOffset entSize : BitVec 64) :
    Nat → Nat → Except Stop (Option (BitVec 64))
  | 0, _ => .ok none
  | n + 1, i =>
    let off := symOffset + BitVec.ofNat 64 i * entSize
    if above (off + 24) data then .ok none
    else do
      match binaryRead 24 Elf64Sym.parse (← sliceFrom data off) with
      | none => return none
      | some sym =>
        if sym.name.toNat ≥ strData.length then findSymbol data strData name loadBias symOffset entSize n (i + 1)
        else if (← nameAt strData sym.name) = name then return some (loadBias + sym.value)
        else findSymbol data strData name loadBias symOffset entSize n (i + 1)

/-- how long a symbol is taken to be -/
def symEntSize (symtab : Elf64Shdr) : BitVec 64 := if symtab.entSize.toInt < 24 then 24 else symtab.entSize

/-- how many symbols there are taken to be -/
def symCount (symtab : Elf64Shdr) : Nat := (symtab.size.toInt.tdiv (symEntSize symtab).toInt).toNat

def ELF.findSymbolAddr (ef : ELF) (name : List (BitVec 8)) : Except Stop (Option (BitVec 64)) :=
  match ef.shdrs.find? fun sh => sh.type = shtSymtab with
  | none => .ok none
  | some symtab =>
    match ef.shdrs[symtab.link.toNat]? with
    | none => .ok none
    | some strtab =>
      if BitVec.ofNat 64 ef.data.length < strtab.offset + strtab.size then .ok none
      else do
        let strData ← slice ef.data strtab.offset (strtab.offset + strtab.size)
        findSymbol ef.data strData name ef.loadBias symtab.offset (symEntSize symtab) (symCount symtab) 0

/-! ## The entry points -/

def tohost : List (BitVec 8) := [0x74, 0x6f, 0x68, 0x6f, 0x73, 0x74]

def checkHeader (hdr : Elf64Header) : Option ElfError :=
  if hdr.ident.take 4 ≠ elfMagic then some .notElf
  else if hdr.ident.getD 4 0 ≠ elfClass64 then some .not64
  else if hdr.ident.getD 5 0 ≠ elfDataLE then some .notLittleEndian
  else if hdr.type ≠ elfTypeExec ∧ hdr.type ≠ elfTypeDyn then some (.notExecutable hdr.type)
  else if hdr.machine ≠ elfMachRISCV then some (.notRiscv hdr.machine)
  else if hdr.phEntSize ≠ 56 then some (.phentsize hdr.phEntSize)
  else if hdr.phNum = 0 then some .noProgramHeaders
  else none

def Elf64Header.loadBias (hdr : Elf64Header) : BitVec 64 := if hdr.type = elfTypeDyn then staticPieBase else 0

def sections (data : List (BitVec 8)) (hdr : Elf64Header) : Except Stop (List Elf64Shdr) :=
  if hdr.shOff ≠ 0 ∧ hdr.shNum ≠ 0 ∧ hdr.shEntSize ≥ 64 then parseShdrs data hdr hdr.shNum.toNat 0 else .ok []

def relocateImage (data : List (BitVec 8)) (hdr : Elf64Header) : Load Unit :=
  if hdr.type = elfTypeDyn then applyRelaRelocations data hdr.loadBias else pure ()

def recordTohost (ef : ELF) : Load ELF := do
  match ← ofExcept (ef.findSymbolAddr tohost) with
  | none => return ef
  | some addr => do
    Exec.modify fun s => { s with tohostAddr := addr }
    return { ef with tohostAddr := addr }

/-- what follows the segments: relocations, section headers, and the symbol of the host interface -/
def finishELF (data : List (BitVec 8)) (hdr : Elf64Header) : Load ELF := do
  relocateImage data hdr
  let shdrs ← ofExcept (sections data hdr)
  recordTohost { entry := hdr.entry +
    hdr.loadBias, loadBias := hdr.loadBias, tohostAddr := 0, header := hdr, shdrs := shdrs, data := data }

def loadELFBytes (data : GoBytes) : Load ELF :=
  match binaryRead 64 Elf64Header.parse data.bytes with
  | none => fail .readHeader
  | some hdr =>
    match checkHeader hdr with
    | some e => fail e
    | none => do
      let counters ← loadPhdrs madvise slack data.bytes hdr hdr.loadBias hdr.phNum.toNat 0 (0, 0)
      if counters.1 = 0 then fail .noLoadSegments
      else do
        Exec.modify fun s =>
          { s with loadedELFSize := BitVec.ofNat 64 data.bytes.length, loadedELFImageSize := counters.2 }
        finishELF data.bytes hdr

def dotText : List (BitVec 8) := [0x2e, 0x74, 0x65, 0x78, 0x74]

/-- the section headers from `i` on, `n` of them, until the text section -/
def findText (data names : List (BitVec 8)) (shOff : BitVec 64) (shEntSize : BitVec 16) :
    Nat → Nat → Except Stop (Option (BitVec 64 × BitVec 64))
  | 0, _ => .ok none
  | n + 1, i =>
    let off := tableOffset shOff shEntSize i
    if above (off + 64) data then .ok none
    else do
      match binaryRead 64 Elf64Shdr.parse (← sliceFrom data off) with
      | none => return none
      | some sh =>
        if sh.type ≠ shtProgbits then findText data names shOff shEntSize n (i + 1)
        else if sh.name.toNat ≥ names.length then findText data names shOff shEntSize n (i + 1)
        else if (← nameAt names sh.name) = dotText then return some (sh.addr, sh.size)
        else findText data names shOff shEntSize n (i + 1)

/-- a 64-bit ELF file, as far as its first bytes tell -/
def isElf64 (data : List (BitVec 8)) : Prop := data.take 4 = elfMagic ∧ data.getD 4 0 = elfClass64

instance (data : List (BitVec 8)) : Decidable (isElf64 data) := inferInstanceAs (Decidable (_ ∧ _))

def findTextSection (data : GoBytes) : Except Stop (Option (BitVec 64 × BitVec 64)) :=
  if data.bytes.length < 64 then .ok none
  else if ¬ isElf64 data.bytes then .ok none
  else do
    let shOff ← uint 64 (← sliceFrom data.bytes 40)
    let shEntSize ← uint 16 (← sliceFrom data.bytes 58)
    let shNum ← uint 16 (← sliceFrom data.bytes 60)
    let shStrNdx ← uint 16 (← sliceFrom data.bytes 62)
    if shOff = 0 ∨ shNum = 0 ∨ shEntSize < 64 ∨ shStrNdx ≥ shNum then return none
    else do
      let shstrOff := tableOffset shOff shEntSize shStrNdx.toNat
      if above (shstrOff + 64) data.bytes then return none
      else do
        match binaryRead 64 Elf64Shdr.parse (← sliceFrom data.bytes shstrOff) with
        | none => return none
        | some shstr =>
          if BitVec.ofNat 64 data.bytes.length < shstr.offset + shstr.size then return none
          else do
            let names ← slice data.bytes shstr.offset (shstr.offset + shstr.size)
            findText data.bytes names shOff shEntSize shNum.toNat 0

structure ExecLoad where
  vaddr : BitVec 64
  memSz : BitVec 64
  writable : Bool
deriving DecidableEq, Repr

def ExecLoad.ofPhdr (ph : Elf64Phdr) : ExecLoad :=
  { vaddr := ph.vaddr, memSz := ph.memSz, writable := ph.flags &&& pfW ≠ 0 }

/-- the executable segments among the program headers from `i` on, `n` of them -/
def execLoads (data : List (BitVec 8)) (phOff : BitVec 64) (phEntSize : BitVec 16) :
    Nat → Nat → List ExecLoad → Except Stop (Option (List ExecLoad))
  | 0, _, out => .ok (some out)
  | n + 1, i, out =>
    let off := tableOffset phOff phEntSize i
    if above (off + 56) data then .ok none
    else do
      match binaryRead 56 Elf64Phdr.parse (← sliceFrom data off) with
      | none => return none
      | some ph =>
        if ph.type ≠ ptLoad ∨ ph.flags &&& pfX = 0 ∨ ph.memSz = 0 then execLoads data phOff phEntSize n (i + 1) out
        else execLoads data phOff phEntSize n (i + 1) (out ++ [.ofPhdr ph])

def findExecLoads (data : GoBytes) : Except Stop (Option (List ExecLoad)) :=
  if data.bytes.length < 64 then .ok none
  else if ¬ isElf64 data.bytes then .ok none
  else do
    let phOff ← uint 64 (← sliceFrom data.bytes 32)
    let phEntSize ← uint 16 (← sliceFrom data.bytes 54)
    let phNum ← uint 16 (← sliceFrom data.bytes 56)
    if phOff = 0 ∨ phNum = 0 ∨ phEntSize < 56 then return none
    else execLoads data.bytes phOff phEntSize phNum.toNat 0 []

end RiscvEmu.Elf
