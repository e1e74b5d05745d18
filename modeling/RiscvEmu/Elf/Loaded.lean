/-
What loading leaves.

A load that ends with a value has put the segments in their places one after the other (`segmentBytes`), recorded the
executable ones (`segmentRegions`), and written the words of the relocation table (`relocBytes`). It reads the file
for that, never memory, so the image is a fold over lists that the file alone determines: the loadable program headers
(`loadables`) and the relocations (`relocations`).

• `loadELFBytes_loaded`: memory and the exec regions after a load that is accepted.
-/
import RiscvEmu.Elf.Total

namespace RiscvEmu.Elf

open GuestMemory Exec List

variable {madvise : Bytes → BitVec 64 → BitVec 64 → Bytes} {slack : Nat → Nat} {data : List (BitVec 8)}
    {hdr : Elf64Header}
variable {s s' : Loader} {i n : Nat}

/-! ## Steps that end with a value -/

theorem access_ok {error : MemFault → ElfError} {m : Exec GuestMemory MemFault Unit}
    (h : access error m s = (.ok (), s')) :
    m s.mem = (.ok (), s'.mem) ∧ s' = { s with mem := s'.mem } := by
  unfold access zoom mapErr at h
  rcases hr : m s.mem with ⟨f | ⟨⟩, mem'⟩
  · rw [hr] at h
    cases h
  · rw [hr] at h
    cases h
    exact ⟨rfl, rfl⟩

theorem copyOut_ok {addr : BitVec 64} {error : MemFault → ElfError} {src : List (BitVec 8)}
    (h : copyOut error addr src s = (.ok (), s')) :
    writeBytes addr src s.mem = (.ok (), s'.mem) ∧ s' = { s with mem := s'.mem } ∧
      s'.mem.touchesGuard (s'.mem.hostPtr addr) src.length = false := by
  obtain ⟨⟨⟩, s₁, hwrite, hkeep⟩ := bind_ok_iff.mp h
  unfold keepOffGuard at hkeep
  by_cases hguard : s₁.mem.touchesGuard (s₁.mem.hostPtr addr) src.length = true
  · rw [if_pos hguard] at hkeep
    cases hkeep
  · rw [if_neg hguard] at hkeep
    cases hkeep
    obtain ⟨hmem, hs⟩ := access_ok hwrite
    exact ⟨hmem, hs, by simpa using hguard⟩

theorem writeBytes_ok {addr : BitVec 64} {m m' : GuestMemory} {src : List (BitVec 8)} (length : BitVec 64)
    (hlen : src.length = length.toNat)
    (h : writeBytes addr src m = (.ok (), m')) :
    m.guestRange addr length = true ∧ m' = { m with bytes := m.bytes.writeList addr src } := by
  have hword : BitVec.ofNat 64 src.length = length := by
    rw [hlen, BitVec.ofNat_toNat, BitVec.setWidth_eq]
  unfold writeBytes at h
  by_cases hnil : src = []
  · rw [if_pos hnil] at h
    cases h
    have hzero : length = 0 := by
      rw [← hword, hnil]
      rfl
    subst hnil
    exact ⟨by simp [guestRange, hzero], rfl⟩
  · rw [if_neg hnil, hword] at h
    have hpos : 0 < length.toNat := by
      rw [← hlen]
      exact length_pos_iff.mpr hnil
    unfold bulkCheck at h
    cases hov : m.checkAccessOverlay addr length .store with
    | some f =>
      rw [hov] at h
      cases h
    | none =>
      rw [hov] at h
      by_cases hin : m.guestRange addr length = true
      · have hlt : addr.toNat < m.size.toNat := addr_lt_of_guestRange hpos hin
        simp only [hin, if_true] at h
        cases h
        exact ⟨hin, by rw [hostPtr_of_lt hlt]⟩
      · simp only [hin] at h
        cases h

theorem seek_bind_ok {off : BitVec 64} {α : Type} {e : ElfError} {k : List (BitVec 8) → Load α} {a : α}
    (h : (seek data off e >>= k) s = (.ok a, s')) : k (data.drop off.toNat) s = (.ok a, s') := by
  obtain ⟨rest, t, hseek, hrest⟩ := bind_ok_iff.mp h
  unfold seek at hseek
  split_ifs at hseek
  · cases hseek
  · cases hseek
    exact hrest

theorem makeBytes_ok {len : BitVec 64} (h : makeBytes len s = (.ok (), s')) :
    s'.mem = s.mem ∧ s'.execRegions = s.execRegions := by
  unfold makeBytes at h
  split_ifs at h
  · cases h
    exact ⟨rfl, rfl⟩
  · cases h

theorem exists_of_isOk {α : Type} {r : Except Stop α × Loader} (h : r.1.isOk = true) : ∃ a s, r = (.ok a, s) := by
  obtain ⟨e | a, s⟩ := r
  · cases h
  · exact ⟨a, s, rfl⟩

/-! ## One segment -/

/-- the bytes of a segment that the file has -/
def fileBytes (data : List (BitVec 8)) (ph : Elf64Phdr) :
    List (BitVec 8) := (data.drop ph.offset.toNat).take ph.fileSz.toNat

def segAddr (hdr : Elf64Header) (ph : Elf64Phdr) : BitVec 64 := ph.vaddr + hdr.loadBias

/-- memory after a segment is copied and its rest cleared -/
def segmentBytes (madvise : Bytes → BitVec 64 → BitVec 64 → Bytes) (data : List (BitVec 8))
    (hdr : Elf64Header) (b : Bytes)
    (ph : Elf64Phdr) : Bytes :=
  if ph.memSz ≤ ph.fileSz then b.writeList (segAddr hdr ph) (fileBytes data ph)
  else madvise (b.writeList (segAddr hdr ph) (fileBytes data ph)) (segAddr hdr ph + ph.fileSz) (ph.memSz - ph.fileSz)

def segmentRegions (slack : Nat → Nat) (hdr : Elf64Header) (t : ExecTable) (ph : Elf64Phdr) : ExecTable :=
  if ph.flags &&& pfX = 0 then t
  else t.addExecRegion slack (segAddr hdr ph) (segAddr hdr ph + ph.memSz) (ph.flags &&& pfW ≠ 0)

structure Fits (data : List (BitVec 8)) (mem : GuestMemory) (hdr : Elf64Header) (ph : Elf64Phdr) : Prop where
  addr : ph.vaddr.toNat + hdr.loadBias.toNat < 2 ^ 64
  file : FileLoads data mem ph (segAddr hdr ph)
  bss : BssLoads mem ph (segAddr hdr ph)
  exec : ExecLoads ph (segAddr hdr ph)

/-- nothing but bytes and exec regions differs, and these are as given -/
structure Leaves (s s' : Loader) (bytes : Bytes) (regions : ExecTable) : Prop where
  mem : s'.mem = { s.mem with bytes := bytes }
  execRegions : s'.execRegions = regions

theorem writeList_nil (b : Bytes) (a : BitVec 64) : b.writeList a [] = b := rfl

theorem copySegment_ok {addr : BitVec 64} {ph : Elf64Phdr} (h : copySegment data i ph addr s = (.ok (), s')) :
    FileLoads data s.mem ph addr ∧ Leaves s s' (s.mem.bytes.writeList addr (fileBytes data ph)) s.execRegions := by
  unfold copySegment at h
  by_cases hzero : ph.fileSz = 0
  · rw [if_pos hzero] at h
    cases h
    refine ⟨fun hne => absurd hzero hne, ?_, rfl⟩
    rw [fileBytes, hzero, show BitVec.toNat (0 : BitVec 64) = 0 from rfl, take_zero, writeList_nil]
  · rw [if_neg hzero] at h
    obtain ⟨⟨⟩, s₂, hmake, h⟩ := bind_ok_iff.mp (seek_bind_ok h)
    obtain ⟨hmem, hregions⟩ := makeBytes_ok hmake
    by_cases hshort : (data.drop ph.offset.toNat).length < ph.fileSz.toNat
    · rw [if_pos hshort] at h
      cases h
    · rw [if_neg hshort] at h
      obtain ⟨hwrite, hs', hguard⟩ := copyOut_ok h
      have hlen : (fileBytes data ph).length = ph.fileSz.toNat := length_take_of_le (by omega)
      obtain ⟨hin, hbytes⟩ := writeBytes_ok ph.fileSz hlen hwrite
      rw [hmem] at hin hbytes
      have hpos : ph.fileSz.toNat ≠ 0 := fun h => hzero (BitVec.eq_of_toNat_eq h)
      have hsize : s'.mem.size = s.mem.size := by
        rw [hbytes]
        rfl
      have hptr : s'.mem.hostPtr addr = addr :=
        hostPtr_of_lt (by rw [hsize]; exact addr_lt_of_guestRange (by omega) hin)
      have hoff : s.mem.touchesGuard addr ph.fileSz.toNat = false := by
        rw [← hlen, ← hguard, hptr]
        unfold touchesGuard
        rw [hsize]
        rfl
      refine ⟨fun _ => ⟨?_, hin, hoff⟩, hbytes, ?_⟩
      · rw [length_drop] at hshort
        omega
      · rw [hs']
        exact hregions

theorem clearBss_ok {addr : BitVec 64} {ph : Elf64Phdr} (h : clearBss madvise i ph addr s = (.ok (), s')) :
    BssLoads s.mem ph addr ∧ Leaves s s'
      (if ph.memSz ≤ ph.fileSz then s.mem.bytes else madvise s.mem.bytes (addr + ph.fileSz) (ph.memSz - ph.fileSz))
        s.execRegions := by
  unfold clearBss at h
  by_cases hle : ph.memSz ≤ ph.fileSz
  · rw [if_pos hle] at h
    cases h
    exact ⟨fun hlt => absurd hle (BitVec.not_le.mpr hlt), by rw [if_pos hle], rfl⟩
  · rw [if_neg hle] at h
    by_cases hwrap : addr > BitVec.allOnes 64 - ph.fileSz
    · rw [if_pos hwrap] at h
      cases h
    · rw [if_neg hwrap] at h
      obtain ⟨hzero, hs'⟩ := access_ok h
      have hlt := BitVec.not_le.mp hle
      have hne : ph.memSz - ph.fileSz ≠ 0 := fun h => by
        rw [BitVec.sub_eq_iff_eq_add, show (0 : BitVec 64) + ph.fileSz = ph.fileSz from BitVec.zero_add _] at h
        exact hle (by rw [h]; exact BitVec.le_refl _)
      unfold zeroRange at hzero
      by_cases hin : s.mem.guestRange (addr + ph.fileSz) (ph.memSz - ph.fileSz) = true
      · rw [if_pos hin, if_neg hne] at hzero
        refine ⟨fun _ => ⟨not_not.mp fun h => hwrap ((gt_allOnes_sub_iff _ _).mpr h), hin⟩, ?_, by rw [hs']⟩
        rw [if_neg hle]
        exact (congrArg Prod.snd hzero).symm
      · rw [if_neg hin] at hzero
        cases hzero

theorem recordExec_ok {ph : Elf64Phdr} (h : recordExec slack i ph (segAddr hdr ph) s = (.ok (), s')) :
    ExecLoads ph (segAddr hdr ph) ∧ Leaves s s' s.mem.bytes (segmentRegions slack hdr s.execRegions ph) := by
  unfold recordExec at h
  by_cases hx : ph.flags &&& pfX = 0
  · rw [if_pos hx] at h
    cases h
    exact ⟨fun hne => absurd hx hne, rfl, (if_pos hx).symm⟩
  · rw [if_neg hx] at h
    by_cases hwrap : segAddr hdr ph > BitVec.allOnes 64 - ph.memSz
    · rw [if_pos hwrap] at h
      cases h
    · rw [if_neg hwrap] at h
      cases h
      exact ⟨fun _ => not_not.mp fun h => hwrap ((gt_allOnes_sub_iff _ _).mpr h), rfl, (if_neg hx).symm⟩

theorem Leaves.trans {s₁ s₂ s₃ : Loader} {b₁ b₂ : Bytes} {t₁ t₂ : ExecTable} (h₁ : Leaves s₁ s₂ b₁ t₁)
    (h₂ : Leaves s₂ s₃ b₂ t₂) :
    Leaves s₁ s₃ b₂ t₂ := by
  refine ⟨?_, h₂.execRegions⟩
  rw [h₂.mem, h₁.mem]

theorem placeSegment_ok {α : Type} {ph : Elf64Phdr} {a b : α} (haddr : ph.vaddr.toNat + hdr.loadBias.toNat < 2 ^ 64)
    (h : (copySegment data i ph (segAddr hdr ph) >>= fun _ => clearBss madvise i ph (segAddr hdr ph) >>= fun _ =>
      recordExec slack i ph (segAddr hdr ph) >>= fun _ => (pure a : Load α)) s = (.ok b, s')) :
    Fits data s.mem hdr ph ∧
      Leaves s s' (segmentBytes madvise data hdr s.mem.bytes ph) (segmentRegions slack hdr s.execRegions ph) := by
  obtain ⟨⟨⟩, s₁, hcopy, hrest⟩ := bind_ok_iff.mp h
  obtain ⟨⟨⟩, s₂, hclear, hrest⟩ := bind_ok_iff.mp hrest
  obtain ⟨⟨⟩, s₃, hrecord, hlast⟩ := bind_ok_iff.mp hrest
  cases hlast
  obtain ⟨hfile, hcopied⟩ := copySegment_ok hcopy
  obtain ⟨hbss, hcleared⟩ := clearBss_ok hclear
  obtain ⟨hexec, hrecorded⟩ := recordExec_ok hrecord
  rw [hcopied.mem] at hbss hcleared
  refine ⟨⟨haddr, hfile, hbss, hexec⟩, ?_⟩
  have hleaves := (hcopied.trans hcleared).trans hrecorded
  rw [hcleared.execRegions, hcopied.execRegions, hcleared.mem] at hleaves
  exact hleaves

/-! ## All segments -/

/-- the loadable program headers from `i` on, `n` of them -/
def loadablesFrom (data : List (BitVec 8)) (hdr : Elf64Header) (i n : Nat) : List Elf64Phdr :=
  (phdrsFrom data hdr i n).filter fun ph => ph.Loadable

def loadables (data : List (BitVec 8)) (hdr : Elf64Header) : List Elf64Phdr := loadablesFrom data hdr 0 hdr.phNum.toNat

theorem loadPhdr_ok {c c' : Nat × BitVec 64} (h : loadPhdr madvise slack data hdr hdr.loadBias i c s = (.ok c', s')) :
    ∃ ph, phdrAt data hdr i = some ph ∧
      ((¬ ph.Loadable ∧ s' = s) ∨ (ph.Loadable ∧ Fits data s.mem hdr ph ∧
        Leaves s s' (segmentBytes madvise data hdr s.mem.bytes ph) (segmentRegions slack hdr s.execRegions ph))) := by
  unfold loadPhdr at h
  replace h := seek_bind_ok h
  unfold binaryRead at h
  by_cases hin : 56 ≤ (data.drop (tableOffset hdr.phOff hdr.phEntSize i).toNat).length
  · have hph : phdrAt data hdr i = some
        (Elf64Phdr.parse (data.drop (tableOffset hdr.phOff hdr.phEntSize i).toNat)) := by
      rw [length_drop] at hin
      exact if_pos (by omega)
    rw [if_pos hin, phdr_parse_take] at h
    revert hph h
    generalize Elf64Phdr.parse (data.drop (tableOffset hdr.phOff hdr.phEntSize i).toNat) = ph
    intro h hph
    refine ⟨ph, hph, ?_⟩
    dsimp only at h
    by_cases hskip : ph.type ≠ ptLoad ∨ ph.memSz = 0
    · rw [if_pos hskip] at h
      cases h
      exact .inl ⟨fun hl => hskip.elim (fun ht => ht hl.1) fun hz => hl.2 hz, rfl⟩
    · rw [if_neg hskip] at h
      rw [not_or, not_not] at hskip
      by_cases himage : c.2 > BitVec.allOnes 64 - ph.memSz
      · rw [if_pos himage] at h
        cases h
      · rw [if_neg himage] at h
        by_cases haddr : ph.vaddr > BitVec.allOnes 64 - hdr.loadBias
        · rw [if_pos haddr] at h
          cases h
        · rw [if_neg haddr] at h
          exact .inr ⟨hskip, placeSegment_ok (not_not.mp fun hw => haddr ((gt_allOnes_sub_iff _ _).mpr hw)) h⟩
  · rw [if_neg hin] at h
    cases h

/-- what is known after the program headers from `i` on, `n` of them -/
structure SegmentsIn (madvise : Bytes → BitVec 64 → BitVec 64 → Bytes) (slack : Nat → Nat) (data : List (BitVec 8))
    (hdr : Elf64Header) (i n : Nat) (s s' : Loader) : Prop where
  present : ∀ j < n, ∃ ph, phdrAt data hdr (i + j) = some ph
  fits : ∀ ph ∈ loadablesFrom data hdr i n, Fits data s.mem hdr ph
  leaves : Leaves s s' ((loadablesFrom data hdr i n).foldl (segmentBytes madvise data hdr) s.mem.bytes)
    ((loadablesFrom data hdr i n).foldl (segmentRegions slack hdr) s.execRegions)

theorem loadPhdrs_ok {c c' : Nat × BitVec 64}
    (h : loadPhdrs madvise slack data hdr hdr.loadBias n i c s = (.ok c', s')) :
    SegmentsIn madvise slack data hdr i n s s' := by
  induction n generalizing i c s with
  | zero =>
    cases h
    exact ⟨fun j hj => absurd hj (Nat.not_lt_zero j), fun ph hph => absurd hph not_mem_nil, rfl, rfl⟩
  | succ n ih =>
    rw [loadPhdrs] at h
    obtain ⟨c₁, s₁, hfirst, hrest⟩ := bind_ok_iff.mp h
    obtain ⟨ph, hph, hstep⟩ := loadPhdr_ok hfirst
    have hlater := ih hrest
    have hpresent : ∀ j < n + 1, ∃ ph, phdrAt data hdr (i + j) = some ph := by
      intro j hj
      cases j with
      | zero => exact ⟨ph, hph⟩
      | succ j =>
        rw [show i + (j + 1) = i + 1 + j by omega]
        exact hlater.present j (by omega)
    obtain ⟨hskip, rfl⟩ | ⟨hload, hfits, hleaves⟩ := hstep
    · have hlist : loadablesFrom data hdr i (n + 1) = loadablesFrom data hdr (i + 1) n := by
        rw [loadablesFrom, phdrsFrom_cons hph, filter_cons_of_neg (by simpa using hskip)]
        rfl
      refine ⟨hpresent, ?_, ?_⟩
      · rw [hlist]
        exact hlater.fits
      · rw [hlist]
        exact hlater.leaves
    · have hlist : loadablesFrom data hdr i (n + 1) = ph :: loadablesFrom data hdr (i + 1) n := by
        rw [loadablesFrom, phdrsFrom_cons hph, filter_cons_of_pos (by simpa using hload)]
        rfl
      refine ⟨hpresent, ?_, ?_⟩
      · intro q hq
        rw [hlist] at hq
        obtain rfl | hq := mem_cons.mp hq
        · exact hfits
        · have hfit := hlater.fits q hq
          rw [hleaves.mem] at hfit
          exact ⟨hfit.addr, hfit.file, hfit.bss, hfit.exec⟩
      · have hboth := hleaves.trans hlater.leaves
        rw [hleaves.mem, hleaves.execRegions] at hboth
        rw [hlist]
        exact hboth

/-! ## The relocations -/

/-- where an entry of the relocation table sets a word, and the word -/
def relocAt (data : List (BitVec 8)) (hdr : Elf64Header) (pos : BitVec 64) : BitVec 64 × BitVec 64 :=
  (hdr.loadBias + field 64 data pos.toNat, hdr.loadBias + field 64 data (pos.toNat + 16))

def relocBytes (b : Bytes) (r : BitVec 64 × BitVec 64) : Bytes := b.writeList r.1 (Bytes.toLe 8 r.2)

/-- the relocations of a table from entry `i` on, `n` of them -/
def relocsFrom (data : List (BitVec 8)) (hdr : Elf64Header) (fileOffset ent : BitVec 64) (i n : Nat) :
    List (BitVec 64 × BitVec 64) :=
  (range' i n).map fun j => relocAt data hdr (relaPos fileOffset ent j)

/-- the relocations of a file, in their order -/
def relocations (data : List (BitVec 8)) (hdr : Elf64Header) : List (BitVec 64 × BitVec 64) :=
  if hdr.type = elfTypeDyn then
    match relaTable data hdr with
    | none => []
    | some r => relocsFrom data hdr (fileOffsetOf data hdr r.vaddr) r.ent 0 (r.size / r.ent).toNat
  else []

/-- memory after relocations, each of them within it -/
structure Relocs (rs : List (BitVec 64 × BitVec 64)) (s s' : Loader) : Prop where
  fits : ∀ r ∈ rs, s.mem.guestRange r.1 8 = true
  leaves : Leaves s s' (rs.foldl relocBytes s.mem.bytes) s.execRegions

theorem Relocs.nil (s : Loader) : Relocs [] s s := ⟨fun _ hr => absurd hr not_mem_nil, rfl, rfl⟩

theorem ofExcept_bind_ok {α : Type} {β : Type} {r : Except Stop α} {k : α → Load β} {b : β}
    (h : (ofExcept r >>= k) s = (.ok b, s')) :
    ∃ a, r = .ok a ∧ k a s = (.ok b, s') := by
  cases r with
  | error e => cases h
  | ok a => exact ⟨a, rfl, h⟩

theorem read64_ok {off : BitVec 64} {v : BitVec 64} (h : (sliceFrom data off >>= uint 64) = .ok v) :
    off.toNat + 8 ≤ data.length ∧ v = field 64 data off.toNat := by
  by_cases hoff : off.toNat ≤ data.length
  · rw [sliceFrom_ok hoff, ok_bind] at h
    unfold uint at h
    split_ifs at h with hlen
    cases h
    rw [length_drop] at hlen
    exact ⟨by omega, rfl⟩
  · rw [sliceFrom_panic (by omega), error_bind] at h
    cases h

section

variable (hmax : data.length ≤ maxAlloc)

include hmax

theorem relocateEntry_ok {pos : BitVec 64} (h : relocateEntry data hdr.loadBias i pos s = (.ok (), s')) :
    Relocs [relocAt data hdr pos] s s' := by
  unfold relocateEntry at h
  by_cases hout : pos + 24 > BitVec.ofNat 64 data.length
  · rw [if_pos hout] at h
    cases h
  · rw [if_neg hout] at h
    obtain ⟨rOffset, hoff, h₁⟩ := ofExcept_bind_ok h
    obtain ⟨rInfo, -, h₂⟩ := ofExcept_bind_ok h₁
    obtain ⟨rAddend, hadd, h₃⟩ := ofExcept_bind_ok h₂
    obtain ⟨hin, rfl⟩ := read64_ok hoff
    obtain ⟨-, rfl⟩ := read64_ok hadd
    have h16 : (pos + 16).toNat = pos.toNat + 16 := by
      unfold maxAlloc at hmax
      rw [BitVec.toNat_add, show BitVec.toNat (16 : BitVec 64) = 16 from rfl]
      omega
    dsimp only at h₃
    split_ifs at h₃
    · cases h₃
    · obtain ⟨hwrite, hs', -⟩ := copyOut_ok h₃
      obtain ⟨hrange, hbytes⟩ := writeBytes_ok 8 rfl hwrite
      rw [h16] at hbytes
      refine ⟨fun r hr => ?_, hbytes, by rw [hs']⟩
      rw [mem_singleton.mp hr]
      exact hrange

theorem relocate_ok {fileOffset ent : BitVec 64} (h : relocate data hdr.loadBias fileOffset ent n i s = (.ok (), s')) :
    Relocs (relocsFrom data hdr fileOffset ent i n) s s' := by
  induction n generalizing i s with
  | zero =>
    cases h
    exact .nil _
  | succ n ih =>
    rw [relocate] at h
    obtain ⟨⟨⟩, s₁, hfirst, hrest⟩ := bind_ok_iff.mp h
    have hone := relocateEntry_ok hmax hfirst
    have hlater := ih hrest
    have hlist : relocsFrom data hdr fileOffset ent i (n + 1) =
        relocAt data hdr (relaPos fileOffset ent i) :: relocsFrom data hdr fileOffset ent (i + 1) n := by
      rw [relocsFrom, range'_succ, map_cons]
      rfl
    rw [hlist]
    refine ⟨fun r hr => ?_, ?_⟩
    · obtain rfl | hr := mem_cons.mp hr
      · exact hone.fits _ (mem_singleton.mpr rfl)
      · have hfit := hlater.fits r hr
        rw [hone.leaves.mem] at hfit
        exact hfit
    · have hboth := hone.leaves.trans hlater.leaves
      rw [hone.leaves.mem, hone.leaves.execRegions] at hboth
      exact hboth

variable (hlen : 64 ≤ data.length)

include hlen

theorem applyDynamic_ok (hdyn : hdr.type = elfTypeDyn) (hoff : hdr.phOff ≠ 0)
    (hall : ∀ j < hdr.phNum.toNat, ∃ ph, phdrAt data hdr j = some ph)
    (h : applyDynamic data hdr.loadBias hdr.phOff hdr.phEntSize hdr.phNum
      (dynamicRange (dynamicOf data hdr)) s = (.ok (), s')) :
    Relocs (relocations data hdr) s s' := by
  have htable : ∀ r, relaTable data hdr = none ∧ r = [] ∨ (∃ t, relaTable data hdr = some t ∧
      r = relocsFrom data hdr (fileOffsetOf data hdr t.vaddr) t.ent 0 (t.size / t.ent).toNat) →
        relocations data hdr = r := by
    rintro r (⟨hnone, rfl⟩ | ⟨t, hsome, rfl⟩)
    · rw [relocations, if_pos hdyn, hnone]
    · rw [relocations, if_pos hdyn, hsome]
  unfold applyDynamic at h
  cases hsec : dynamicOf data hdr with
  | none =>
    rw [hsec] at h
    cases h
    rw [htable [] (.inl ⟨by rw [relaTable, if_neg hoff, hsec], rfl⟩)]
    exact .nil s
  | some ph =>
    rw [hsec] at h
    have hrela : relaTable data hdr = if ph.offset = 0 ∨ (relaOf data ph).vaddr = 0 ∨ (relaOf data ph).size = 0 ∨
        (relaOf data ph).ent = 0
        then none else some (relaOf data ph) := by
      rw [relaTable, if_neg hoff, hsec]
    change (if ph.offset = 0 then _ else _ : Load Unit) s = _ at h
    by_cases hzero : ph.offset = 0
    · rw [if_pos hzero] at h
      cases h
      rw [if_pos (.inl hzero)] at hrela
      rw [htable [] (.inl ⟨hrela, rfl⟩)]
      exact .nil s
    · rw [if_neg hzero] at h
      obtain ⟨r, hread, hrest⟩ := ofExcept_bind_ok h
      obtain ⟨-, hok⟩ | ⟨-, hpanic⟩ := dynamic_cases hlen hmax ph
      · have hr : relaOf data ph = r := Except.ok.inj (hok.symm.trans hread)
        rw [hr] at hrela
        unfold applyRela at hrest
        by_cases hnone : r.vaddr = 0 ∨ r.size = 0 ∨ r.ent = 0
        · rw [if_pos hnone] at hrest
          cases hrest
          rw [if_pos (.inr hnone)] at hrela
          rw [htable [] (.inl ⟨hrela, rfl⟩)]
          exact .nil s
        · rw [if_neg hnone] at hrest
          rw [if_neg fun hz => hz.elim hzero hnone] at hrela
          obtain ⟨fileOffset, hfind, happly⟩ := ofExcept_bind_ok hrest
          have hpos : relaFileOffset data hdr.phOff hdr.phEntSize r.vaddr hdr.phNum.toNat 0 = .ok
              (fileOffsetOf data hdr r.vaddr) :=
            relaFileOffset_eq hlen hmax r.vaddr (by simpa only [Nat.zero_add] using hall)
          obtain rfl : fileOffsetOf data hdr r.vaddr = fileOffset := Except.ok.inj (hpos.symm.trans hfind)
          by_cases hnot : fileOffsetOf data hdr r.vaddr = 0
          · rw [if_pos hnot] at happly
            cases happly
          · rw [if_neg hnot] at happly
            rw [htable _ (.inr ⟨r, hrela, rfl⟩)]
            exact relocate_ok hmax happly
      · exact absurd (hpanic.symm.trans hread) (by simp)

theorem relocateImage_ok (hhdr : headerOf data = hdr) (hent : hdr.phEntSize = 56) (hnum : hdr.phNum ≠ 0)
    (hall : ∀ j < hdr.phNum.toNat, ∃ ph, phdrAt data hdr j = some ph) (h : relocateImage data hdr s = (.ok (), s')) :
    Relocs (relocations data hdr) s s' := by
  unfold relocateImage at h
  by_cases hdyn : hdr.type = elfTypeDyn
  · rw [if_pos hdyn] at h
    rw [applyRelaRelocations_run hlen hmax hhdr hent hnum hall] at h
    by_cases hoff : hdr.phOff = 0
    · rw [if_pos hoff] at h
      cases h
      rw [relocations, if_pos hdyn, relaTable, if_pos hoff]
      exact .nil s
    · rw [if_neg hoff] at h
      exact applyDynamic_ok hmax hlen hdyn hoff hall h
  · rw [if_neg hdyn] at h
    cases h
    rw [relocations, if_neg hdyn]
    exact .nil s

end

/-! ## The whole file -/

theorem recordTohost_ok {ef ef' : ELF} (h : recordTohost ef s = (.ok ef', s')) :
    Leaves s s' s.mem.bytes s.execRegions := by
  unfold recordTohost at h
  obtain ⟨r, -, hset⟩ := ofExcept_bind_ok h
  cases r with
  | none =>
    cases hset
    exact ⟨rfl, rfl⟩
  | some addr =>
    cases hset
    exact ⟨rfl, rfl⟩

/-- the image of a file: the segments in their order, then the relocations -/
def imageBytes (madvise : Bytes → BitVec 64 → BitVec 64 → Bytes) (data : List (BitVec 8)) (b : Bytes) : Bytes :=
  (relocations data (headerOf data)).foldl relocBytes
    ((loadables data (headerOf data)).foldl (segmentBytes madvise data (headerOf data)) b)

/-- what is known of a load that ends with a value -/
structure Loaded (madvise : Bytes → BitVec 64 → BitVec 64 → Bytes) (slack : Nat → Nat) (data : List (BitVec 8))
    (s s' : Loader) :
    Prop where
  accepted : Accepted data
  present : ∀ j < (headerOf data).phNum.toNat, ∃ ph, phdrAt data (headerOf data) j = some ph
  fits : ∀ ph ∈ loadables data (headerOf data), Fits data s.mem (headerOf data) ph
  targets : ∀ r ∈ relocations data (headerOf data), s.mem.guestRange r.1 8 = true
  leaves : Leaves s s' (imageBytes madvise data s.mem.bytes)
    ((loadables data (headerOf data)).foldl (segmentRegions slack (headerOf data)) s.execRegions)

/-- **What loading leaves.** Program headers and segments lie in the file, segments and relocated words in memory, and
memory and the exec regions are those of the image. -/
theorem loadELFBytes_loaded {data : GoBytes} {ef : ELF} (h : loadELFBytes madvise slack data s = (.ok ef, s')) :
    Loaded madvise slack data.bytes s s' := by
  unfold loadELFBytes binaryRead at h
  by_cases hlen : 64 ≤ data.bytes.length
  · rw [if_pos hlen] at h
    dsimp only at h
    have hfold : Elf64Header.parse (data.bytes.take 64) = headerOf data.bytes := rfl
    rw [hfold] at h
    cases hcheck : checkHeader (headerOf data.bytes) with
    | some e =>
      rw [hcheck] at h
      cases h
    | none =>
      rw [hcheck] at h
      dsimp only at h
      obtain ⟨hent, hnum⟩ := checkHeader_none hcheck
      obtain ⟨c, s₁, hphdrs, hrest⟩ := bind_ok_iff.mp h
      clear h
      have hsegs : SegmentsIn madvise slack data.bytes (headerOf data.bytes) 0 (headerOf data.bytes).phNum.toNat s s₁ :=
        loadPhdrs_ok hphdrs
      have hall : ∀ j < (headerOf data.bytes).phNum.toNat, ∃ ph,
          phdrAt data.bytes (headerOf data.bytes) j = some ph := by
        simpa only [Nat.zero_add] using hsegs.present
      split_ifs at hrest
      · cases hrest
      · rw [modify_bind_run] at hrest
        unfold finishELF at hrest
        obtain ⟨⟨⟩, s₂, hreloc, hfinish⟩ := bind_ok_iff.mp hrest
        obtain ⟨shdrs, -, hsymbols⟩ := ofExcept_bind_ok hfinish
        have hmoved := relocateImage_ok data.fits hlen rfl hent hnum hall hreloc
        have hlast := recordTohost_ok hsymbols
        have htargets := hmoved.fits
        have hleaves : Leaves s s₂ _ _ := hsegs.leaves.trans ⟨hmoved.leaves.mem, hmoved.leaves.execRegions⟩
        dsimp only at htargets hleaves
        rw [hsegs.leaves.mem] at htargets hleaves
        rw [hsegs.leaves.execRegions] at hleaves
        have hall' := hleaves.trans hlast
        rw [hleaves.mem, hleaves.execRegions] at hall'
        exact ⟨⟨hlen, hcheck⟩, hall, hsegs.fits, htargets, hall'⟩
  · rw [if_neg hlen] at h
    cases h

end RiscvEmu.Elf
