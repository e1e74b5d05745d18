/-
Translating a loaded file ahead of time (`InstallAOT` of `jit.go`).

`InstallAOT` walks the program headers a second time (`FindExecLoads`), records the executable segments in the exec
regions of memory and hands each of them to the translator. The loader has recorded them where it put them, moved by
the load bias; this walk takes the addresses as they stand in the file.

• `installAOT_same_iff`: it adds nothing to what the loader has recorded just if the ranges without the bias lie in
  those with it.
• `unmoved_of_exec`: in a file that is not position-independent they are the same.
• `unmoved_dyn_iff`: in one that is, they agree only if they are empty.
-/
import RiscvEmu.Elf.Loaded

namespace RiscvEmu.Elf

open List

variable {madvise : Bytes → BitVec 64 → BitVec 64 → Bytes} {slack : Nat → Nat} {data : List (BitVec 8)}
    {hdr : Elf64Header}
variable {s s' : Loader} {i n : Nat}

/-! ## The translator's walk -/

/-- the exec regions after a segment that `FindExecLoads` found -/
def ExecLoad.record (slack : Nat → Nat) (t : ExecTable) (load : ExecLoad) : ExecTable :=
  t.addExecRegion slack load.vaddr (load.vaddr + load.memSz) load.writable

/-- the range that is handed to `compileAOTRegion` -/
def ExecLoad.range (load : ExecLoad) : BitVec 64 × BitVec 64 := (load.vaddr, load.vaddr + load.memSz)

/-- the exec regions of memory, and the ranges that are translated. A translator for another memory model returns an
error first -/
def installAOT (slack : Nat → Nat) (jitModel : MemoryModel) (data : GoBytes) (mem : GuestMemory) (t : ExecTable) :
    Except Stop (ExecTable × List (BitVec 64 × BitVec 64)) :=
  if jitModel ≠ mem.model then .ok (t, [])
  else do
    match ← findExecLoads data with
    | none => return (t, [])
    | some loads => return (loads.foldl (ExecLoad.record slack) t, loads.map ExecLoad.range)

/-! ## What the two walks record -/

def executables (data : List (BitVec 8)) (hdr : Elf64Header) : List Elf64Phdr :=
  (loadables data hdr).filter fun ph => ph.flags &&& pfX ≠ 0

/-- the addresses that loading a file records as executable -/
def registered (data : List (BitVec 8)) (hdr : Elf64Header) : Set (BitVec 64) :=
  { pc | ∃ ph ∈ executables data hdr, pc ∈ addresses (segAddr hdr ph) (segAddr hdr ph + ph.memSz) }

/-- the executable segments, where the file has them, lie in those that loading records -/
def Unmoved (data : List (BitVec 8)) : Prop :=
  ∀ ph ∈ executables data (headerOf data), addresses ph.vaddr (ph.vaddr + ph.memSz) ⊆ registered data (headerOf data)

theorem foldl_segmentRegions_found (l : List Elf64Phdr) (t : ExecTable) (pc : BitVec 64) :
    (l.foldl (segmentRegions slack hdr) t).findExecRegion pc ≠ none ↔ t.findExecRegion pc ≠ none ∨
      ∃ ph ∈ l.filter fun ph => ph.flags &&& pfX ≠ 0, pc ∈ addresses (segAddr hdr ph) (segAddr hdr ph + ph.memSz) := by
  induction l generalizing t with
  | nil => simp
  | cons ph l ih =>
    rw [foldl_cons, ih]
    unfold segmentRegions
    by_cases hx : ph.flags &&& pfX = 0
    · rw [if_pos hx, filter_cons_of_neg (by simpa using hx)]
    · rw [if_neg hx, filter_cons_of_pos (by simpa using hx), addExecRegion_found, or_assoc]
      simp only [mem_cons, exists_eq_or_imp]

theorem foldl_record_found (loads : List ExecLoad) (t : ExecTable) (pc : BitVec 64) :
    (loads.foldl (ExecLoad.record slack) t).findExecRegion pc ≠ none ↔ t.findExecRegion pc ≠ none ∨
      ∃ load ∈ loads, pc ∈ addresses load.vaddr (load.vaddr + load.memSz) := by
  induction loads generalizing t with
  | nil => simp
  | cons load loads ih =>
    rw [foldl_cons, ih]
    unfold ExecLoad.record
    rw [addExecRegion_found, or_assoc]
    simp only [mem_cons, exists_eq_or_imp]

section

variable (hlen : 64 ≤ data.length) (hmax : data.length ≤ maxAlloc)

include hlen hmax

/-- the second walk finds the executable segments, when the program headers lie in the file -/
theorem execLoads_eq (out : List ExecLoad) (hall : ∀ j < n, ∃ ph, phdrAt data hdr (i + j) = some ph) :
    execLoads data hdr.phOff hdr.phEntSize n i out =
      .ok (some (out ++ ((loadablesFrom data hdr i n).filter fun ph => ph.flags &&& pfX ≠ 0).map ExecLoad.ofPhdr)) := by
  induction n generalizing i out with
  | zero => rw [execLoads]; simp [loadablesFrom, phdrsFrom]
  | succ n ih =>
    obtain ⟨⟨ph, hph⟩, hrest⟩ := forall_shift (fun j => ∃ ph, phdrAt data hdr j = some ph) hall
    obtain ⟨hin, hparse⟩ := phdrAt_some hph
    have htame : ¬ Wild (tableOffset hdr.phOff hdr.phEntSize i) 56 := by
      unfold Wild maxAlloc at *
      omega
    rw [execLoads, entry_eq hlen hmax (n := 56) rfl (by decide) htame, if_pos hin, binaryRead_drop hin,
      phdr_parse_take, hparse]
    dsimp only
    by_cases hload : ph.Loadable
    · have hlist : loadablesFrom data hdr i (n + 1) = ph :: loadablesFrom data hdr (i + 1) n := by
        rw [loadablesFrom, phdrsFrom_cons hph, filter_cons_of_pos (by simpa using hload)]
        rfl
      by_cases hx : ph.flags &&& pfX = 0
      · rw [if_pos (.inr (.inl hx)), ih out hrest, hlist, filter_cons_of_neg (by simpa using hx)]
      · rw [if_neg (by rintro (h | h | h); exacts [h hload.1, hx h, hload.2 h]), ih _ hrest, hlist,
          filter_cons_of_pos (by simpa using hx), map_cons, append_assoc, singleton_append]
    · have hlist : loadablesFrom data hdr i (n + 1) = loadablesFrom data hdr (i + 1) n := by
        rw [loadablesFrom, phdrsFrom_cons hph, filter_cons_of_neg (by simpa using hload)]
        rfl
      have hskip : ph.type ≠ ptLoad ∨ ph.flags &&& pfX = 0 ∨ ph.memSz = 0 := by
        by_contra hnot
        rw [not_or, not_or, not_not] at hnot
        exact hload ⟨hnot.1, hnot.2.2⟩
      rw [if_pos hskip, ih out hrest, hlist]

end

theorem isElf64_of_accepted (h : Accepted data) : isElf64 data := by
  obtain ⟨-, hcheck⟩ := h
  have hident : (headerOf data).ident = (data.take 64).take 16 := rfl
  unfold checkHeader at hcheck
  rw [hident] at hcheck
  have hmagic : ((data.take 64).take 16).take 4 = data.take 4 := by
    rw [take_take, take_take]
    rfl
  have hclass : ((data.take 64).take 16).getD 4 0 = data.getD 4 0 := by
    rw [take_take, getD_eq_getElem?_getD, getD_eq_getElem?_getD, getElem?_take_of_lt (by decide)]
  rw [hmagic, hclass] at hcheck
  unfold isElf64
  split_ifs at hcheck with h₁ h₂
  exact ⟨not_not.mp h₁, not_not.mp h₂⟩

/-- after a load `FindExecLoads` ends with the executable segments, or with nothing if the program headers stand at
offset 0 -/
theorem findExecLoads_loaded {data : GoBytes} (h : Loaded madvise slack data.bytes s s') :
    findExecLoads data = .ok (if (headerOf data.bytes).phOff = 0 then none
      else some ((executables data.bytes (headerOf data.bytes)).map ExecLoad.ofPhdr)) := by
  obtain ⟨hlen, hcheck⟩ := h.accepted
  obtain ⟨hent, hnum⟩ := checkHeader_none hcheck
  have hphOff : field 64 data.bytes 32 = (headerOf data.bytes).phOff := (field_take (by decide)).symm
  have hphEnt : field 16 data.bytes 54 = (headerOf data.bytes).phEntSize := (field_take (by decide)).symm
  have hphNum : field 16 data.bytes 56 = (headerOf data.bytes).phNum := (field_take (by decide)).symm
  unfold findExecLoads
  rw [if_neg (by omega), if_neg (not_not.mpr (isElf64_of_accepted h.accepted)), read_bind 32 32 64 rfl (by omega),
    read_bind 54 54 16 rfl (by omega), read_bind 56 56 16 rfl (by omega), hphOff, hphEnt, hphNum]
  by_cases hoff : (headerOf data.bytes).phOff = 0
  · rw [if_pos (.inl hoff), if_pos hoff]
    rfl
  · have hpresent :
        ¬ ((headerOf data.bytes).phOff = 0 ∨ (headerOf data.bytes).phNum = 0 ∨
        (headerOf data.bytes).phEntSize < 56) := by
      rw [hent]
      exact fun h => h.elim hoff fun h => h.elim hnum fun h => absurd h (by decide)
    rw [if_neg hpresent, if_neg hoff, execLoads_eq hlen data.fits [] (by simpa only [Nat.zero_add] using h.present)]
    rfl

/-! ## The same addresses -/

theorem loadELFBytes_found {data : List (BitVec 8)} (h : Loaded madvise slack data s s') (pc : BitVec 64) :
    s'.execRegions.findExecRegion pc ≠ none ↔
      s.execRegions.findExecRegion pc ≠ none ∨ pc ∈ registered data (headerOf data) := by
  rw [h.leaves.execRegions, foldl_segmentRegions_found]
  rfl

/-- what `InstallAOT` records and translates is what loading has recorded, and no address becomes executable by it -/
structure OnlyRegistered (data : List (BitVec 8)) (t : ExecTable) (r : ExecTable × List (BitVec 64 × BitVec 64)) :
    Prop where
  ranges : ∀ x ∈ r.2, addresses x.1 x.2 ⊆ registered data (headerOf data)
  found : ∀ pc, r.1.findExecRegion pc ≠ none ↔ t.findExecRegion pc ≠ none

/-- the second walk is made, and what it records is what loading has recorded if the ranges agree -/
theorem onlyRegistered_iff (h : Loaded madvise slack data s s') :
    OnlyRegistered data s'.execRegions
      (((executables data (headerOf data)).map ExecLoad.ofPhdr).foldl (ExecLoad.record slack) s'.execRegions,
      ((executables data (headerOf data)).map ExecLoad.ofPhdr).map ExecLoad.range) ↔ Unmoved data := by
  constructor
  · intro honly ph hph
    exact honly.ranges _ (mem_map.mpr ⟨_, mem_map.mpr ⟨ph, hph, rfl⟩, rfl⟩)
  · intro hsame
    refine ⟨fun x hx => ?_, fun pc => ?_⟩
    · obtain ⟨load, hload, rfl⟩ := mem_map.mp hx
      obtain ⟨ph, hph, rfl⟩ := mem_map.mp hload
      exact hsame ph hph
    · rw [foldl_record_found]
      refine ⟨fun hfound => hfound.elim id fun ⟨load, hload, hpc⟩ => ?_, .inl⟩
      obtain ⟨ph, hph, rfl⟩ := mem_map.mp hload
      exact (loadELFBytes_found h pc).mpr (.inr (hsame ph hph hpc))

theorem unmoved_of_exec (h : (headerOf data).type ≠ elfTypeDyn) : Unmoved data := by
  intro ph hph pc hpc
  refine ⟨ph, hph, ?_⟩
  rw [segAddr, Elf64Header.loadBias, if_neg h, show ph.vaddr + 0 = ph.vaddr from BitVec.add_zero _]
  exact hpc

/-- **Position-independent files.** Unless an address of the file wraps round when it is moved, nothing agrees but
empty ranges: any other would have to meet one that stands 2 GiB below it in the file, and so on. -/
theorem unmoved_dyn_iff (hdyn : (headerOf data).type = elfTypeDyn)
    (hwrap : ∀ ph ∈ executables data (headerOf data), ph.vaddr.toNat + 2 ^ 31 < 2 ^ 64) :
    Unmoved data ↔ ∀ ph ∈ executables data (headerOf data), addresses ph.vaddr (ph.vaddr + ph.memSz) = ∅ := by
  have hbias : (headerOf data).loadBias = 0x80000000 := if_pos hdyn
  constructor
  · intro h
    have hempty : ∀ n, ∀ ph ∈ executables data (headerOf data), ph.vaddr.toNat = n →
        addresses ph.vaddr (ph.vaddr + ph.memSz) = ∅ := by
      intro n
      induction n using Nat.strong_induction_on with
      | _ n ih =>
        rintro ph hph rfl
        by_contra hne
        have hlt : ph.vaddr < ph.vaddr + ph.memSz := BitVec.not_le.mp fun hle => hne (addresses_empty hle)
        obtain ⟨q, hq, hfrom, hto⟩ := h ph hph ⟨BitVec.le_refl _, hlt⟩
        have hwrapq := hwrap q hq
        rw [segAddr, hbias] at hfrom hto
        have hbelow : q.vaddr.toNat < ph.vaddr.toNat := by bv_omega
        have hin : q.vaddr ∈ addresses q.vaddr (q.vaddr + q.memSz) := ⟨BitVec.le_refl _, by bv_omega⟩
        rw [ih _ hbelow q hq rfl] at hin
        exact hin
    exact fun ph hph => hempty _ ph hph rfl
  · intro h ph hph
    rw [h ph hph]
    exact Set.empty_subset _

/-- **Ahead-of-time translation after a load.** `InstallAOT` returns, and records and translates nothing but what the
loader recorded for the file, without making an address executable, just if: the translator is for another memory model,
or the program headers stand at offset 0 and are not walked again, or the executable segments lie, where the file has
them, in the ranges where they were loaded. -/
theorem installAOT_same_iff {data : GoBytes} {ef : ELF} (jitModel : MemoryModel)
    (hload : loadELFBytes madvise slack data s = (.ok ef, s')) :
    ∃ r, installAOT slack jitModel data s'.mem s'.execRegions = .ok r ∧
      (OnlyRegistered data.bytes s'.execRegions r ↔
        (jitModel = s.mem.model → (headerOf data.bytes).phOff ≠ 0 → Unmoved data.bytes)) := by
  have h := loadELFBytes_loaded hload
  have hmodel : s'.mem.model = s.mem.model := by rw [h.leaves.mem]
  have hnothing : OnlyRegistered data.bytes s'.execRegions (s'.execRegions, []) :=
    ⟨fun x hx => absurd hx not_mem_nil, fun pc => Iff.rfl⟩
  unfold installAOT
  rw [hmodel]
  by_cases hsame : jitModel = s.mem.model
  · rw [if_neg (not_not.mpr hsame), findExecLoads_loaded h, ok_bind]
    by_cases hoff : (headerOf data.bytes).phOff = 0
    · rw [if_pos hoff]
      exact ⟨_, rfl, iff_of_true hnothing fun _ hne => absurd hoff hne⟩
    · rw [if_neg hoff]
      refine ⟨_, rfl, (onlyRegistered_iff h).trans ?_⟩
      exact ⟨fun hunmoved _ _ => hunmoved, fun hunmoved => hunmoved hsame hoff⟩
  · rw [if_pos hsame]
    exact ⟨_, rfl, iff_of_true hnothing fun heq => absurd heq hsame⟩

/-! ## A small file -/

/-- a file of the given type with one segment of a page, readable and executable, at address 0x1000 -/
def pageImage (type : BitVec 8) : GoBytes :=
  { bytes := [0x7f, 0x45, 0x4c, 0x46, 2, 1, 1, 0, 0, 0, 0, 0, 0, 0, 0, 0,
      type, 0, 0xf3, 0, 1, 0, 0, 0, 0, 0, 0, 0, 0, 0, 0, 0,
      64, 0, 0, 0, 0, 0, 0, 0, 0, 0, 0, 0, 0, 0, 0, 0, 0, 0, 0, 0, 64, 0, 56, 0, 1, 0, 0, 0, 0, 0, 0, 0,
      1, 0, 0, 0, 5, 0, 0, 0, 0, 0, 0, 0, 0, 0, 0, 0, 0, 0x10, 0, 0, 0, 0, 0, 0, 0, 0, 0, 0, 0, 0, 0, 0,
      0, 0, 0, 0, 0, 0, 0, 0, 0, 0x10, 0, 0, 0, 0, 0, 0, 0, 0, 0, 0, 0, 0, 0, 0]
    fits := headers_le_maxAlloc }

/-- the file loaded into a fresh memory of 4 GiB -/
def pageImageLoaded (type : BitVec 8) : Except Stop ELF × Loader :=
  loadELFBytes (fun bytes _ _ => bytes) id (pageImage type) (.fresh 32 .sandbox true)

/-- the file is loaded if it is not position-independent, and nothing changes by `InstallAOT` -/
theorem installAOT_same_exec : ∃ r,
    installAOT id .sandbox (pageImage 2) (pageImageLoaded 2).2.mem (pageImageLoaded 2).2.execRegions = .ok r ∧
      OnlyRegistered (pageImage 2).bytes (pageImageLoaded 2).2.execRegions r := by
  have hok : (pageImageLoaded 2).1.isOk = true := by decide +kernel
  obtain ⟨ef, s', hload⟩ := exists_of_isOk hok
  rw [hload]
  obtain ⟨r, hr, honly⟩ := installAOT_same_iff .sandbox hload
  exact ⟨r, hr, honly.mpr fun _ _ => unmoved_of_exec (by decide +kernel)⟩

/-- the same file, position-independent: it is loaded at 0x80001000, and `InstallAOT` makes 0x1000 executable -/
theorem installAOT_unbiased : (pageImageLoaded 3).1.isOk = true ∧
    ((pageImageLoaded 3).2.execRegions.findExecRegion 0x80001000).isSome = true ∧
    (pageImageLoaded 3).2.execRegions.findExecRegion 0x1000 = none ∧
    (installAOT id .sandbox (pageImage 3) (pageImageLoaded 3).2.mem (pageImageLoaded 3).2.execRegions).map
      (fun r => ((r.1.findExecRegion 0x1000).isSome, r.2)) = .ok (true, [(0x1000, 0x2000)]) := by
  decide +kernel

end RiscvEmu.Elf
