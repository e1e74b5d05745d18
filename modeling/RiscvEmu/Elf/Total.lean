/-
When loading is total.

The steps of the loader are put together: the header, the segments, the relocations, the section headers and the
symbol table. Each is reached if those before it end with a value, and goes wrong under a condition on the file and
the size of memory (`LoadSound`).

• `total_iff`: the three entry points return, with no buffer longer than the file, just for the files that are sound.
-/
import RiscvEmu.Elf.Relocs

namespace RiscvEmu.Elf

variable {data : List (BitVec 8)} {mem : GuestMemory} {hdr : Elf64Header} {s : Loader}

/-! ## After the segments -/

/-- the relocations, if the file is position-independent, are all applied -/
def Moved (data : List (BitVec 8)) (mem : GuestMemory) (hdr : Elf64Header) : Prop :=
  hdr.type = elfTypeDyn → ¬ DynamicWild data hdr ∧ Relocated data mem hdr

/-- what the parsed file knows of the file -/
def Parsed (data : List (BitVec 8)) (hdr : Elf64Header) (ef : ELF) :
    Prop := ef.data = data ∧ ef.shdrs = shdrsOf data hdr

section

variable (hlen : 64 ≤ data.length) (hmax : data.length ≤ maxAlloc)

include hlen hmax

theorem relocateImage_verdict (hs : Ready data mem s) (hhdr : Elf64Header.parse (data.take 64) = hdr)
    (hent : hdr.phEntSize = 56)
    (hnum : hdr.phNum ≠ 0) (hall : ∀ j < hdr.phNum.toNat, ∃ ph, phdrAt data hdr j = some ph) :
    Verdict data mem (Moved data mem hdr) (hdr.type = elfTypeDyn ∧ (DynamicWild data hdr ∨ RelaWild data mem hdr))
    (fun _ => True)
      (relocateImage data hdr s) := by
  unfold relocateImage Moved
  by_cases hdyn : hdr.type = elfTypeDyn
  · rw [if_pos hdyn]
    refine (applyRelaRelocations_verdict hlen hmax hs hhdr hent hnum hall).congr ?_ ?_
    · exact ⟨fun h _ => h, fun h => h hdyn⟩
    · exact ⟨fun h => ⟨hdyn, h⟩, fun h => h.2⟩
  · rw [if_neg hdyn]
    exact .of_pure hs (fun h => absurd h hdyn) (fun h => hdyn h.1) trivial

theorem sections_verdict (hs : Ready data mem s) :
    Verdict data mem (SectionsSound hdr) (¬ SectionsSound hdr) (fun shdrs => shdrs = shdrsOf data hdr)
      (ofExcept (sections data hdr) s) := by
  by_cases hsound : SectionsSound hdr
  · exact .of_ok hs (sections_ok hlen hmax hsound) hsound (not_not_intro hsound) rfl
  · exact .of_panic (sections_panic hlen hmax hsound) hsound hsound

theorem recordTohost_verdict {ef : ELF} (hs : Ready data mem s) (hef : Parsed data hdr ef) :
    Verdict data mem (SymbolsSound data (shdrsOf data hdr)) (¬ SymbolsSound data (shdrsOf data hdr)) (Parsed data hdr)
      (recordTohost ef s) := by
  obtain ⟨hdata, hshdrs⟩ := hef
  have hcases := findSymbolAddr_cases ef tohost (by rwa [hdata]) (by rwa [hdata])
  rw [hdata, hshdrs] at hcases
  unfold recordTohost
  obtain ⟨hsound, r, hr⟩ | ⟨hunsound, hr⟩ := hcases
  · rw [hr]
    cases r with
    | none => exact .of_pure hs hsound (not_not_intro hsound) ⟨hdata, hshdrs⟩
    | some addr =>
      exact .inl ⟨hsound, not_not_intro hsound, _, _, rfl, ⟨hs.overlay, hs.size, hs.allocs⟩, hdata, hshdrs⟩
  · rw [hr]
    exact Verdict.panics hunsound hunsound

/-- the tables that are read once the segments are loaded and the relocations applied -/
def TablesSound (data : List (BitVec 8)) (hdr : Elf64Header) : Prop :=
  SectionsSound hdr ∧ SymbolsSound data (shdrsOf data hdr)

/-- a relocation that is reached goes wrong, or a table that is reached after the relocations does not lie where an
index can point -/
def FinishWild (data : List (BitVec 8)) (mem : GuestMemory) (hdr : Elf64Header) : Prop :=
  (hdr.type = elfTypeDyn ∧ (DynamicWild data hdr ∨ RelaWild data mem hdr)) ∨
    (Moved data mem hdr ∧ ¬ TablesSound data hdr)

theorem finishELF_verdict (hs : Ready data mem s) (hhdr : Elf64Header.parse (data.take 64) = hdr)
    (hent : hdr.phEntSize = 56)
    (hnum : hdr.phNum ≠ 0) (hall : ∀ j < hdr.phNum.toNat, ∃ ph, phdrAt data hdr j = some ph) :
    Verdict data mem (Moved data mem hdr ∧ TablesSound data hdr)
      (FinishWild data mem hdr) (Parsed data hdr) (finishELF data hdr s) := by
  unfold finishELF
  refine (relocateImage_verdict hlen hmax hs hhdr hent hnum hall).bind fun _ _ s' _ hs' => ?_
  refine ((sections_verdict hlen hmax hs').bind fun _ shdrs s'' hshdrs hs'' =>
    recordTohost_verdict hlen hmax hs'' ⟨rfl, hshdrs⟩).congr Iff.rfl ?_
  rw [TablesSound, Classical.not_and_iff_not_or_not]
  constructor
  · rintro (h | ⟨-, h⟩)
    · exact .inl h
    · exact .inr h
  · intro h
    by_cases hsections : SectionsSound hdr
    · exact .inr ⟨hsections, h.resolve_left (not_not_intro hsections)⟩
    · exact .inl hsections

end

/-! ## The entry points -/

def headerOf (data : List (BitVec 8)) : Elf64Header := .parse (data.take 64)

def Accepted (data : List (BitVec 8)) : Prop := 64 ≤ data.length ∧ checkHeader (headerOf data) = none

/-- every program header is passed, and one at least has a segment -/
def SegmentsLoad (data : List (BitVec 8)) (mem : GuestMemory) : Prop :=
  (∀ i < (headerOf data).phNum.toNat, Passes data mem (headerOf data) i) ∧
    ∃ i < (headerOf data).phNum.toNat, LoadableAt data (headerOf data) i

/-- a file whose header is accepted is loaded without a panic, a buffer longer than the file and a fault of the host: no
segment that is reached has a file size above its length or file bytes for the page without rights; when the segments
are loaded, neither the dynamic section nor a relocation that is reached has an end that wraps, nor is a relocation for
that page; and when the relocations are applied, the section headers, the symbols and their
names lie where an index can point -/
structure LoadSound (data : List (BitVec 8)) (mem : GuestMemory) : Prop where
  segments : ∀ i < (headerOf data).phNum.toNat, (∀ k < i, Passes data mem (headerOf data) k) →
    ¬ Derailed data mem (headerOf data) i
  relocations : SegmentsLoad data mem → (headerOf data).type = elfTypeDyn →
    ¬ DynamicWild data (headerOf data) ∧ ¬ RelaWild data mem (headerOf data)
  tables : SegmentsLoad data mem → Moved data mem (headerOf data) → TablesSound data (headerOf data)

/-- a loader with a fresh memory -/
def Loader.fresh (logSize : Fin 40) (model : MemoryModel) (checkSandboxBounds : Bool) : Loader :=
  { mem := .newGuestMemoryWithModel logSize model checkSandboxBounds, execRegions := .empty, loadedELFSize := 0
    loadedELFImageSize := 0, tohostAddr := 0, allocs := [] }

theorem checkHeader_none {hdr : Elf64Header} (h : checkHeader hdr = none) : hdr.phEntSize = 56 ∧ hdr.phNum ≠ 0 := by
  unfold checkHeader at h
  grind

theorem not_loadSound_iff {mem : GuestMemory} {data : List (BitVec 8)} : ¬ LoadSound data mem ↔
    (∃ i < (headerOf data).phNum.toNat, (∀ k < i, Passes data mem (headerOf data) k) ∧
        Derailed data mem (headerOf data) i) ∨
      (∀ i < (headerOf data).phNum.toNat, Passes data mem (headerOf data) i) ∧
        (∃ i < (headerOf data).phNum.toNat, LoadableAt data (headerOf data) i) ∧
          FinishWild data mem (headerOf data) := by
  constructor
  · intro h
    by_contra hnone
    rw [not_or] at hnone
    obtain ⟨hsegments, hfinish⟩ := hnone
    refine h ⟨fun i hi hbefore hover => hsegments ⟨i, hi, hbefore, hover⟩, fun hload hdyn => ?_, fun hload hmoved => ?_⟩
    · rw [← not_or]
      exact fun hwild => hfinish ⟨hload.1, hload.2, .inl ⟨hdyn, hwild⟩⟩
    · by_contra htables
      exact hfinish ⟨hload.1, hload.2, .inr ⟨hmoved, htables⟩⟩
  · rintro (⟨i, hi, hbefore, hover⟩ | ⟨hpass, hload, ⟨hdyn, hwild⟩ | ⟨hmoved, htables⟩⟩) h
    · exact h.segments i hi hbefore hover
    · obtain ⟨hdynamic, hrela⟩ := h.relocations ⟨hpass, hload⟩ hdyn
      exact hwild.elim hdynamic hrela
    · exact htables (h.tables ⟨hpass, hload⟩ hmoved)

variable (madvise : Bytes → BitVec 64 → BitVec 64 → Bytes) (slack : Nat → Nat)

theorem segments_verdict (n : Nat) (hs : Ready data mem s)
    (hmax : data.length ≤ maxAlloc) :
    Verdict data mem (∀ i < n, Passes data mem hdr i)
    (∃ i < n, (∀ k < i, Passes data mem hdr k) ∧ Derailed data mem hdr i)
      (Counted data hdr n) (loadPhdrs madvise slack data hdr hdr.loadBias n 0 (0, 0) s) := by
  have hstart : Counted data hdr 0 (0, 0) := ⟨rfl, iff_of_true rfl fun j hj => absurd hj (Nat.not_lt_zero j)⟩
  simpa only [Nat.zero_add] using loadPhdrs_verdict hs hmax hstart

/-- **The loader.** A file whose header is accepted is loaded, or an error is returned, just if it is sound. -/
theorem loadELFBytes_verdict (data : GoBytes)
    (hs : Ready data.bytes mem s) (hacc : Accepted data.bytes) :
    Verdict data.bytes mem
      (SegmentsLoad data.bytes mem ∧ Moved data.bytes mem (headerOf data.bytes) ∧
        TablesSound data.bytes (headerOf data.bytes))
      (¬ LoadSound data.bytes mem) (Parsed data.bytes (headerOf data.bytes)) (loadELFBytes madvise slack data s) := by
  obtain ⟨hlen, hcheck⟩ := hacc
  have hread : binaryRead 64 Elf64Header.parse data.bytes = some (headerOf data.bytes) := if_pos hlen
  obtain ⟨hent, hnum⟩ := checkHeader_none hcheck
  rw [not_loadSound_iff, SegmentsLoad, and_assoc]
  unfold loadELFBytes
  rw [hread]
  dsimp only
  rw [hcheck]
  dsimp only
  refine (segments_verdict madvise slack _ hs data.fits).bind fun hpass counters s' hcount hs' => ?_
  have hall : ∀ j < (headerOf data.bytes).phNum.toNat, ∃ ph, phdrAt data.bytes (headerOf data.bytes) j = some ph :=
    fun j hj => (hpass j hj).imp fun ph h => h.1
  by_cases hzero : counters.1 = 0
  · have hnone := hcount.loaded.mp hzero
    rw [if_pos hzero]
    exact .of_fail hs' (fun h => h.1.elim fun i hi => hnone i hi.1 hi.2) fun h => h.1.elim fun i hi => hnone i hi.1 hi.2
  · have hsome : ∃ i < (headerOf data.bytes).phNum.toNat, LoadableAt data.bytes (headerOf data.bytes) i := by
      by_contra hnone
      exact hzero (hcount.loaded.mpr fun j hj h => hnone ⟨j, hj, h⟩)
    rw [if_neg hzero, Exec.modify_bind_run]
    have hs'' : Ready data.bytes mem
        { s' with loadedELFSize := BitVec.ofNat 64 data.bytes.length, loadedELFImageSize := counters.2 } :=
      ⟨hs'.overlay, hs'.size, hs'.allocs⟩
    refine (finishELF_verdict hlen data.fits hs'' rfl hent hnum hall).congr ?_ ?_
    · exact ⟨fun h => ⟨hsome, h⟩, fun h => h.2⟩
    · exact ⟨fun h => ⟨hsome, h⟩, fun h => h.2⟩

theorem loadELFBytes_refused (data : GoBytes)
    (hacc : ¬ Accepted data.bytes) : ∃ e, loadELFBytes madvise slack data s = (.error (.error e), s) := by
  unfold loadELFBytes
  by_cases hlen : 64 ≤ data.bytes.length
  · rw [show binaryRead 64 Elf64Header.parse data.bytes = some (headerOf data.bytes) from if_pos hlen]
    cases hcheck : checkHeader (headerOf data.bytes) with
    | none => exact absurd ⟨hlen, hcheck⟩ hacc
    | some e => exact ⟨e, by dsimp only; rw [hcheck]; rfl⟩
  · rw [show binaryRead 64 Elf64Header.parse data.bytes = none from if_neg hlen]
    exact ⟨.readHeader, rfl⟩

/-! ## Totality -/

/-- the entry points return: the loader without a buffer longer than the file, and the lookups of symbols, the text
section and the executable segments -/
structure Total (madvise : Bytes → BitVec 64 → BitVec 64 → Bytes) (slack : Nat → Nat) (data : GoBytes) (s : Loader) :
    Prop where
  load : ¬ GoesWrong data.bytes (loadELFBytes madvise slack data s)
  symbols : ∀ ef s', loadELFBytes madvise slack data s = (.ok ef, s') → ∀ name, ∃ r, ef.findSymbolAddr name = .ok r
  text : ∃ r, findTextSection data = .ok r
  execLoads : ∃ r, findExecLoads data = .ok r

/-- the tables of the file lie where an index can point, and nothing of it is for the page without rights -/
structure Sound (data : List (BitVec 8)) (mem : GuestMemory) : Prop where
  load : Accepted data → LoadSound data mem
  text : TextSound data
  execLoads : ExecLoadsSound data

theorem load_iff (data : GoBytes) (hs : Ready data.bytes mem s) :
    ¬ GoesWrong data.bytes (loadELFBytes madvise slack data s) ↔ (Accepted data.bytes → LoadSound data.bytes mem) := by
  by_cases hacc : Accepted data.bytes
  · rw [(loadELFBytes_verdict madvise slack data hs hacc).goesWrong_iff, not_not]
    exact ⟨fun h _ => h, fun h => h hacc⟩
  · refine iff_of_true ?_ fun h => absurd h hacc
    obtain ⟨e, he⟩ := loadELFBytes_refused madvise slack data hacc
    rw [he]
    exact hs.not_goesWrong e

theorem symbols_of_loaded {madvise : Bytes → BitVec 64 → BitVec 64 → Bytes} {slack : Nat → Nat}
    {data : GoBytes} {ef : ELF}
    {s' : Loader} (hs : Ready data.bytes mem s) (hload : loadELFBytes madvise slack data s = (.ok ef, s'))
    (name : List (BitVec 8)) :
    ∃ r, ef.findSymbolAddr name = .ok r := by
  have hacc : Accepted data.bytes := by
    by_contra hacc
    obtain ⟨e, he⟩ := loadELFBytes_refused madvise slack data hacc
    rw [he] at hload
    cases hload
  have hverdict := loadELFBytes_verdict madvise slack data hs hacc
  rw [hload] at hverdict
  obtain ⟨⟨-, -, htables⟩, -, _, _, hok, -, hdata, hshdrs⟩ | ⟨-, -, _, _, herror, -⟩ | ⟨-, -, ⟨_, _, herror⟩, -⟩ :=
    hverdict
  · cases hok
    have hcases := findSymbolAddr_cases ef name (by rw [hdata]; exact hacc.1) (by rw [hdata]; exact data.fits)
    rw [hdata, hshdrs] at hcases
    exact (hcases.resolve_right fun h => h.1 htables.2).2
  · cases herror
  · cases herror

/-- **Loading is total just for the sound files.** -/
theorem total_iff (madvise : Bytes → BitVec 64 → BitVec 64 → Bytes) (slack : Nat → Nat) (data : GoBytes)
    (logSize : Fin 40) (model : MemoryModel) (checkSandboxBounds : Bool) :
    Total madvise slack data (.fresh logSize model checkSandboxBounds) ↔
      Sound data.bytes (.newGuestMemoryWithModel logSize model checkSandboxBounds) := by
  have hs : Ready data.bytes (.newGuestMemoryWithModel logSize model checkSandboxBounds)
      (.fresh logSize model checkSandboxBounds) :=
    ⟨rfl, rfl, fun n hn => absurd hn List.not_mem_nil⟩
  constructor
  · intro h
    exact ⟨(load_iff madvise slack data hs).mp h.load, (findTextSection_iff data).mp h.text,
      (findExecLoads_iff data).mp h.execLoads⟩
  · intro h
    exact ⟨(load_iff madvise slack data hs).mpr h.load, fun ef s' hload name => symbols_of_loaded hs hload name,
      (findTextSection_iff data).mpr h.text, (findExecLoads_iff data).mpr h.execLoads⟩

/-- a file with one segment, of one byte, for the address 0xfe000 -/
def guardSegment : GoBytes :=
  { bytes := [0x7f, 0x45, 0x4c, 0x46, 2, 1, 1, 0, 0, 0, 0, 0, 0, 0, 0, 0,
      2, 0, 0xf3, 0, 1, 0, 0, 0, 0, 0, 0, 0, 0, 0, 0, 0,
      64, 0, 0, 0, 0, 0, 0, 0, 0, 0, 0, 0, 0, 0, 0, 0, 0, 0, 0, 0, 64, 0, 56, 0, 1, 0, 0, 0, 0, 0, 0, 0,
      1, 0, 0, 0, 4, 0, 0, 0, 120, 0, 0, 0, 0, 0, 0, 0, 0, 0xe0, 0x0f, 0, 0, 0, 0, 0, 0, 0, 0, 0, 0, 0, 0, 0,
      1, 0, 0, 0, 0, 0, 0, 0, 1, 0, 0, 0, 0, 0, 0, 0, 1, 0, 0, 0, 0, 0, 0, 0, 0x13]
    fits := by decide }

/-- in a memory of 1 MiB this is the page without rights -/
example : (loadELFBytes (fun bytes _ _ => bytes) id guardSegment (.fresh 20 .sandbox true)).1 = .error .killed := by
  decide +kernel

/-- a file with a program header at offset 2^63, which is negative as an `int` -/
def strayTable : GoBytes :=
  { bytes := [0x7f, 0x45, 0x4c, 0x46, 2, 1, 1, 0, 0, 0, 0, 0, 0, 0, 0, 0,
      2, 0, 0xf3, 0, 1, 0, 0, 0, 0, 0, 0, 0, 0, 0, 0, 0,
      0, 0, 0, 0, 0, 0, 0, 0x80, 0, 0, 0, 0, 0, 0, 0, 0, 0, 0, 0, 0, 64, 0, 56, 0, 1, 0, 0, 0, 0, 0, 0, 0]
    fits := by decide }

/-- the executable segments of this file are looked for behind its end -/
theorem strayTable_panics : findExecLoads strayTable = .error .panic ∧
    ¬ Total (fun bytes _ _ => bytes) id strayTable (.fresh 20 .sandbox true) := by
  have hpanic : findExecLoads strayTable = .error .panic := by decide +kernel
  refine ⟨hpanic, fun h => ?_⟩
  obtain ⟨r, hr⟩ := h.execLoads
  rw [hpanic] at hr
  cases hr

end RiscvEmu.Elf
