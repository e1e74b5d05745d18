/-
The tables of an ELF file, and the loops over them.

The loops compute the offset of an entry as an `int` and compare its end with the length of the file. If the end
leaves the range of an `int` (`Wild`), the comparison lets the entry through, and the slice expression that follows is
out of range. An entry that lies in the file has a successor that is not wild, so only the first entry of a table can
be.

• `findExecLoads_iff`, `findTextSection_iff`: when the two functions do not panic.
• `sections_ok`, `sections_panic`, `findSymbolAddr_cases`: the same for the section headers and the symbol table.
-/
import RiscvEmu.Elf.Load

namespace RiscvEmu.Elf

open List BitVec Option

variable {data : List (BitVec 8)}

/-! ## Fields -/

theorem field_take {w : Nat} {n off : Nat} (h : off + w / 8 ≤ n) : field w (data.take n) off = field w data off := by
  unfold field
  rw [drop_take, take_take, Nat.min_eq_left (by omega)]

theorem field_drop (w k off : Nat) : field w (data.drop k) off = field w data (k + off) := by
  unfold field
  rw [drop_drop]

theorem phdr_parse_take : Elf64Phdr.parse (data.take 56) = Elf64Phdr.parse data := by
  unfold Elf64Phdr.parse
  simp only [field_take, Nat.reduceDiv, Nat.reduceAdd, Nat.reduceLeDiff]

theorem shdr_parse_take : Elf64Shdr.parse (data.take 64) = Elf64Shdr.parse data := by
  unfold Elf64Shdr.parse
  simp only [field_take, Nat.reduceDiv, Nat.reduceAdd, Nat.reduceLeDiff]

theorem sliceFrom_ok {off : BitVec 64} (h : off.toNat ≤ data.length) :
    sliceFrom data off = .ok (data.drop off.toNat) := if_pos h

theorem sliceFrom_panic {off : BitVec 64} (h : data.length < off.toNat) : sliceFrom data off = .error .panic :=
  if_neg (Nat.not_le.mpr h)

theorem ok_bind {α : Type} {β : Type} (a : α) (k : α → Except Stop β) : ((.ok a : Except Stop α) >>= k) = k a := rfl

theorem error_bind {α : Type} {β : Type} (e : Stop) (k : α → Except Stop β) :
    ((.error e : Except Stop α) >>= k) = .error e := rfl

theorem uint_drop {w : Nat} {k : Nat} (h : k + w / 8 ≤ data.length) : uint w (data.drop k) = .ok (field w data k) :=
  if_pos (by rw [length_drop]; omega)

theorem uint_at {w : Nat} {off : BitVec 64} (h : off.toNat + w / 8 ≤ data.length) :
    (sliceFrom data off >>= uint w) = .ok (field w data off.toNat) := by
  rw [sliceFrom_ok (by omega), ok_bind, uint_drop h]

theorem read_bind {α : Type} (off : BitVec 64) (k w : Nat) (hoff : off.toNat = k) (h : k + w / 8 ≤ data.length)
    (f : BitVec w → Except Stop α) : (sliceFrom data off >>= fun b => uint w b >>= f) = f (field w data k) := by
  rw [sliceFrom_ok (by omega), ok_bind, hoff, uint_drop h, ok_bind]

/-! ## Table entries -/

/-- the end of an entry is no `int` -/
def Wild (off : BitVec 64) (n : Nat) : Prop := 2 ^ 63 ≤ off.toNat + n

theorem above_iff {off : BitVec 64} {w : BitVec 64} {n : Nat} (hw : w.toNat = n) (hn : n ≤ 64) (hlen : 64 ≤ data.length)
    (hmax : data.length ≤ maxAlloc) : above (off + w) data ↔ data.length < off.toNat + n ∧ ¬ Wild off n := by
  unfold above Wild maxAlloc at *
  have hoff := off.isLt
  rw [toInt_eq_toNat_cond, toNat_add, hw]
  omega

theorem tableOffset_succ (off : BitVec 64) (ent : BitVec 16) (i : Nat) :
    tableOffset off ent (i + 1) = tableOffset off ent i + ent.setWidth 64 := by
  unfold tableOffset
  rw [ofNat_add, BitVec.add_mul, BitVec.one_mul, BitVec.add_assoc]

theorem tableOffset_zero (off : BitVec 64) (ent : BitVec 16) : tableOffset off ent 0 = off := by
  unfold tableOffset
  rw [show BitVec.ofNat 64 0 = 0#64 from rfl, zero_mul, BitVec.add_zero]

theorem not_wild_succ {off : BitVec 64} {ent : BitVec 16} {i n : Nat} (hn : n ≤ 64) (hmax : data.length ≤ maxAlloc)
    (h : (tableOffset off ent i).toNat + n ≤ data.length) : ¬ Wild (tableOffset off ent (i + 1)) n := by
  unfold Wild maxAlloc at *
  have hent := ent.isLt
  rw [tableOffset_succ, toNat_add, toNat_setWidth]
  omega

section

variable (hlen : 64 ≤ data.length) (hmax : data.length ≤ maxAlloc)

include hlen hmax

theorem panic_of_wild {off : BitVec 64} {α : Type} {w : BitVec 64} {n : Nat} (hw : w.toNat = n) (hn : n ≤ 64)
    (hwild : Wild off n) (a : Except Stop α)
    (k : List (BitVec 8) → Except Stop α) :
    (if above (off + w) data then a else sliceFrom data off >>= k) = .error .panic := by
  have hout : data.length < off.toNat := by
    unfold Wild maxAlloc at *
    omega
  rw [if_neg (fun h => ((above_iff hw hn hlen hmax).mp h).2 hwild), sliceFrom_panic hout, error_bind]

theorem entry_eq {off : BitVec 64} {α : Type} {w : BitVec 64} {n : Nat} (hw : w.toNat = n) (hn : n ≤ 64)
    (htame : ¬ Wild off n) (a : Except Stop α)
    (k : List (BitVec 8) → Except Stop α) :
    (if above (off + w) data then a else sliceFrom data off >>= k) =
      if off.toNat + n ≤ data.length then k (data.drop off.toNat) else a := by
  by_cases hin : off.toNat + n ≤ data.length
  · have hnot : ¬ above (off + w) data := fun h => by
      have := ((above_iff hw hn hlen hmax).mp h).1
      omega
    rw [if_neg hnot, if_pos hin, sliceFrom_ok (by omega), ok_bind]
  · rw [if_pos ((above_iff hw hn hlen hmax).mpr ⟨by omega, htame⟩), if_neg hin]

end

theorem binaryRead_drop {α : Type} {n k : Nat} {parse : List (BitVec 8) → α} (h : k + n ≤ data.length) :
    binaryRead n parse (data.drop k) = some (parse ((data.drop k).take n)) := if_pos (by rw [length_drop]; omega)

/-! ## Executable segments -/

section

variable {phOff : BitVec 64} {ent : BitVec 16} {n i : Nat} {out : List ExecLoad}
variable (hlen : 64 ≤ data.length) (hmax : data.length ≤ maxAlloc)

include hlen hmax

theorem execLoads_panic (hwild : Wild (tableOffset phOff ent i) 56) :
    execLoads data phOff ent (n + 1) i out = .error .panic :=
  panic_of_wild hlen hmax rfl (by decide) hwild _ _

theorem execLoads_ok (htame : ¬ Wild (tableOffset phOff ent i) 56) : ∃ r, execLoads data phOff ent n i out = .ok r := by
  induction n generalizing i out with
  | zero => exact ⟨_, rfl⟩
  | succ n ih =>
    rw [execLoads, entry_eq hlen hmax (n := 56) rfl (by decide) htame]
    split_ifs with hin
    · have hnext := not_wild_succ (by decide) hmax hin
      rw [binaryRead_drop hin]
      dsimp only
      split_ifs
      · exact ih hnext
      · exact ih hnext
    · exact ⟨none, rfl⟩

end

/-- when `FindExecLoads` does not panic -/
def ExecLoadsSound (data : List (BitVec 8)) : Prop :=
  64 ≤ data.length → isElf64 data → field 64 data 32 ≠ 0 → field 16 data 56 ≠ 0 → 56 ≤ field 16 data 54 →
    ¬ Wild (field 64 data 32) 56

theorem findExecLoads_iff (data : GoBytes) : (∃ r, findExecLoads data = .ok r) ↔ ExecLoadsSound data.bytes := by
  unfold findExecLoads ExecLoadsSound
  by_cases hlen : data.bytes.length < 64
  · rw [if_pos hlen]
    exact iff_of_true ⟨none, rfl⟩ fun h => by omega
  · rw [if_neg hlen]
    push Not at hlen
    by_cases helf : isElf64 data.bytes
    · rw [if_neg (not_not.mpr helf), read_bind 32 32 64 rfl (by omega), read_bind 54 54 16 rfl (by omega),
        read_bind 56 56 16 rfl (by omega)]
      generalize field 64 data.bytes 32 = phOff
      generalize field 16 data.bytes 54 = phEntSize
      generalize field 16 data.bytes 56 = phNum
      split_ifs with hnone
      · refine iff_of_true ⟨none, rfl⟩ fun _ _ hoff hnum hent => ?_
        obtain h | h | h := hnone
        · exact absurd h hoff
        · exact absurd h hnum
        · exact absurd hent (BitVec.not_le.mpr h)
      · push Not at hnone
        obtain ⟨hoff, hnum, hent⟩ := hnone
        rw [BitVec.not_lt] at hent
        obtain ⟨n, hn⟩ : ∃ n, phNum.toNat = n + 1 := Nat.exists_eq_succ_of_ne_zero fun h => hnum (eq_of_toNat_eq h)
        rw [hn]
        constructor
        · rintro ⟨r, hr⟩ - - - - - hwild
          rw [execLoads_panic hlen data.fits (by rw [tableOffset_zero]; exact hwild)] at hr
          cases hr
        · intro h
          exact execLoads_ok hlen data.fits (by rw [tableOffset_zero]; exact h hlen helf hoff hnum hent)
    · rw [if_pos helf]
      exact iff_of_true ⟨none, rfl⟩ fun _ h => absurd h helf

/-! ## Names -/

theorem nameAt_ok {names : List (BitVec 8)} {nameOff : BitVec 32} (hmax : names.length ≤ maxAlloc)
    (h : nameOff.toNat < names.length) : ∃ s, nameAt names nameOff = .ok s := by
  have hscan : ((names.drop nameOff.toNat).takeWhile (· ≠ 0)).length ≤ (names.drop nameOff.toNat).length :=
    List.IsPrefix.length_le ( takeWhile_prefix _)
  rw [length_drop] at hscan
  unfold maxAlloc at hmax
  have hoff := nameOff.isLt
  refine ⟨_, if_pos ⟨?_, ?_⟩⟩
  · rw [toNat_setWidth, toNat_ofNat]
    omega
  · rw [toNat_ofNat]
    omega

theorem slice_iff {lo size : BitVec 64} (hend : (lo + size).toNat ≤ data.length) :
    (∃ s, slice data lo (lo + size) = .ok s) ↔ lo.toNat + size.toNat < 2 ^ 64 := by
  have hlo := lo.isLt
  have hsize := size.isLt
  rw [toNat_add] at hend
  unfold slice
  rw [toNat_add]
  constructor
  · rintro ⟨s, hs⟩
    by_contra hwrap
    rw [if_neg fun h => absurd h.1 (by omega)] at hs
    cases hs
  · intro h
    exact ⟨_, if_pos ⟨by omega, hend⟩⟩

theorem slice_length {lo hi : BitVec 64} {s : List (BitVec 8)} (h : slice data lo hi = .ok s) :
    s.length ≤ data.length := by
  unfold slice at h
  split_ifs at h
  cases h
  rw [length_drop, length_take]
  omega

theorem slice_cases (data : List (BitVec 8)) (lo hi : BitVec 64) :
    (∃ s, slice data lo hi = .ok s) ∨ slice data lo hi = .error .panic := by
  unfold slice
  split_ifs
  · exact .inl ⟨_, rfl⟩
  · exact .inr rfl

/-! ## The text section -/

section

variable {names : List (BitVec 8)} {shOff : BitVec 64} {ent : BitVec 16} {n i : Nat}
variable (hlen : 64 ≤ data.length) (hmax : data.length ≤ maxAlloc)

include hlen hmax

theorem findText_panic (hwild : Wild (tableOffset shOff ent i) 64) :
    findText data names shOff ent (n + 1) i = .error .panic :=
  panic_of_wild hlen hmax rfl (by decide) hwild _ _

theorem findText_ok (hnames : names.length ≤ maxAlloc) (htame : ¬ Wild (tableOffset shOff ent i) 64) :
    ∃ r, findText data names shOff ent n i = .ok r := by
  induction n generalizing i with
  | zero => exact ⟨none, rfl⟩
  | succ n ih =>
    rw [findText, entry_eq hlen hmax (n := 64) rfl (by decide) htame]
    split_ifs with hin
    · have hnext := ih (not_wild_succ (by decide) hmax hin)
      rw [binaryRead_drop hin]
      dsimp only
      generalize Elf64Shdr.parse ((data.drop (tableOffset shOff ent i).toNat).take 64) = sh
      by_cases htype : sh.type ≠ shtProgbits
      · rw [if_pos htype]
        exact hnext
      · rw [if_neg htype]
        by_cases hname : sh.name.toNat ≥ names.length
        · rw [if_pos hname]
          exact hnext
        · rw [if_neg hname]
          obtain ⟨s, hs⟩ := nameAt_ok hnames (Nat.not_le.mp hname)
          rw [hs, ok_bind]
          split_ifs
          · exact ⟨some (sh.addr, sh.size), rfl⟩
          · exact hnext
    · exact ⟨none, rfl⟩

end

/-- the section header at an offset, if it lies in the file -/
def shdrIn (data : List (BitVec 8)) (off : BitVec 64) : Option Elf64Shdr :=
  if off.toNat + 64 ≤ data.length then some (Elf64Shdr.parse (data.drop off.toNat)) else none

/-- `FindTextSection` does not panic: the header of the name table is not wild, and if it lies in the file, neither is
the first header, and the end of the name table does not wrap -/
def TextSound (data : List (BitVec 8)) : Prop :=
  64 ≤ data.length → isElf64 data → field 64 data 40 ≠ 0 → field 16 data 60 ≠ 0 → 64 ≤ field 16 data 58 →
    field 16 data 62 < field 16 data 60 →
    ¬ Wild (tableOffset (field 64 data 40) (field 16 data 58) (field 16 data 62).toNat) 64 ∧
      ∀ sh, shdrIn data (tableOffset (field 64 data 40) (field 16 data 58) (field 16 data 62).toNat) = some sh →
        (sh.offset + sh.size).toNat ≤ data.length →
        sh.offset.toNat + sh.size.toNat < 2 ^ 64 ∧ ¬ Wild (field 64 data 40) 64

theorem textNames_iff {sh : Elf64Shdr} {shOff : BitVec 64} {ent : BitVec 16} {n : Nat} (hlen : 64 ≤ data.length)
    (hmax : data.length ≤ maxAlloc) :
    (∃ r, (if BitVec.ofNat 64 data.length < sh.offset + sh.size then pure none
      else do
        let names ← slice data sh.offset (sh.offset + sh.size)
        findText data names shOff ent (n + 1) 0) = (.ok r : Except Stop _)) ↔
      ((sh.offset + sh.size).toNat ≤ data.length → sh.offset.toNat + sh.size.toNat < 2 ^ 64 ∧ ¬ Wild shOff 64) := by
  have hword : (BitVec.ofNat 64 data.length).toNat = data.length := by
    unfold maxAlloc at hmax
    rw [toNat_ofNat, Nat.mod_eq_of_lt (by omega)]
  by_cases hpast : BitVec.ofNat 64 data.length < sh.offset + sh.size
  · rw [if_pos hpast]
    rw [lt_def, hword] at hpast
    exact iff_of_true ⟨none, rfl⟩ fun h => by omega
  · rw [if_neg hpast]
    rw [lt_def, hword, Nat.not_lt] at hpast
    simp only [hpast, true_implies]
    rw [← slice_iff hpast]
    obtain ⟨s, hs⟩ | hs := slice_cases data sh.offset (sh.offset + sh.size)
    · have hnames := Nat.le_trans (slice_length hs) hmax
      rw [hs, ok_bind]
      by_cases hwild : Wild shOff 64
      · rw [findText_panic hlen hmax (by rw [tableOffset_zero]; exact hwild)]
        exact iff_of_false (fun ⟨r, hr⟩ => by cases hr) fun h => h.2 hwild
      · exact iff_of_true (findText_ok hlen hmax hnames (by rw [tableOffset_zero]; exact hwild)) ⟨⟨s, rfl⟩, hwild⟩
    · rw [hs, error_bind]
      exact iff_of_false (fun ⟨r, hr⟩ => by cases hr) fun ⟨⟨s, h⟩, _⟩ => by cases h

theorem findTextSection_iff (data : GoBytes) : (∃ r, findTextSection data = .ok r) ↔ TextSound data.bytes := by
  unfold findTextSection TextSound
  by_cases hlen : data.bytes.length < 64
  · rw [if_pos hlen]
    exact iff_of_true ⟨none, rfl⟩ fun h => by omega
  · rw [if_neg hlen]
    push Not at hlen
    have hmax := data.fits
    by_cases helf : isElf64 data.bytes
    · rw [if_neg (not_not.mpr helf), read_bind 40 40 64 rfl (by omega), read_bind 58 58 16 rfl (by omega),
        read_bind 60 60 16 rfl (by omega), read_bind 62 62 16 rfl (by omega)]
      generalize field 64 data.bytes 40 = shOff
      generalize field 16 data.bytes 58 = ent
      generalize field 16 data.bytes 60 = shNum
      generalize field 16 data.bytes 62 = ndx
      split_ifs with hnone
      · refine iff_of_true ⟨none, rfl⟩ fun _ _ hoff hnum hent hndx => ?_
        obtain h | h | h | h := hnone
        · exact absurd h hoff
        · exact absurd h hnum
        · exact absurd hent (BitVec.not_le.mpr h)
        · exact absurd hndx (BitVec.not_lt.mpr h)
      · push Not at hnone
        obtain ⟨hoff, hnum, hent, hndx⟩ := hnone
        rw [BitVec.not_lt] at hent
        rw [BitVec.not_le] at hndx
        generalize tableOffset shOff ent ndx.toNat = strOff
        simp only [hlen, helf, hoff, hnum, hent, hndx, ne_eq, not_false_eq_true, forall_const]
        by_cases hwild : Wild strOff 64
        · rw [panic_of_wild hlen hmax (n := 64) rfl (by decide) hwild]
          exact iff_of_false (fun ⟨r, hr⟩ => by cases hr) fun h => h.1 hwild
        · rw [entry_eq hlen hmax (n := 64) rfl (by decide) hwild]
          by_cases hin : strOff.toNat + 64 ≤ data.bytes.length
          · have hshdr : shdrIn data.bytes strOff = some (Elf64Shdr.parse (data.bytes.drop strOff.toNat)) := if_pos hin
            rw [if_pos hin, binaryRead_drop hin, shdr_parse_take, hshdr]
            generalize Elf64Shdr.parse (data.bytes.drop strOff.toNat) = sh
            simp only [hwild, not_false_eq_true, true_and, some.injEq, forall_eq']
            obtain ⟨n, hn⟩ : ∃ n, shNum.toNat = n + 1 := Nat.exists_eq_succ_of_ne_zero fun h => hnum (eq_of_toNat_eq h)
            rw [hn]
            exact textNames_iff hlen hmax
          · rw [if_neg hin]
            refine iff_of_true ⟨none, rfl⟩ ⟨hwild, fun sh hsh => ?_⟩
            rw [shdrIn, if_neg hin] at hsh
            cases hsh
    · rw [if_pos helf]
      exact iff_of_true ⟨none, rfl⟩ fun _ h => absurd h helf

/-! ## The section headers -/

/-- the headers of a section table from entry `i` on, up to the first that is not in the file -/
def shdrsFrom (data : List (BitVec 8)) (hdr : Elf64Header) (i n : Nat) : List Elf64Shdr :=
  (((range' i n).map fun j => shdrIn data (tableOffset hdr.shOff hdr.shEntSize j)).takeWhile isSome).filterMap id

def shdrsOf (data : List (BitVec 8)) (hdr : Elf64Header) : List Elf64Shdr :=
  if hdr.shOff ≠ 0 ∧ hdr.shNum ≠ 0 ∧ hdr.shEntSize ≥ 64 then shdrsFrom data hdr 0 hdr.shNum.toNat else []

/-- when the section headers are read without a panic -/
def SectionsSound (hdr : Elf64Header) : Prop := hdr.shOff ≠ 0 → hdr.shNum ≠ 0 → hdr.shEntSize ≥ 64 → ¬ Wild hdr.shOff 64

theorem shdrsFrom_succ (hdr : Elf64Header) (i n : Nat) : shdrsFrom data hdr i (n + 1) =
    match shdrIn data (tableOffset hdr.shOff hdr.shEntSize i) with
    | none => []
    | some sh => sh :: shdrsFrom data hdr (i + 1) n := by
  unfold shdrsFrom
  rw [range'_succ, map_cons]
  cases shdrIn data (tableOffset hdr.shOff hdr.shEntSize i) with
  | none => rfl
  | some sh => rfl

section

variable {hdr : Elf64Header} {n i : Nat}
variable (hlen : 64 ≤ data.length) (hmax : data.length ≤ maxAlloc)

include hlen hmax

theorem parseShdrs_panic (hwild : Wild (tableOffset hdr.shOff hdr.shEntSize i) 64) :
    parseShdrs data hdr (n + 1) i = .error .panic :=
  panic_of_wild hlen hmax rfl (by decide) hwild _ _

theorem parseShdrs_ok (htame : ¬ Wild (tableOffset hdr.shOff hdr.shEntSize i) 64) :
    parseShdrs data hdr n i = .ok (shdrsFrom data hdr i n) := by
  induction n generalizing i with
  | zero => rfl
  | succ n ih =>
    rw [parseShdrs, entry_eq hlen hmax (n := 64) rfl (by decide) htame, shdrsFrom_succ, shdrIn]
    split_ifs with hin
    · rw [binaryRead_drop hin, shdr_parse_take]
      dsimp only
      rw [ih (not_wild_succ (by decide) hmax hin)]
      rfl
    · rfl

theorem sections_ok (h : SectionsSound hdr) : sections data hdr = .ok (shdrsOf data hdr) := by
  unfold sections shdrsOf
  split_ifs with hsome
  · exact parseShdrs_ok hlen hmax (by rw [tableOffset_zero]; exact h hsome.1 hsome.2.1 hsome.2.2)
  · rfl

theorem sections_panic (h : ¬ SectionsSound hdr) : sections data hdr = .error .panic := by
  unfold SectionsSound at h
  push Not at h
  obtain ⟨hoff, hnum, hent, hwild⟩ := h
  obtain ⟨n, hn⟩ : ∃ n, hdr.shNum.toNat = n + 1 := Nat.exists_eq_succ_of_ne_zero fun h => hnum (eq_of_toNat_eq h)
  unfold sections
  rw [if_pos ⟨hoff, hnum, hent⟩, hn]
  exact parseShdrs_panic hlen hmax (by rw [tableOffset_zero]; exact hwild)

end

/-! ## The symbol table -/

/-- a symbol is looked up without a panic: if there is a symbol table with a string table whose end is not past that of
the file, this end does not wrap, and the first symbol is not wild -/
def SymbolsSound (data : List (BitVec 8)) (shdrs : List Elf64Shdr) : Prop :=
  ∀ symtab, (shdrs.find? fun sh => sh.type = shtSymtab) = some symtab →
    ∀ strtab, shdrs[symtab.link.toNat]? = some strtab →
    (strtab.offset + strtab.size).toNat ≤ data.length →
    strtab.offset.toNat + strtab.size.toNat < 2 ^ 64 ∧ (symCount symtab ≠ 0 → ¬ Wild symtab.offset 24)

theorem symEntSize_bounds (symtab : Elf64Shdr) :
    (symEntSize symtab).toInt = (symEntSize symtab).toNat ∧ 24 ≤ (symEntSize symtab).toNat := by
  unfold symEntSize
  split_ifs with h
  · exact ⟨rfl, Nat.le_refl _⟩
  · rw [toInt_eq_toNat_cond] at h ⊢
    have := symtab.entSize.isLt
    split_ifs at h ⊢
    · exact ⟨rfl, by omega⟩
    · omega

theorem symCount_mul (symtab : Elf64Shdr) : symCount symtab * (symEntSize symtab).toNat < 2 ^ 63 := by
  obtain ⟨hint, hpos⟩ := symEntSize_bounds symtab
  have hsize := symtab.size.isLt
  unfold symCount
  rw [hint, toInt_eq_toNat_cond]
  generalize (symEntSize symtab).toNat = ent at hpos
  split_ifs with hsmall
  · rw [← Int.ofNat_tdiv, Int.toNat_natCast]
    have := Nat.div_mul_le_self symtab.size.toNat ent
    omega
  · have hneg : (((symtab.size.toNat : Int) - (2 ^ 64 : Nat)).tdiv ent).toNat = 0 := by
      have hflip : (symtab.size.toNat : Int) - (2 ^ 64 : Nat) = -((2 ^ 64 : Nat) - symtab.size.toNat : Int) := by omega
      have hquot : 0 ≤ ((2 ^ 64 : Nat) - symtab.size.toNat : Int).tdiv ent := Int.tdiv_nonneg (by omega) (by omega)
      rw [hflip, Int.neg_tdiv]
      omega
    rw [hneg]
    omega

section

variable {strData name : List (BitVec 8)} {loadBias symOffset ent : BitVec 64} {n i : Nat}
variable (hlen : 64 ≤ data.length) (hmax : data.length ≤ maxAlloc)

include hlen hmax

theorem findSymbol_panic (hwild : Wild symOffset 24) :
    findSymbol data strData name loadBias symOffset ent (n + 1) 0 = .error .panic := by
  have hzero : symOffset + BitVec.ofNat 64 0 * ent = symOffset := by
    rw [show BitVec.ofNat 64 0 = 0#64 from rfl, zero_mul, BitVec.add_zero]
  rw [findSymbol, hzero]
  exact panic_of_wild hlen hmax rfl (by decide) hwild _ _

/-- a second symbol is counted only if symbols are shorter than `2^62` bytes, so it is not wild -/
theorem findSymbol_ok (hstr : strData.length ≤ maxAlloc) (hcount : (i + n) * ent.toNat < 2 ^ 63)
    (htame : ¬ Wild (symOffset + BitVec.ofNat 64 i * ent) 24) :
    ∃ r, findSymbol data strData name loadBias symOffset ent n i = .ok r := by
  induction n generalizing i with
  | zero => exact ⟨none, rfl⟩
  | succ n ih =>
    have hrest : (symOffset + BitVec.ofNat 64 i * ent).toNat + 24 ≤ data.length →
        ∃ r, findSymbol data strData name loadBias symOffset ent n (i + 1) = .ok r := by
      intro hin
      cases n with
      | zero => exact ⟨none, rfl⟩
      | succ n =>
        refine ih (by rw [show i + 1 + (n + 1) = i + (n + 1 + 1) by omega]; exact hcount) ?_
        have hshort : 2 * ent.toNat < 2 ^ 63 :=
          Nat.lt_of_le_of_lt (Nat.mul_le_mul_right _ (by omega)) hcount
        have hnext : symOffset + BitVec.ofNat 64 (i + 1) * ent = symOffset + BitVec.ofNat 64 i * ent + ent := by
          rw [ofNat_add, BitVec.add_mul, BitVec.one_mul, BitVec.add_assoc]
        unfold Wild maxAlloc at *
        rw [hnext, toNat_add]
        omega
    rw [findSymbol, entry_eq hlen hmax (n := 24) rfl (by decide) htame]
    split_ifs with hin
    · rw [binaryRead_drop hin]
      dsimp only
      generalize Elf64Sym.parse ((data.drop (symOffset + BitVec.ofNat 64 i * ent).toNat).take 24) = sym
      by_cases hname : sym.name.toNat ≥ strData.length
      · rw [if_pos hname]
        exact hrest hin
      · rw [if_neg hname]
        obtain ⟨s, hs⟩ := nameAt_ok hstr (Nat.not_le.mp hname)
        rw [hs, ok_bind]
        split_ifs
        · exact ⟨some (loadBias + sym.value), rfl⟩
        · exact hrest hin
    · exact ⟨none, rfl⟩

end

theorem findSymbolAddr_cases (ef : ELF) (name : List (BitVec 8)) (hlen : 64 ≤ ef.data.length)
    (hmax : ef.data.length ≤ maxAlloc) :
    (SymbolsSound ef.data ef.shdrs ∧ ∃ r, ef.findSymbolAddr name = .ok r) ∨
      (¬ SymbolsSound ef.data ef.shdrs ∧ ef.findSymbolAddr name = .error .panic) := by
  have hword : (BitVec.ofNat 64 ef.data.length).toNat = ef.data.length := by
    unfold maxAlloc at hmax
    rw [toNat_ofNat, Nat.mod_eq_of_lt (by omega)]
  unfold SymbolsSound ELF.findSymbolAddr
  cases hsym : ef.shdrs.find? fun sh => sh.type = shtSymtab with
  | none => exact .inl ⟨fun _ h => (by cases h), none, rfl⟩
  | some symtab =>
    dsimp only
    cases hstr : ef.shdrs[symtab.link.toNat]? with
    | none =>
      refine .inl ⟨fun s hs strtab h => ?_, none, rfl⟩
      cases hs
      rw [hstr] at h
      cases h
    | some strtab =>
      simp only [some.injEq, forall_eq', hstr]
      by_cases hpast : BitVec.ofNat 64 ef.data.length < strtab.offset + strtab.size
      · rw [if_pos hpast]
        rw [lt_def, hword] at hpast
        exact .inl ⟨fun h => by omega, none, rfl⟩
      · rw [if_neg hpast]
        rw [lt_def, hword, Nat.not_lt] at hpast
        simp only [hpast, true_implies]
        rw [← slice_iff hpast]
        obtain ⟨s, hs⟩ | hs := slice_cases ef.data strtab.offset (strtab.offset + strtab.size)
        · have hnames := Nat.le_trans (slice_length hs) hmax
          rw [hs, ok_bind]
          have hmul := symCount_mul symtab
          cases hcount : symCount symtab with
          | zero => exact .inl ⟨⟨⟨s, rfl⟩, fun h => absurd rfl h⟩, none, rfl⟩
          | succ n =>
            rw [hcount] at hmul
            by_cases hwild : Wild symtab.offset 24
            · exact .inr ⟨fun h => h.2 (Nat.succ_ne_zero n) hwild, findSymbol_panic hlen hmax hwild⟩
            · refine .inl ⟨⟨⟨s, rfl⟩, fun _ => hwild⟩, findSymbol_ok hlen hmax hnames (by rwa [Nat.zero_add]) ?_⟩
              rwa [show BitVec.ofNat 64 0 = 0#64 from rfl, zero_mul, BitVec.add_zero]
        · rw [hs, error_bind]
          exact .inr ⟨fun ⟨⟨s, h⟩, _⟩ => (by cases h), rfl⟩

end RiscvEmu.Elf
