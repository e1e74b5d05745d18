/-
The relocations of a position-independent file.

The program headers have been read before, so the loops over them find them in the file. What can go wrong is the
first entry of the dynamic section (`DynamicWild`), if its end wraps, and an entry of the relocation table that is
reached (`RelaWild`), if its end wraps or it is for a word on the page without rights.

• `applyRelaRelocations_verdict`: when the relocations are applied, and when a slice expression is out of range or the
  process ends.
-/
import RiscvEmu.Elf.Segments

namespace RiscvEmu.Elf

open BitVec Option

variable {data : List (BitVec 8)} {mem : GuestMemory} {hdr : Elf64Header} {i n : Nat}

/-! ## The program headers once more -/

/-- the program headers from `i` on, `n` of them -/
def phdrsFrom (data : List (BitVec 8)) (hdr : Elf64Header) (i n : Nat) : List Elf64Phdr :=
  (List.range' i n).filterMap (phdrAt data hdr)

/-- the offset and the size of a dynamic section, 0 for none -/
def dynamicRange (ph : Option Elf64Phdr) : BitVec 64 × BitVec 64 :=
  match ph with
  | none => (0, 0)
  | some ph => (ph.offset, ph.fileSz)

/-- the segment whose file bytes hold an address -/
def Elf64Phdr.Holds (ph : Elf64Phdr) (v : BitVec 64) :
    Prop := ph.type = ptLoad ∧ v ≥ ph.vaddr ∧ v < ph.vaddr + ph.fileSz

instance (ph : Elf64Phdr) (v : BitVec 64) : Decidable (ph.Holds v) := inferInstanceAs (Decidable (_ ∧ _ ∧ _))

/-- the file offset of an address in a segment, 0 for none -/
def offsetIn (v : BitVec 64) (ph : Option Elf64Phdr) : BitVec 64 :=
  match ph with
  | none => 0
  | some ph => ph.offset + (v - ph.vaddr)

theorem phdrAt_some {ph : Elf64Phdr} (h : phdrAt data hdr i = some ph) :
    (tableOffset hdr.phOff hdr.phEntSize i).toNat + 56 ≤ data.length ∧
      Elf64Phdr.parse (data.drop (tableOffset hdr.phOff hdr.phEntSize i).toNat) = ph := by
  unfold phdrAt phdrIn at h
  split_ifs at h with hin
  exact ⟨hin, some.inj h⟩

theorem phdrsFrom_cons {ph : Elf64Phdr} (h : phdrAt data hdr i = some ph) :
    phdrsFrom data hdr i (n + 1) = ph :: phdrsFrom data hdr (i + 1) n := by
  unfold phdrsFrom
  rw [List.range'_succ, List.filterMap_cons_some h]

theorem forall_shift (Q : Nat → Prop) (h : ∀ j < n + 1, Q (i + j)) : Q i ∧ ∀ j < n, Q (i + 1 + j) := by
  refine ⟨h 0 (Nat.succ_pos n), fun j hj => ?_⟩
  rw [show i + 1 + j = i + (j + 1) by omega]
  exact h (j + 1) (by omega)

section

variable (hlen : 64 ≤ data.length) (hmax : data.length ≤ maxAlloc)

include hmax

theorem phdr_field {α : Type} {off w : BitVec 64} {k : Nat} (hin : off.toNat + 56 ≤ data.length) (hw : w.toNat = k)
    (hk : k + 8 ≤ 56) (f : BitVec 64 → Except Stop α) :
    (sliceFrom data (off + w) >>= fun b => uint 64 b >>= f) = f (field 64 (data.drop off.toNat) k) := by
  have hsum : (off + w).toNat = off.toNat + k := by
    unfold maxAlloc at hmax
    rw [toNat_add, hw]
    omega
  rw [read_bind (off + w) (off.toNat + k) 64 hsum (by omega), field_drop]

include hlen

theorem phdr_entry {α : Type} {off : BitVec 64} (hin : off.toNat + 56 ≤ data.length) (a : Except Stop α)
    (k : BitVec 32 → Except Stop α) :
    (if above (off + 56) data then a else sliceFrom data off >>= fun b => uint 32 b >>= k) =
      k (Elf64Phdr.parse (data.drop off.toNat)).type := by
  have htame : ¬ Wild off 56 := by
    unfold Wild maxAlloc at *
    omega
  rw [entry_eq hlen hmax (n := 56) rfl (by decide) htame, if_pos hin, uint_drop (by omega), ok_bind]
  unfold Elf64Phdr.parse
  rw [field_drop, Nat.add_zero]

theorem dynamicSegment_eq (hall : ∀ j < n, ∃ ph, phdrAt data hdr (i + j) = some ph) :
    dynamicSegment data hdr.phOff hdr.phEntSize n i =
      .ok (dynamicRange ((phdrsFrom data hdr i n).find? fun ph => ph.type = ptDynamic)) := by
  induction n generalizing i with
  | zero => rfl
  | succ n ih =>
    obtain ⟨⟨ph, hph⟩, hrest⟩ := forall_shift (fun j => ∃ ph, phdrAt data hdr j = some ph) hall
    obtain ⟨hin, hparse⟩ := phdrAt_some hph
    rw [phdrsFrom_cons hph, dynamicSegment, phdr_entry hlen hmax hin, ih hrest, hparse]
    by_cases hdyn : ph.type = ptDynamic
    · rw [if_neg (not_not.mpr hdyn), phdr_field hmax (k := 8) hin rfl (by decide), phdr_field hmax (k := 32) hin rfl
        (by decide),
        List.find?_cons_of_pos (p := fun ph : Elf64Phdr => decide (ph.type = ptDynamic)) (decide_eq_true hdyn),
          ← hparse]
      rfl
    · rw [if_pos hdyn, List.find?_cons_of_neg (p := fun ph : Elf64Phdr => decide (ph.type = ptDynamic)) fun h => hdyn
        (of_decide_eq_true h)]

theorem relaFileOffset_eq (v : BitVec 64) (hall : ∀ j < n, ∃ ph, phdrAt data hdr (i + j) = some ph) :
    relaFileOffset data hdr.phOff hdr.phEntSize v n i =
      .ok (offsetIn v ((phdrsFrom data hdr i n).find? fun ph => ph.Holds v)) := by
  induction n generalizing i with
  | zero => rfl
  | succ n ih =>
    obtain ⟨⟨ph, hph⟩, hrest⟩ := forall_shift (fun j => ∃ ph, phdrAt data hdr j = some ph) hall
    obtain ⟨hin, hparse⟩ := phdrAt_some hph
    rw [phdrsFrom_cons hph, relaFileOffset, phdr_entry hlen hmax hin, ih hrest, hparse]
    by_cases hload : ph.type = ptLoad
    · rw [if_neg (not_not.mpr hload), phdr_field hmax (k := 16) hin rfl (by decide), phdr_field hmax (k := 32) hin rfl
        (by decide),
        phdr_field hmax (k := 8) hin rfl (by decide)]
      have hvaddr :
          field 64 (data.drop (tableOffset hdr.phOff hdr.phEntSize i).toNat) 16 = ph.vaddr := by rw [← hparse]; rfl
      have hfile : field 64 (data.drop (tableOffset hdr.phOff hdr.phEntSize i).toNat) 32 =
          ph.fileSz := by rw [← hparse]; rfl
      have hoff : field 64 (data.drop (tableOffset hdr.phOff hdr.phEntSize i).toNat) 8 =
          ph.offset := by rw [← hparse]; rfl
      rw [hvaddr, hfile, hoff]
      by_cases hin' : v ≥ ph.vaddr ∧ v < ph.vaddr + ph.fileSz
      · rw [if_pos hin', List.find?_cons_of_pos (p := fun ph : Elf64Phdr => decide (ph.Holds v))
          (decide_eq_true ⟨hload, hin'⟩)]
        rfl
      · rw [if_neg hin', List.find?_cons_of_neg (p := fun ph : Elf64Phdr => decide (ph.Holds v)) fun h => hin'
          (of_decide_eq_true h).2]
    · rw [if_pos hload, List.find?_cons_of_neg (p := fun ph : Elf64Phdr => decide (ph.Holds v)) fun h => hload
        (of_decide_eq_true h).1]

end

/-! ## The dynamic section -/

/-- an entry changes what is known of the relocation table -/
def Rela.set (r : Rela) (e : BitVec 64 × BitVec 64) : Rela :=
  if e.1 = 7 then { r with vaddr := e.2 } else if e.1 = 8 then { r with size := e.2 }
  else if e.1 = 9 then { r with ent := e.2 } else r

/-- the tags and values between two offsets, up to a tag that is 0 -/
def dynEntries (data : List (BitVec 8)) (start stop : Nat) : List (BitVec 64 × BitVec 64) :=
  ((List.range ((stop - start) / 16)).map fun k =>
    (field 64 data (start + 16 * k), field 64 data (start + 16 * k + 8))).takeWhile
    fun e => e.1 ≠ 0

/-- where a dynamic section says that the relocation table is -/
def relaOf (data : List (BitVec 8)) (ph : Elf64Phdr) : Rela :=
  (dynEntries data ph.offset.toNat (min data.length (ph.offset + ph.fileSz).toNat)).foldl Rela.set
    { vaddr := 0, size := 0, ent := 24 }

theorem dynEntries_of_lt {start stop : Nat} (h : stop < start + 16) : dynEntries data start stop = [] := by
  unfold dynEntries
  rw [Nat.div_eq_of_lt (by omega)]
  rfl

theorem dynEntries_of_le {start stop : Nat} (h : start + 16 ≤ stop) : dynEntries data start stop =
    if field 64 data start = 0 then [] else (field 64 data start, field 64 data (start + 8)) :: dynEntries data
      (start + 16) stop := by
  have hcount : (stop - start) / 16 = (stop - (start + 16)) / 16 + 1 := by omega
  unfold dynEntries
  rw [hcount, List.range_succ_eq_map, List.map_cons, List.map_map, Nat.mul_zero, Nat.add_zero]
  split_ifs with hnull
  · rw [List.takeWhile_cons_of_neg (by simpa using hnull)]
  · rw [List.takeWhile_cons_of_pos (by simpa using hnull)]
    congr 2
    refine List.map_congr_left fun k _ => ?_
    show (field 64 data (start + 16 * (k + 1)), field 64 data (start + 16 * (k + 1) + 8)) = _
    rw [show start + 16 * (k + 1) = start + 16 + 16 * k by omega]

/-- the end of the first entry of a dynamic section wraps, and the entry is read -/
def DynWild (ph : Elf64Phdr) : Prop := 2 ^ 64 ≤ ph.offset.toNat + 16 ∧ ph.offset + 16 ≤ ph.offset + ph.fileSz

section

variable {dynEnd pos : BitVec 64} {r : Rela}
variable (hlen : 64 ≤ data.length) (hmax : data.length ≤ maxAlloc)

include hmax

theorem toNat_ofNat_length : (BitVec.ofNat 64 data.length).toNat = data.length := by
  unfold maxAlloc at hmax
  rw [toNat_ofNat, Nat.mod_eq_of_lt (by omega)]

theorem dynamicEntries_of_in {fuel : Nat} (hin : pos.toNat + 16 ≤ min data.length dynEnd.toNat) :
    dynamicEntries data dynEnd (fuel + 1) pos r =
      if field 64 data pos.toNat = 0 then .ok r
      else dynamicEntries data dynEnd fuel (pos + 16)
      (r.set (field 64 data pos.toNat, field 64 data (pos.toNat + 8))) := by
  have hword := toNat_ofNat_length hmax
  unfold maxAlloc at hmax
  have hcond : pos + 16 ≤ dynEnd ∧ pos + 16 ≤ BitVec.ofNat 64 data.length := by
    rw [le_def, le_def, hword, toNat_add, show BitVec.toNat (16 : BitVec 64) = 16 from rfl]
    omega
  have height : (pos + 8).toNat = pos.toNat + 8 := by
    rw [toNat_add, show BitVec.toNat (8 : BitVec 64) = 8 from rfl]
    omega
  rw [dynamicEntries, if_pos hcond, read_bind pos pos.toNat 64 rfl (by omega),
    read_bind (pos + 8) (pos.toNat + 8) 64 height (by omega)]
  unfold Rela.set
  dsimp only
  split_ifs with h7 h0 h8 h0 h9 h0 h0
  all_goals first
    | rfl
    | (rw [h0] at h7; exact absurd h7 (by decide))
    | (rw [h0] at h8; exact absurd h8 (by decide))
    | (rw [h0] at h9; exact absurd h9 (by decide))

/-- the entries of a section that lies in the file; every round reads 16 bytes, so the rounds suffice -/
theorem dynamicEntries_ok {fuel : Nat} (htame : pos.toNat + 16 < 2 ^ 64)
    (hfuel : (min data.length dynEnd.toNat - pos.toNat) / 16 < fuel) :
    dynamicEntries data dynEnd fuel pos r = .ok
      ((dynEntries data pos.toNat (min data.length dynEnd.toNat)).foldl Rela.set r) := by
  induction fuel generalizing pos r with
  | zero => exact absurd hfuel (Nat.not_lt_zero _)
  | succ fuel ih =>
    have hword := toNat_ofNat_length hmax
    have hsum : (pos + 16).toNat = pos.toNat + 16 := by
      rw [toNat_add, show BitVec.toNat (16 : BitVec 64) = 16 from rfl]
      omega
    by_cases hin : pos.toNat + 16 ≤ min data.length dynEnd.toNat
    · rw [dynamicEntries_of_in hmax hin, dynEntries_of_le hin]
      split_ifs with hnull
      · rfl
      · have hnext := @ih (pos + 16) (r.set (field 64 data pos.toNat, field 64 data (pos.toNat + 8)))
          (by unfold maxAlloc at hmax; omega) (by omega)
        rw [hsum] at hnext
        rw [hnext]
        rfl
    · have hcond : ¬ (pos + 16 ≤ dynEnd ∧ pos + 16 ≤ BitVec.ofNat 64 data.length) := by
        rw [le_def, le_def, hword, hsum]
        omega
      rw [dynamicEntries, if_neg hcond, dynEntries_of_lt (by omega)]
      rfl

include hlen

theorem dynamicEntries_panic {fuel : Nat} (hwrap : 2 ^ 64 ≤ pos.toNat + 16) (hend : pos + 16 ≤ dynEnd) :
    dynamicEntries data dynEnd (fuel + 1) pos r = .error .panic := by
  have hword := toNat_ofNat_length hmax
  have hpos := pos.isLt
  unfold maxAlloc at hmax
  have hcond : pos + 16 ≤ dynEnd ∧ pos + 16 ≤ BitVec.ofNat 64 data.length := by
    refine ⟨hend, ?_⟩
    rw [le_def, hword, toNat_add, show BitVec.toNat (16 : BitVec 64) = 16 from rfl]
    omega
  rw [dynamicEntries, if_pos hcond, sliceFrom_panic (by omega), error_bind]

theorem dynamic_cases (ph : Elf64Phdr) :
    (¬ DynWild ph ∧ dynamicEntries data (ph.offset + ph.fileSz) (data.length + 1) ph.offset
      { vaddr := 0, size := 0, ent := 24 } =
      .ok (relaOf data ph)) ∨
    (DynWild ph ∧ dynamicEntries data (ph.offset + ph.fileSz) (data.length + 1) ph.offset
      { vaddr := 0, size := 0, ent := 24 } =
      .error .panic) := by
  by_cases htame : ph.offset.toNat + 16 < 2 ^ 64
  · refine .inl ⟨fun h => by have := h.1; omega, dynamicEntries_ok hmax htame ?_⟩
    omega
  · by_cases hend : ph.offset + 16 ≤ ph.offset + ph.fileSz
    · exact .inr ⟨⟨by omega, hend⟩, dynamicEntries_panic hlen hmax (by omega) hend⟩
    · refine .inl ⟨fun h => hend h.2, ?_⟩
      unfold maxAlloc at hmax
      rw [dynamicEntries, if_neg fun h => hend h.1, relaOf, dynEntries_of_lt (by omega)]
      rfl

end

/-! ## The relocation table -/

/-- an entry of the relocation table is applied -/
structure Relocates (data : List (BitVec 8)) (mem : GuestMemory) (loadBias pos : BitVec 64) : Prop where
  inFile : pos.toNat + 24 ≤ data.length
  type : field 64 data (pos.toNat + 8) &&& 0xffffffff = 3
  target : mem.guestRange (loadBias + field 64 data pos.toNat) 8 = true ∧
    mem.touchesGuard (loadBias + field 64 data pos.toNat) 8 = false

/-- the end of an entry wraps, or the entry is for a word on the page without rights -/
def EntryWild (data : List (BitVec 8)) (mem : GuestMemory) (loadBias pos : BitVec 64) : Prop :=
  2 ^ 64 ≤ pos.toNat + 24 ∨
    (pos.toNat + 24 ≤ data.length ∧ field 64 data (pos.toNat + 8) &&& 0xffffffff = 3 ∧
      Strikes mem (loadBias + field 64 data pos.toNat) 8)

section

variable {s : Loader} {loadBias pos : BitVec 64}
variable (hlen : 64 ≤ data.length) (hmax : data.length ≤ maxAlloc)

include hlen hmax

theorem relocateEntry_verdict (hs : Ready data mem s) :
    Verdict data mem (Relocates data mem loadBias pos) (EntryWild data mem loadBias pos) (fun _ => True)
      (relocateEntry data loadBias i pos s) := by
  have hword := toNat_ofNat_length hmax
  have hpos := pos.isLt
  unfold maxAlloc at hmax
  have hsum : (pos + 24).toNat = (pos.toNat + 24) % 2 ^ 64 := by
    rw [toNat_add, show BitVec.toNat (24 : BitVec 64) = 24 from rfl]
  unfold relocateEntry
  by_cases hwrap : 2 ^ 64 ≤ pos.toNat + 24
  · have hcheck : ¬ pos + 24 > BitVec.ofNat 64 data.length := by
      rw [gt_iff_lt, lt_def, hword, hsum]
      omega
    have hpanic : (sliceFrom data pos >>= uint 64) = .error .panic := by
      rw [sliceFrom_panic (by omega), error_bind]
    rw [if_neg hcheck, hpanic]
    exact Verdict.panics (fun h => by have := h.inFile; omega) (.inl hwrap)
  · by_cases hin : pos.toNat + 24 ≤ data.length
    · have hcheck : ¬ pos + 24 > BitVec.ofNat 64 data.length := by
        rw [gt_iff_lt, lt_def, hword, hsum]
        omega
      have h8 : (pos + 8).toNat = pos.toNat + 8 := by
        rw [toNat_add, show BitVec.toNat (8 : BitVec 64) = 8 from rfl]
        omega
      have h16 : (pos + 16).toNat = pos.toNat + 16 := by
        rw [toNat_add, show BitVec.toNat (16 : BitVec 64) = 16 from rfl]
        omega
      have hoffset : (sliceFrom data pos >>= uint 64) = .ok (field 64 data pos.toNat) := uint_at (by omega)
      have hinfo : (sliceFrom data (pos + 8) >>= uint 64) = .ok (field 64 data (pos.toNat + 8)) := by
        rw [uint_at (by omega), h8]
      have haddend : (sliceFrom data (pos + 16) >>= uint 64) = .ok (field 64 data (pos.toNat + 16)) := by
        rw [uint_at (by omega), h16]
      rw [if_neg hcheck, hoffset, hinfo, haddend]
      show Verdict data mem _ _ _ ((if field 64 data (pos.toNat + 8) &&& 0xffffffff ≠ 3 then _ else _ : Load Unit) s)
      by_cases htype : field 64 data (pos.toNat + 8) &&& 0xffffffff = 3
      · rw [if_neg (not_not.mpr htype)]
        refine (copyOut_verdict 8 hs rfl (by decide)).congr ?_ ?_
        · exact ⟨fun h => ⟨hin, htype, h⟩, fun h => h.target⟩
        · exact ⟨fun h => .inr ⟨hin, htype, h⟩, fun h => (h.resolve_left hwrap).2.2⟩
      · rw [if_pos htype]
        exact .of_fail hs (fun h => htype h.type) fun h => htype (h.resolve_left hwrap).2.1
    · have hcheck : pos + 24 > BitVec.ofNat 64 data.length := by
        rw [gt_iff_lt, lt_def, hword, hsum]
        omega
      rw [if_pos hcheck]
      exact .of_fail hs (fun h => hin h.inFile) fun h => hin (h.resolve_left hwrap).1

theorem relocate_verdict {fileOffset ent : BitVec 64} (hs : Ready data mem s) :
    Verdict data mem (∀ j < n, Relocates data mem loadBias (relaPos fileOffset ent (i + j)))
      (∃ j < n, (∀ k < j, Relocates data mem loadBias (relaPos fileOffset ent (i + k))) ∧
        EntryWild data mem loadBias (relaPos fileOffset ent (i + j))) (fun _ => True)
      (relocate data loadBias fileOffset ent n i s) := by
  induction n generalizing i s with
  | zero =>
    exact .of_pure hs (fun j hj => absurd hj (Nat.not_lt_zero j))
      (fun ⟨j, hj, _⟩ => absurd hj (Nat.not_lt_zero j)) trivial
  | succ n ih =>
    rw [relocate]
    refine Verdict.round (fun j => Relocates data mem loadBias (relaPos fileOffset ent j))
      (fun j => EntryWild data mem loadBias (relaPos fileOffset ent j)) (relocateEntry_verdict hlen hmax hs) ?_
    exact fun _ s' _ hs' => ih hs'

end

/-! ## All relocations -/

def dynamicOf (data : List (BitVec 8)) (hdr : Elf64Header) : Option Elf64Phdr :=
  (phdrsFrom data hdr 0 hdr.phNum.toNat).find? fun ph => ph.type = ptDynamic

/-- the relocation table of a file, if there is one to apply -/
def relaTable (data : List (BitVec 8)) (hdr : Elf64Header) : Option Rela :=
  if hdr.phOff = 0 then none
  else
    match dynamicOf data hdr with
    | none => none
    | some ph =>
      if ph.offset = 0 ∨ (relaOf data ph).vaddr = 0 ∨ (relaOf data ph).size = 0 ∨ (relaOf data ph).ent = 0 then none
      else some (relaOf data ph)

/-- where in the file the bytes of an address are, 0 if no segment holds it -/
def fileOffsetOf (data : List (BitVec 8)) (hdr : Elf64Header) (v : BitVec 64) : BitVec 64 :=
  offsetIn v ((phdrsFrom data hdr 0 hdr.phNum.toNat).find? fun ph => ph.Holds v)

/-- the first entry of the dynamic section is read although its end wraps -/
def DynamicWild (data : List (BitVec 8)) (hdr : Elf64Header) : Prop :=
  hdr.phOff ≠ 0 ∧ ∃ ph, dynamicOf data hdr = some ph ∧ ph.offset ≠ 0 ∧ DynWild ph

/-- every entry of the relocation table is applied -/
def Relocated (data : List (BitVec 8)) (mem : GuestMemory) (hdr : Elf64Header) : Prop :=
  ∀ r, relaTable data hdr = some r → fileOffsetOf data hdr r.vaddr ≠ 0 ∧
    ∀ j < (r.size / r.ent).toNat, Relocates data mem hdr.loadBias (relaPos (fileOffsetOf data hdr r.vaddr) r.ent j)

/-- an entry of the relocation table is reached whose end wraps, or which is for the page without rights -/
def RelaWild (data : List (BitVec 8)) (mem : GuestMemory) (hdr : Elf64Header) : Prop :=
  ∃ r, relaTable data hdr = some r ∧ fileOffsetOf data hdr r.vaddr ≠ 0 ∧ ∃ j < (r.size / r.ent).toNat,
    (∀ k < j, Relocates data mem hdr.loadBias (relaPos (fileOffsetOf data hdr r.vaddr) r.ent k)) ∧
      EntryWild data mem hdr.loadBias (relaPos (fileOffsetOf data hdr r.vaddr) r.ent j)

section

variable {s : Loader} (hlen : 64 ≤ data.length) (hmax : data.length ≤ maxAlloc)

theorem relocated_of_none (hs : Ready data mem s) (hnone : relaTable data hdr = none) (htame : ¬ DynamicWild data hdr) :
    Verdict data mem (¬ DynamicWild data hdr ∧ Relocated data mem hdr) (DynamicWild data hdr ∨ RelaWild data mem hdr)
    (fun _ => True)
      ((pure () : Load Unit) s) := by
  refine .of_pure hs ⟨htame, fun r hr => ?_⟩ (fun h => h.elim htame fun ⟨r, hr, _⟩ => ?_) trivial
  · rw [hnone] at hr
    cases hr
  · rw [hnone] at hr
    cases hr

include hlen hmax

theorem applyRela_verdict {ph : Elf64Phdr} (hs : Ready data mem s) (hoff : hdr.phOff ≠ 0)
    (hdyn : dynamicOf data hdr = some ph)
    (hne : ph.offset ≠ 0) (htame : ¬ DynamicWild data hdr)
    (hall : ∀ j < hdr.phNum.toNat, ∃ ph, phdrAt data hdr j = some ph) :
    Verdict data mem (¬ DynamicWild data hdr ∧ Relocated data mem hdr) (DynamicWild data hdr ∨ RelaWild data mem hdr)
    (fun _ => True)
      (applyRela data hdr.loadBias hdr.phOff hdr.phEntSize hdr.phNum (relaOf data ph) s) := by
  have htable : relaTable data hdr = if ph.offset = 0 ∨ (relaOf data ph).vaddr = 0 ∨ (relaOf data ph).size = 0 ∨
      (relaOf data ph).ent = 0
      then none else some (relaOf data ph) := by
    rw [relaTable, if_neg hoff, hdyn]
  generalize relaOf data ph = r at htable
  unfold applyRela
  by_cases hnone : r.vaddr = 0 ∨ r.size = 0 ∨ r.ent = 0
  · rw [if_pos hnone]
    rw [if_pos (.inr hnone)] at htable
    exact relocated_of_none hs htable htame
  · rw [if_neg hnone]
    rw [if_neg fun h => h.elim hne hnone] at htable
    have honly : ∀ r', relaTable data hdr = some r' → r' = r := fun r' h => some.inj (h.symm.trans htable)
    have hfind : relaFileOffset data hdr.phOff hdr.phEntSize r.vaddr hdr.phNum.toNat 0 = .ok
        (fileOffsetOf data hdr r.vaddr) :=
      relaFileOffset_eq hlen hmax r.vaddr (by simpa only [Nat.zero_add] using hall)
    rw [hfind]
    show Verdict data mem _ _ _ ((if fileOffsetOf data hdr r.vaddr = 0 then _ else _ : Load Unit) s)
    by_cases hzero : fileOffsetOf data hdr r.vaddr = 0
    · rw [if_pos hzero]
      refine .of_fail hs (fun h => (h.2 r htable).1 hzero) fun h => h.elim htame fun ⟨r', hr', hne', _⟩ => ?_
      rw [honly r' hr'] at hne'
      exact hne' hzero
    · rw [if_neg hzero]
      refine (relocate_verdict hlen hmax hs).congr ?_ ?_
      · simp only [Nat.zero_add]
        constructor
        · refine fun h => ⟨htame, fun r' hr' => ?_⟩
          rw [honly r' hr']
          exact ⟨hzero, h⟩
        · exact fun h => (h.2 r htable).2
      · simp only [Nat.zero_add]
        constructor
        · exact fun h => .inr ⟨r, htable, hzero, h⟩
        · rintro (h | ⟨r', hr', _, h⟩)
          · exact absurd h htame
          · rw [honly r' hr'] at h
            exact h

theorem applyDynamic_verdict (hs : Ready data mem s) (hoff : hdr.phOff ≠ 0)
    (hall : ∀ j < hdr.phNum.toNat, ∃ ph, phdrAt data hdr j = some ph) :
    Verdict data mem (¬ DynamicWild data hdr ∧ Relocated data mem hdr) (DynamicWild data hdr ∨ RelaWild data mem hdr)
    (fun _ => True)
      (applyDynamic data hdr.loadBias hdr.phOff hdr.phEntSize hdr.phNum (dynamicRange (dynamicOf data hdr)) s) := by
  unfold applyDynamic
  cases hdyn : dynamicOf data hdr with
  | none =>
    refine relocated_of_none hs (by rw [relaTable, if_neg hoff, hdyn]) fun ⟨_, ph, hph, _⟩ => ?_
    rw [hdyn] at hph
    cases hph
  | some ph =>
    have hwild_iff : DynamicWild data hdr ↔ ph.offset ≠ 0 ∧ DynWild ph := by
      constructor
      · rintro ⟨-, ph', hph', h⟩
        rw [← some.inj (hdyn.symm.trans hph')] at h
        exact h
      · exact fun h => ⟨hoff, ph, hdyn, h⟩
    show Verdict data mem _ _ _ ((if ph.offset = 0 then _ else _ : Load Unit) s)
    by_cases hzero : ph.offset = 0
    · rw [if_pos hzero]
      refine relocated_of_none hs ?_ fun h => (hwild_iff.mp h).1 hzero
      rw [relaTable, if_neg hoff, hdyn]
      exact if_pos (.inl hzero)
    · rw [if_neg hzero]
      unfold dynamicRange
      dsimp only
      obtain ⟨htame, hok⟩ | ⟨hwild, hpanic⟩ := dynamic_cases hlen hmax ph
      · rw [hok]
        exact applyRela_verdict hlen hmax hs hoff hdyn hzero (fun h => htame (hwild_iff.mp h).2) hall
      · rw [hpanic]
        have hwild' := hwild_iff.mpr ⟨hzero, hwild⟩
        exact Verdict.panics (fun h => h.1 hwild') (.inl hwild')

/-- **The relocations.** They are applied unless an entry cannot be; a slice expression is out of range if the end wraps
of the first entry of the dynamic section or of a relocation that is reached. -/
theorem applyRelaRelocations_run (hhdr : Elf64Header.parse (data.take 64) = hdr) (hent : hdr.phEntSize = 56)
    (hnum : hdr.phNum ≠ 0)
    (hall : ∀ j < hdr.phNum.toNat, ∃ ph, phdrAt data hdr j = some ph) : applyRelaRelocations data hdr.loadBias s =
      if hdr.phOff = 0 then (.ok (), s)
      else applyDynamic data hdr.loadBias hdr.phOff hdr.phEntSize hdr.phNum (dynamicRange (dynamicOf data hdr)) s := by
  have hphOff : (sliceFrom data 32 >>= uint 64) = .ok hdr.phOff := by
    rw [uint_at (by show 32 + 64 / 8 ≤ _; omega), ← hhdr]
    exact congrArg Except.ok (field_take (by decide)).symm
  have hphEnt : (sliceFrom data 54 >>= uint 16) = .ok hdr.phEntSize := by
    rw [uint_at (by show 54 + 16 / 8 ≤ _; omega), ← hhdr]
    exact congrArg Except.ok (field_take (by decide)).symm
  have hphNum : (sliceFrom data 56 >>= uint 16) = .ok hdr.phNum := by
    rw [uint_at (by show 56 + 16 / 8 ≤ _; omega), ← hhdr]
    exact congrArg Except.ok (field_take (by decide)).symm
  unfold applyRelaRelocations
  rw [if_neg (by omega), hphOff, hphEnt, hphNum]
  show (if hdr.phOff = 0 ∨ hdr.phNum = 0 ∨ hdr.phEntSize < 56 then _ else _ : Load Unit) s = _
  by_cases hoff : hdr.phOff = 0
  · rw [if_pos (.inl hoff), if_pos hoff]
    rfl
  · have hpresent : ¬ (hdr.phOff = 0 ∨ hdr.phNum = 0 ∨ hdr.phEntSize < 56) := by
      rw [hent]
      exact fun h => h.elim hoff fun h => h.elim hnum fun h => absurd h (by decide)
    have hseg : dynamicSegment data hdr.phOff hdr.phEntSize hdr.phNum.toNat 0 = .ok
        (dynamicRange (dynamicOf data hdr)) :=
      dynamicSegment_eq hlen hmax (by simpa only [Nat.zero_add] using hall)
    rw [if_neg hpresent, hseg, if_neg hoff]
    rfl

theorem applyRelaRelocations_verdict (hs : Ready data mem s) (hhdr : Elf64Header.parse (data.take 64) = hdr)
    (hent : hdr.phEntSize = 56) (hnum : hdr.phNum ≠ 0)
    (hall : ∀ j < hdr.phNum.toNat, ∃ ph, phdrAt data hdr j = some ph) :
    Verdict data mem (¬ DynamicWild data hdr ∧ Relocated data mem hdr) (DynamicWild data hdr ∨ RelaWild data mem hdr)
    (fun _ => True)
      (applyRelaRelocations data hdr.loadBias s) := by
  rw [applyRelaRelocations_run hlen hmax hhdr hent hnum hall]
  by_cases hoff : hdr.phOff = 0
  · rw [if_pos hoff]
    exact relocated_of_none hs (if_pos hoff) fun h => h.1 hoff
  · rw [if_neg hoff]
    exact applyDynamic_verdict hlen hmax hs hoff hall

end

end RiscvEmu.Elf
