/-
The image in memory.

On Linux `ZeroRange` ends in `madvise(MADV_DONTNEED)`, whose error is dropped: a start that is not on a page boundary
is refused and nothing is cleared, otherwise whole pages are, the last one to its end (`madviseDontNeed`). So a
segment clears nothing or more than its own rest (`Clears`), and what a byte holds afterwards depends on which
segments clear it and which of them come after its own.

• `postLoad_iff`: when memory after a load is the one the file describes.
-/
import RiscvEmu.Elf.Loaded

namespace RiscvEmu.Elf

open BitVec Bytes

variable {slack : Nat → Nat} {data : List (BitVec 8)} {hdr : Elf64Header} {mem : GuestMemory}

/-! ## The host -/

def roundUp (page n : Nat) : Nat := (n + page - 1) / page * page

/-- the range that `madvise(MADV_DONTNEED)` clears; the slab itself starts on a page boundary -/
def Dropped (page : Nat) (addr length p : BitVec 64) : Prop :=
  addr.toNat % page = 0 ∧ addr.toNat ≤ p.toNat ∧ p.toNat < addr.toNat + roundUp page length.toNat

instance (page : Nat) (addr length p : BitVec 64) :
    Decidable (Dropped page addr length p) := inferInstanceAs (Decidable (_ ∧ _ ∧ _))

/-- `madvise(MADV_DONTNEED)` on the slab, with its error dropped -/
def madviseDontNeed (page : Nat) (b : Bytes) (addr length : BitVec 64) : Bytes := fun p =>
  if Dropped page addr length p then 0 else b p

theorem le_roundUp {page : Nat} (hpage : 0 < page) (n : Nat) : n ≤ roundUp page n := by
  have hdiv := Nat.div_add_mod (n + page - 1) page
  have hmod := Nat.mod_lt (n + page - 1) hpage
  rw [Nat.mul_comm] at hdiv
  unfold roundUp
  omega

/-! ## What the file describes -/

def InFile (hdr : Elf64Header) (ph : Elf64Phdr) (p : BitVec 64) : Prop :=
  (segAddr hdr ph).toNat ≤ p.toNat ∧ p.toNat < (segAddr hdr ph).toNat + ph.fileSz.toNat

def InBss (hdr : Elf64Header) (ph : Elf64Phdr) (p : BitVec 64) : Prop :=
  (segAddr hdr ph).toNat + ph.fileSz.toNat ≤ p.toNat ∧ p.toNat < (segAddr hdr ph).toNat + ph.memSz.toNat

def Within (hdr : Elf64Header) (ph : Elf64Phdr) (p : BitVec 64) : Prop := InFile hdr ph p ∨ InBss hdr ph p

/-- the segments do not overlap in memory -/
def SegmentsApart (data : List (BitVec 8)) : Prop :=
  (loadables data (headerOf data)).Pairwise fun ph q => ∀ p,
    ¬ (Within (headerOf data) ph p ∧ Within (headerOf data) q p)

/-- the byte of the file that belongs at an address of a segment -/
def fileByte (data : List (BitVec 8)) (hdr : Elf64Header) (ph : Elf64Phdr) (p : BitVec 64) : BitVec 8 :=
  data.getD (ph.offset.toNat + (p.toNat - (segAddr hdr ph).toNat)) 0

/-- the byte that the relocations put at an address, if one of them does: that of the last one -/
def relocByte (rs : List (BitVec 64 × BitVec 64)) (p : BitVec 64) : Option (BitVec 8) :=
  rs.reverse.findSome? fun r => (toLe 8 r.2)[(p - r.1).toNat]?

/-- memory after loading: the bytes of the file, relocated, zero in the rest of the segments, and elsewhere what was
there -/
structure PostLoad (data : List (BitVec 8)) (mem mem' : GuestMemory) : Prop where
  file : ∀ ph ∈ loadables data (headerOf data), ∀ p, InFile (headerOf data) ph p →
    mem'.bytes p = (relocByte (relocations data (headerOf data)) p).getD (fileByte data (headerOf data) ph p)
  bss : ∀ ph ∈ loadables data (headerOf data), ∀ p, InBss (headerOf data) ph p → mem'.bytes p = 0
  outside : ∀ p, p.toNat < mem.size.toNat → (∀ ph ∈ loadables data (headerOf data), ¬ Within (headerOf data) ph p) →
    relocByte (relocations data (headerOf data)) p = none → mem'.bytes p = mem.bytes p

/-! ## When it is left in memory -/

def Clears (page : Nat) (hdr : Elf64Header) (ph : Elf64Phdr) (p : BitVec 64) : Prop :=
  ph.fileSz < ph.memSz ∧ Dropped page (segAddr hdr ph + ph.fileSz) (ph.memSz - ph.fileSz) p

instance (page : Nat) (hdr : Elf64Header) (ph : Elf64Phdr) (p : BitVec 64) : Decidable (Clears page hdr ph p) :=
  inferInstanceAs (Decidable (_ ∧ _))

/-- what is cleared too much, and what is not cleared, does not show: a byte of the file that a later segment clears is
zero; a byte of the rest of a segment that none clears was zero, and is not relocated to another value; and a byte that
is cleared outside the segments was zero -/
structure ClearsRight (page : Nat) (data : List (BitVec 8)) (mem : GuestMemory) : Prop where
  file : ∀ l ph l', loadables data (headerOf data) = l ++ ph :: l' → ∀ p, InFile (headerOf data) ph p →
    relocByte (relocations data (headerOf data)) p = none → (∃ q ∈ l', Clears page (headerOf data) q p) →
      fileByte data (headerOf data) ph p = 0
  bss : ∀ ph ∈ loadables data (headerOf data), ∀ p, InBss (headerOf data) ph p →
    (relocByte (relocations data (headerOf data)) p = none →
      (∀ q ∈ loadables data (headerOf data), ¬ Clears page (headerOf data) q p) →
      mem.bytes p = 0) ∧
    ∀ v, relocByte (relocations data (headerOf data)) p = some v → v = 0
  outside : ∀ p, p.toNat < mem.size.toNat → (∀ ph ∈ loadables data (headerOf data), ¬ Within (headerOf data) ph p) →
    relocByte (relocations data (headerOf data)) p = none →
      (∃ q ∈ loadables data (headerOf data), Clears page (headerOf data) q p) →
      mem.bytes p = 0

/-! ## One segment -/

theorem writeList_of_lt {b : Bytes} {a p : BitVec 64} {l : List (BitVec 8)} (hfrom : a.toNat ≤ p.toNat)
    (hto : p.toNat < a.toNat + l.length) : b.writeList a l p = l.getD (p.toNat - a.toNat) 0 := by
  have hsub : (p - a).toNat = p.toNat - a.toNat := toNat_sub_of_le (le_def.mpr hfrom)
  unfold Bytes.writeList
  rw [hsub, List.getElem?_eq_getElem (by omega), List.getD_eq_getElem?_getD, List.getElem?_eq_getElem (by omega)]
  rfl

theorem writeList_of_not {b : Bytes} {a p : BitVec 64} {l : List (BitVec 8)} (hfits : a.toNat + l.length ≤ 2 ^ 64)
    (hout : ¬ (a.toNat ≤ p.toNat ∧ p.toNat < a.toNat + l.length)) : b.writeList a l p = b p := by
  have hp := p.isLt
  have ha := a.isLt
  have hsub : l.length ≤ (p - a).toNat := by
    rw [toNat_sub]
    omega
  unfold Bytes.writeList
  rw [List.getElem?_eq_none hsub]
  rfl

theorem guestRange_toNat {m : GuestMemory} {addr length : BitVec 64} (h : m.guestRange addr length = true)
    (hne : length ≠ 0) :
    addr.toNat + length.toNat ≤ m.size.toNat := by
  have hpos : length.toNat ≠ 0 := fun h => hne (eq_of_toNat_eq h)
  have haddr := addr.isLt
  have hlen := length.isLt
  simp only [GuestMemory.guestRange, decide_eq_true_eq, le_def, toNat_add] at h
  obtain hz | ⟨hfrom, hto⟩ := h
  · exact absurd hz hne
  · omega

section

variable {page : Nat} {ph : Elf64Phdr} {p : BitVec 64} (hfits : Fits data mem hdr ph)

include hfits

theorem Fits.fileBytes_length : (fileBytes data ph).length = ph.fileSz.toNat := by
  unfold fileBytes
  by_cases hz : ph.fileSz = 0
  · rw [hz]
    rfl
  · obtain ⟨hin, -⟩ := hfits.file hz
    refine List.length_take_of_le ?_
    rw [List.length_drop]
    omega

theorem Fits.file_end : (segAddr hdr ph).toNat + ph.fileSz.toNat ≤ 2 ^ 64 := by
  have ha := (segAddr hdr ph).isLt
  by_cases hz : ph.fileSz = 0
  · rw [hz]
    exact Nat.le_of_lt ha
  · have hend := guestRange_toNat (hfits.file hz).2.1 hz
    have hsize := mem.size.isLt
    omega

theorem Fits.bss_start (hlt : ph.fileSz < ph.memSz) :
    (segAddr hdr ph + ph.fileSz).toNat = (segAddr hdr ph).toNat + ph.fileSz.toNat := by
  rw [toNat_add, Nat.mod_eq_of_lt (hfits.bss hlt).1]

theorem Fits.segmentBytes_file (b : Bytes) (hin : InFile hdr ph p) :
    segmentBytes (madviseDontNeed page) data hdr b ph p = fileByte data hdr ph p := by
  have hlen := hfits.fileBytes_length
  obtain ⟨hfrom, hto⟩ := hin
  have hcopied : b.writeList (segAddr hdr ph) (fileBytes data ph) p = fileByte data hdr ph p := by
    rw [writeList_of_lt hfrom (by omega), fileBytes, fileByte, List.getD_eq_getElem?_getD, List.getD_eq_getElem?_getD,
      List.getElem?_take_of_lt (by omega), List.getElem?_drop]
  unfold segmentBytes
  by_cases hle : ph.memSz ≤ ph.fileSz
  · rw [if_pos hle]
    exact hcopied
  · rw [if_neg hle]
    have hstart := hfits.bss_start (BitVec.not_le.mp hle)
    have hnot : ¬ Dropped page (segAddr hdr ph + ph.fileSz) (ph.memSz - ph.fileSz) p := by
      rintro ⟨-, hge, -⟩
      omega
    exact (if_neg hnot).trans hcopied

theorem Fits.segmentBytes_other (b : Bytes) (hout : ¬ InFile hdr ph p) :
    segmentBytes (madviseDontNeed page) data hdr b ph p = if Clears page hdr ph p then 0 else b p := by
  have hlen := hfits.fileBytes_length
  have hend := hfits.file_end
  have hcopied : b.writeList (segAddr hdr ph) (fileBytes data ph) p = b p := by
    refine writeList_of_not (by omega) fun h => hout ?_
    rw [hlen] at h
    exact h
  unfold segmentBytes
  by_cases hle : ph.memSz ≤ ph.fileSz
  · rw [if_pos hle, hcopied, if_neg fun h => absurd hle (BitVec.not_le.mpr h.1)]
  · rw [if_neg hle]
    have hlt := BitVec.not_le.mp hle
    unfold madviseDontNeed
    by_cases hdrop : Dropped page (segAddr hdr ph + ph.fileSz) (ph.memSz - ph.fileSz) p
    · rw [if_pos hdrop, if_pos ⟨hlt, hdrop⟩]
    · rw [if_neg hdrop, if_neg fun h => hdrop h.2, hcopied]

theorem Fits.clears_bss (hpage : 0 < page) (haligned : ((segAddr hdr ph).toNat + ph.fileSz.toNat) % page = 0)
    (hin : InBss hdr ph p) : Clears page hdr ph p := by
  obtain ⟨hfrom, hto⟩ := hin
  have hlt : ph.fileSz < ph.memSz := lt_def.mpr (by omega)
  have hstart := hfits.bss_start hlt
  have hround := le_roundUp hpage (ph.memSz - ph.fileSz).toNat
  rw [toNat_sub_of_le (BitVec.le_of_lt hlt)] at hround
  refine ⟨hlt, by rw [hstart]; exact haligned, by omega, ?_⟩
  rw [hstart, toNat_sub_of_le (BitVec.le_of_lt hlt)]
  omega

end

/-! ## All segments -/

section

variable {page : Nat} {p : BitVec 64} {ph : Elf64Phdr} {l l' : List Elf64Phdr}

theorem foldl_segmentBytes_other (hfits : ∀ q ∈ l, Fits data mem hdr q) (b : Bytes) (hout : ∀ q ∈ l, ¬ InFile hdr q p) :
    l.foldl (segmentBytes (madviseDontNeed page) data hdr) b p = if ∃ q ∈ l, Clears page hdr q p then 0 else b p := by
  induction l generalizing b with
  | nil => simp
  | cons q l ih =>
    rw [List.forall_mem_cons] at hfits hout
    rw [List.foldl_cons, ih hfits.2 _ hout.2, hfits.1.segmentBytes_other b hout.1]
    simp only [List.mem_cons, exists_eq_or_imp]
    by_cases hlater : ∃ q ∈ l, Clears page hdr q p
    · rw [if_pos hlater, if_pos (.inr hlater)]
    · rw [if_neg hlater]
      by_cases hq : Clears page hdr q p
      · rw [if_pos hq, if_pos (.inl hq)]
      · rw [if_neg hq, if_neg (not_or.mpr ⟨hq, hlater⟩)]

theorem foldl_segmentBytes_file (hfits : ∀ q ∈ l ++ ph :: l', Fits data mem hdr q) (b : Bytes) (hin : InFile hdr ph p)
    (hlater : ∀ q ∈ l', ¬ InFile hdr q p) :
    (l ++ ph :: l').foldl (segmentBytes (madviseDontNeed page) data hdr) b p =
      if ∃ q ∈ l', Clears page hdr q p then 0 else fileByte data hdr ph p := by
  obtain ⟨-, hrest⟩ := List.forall_mem_append.mp hfits
  rw [List.forall_mem_cons] at hrest
  rw [List.foldl_append, List.foldl_cons, foldl_segmentBytes_other hrest.2 _ hlater, hrest.1.segmentBytes_file _ hin]

theorem others_apart (h : (l ++ ph :: l').Pairwise fun ph q => ∀ p, ¬ (Within hdr ph p ∧ Within hdr q p))
    (hp : Within hdr ph p) :
    (∀ q ∈ l, ¬ Within hdr q p) ∧ ∀ q ∈ l', ¬ Within hdr q p := by
  obtain ⟨-, hrest, hcross⟩ := List.pairwise_append.mp h
  obtain ⟨hhead, -⟩ := List.pairwise_cons.mp hrest
  exact ⟨fun q hq hw => hcross q hq ph List.mem_cons_self p ⟨hw, hp⟩, fun q hq hw => hhead q hq p ⟨hp, hw⟩⟩

theorem InBss.not_inFile (h : InBss hdr ph p) : ¬ InFile hdr ph p := fun hin => by
  have hge := h.1
  have hlt := hin.2
  omega

theorem not_inFile_of_bss (hapart : l.Pairwise fun ph q => ∀ p, ¬ (Within hdr ph p ∧ Within hdr q p)) (hph : ph ∈ l)
    (hp : InBss hdr ph p) : ∀ q ∈ l, ¬ InFile hdr q p := by
  obtain ⟨l₁, l₂, rfl⟩ := List.append_of_mem hph
  obtain ⟨hbefore, hafter⟩ := others_apart hapart (.inr hp)
  intro q hq hin
  obtain hq | hq := List.mem_append.mp hq
  · exact hbefore q hq (.inl hin)
  · obtain rfl | hq := List.mem_cons.mp hq
    · exact hp.not_inFile hin
    · exact hafter q hq (.inl hin)

end

theorem foldl_relocBytes (rs : List (BitVec 64 × BitVec 64)) (b : Bytes) (p : BitVec 64) :
    rs.foldl relocBytes b p = (relocByte rs p).getD (b p) := by
  induction rs generalizing b with
  | nil => rfl
  | cons r rs ih =>
    have hcons : relocByte (r :: rs) p = (relocByte rs p).or (toLe 8 r.2)[(p - r.1).toNat]? := by
      unfold relocByte
      rw [List.reverse_cons, List.findSome?_append, List.findSome?_cons]
      cases (toLe 8 r.2)[(p - r.1).toNat]? with
      | none => rfl
      | some v => rfl
    rw [List.foldl_cons, ih, hcons]
    cases relocByte rs p with
    | none => rfl
    | some v => rfl

/-! ## The postcondition -/

/-- **The image in memory.** A file that is loaded, with segments that do not overlap, leaves what it describes just if
what is cleared too much and what is not cleared does not show. -/
theorem postLoad_iff {page : Nat} {data : GoBytes} {ef : ELF} {s s' : Loader}
    (hload : loadELFBytes (madviseDontNeed page) slack data s = (.ok ef, s')) (hapart : SegmentsApart data.bytes) :
    PostLoad data.bytes s.mem s'.mem ↔ ClearsRight page data.bytes s.mem := by
  have hloaded := loadELFBytes_loaded hload
  have hfits := hloaded.fits
  have hbytes : ∀ p, s'.mem.bytes p = (relocByte (relocations data.bytes (headerOf data.bytes)) p).getD
      ((loadables data.bytes (headerOf data.bytes)).foldl
        (segmentBytes (madviseDontNeed page) data.bytes (headerOf data.bytes)) s.mem.bytes p) := by
    intro p
    rw [hloaded.leaves.mem]
    exact foldl_relocBytes _ _ p
  unfold SegmentsApart at hapart
  -- a byte of the file, by the place of its segment among the others
  have hfile : ∀ l ph l', loadables data.bytes (headerOf data.bytes) = l ++ ph :: l' →
      ∀ p, InFile (headerOf data.bytes) ph p →
      s'.mem.bytes p = (relocByte (relocations data.bytes (headerOf data.bytes)) p).getD
        (if ∃ q ∈ l', Clears page (headerOf data.bytes) q p then 0 else fileByte data.bytes
          (headerOf data.bytes) ph p) := by
    intro l ph l' hsplit p hin
    rw [hbytes]
    rw [hsplit] at hfits hapart ⊢
    rw [foldl_segmentBytes_file hfits _ hin fun q hq hq' => (others_apart hapart (.inl hin)).2 q hq (.inl hq')]
  have hother : ∀ p, (∀ q ∈ loadables data.bytes (headerOf data.bytes), ¬ InFile (headerOf data.bytes) q p) →
      s'.mem.bytes p = (relocByte (relocations data.bytes (headerOf data.bytes)) p).getD
        (if ∃ q ∈ loadables data.bytes (headerOf data.bytes),
          Clears page (headerOf data.bytes) q p then 0 else s.mem.bytes p) := by
    intro p hout
    rw [hbytes, foldl_segmentBytes_other hfits _ hout]
  constructor
  · intro h
    refine ⟨fun l ph l' hsplit p hin hreloc hclear => ?_,
      fun ph hph p hin => ⟨fun hreloc hclear => ?_, fun v hreloc => ?_⟩,
      fun p hp hout hreloc hclear => ?_⟩
    · have hmem : ph ∈ loadables data.bytes (headerOf data.bytes) := by
        rw [hsplit]
        exact List.mem_append_right l List.mem_cons_self
      have hpost := h.file ph hmem p hin
      rw [hfile l ph l' hsplit p hin, hreloc, if_pos hclear] at hpost
      exact hpost.symm
    · have hpost := h.bss ph hph p hin
      rw [hother p (not_inFile_of_bss hapart hph hin), hreloc, if_neg fun ⟨q, hq, hc⟩ => hclear q hq hc] at hpost
      exact hpost
    · have hpost := h.bss ph hph p hin
      rw [hbytes, hreloc] at hpost
      exact hpost
    · have hpost := h.outside p hp hout hreloc
      rw [hother p fun q hq hin => hout q hq (.inl hin), hreloc, if_pos hclear] at hpost
      exact hpost.symm
  · intro h
    refine ⟨fun ph hph p hin => ?_, fun ph hph p hin => ?_, fun p hp hout hreloc => ?_⟩
    · obtain ⟨l, l', hsplit⟩ := List.append_of_mem hph
      rw [hfile l ph l' hsplit p hin]
      cases hreloc : relocByte (relocations data.bytes (headerOf data.bytes)) p with
      | some v => rfl
      | none =>
        by_cases hclear : ∃ q ∈ l', Clears page (headerOf data.bytes) q p
        · rw [if_pos hclear]
          exact (h.file l ph l' hsplit p hin hreloc hclear).symm
        · rw [if_neg hclear]
    · rw [hother p (not_inFile_of_bss hapart hph hin)]
      obtain ⟨hnot, hset⟩ := h.bss ph hph p hin
      cases hreloc : relocByte (relocations data.bytes (headerOf data.bytes)) p with
      | some v => exact hset v hreloc
      | none =>
        by_cases hclear : ∃ q ∈ loadables data.bytes (headerOf data.bytes), Clears page (headerOf data.bytes) q p
        · rw [if_pos hclear]
          rfl
        · rw [if_neg hclear]
          exact hnot hreloc fun q hq hc => hclear ⟨q, hq, hc⟩
    · rw [hother p fun q hq hin => hout q hq (.inl hin), hreloc]
      by_cases hclear : ∃ q ∈ loadables data.bytes (headerOf data.bytes), Clears page (headerOf data.bytes) q p
      · rw [if_pos hclear]
        exact (h.outside p hp hout hreloc hclear).symm
      · rw [if_neg hclear]
        rfl

/-! ## Small files -/

/-- an executable file with one segment, at address 0x1000 plus `low`, whose first bytes are the first of the file -/
def oneSegment (low : BitVec 16) (fileSz sizeHigh sizeLow : BitVec 8) : GoBytes :=
  { bytes := [0x7f, 0x45, 0x4c, 0x46, 2, 1, 1, 0, 0, 0, 0, 0, 0, 0, 0, 0,
      2, 0, 0xf3, 0, 1, 0, 0, 0, 0, 0, 0, 0, 0, 0, 0, 0,
      64, 0, 0, 0, 0, 0, 0, 0, 0, 0, 0, 0, 0, 0, 0, 0, 0, 0, 0, 0, 64, 0, 56, 0, 1, 0, 0, 0, 0, 0, 0, 0,
      1, 0, 0, 0, 6, 0, 0, 0, 0, 0, 0, 0, 0, 0, 0, 0, low.setWidth 8, 0x10 + (low >>> 8).setWidth 8, 0, 0, 0, 0, 0, 0,
      0, 0, 0, 0, 0, 0, 0, 0, fileSz, 0, 0, 0, 0, 0, 0, 0, sizeLow, sizeHigh, 0, 0, 0, 0, 0, 0, 0, 0, 0, 0, 0, 0, 0, 0]
    fits := headers_le_maxAlloc }

/-- a loader whose memory of 1 MiB holds 0xff everywhere -/
def dirtyLoader : Loader :=
  let fresh := Loader.fresh 20 .sandbox true
  { fresh with mem := { fresh.mem with bytes := fun _ => 0xff } }

def oneLoaded (low : BitVec 16) (fileSz sizeHigh sizeLow : BitVec 8) : Except Stop ELF × Loader :=
  loadELFBytes (madviseDontNeed 4096) id (oneSegment low fileSz sizeHigh sizeLow) dirtyLoader

/-- sixteen bytes of the file up to a page border, and one whole page that is cleared, over what memory held -/
theorem postLoad_page :
    PostLoad (oneSegment 0xff0 0x10 0x10 0x10).bytes dirtyLoader.mem (oneLoaded 0xff0 0x10 0x10 0x10).2.mem := by
  have hok : (oneLoaded 0xff0 0x10 0x10 0x10).1.isOk = true := by decide +kernel
  obtain ⟨hsegs, hrelocs, hbias⟩ : loadables (oneSegment 0xff0 0x10 0x10 0x10).bytes
        (headerOf (oneSegment 0xff0 0x10 0x10 0x10).bytes) =
      [{ type := 1, flags := 6, offset := 0, vaddr := 0x1ff0, fileSz := 0x10, memSz := 0x1010 }] ∧
      relocations (oneSegment 0xff0 0x10 0x10 0x10).bytes (headerOf (oneSegment 0xff0 0x10 0x10 0x10).bytes) = [] ∧
      (headerOf (oneSegment 0xff0 0x10 0x10 0x10).bytes).loadBias = 0 := by
    decide +kernel
  obtain ⟨ef, s', hload⟩ := exists_of_isOk hok
  have hfits := (loadELFBytes_loaded hload).fits
  rw [hload]
  refine (postLoad_iff hload ?_).mpr ⟨?_, ?_, ?_⟩
  · unfold SegmentsApart
    rw [hsegs]
    exact List.pairwise_singleton _ _
  · -- no segment comes after the one
    rintro l ph l' hsplit p - - ⟨q, hq, -⟩
    have hlength := congrArg List.length hsplit
    rw [hsegs, List.length_singleton, List.length_append, List.length_cons] at hlength
    rw [List.length_eq_zero_iff.mp (show l'.length = 0 by omega)] at hq
    cases hq
  · intro ph hph p hin
    rw [hrelocs]
    have hclears : Clears 4096 (headerOf (oneSegment 0xff0 0x10 0x10 0x10).bytes) ph p := by
      refine (hfits ph hph).clears_bss (by decide) ?_ hin
      rw [hsegs] at hph
      rw [List.mem_singleton.mp hph, segAddr, hbias]
      decide
    exact ⟨fun _ hnot => absurd hclears (hnot ph hph), fun v hv => nomatch hv⟩
  · rintro p - hout - ⟨ph, hph, -, -, hfrom, hto⟩
    refine absurd (.inr ?_) (hout ph hph)
    rw [hsegs] at hph
    rw [List.mem_singleton.mp hph, segAddr, hbias] at hfrom hto
    rw [List.mem_singleton.mp hph, InBss, segAddr, hbias]
    exact ⟨hfrom, hto⟩

theorem oneSegment_loadables : loadables (oneSegment 8 0 0 8).bytes (headerOf (oneSegment 8 0 0 8).bytes) =
      [{ type := 1, flags := 6, offset := 0, vaddr := 0x1008, fileSz := 0, memSz := 8 }] ∧
    loadables (oneSegment 0 0 0 8).bytes (headerOf (oneSegment 0 0 0 8).bytes) =
      [{ type := 1, flags := 6, offset := 0, vaddr := 0x1000, fileSz := 0, memSz := 8 }] := by
  decide +kernel

/-- a rest of 8 bytes at 0x1008 is not cleared -/
theorem bss_not_cleared : (oneLoaded 8 0 0 8).1.isOk = true ∧ SegmentsApart (oneSegment 8 0 0 8).bytes ∧
    ¬ PostLoad (oneSegment 8 0 0 8).bytes dirtyLoader.mem (oneLoaded 8 0 0 8).2.mem := by
  obtain ⟨hsegs, -⟩ := oneSegment_loadables
  refine ⟨by decide +kernel, by rw [SegmentsApart, hsegs]; exact List.pairwise_singleton _ _, fun h => ?_⟩
  have hbias : (headerOf (oneSegment 8 0 0 8).bytes).loadBias = 0 := by decide +kernel
  have hbyte : (oneLoaded 8 0 0 8).2.mem.bytes 0x1008 = 0xff := by decide +kernel
  have hzero := h.bss _ (by rw [hsegs]; exact List.mem_singleton.mpr rfl) 0x1008 (by rw [InBss, segAddr, hbias]; decide)
  rw [hbyte] at hzero
  exact absurd hzero (by decide)

theorem page_cleared : (oneLoaded 0 0 0 8).1.isOk = true ∧ SegmentsApart (oneSegment 0 0 0 8).bytes ∧
    ¬ PostLoad (oneSegment 0 0 0 8).bytes dirtyLoader.mem (oneLoaded 0 0 0 8).2.mem := by
  obtain ⟨-, hsegs⟩ := oneSegment_loadables
  refine ⟨by decide +kernel, by rw [SegmentsApart, hsegs]; exact List.pairwise_singleton _ _, fun h => ?_⟩
  have hbias : (headerOf (oneSegment 0 0 0 8).bytes).loadBias = 0 := by decide +kernel
  have hbyte : (oneLoaded 0 0 0 8).2.mem.bytes 0x1800 = 0 := by decide +kernel
  have hkept := h.outside 0x1800 (by decide +kernel) (fun ph hph hw => ?_) (by decide +kernel)
  · rw [hbyte] at hkept
    exact absurd hkept (by decide)
  · rw [hsegs] at hph
    rw [List.mem_singleton.mp hph, Within, InFile, InBss, segAddr, hbias] at hw
    revert hw
    decide

end RiscvEmu.Elf
