/-
Where `mmap` puts a mapping that the guest gives no address for (`allocRange`, `sysMmap` in `jea9linux.go`), and what
a successful `mmap` has done.

The search moves its cursor to the end of what it found and no call moves it down again (`Cursor.run`), so a range
below it is not found even when it is free.

The length is rounded up to pages first, and may wrap to 0. With an address given, a length of 0 is refused; the
search takes it (`sysMmap_mapping_iff`).
-/
import RiscvEmu.Linux.FreeRanges

namespace RiscvEmu.Linux

/-- `jea9LinuxDefaultMmapBase` -/
def defaultMmapBase (memSize : BitVec 64) : BitVec 64 :=
  let base := alignUp (memSize / 4)
  let base := if base < 0x400000 ∧ memSize > 0x800000 then 0x400000 else base
  if base ≥ memSize then guestPageSize else base

/-! ## What a successful mmap has done -/

/-- the page has an address in `[a, a + n)`, taken without wrapping -/
def MeetsPage (a n page : BitVec 64) : Prop := page.toNat * 4096 < a.toNat + n.toNat ∧ a.toNat < (page.toNat + 1) * 4096

/-- `[a, a + n)` is a mapping with the protection `prot` -/
structure Mapping (s : AddressSpace) (a n prot : BitVec 64) : Prop where
  nonempty : n ≠ 0
  aligned : Aligned a
  inside : a.toNat + n.toNat ≤ s.mem.size.toNat
  mapped : ∀ page, MeetsPage a n page → ∃ state, s.vm.pages page = some state ∧ state &&& pageMapped ≠ 0 ∧
    state &&& protMask = prot
  passes : ∀ (p w : BitVec 64) (kind : FaultKind), a.toNat ≤ p.toNat →
    p.toNat + w.toNat ≤ (a.toNat + n.toNat + 4095) / 4096 * 4096 →
    protAllows prot kind = true → s.vm.checkGuestAccess p w kind = none

theorem mappedState_mapped (prot extra : BitVec 64) : (mappedState prot ||| extra) &&& pageMapped ≠ 0 := by
  intro h
  have hbit := congrArg (·.getLsbD 63) h
  have hmapped : pageMapped.getLsbD 63 = true := by decide
  have hzero : (0 : BitVec 64).getLsbD 63 = false := by decide
  simp only [mappedState, BitVec.getLsbD_and, BitVec.getLsbD_or, hmapped, hzero] at hbit
  simp at hbit

theorem mappedState_prot {prot extra : BitVec 64} (hprot : andNot prot protMask = 0) (hextra : extra &&& protMask = 0) :
    (mappedState prot ||| extra) &&& protMask = prot := by
  have hmapped : pageMapped &&& protMask = 0 := by decide
  apply BitVec.eq_of_getLsbD_eq
  intro i hi
  have h1 : (prot &&& ~~~protMask).getLsbD i = false := by
    show (andNot prot protMask).getLsbD i = false
    rw [hprot]
    exact BitVec.getLsbD_zero
  have h2 := congrArg (·.getLsbD i) hextra
  have h3 := congrArg (·.getLsbD i) hmapped
  simp only [BitVec.getLsbD_and, BitVec.getLsbD_not, BitVec.getLsbD_or, mappedState] at h1 h2 h3 ⊢
  cases hm : protMask.getLsbD i <;> cases hp : prot.getLsbD i <;> simp_all

namespace AddressSpace

variable {s s' : AddressSpace} {a e n prot flags : BitVec 64}

/-- the pages from `a` to `e` hold what the length needs -/
structure Covers (a n e : BitVec 64) : Prop where
  start : Aligned a
  past : Aligned e
  first : 4096 ≤ a.toNat
  reaches : a.toNat + n.toNat ≤ e.toNat
  tight : e.toNat < a.toNat + n.toNat + 4096

theorem Patched.pages_of_meets (h : Patched s s' a e (if prot = 0 then .defer else .fresh prot))
    (hprot : andNot prot protMask = 0) {page : BitVec 64} (hlow : a.toNat ≤ page.toNat * 4096)
    (hhigh : page.toNat * 4096 < e.toNat) :
    ∃ state, s'.vm.pages page = some state ∧ state &&& pageMapped ≠ 0 ∧ state &&& protMask = prot := by
  have hstart : (page * guestPageSize).toNat = page.toNat * 4096 := by
    rw [BitVec.toNat_mul, toNat_guestPageSize]
    have := e.isLt
    omega
  have hpage : pageOf (page * guestPageSize) = page := by
    apply BitVec.eq_of_toNat_eq
    rw [pageOf, toNat_page, hstart]
    omega
  have hcell := h.cells (page * guestPageSize)
  rw [if_pos ⟨by omega, by omega⟩] at hcell
  have hstate := congrArg Cell.state hcell
  unfold cell at hstate
  rw [hpage] at hstate
  by_cases hzero : prot = 0
  · subst hzero
    rw [if_pos rfl] at hstate
    exact ⟨_, hstate, mappedState_mapped 0 pageNeedsZero, mappedState_prot hprot (by decide)⟩
  · rw [if_neg hzero] at hstate
    have hor : mappedState prot ||| 0 = mappedState prot := BitVec.or_zero
    refine ⟨_, hstate, ?_, ?_⟩
    · rw [← hor]
      exact mappedState_mapped prot 0
    · rw [← hor]
      exact mappedState_prot hprot (by decide)

theorem Patched.mapping (h : Patched s s' a e (if prot = 0 then .defer else .fresh prot)) (hc : Covers a n e)
    (hprot : andNot prot protMask = 0) (hne : n ≠ 0) (hend : e.toNat ≤ s.mem.size.toNat) : Mapping s' a n prot := by
  have hsize := h.slab.size
  have hfirst := hc.first
  have hreaches := hc.reaches
  have htight := hc.tight
  have hstart := hc.start
  have hpast := hc.past
  unfold Aligned at hstart hpast
  refine ⟨hne, hc.start, by rw [hsize]; omega, fun page hmeets => ?_, fun p w kind hlow hhigh hallows => ?_⟩
  · obtain ⟨hbelow, habove⟩ := hmeets
    exact h.pages_of_meets hprot (by omega) (by omega)
  · by_cases hw : 0 < w.toNat
    swap
    · rw [VM.checkGuestAccess, if_pos (BitVec.eq_of_toNat_eq (Nat.eq_zero_of_not_pos hw))]
    refine (VM.checkGuestAccess_none_iff hw (by rw [s'.sized, hsize]; omega)).2 fun page hpage hpage' => ?_
    obtain ⟨state, hstate, hmapped, hbits⟩ :=
      h.pages_of_meets hprot (show a.toNat ≤ page.toNat * 4096 by omega) (by omega)
    have hnum : page ≠ 0 := by
      intro hzero
      subst hzero
      have : (0 : BitVec 64).toNat = 0 := rfl
      omega
    unfold VM.protOf
    rw [if_neg hnum, hstate]
    dsimp only
    rw [if_neg hmapped, hbits]
    exact hallows

/-- the length wraps to nothing when it is rounded up, and the search has a place for nothing -/
structure WrapAccepted (s : AddressSpace) (n prot flags : BitVec 64) : Prop where
  prot : andNot prot protMask = 0
  anonymous : flags &&& mapAnonymous ≠ 0
  anywhere : flags &&& mapFixed = 0
  wraps : 2 ^ 64 ≤ n.toNat + 4095
  room : max (alignUp s.vm.mmapNext).toNat 4096 ≤ s.vm.searchLimit

theorem wrapAccepted_finds (h : WrapAccepted s n prot flags) : (s.vm.allocRange 0).1 ≠ none := by
  have hroom := h.room
  have hle := s.vm.searchLimit_le
  have := s.vm.guestSize.isLt
  rw [Ne, VM.allocRange_none_iff (n := 0) rfl, not_not]
  refine ⟨BitVec.ofNat 64 (max (alignUp s.vm.mmapNext).toNat 4096), ?_⟩
  have hplace :
      (BitVec.ofNat 64 (max (alignUp s.vm.mmapNext).toNat 4096)).toNat = max (alignUp s.vm.mmapNext).toNat 4096 := by
    rw [BitVec.toNat_ofNat]
    omega
  have haligned := alignUp_aligned s.vm.mmapNext
  unfold Aligned at haligned
  have hzero : (0 : BitVec 64).toNat = 0 := rfl
  rw [hplace]
  refine ⟨by omega, by omega, ?_, by rw [hplace]; omega, fun p h1 h2 => by omega⟩
  rw [Aligned, hplace]
  omega

theorem room_of_found {vm' : VM} (h : s.vm.allocRange 0 = (some a, vm')) :
    max (alignUp s.vm.mmapNext).toNat 4096 ≤ s.vm.searchLimit := by
  obtain ⟨hcursor, hfirst, hfree, _⟩ := VM.allocRange_some (show Aligned 0 from rfl) h
  have := hfree.inside
  omega

theorem covers_alignUp (ha : Aligned a) (hfirst : 4096 ≤ a.toNat) (hn : n.toNat + 4095 < 2 ^ 64)
    (hwrap : a.toNat + (alignUp n).toNat < 2 ^ 64) : Covers a n (a + alignUp n) := by
  have hround := toNat_alignUp hn
  have hsum : (a + alignUp n).toNat = a.toNat + (alignUp n).toNat := by
    rw [BitVec.toNat_add]
    omega
  exact ⟨ha, ha.add (alignUp_aligned n), hfirst, by omega, by omega⟩

theorem placeMapping_mapping {slack : Nat → Nat} {r : Except (BitVec 64) (BitVec 64)} (ha : Aligned a)
    (hfirst : 4096 ≤ a.toNat)
    (hn : n.toNat + 4095 < 2 ^ 64) (hne : n ≠ 0) (hprot : andNot prot protMask = 0)
    (hroom : a.toNat + (alignUp n).toNat ≤ s.mem.size.toNat) (h : placeMapping slack a (alignUp n) prot s = (r, s')) :
    r = .ok a ∧ Mapping s' a n prot := by
  have hsize := s.mem.size.isLt
  have hc := covers_alignUp ha hfirst hn (by omega)
  have hsum : (a + alignUp n).toNat = a.toNat + (alignUp n).toNat := by
    rw [BitVec.toNat_add]
    omega
  have hlength : a + alignUp n - a = alignUp n := by bv_omega
  obtain ⟨s₁, hrun, hpatched, _⟩ :=
    placeMapping_run slack ha hc.past (by omega) (show (a + alignUp n).toNat ≤ s.mem.size.toNat by omega) prot
  rw [hlength, h] at hrun
  obtain ⟨rfl, rfl⟩ := Prod.mk.inj hrun
  exact ⟨rfl, hpatched.mapping hc hprot hne (by omega)⟩

theorem pagesIn_some {memSize : BitVec 64} (h : pagesIn a (alignUp n) memSize ≠ none) :
    n.toNat + 4095 < 2 ^ 64 ∧ a.toNat + (alignUp n).toNat ≤ memSize.toNat := by
  unfold pagesIn at h
  by_cases hlength : alignUp n = 0
  · rw [if_pos hlength] at h
    exact absurd rfl h
  rw [if_neg hlength] at h
  by_cases hout : a + alignUp n < a ∨ a + alignUp n > memSize
  · rw [if_pos hout] at h
    exact absurd rfl h
  refine ⟨Nat.lt_of_not_le fun hwrap => hlength (alignUp_wraps hwrap), ?_⟩
  rw [BitVec.lt_def, gt_iff_lt, BitVec.lt_def, BitVec.toNat_add] at hout
  have := a.isLt
  have := (alignUp n).isLt
  omega

theorem mmapFixed_mapping {slack : Nat → Nat} {addr : BitVec 64} (hne : n ≠ 0) (hprot : andNot prot protMask = 0)
    (h : mmapFixed slack addr (alignUp n) prot s = (.ok a, s')) : Mapping s' a n prot := by
  unfold mmapFixed at h
  by_cases hbad : addr = 0 ∨ addr % guestPageSize ≠ 0
  · rw [if_pos hbad] at h
    cases h
  rw [if_neg hbad] at h
  by_cases hrange : pagesIn addr (alignUp n) s.vm.guestSize = none
  · rw [if_pos hrange] at h
    cases h
  rw [if_neg hrange] at h
  obtain ⟨hzero, hmod⟩ := not_or.1 hbad
  obtain ⟨hn, hroom⟩ := pagesIn_some hrange
  have haligned : Aligned addr := (aligned_iff addr).1 (not_not.1 hmod)
  have hfirst : 4096 ≤ addr.toNat := by
    have hpos : addr.toNat ≠ 0 := fun h => hzero (BitVec.eq_of_toNat_eq h)
    unfold Aligned at haligned
    omega
  rw [s.sized] at hroom
  obtain ⟨haddr, hmapping⟩ := placeMapping_mapping haligned hfirst hn hne hprot hroom h
  cases haddr
  exact hmapping

theorem mmapAnywhere_mapping {slack : Nat → Nat} (hne : n ≠ 0) (hprot : andNot prot protMask = 0)
    (hn : n.toNat + 4095 < 2 ^ 64)
    (h : mmapAnywhere slack (alignUp n) prot s = (.ok a, s')) : Mapping s' a n prot := by
  unfold mmapAnywhere at h
  rcases hfound : s.vm.allocRange (alignUp n) with ⟨_ | chosen, vm⟩
  · rw [hfound] at h
    cases h
  · rw [hfound] at h
    dsimp only at h
    obtain ⟨_, hfirst, hfree, _⟩ := VM.allocRange_some (alignUp_aligned n) hfound
    have hinside := hfree.inside
    have hle := s.vm.searchLimit_le
    rw [s.sized] at hle
    have hroom : chosen.toNat + (alignUp n).toNat ≤ (s.setVM vm).mem.size.toNat := by
      rw [(setVM_slab s vm).size]
      omega
    obtain ⟨haddr, hmapping⟩ := placeMapping_mapping hfree.aligned hfirst hn hne hprot hroom h
    cases haddr
    exact hmapping

theorem mmapAnywhere_wraps (slack : Nat → Nat) (h : WrapAccepted s n prot flags) :
    ∃ a s', mmapAnywhere slack (alignUp n) prot s = (.ok a, s') ∧ 4096 ≤ a.toNat := by
  rw [alignUp_wraps h.wraps]
  unfold mmapAnywhere
  rcases hfound : s.vm.allocRange 0 with ⟨_ | chosen, vm⟩
  · exact absurd (congrArg Prod.fst hfound) (wrapAccepted_finds h)
  · obtain ⟨_, hfirst, hfree, _⟩ := VM.allocRange_some (show Aligned 0 from rfl) hfound
    have hinside := hfree.inside
    have hle := s.vm.searchLimit_le
    rw [s.sized] at hle
    have hroom : chosen.toNat ≤ (s.setVM vm).mem.size.toNat := by
      rw [(setVM_slab s vm).size]
      omega
    obtain ⟨s', hrun, _⟩ := placeMapping_run slack hfree.aligned hfree.aligned (Nat.le_refl _) hroom prot
    rw [BitVec.sub_self] at hrun
    exact ⟨chosen, s', hrun, hfirst⟩

/-- **What mmap maps.** Whatever the state and the arguments, the address that `mmap` returns is the start of a mapping
of the length and protection asked for, unless the length wraps to 0 when it is rounded up and the guest left the
address to the kernel. -/
theorem sysMmap_mapping_iff (slack : Nat → Nat) (addr n prot flags : BitVec 64) (s : AddressSpace) :
    (∀ a s', sysMmap slack addr n prot flags s = (.ok a, s') → Mapping s' a n prot) ↔
      ¬ WrapAccepted s n prot flags := by
  unfold sysMmap
  by_cases hbad : n = 0 ∨ andNot prot protMask ≠ 0
  · rw [if_pos hbad]
    refine iff_of_true (fun _ _ h => nomatch h) fun h => ?_
    rcases hbad with hzero | hprot
    · have hwraps := h.wraps
      rw [hzero] at hwraps
      exact absurd hwraps (by decide)
    · exact hprot h.prot
  obtain ⟨hne, hprot⟩ := not_or.1 hbad
  rw [not_not] at hprot
  rw [if_neg hbad]
  by_cases hfile : flags &&& mapAnonymous = 0
  · rw [if_pos hfile]
    exact iff_of_true (fun _ _ h => nomatch h) fun h => h.anonymous hfile
  rw [if_neg hfile]
  by_cases hfixed : flags &&& mapFixed ≠ 0
  · rw [if_pos hfixed]
    exact iff_of_true (fun _ _ h => mmapFixed_mapping hne hprot h) fun h => hfixed h.anywhere
  rw [if_neg hfixed]
  by_cases hwrap : n.toNat + 4095 < 2 ^ 64
  · exact iff_of_true (fun _ _ h => mmapAnywhere_mapping hne hprot hwrap h) fun h => absurd h.wraps (Nat.not_le.2 hwrap)
  have hwraps : 2 ^ 64 ≤ n.toNat + 4095 := Nat.le_of_not_lt hwrap
  constructor
  · intro h haccepted
    obtain ⟨a, s', hrun, hfirst⟩ := mmapAnywhere_wraps slack haccepted
    -- the end of the range is past the end of the address space
    have hinside := (h a s' hrun).inside
    have := s'.mem.size.isLt
    omega
  · intro h a s' hrun
    unfold mmapAnywhere at hrun
    rw [alignUp_wraps hwraps] at hrun
    rcases hfound : s.vm.allocRange 0 with ⟨_ | chosen, vm⟩
    · rw [hfound] at hrun
      cases hrun
    · exact absurd ⟨hprot, hfile, not_not.1 hfixed, hwraps, room_of_found hfound⟩ h

/-- `newJea9LinuxVM` for a fresh slab of `2 ^ logSize` bytes -/
def newSpace (logSize : Fin 40) : AddressSpace :=
  let memSize := 1#64 <<< logSize.val
  let brkOff := alignUp 0x200000
  let brk := if brkOff ≥ memSize then alignUp (memSize / 4) else brkOff
  let vm : VM := { pages := fun _ => none, guestSize := memSize, mmapNext := defaultMmapBase memSize }
  { mem :=
      { bytes := fun _ => 0, logSize := logSize, model := .linear, checkSandboxBounds := true,
        accessOverlay := some vm.overlay, mmio := none }
    execRegions := ExecTable.empty, vm := vm, brk := brk, minBrk := brk, watched := rfl, sized := rfl,
      boardless := rfl }

/-- sixteen pages, and a mapping of `2 ^ 64 - 1` bytes: an address is returned, and its page is not in the page map -/
theorem sysMmap_wrapped_length :
    (sysMmap (fun _ => 0) 0 (-1) protRead mapAnonymous (newSpace 16)).1 = .ok 0x4000 ∧
      (sysMmap (fun _ => 0) 0 (-1) protRead mapAnonymous (newSpace 16)).2.vm.pages (pageOf 0x4000) = none := by
  decide +kernel

/-! ## Runs of mmap and munmap -/

/-- a call that may move the cursor or free pages -/
inductive MapCall where
  | mmap (addr length prot flags : BitVec 64)
  | munmap (addr length : BitVec 64)

def MapCall.step (slack : Nat → Nat) : MapCall → AddressSpace → AddressSpace
  | .mmap addr length prot flags, s => (sysMmap slack addr length prot flags s).2
  | .munmap addr length, s => (sysMunmap slack addr length s).2

def runCalls (slack : Nat → Nat) (calls : List MapCall) (s : AddressSpace) : AddressSpace :=
  calls.foldl (fun s call => call.step slack s) s

/-- the cursor is a page boundary not below `base`, and the memory is as large as it was -/
structure Cursor (memSize base : BitVec 64) (s : AddressSpace) : Prop where
  size : s.vm.guestSize = memSize
  aligned : Aligned s.vm.mmapNext
  above : base.toNat ≤ s.vm.mmapNext.toNat

theorem placeMapping_vm (slack : Nat → Nat) (chosen length prot : BitVec 64) (s : AddressSpace) :
    (placeMapping slack chosen length prot s).2.vm.mmapNext = s.vm.mmapNext ∧
      (placeMapping slack chosen length prot s).2.vm.guestSize = s.vm.guestSize := by
  have hrange (vm : VM) (extra : BitVec 64) : (vm.mapRangeState chosen length prot extra).mmapNext = vm.mmapNext := by
    unfold VM.mapRangeState VM.updateRange
    split <;> rfl
  have henter (extra : BitVec 64) (s : AddressSpace) :
      (enterMapping slack chosen length prot extra s).2.vm.mmapNext = s.vm.mmapNext ∧
      (enterMapping slack chosen length prot extra s).2.vm.guestSize = s.vm.guestSize := by
    obtain ⟨t, ht⟩ := enterMapping_run slack chosen length prot extra s
    rw [ht]
    exact ⟨hrange s.vm extra, rfl⟩
  unfold placeMapping
  by_cases hprot : prot = 0
  · rw [if_pos hprot]
    exact henter pageNeedsZero s
  · rw [if_neg hprot]
    rcases hzero : onMem (GuestMemory.zero chosen length) s with ⟨f | _, s₁⟩
    · have hsame : s₁.vm = s.vm := (congrArg (fun r => r.2.vm) hzero).symm
      rw [← hsame]
      exact ⟨rfl, rfl⟩
    · have hsame : s₁.vm = s.vm := (congrArg (fun r => r.2.vm) hzero).symm
      rw [← hsame]
      exact henter 0 s₁

variable {memSize base : BitVec 64} {slack : Nat → Nat}

theorem Cursor.place (h : Cursor memSize base s) (chosen length prot : BitVec 64) :
    Cursor memSize base (placeMapping slack chosen length prot s).2 := by
  obtain ⟨hnext, hsize⟩ := placeMapping_vm slack chosen length prot s
  exact ⟨hsize.trans h.size, by rw [hnext]; exact h.aligned, by rw [hnext]; exact h.above⟩

theorem Cursor.search (h : Cursor memSize base s) (hn : Aligned n) :
    Cursor memSize base (s.setVM (s.vm.allocRange n).2) := by
  rcases hfound : s.vm.allocRange n with ⟨_ | chosen, vm⟩
  · have hsame : vm.mmapNext = s.vm.mmapNext := by
      by_cases hsmall : s.vm.guestSize ≤ 2 * guestPageSize
      · rw [VM.allocRange_small hsmall] at hfound
        cases hfound
        rfl
      · obtain ⟨found, _, hrange⟩ := VM.allocRange_eq hsmall n
        rw [hfound] at hrange
        obtain ⟨rfl, rfl⟩ := Prod.mk.inj hrange
        rfl
    exact ⟨h.size, by show Aligned vm.mmapNext; rw [hsame]; exact h.aligned,
      by show base.toNat ≤ vm.mmapNext.toNat; rw [hsame]; exact h.above⟩
  · obtain ⟨hcursor, _, hfree, rfl⟩ := VM.allocRange_some hn hfound
    have hinside := hfree.inside
    have hle := s.vm.searchLimit_le
    have := s.vm.guestSize.isLt
    have habove := h.above
    rw [alignUp_of_aligned h.aligned] at hcursor
    refine ⟨h.size, hfree.aligned.add hn, ?_⟩
    show base.toNat ≤ (chosen + n).toNat
    rw [BitVec.toNat_add]
    omega

theorem Cursor.step (h : Cursor memSize base s) (call : MapCall) : Cursor memSize base (call.step slack s) := by
  cases call with
  | mmap addr length prot flags =>
    show Cursor memSize base (sysMmap slack addr length prot flags s).2
    unfold sysMmap
    split_ifs with hbad hfile hfixed
    · exact h
    · exact h
    · unfold mmapFixed
      split_ifs with hzero hrange
      · exact h
      · exact h
      · exact h.place addr (alignUp length) prot
    · have hsearch := h.search (alignUp_aligned length)
      unfold mmapAnywhere
      rcases hfound : s.vm.allocRange (alignUp length) with ⟨_ | chosen, vm⟩
      · rw [hfound] at hsearch
        exact hsearch
      · rw [hfound] at hsearch
        exact hsearch.place chosen (alignUp length) prot
  | munmap addr length =>
    show Cursor memSize base (sysMunmap slack addr length s).2
    unfold sysMunmap
    split_ifs with hmod
    · exact h
    · cases pagesIn addr length s.vm.guestSize with
      | none => exact h
      | some range =>
        have hnext : (s.vm.unmapRange range.1 (range.2 - range.1)).mmapNext = s.vm.mmapNext := by
          unfold VM.unmapRange VM.updateRange
          split <;> rfl
        refine ⟨h.size, ?_, ?_⟩
        · show Aligned (s.vm.unmapRange range.1 (range.2 - range.1)).mmapNext
          rw [hnext]
          exact h.aligned
        · show base.toNat ≤ (s.vm.unmapRange range.1 (range.2 - range.1)).mmapNext.toNat
          rw [hnext]
          exact h.above

theorem Cursor.run (h : Cursor memSize base s) (calls : List MapCall) :
    Cursor memSize base (runCalls slack calls s) := by
  induction calls generalizing s with
  | nil => exact h
  | cons call calls ih => exact ih (h.step call)

theorem defaultMmapBase_aligned (memSize : BitVec 64) : Aligned (defaultMmapBase memSize) := by
  unfold defaultMmapBase
  dsimp only
  split_ifs
  · rfl
  · rfl
  · rfl
  · exact alignUp_aligned _

theorem defaultMmapBase_first {memSize : BitVec 64} (h : 8192 < memSize.toNat) :
    4096 ≤ (defaultMmapBase memSize).toNat := by
  have hquarter : (memSize / 4).toNat = memSize.toNat / 4 := BitVec.toNat_udiv
  have := memSize.isLt
  have hround := toNat_alignUp (v := memSize / 4) (by omega)
  unfold defaultMmapBase
  dsimp only
  split_ifs
  · exact Nat.le_refl _
  · decide
  · exact Nat.le_refl _
  · omega

/-- `mmap` of `n` bytes without an address fails only if no range of `n` free bytes starts at or above `base` -/
def FindsPlace (slack : Nat → Nat) (base n : BitVec 64) (s : AddressSpace) : Prop :=
  ∀ addr prot flags : BitVec 64, flags &&& mapFixed = 0 → (sysMmap slack addr n prot flags s).1 = .error errENOMEM →
    ¬ ∃ a : BitVec 64, base.toNat ≤ a.toNat ∧ FreeRange s.vm a n

theorem mmapAnywhere_error_iff (slack : Nat → Nat) (prot : BitVec 64) (hn : Aligned n) :
    (mmapAnywhere slack n prot s).1 = .error errENOMEM ↔ (s.vm.allocRange n).1 = none := by
  unfold mmapAnywhere
  rcases hfound : s.vm.allocRange n with ⟨_ | chosen, vm⟩
  · exact iff_of_true rfl rfl
  · obtain ⟨_, hfirst, hfree, _⟩ := VM.allocRange_some hn hfound
    have hinside := hfree.inside
    have hle := s.vm.searchLimit_le
    have := s.vm.guestSize.isLt
    have hsum : (chosen + n).toNat = chosen.toNat + n.toNat := by
      rw [BitVec.toNat_add]
      omega
    have hlength : chosen + n - chosen = n := by bv_omega
    have hroom : (chosen + n).toNat ≤ (s.setVM vm).mem.size.toNat := by
      rw [(setVM_slab s vm).size, ← s.sized]
      omega
    obtain ⟨s', hrun, _⟩ := placeMapping_run slack hfree.aligned (hfree.aligned.add hn) (by omega) hroom prot
    rw [hlength] at hrun
    dsimp only
    rw [hrun]
    exact iff_of_false (fun h => nomatch h) fun h => nomatch h

theorem Cursor.findsPlace_iff (h : Cursor memSize base s) (hbase : 8192 < memSize.toNat → 4096 ≤ base.toNat)
    (hn : Aligned n) (hne : n ≠ 0) :
    FindsPlace slack base n s ↔
      ((∃ a : BitVec 64, base.toNat ≤ a.toNat ∧ FreeRange s.vm a n) → ∃ a : BitVec 64, s.vm.mmapNext.toNat ≤ a.toNat ∧
        FreeRange s.vm a n) := by
  have hround := alignUp_of_aligned hn
  have hnone : (s.vm.allocRange n).1 = none ↔ ¬ ∃ a : BitVec 64, s.vm.mmapNext.toNat ≤ a.toNat ∧
      FreeRange s.vm a n := by
    rw [VM.allocRange_none_iff hn, alignUp_of_aligned h.aligned]
    refine not_congr
      ⟨fun ⟨a, hcursor, _, hfree⟩ => ⟨a, hcursor, hfree⟩, fun ⟨a, hcursor, hfree⟩ => ⟨a, hcursor, ?_, hfree⟩⟩
    have hinside := hfree.inside
    have hle := s.vm.searchLimit_le
    have hpos : n.toNat ≠ 0 := fun h => hne (BitVec.eq_of_toNat_eq h)
    have habove := h.above
    rw [h.size] at hle
    have := hbase (by omega)
    omega
  constructor
  · intro hfinds hplace
    by_contra hcursor
    have herror : (sysMmap slack 0 n 0 mapAnonymous s).1 = .error errENOMEM := by
      unfold sysMmap
      rw [if_neg (by rintro (hzero | hprot); exacts [hne hzero, hprot (by decide)]), if_neg (by decide),
        if_neg (by decide), hround]
      exact (mmapAnywhere_error_iff slack 0 hn).2 (hnone.2 hcursor)
    exact hfinds 0 0 mapAnonymous (by decide) herror hplace
  · intro hcursor addr prot flags hfixed herror hplace
    unfold sysMmap at herror
    by_cases hbad : n = 0 ∨ andNot prot protMask ≠ 0
    · rw [if_pos hbad] at herror
      exact absurd (Except.error.inj herror) (by decide)
    rw [if_neg hbad] at herror
    by_cases hfile : flags &&& mapAnonymous = 0
    · rw [if_pos hfile] at herror
      exact absurd (Except.error.inj herror) (by decide)
    rw [if_neg hfile, if_neg (not_not.2 hfixed), hround] at herror
    exact hnone.1 ((mmapAnywhere_error_iff slack prot hn).1 herror) (hcursor hplace)

/-- **Looking for an address.** After any calls of `mmap` and `munmap`, from any page map: `mmap` finds a free range
that lies at or above the initial base, whenever there is one, iff there is also one at or above the cursor. -/
theorem mmap_findsPlace_iff (slack : Nat → Nat) (s₀ : AddressSpace)
    (h₀ : s₀.vm.mmapNext = defaultMmapBase s₀.vm.guestSize)
    (calls : List MapCall) (n : BitVec 64) (hn : Aligned n) (hne : n ≠ 0) :
    FindsPlace slack (defaultMmapBase s₀.vm.guestSize) n (runCalls slack calls s₀) ↔
      ((∃ a : BitVec 64, (defaultMmapBase s₀.vm.guestSize).toNat ≤ a.toNat ∧
        FreeRange (runCalls slack calls s₀).vm a n) →
        ∃ a : BitVec 64, (runCalls slack calls s₀).vm.mmapNext.toNat ≤ a.toNat ∧
          FreeRange (runCalls slack calls s₀).vm a n) := by
  have hstart : Cursor s₀.vm.guestSize (defaultMmapBase s₀.vm.guestSize) s₀ :=
    ⟨rfl, by rw [h₀]; exact defaultMmapBase_aligned _, by rw [h₀]⟩
  exact (hstart.run calls).findsPlace_iff defaultMmapBase_first hn hne

/-- sixteen pages of which eight are mapped and unmapped again -/
def mapUnmap : AddressSpace :=
  runCalls (fun _ => 0) [.mmap 0 0x8000 protRead mapAnonymous, .munmap 0x4000 0x8000] (newSpace 16)

/-- the cursor has moved past these eight pages, and there is a place for two behind them … -/
theorem mapUnmap_findsPlace : mapUnmap.vm.mmapNext = 0xC000 ∧
    FindsPlace (fun _ => 0) (defaultMmapBase (newSpace 16).vm.guestSize) 0x2000 mapUnmap := by
  refine ⟨by decide +kernel, (mmap_findsPlace_iff (fun _ => 0) (newSpace 16) rfl
    [.mmap 0 0x8000 protRead mapAnonymous, .munmap 0x4000 0x8000] 0x2000 rfl (by decide)).2 fun _ =>
      ⟨0xC000, by decide +kernel, rfl, by decide +kernel, ?_⟩⟩
  exact (VM.rangeFree_iff (show Aligned 0xC000 from rfl) (show Aligned 0x2000 from rfl) (by decide)).1
    (by decide +kernel)

/-- … but none for eight, although none is in use -/
theorem mmap_runs_out : (sysMmap (fun _ => 0) 0 0x8000 protRead mapAnonymous mapUnmap).1 = .error errENOMEM ∧
    FreeRange mapUnmap.vm 0x4000 0x8000 ∧ (defaultMmapBase (newSpace 16).vm.guestSize).toNat ≤ 0x4000 := by
  refine ⟨by decide +kernel, ⟨rfl, by decide +kernel, ?_⟩, by decide +kernel⟩
  exact (VM.rangeFree_iff (show Aligned 0x4000 from rfl) (show Aligned 0x8000 from rfl) (by decide)).1
    (by decide +kernel)

end AddressSpace

end RiscvEmu.Linux
