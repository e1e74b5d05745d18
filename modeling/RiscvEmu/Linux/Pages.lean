/-
What the calls on the address space do to each address.
-/
import RiscvEmu.Linux.AddressSpace
import RiscvEmu.GuestMemoryFacts

namespace RiscvEmu.Linux

variable {v : BitVec 64} {patch : Patch}

open GuestMemory BitVec

/-! ## Pages as numbers -/

theorem toNat_alignDown (v : BitVec 64) : (alignDown v).toNat = v.toNat / 4096 * 4096 := by
  have hshift : alignDown v = (v >>> 12) <<< 12 := by
    apply eq_of_getLsbD_eq
    intro i hi
    show (v &&& ~~~ 4095#64).getLsbD i = _
    simp only [getLsbD_and, getLsbD_not, getLsbD_shiftLeft, getLsbD_ushiftRight]
    have hlow : (4095#64).getLsbD i = decide (i < 12) := by
      show (BitVec.ofNat 64 (2 ^ 12 - 1)).getLsbD i = _
      rw [getLsbD_ofNat, Nat.testBit_two_pow_sub_one]
      simp [hi]
    rw [hlow]
    by_cases h : i < 12
    · simp [h]
    · simp [h, hi, show 12 + (i - 12) = i by omega]
  rw [hshift, toNat_shiftLeft, toNat_ushiftRight, Nat.shiftRight_eq_div_pow, Nat.shiftLeft_eq]
  have := v.isLt
  rw [Nat.mod_eq_of_lt (by omega)]

theorem toNat_alignUp (h : v.toNat + 4095 < 2 ^ 64) : (alignUp v).toNat = (v.toNat + 4095) / 4096 * 4096 := by
  have hadd : (v + guestPageSize - 1).toNat = v.toNat + 4095 := by
    show (v + 4096#64 - 1#64).toNat = _
    bv_omega
  show (alignDown (v + guestPageSize - 1)).toNat = _
  rw [toNat_alignDown, hadd]

theorem alignUp_wraps (h : 2 ^ 64 ≤ v.toNat + 4095) : alignUp v = 0 := by
  have hadd : (v + guestPageSize - 1).toNat = v.toNat + 4095 - 2 ^ 64 := by
    show (v + 4096#64 - 1#64).toNat = _
    have := v.isLt
    bv_omega
  apply eq_of_toNat_eq
  show (alignDown (v + guestPageSize - 1)).toNat = _
  have := v.isLt
  rw [toNat_alignDown, hadd]
  show _ = 0
  omega

def pageOf (p : BitVec 64) : BitVec 64 := p / guestPageSize

theorem toNat_page (p : BitVec 64) : (p / guestPageSize).toNat = p.toNat / 4096 := by
  rw [toNat_udiv]
  rfl

theorem toNat_mod_page (p : BitVec 64) : (p % guestPageSize).toNat = p.toNat % 4096 := by
  rw [toNat_umod]
  rfl

def Aligned (v : BitVec 64) : Prop := v.toNat % 4096 = 0

theorem aligned_iff (v : BitVec 64) : v % guestPageSize = 0 ↔ Aligned v := by
  rw [Aligned, ← toNat_mod_page]
  constructor
  · intro h
    rw [h]
    rfl
  · intro h
    exact eq_of_toNat_eq h

theorem alignDown_aligned (v : BitVec 64) : Aligned (alignDown v) := by
  rw [Aligned, toNat_alignDown]
  omega

theorem alignUp_aligned (v : BitVec 64) : Aligned (alignUp v) := alignDown_aligned _

theorem alignDown_of_aligned (h : Aligned v) : alignDown v = v := by
  unfold Aligned at h
  apply eq_of_toNat_eq
  rw [toNat_alignDown]
  omega

theorem alignUp_of_aligned (h : Aligned v) : alignUp v = v := by
  unfold Aligned at h
  have := v.isLt
  apply eq_of_toNat_eq
  rw [toNat_alignUp (by omega)]
  omega

theorem covers_iff {b e : BitVec 64} (hb : Aligned b) (he : Aligned e) (hle : b.toNat ≤ e.toNat) (page : BitVec 64) :
    VM.covers b (e - b) page ↔ b.toNat / 4096 ≤ page.toNat ∧ page.toNat < e.toNat / 4096 := by
  have hend : b + (e - b) = e := by bv_omega
  unfold VM.covers
  rw [hend, alignDown_of_aligned hb, alignUp_of_aligned he, le_def, lt_def, toNat_page, toNat_page]

theorem covers_pageOf {b e : BitVec 64} (hb : Aligned b) (he : Aligned e) (hle : b.toNat ≤ e.toNat) (p : BitVec 64) :
    VM.covers b (e - b) (pageOf p) ↔ b.toNat ≤ p.toNat ∧ p.toNat < e.toNat := by
  rw [covers_iff hb he hle, pageOf, toNat_page]
  unfold Aligned at hb he
  omega

/-! ## Addresses -/

def Between (b e p : BitVec 64) : Prop := b.toNat ≤ p.toNat ∧ p.toNat < e.toNat

instance (b e p : BitVec 64) : Decidable (Between b e p) := inferInstanceAs (Decidable (_ ∧ _))

theorem updateRange_pages (vm : VM) {b e : BitVec 64} (hb : Aligned b) (he : Aligned e) (hle : b.toNat ≤ e.toNat)
    (state : BitVec 64 → BitVec 64) (p : BitVec 64) : (vm.updateRange b (e - b) state).pages (pageOf p) =
      if Between b e p then some (state (pageOf p)) else vm.pages (pageOf p) := by
  unfold VM.updateRange
  by_cases hempty : e - b = 0
  · have hout : ¬ Between b e p := by
      unfold Between
      bv_omega
    rw [if_pos hempty, if_neg hout]
  · rw [if_neg hempty]
    exact if_congr (covers_pageOf hb he hle p) rfl rfl

/-- what an address holds: the state of its page, and a byte -/
structure Cell where
  state : Option (BitVec 64)
  byte : BitVec 8

/-- what a call does to the pages of a range -/
inductive Patch where
  | fresh (prot : BitVec 64)
  | defer
  | unmap
  | protect (prot : BitVec 64)

def mappedState (prot : BitVec 64) : BitVec 64 := pageMapped ||| (prot &&& protMask)

namespace Cell

/-- the page has to be zeroed before it is used -/
def Waits (c : Cell) : Prop := c.state.getD 0 &&& pageNeedsZero ≠ 0

instance (c : Cell) : Decidable c.Waits := inferInstanceAs (Decidable (_ ≠ _))

end Cell

def Patch.apply : Patch → Cell → Cell
  | .fresh prot, _ => { state := some (mappedState prot), byte := 0 }
  | .defer, c => { state := some (mappedState 0 ||| pageNeedsZero), byte := c.byte }
  | .unmap, c => { state := some 0, byte := c.byte }
  | .protect prot, c =>
    { state := some (mappedState prot ||| (if prot ≠ 0 then 0 else c.state.getD 0 &&& pageNeedsZero))
      byte := if prot ≠ 0 ∧ c.Waits then 0 else c.byte }

namespace AddressSpace

variable {s s' s'' : AddressSpace} {b e : BitVec 64}

def cell (s : AddressSpace) (p : BitVec 64) : Cell := { state := s.vm.pages (pageOf p), byte := s.mem.bytes p }

structure SameSlab (s s' : AddressSpace) : Prop where
  logSize : s'.mem.logSize = s.mem.logSize
  model : s'.mem.model = s.mem.model
  bounds : s'.mem.checkSandboxBounds = s.mem.checkSandboxBounds

/-- the addresses of a range are patched, and nothing else changes there -/
structure Patched (s s' : AddressSpace) (b e : BitVec 64) (patch : Patch) : Prop where
  slab : SameSlab s s'
  cells : ∀ p, s'.cell p = if Between b e p then patch.apply (s.cell p) else s.cell p

theorem SameSlab.trans (h : SameSlab s s') (h' : SameSlab s' s'') : SameSlab s s'' :=
  ⟨h'.logSize.trans h.logSize, h'.model.trans h.model, h'.bounds.trans h.bounds⟩

theorem SameSlab.size (h : SameSlab s s') : s'.mem.size = s.mem.size := by
  rw [GuestMemory.size, h.logSize, GuestMemory.size]

@[simp] theorem setVM_mem_bytes (s : AddressSpace) (vm : VM) : (s.setVM vm).mem.bytes = s.mem.bytes := rfl

@[simp] theorem setVM_pages (s : AddressSpace) (vm : VM) : (s.setVM vm).vm.pages = vm.pages := rfl

theorem setVM_slab (s : AddressSpace) (vm : VM) : SameSlab s (s.setVM vm) := ⟨rfl, rfl, rfl⟩

theorem setBytes_slab (s : AddressSpace) (bytes : Bytes) : SameSlab s (s.setBytes bytes) := ⟨rfl, rfl, rfl⟩

theorem zero_of_le (s : AddressSpace) (hle : b.toNat ≤ e.toNat) (hend : e.toNat ≤ s.mem.size.toNat) :
    onMem (zero b (e - b)) s = (.ok (), s.setBytes fun p => if Between b e p then 0 else s.mem.bytes p) := by
  have hrange : s.mem.guestRange b (e - b) = true := by
    have hsum : b + (e - b) = e := by bv_omega
    simp only [guestRange, hsum, decide_eq_true_eq, le_def]
    exact .inr ⟨hle, hend⟩
  have hzero : zero b (e - b) s.mem =
      (.ok (), { s.mem with bytes := fun p => if p - s.mem.hostPtr b < e - b then 0 else s.mem.bytes p }) := by
    unfold zero
    rw [hrange]
    rfl
  have hbytes : (fun p => if p - s.mem.hostPtr b < e - b then 0 else s.mem.bytes p) =
      fun p => if Between b e p then 0 else s.mem.bytes p := by
    funext p
    by_cases hlt : b.toNat < e.toNat
    · rw [s.mem.hostPtr_of_lt (by omega)]
      have hiff : p - b < e - b ↔ Between b e p := by
        unfold Between
        rw [lt_def]
        bv_omega
      simp only [hiff]
    · have hempty : e - b = 0 := by bv_omega
      have hout : ¬ Between b e p := fun h => hlt (Nat.lt_of_le_of_lt h.1 h.2)
      rw [hempty, if_neg hout, if_neg (by rw [lt_def]; exact Nat.not_lt_zero _)]
  unfold onMem
  rw [hzero, hbytes]

/-- the break and its lower bound are as before -/
def SameBreak (s s' : AddressSpace) : Prop := s'.brk = s.brk ∧ s'.minBrk = s.minBrk

variable {slack : Nat → Nat}

theorem removeExecRegion_run (slack : Nat → Nat) (b e : BitVec 64) (s : AddressSpace) :
    ∃ t, removeExecRegion slack b e s = (.ok (), { s with execRegions := t }) := ⟨_, rfl⟩

theorem updateExecMetadata_run (slack : Nat → Nat) (addr length prot : BitVec 64) (s : AddressSpace) :
    ∃ t, updateExecMetadata slack addr length prot s = (.ok (), { s with execRegions := t }) := by
  unfold updateExecMetadata
  split
  · exact ⟨_, rfl⟩
  · exact removeExecRegion_run slack _ _ s

theorem patched_of_pages {vm : VM} {state : BitVec 64 → BitVec 64} (s : AddressSpace) (hb : Aligned b) (he : Aligned e)
    (hle : b.toNat ≤ e.toNat) (hpages : vm.pages = (s.vm.updateRange b (e - b) state).pages)
    (hpatch : ∀ p, Between b e p →
      patch.apply (s.cell p) = { state := some (state (pageOf p)), byte := s.mem.bytes p }) :
    Patched s (s.setVM vm) b e patch := by
  refine ⟨setVM_slab s vm, fun p => ?_⟩
  unfold cell
  rw [setVM_pages, hpages, updateRange_pages s.vm hb he hle, setVM_mem_bytes]
  by_cases hp : Between b e p
  · rw [if_pos hp, if_pos hp]
    exact (hpatch p hp).symm
  · rw [if_neg hp, if_neg hp]

theorem patched_fresh (s : AddressSpace) (hb : Aligned b) (he : Aligned e) (hle : b.toNat ≤ e.toNat)
    (prot : BitVec 64) :
    Patched s ((s.setBytes fun p => if Between b e p then 0 else s.mem.bytes p).setVM
      (s.vm.mapRangeState b (e - b) prot 0)) b e
      (.fresh prot) := by
  refine ⟨(setBytes_slab s _).trans (setVM_slab _ _), fun p => ?_⟩
  have hor : pageMapped ||| (prot &&& protMask) ||| 0 = mappedState prot := or_zero
  unfold cell VM.mapRangeState
  rw [setVM_pages, updateRange_pages s.vm hb he hle, setVM_mem_bytes, hor]
  by_cases hp : Between b e p
  · rw [if_pos hp, if_pos hp]
    exact congrArg (Cell.mk _) (if_pos hp)
  · rw [if_neg hp, if_neg hp]
    exact congrArg (Cell.mk _) (if_neg hp)

theorem Patched.exec (h : Patched s s' b e patch) (t : ExecTable) : Patched s { s' with execRegions := t } b e patch :=
  ⟨⟨h.slab.logSize, h.slab.model, h.slab.bounds⟩, h.cells⟩

theorem enterMapping_run (slack : Nat → Nat) (chosen length prot extra : BitVec 64) (s : AddressSpace) :
    ∃ t, enterMapping slack chosen length prot extra s =
      (.ok chosen, { s.setVM (s.vm.mapRangeState chosen length prot extra) with execRegions := t }) := by
  obtain ⟨t, ht⟩ :=
    updateExecMetadata_run slack chosen length prot (s.setVM (s.vm.mapRangeState chosen length prot extra))
  refine ⟨t, ?_⟩
  unfold enterMapping
  rw [Exec.modify_bind_run, Exec.bind_of_ok ht]
  rfl

theorem placeMapping_run (slack : Nat → Nat) (hb : Aligned b) (he : Aligned e) (hle : b.toNat ≤ e.toNat)
    (hend : e.toNat ≤ s.mem.size.toNat) (prot : BitVec 64) : ∃ s', placeMapping slack b (e - b) prot s = (.ok b, s') ∧
      Patched s s' b e (if prot = 0 then .defer else .fresh prot) ∧ SameBreak s s' := by
  unfold placeMapping
  by_cases hprot : prot = 0
  · subst hprot
    rw [if_pos rfl, if_pos rfl]
    obtain ⟨t, ht⟩ := enterMapping_run slack b (e - b) 0 pageNeedsZero s
    exact ⟨_, ht, (patched_of_pages s hb he hle rfl fun p _ => rfl).exec t, rfl, rfl⟩
  · rw [if_neg hprot, if_neg hprot, zero_of_le s hle hend]
    dsimp only
    obtain ⟨t, ht⟩ :=
      enterMapping_run slack b (e - b) prot 0 (s.setBytes fun p => if Between b e p then 0 else s.mem.bytes p)
    exact ⟨_, ht, (patched_fresh s hb he hle prot).exec t, rfl, rfl⟩

end AddressSpace

end RiscvEmu.Linux
