/-
The search for a free range (`allocRange` in `jea9linux.go`), and when an access passes the pages.

`allocRange` walks up from a cursor (`mmapNext`) page by page until every page of the range is free and it ends two
pages below the end of memory. It finds a range whenever there is one at or above the cursor (`allocRange_none_iff`).
-/
import RiscvEmu.Linux.Pages

namespace RiscvEmu.Linux

variable {vm : VM} {a n limit from' : BitVec 64} {fuel : Nat}

/-! ## Free ranges -/

theorem toNat_guestPageSize : guestPageSize.toNat = 4096 := rfl

/-- the end of what `allocRange` gives out; nothing lies below it in a memory of two pages or less -/
def VM.searchLimit (vm : VM) : Nat := (vm.guestSize.toNat - 8192) / 4096 * 4096

/-- the page of an address is not marked as mapped -/
def VM.FreeAt (vm : VM) (p : BitVec 64) : Prop := ∀ state, vm.pages (pageOf p) = some state → state &&& pageMapped = 0

/-- a place for `n` bytes: a page boundary below the limit, and every page of the range is free -/
structure FreeRange (vm : VM) (a n : BitVec 64) : Prop where
  aligned : Aligned a
  inside : a.toNat + n.toNat ≤ vm.searchLimit
  free : ∀ p : BitVec 64, a.toNat ≤ p.toNat → p.toNat < a.toNat + n.toNat → vm.FreeAt p

theorem VM.searchLimit_le (vm : VM) : vm.searchLimit ≤ vm.guestSize.toNat - 8192 := by
  unfold VM.searchLimit
  omega

theorem VM.toNat_limit (h : ¬ vm.guestSize ≤ 2 * guestPageSize) :
    (alignDown (vm.guestSize - 2 * guestPageSize)).toNat = vm.searchLimit := by
  have hdouble : (2 * guestPageSize).toNat = 8192 := rfl
  rw [BitVec.le_def, hdouble] at h
  rw [toNat_alignDown, VM.searchLimit, BitVec.toNat_sub, hdouble]
  have := vm.guestSize.isLt
  omega

theorem Aligned.add (ha : Aligned a) (hn : Aligned n) : Aligned (a + n) := by
  unfold Aligned at *
  rw [BitVec.toNat_add]
  omega

theorem VM.rangeFree_iff (ha : Aligned a) (hn : Aligned n) (hwrap : a.toNat + n.toNat < 2 ^ 64) :
    vm.rangeFree a n = true ↔ ∀ p : BitVec 64, a.toNat ≤ p.toNat → p.toNat < a.toNat + n.toNat → vm.FreeAt p := by
  have hsum : (a + n).toNat = a.toNat + n.toNat := by
    rw [BitVec.toNat_add]
    omega
  have hend := ha.add hn
  unfold VM.rangeFree
  dsimp only
  rw [alignDown_of_aligned ha, alignUp_of_aligned hend, List.all_eq_true, toNat_page, toNat_page, hsum]
  unfold Aligned at ha hn
  constructor
  · intro h p hle hlt state hstate
    have hpage := h (p.toNat / 4096 - a.toNat / 4096) (List.mem_range.2 (by omega))
    have hpage' : a / guestPageSize + BitVec.ofNat 64 (p.toNat / 4096 - a.toNat / 4096) = pageOf p := by
      apply BitVec.eq_of_toNat_eq
      rw [pageOf, BitVec.toNat_add, toNat_page, toNat_page, BitVec.toNat_ofNat]
      omega
    rw [hpage', hstate] at hpage
    exact of_decide_eq_true hpage
  · intro h i hi
    have hlt := List.mem_range.1 hi
    -- the first address of the page
    have hfirst : pageOf (a + BitVec.ofNat 64 (i * 4096)) = a / guestPageSize + BitVec.ofNat 64 i := by
      apply BitVec.eq_of_toNat_eq
      rw [pageOf, toNat_page, BitVec.toNat_add, BitVec.toNat_add, toNat_page, BitVec.toNat_ofNat, BitVec.toNat_ofNat]
      omega
    have hfree := h (a + BitVec.ofNat 64 (i * 4096))
      (by rw [BitVec.toNat_add, BitVec.toNat_ofNat]; omega) (by rw [BitVec.toNat_add, BitVec.toNat_ofNat]; omega)
    unfold VM.FreeAt at hfree
    rw [hfirst] at hfree
    cases hstate : vm.pages (a / guestPageSize + BitVec.ofNat 64 i) with
    | none => rfl
    | some state => exact decide_eq_true (hfree state hstate)

/-! ## The search -/

/-- the loop gives up only if no place from its start on is free; `fuel` reaches past the limit -/
theorem VM.allocLoop_none_iff (vm : VM) (n : BitVec 64) (hlimit : limit.toNat + 4096 < 2 ^ 64)
    (hfrom : Aligned from') (hfuel : limit.toNat < from'.toNat + fuel * 4096) :
    vm.allocLoop n limit fuel from' = none ↔ ∀ a : BitVec 64, Aligned a → from'.toNat ≤ a.toNat → 4096 ≤ a.toNat →
      a.toNat + n.toNat ≤ limit.toNat → vm.rangeFree a n = false := by
  induction fuel generalizing from' with
  | zero =>
    refine ⟨fun _ a _ hle _ hend => ?_, fun _ => rfl⟩
    omega
  | succ fuel ih =>
    unfold VM.allocLoop
    by_cases hout : from' + n < from' ∨ from' + n > limit
    · rw [if_pos hout]
      refine ⟨fun _ a _ hle _ hend => ?_, fun _ => rfl⟩
      rw [BitVec.lt_def, gt_iff_lt, BitVec.lt_def, BitVec.toNat_add] at hout
      have := a.isLt
      omega
    rw [if_neg hout]
    have hroom : from'.toNat + n.toNat ≤ limit.toNat := by
      rw [BitVec.lt_def, gt_iff_lt, BitVec.lt_def, BitVec.toNat_add] at hout
      have := from'.isLt
      have := n.isLt
      omega
    by_cases hfree : from' ≥ guestPageSize ∧ vm.rangeFree from' n = true
    · rw [if_pos hfree]
      refine iff_of_false (fun h => nomatch h) fun h => ?_
      have hfirst : 4096 ≤ from'.toNat := hfree.1
      rw [h from' hfrom (Nat.le_refl _) hfirst hroom] at hfree
      exact absurd hfree.2 (by decide)
    rw [if_neg hfree]
    have hnext : (from' + guestPageSize).toNat = from'.toNat + 4096 := by
      rw [BitVec.toNat_add, toNat_guestPageSize]
      omega
    have haligned : Aligned (from' + guestPageSize) := hfrom.add rfl
    rw [ih haligned (by omega), hnext]
    constructor
    · intro h a ha hle hfirst hend
      by_cases hsame : a = from'
      · subst hsame
        have hge : a ≥ guestPageSize := hfirst
        exact Bool.eq_false_iff.2 fun htrue => hfree ⟨hge, htrue⟩
      · have hne : a.toNat ≠ from'.toNat := fun h => hsame (BitVec.eq_of_toNat_eq h)
        unfold Aligned at ha hfrom
        exact h a ha (by omega) hfirst hend
    · intro h a ha hle
      exact h a ha (by omega)

theorem VM.allocRange_eq (hsmall : ¬ vm.guestSize ≤ 2 * guestPageSize) (n : BitVec 64) :
    ∃ found, vm.allocLoop n (alignDown (vm.guestSize - 2 * guestPageSize)) ((vm.guestSize / guestPageSize).toNat + 1)
      (alignUp vm.mmapNext) = found ∧
        vm.allocRange n = (found, { vm with mmapNext := (found.map (· + n)).getD vm.mmapNext }) := by
  refine ⟨_, rfl, ?_⟩
  unfold VM.allocRange
  rw [if_neg hsmall]
  dsimp only
  cases vm.allocLoop n (alignDown (vm.guestSize - 2 * guestPageSize)) ((vm.guestSize / guestPageSize).toNat + 1)
    (alignUp vm.mmapNext) <;> rfl

theorem VM.allocRange_small (hsmall : vm.guestSize ≤ 2 * guestPageSize) (n : BitVec 64) :
    vm.allocRange n = (none, vm) := by
  unfold VM.allocRange
  rw [if_pos hsmall]

/-- **The search is complete from its cursor on.** It gives up exactly if no range at or above the cursor is free. -/
theorem VM.allocRange_none_iff (hn : Aligned n) :
    (vm.allocRange n).1 = none ↔
      ¬ ∃ a : BitVec 64, (alignUp vm.mmapNext).toNat ≤ a.toNat ∧ 4096 ≤ a.toNat ∧ FreeRange vm a n := by
  have hle := vm.searchLimit_le
  have hsize := vm.guestSize.isLt
  by_cases hsmall : vm.guestSize ≤ 2 * guestPageSize
  · rw [VM.allocRange_small hsmall]
    refine ⟨fun _ ⟨a, _, _, h⟩ => ?_, fun _ => rfl⟩
    have := h.inside
    have : vm.guestSize.toNat ≤ 8192 := hsmall
    omega
  obtain ⟨found, hfound, hrange⟩ := VM.allocRange_eq hsmall n
  have hbound := VM.toNat_limit hsmall
  have hsmall' : ¬ vm.guestSize.toNat ≤ 8192 := hsmall
  have hlimit : (alignDown (vm.guestSize - 2 * guestPageSize)).toNat + 4096 < 2 ^ 64 := by omega
  have hfuel : (alignDown (vm.guestSize - 2 * guestPageSize)).toNat <
      (alignUp vm.mmapNext).toNat + ((vm.guestSize / guestPageSize).toNat + 1) * 4096 := by
    rw [toNat_page]
    omega
  have hloop := VM.allocLoop_none_iff vm n hlimit (alignUp_aligned vm.mmapNext) hfuel
  rw [hbound, hfound] at hloop
  rw [hrange, hloop]
  constructor
  · rintro h ⟨a, hcursor, hfirst, hfree⟩
    have hinside := hfree.inside
    have htrue := (VM.rangeFree_iff hfree.aligned hn (by omega)).2 hfree.free
    rw [h a hfree.aligned hcursor hfirst hfree.inside] at htrue
    exact absurd htrue (by decide)
  · intro h a ha hcursor hfirst hinside
    refine Bool.eq_false_iff.2 fun htrue => h ⟨a, hcursor, hfirst, ha, hinside, ?_⟩
    exact (VM.rangeFree_iff ha hn (by omega)).1 htrue

/-- where the loop stops: a page boundary from its start on, inside the limit, with room behind it -/
theorem VM.allocLoop_some (hlimit : limit.toNat + 4096 < 2 ^ 64)
    (hfrom : Aligned from') (h : vm.allocLoop n limit fuel from' = some a) :
    Aligned a ∧ from'.toNat ≤ a.toNat ∧ a.toNat + n.toNat ≤ limit.toNat ∧ 4096 ≤ a.toNat ∧ vm.rangeFree a n = true := by
  induction fuel generalizing from' with
  | zero => cases h
  | succ fuel ih =>
    unfold VM.allocLoop at h
    by_cases hout : from' + n < from' ∨ from' + n > limit
    · rw [if_pos hout] at h
      cases h
    rw [if_neg hout] at h
    rw [BitVec.lt_def, gt_iff_lt, BitVec.lt_def, BitVec.toNat_add] at hout
    have := from'.isLt
    have := n.isLt
    by_cases hfree : from' ≥ guestPageSize ∧ vm.rangeFree from' n = true
    · rw [if_pos hfree] at h
      cases h
      exact ⟨hfrom, Nat.le_refl _, by omega, hfree.1, hfree.2⟩
    · rw [if_neg hfree] at h
      have hnext : Aligned (from' + guestPageSize) := hfrom.add rfl
      obtain ⟨haligned, hge, hrest⟩ := ih hnext h
      rw [BitVec.toNat_add, toNat_guestPageSize] at hge
      exact ⟨haligned, by omega, hrest⟩

theorem VM.allocRange_some {vm' : VM} (hn : Aligned n) (h : vm.allocRange n = (some a, vm')) :
    (alignUp vm.mmapNext).toNat ≤ a.toNat ∧ 4096 ≤ a.toNat ∧ FreeRange vm a n ∧
      vm' = { vm with mmapNext := a + n } := by
  have hle := vm.searchLimit_le
  have hsize := vm.guestSize.isLt
  by_cases hsmall : vm.guestSize ≤ 2 * guestPageSize
  · rw [VM.allocRange_small hsmall] at h
    cases h
  obtain ⟨found, hfound, hrange⟩ := VM.allocRange_eq hsmall n
  rw [h] at hrange
  obtain ⟨rfl, rfl⟩ := Prod.mk.inj hrange
  have hsmall' : ¬ vm.guestSize.toNat ≤ 8192 := hsmall
  have hbound := VM.toNat_limit hsmall
  obtain ⟨haligned, hge, hinside, hfirst, hfree⟩ := VM.allocLoop_some (by omega) (alignUp_aligned _) hfound
  rw [hbound] at hinside
  exact ⟨hge, hfirst, ⟨haligned, hinside, (VM.rangeFree_iff haligned hn (by omega)).1 hfree⟩, rfl⟩

/-! ## Accesses -/

theorem VM.checkGuestAccess_none_iff {p w : BitVec 64} {kind : FaultKind} (hpos : 0 < w.toNat)
    (hend : p.toNat + w.toNat ≤ vm.guestSize.toNat) :
    vm.checkGuestAccess p w kind = none ↔ ∀ page : BitVec 64, p.toNat / 4096 ≤ page.toNat →
      page.toNat * 4096 < p.toNat + w.toNat →
      protAllows (vm.protOf page) kind = true := by
  have hsize := vm.guestSize.isLt
  have hw : w ≠ 0 := fun h => by rw [h] at hpos; exact absurd hpos (by decide)
  have hsum : (p + w).toNat = p.toNat + w.toNat := by
    rw [BitVec.toNat_add]
    omega
  have hlast : (p + w - 1).toNat = p.toNat + w.toNat - 1 := by
    have : (1 : BitVec 64).toNat = 1 := rfl
    rw [BitVec.toNat_sub, hsum]
    omega
  unfold VM.checkGuestAccess
  rw [if_neg hw, if_neg (by rw [BitVec.lt_def, gt_iff_lt, BitVec.lt_def, hsum]; omega), ite_eq_left_iff]
  simp only [reduceCtorEq, imp_false, not_not, List.all_eq_true, VM.pageRange, List.mem_map, List.mem_range]
  rw [toNat_page, toNat_page, hlast]
  constructor
  · intro h page hlow hhigh
    refine h page ⟨page.toNat - p.toNat / 4096, by omega, ?_⟩
    apply BitVec.eq_of_toNat_eq
    rw [BitVec.toNat_add, toNat_page, BitVec.toNat_ofNat]
    have := page.isLt
    omega
  · rintro h _ ⟨i, hi, rfl⟩
    have hnum : (p / guestPageSize + BitVec.ofNat 64 i).toNat = p.toNat / 4096 + i := by
      rw [BitVec.toNat_add, toNat_page, BitVec.toNat_ofNat]
      omega
    exact h _ (by omega) (by omega)

end RiscvEmu.Linux
