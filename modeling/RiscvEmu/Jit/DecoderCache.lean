/-
The decoder cache of a lazily compiled segment (`allocLazyDecoderCache`, `decoderCacheSlot` in `jit.go`).

The cache has an entry of 8 bytes for the even addresses of the segment. Its size is rounded up to a power of two,
with which the offset of an entry is masked. The entries are counted by halving the length, so that a segment of odd
length has one too few: if the count is a power of two, the last address gets the entry of the first
(`slots_apart_iff`).
-/
import Mathlib.Algebra.Order.Ring.Nat

namespace RiscvEmu.Jit

open BitVec

/-- the loop of `allocLazyDecoderCache`; 64 rounds suffice for a size of at most 2^63 (`growCache_spec`), and beyond it
the doubled size becomes 0 and the loop of the source goes on for ever -/
def growCache (minSize : BitVec 64) : Nat → BitVec 64 → Option (BitVec 64)
  | 0, _ => none
  | fuel + 1, cacheSize => if cacheSize < minSize then growCache minSize fuel (cacheSize * 2) else some cacheSize

/-- the size of the cache and its mask; the mapping itself may fail too, and then there is no cache -/
def allocLazyDecoderCache (vaddrBegin vaddrEnd : BitVec 64) : Option (BitVec 64 × BitVec 64) :=
  if vaddrBegin ≥ vaddrEnd then none
  else
    (growCache ((vaddrEnd - vaddrBegin) / 2 * 8) 64 1).map fun cacheSize =>
      let cacheSize := if cacheSize < 8 then 8 else cacheSize
      (cacheSize, cacheSize - 1)

/-- `cacheLen` is the length of `decoderCacheMmap` -/
structure DecodedExecuteSegment where
  vaddrBegin : BitVec 64
  vaddrEnd : BitVec 64
  cacheLen : BitVec 64
  decoderCacheMask : BitVec 64

def lazySegment (vaddrBegin vaddrEnd : BitVec 64) : Option DecodedExecuteSegment :=
  (allocLazyDecoderCache vaddrBegin vaddrEnd).map fun r => ⟨vaddrBegin, vaddrEnd, r.1, r.2⟩

/-- the offset of the entry in the cache -/
def decoderCacheSlot (seg : DecodedExecuteSegment) (pc : BitVec 64) : Option (BitVec 64) :=
  if seg.cacheLen < 8 then none
  else if pc < seg.vaddrBegin ∨ pc ≥ seg.vaddrEnd then none
  else
    let byteOff := ((pc - seg.vaddrBegin) <<< 2) &&& seg.decoderCacheMask
    if byteOff + 8 > seg.cacheLen then none else some byteOff

/-- every even address has an entry inside the cache, and the entries of two of them do not overlap -/
def SlotsApart (seg : DecodedExecuteSegment) : Prop :=
  ∀ pc, pc.toNat % 2 = 0 → seg.vaddrBegin ≤ pc → pc < seg.vaddrEnd →
    ∃ off, decoderCacheSlot seg pc = some off ∧ off.toNat + 8 ≤ seg.cacheLen.toNat ∧
      ∀ pc' off', pc'.toNat % 2 = 0 → pc' ≠ pc → decoderCacheSlot seg pc' = some off' →
        off.toNat + 8 ≤ off'.toNat ∨ off'.toNat + 8 ≤ off.toNat

/-! ## The size -/

/-- the loop ends with the first power of two that is large enough -/
theorem growCache_spec {minSize : BitVec 64} (hmin : minSize.toNat ≤ 2 ^ 63) {fuel i : Nat} (hi : i ≤ 63)
    (hfuel : 64 ≤ fuel + i) :
    ∃ j ≤ 63, growCache minSize fuel (twoPow 64 i) = some (twoPow 64 j) ∧ minSize.toNat ≤ 2 ^ j ∧
      (j = i ∨ 2 ^ j < 2 * minSize.toNat) := by
  induction fuel generalizing i with
  | zero => omega
  | succ fuel ih =>
    have hnat := toNat_twoPow_of_lt (show i < 64 by omega)
    rw [growCache]
    by_cases hlt : twoPow 64 i < minSize
    · rw [if_pos hlt]
      rw [lt_def, hnat] at hlt
      have hi' : i + 1 ≤ 63 := by
        by_contra hge
        have : 2 ^ 63 ≤ 2 ^ i := Nat.pow_le_pow_right (by decide) (by omega)
        omega
      have hdouble : twoPow 64 i * 2 = twoPow 64 (i + 1) := by
        have hfits : 2 ^ (i + 1) < 2 ^ 64 := Nat.pow_lt_pow_right (by decide) (by omega)
        refine eq_of_toNat_eq ?_
        rw [toNat_mul, hnat, toNat_twoPow_of_lt (show i + 1 < 64 by omega)]
        exact Nat.mod_eq_of_lt hfits
      rw [hdouble]
      obtain ⟨j, hj, hrun, hlarge, hleast⟩ := ih hi' (by omega)
      refine ⟨j, hj, hrun, hlarge, .inr ?_⟩
      obtain rfl | hleast := hleast
      · rw [Nat.pow_succ]
        omega
      · exact hleast
    · rw [if_neg hlt]
      rw [lt_def, hnat] at hlt
      exact ⟨i, hi, rfl, Nat.le_of_not_lt hlt, .inl rfl⟩

section Segment

variable {b e : BitVec 64}

/-- the cache is the least power of two that has room for the entries counted, and for one -/
theorem allocLazyDecoderCache_spec (hlt : b < e) (hlen : (e - b).toNat < 2 ^ 60) :
    ∃ j, 3 ≤ j ∧ j ≤ 63 ∧ allocLazyDecoderCache b e = some (twoPow 64 j, twoPow 64 j - 1) ∧
      (e - b).toNat / 2 * 8 ≤ 2 ^ j ∧ (j = 3 ∨ 2 ^ j < 2 * ((e - b).toNat / 2 * 8)) := by
  have hmin : ((e - b) / 2 * 8).toNat = (e - b).toNat / 2 * 8 := by
    rw [toNat_mul, toNat_udiv]
    refine Nat.mod_eq_of_lt ?_
    show (e - b).toNat / 2 * 8 < 2 ^ 64
    omega
  obtain ⟨j, hj, hrun, hlarge, hleast⟩ := @growCache_spec ((e - b) / 2 * 8) (by omega) 64 0 (by decide) (by decide)
  rw [hmin] at hlarge hleast
  have halloc : allocLazyDecoderCache b e = _ :=
    (if_neg (by rw [ge_iff_le, BitVec.not_le]; exact hlt)).trans (congrArg _ hrun)
  have hnat := toNat_twoPow_of_lt (show j < 64 by omega)
  by_cases hsmall : j < 3
  · have height : twoPow 64 j < 8 := by
      rw [lt_def, hnat]
      exact Nat.pow_lt_pow_right (show 1 < 2 by decide) hsmall
    refine ⟨3, by decide, by decide, ?_, ?_, .inl rfl⟩
    · rw [halloc, Option.map_some]
      dsimp only
      rw [if_pos height]
      rfl
    · have : 2 ^ j ≤ 2 ^ 3 := Nat.pow_le_pow_right (by decide) (by omega)
      omega
  · have height : ¬ twoPow 64 j < 8 := by
      rw [lt_def, hnat]
      exact Nat.not_lt.2 (Nat.pow_le_pow_right (show 1 ≤ 2 by decide) (by omega : 3 ≤ j))
    refine ⟨j, by omega, hj, ?_, hlarge, .inr (hleast.resolve_left (by omega))⟩
    rw [halloc, Option.map_some]
    dsimp only
    rw [if_neg height]

/-! ## The slots -/

variable {j : Nat}

/-- the segment with a cache of `2 ^ j` bytes -/
def segmentOf (b e : BitVec 64) (j : Nat) : DecodedExecuteSegment :=
  ⟨b, e, twoPow 64 j, twoPow 64 j - 1⟩

theorem decoderCacheSlot_eq (h3 : 3 ≤ j) (hj : j ≤ 63) (hlen : (e - b).toNat < 2 ^ 60) (pc : BitVec 64) (n : Nat)
    (hpc : pc.toNat = b.toNat + 2 * n) (hto : pc < e) :
    ∃ off, decoderCacheSlot (segmentOf b e j) pc = some off ∧ off.toNat = 8 * n % 2 ^ j ∧ off.toNat + 8 ≤ 2 ^ j := by
  have hnat := toNat_twoPow_of_lt (show j < 64 by omega)
  have hpow : 2 ^ j = 8 * 2 ^ (j - 3) := by rw [← Nat.pow_add 2 3 (j - 3), Nat.add_sub_cancel' h3]
  have hsize : 2 ^ j ≤ 2 ^ 63 := Nat.pow_le_pow_right (by decide) hj
  have hpos : 0 < 2 ^ (j - 3) := Nat.two_pow_pos _
  rw [lt_def] at hto
  have hspan : (e - b).toNat = e.toNat - b.toNat := toNat_sub_of_le (by rw [le_def]; omega)
  have hoff : (((pc - b) <<< 2) &&& (twoPow 64 j - 1)).toNat = 8 * n % 2 ^ j := by
    have hdist : (pc - b).toNat = 2 * n := by
      rw [toNat_sub_of_le (by rw [le_def]; omega)]
      omega
    have hmask : (twoPow 64 j - 1).toNat = 2 ^ j - 1 := by
      rw [toNat_sub_of_le (by rw [le_def, hnat]; exact Nat.one_le_two_pow), hnat]
      rfl
    rw [toNat_and, hmask, Nat.and_two_pow_sub_one_eq_mod, toNat_shiftLeft, hdist, Nat.shiftLeft_eq,
      show 2 * n * 2 ^ 2 = 8 * n by omega, Nat.mod_eq_of_lt (show 8 * n < 2 ^ 64 by omega)]
  have hroom : 8 * n % 2 ^ j + 8 ≤ 2 ^ j := by
    have hlt := Nat.mod_lt n hpos
    rw [hpow, Nat.mul_mod_mul_left]
    omega
  refine ⟨_, ?_, hoff, hoff ▸ hroom⟩
  unfold decoderCacheSlot segmentOf
  dsimp only
  rw [if_neg, if_neg, if_neg]
  · rw [gt_iff_lt, lt_def, hnat, toNat_add, hoff]
    simp
    omega
  · simp only [ge_iff_le, lt_def, le_def]
    omega
  · rw [lt_def, hnat]
    exact Nat.not_lt.2 (Nat.pow_le_pow_right (show 0 < 2 by decide) h3)

/-- with room for all even addresses the slots are apart -/
theorem slotsApart_of_room (h3 : 3 ≤ j) (hj : j ≤ 63) (heven : b.toNat % 2 = 0)
    (hlen : (e - b).toNat < 2 ^ 60) (hroom : 4 * (e.toNat - b.toNat + 1) < 2 ^ j + 8) :
    SlotsApart (segmentOf b e j) := by
  -- an even address of the segment, by its entry
  have hslot : ∀ pc : BitVec 64, pc.toNat % 2 = 0 → b ≤ pc → pc < e → ∃ off,
      decoderCacheSlot (segmentOf b e j) pc = some off ∧ off.toNat = 4 * (pc.toNat - b.toNat) ∧
      off.toNat + 8 ≤ 2 ^ j := by
    intro pc hpc hfrom hto
    rw [le_def] at hfrom
    obtain ⟨off, hslot, hoff, hfit⟩ := decoderCacheSlot_eq h3 hj hlen pc ((pc.toNat - b.toNat) / 2) (by omega) hto
    rw [lt_def] at hto
    rw [Nat.mod_eq_of_lt (by omega)] at hoff
    exact ⟨off, hslot, by omega, hfit⟩
  intro pc hpc (hfrom : b ≤ pc) hto
  obtain ⟨off, hat, hoff, hfit⟩ := hslot pc hpc hfrom hto
  refine ⟨off, hat, by rwa [segmentOf, toNat_twoPow_of_lt (by omega)], fun pc' off' hpc' hne hat' => ?_⟩
  have hin : b ≤ pc' ∧ pc' < e := by
    by_contra hout
    rw [not_and_or, BitVec.not_le, BitVec.not_lt] at hout
    have hnone : decoderCacheSlot (segmentOf b e j) pc' = none := by
      unfold decoderCacheSlot segmentOf
      exact (congrArg _ (if_pos hout)).trans (ite_self none)
    rw [hnone] at hat'
    cases hat'
  obtain ⟨off'', hat'', hoff'', -⟩ := hslot pc' hpc' hin.1 hin.2
  cases hat'.symm.trans hat''
  have hdiff : pc'.toNat ≠ pc.toNat := fun h => hne (eq_of_toNat_eq h)
  have hfrom' := hin.1
  rw [le_def] at hfrom hfrom'
  omega

/-- **Slots.** In a segment that begins at an even address every even address has an entry of its own iff the length is
not odd with a power of two as its half. -/
theorem slots_apart_iff (b e : BitVec 64) (heven : b.toNat % 2 = 0) (hlt : b < e)
    (hlen : (e - b).toNat < 2 ^ 60) :
    (∃ seg, lazySegment b e = some seg ∧ SlotsApart seg) ↔
      ¬ ((e - b).toNat % 2 = 1 ∧ ∃ i, (e - b).toNat / 2 = 2 ^ i) := by
  obtain ⟨j, h3, hj, halloc, hlarge, hleast⟩ := allocLazyDecoderCache_spec hlt hlen
  have hseg : lazySegment b e = some (segmentOf b e j) := congrArg _ halloc
  have hspan : (e - b).toNat = e.toNat - b.toNat :=
    toNat_sub_of_le (BitVec.le_of_lt hlt)
  have hpow : 2 ^ j = 8 * 2 ^ (j - 3) := by rw [← Nat.pow_add 2 3 (j - 3), Nat.add_sub_cancel' h3]
  have hlt' := hlt
  rw [lt_def] at hlt'
  constructor
  · rintro ⟨seg, hsome, hapart⟩ ⟨hodd, i, hi⟩
    cases hseg.symm.trans hsome
    -- the cache has just the entries counted, and the last even address gets the first of them
    have hexact : 2 ^ j = 8 * 2 ^ i := by
      have hle : 2 ^ (i + 3) ≤ 2 ^ j := by rw [Nat.pow_succ, Nat.pow_succ, Nat.pow_succ]; omega
      have hge : 2 ^ j < 2 ^ (i + 4) ∨ j = 3 := by
        refine hleast.symm.imp_left fun h => ?_
        rw [Nat.pow_succ, Nat.pow_succ, Nat.pow_succ, Nat.pow_succ]
        omega
      have hji : j = i + 3 := by
        have := (Nat.pow_le_pow_iff_right (by decide)).1 hle
        rcases hge with hge | hge
        · have := (Nat.pow_lt_pow_iff_right (by decide)).1 hge
          omega
        · omega
      rw [hji, Nat.pow_succ, Nat.pow_succ, Nat.pow_succ]
      omega
    have hlast : (e - 1).toNat = e.toNat - 1 := toNat_sub_of_le (by rw [le_def]; simp; omega)
    obtain ⟨off, hat, hoff, -⟩ := decoderCacheSlot_eq h3 hj hlen b 0 (by omega) hlt
    obtain ⟨off', hat', hoff', -⟩ := decoderCacheSlot_eq h3 hj hlen (e - 1) (2 ^ i) (by omega)
      (by rw [lt_def]; omega)
    obtain ⟨off₁, hat₁, -, hother⟩ := hapart b heven (BitVec.le_refl _) hlt
    cases hat.symm.trans hat₁
    have hcases := hother (e - 1) off' (by omega) (fun h => by rw [h] at hlast; omega) hat'
    rw [← hexact, Nat.mod_self] at hoff'
    simp at hoff
    omega
  · intro hnot
    refine ⟨_, hseg, slotsApart_of_room h3 hj heven hlen ?_⟩
    by_cases hodd : (e - b).toNat % 2 = 1
    · have hne : (e - b).toNat / 2 ≠ 2 ^ (j - 3) := fun h => hnot ⟨hodd, _, h⟩
      omega
    · omega

/-- a segment of six bytes has three entries of its own -/
theorem slots_apart_six : ∃ seg, lazySegment 0x1000 0x1006 = some seg ∧ SlotsApart seg :=
  (slots_apart_iff 0x1000 0x1006 (by decide) (by decide) (by decide)).2 fun h => absurd h.1 (by decide)

/-- in a segment of five bytes the third instruction gets the entry of the first -/
theorem slots_collide : (lazySegment 0x1000 0x1005).bind (decoderCacheSlot · 0x1004) = some 0 ∧
    (lazySegment 0x1000 0x1005).bind (decoderCacheSlot · 0x1000) = some 0 := by
  decide

end Segment

end RiscvEmu.Jit
