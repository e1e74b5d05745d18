/-
The table of executable regions (`guestmem_exec.go`).

`AddExecRegion` and `RemoveExecRegion` filter the table in place (`Slice.rewrite`). The table should represent the set
that union and difference of the intervals give, by regions that are not empty and do not overlap.

• `addExecRegion_represents`: adding a region does so.
• `removeExecRegion_represents`, `removeExecRegion_loses`: removing one does so, unless it takes the middle out of a
  region that is not the last of the table.
• `exec_regions_iff`: both over whole sequences of calls; `hole_loses_region` is the shortest one that fails.
-/
import RiscvEmu.Lib.Slice

namespace RiscvEmu

/-! ## The table -/

/-- a range of guest addresses that holds code; `vaddrEnd` is exclusive -/
structure ExecRegion where
  vaddrBegin : BitVec 64
  vaddrEnd : BitVec 64
  isLikelyJIT : Bool
deriving DecidableEq, Repr

namespace ExecRegion

def contains (r : ExecRegion) (pc : BitVec 64) : Bool := r.vaddrBegin ≤ pc ∧ pc < r.vaddrEnd

def zero : ExecRegion := { vaddrBegin := 0, vaddrEnd := 0, isLikelyJIT := false }

/-- the new region, grown over one that it overlaps -/
def absorb (new r : ExecRegion) : ExecRegion :=
  { new with
    vaddrBegin := if r.vaddrBegin < new.vaddrBegin then r.vaddrBegin else new.vaddrBegin
    vaddrEnd := if r.vaddrEnd > new.vaddrEnd then r.vaddrEnd else new.vaddrEnd }

/-- the body of the loop of `AddExecRegion` -/
def addStep (new r : ExecRegion) : ExecRegion × List ExecRegion :=
  if r.vaddrEnd ≤ new.vaddrBegin ∨ r.vaddrBegin ≥ new.vaddrEnd then (new, [r]) else (new.absorb r, [])

/-- what is left of a region when `[b, e)` is taken out -/
def cut (b e : BitVec 64) (r : ExecRegion) : List ExecRegion :=
  if r.vaddrEnd ≤ b ∨ r.vaddrBegin ≥ e then [r]
  else
    (if r.vaddrBegin < b then [{ r with vaddrEnd := b }] else []) ++
      (if r.vaddrEnd > e then [{ r with vaddrBegin := e }] else [])

/-- the body of the loop of `RemoveExecRegion` -/
def removeStep (b e : BitVec 64) (_ : Unit) (r : ExecRegion) : Unit × List ExecRegion := ((), cut b e r)

end ExecRegion

abbrev ExecTable := Slice ExecRegion

namespace ExecTable

def empty : ExecTable := { array := [], len := 0, fits := Nat.le_refl 0 }

-- how much room `append` adds when it has to move the table
variable (slack : Nat → Nat)

def addExecRegion (t : ExecTable) (b e : BitVec 64) (isJIT : Bool) : ExecTable :=
  if b ≥ e then t
  else
    let r := t.rewrite ExecRegion.addStep { vaddrBegin := b, vaddrEnd := e, isLikelyJIT := isJIT }
    Slice.ofWriting .zero slack (r.2.append r.1)

def removeExecRegion (t : ExecTable) (b e : BitVec 64) : ExecTable :=
  if b ≥ e then t else Slice.ofWriting .zero slack (t.rewrite (ExecRegion.removeStep b e) ()).2

def findExecRegion (t : ExecTable) (pc : BitVec 64) : Option ExecRegion := t.elems.find? fun r => r.contains pc

end ExecTable

/-! ## What the table stands for -/

def addresses (b e : BitVec 64) : Set (BitVec 64) := { pc | b ≤ pc ∧ pc < e }

/-- the regions are not empty, do not overlap and hold the addresses of `S` -/
structure Covers (l : List ExecRegion) (S : Set (BitVec 64)) : Prop where
  nonempty : ∀ r ∈ l, r.vaddrBegin < r.vaddrEnd
  disjoint : l.Pairwise fun r q => ∀ pc, ¬ (r.contains pc = true ∧ q.contains pc = true)
  covered : ∀ pc, (∃ r ∈ l, r.contains pc = true) ↔ pc ∈ S

/-- the table finds a region for the addresses of `S` and no others -/
structure Represents (t : ExecTable) (S : Set (BitVec 64)) : Prop where
  found : ∀ pc, t.findExecRegion pc ≠ none ↔ pc ∈ S
  nonempty : ∀ r ∈ t.elems, r.vaddrBegin < r.vaddrEnd
  disjoint : t.elems.Pairwise fun r q => ∀ pc, ¬ (r.contains pc = true ∧ q.contains pc = true)

theorem findExecRegion_iff (t : ExecTable) (pc : BitVec 64) :
    t.findExecRegion pc ≠ none ↔ ∃ r ∈ t.elems, r.contains pc = true := by
  unfold ExecTable.findExecRegion
  rw [← Option.isSome_iff_ne_none, List.find?_isSome]

theorem represents_iff {t : ExecTable} {S : Set (BitVec 64)} : Represents t S ↔ Covers t.elems S := by
  constructor
  · intro h
    exact ⟨h.nonempty, h.disjoint, fun pc => (findExecRegion_iff t pc).symm.trans (h.found pc)⟩
  · intro h
    exact ⟨fun pc => (findExecRegion_iff t pc).trans (h.covered pc), h.nonempty, h.disjoint⟩

namespace ExecRegion

variable {r q new : ExecRegion} {b e pc : BitVec 64}

theorem contains_iff : r.contains pc = true ↔ r.vaddrBegin.toNat ≤ pc.toNat ∧ pc.toNat < r.vaddrEnd.toNat := by
  unfold contains
  rw [decide_eq_true_eq, BitVec.le_def, BitVec.lt_def]

theorem apart_of_disjoint (hr : r.vaddrBegin < r.vaddrEnd) (hq : q.vaddrBegin < q.vaddrEnd)
    (h : ∀ pc, ¬ (r.contains pc = true ∧ q.contains pc = true)) :
    r.vaddrEnd.toNat ≤ q.vaddrBegin.toNat ∨ q.vaddrEnd.toNat ≤ r.vaddrBegin.toNat := by
  rw [BitVec.lt_def] at hr hq
  by_contra hover
  have hleft := h r.vaddrBegin
  have hright := h q.vaddrBegin
  simp only [contains_iff] at hleft hright
  omega

/-! ## Adding -/

theorem absorb_toNat (new r : ExecRegion) :
    (new.absorb r).vaddrBegin.toNat = min r.vaddrBegin.toNat new.vaddrBegin.toNat ∧
    (new.absorb r).vaddrEnd.toNat = max r.vaddrEnd.toNat new.vaddrEnd.toNat := by
  unfold absorb
  constructor
  · dsimp only
    split_ifs with h
    · exact (Nat.min_eq_left (BitVec.le_of_lt h)).symm
    · exact (Nat.min_eq_right (BitVec.not_lt.mp h)).symm
  · dsimp only
    split_ifs with h
    · exact (Nat.max_eq_left (BitVec.le_of_lt h)).symm
    · exact (Nat.max_eq_right (BitVec.not_lt.mp h)).symm

/-- a region is kept because it shares no address with the new one, or absorbed into it -/
inductive Added (new r : ExecRegion) : ExecRegion × List ExecRegion → Prop
  | kept (apart : ∀ pc, ¬ (r.contains pc = true ∧ new.contains pc = true)) : Added new r (new, [r])
  | absorbed {hull : ExecRegion} (nonempty : hull.vaddrBegin < hull.vaddrEnd)
      (points : ∀ pc, hull.contains pc = true ↔ new.contains pc = true ∨ r.contains pc = true) : Added new r (hull, [])

theorem addStep_added (hnew : new.vaddrBegin < new.vaddrEnd) (r : ExecRegion) : Added new r (addStep new r) := by
  obtain ⟨hbegin, hend⟩ := absorb_toNat new r
  unfold addStep
  split_ifs with hapart
  · refine .kept fun pc => ?_
    simp only [contains_iff, BitVec.le_def, ge_iff_le] at *
    omega
  · rw [not_or, ge_iff_le, BitVec.not_le, BitVec.not_le] at hapart
    simp only [BitVec.lt_def] at *
    refine .absorbed ?_ fun pc => ?_
    · rw [BitVec.lt_def]
      omega
    · simp only [contains_iff]
      omega

/-- the loop of `AddExecRegion`: what is kept was there, no address is lost, and if the regions did not overlap, none
that is kept shares an address with the new one -/
structure AddedAll (new : ExecRegion) (l : List ExecRegion) (r : ExecRegion × List ExecRegion) : Prop where
  kept : r.2.Sublist l
  nonempty : r.1.vaddrBegin < r.1.vaddrEnd
  points : ∀ pc, (r.1.contains pc = true ∨ ∃ q ∈ r.2, q.contains pc = true) ↔
    (new.contains pc = true ∨ ∃ q ∈ l, q.contains pc = true)
  apart : (l.Pairwise fun r q => ∀ pc, ¬ (r.contains pc = true ∧ q.contains pc = true)) →
    ∀ q ∈ r.2, ∀ pc, ¬ (q.contains pc = true ∧ r.1.contains pc = true)

theorem emit_addStep (l : List ExecRegion) (hnew : new.vaddrBegin < new.vaddrEnd) :
    AddedAll new l (emit addStep new l) := by
  induction l generalizing new with
  | nil => exact ⟨.slnil, hnew, fun pc => by simp [emit], fun _ q hq => absurd hq List.not_mem_nil⟩
  | cons r rest ih =>
    have hstep := addStep_added hnew r
    unfold emit
    generalize addStep new r = s at hstep ⊢
    cases hstep with
    | kept apart =>
      have hih := ih hnew
      refine ⟨hih.kept.cons_cons r, hih.nonempty, fun pc => ?_, fun hdisjoint q hq pc => ?_⟩
      · simp only [List.singleton_append, List.mem_cons, exists_eq_or_imp]
        rw [← or_assoc, or_comm (b := r.contains pc = true), or_assoc, hih.points pc, or_left_comm]
      · obtain ⟨hhead, htail⟩ := List.pairwise_cons.mp hdisjoint
        obtain rfl | hq := List.mem_cons.mp hq
        · -- the new region meets it neither as it is nor in what it absorbs later
          rintro ⟨hcontains, hlater⟩
          obtain hnew' | ⟨p, hp, hcontains'⟩ := (hih.points pc).mp (.inl hlater)
          · exact apart pc ⟨hcontains, hnew'⟩
          · exact hhead p hp pc ⟨hcontains, hcontains'⟩
        · exact hih.apart htail q hq pc
    | absorbed nonempty points =>
      have hih := ih nonempty
      refine ⟨hih.kept.cons r, hih.nonempty, fun pc => ?_, fun hdisjoint => hih.apart hdisjoint.of_cons⟩
      simp only [List.nil_append, List.mem_cons, exists_eq_or_imp]
      rw [hih.points pc, points pc, or_assoc]

end ExecRegion

theorem mem_addresses {b e pc : BitVec 64} : pc ∈ addresses b e ↔ b.toNat ≤ pc.toNat ∧ pc.toNat < e.toNat := by
  unfold addresses
  rw [Set.mem_ofPred_eq, BitVec.le_def, BitVec.lt_def]

theorem addresses_empty {b e : BitVec 64} (h : b ≥ e) : addresses b e = ∅ := by
  refine Set.eq_empty_of_forall_notMem fun pc hpc => ?_
  rw [mem_addresses] at hpc
  rw [ge_iff_le, BitVec.le_def] at h
  omega

variable (slack : Nat → Nat)

theorem addExecRegion_elems {b e : BitVec 64} (t : ExecTable) (hbe : ¬ b ≥ e) (isJIT : Bool) :
    (t.addExecRegion slack b e isJIT).elems =
    (emit ExecRegion.addStep { vaddrBegin := b, vaddrEnd := e, isLikelyJIT := isJIT } t.elems).2 ++
      [(emit ExecRegion.addStep { vaddrBegin := b, vaddrEnd := e, isLikelyJIT := isJIT } t.elems).1] := by
  have hkeeps : KeepsUp ExecRegion.addStep { vaddrBegin := b, vaddrEnd := e, isLikelyJIT := isJIT } 0 t.elems := by
    refine keepsUp_of_le_one 0 fun r _ new => ?_
    unfold ExecRegion.addStep
    split_ifs
    · exact Nat.le_refl 1
    · exact Nat.zero_le 1
  obtain ⟨hacc, helems⟩ := Slice.rewrite_elems hkeeps
  rw [ExecTable.addExecRegion, if_neg hbe, Slice.elems_ofWriting,
    (Writing.append_elems (Slice.rewrite_inside _ _ t) _).1, hacc, helems]

/-- for any table, the addresses that are found after a region is added are those before and those of the region -/
theorem addExecRegion_found (t : ExecTable) (b e : BitVec 64) (isJIT : Bool) (pc : BitVec 64) :
    (t.addExecRegion slack b e isJIT).findExecRegion pc ≠ none ↔ t.findExecRegion pc ≠ none ∨ pc ∈ addresses b e := by
  by_cases hbe : b ≥ e
  · rw [ExecTable.addExecRegion, if_pos hbe, addresses_empty hbe, Set.mem_empty_iff_false, or_false]
  · have hall : ExecRegion.AddedAll { vaddrBegin := b, vaddrEnd := e, isLikelyJIT := isJIT } t.elems _ :=
      ExecRegion.emit_addStep t.elems (BitVec.not_le.mp hbe)
    have hpoints := hall.points pc
    have hnew : ExecRegion.contains { vaddrBegin := b, vaddrEnd := e, isLikelyJIT := isJIT } pc = true ↔
        pc ∈ addresses b e := decide_eq_true_iff
    rw [findExecRegion_iff, findExecRegion_iff, addExecRegion_elems _ t hbe]
    rw [hnew, or_comm, or_comm (a := pc ∈ addresses b e)] at hpoints
    simpa [or_and_right, exists_or] using hpoints

/-- **Adding a region** is the union with its addresses. -/
theorem addExecRegion_represents {t : ExecTable} {S : Set (BitVec 64)} (h : Represents t S)
    (b e : BitVec 64) (isJIT : Bool) : Represents (t.addExecRegion slack b e isJIT) (S ∪ addresses b e) := by
  have hfound (pc : BitVec 64) : (t.addExecRegion slack b e isJIT).findExecRegion pc ≠ none ↔ pc ∈ S ∪ addresses b e :=
    (addExecRegion_found slack t b e isJIT pc).trans (or_congr_left (h.found pc))
  by_cases hbe : b ≥ e
  · rw [ExecTable.addExecRegion, if_pos hbe, addresses_empty hbe, Set.union_empty]
    exact h
  · have hall : ExecRegion.AddedAll { vaddrBegin := b, vaddrEnd := e, isLikelyJIT := isJIT } t.elems _ :=
      ExecRegion.emit_addStep t.elems (BitVec.not_le.mp hbe)
    have helems := addExecRegion_elems slack t hbe isJIT
    generalize emit ExecRegion.addStep _ t.elems = r at hall helems
    refine ⟨hfound, fun q hq => ?_, ?_⟩
    · rw [helems] at hq
      obtain hq | hq := List.mem_append.mp hq
      · exact h.nonempty q (hall.kept.subset hq)
      · rw [List.mem_singleton.mp hq]
        exact hall.nonempty
    · rw [helems]
      refine List.pairwise_append.mpr ⟨h.disjoint.sublist hall.kept, List.pairwise_singleton _ _, fun q hq p hp => ?_⟩
      rw [List.mem_singleton.mp hp]
      exact hall.apart h.disjoint q hq

/-! ## Removing -/

namespace ExecRegion

variable {r q : ExecRegion} {b e : BitVec 64}

def holed (b e : BitVec 64) (r : ExecRegion) : Bool := r.vaddrBegin < b ∧ e < r.vaddrEnd

theorem cut_length (h : r.holed b e = false) : (cut b e r).length ≤ 1 := by
  unfold cut
  unfold holed at h
  rw [decide_eq_false_iff_not, not_and] at h
  split_ifs with hapart hbegin hend hend
  · exact Nat.le_refl 1
  · exact absurd hend (h hbegin)
  all_goals simp

/-- what is left of a region has its addresses but those taken out, in pieces that are not empty and lie apart -/
theorem cut_covers (hbe : b < e) (hr : r.vaddrBegin < r.vaddrEnd) :
    Covers (cut b e r) { pc | r.contains pc = true ∧ pc ∉ addresses b e } := by
  have hwhole (pc : BitVec 64) : pc ∈ { pc | r.contains pc = true ∧ pc ∉ addresses b e } ↔
      (r.vaddrBegin.toNat ≤ pc.toNat ∧ pc.toNat < r.vaddrEnd.toNat) ∧ ¬ (b.toNat ≤ pc.toNat ∧ pc.toNat < e.toNat) := by
    rw [Set.mem_ofPred_eq, contains_iff, mem_addresses]
  rw [BitVec.lt_def] at hbe hr
  unfold cut
  split_ifs with hapart hbegin hend hend
  all_goals simp only [BitVec.le_def, BitVec.lt_def, ge_iff_le, gt_iff_lt] at *
  · -- nothing of it is taken
    refine ⟨by simpa [BitVec.lt_def] using hr, List.pairwise_singleton _ _, fun pc => ?_⟩
    rw [hwhole]
    simp only [List.mem_singleton, exists_eq_left, contains_iff]
    omega
  · -- its middle is taken
    refine ⟨by simp [BitVec.lt_def, hbegin, hend], ?_, fun pc => ?_⟩
    · simp only [List.singleton_append, List.pairwise_cons, List.mem_singleton, forall_eq, contains_iff]
      exact ⟨fun pc => by omega, fun q hq => absurd hq List.not_mem_nil, List.Pairwise.nil⟩
    · rw [hwhole]
      simp only [List.singleton_append, List.mem_cons, List.not_mem_nil, or_false, exists_eq_or_imp, exists_eq_left,
        contains_iff]
      omega
  · -- its end is taken
    refine ⟨by simp [BitVec.lt_def, hbegin], List.pairwise_singleton _ _, fun pc => ?_⟩
    rw [hwhole]
    simp only [List.append_nil, List.mem_singleton, exists_eq_left, contains_iff]
    omega
  · -- its start is taken
    refine ⟨by simp [BitVec.lt_def, hend], List.pairwise_singleton _ _, fun pc => ?_⟩
    rw [hwhole]
    simp only [List.nil_append, List.mem_singleton, exists_eq_left, contains_iff]
    omega
  · -- all of it is taken
    refine ⟨fun q hq => absurd hq List.not_mem_nil, List.Pairwise.nil, fun pc => ?_⟩
    rw [hwhole]
    simp only [List.append_nil, List.not_mem_nil, false_and, exists_false, false_iff]
    omega

end ExecRegion

theorem emit_removeStep (b e : BitVec 64) (l : List ExecRegion) :
    (emit (ExecRegion.removeStep b e) () l).2 = l.flatMap (ExecRegion.cut b e) := by
  induction l with
  | nil => rfl
  | cons r rest ih =>
    rw [List.flatMap_cons, ← ih]
    rfl

theorem flatMap_cut_covers {S : Set (BitVec 64)} {l : List ExecRegion} {b e : BitVec 64} (h : Covers l S)
    (hbe : b < e) :
    Covers (l.flatMap (ExecRegion.cut b e)) (S \ addresses b e) := by
  have hcut : ∀ r ∈ l, Covers (ExecRegion.cut b e r) { pc | r.contains pc = true ∧ pc ∉ addresses b e } :=
    fun r hr => ExecRegion.cut_covers hbe (h.nonempty r hr)
  refine ⟨fun q hq => ?_, ?_, fun pc => ?_⟩
  · obtain ⟨r, hr, hq⟩ := List.mem_flatMap.mp hq
    exact (hcut r hr).nonempty q hq
  · refine List.pairwise_flatMap.mpr ⟨fun r hr => (hcut r hr).disjoint, ?_⟩
    refine h.disjoint.imp_of_mem fun {r q} hr hq hdisjoint r' hr' q' hq' pc => ?_
    rintro ⟨hinr, hinq⟩
    exact hdisjoint pc
      ⟨((hcut r hr).covered pc |>.mp ⟨r', hr', hinr⟩).1, ((hcut q hq).covered pc |>.mp ⟨q', hq', hinq⟩).1⟩
  · rw [Set.mem_sdiff, ← h.covered pc]
    constructor
    · rintro ⟨q, hq, hcontains⟩
      obtain ⟨r, hr, hq⟩ := List.mem_flatMap.mp hq
      obtain ⟨hin, hout⟩ := ((hcut r hr).covered pc).mp ⟨q, hq, hcontains⟩
      exact ⟨⟨r, hr, hin⟩, hout⟩
    · rintro ⟨⟨r, hr, hin⟩, hout⟩
      obtain ⟨q, hq, hcontains⟩ := ((hcut r hr).covered pc).mpr ⟨hin, hout⟩
      exact ⟨q, List.mem_flatMap.mpr ⟨r, hr, hq⟩, hcontains⟩

/-- the call takes the middle out of a region that is not the last of the table -/
def ExecTable.holed (t : ExecTable) (b e : BitVec 64) : Bool := b < e ∧ t.elems.dropLast.any fun r => r.holed b e

theorem removeExecRegion_represents {t : ExecTable} {S : Set (BitVec 64)} {b e : BitVec 64} (h : Represents t S)
    (hhole : t.holed b e = false) : Represents (t.removeExecRegion slack b e) (S \ addresses b e) := by
  unfold ExecTable.removeExecRegion
  by_cases hbe : b ≥ e
  · rw [if_pos hbe, addresses_empty hbe, Set.sdiff_empty]
    exact h
  · have hlt : b < e := BitVec.not_le.mp hbe
    have hkeeps : KeepsUp (ExecRegion.removeStep b e) () 0 t.elems := by
      refine keepsUp_of_le_one 0 fun r hr _ => ExecRegion.cut_length ?_
      rw [ExecTable.holed, decide_eq_false_iff_not, not_and] at hhole
      have hnone := hhole hlt
      rw [List.any_eq_true, not_exists] at hnone
      exact Bool.eq_false_iff.mpr fun hholed => hnone r ⟨hr, hholed⟩
    rw [represents_iff] at h ⊢
    rw [if_neg hbe, Slice.elems_ofWriting, (Slice.rewrite_elems hkeeps).2, emit_removeStep]
    exact flatMap_cut_covers h hlt

theorem removeExecRegion_loses {t : ExecTable} {S : Set (BitVec 64)} {b e : BitVec 64} (h : Represents t S)
    (hhole : t.holed b e = true) : ¬ Represents (t.removeExecRegion slack b e) (S \ addresses b e) := by
  rw [represents_iff] at h
  rw [ExecTable.holed, decide_eq_true_eq] at hhole
  obtain ⟨hlt, hany⟩ := hhole
  obtain ⟨r, hr, hholed⟩ := List.any_eq_true.mp hany
  obtain ⟨kept, behind, hsplit⟩ := List.append_of_mem hr
  have hne : t.elems ≠ [] := fun hnil => by rw [hnil] at hr; cases hr
  obtain ⟨rest, hrest, helems⟩ : ∃ rest, rest ≠ [] ∧ t.elems = kept ++ r :: rest := by
    refine ⟨behind ++ [t.elems.getLast hne], by simp, ?_⟩
    calc t.elems = t.elems.dropLast ++ [t.elems.getLast hne] := (List.dropLast_append_getLast hne).symm
      _ = kept ++ r :: (behind ++ [t.elems.getLast hne]) := by rw [hsplit, List.append_assoc, List.cons_append]
  obtain ⟨q, others, rfl⟩ := List.exists_cons_of_ne_nil hrest
  rw [helems] at h
  obtain ⟨-, hrrest, hkept⟩ := List.pairwise_append.mp h.disjoint
  have hrq := (List.pairwise_cons.mp hrrest).1 q List.mem_cons_self
  have hr := h.nonempty r (by simp)
  have hq := h.nonempty q (by simp)
  rw [ExecRegion.holed, decide_eq_true_eq] at hholed
  obtain ⟨hbegin, hend⟩ := hholed
  -- the first address of the region behind the holed one should still be found
  have hmem : q.vaddrBegin ∈ S \ addresses b e := by
    refine ⟨(h.covered _).mp ⟨q, by simp, ?_⟩, fun hin => ?_⟩
    · exact ExecRegion.contains_iff.mpr ⟨Nat.le_refl _, hq⟩
    · have hapart := ExecRegion.apart_of_disjoint hr hq hrq
      rw [mem_addresses] at hin
      simp only [BitVec.lt_def] at *
      omega
  have hcut : ExecRegion.removeStep b e () r = ((), [{ r with vaddrEnd := b }, { r with vaddrBegin := e }]) := by
    have hover : ¬ (r.vaddrEnd ≤ b ∨ r.vaddrBegin ≥ e) := by
      simp only [BitVec.le_def, BitVec.lt_def, ge_iff_le] at *
      omega
    rw [ExecRegion.removeStep, ExecRegion.cut, if_neg hover, if_pos hbegin, if_pos hend]
    rfl
  have hpiece (acc : Unit) :
      ExecRegion.removeStep b e acc { r with vaddrBegin := e } = (acc, [{ r with vaddrBegin := e }]) := by
    rw [ExecRegion.removeStep, ExecRegion.cut, if_pos (.inr (BitVec.le_refl e))]
  have hstays : ∀ y ∈ kept, ExecRegion.removeStep b e () y = ((), [y]) := by
    intro y hy
    have hapart := ExecRegion.apart_of_disjoint (h.nonempty y (List.mem_append_left _ hy)) hr
        (hkept y hy r List.mem_cons_self)
    have houtside : y.vaddrEnd ≤ b ∨ y.vaddrBegin ≥ e := by
      simp only [BitVec.le_def, BitVec.lt_def, ge_iff_le] at *
      omega
    rw [ExecRegion.removeStep, ExecRegion.cut, if_pos houtside]
  have hresult :
      (t.removeExecRegion slack b e).elems = kept ++ { r with vaddrEnd := b } :: { r with vaddrBegin := e } ::
      List.replicate (q :: others).length { r with vaddrBegin := e } := by
    rw [ExecTable.removeExecRegion, if_neg (BitVec.not_le.mpr hlt), Slice.elems_ofWriting]
    exact Slice.rewrite_overrun helems hrest hstays hcut hpiece
  intro hrep
  rw [represents_iff, hresult] at hrep
  obtain ⟨p, hp, hcontains⟩ := (hrep.covered _).mpr hmem
  have hinq : q.contains q.vaddrBegin = true := ExecRegion.contains_iff.mpr ⟨Nat.le_refl _, hq⟩
  obtain hp | hp := List.mem_append.mp hp
  · exact hkept p hp q (by simp) _ ⟨hcontains, hinq⟩
  · have hinr : r.contains q.vaddrBegin = true := by
      have hpieces : p = { r with vaddrEnd := b } ∨ p = { r with vaddrBegin := e } := by
        simpa [List.mem_replicate] using hp
      rw [ExecRegion.contains_iff] at hcontains ⊢
      obtain rfl | rfl := hpieces <;> simp only [BitVec.lt_def] at * <;> omega
    exact hrq _ ⟨hinr, hinq⟩

/-! ## Sequences of calls -/

inductive ExecCall
  | add (b e : BitVec 64) (isJIT : Bool)
  | remove (b e : BitVec 64)
deriving DecidableEq, Repr

namespace ExecCall

def apply (slack : Nat → Nat) (t : ExecTable) : ExecCall → ExecTable
  | .add b e isJIT => t.addExecRegion slack b e isJIT
  | .remove b e => t.removeExecRegion slack b e

def effect (S : Set (BitVec 64)) : ExecCall → Set (BitVec 64)
  | .add b e _ => S ∪ addresses b e
  | .remove b e => S \ addresses b e

/-- a region that is not the last one is holed -/
def holes (t : ExecTable) : ExecCall → Bool
  | .add _ _ _ => false
  | .remove b e => t.holed b e

theorem apply_represents_iff {t : ExecTable} {S : Set (BitVec 64)} (slack : Nat → Nat) (h : Represents t S)
    (c : ExecCall) :
    Represents (c.apply slack t) (c.effect S) ↔ c.holes t = false := by
  cases c with
  | add b e isJIT => exact iff_of_true (addExecRegion_represents slack h b e isJIT) rfl
  | remove b e =>
    show Represents (t.removeExecRegion slack b e) (S \ addresses b e) ↔ t.holed b e = false
    cases hhole : t.holed b e with
    | false => exact iff_of_true (removeExecRegion_represents slack h hhole) rfl
    | true => exact iff_of_false (removeExecRegion_loses slack h hhole) (by decide)

end ExecCall

/-- at the start and after every call the table represents the set -/
def Follows (slack : Nat → Nat) : ExecTable → Set (BitVec 64) → List ExecCall → Prop
  | t, S, [] => Represents t S
  | t, S, c :: rest => Represents t S ∧ Follows slack (c.apply slack t) (c.effect S) rest

/-- no call takes the middle out of a region that is not the last of the table in which it is made -/
def NeverHoles (slack : Nat → Nat) : ExecTable → List ExecCall → Prop
  | _, [] => True
  | t, c :: rest => c.holes t = false ∧ NeverHoles slack (c.apply slack t) rest

theorem follows_iff {t : ExecTable} {S : Set (BitVec 64)} (h : Represents t S) (calls : List ExecCall) :
    Follows slack t S calls ↔ NeverHoles slack t calls := by
  induction calls generalizing t S with
  | nil => exact iff_of_true h trivial
  | cons c rest ih =>
    have hcall := c.apply_represents_iff slack h
    constructor
    · rintro ⟨-, hrest⟩
      have hnext : Represents (c.apply slack t) (c.effect S) := by
        cases rest with
        | nil => exact hrest
        | cons c' rest => exact hrest.1
      exact ⟨hcall.mp hnext, (ih hnext).mp hrest⟩
    · rintro ⟨hholes, hrest⟩
      exact ⟨h, (ih (hcall.mpr hholes)).mpr hrest⟩

theorem empty_represents : Represents .empty ∅ :=
  ⟨fun pc => by simp [ExecTable.findExecRegion, ExecTable.empty, Slice.elems],
    fun r hr => absurd hr (by simp [ExecTable.empty, Slice.elems]),
    by simp [ExecTable.empty, Slice.elems]⟩

/-- **When the table is right.**  From the empty table on, `FindExecRegion` finds what union and difference of the
intervals give, and the regions are not empty and do not overlap, after every call of a sequence, just if no call
takes the middle out of a region that is not the last of the table. -/
theorem exec_regions_iff (slack : Nat → Nat) (calls : List ExecCall) :
    Follows slack .empty ∅ calls ↔ NeverHoles slack .empty calls := follows_iff slack empty_represents calls

/-- two regions, and a hole in the first: the second is lost -/
theorem hole_loses_region :
    ((((ExecTable.empty.addExecRegion (fun n => n) 0x1000 0x2000 false).addExecRegion
      (fun n => n) 0x3000 0x4000 false).removeExecRegion
      (fun n => n) 0x1400 0x1800).findExecRegion 0x3000 = none) ∧
    ¬ Follows (fun n => n) .empty ∅ [.add 0x1000 0x2000 false, .add 0x3000 0x4000 false, .remove 0x1400 0x1800] := by
  refine ⟨by decide, fun hfollows => ?_⟩
  have hnever := ((follows_iff _ empty_represents _).mp hfollows).2.2.1
  exact absurd hnever (by decide)

end RiscvEmu
