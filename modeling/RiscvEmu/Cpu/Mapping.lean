/-
Which page the tables map an address to.

`Maps entry addr level pt l v`: from the table at `pt`, with `level` levels to go, the entries that `entry` gives lead
to the leaf `v` at level `l`. The entries may be those of the hart's memory now (`Cpu.reads`) or those that a walk has
read before.

• `Maps.congr`: the addresses of one page are mapped alike.
• `Maps.grown`: entries that have gained A and D bits since map alike.
• `walkFrom_of_maps`: a walk finds the leaf.
-/
import RiscvEmu.Cpu.Tlb

namespace RiscvEmu

variable {a b addr' : BitVec 64} {kind : FaultKind} {c : Cpu} {e : TlbEntry}

open BitVec

open Exec

/-! ## Addresses of one page -/

/-- the bits of an address below a page of level `l` -/
def pageMask (l : Nat) : BitVec 64 := (1#64 <<< (12 + 9 * l)) - 1

theorem pageMask_bit {l i : Nat} (hl : l < 4) (hi : i < 64) : (pageMask l).getLsbD i = decide (i < 12 + 9 * l) := by
  revert i
  revert l
  decide

theorem shift_of_page {l s : Nat} (hl : l < 4) (h : andNot a (pageMask l) = andNot b (pageMask l))
    (hs : 12 + 9 * l ≤ s) : a >>> s = b >>> s := by
  apply eq_of_getLsbD_eq
  intro i hi
  rw [getLsbD_ushiftRight, getLsbD_ushiftRight]
  by_cases hb : s + i < 64
  · have hbit := congrArg (fun x => x.getLsbD (s + i)) h
    simp only [andNot, getLsbD_and, getLsbD_not, pageMask_bit hl hb, hb, decide_true,
      decide_eq_false (show ¬ s + i < 12 + 9 * l by omega), Bool.not_false, Bool.and_true] at hbit
    exact hbit
  · rw [getLsbD_of_ge _ _ (by omega), getLsbD_of_ge _ _ (by omega)]

theorem canonicalVA_of_page {l : Nat} {satp : BitVec 64} (hl : l < pageLevels satp)
    (h : andNot a (pageMask l) = andNot b (pageMask l)) :
    canonicalVA a (pageLevels satp) = canonicalVA b (pageLevels satp) := by
  unfold pageLevels at *
  split_ifs at * with h39 h48
  · rw [canonicalVA, canonicalVA, shift_of_page (by omega) h (s := 38) (by omega),
      shift_of_page (by omega) h (s := 39) (by omega)]
  · rw [canonicalVA, canonicalVA, shift_of_page (by omega) h (s := 47) (by omega),
      shift_of_page (by omega) h (s := 48) (by omega)]
  · rfl

/-! ## Mappings -/

/-- the entries lead from the table at `pt` to the leaf `v` at level `l` -/
inductive Maps (entry : BitVec 64 → BitVec 64 → Prop) (addr : BitVec 64) : Nat → BitVec 64 → Nat → BitVec 64 → Prop
  | leaf {level : Nat} {pt v : BitVec 64} : entry (pteAddr pt (addr >>> (12 + 9 * level))) v → ¬ pteInvalid v →
      v &&& (pteR ||| pteX) ≠ 0 → Maps entry addr (level + 1) pt level v
  | next {level l : Nat} {pt v w : BitVec 64} : entry (pteAddr pt (addr >>> (12 + 9 * level))) v → ¬ pteInvalid v →
      v &&& (pteR ||| pteX) = 0 → Maps entry addr level (ptePpn v <<< 12) l w → Maps entry addr (level + 1) pt l w

/-- `v'` is `v` with A and D bits possibly set since -/
structure Grown (v v' : BitVec 64) : Prop where
  agrees : EntryAgrees v v'
  keeps : v &&& v' = v

namespace Grown

variable {v v' : BitVec 64}

theorem refl (v : BitVec 64) : Grown v v := ⟨rfl, BitVec.and_self⟩

theorem trans (h : Grown v v') {w : BitVec 64} (h' : Grown v' w) : Grown v w := by
  refine ⟨h.agrees.trans h'.agrees, ?_⟩
  calc v &&& w = v &&& v' &&& w := by rw [h.keeps]
    _ = v &&& (v' &&& w) := BitVec.and_assoc ..
    _ = v := by rw [h'.keeps, h.keeps]

theorem invalid_iff (h : Grown v v') : pteInvalid v ↔ pteInvalid v' := by
  unfold pteInvalid
  rw [h.agrees.and_mask (m := pteV) (by decide), h.agrees.and_mask (m := pteW) (by decide),
    h.agrees.and_mask (m := pteR) (by decide)]

theorem pointer (h : Grown v v') : v &&& (pteR ||| pteX) = v' &&& (pteR ||| pteX) := h.agrees.and_mask (by decide)

theorem tlbPerms (h : Grown v v') : tlbPerms v = tlbPerms v' := by
  unfold RiscvEmu.tlbPerms
  rw [h.agrees.and_mask (m := pteR) (by decide), h.agrees.and_mask (m := pteW) (by decide),
    h.agrees.and_mask (m := pteX) (by decide), h.agrees.and_mask (m := pteU) (by decide)]

theorem pteUpdated (h : Grown v v') (hu : pteUpdated v kind = v) : pteUpdated v' kind = v' := by
  have hor : ∀ {b : BitVec 64}, v ||| b = v → v' ||| b = v' := by
    intro b hb
    apply eq_of_getLsbD_eq
    intro i hi
    have h1 := congrArg (fun x => x.getLsbD i) hb
    have h2 := congrArg (fun x => x.getLsbD i) h.keeps
    simp only [getLsbD_or, getLsbD_and] at h1 h2 ⊢
    revert h1 h2
    cases v.getLsbD i <;> cases v'.getLsbD i <;> cases b.getLsbD i <;> decide
  unfold RiscvEmu.pteUpdated at *
  split_ifs at * with hk
  · rw [BitVec.or_assoc] at hu ⊢
    exact hor hu
  · exact hor hu

end Grown

theorem grown_pteUpdated (v : BitVec 64) (kind : FaultKind) : Grown v (pteUpdated v kind) := by
  have hor : ∀ {b : BitVec 64}, b &&& ~~~ pteAD = 0#64 → Grown v (v ||| b) := by
    intro b hb
    constructor
    · unfold EntryAgrees
      apply eq_of_getLsbD_eq
      intro i hi
      have h1 := congrArg (fun x => x.getLsbD i) hb
      simp only [getLsbD_or, getLsbD_and, getLsbD_zero] at h1 ⊢
      revert h1
      cases v.getLsbD i <;> cases b.getLsbD i <;> cases (~~~ pteAD).getLsbD i <;> decide
    · apply eq_of_getLsbD_eq
      intro i hi
      simp only [getLsbD_or, getLsbD_and]
      cases v.getLsbD i <;> simp
  unfold pteUpdated
  split_ifs
  · rw [BitVec.or_assoc]
    exact hor (by decide)
  · exact hor (by decide)

theorem pteUpdated_idem (v : BitVec 64) (kind : FaultKind) :
    pteUpdated (pteUpdated v kind) kind = pteUpdated v kind := by
  have hor : ∀ b : BitVec 64, v ||| b ||| b = v ||| b := fun b => by rw [BitVec.or_assoc, BitVec.or_self]
  unfold pteUpdated
  split_ifs
  · rw [BitVec.or_assoc v, BitVec.or_assoc (v ||| _), hor]
  · exact hor pteA

namespace Maps

variable {entry entry' : BitVec 64 → BitVec 64 → Prop} {addr : BitVec 64} {level l : Nat} {pt v : BitVec 64}

theorem level_lt (h : Maps entry addr level pt l v) : l < level := by
  induction h with
  | leaf _ _ _ => omega
  | next _ _ _ _ ih => omega

theorem mono (h : Maps entry addr level pt l v) (he : ∀ p w, entry p w → entry' p w) :
    Maps entry' addr level pt l v := by
  induction h with
  | leaf hp hv hx => exact .leaf (he _ _ hp) hv hx
  | next hp hv hx _ ih => exact .next (he _ _ hp) hv hx ih

theorem congr (h : Maps entry addr level pt l v) (hl : level ≤ 4)
    (ha : andNot addr (pageMask l) = andNot addr' (pageMask l)) : Maps entry addr' level pt l v := by
  induction h with
  | leaf hp hv hx =>
    rw [shift_of_page (by omega) ha (Nat.le_refl _)] at hp
    exact .leaf hp hv hx
  | next hp hv hx hm ih =>
    have hlt := hm.level_lt
    rw [shift_of_page (by omega) ha (by omega)] at hp
    exact .next hp hv hx (ih (by omega) ha)

theorem grown (h : Maps entry addr level pt l v) (he : ∀ p w, entry p w → ∃ w', entry' p w' ∧ Grown w w') :
    ∃ v', Maps entry' addr level pt l v' ∧ Grown v v' := by
  induction h with
  | leaf hp hv hx =>
    obtain ⟨v', hp', hg⟩ := he _ _ hp
    exact ⟨v', .leaf hp' (fun hi => hv (hg.invalid_iff.2 hi)) (hg.pointer ▸ hx), hg⟩
  | next hp hv hx _ ih =>
    obtain ⟨w', hp', hg⟩ := he _ _ hp
    obtain ⟨v', hm, hv'⟩ := ih
    rw [hg.agrees.ppn] at hm
    exact ⟨v', .next hp' (fun hi => hv (hg.invalid_iff.2 hi)) (hg.pointer ▸ hx) hm, hv'⟩

end Maps

/-! ## Walks -/

/-- the hart's memory holds the entry `v` at `p`: a read gives it and has no effect -/
def Cpu.reads (c : Cpu) (p v : BitVec 64) : Prop := GuestMemory.load64 p c.mem = (.ok v, c.mem)

theorem Cpu.reads.onMem {p v : BitVec 64} (h : c.reads p v) : onMem (GuestMemory.load64 p) c = (.ok v, c) := by
  have hrun : RiscvEmu.onMem (GuestMemory.load64 p) c = ((GuestMemory.load64 p c.mem).1,
    Cpu.setMem (GuestMemory.load64 p c.mem).2 c) := rfl
  rw [hrun, h]
  rfl

theorem walkFrom_of_maps {addr pt v : BitVec 64} {level l : Nat} (h : Maps c.reads addr level pt l v)
    (kind : FaultKind) : ∃ p, c.reads p v ∧ walkFrom addr kind level pt c = walkLeaf addr kind l p v c := by
  induction h with
  | leaf hp hv hx =>
    refine ⟨_, hp, ?_⟩
    rw [walkFrom_succ, bind_of_ok hp.onMem, if_neg (by exact hv), if_neg hx]
  | next hp hv hx _ ih =>
    obtain ⟨p, hr, hw⟩ := ih
    refine ⟨p, hr, ?_⟩
    rw [walkFrom_succ, bind_of_ok hp.onMem, if_neg (by exact hv), if_pos hx, hw]

/-- `e` translates the page of `addr` that the leaf `v` maps at level `l` -/
structure EntryFor (addr : BitVec 64) (l : Nat) (v : BitVec 64) (e : TlbEntry) : Prop where
  mask : e.mask = pageMask l
  tag : e.tag = andNot addr (pageMask l)
  base : e.paddrBase = andNot (ptePpn v <<< 12) (pageMask l)
  perms : e.perms = tlbPerms v
  superpage : ¬ (l > 0 ∧ ptePpn v &&& ((1#64 <<< (9 * l)) - 1) ≠ 0)

theorem EntryFor.grown {addr : BitVec 64} {l : Nat} {v v' : BitVec 64} (h : EntryFor addr l v e)
    (hg : Grown v v') : EntryFor addr l v' e :=
  ⟨h.mask, h.tag, hg.agrees.ppn ▸ h.base, hg.tlbPerms ▸ h.perms, hg.agrees.ppn ▸ h.superpage⟩

theorem EntryFor.offset {l : Nat} {v : BitVec 64} (h : EntryFor addr' l v e)
    (addr : BitVec 64) : e.paddrBase ||| (addr &&& e.mask) = e.paddrBase + (addr &&& e.mask) := by
  rw [add_eq_or_of_and_eq_zero]
  apply eq_of_getLsbD_eq
  intro i hi
  rw [h.base, h.mask]
  simp only [andNot, getLsbD_and, getLsbD_not, getLsbD_zero]
  cases (pageMask l).getLsbD i <;> simp

theorem walkLeaf_of_entryFor {addr : BitVec 64} {l : Nat} {v : BitVec 64}
    (h : EntryFor addr' l v e) (ha : c.accessAllowed e.perms kind = true)
    (hu : pteUpdated v kind = v) (p : BitVec 64) :
    ∃ fill, walkLeaf addr kind l p v c = (.ok (e.paddrBase + (addr &&& e.mask), fill), c) := by
  have hor := h.offset addr
  refine ⟨(c.tlbFill addr (ptePpn v) l (tlbPerms v)).2, ?_⟩
  have hp : ¬ (!(id c).accessAllowed (tlbPerms v) kind) = true := by
    rw [← h.perms]
    simpa using ha
  rw [walkLeaf, gets_bind_run]
  rw [if_neg hp, if_neg (by exact h.superpage), hu]
  have hwb : writeBackPte p v v c = (.ok (), c) := by
    rw [writeBackPte, if_neg (by simp)]
    rfl
  rw [bind_of_ok hwb]
  have hpa : (c.tlbFill addr (ptePpn v) l (tlbPerms v)).1 = e.paddrBase + (addr &&& e.mask) := by
    rw [← hor, h.base, h.mask]
    rfl
  rw [← hpa]
  rfl

end RiscvEmu
