/-
A translated access is the access at the physical address.

A TLB entry says of a whole page whether it may be used directly and whether a device lies in it. `FillsFrom` is what
walks leave in the TLB: entries whose flags are those of the page in the memory and the board as they are. Over such a
TLB `MMU.load` and `MMU.store` do exactly what `GuestMemory.Load` and `Store` do at the address that `lookup` gives,
devices included (`load_physical`, `store_physical`). `MMU.fetch16` and `fetch32` do not: they refuse a page in which
a device lies, though the address itself is plain memory and an untranslated fetch succeeds (`fetch_physical_iff`).
-/
import RiscvEmu.Board.Claim
import RiscvEmu.Board.Windows
import RiscvEmu.Cpu.Translate

namespace RiscvEmu

open Option

open Exec Translation

/-! ## What an access leaves of memory -/

/-- memory of the same size and model, with the same board -/
def SameShape (c c' : Cpu) : Prop := c'.mem.shape = c.mem.shape

/-! ## What a walk fills in -/

theorem tlbFill_of_sameShape {c c' : Cpu} (h : SameShape c c') (addr ppn : BitVec 64) (level : Nat) (perms : BitVec 8) :
    c'.tlbFill addr ppn level perms = c.tlbFill addr ppn level perms := by
  have hshape : ∀ d : Cpu, d.tlbFill addr ppn level perms = (d.setMem d.mem.shape).tlbFill addr ppn level perms := by
    intro d
    unfold Cpu.tlbFill Cpu.canDirectMap
    cases hd : d.mem.mmio with
    | none => simp [Cpu.setMem, GuestMemory.shape, hd, GuestMemory.size, GuestMemory.hostPtr, GuestMemory.mask]
    | some b => simp [Cpu.setMem, GuestMemory.shape, hd, GuestMemory.size, GuestMemory.hostPtr, GuestMemory.mask]
  rw [hshape c', hshape c, h]
  rfl

/-- `e` is an entry that a walk has filled in, for the memory and the board as they are -/
def FilledFrom (c : Cpu) (e : TlbEntry) : Prop :=
  ∃ addr ppn level perms, level < 4 ∧ ppn.toNat < 2 ^ 44 ∧ e = (c.tlbFill addr ppn level perms).2

/-- the valid entries of a TLB are such -/
def Mmu.FillsFrom (mm : Mmu) (c : Cpu) :
    Prop := ∀ kind i, (mm.table kind i).valid = true → FilledFrom c (mm.table kind i)

theorem FilledFrom.sameShape {e : TlbEntry} {c c' : Cpu} (h : FilledFrom c e) (hs : SameShape c c') :
    FilledFrom c' e := by
  obtain ⟨addr, ppn, level, perms, hl, hp, rfl⟩ := h
  exact ⟨addr, ppn, level, perms, hl, hp, by rw [tlbFill_of_sameShape hs]⟩

theorem emptyMmu_fillsFrom (c : Cpu) : Cpu.emptyMmu.FillsFrom c := by
  intro kind i hv
  have hempty : (Cpu.emptyMmu.table kind i).valid = false := by cases kind <;> rfl
  rw [hempty] at hv
  cases hv

theorem Walked.fill {kind : FaultKind} {level : Nat} {c c' : Cpu} {addr pt : BitVec 64} {r : BitVec 64 × TlbEntry}
    (h : Walked addr kind level pt c r c') :
    ∃ ppn l perms, l < level ∧ ppn.toNat < 2 ^ 44 ∧ r = c'.tlbFill addr ppn l perms := by
  induction h with
  | @leaf level _ pte _ _ _ _ _ _ _ _ _ =>
      exact ⟨ptePpn pte, level, tlbPerms pte, by omega, ptePpn_toNat pte ▸ ppn_lt pte, rfl⟩
  | next _ _ _ _ ih =>
    obtain ⟨ppn, l, perms, hl, hp, hfill⟩ := ih
    exact ⟨ppn, l, perms, by omega, hp, hfill⟩

theorem walk_tlbFill {kind : FaultKind} {paddr : BitVec 64} {e : TlbEntry} {c c' : Cpu} {addr : BitVec 64}
    (h : walk addr kind c = (.ok (paddr, e), c')) : FilledFrom c' e ∧ paddr = e.paddrBase ||| (addr &&& e.mask) := by
  obtain ⟨ppn, l, perms, hl, hp, hfill⟩ := (walk_walked h).2.fill
  exact ⟨⟨addr, ppn, l, perms, Nat.lt_of_lt_of_le hl (pageLevels_le _), hp, congrArg Prod.snd hfill⟩, (walk_filled h).2⟩

/-- what a lookup that finds an entry gives: an entry filled in for the memory there is, and the address on its page -/
theorem lookup_fill {kind : FaultKind} {paddr : BitVec 64} {e : TlbEntry} {c c' : Cpu} {mm : Mmu} (hf : mm.FillsFrom c)
    {addr : BitVec 64}
    (h : mm.lookup addr kind c = (.ok (some e, paddr), c')) :
    SameShape c c' ∧ FilledFrom c e ∧
      (paddr = e.paddrBase + (addr &&& e.mask) ∨ paddr = e.paddrBase ||| (addr &&& e.mask)) := by
  rw [lookup_run] at h
  split_ifs at h with hu hhit
  · cases h
  · cases h
    exact ⟨rfl, hf kind (tlbIndex addr) (of_decide_eq_true hhit).1, .inl rfl⟩
  · have hshape : SameShape c _ := walk_shape addr kind c
    rcases hr : walk addr kind c with ⟨f | ⟨p, fill⟩, c''⟩
    · rw [hr] at h
      cases h
    · rw [hr] at h hshape
      obtain ⟨hfill, hp⟩ := walk_tlbFill hr
      cases h
      exact ⟨hshape, hfill.sameShape hshape.symm, .inr hp⟩

/-! ## Pages -/

/-- `e` maps a page of `n` bytes -/
structure PageOf (c : Cpu) (e : TlbEntry) (n : Nat) : Prop where
  size : n ∈ [2 ^ 12, 2 ^ 21, 2 ^ 30, 2 ^ 39]
  mask : e.mask = BitVec.ofNat 64 (n - 1)
  base : e.paddrBase.toNat % n = 0
  bound : e.paddrBase.toNat + n ≤ 2 ^ 56
  direct : e.direct = c.canDirectMap e.paddrBase (BitVec.ofNat 64 n)
  host : e.direct = true → e.hostBase = c.mem.hostPtr e.paddrBase
  mmio : ∀ d, c.mem.mmio = some d → e.mmio = (!e.direct && d.mmioOverlaps e.paddrBase (BitVec.ofNat 64 n))

theorem andNot_pageMask {l : Nat} (hl : l < 4) (x : BitVec 64) :
    (andNot x (pageMask l)).toNat = x.toNat / 2 ^ (12 + 9 * l) * 2 ^ (12 + 9 * l) := by
  have hshift : andNot x (pageMask l) = (x >>> (12 + 9 * l)) <<< (12 + 9 * l) := by
    apply BitVec.eq_of_getLsbD_eq
    intro i hi
    simp only [andNot, BitVec.getLsbD_and, BitVec.getLsbD_not, pageMask_bit hl hi, BitVec.getLsbD_shiftLeft,
      BitVec.getLsbD_ushiftRight, hi, decide_true, Bool.true_and]
    by_cases hlow : i < 12 + 9 * l
    · simp [hlow]
    · simp [hlow, show 12 + 9 * l + (i - (12 + 9 * l)) = i by omega]
  have hle := Nat.div_mul_le_self x.toNat (2 ^ (12 + 9 * l))
  have hlt := x.isLt
  rw [hshift, BitVec.toNat_shiftLeft, BitVec.toNat_ushiftRight, Nat.shiftLeft_eq, Nat.shiftRight_eq_div_pow]
  exact Nat.mod_eq_of_lt (by omega)

theorem FilledFrom.page {e : TlbEntry} {c : Cpu} (h : FilledFrom c e) : ∃ n, PageOf c e n := by
  obtain ⟨addr, ppn, level, perms, hl, hp, rfl⟩ := h
  have hx : (ppn <<< 12).toNat < 2 ^ 56 := by
    rw [BitVec.toNat_shiftLeft, Nat.shiftLeft_eq]
    omega
  have hbase := andNot_pageMask hl (ppn <<< 12)
  have hsizes : ∀ l < 4, 1#64 <<< (12 + 9 * l) = BitVec.ofNat 64 (2 ^ (12 + 9 * l)) := by decide
  have hmasks : ∀ l < 4, 1#64 <<< (12 + 9 * l) - 1 = BitVec.ofNat 64 (2 ^ (12 + 9 * l) - 1) := by decide
  have hsize := hsizes level hl
  refine ⟨2 ^ (12 + 9 * level), ?_, hmasks level hl, ?_, ?_, ?_, ?_, ?_⟩
  · interval_cases level <;> decide
  · change (andNot (ppn <<< 12) (pageMask level)).toNat % _ = 0
    rw [hbase]
    exact Nat.mul_mod_left _ _
  · change (andNot (ppn <<< 12) (pageMask level)).toNat + _ ≤ _
    rw [hbase]
    generalize (ppn <<< 12).toNat = x at hx
    interval_cases level <;> omega
  · rw [← hsize]
    rfl
  · intro hd
    exact if_pos hd
  · intro d hd
    rw [← hsize]
    simp only [Cpu.tlbFill, hd]

theorem PageOf.access {n : Nat} {e : TlbEntry} {c : Cpu} (h : PageOf c e n) {k : Nat}
    (hk : k = 1 ∨ k = 2 ∨ k = 4 ∨ k = 8)
    {addr : BitVec 64} (hal : addr.toNat % k = 0) :
    (e.paddrBase + (addr &&& e.mask)).toNat = e.paddrBase.toNat + addr.toNat % n ∧ addr.toNat % n + k ≤ n ∧
      (e.paddrBase + (addr &&& e.mask)).toNat % k = 0 ∧
        e.paddrBase ||| (addr &&& e.mask) = e.paddrBase + (addr &&& e.mask) := by
  have hb := h.base
  have hbound := h.bound
  have hpow : ∃ j, 12 ≤ j ∧ j ≤ 39 ∧ n = 2 ^ j := by
    have hs := h.size
    simp only [List.mem_cons, List.not_mem_nil, or_false] at hs
    rcases hs with rfl | rfl | rfl | rfl
    · exact ⟨12, by omega, by omega, rfl⟩
    · exact ⟨21, by omega, by omega, rfl⟩
    · exact ⟨30, by omega, by omega, rfl⟩
    · exact ⟨39, by omega, by omega, rfl⟩
  have hoff : (addr &&& e.mask).toNat = addr.toNat % n := by
    obtain ⟨j, -, hj, rfl⟩ := hpow
    have hlt : 2 ^ j - 1 < 2 ^ 64 := by
      have : 2 ^ j ≤ 2 ^ 39 := Nat.pow_le_pow_right (by omega) hj
      omega
    rw [h.mask, BitVec.toNat_and, BitVec.toNat_ofNat, Nat.mod_eq_of_lt hlt, Nat.and_two_pow_sub_one_eq_mod]
  have hn : n = 2 ^ 12 ∨ n = 2 ^ 21 ∨ n = 2 ^ 30 ∨ n = 2 ^ 39 := by simpa using h.size
  have hsum : (e.paddrBase + (addr &&& e.mask)).toNat = e.paddrBase.toNat + addr.toNat % n := by
    have hlt : addr.toNat % n < n := Nat.mod_lt _ (by omega)
    rw [BitVec.toNat_add, hoff]
    omega
  have hor : e.paddrBase ||| (addr &&& e.mask) = e.paddrBase + (addr &&& e.mask) := by
    rw [BitVec.add_eq_or_of_and_eq_zero]
    obtain ⟨j, -, hj, rfl⟩ := hpow
    have hdvd : e.paddrBase.toNat = 2 ^ j * (e.paddrBase.toNat / 2 ^ j) :=
      (Nat.mul_div_cancel' (Nat.dvd_of_mod_eq_zero hb)).symm
    rw [← BitVec.toNat_inj, BitVec.toNat_and, hoff, hdvd]
    apply Nat.eq_of_testBit_eq
    intro i
    rw [Nat.testBit_and, Nat.testBit_two_pow_mul, Nat.testBit_mod_two_pow]
    by_cases hi : i < j
    · simp [show ¬ j ≤ i by omega]
    · simp [hi]
  refine ⟨hsum, ?_, ?_, hor⟩
  · rcases hk with rfl | rfl | rfl | rfl <;> rcases hn with rfl | rfl | rfl | rfl <;> omega
  · rw [hsum]
    rcases hk with rfl | rfl | rfl | rfl <;> rcases hn with rfl | rfl | rfl | rfl <;> omega

/-! ## The machine -/

/-- the place of the device tree; a BIOS machine has more memory than that -/
def defaultBiosFDTAddr : BitVec 64 := 0x88000000

/-- the board `d` has the devices of `b`: it answers the addresses that `b` answers -/
structure BoardState.Behind (b : BoardState) (d : BiosMmio) : Prop where
  overlaps : ∀ p n, d.mmioOverlaps p n = b.mmioOverlaps p n
  load : ∀ l bytes a w, w ≠ 0 → (d.reply l bytes (.load a w) = .pass ↔ (b.load a w).1 = none)
  store : ∀ l bytes a w v m, w ≠ 0 → (d.reply l bytes (.store a w v) = .pass ↔ (b.store a w v m).1 = none)

/-- the memory of a BIOS machine with the devices of `b` -/
structure BiosMemory (b : BoardState) (m : GuestMemory) : Prop where
  overlay : m.accessOverlay = none
  size : defaultBiosFDTAddr.toNat < m.size.toNat
  board : ∃ d, m.mmio = some d ∧ b.Behind d

theorem BiosMemory.of_shape {b : BoardState} {m m' : GuestMemory} (h : BiosMemory b m) (hs : m'.shape = m.shape) :
    BiosMemory b m' := by
  obtain ⟨d, hd, hb⟩ := h.board
  have hov : m'.accessOverlay = m.accessOverlay :=
    show m'.shape.accessOverlay = m.shape.accessOverlay by rw [hs]
  have hsize : m'.size = m.size := show m'.shape.size = m.shape.size by rw [hs]
  have hmmio := congrArg GuestMemory.mmio hs
  simp only [GuestMemory.shape, hd, map_some] at hmmio
  obtain ⟨d', hd', heq⟩ := map_eq_some_iff.1 hmmio
  have hover : d'.mmioOverlaps = d.mmioOverlaps := (BiosMmio.mk.injEq ..).mp heq |>.2.2.1
  have hreply : d'.reply = d.reply := (BiosMmio.mk.injEq ..).mp heq |>.2.1
  refine ⟨hov.trans h.overlay, by rw [hsize]; exact h.size, d', hd', ?_, ?_, ?_⟩
  · rw [hover]
    exact hb.overlaps
  · rw [hreply]
    exact hb.load
  · rw [hreply]
    exact hb.store

section Memory

variable {b : BoardState} {m : GuestMemory} (hm : BiosMemory b m) {p : BitVec 64}

include hm

theorem BiosMemory.precheck (hp : b.InWindow p ∨ p.toNat < m.size.toNat) (w : BitVec 64) (kind : FaultKind) :
    m.precheck p w kind = none := by
  have hlt : p.toNat < m.size.toNat := by
    rcases hp with ⟨win, hwin, hp⟩ | hp
    · have hb := b.windows_bound win hwin
      have hs := hm.size
      have hf : defaultBiosFDTAddr.toNat = 0x88000000 := rfl
      unfold Window.Holds at hp
      omega
    · exact hp
  unfold GuestMemory.precheck GuestMemory.checkAccessOverlay
  rw [GuestMemory.checkSandboxEscape_eq_none_of_lt hlt, hm.overlay]

theorem BiosMemory.mmioLoad_none_iff {w : BitVec 64} (hw : w ≠ 0) :
    m.mmioAccess (.load p w) = none ↔ ¬ b.InWindow p := by
  obtain ⟨d, hd, hb⟩ := hm.board
  rw [← BoardState.load_none_iff hw, ← hb.load d.log m.bytes p w hw]
  unfold GuestMemory.mmioAccess
  rw [hd]
  dsimp only
  cases hr : d.reply d.log m.bytes (.load p w) <;> simp

theorem BiosMemory.mmioStore_none_iff {w : BitVec 64} (hw : w ≠ 0) (v : BitVec 64) :
    m.mmioAccess (.store p w v) = none ↔ ¬ b.InWindow p := by
  obtain ⟨d, hd, hb⟩ := hm.board
  rw [← BoardState.store_none_iff hw v m, ← hb.store d.log m.bytes p w v m hw]
  unfold GuestMemory.mmioAccess
  rw [hd]
  dsimp only
  cases hr : d.reply d.log m.bytes (.store p w v) <;> simp

end Memory

/-- the board has seen the access exactly if the address is a device's -/
def DeviceEffect (b : BoardState) (p : BitVec 64) (a : MmioAccess) (m m' : GuestMemory) : Prop :=
  (b.InWindow p → m'.mmio = m.mmio.map fun d => { d with log := d.log ++ [a] }) ∧ (¬ b.InWindow p → m'.mmio = m.mmio)

theorem mmio_of_mmioAccess {a : MmioAccess} {r : Except MemFault (BitVec 64)} {m m' : GuestMemory}
    (h : m.mmioAccess a = some (r, m')) : m'.mmio = m.mmio.map fun d => { d with log := d.log ++ [a] } := by
  unfold GuestMemory.mmioAccess at h
  cases hd : m.mmio with
  | none =>
    rw [hd] at h
    cases h
  | some d =>
    rw [hd] at h
    dsimp only at h
    cases hr : d.reply d.log m.bytes a with
    | pass =>
      rw [hr] at h
      cases h
    | value v b =>
      rw [hr] at h
      cases h
      rfl
    | fault f b =>
      rw [hr] at h
      cases h
      rfl

theorem load_deviceEffect {w : BitVec 64} {b : BoardState} {m : GuestMemory} (hm : BiosMemory b m) (hw : w ≠ 0)
    (p : BitVec 64) :
    DeviceEffect b p (.load p w) m (GuestMemory.load w p m).2 := by
  unfold GuestMemory.load
  constructor
  · intro hp
    rw [hm.precheck (Or.inl hp)]
    rcases hr : m.mmioAccess (.load p w) with _ | ⟨r, m'⟩
    · exact absurd hp ((hm.mmioLoad_none_iff hw).1 hr)
    · exact mmio_of_mmioAccess hr
  · intro hp
    rw [(hm.mmioLoad_none_iff hw).2 hp]
    cases m.precheck p w .load with
    | some f => rfl
    | none =>
      dsimp only
      split_ifs <;> rfl

theorem store_deviceEffect {w : BitVec 64} {b : BoardState} {m : GuestMemory} (hm : BiosMemory b m) (hw : w ≠ 0)
    (p v : BitVec 64) : DeviceEffect b p (.store p w v) m (GuestMemory.store w p v m).2 := by
  unfold GuestMemory.store
  constructor
  · intro hp
    rw [hm.precheck (Or.inl hp)]
    rcases hr : m.mmioAccess (.store p w v) with _ | ⟨f | r, m'⟩
    · exact absurd hp ((hm.mmioStore_none_iff hw v).1 hr)
    · exact mmio_of_mmioAccess hr
    · exact mmio_of_mmioAccess hr
  · intro hp
    rw [(hm.mmioStore_none_iff hw v).2 hp]
    cases m.precheck p w .store with
    | some f => rfl
    | none =>
      dsimp only
      split_ifs <;> rfl

/-! ## Plain memory -/

theorem width_toNat {k : Nat} (hk : k = 1 ∨ k = 2 ∨ k = 4 ∨ k = 8) : (BitVec.ofNat 64 k).toNat = k := by
  rcases hk with rfl | rfl | rfl | rfl <;> rfl

section Plain

variable {b : BoardState} {m : GuestMemory} (hm : BiosMemory b m) {k : Nat} (hk : k = 1 ∨ k = 2 ∨ k = 4 ∨ k = 8)
  {p : BitVec 64} (hin : p.toNat + k ≤ m.size.toNat) (hal : p.toNat % k = 0)

include hk hin hal in
theorem check_of_aligned : m.check p (BitVec.ofNat 64 k) = 0 := by
  have hs := m.size_le
  rw [GuestMemory.check_eq_zero_iff]
  refine ⟨(and_width_eq_zero_iff hk p).2 hal, by omega, ?_⟩
  rcases hk with rfl | rfl | rfl | rfl <;> bv_omega

include hm hk hin hal in
theorem BiosMemory.load_plain (hout : ¬ b.InWindow p) :
    GuestMemory.load (BitVec.ofNat 64 k) p m = (.ok (m.bytes.readLe p k), m) := by
  have hw : BitVec.ofNat 64 k ≠ 0 := by rcases hk with rfl | rfl | rfl | rfl <;> decide
  unfold GuestMemory.load
  rw [hm.precheck (Or.inr (by omega)), (hm.mmioLoad_none_iff hw).2 hout]
  dsimp only
  rw [if_neg (not_not_intro (check_of_aligned hk hin hal)), GuestMemory.hostPtr_of_lt (by omega), width_toNat hk]

include hm hk hin hal in
theorem BiosMemory.store_plain (hout : ¬ b.InWindow p) (v : BitVec 64) :
    GuestMemory.store (BitVec.ofNat 64 k) p v m = (.ok (), { m with bytes := m.bytes.writeLe p k v }) := by
  have hw : BitVec.ofNat 64 k ≠ 0 := by rcases hk with rfl | rfl | rfl | rfl <;> decide
  unfold GuestMemory.store
  rw [hm.precheck (Or.inr (by omega)), (hm.mmioStore_none_iff hw v).2 hout]
  dsimp only
  rw [if_neg (not_not_intro (check_of_aligned hk hin hal)), GuestMemory.hostPtr_of_lt (by omega), width_toNat hk]

include hm hk hin hal in
theorem BiosMemory.fetch_plain : GuestMemory.fetch (BitVec.ofNat 64 k) p m = (.ok (m.bytes.readLe p k), m) := by
  unfold GuestMemory.fetch GuestMemory.checkAccessOverlay
  rw [hm.overlay]
  dsimp only
  rw [if_neg (not_not_intro (check_of_aligned hk hin hal)), GuestMemory.hostPtr_of_lt (by omega), width_toNat hk]

end Plain

/-! ## Translated accesses -/

theorem PageOf.plain {n : Nat} {e : TlbEntry} {b : BoardState} {c : Cpu} (hm : BiosMemory b c.mem) (h : PageOf c e n)
    (hd : e.direct = true) : e.paddrBase.toNat + n ≤ c.mem.size.toNat ∧
      b.mmioOverlaps e.paddrBase (BitVec.ofNat 64 n) = false ∧ e.hostBase = e.paddrBase := by
  obtain ⟨d, hmmio, hb⟩ := hm.board
  have hn : n = 2 ^ 12 ∨ n = 2 ^ 21 ∨ n = 2 ^ 30 ∨ n = 2 ^ 39 := by simpa using h.size
  have htoNat : (BitVec.ofNat 64 n).toNat = n := by rcases hn with rfl | rfl | rfl | rfl <;> rfl
  have hdirect := h.direct
  rw [hd] at hdirect
  unfold Cpu.canDirectMap at hdirect
  rw [hmmio] at hdirect
  by_cases hout : e.paddrBase > c.mem.size ∨ BitVec.ofNat 64 n > c.mem.size - e.paddrBase
  · rw [if_pos hout] at hdirect
    cases hdirect
  rw [if_neg hout] at hdirect
  rw [not_or] at hout
  obtain ⟨hle, hfits⟩ := hout
  have hle' : e.paddrBase.toNat ≤ c.mem.size.toNat := by
    rw [gt_iff_lt, BitVec.lt_def] at hle
    omega
  have hroom : e.paddrBase.toNat + n ≤ c.mem.size.toNat := by
    rw [gt_iff_lt, BitVec.lt_def, BitVec.toNat_sub_of_le (by rw [BitVec.le_def]; exact hle'), htoNat] at hfits
    omega
  refine ⟨hroom, ?_, ?_⟩
  · rw [← hb.overlaps]
    simpa using hdirect.symm
  · rw [h.host hd, GuestMemory.hostPtr_of_lt (by omega)]

/-- where the access of a page is: inside the slab and outside the devices, if the page is used directly -/
structure OnPage (b : BoardState) (c : Cpu) (e : TlbEntry) (addr p : BitVec 64) (k : Nat) : Prop where
  place : p = e.paddrBase + (addr &&& e.mask)
  aligned : p.toNat % k = 0
  inside : e.direct = true → p.toNat + k ≤ c.mem.size.toNat
  outside : e.direct = true → ¬ b.InWindow p
  host : e.direct = true → e.hostBase + (addr &&& e.mask) = p
  flagged : (e.direct = false → e.mmio = false) ↔ b.mmioOverlaps e.paddrBase (e.mask + 1) = false

theorem PageOf.flagged {n : Nat} {e : TlbEntry} {b : BoardState} {c : Cpu} (hm : BiosMemory b c.mem)
    (h : PageOf c e n) :
    (e.direct = false → e.mmio = false) ↔ b.mmioOverlaps e.paddrBase (e.mask + 1) = false := by
  obtain ⟨d, hmmio, hb⟩ := hm.board
  have hn : n = 2 ^ 12 ∨ n = 2 ^ 21 ∨ n = 2 ^ 30 ∨ n = 2 ^ 39 := by simpa using h.size
  have hsize : e.mask + 1 = BitVec.ofNat 64 n := by
    rw [h.mask]
    rcases hn with rfl | rfl | rfl | rfl <;> rfl
  have hflag := h.mmio d hmmio
  rw [hb.overlaps] at hflag
  rw [hsize]
  cases hd : e.direct with
  | true => exact ⟨fun _ => (h.plain hm hd).2.1, fun _ hno => (nomatch hno)⟩
  | false =>
    rw [hd] at hflag
    rw [hflag]
    exact ⟨fun hno => hno rfl, fun hno _ => hno⟩

theorem lookup_onPage {kind : FaultKind} {e : TlbEntry} {b : BoardState} {c c' : Cpu} (hm : BiosMemory b c.mem)
    {mm : Mmu} (hf : mm.FillsFrom c) {k : Nat}
    (hk : k = 1 ∨ k = 2 ∨ k = 4 ∨ k = 8) {addr p : BitVec 64} (hal : addr.toNat % k = 0)
    (h : mm.lookup addr kind c = (.ok (some e, p), c')) : SameShape c c' ∧ OnPage b c' e addr p k := by
  obtain ⟨hshape, hfill, hp⟩ := lookup_fill hf h
  obtain ⟨n, hpage⟩ := (hfill.sameShape hshape).page
  have hm' : BiosMemory b c'.mem := hm.of_shape hshape
  obtain ⟨hsum, hfits, halign, hor⟩ := hpage.access hk hal
  have hp' : p = e.paddrBase + (addr &&& e.mask) := by
    rcases hp with hp | hp
    · exact hp
    · rw [hp, hor]
  have hbound := hpage.bound
  have hn : n = 2 ^ 12 ∨ n = 2 ^ 21 ∨ n = 2 ^ 30 ∨ n = 2 ^ 39 := by simpa using hpage.size
  have htoNat : (BitVec.ofNat 64 n).toNat = n := by rcases hn with rfl | rfl | rfl | rfl <;> rfl
  refine ⟨hshape, hp', by rw [hp']; exact halign, fun hd => ?_, fun hd => ?_, fun hd => ?_, hpage.flagged hm'⟩
  · have hroom := (hpage.plain hm' hd).1
    rw [hp', hsum]
    omega
  · apply BoardState.not_inWindow_of_range (hpage.plain hm' hd).2.1
    · rw [htoNat]
      omega
    · rw [hp', hsum]
      omega
    · rw [hp', hsum, htoNat]
      omega
  · rw [(hpage.plain hm' hd).2.2, hp']

section Access

variable {b : BoardState} {c c' : Cpu} (hm : BiosMemory b c.mem) {mm : Mmu} (hf : mm.FillsFrom c) {k : Nat}
  (hk : k = 1 ∨ k = 2 ∨ k = 4 ∨ k = 8) {addr p : BitVec 64} (hal : addr.toNat % k = 0) {e : Option TlbEntry}

include hm hf hk hal

theorem load_physical (h : mm.lookup addr .load c = (.ok (e, p), c')) :
    mm.load (BitVec.ofNat 64 k) addr c = onMem (GuestMemory.load (BitVec.ofNat 64 k) p) c' := by
  unfold Mmu.load
  rw [if_neg (not_not_intro ((and_width_eq_zero_iff hk addr).2 hal)), bind_of_ok h]
  rcases e with _ | e
  · rfl
  dsimp only
  by_cases hd : e.direct = true
  · obtain ⟨hshape, hon⟩ := lookup_onPage hm hf hk hal h
    have hm' : BiosMemory b c'.mem := hm.of_shape hshape
    rw [if_pos hd, onMem_run, hm'.load_plain hk (hon.inside hd) hon.aligned (hon.outside hd), hon.host hd,
      width_toNat hk]
    rfl
  · rw [if_neg hd]

theorem store_physical (v : BitVec 64) (h : mm.lookup addr .store c = (.ok (e, p), c')) :
    mm.store (BitVec.ofNat 64 k) addr v c = onMem (GuestMemory.store (BitVec.ofNat 64 k) p v) c' := by
  unfold Mmu.store
  rw [if_neg (not_not_intro ((and_width_eq_zero_iff hk addr).2 hal)), bind_of_ok h]
  rcases e with _ | e
  · rfl
  dsimp only
  by_cases hd : e.direct = true
  · obtain ⟨hshape, hon⟩ := lookup_onPage hm hf hk hal h
    have hm' : BiosMemory b c'.mem := hm.of_shape hshape
    rw [if_pos hd, onMem_run, hm'.store_plain hk (hon.inside hd) hon.aligned (hon.outside hd), hon.host hd,
      width_toNat hk]
    rfl
  · rw [if_neg hd]

theorem fetch_physical_iff (h : mm.lookup addr .fetch c = (.ok (e, p), c')) (hin : p.toNat + k ≤ c'.mem.size.toNat) :
    mm.fetch (BitVec.ofNat 64 k) addr c = (.ok (c'.mem.bytes.readLe p k), c') ↔
      ∀ e', e = some e' → b.mmioOverlaps e'.paddrBase (e'.mask + 1) = false := by
  unfold Mmu.fetch
  rw [if_neg (not_not_intro ((and_width_eq_zero_iff hk addr).2 hal)), bind_of_ok h]
  rcases e with _ | e
  · obtain ⟨rfl, rfl⟩ := lookup_none h
    dsimp only
    rw [onMem_run, hm.fetch_plain hk hin hal]
    exact ⟨fun _ e' he => (nomatch he), fun _ => rfl⟩
  · obtain ⟨hshape, hon⟩ := lookup_onPage hm hf hk hal h
    have hm' : BiosMemory b c'.mem := hm.of_shape hshape
    have hiff : (∀ e', some e = some e' → b.mmioOverlaps e'.paddrBase (e'.mask + 1) = false) ↔
        (e.direct = false → e.mmio = false) := by
      rw [hon.flagged]
      exact ⟨fun hno => hno e rfl, fun hno e' he => by cases he; exact hno⟩
    rw [hiff]
    dsimp only
    by_cases hd : e.direct = true
    · rw [if_pos hd, hon.host hd, width_toNat hk, hd]
      exact ⟨fun _ hno => (nomatch hno), fun _ => rfl⟩
    rw [if_neg hd]
    by_cases hmmio : e.mmio = true
    · rw [if_pos hmmio]
      refine ⟨fun hrun => (nomatch hrun), fun hno => ?_⟩
      rw [hno (by simpa using hd)] at hmmio
      cases hmmio
    · rw [if_neg hmmio, onMem_run, hm'.fetch_plain hk hin hon.aligned]
      exact ⟨fun _ _ => by simpa using hmmio, fun _ => rfl⟩

end Access

/-- with the physical address that `lookup` gives, a load or a store is the one of guest memory there, and the board
sees it exactly if the address is a device's; a fetch from plain memory gives its bytes -/
def AsPhysical (b : BoardState) (mm : Mmu) (acc : Access) (k : Nat) (addr v : BitVec 64) (c : Cpu) : Prop :=
  ∀ e p c', mm.lookup addr acc.kind c = (.ok (e, p), c') →
    match acc with
    | .load =>
      mm.load (BitVec.ofNat 64 k) addr c = onMem (GuestMemory.load (BitVec.ofNat 64 k) p) c' ∧
        DeviceEffect b p (.load p (BitVec.ofNat 64 k)) c'.mem (mm.load (BitVec.ofNat 64 k) addr c).2.mem
    | .store =>
      mm.store (BitVec.ofNat 64 k) addr v c = onMem (GuestMemory.store (BitVec.ofNat 64 k) p v) c' ∧
        DeviceEffect b p (.store p (BitVec.ofNat 64 k) v) c'.mem (mm.store (BitVec.ofNat 64 k) addr v c).2.mem
    | .fetch =>
      p.toNat + k ≤ c'.mem.size.toNat → ¬ b.InWindow p →
        mm.fetch (BitVec.ofNat 64 k) addr c = (.ok (c'.mem.bytes.readLe p k), c')

/-- no device lies in the page from which plain memory is fetched -/
def FetchPageClear (b : BoardState) (mm : Mmu) (k : Nat) (addr : BitVec 64) (c : Cpu) : Prop :=
  ∀ e p c', mm.lookup addr .fetch c = (.ok (some e, p), c') → p.toNat + k ≤ c'.mem.size.toNat → ¬ b.InWindow p →
    b.mmioOverlaps e.paddrBase (e.mask + 1) = false

/-- **Translated accesses.**  Over a TLB that walks have filled, every aligned load and store is the physical one, and a
fetch is exactly when no device lies in the page. -/
theorem as_physical_iff (b : BoardState) (c : Cpu) (mm : Mmu) (acc : Access) (k : Nat) (addr v : BitVec 64)
    (hm : BiosMemory b c.mem) (hf : mm.FillsFrom c) (hk : k = 1 ∨ k = 2 ∨ k = 4 ∨ k = 8) (hal : addr.toNat % k = 0) :
    AsPhysical b mm acc k addr v c ↔ (acc = .fetch → FetchPageClear b mm k addr c) := by
  have hw : BitVec.ofNat 64 k ≠ 0 := by rcases hk with rfl | rfl | rfl | rfl <;> decide
  have hshape : ∀ {kind e p c'}, mm.lookup addr kind c = (.ok (e, p), c') → BiosMemory b c'.mem := by
    intro kind e p c' h
    rcases e with _ | e
    · obtain ⟨-, rfl⟩ := lookup_none h
      exact hm
    · exact hm.of_shape (lookup_fill hf h).1
  cases acc with
  | load =>
    refine ⟨fun _ h => (nomatch h), fun _ e p c' h => ?_⟩
    have hload := load_physical hm hf hk hal h
    refine ⟨hload, ?_⟩
    rw [hload, onMem_run]
    exact load_deviceEffect (hshape h) hw p
  | store =>
    refine ⟨fun _ h => (nomatch h), fun _ e p c' h => ?_⟩
    have hstore := store_physical hm hf hk hal v h
    refine ⟨hstore, ?_⟩
    rw [hstore, onMem_run]
    exact store_deviceEffect (hshape h) hw p v
  | fetch =>
    constructor
    · intro hphys _ e p c' h hin hout
      exact (fetch_physical_iff hm hf hk hal h hin).1 (hphys (some e) p c' h hin hout) e rfl
    · intro hclear e p c' h hin hout
      refine (fetch_physical_iff hm hf hk hal h hin).2 fun e' he => ?_
      subst he
      exact hclear rfl e' p c' h hin hout

/-- a board with the devices of `b` that gives zeros -/
def zeroBoard (b : BoardState) : BiosMmio :=
  { log := []
    reply := fun _ bytes a => match a with
      | .load addr w => if b.touches addr w then .value 0 bytes else .pass
      | .store addr w _ => if b.touches addr w then .value 0 bytes else .pass
      | _ => .pass
    fault_kind := by
      intro l bytes a f bytes' h
      cases a <;> simp only [reduceCtorEq] at h <;> split_ifs at h
    mmioOverlaps := b.mmioOverlaps
    machineTimerValue := fun _ => 0 }

theorem zeroBoard_behind (b : BoardState) : b.Behind (zeroBoard b) := by
  refine ⟨fun _ _ => rfl, fun l bytes a w hw => ?_, fun l bytes a w v m hw => ?_⟩
  · rw [BoardState.load_none_iff hw, ← BoardState.touches_iff hw]
    change (if b.touches a w then MmioReply.value 0 bytes else .pass) = .pass ↔ _
    split_ifs with h <;> simp [h]
  · rw [BoardState.store_none_iff hw, ← BoardState.touches_iff hw]
    change (if b.touches a w then MmioReply.value 0 bytes else .pass) = .pass ↔ _
    split_ifs with h <;> simp [h]

/-- the board of a machine without host files and network -/
def smallBoard : BoardState := .newBiosMmio false false none none

/-- a BIOS machine of 4 GiB in user mode whose tables map the lowest 2 MiB to itself -/
def biosTables : Cpu :=
  let m := GuestMemory.newGuestMemoryWithModel 32 .sandbox true
  { newCPU { m with
      bytes := (Bytes.writeLe (fun _ => 0) 0x1000 8 0x801).writeLe 0x2000 8 lowSuperpage
      mmio := some (zeroBoard smallBoard) } with
    mmu := some Cpu.emptyMmu, satp := (satpModeSv39 <<< 60) ||| 1 }

theorem biosTables_memory : BiosMemory smallBoard biosTables.mem :=
  ⟨rfl, by decide, zeroBoard smallBoard, rfl, zeroBoard_behind smallBoard⟩

/-- a load on the page is the physical one -/
theorem as_physical_load : AsPhysical smallBoard Cpu.emptyMmu .load 8 0x100000 0 biosTables :=
  (as_physical_iff smallBoard biosTables Cpu.emptyMmu .load 8 0x100000 0 biosTables_memory (emptyMmu_fillsFrom _)
    (by decide) (by decide)).2 fun h => (nomatch h)

/-- the first instruction of the page cannot be fetched, for the sake of the device a MiB further up -/
theorem fetch_refused_by_page : ∃ (b : BoardState) (c : Cpu) (mm : Mmu), BiosMemory b c.mem ∧ mm.FillsFrom c ∧
    (∃ e c', mm.lookup 0 .fetch c = (.ok (some e, 0), c') ∧ (mm.fetch 2 0 c).1 = .error ⟨0, 2, .fetch⟩) ∧
    ¬ b.InWindow 0 ∧ ¬ AsPhysical b mm .fetch 2 0 0 c := by
  refine ⟨smallBoard, biosTables, Cpu.emptyMmu, biosTables_memory, emptyMmu_fillsFrom _, ?_⟩
  have hfind : (Cpu.emptyMmu.lookup 0 .fetch biosTables).1.toOption.map
      (fun r => (r.1.map fun e => (e.paddrBase, e.mask), r.2)) = some (some (0, 0x1FFFFF), 0) := by decide +kernel
  have hrefused : (Cpu.emptyMmu.fetch 2 0 biosTables).1 = .error ⟨0, 2, .fetch⟩ := by decide +kernel
  have hout : ¬ smallBoard.InWindow 0 := by
    rw [← BoardState.touches_iff (show (1 : BitVec 64) ≠ 0 by decide)]
    decide
  rcases hr : Cpu.emptyMmu.lookup 0 .fetch biosTables with ⟨f | ⟨e, p⟩, c'⟩
  · rw [hr] at hfind
    cases hfind
  rw [hr] at hfind
  obtain ⟨he, rfl⟩ := Prod.mk.inj (some.inj hfind)
  obtain ⟨e, rfl, -⟩ := map_eq_some_iff.1 he
  refine ⟨⟨e, c', rfl, hrefused⟩, hout, fun hphys => ?_⟩
  have hsize := (biosTables_memory.of_shape (lookup_fill (emptyMmu_fillsFrom _) hr).1).size
  have hrun := hphys (some e) 0 c' hr (by
    have hf : defaultBiosFDTAddr.toNat = 0x88000000 := rfl
    have hzero : (0 : BitVec 64).toNat = 0 := rfl
    omega) hout
  change Cpu.emptyMmu.fetch 2 0 biosTables = _ at hrun
  rw [hrun] at hrefused
  cases hrefused

end RiscvEmu
