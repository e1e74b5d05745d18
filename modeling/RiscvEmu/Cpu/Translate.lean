/-
The page walk against the privileged specification.

`walk_search` says what `MMU.walk` does for every table content: it is the specification's search without the rule
that U, A and D are reserved in an entry that points to a further table, made with the privilege that
`memoryPrivilege` gives. So it follows a pointer that has one of these bits set, where a page fault is due; and MPRV
changes the privilege of its loads and stores in machine mode only. `walk_translates_iff` says that nothing else sets
it apart from the specification: where both make the access in one mode, the walk is right exactly if the leaf refuses
the access or no pointer on the way has such a bit set.
-/
import RiscvEmu.Cpu.Mapping
import RiscvEmu.Cpu.Parts
import RiscvEmu.Lib.Bits
import RiscvEmu.Lib.Translation

namespace RiscvEmu

open Exec Translation BitField

/-- the fault kind that stands for an access -/
def Translation.Access.kind : Access → FaultKind
  | .load => .load
  | .store => .store
  | .fetch => .fetch

/-! ## The specification's view of the hart -/

def modeOf (priv : PrivilegeMode) : Mode :=
  if priv = privUser then .user else if priv = privSupervisor then .supervisor else .machine

namespace Cpu

variable (c : Cpu)

/-- the mode that MPP holds; the reserved value 2 is read as user mode, as the hart does -/
def previousMode : Mode :=
  match c.mstatus.extractLsb' 11 2 with
  | 1#2 => .supervisor
  | 3#2 => .machine
  | _ => .user

/-- the effective mode of the specification: with MPRV set, loads and stores are made as though the mode were MPP -/
def effectiveMode (acc : Access) : Mode :=
  if acc ≠ .fetch ∧ c.mstatus.getLsbD 17 = true then c.previousMode else modeOf c.priv

/-- hart and specification make the access in one mode: MPRV does not apply to it or is clear, the hart is in machine
mode, or MPP holds its own mode -/
def OneMode (acc : Access) : Prop :=
  acc = .fetch ∨ c.mstatus.getLsbD 17 = false ∨ c.priv = privMachine ∨ c.previousMode = modeOf c.priv

def context (mode : Mode) : Context := { mode := mode, sum := c.mstatus.getLsbD 18, mxr := c.mstatus.getLsbD 19 }

/-- the specification's permission check of a leaf -/
def permits (acc : Access) : Pte → Bool := (c.context (c.effectiveMode acc)).allows acc

/-- the same with the privilege that `memoryPrivilege` gives -/
def walkPermits (acc : Access) : Pte → Bool := (c.context (modeOf (c.memoryPrivilege acc.kind))).allows acc

def tableWord (p : Nat) : BitVec 64 := c.mem.bytes.readLe (BitVec.ofNat 64 p) 8

def rootTable : Nat := c.satp.toNat % 2 ^ 44 * 2 ^ 12

/-- the translation of the specification -/
def translate (acc : Access) (va : BitVec 64) : Option Leaf :=
  Translation.translate c.tableWord Pte.marked (c.permits acc) va (pageLevels c.satp) c.rootTable

/-- the entry at `p` lies in memory: inside the slab and not in its guard page, and neither a device nor an overlay
answers for it -/
structure EntryInMemory (p : Nat) : Prop where
  bound : p + 8 ≤ c.mem.size.toNat
  unguarded : c.mem.touchesGuard (BitVec.ofNat 64 p) 8 = false
  overlay : ∀ kind, c.mem.checkAccessOverlay (BitVec.ofNat 64 p) 8 kind = none
  load : c.mem.mmioAccess (.load (BitVec.ofNat 64 p) 8) = none
  store : ∀ v, c.mem.mmioAccess (.store (BitVec.ofNat 64 p) 8 v) = none

/-- the entries that the walk of `va` reads lie in memory and have bits 63..54 clear -/
def TablesInMemory (va : BitVec 64) : Prop :=
  ∀ p, Visits c.tableWord va (pageLevels c.satp) c.rootTable p →
    c.EntryInMemory p ∧ (Pte.ofWord (c.tableWord p)).high = 0

/-- the hart after a walk that has ended at the leaf `l` -/
def afterWalk (acc : Access) (l : Leaf) : Cpu :=
  c.setMem { c.mem with bytes := c.mem.bytes.writeLe (BitVec.ofNat 64 l.addr) 8 (l.touched acc) }

end Cpu

/-- a walk gives what the translation says: the physical address, with nothing changed but A (and D) in the leaf entry;
or a page fault with the original address, and nothing changed -/
def Gives (c : Cpu) (acc : Access) (va : BitVec 64) (run : Except MemFault (BitVec 64 × TlbEntry) × Cpu) :
    Option Leaf → Prop
  | none => run = (.error (pageFault va acc.kind), c)
  | some l => ∃ e, run = (.ok (BitVec.ofNat 64 (l.pa va), e), c.afterWalk acc l)

/-! ## Fields of an entry -/

section Fields

variable (w : BitVec 64)

theorem pteV_iff : w &&& pteV = 0 ↔ (Pte.ofWord w).v = false := and_one_shift_eq_zero_iff w (by omega)

theorem pteR_iff : w &&& pteR = 0 ↔ (Pte.ofWord w).r = false := and_one_shift_eq_zero_iff w (by omega)

theorem pteW_iff : w &&& pteW = 0 ↔ (Pte.ofWord w).w = false := and_one_shift_eq_zero_iff w (by omega)

theorem pteX_iff : w &&& pteX = 0 ↔ (Pte.ofWord w).x = false := and_one_shift_eq_zero_iff w (by omega)

theorem pteU_iff : w &&& pteU = 0 ↔ (Pte.ofWord w).u = false := and_one_shift_eq_zero_iff w (by omega)

theorem pteInvalid_iff (h : (Pte.ofWord w).high = 0) : pteInvalid w ↔ (Pte.ofWord w).invalid = true := by
  unfold pteInvalid Pte.invalid
  rw [pteV_iff, pteR_iff, ne_eq, pteW_iff, h]
  cases (Pte.ofWord w).v <;> cases (Pte.ofWord w).r <;> cases (Pte.ofWord w).w <;> decide

theorem pointer_iff_not_isLeaf : w &&& (pteR ||| pteX) = 0 ↔ (Pte.ofWord w).isLeaf = false := by
  have hboth : (w &&& pteR) ||| (w &&& pteX) = 0 ↔ w &&& pteR = 0 ∧ w &&& pteX = 0 := BitVec.or_eq_zero_iff
  rw [BitVec.and_or_distrib_left, hboth, pteR_iff, pteX_iff]
  unfold Pte.isLeaf
  cases (Pte.ofWord w).r <;> cases (Pte.ofWord w).x <;> decide

theorem ptePpn_toNat : (ptePpn w).toNat = (Pte.ofWord w).ppn := by
  have hmask : ((1#64 <<< 44) - 1).toNat = 2 ^ 44 - 1 := by decide
  rw [ptePpn, BitVec.toNat_and, hmask, Nat.and_two_pow_sub_one_eq_mod, BitVec.toNat_ushiftRight,
    Nat.shiftRight_eq_div_pow]
  rfl

theorem ppn_lt : (Pte.ofWord w).ppn < 2 ^ 44 := Nat.mod_lt _ (by decide)

theorem nextTable_toNat : (ptePpn w <<< 12).toNat = (Pte.ofWord w).ppn * 2 ^ 12 := by
  have hlt := ppn_lt w
  rw [BitVec.toNat_shiftLeft, ptePpn_toNat, Nat.shiftLeft_eq]
  omega

theorem tlbPerms_bits : (tlbPerms w &&& tlbR = 0 ↔ (Pte.ofWord w).r = false) ∧
    (tlbPerms w &&& tlbW = 0 ↔ (Pte.ofWord w).w = false) ∧ (tlbPerms w &&& tlbX = 0 ↔ (Pte.ofWord w).x = false) ∧
      (tlbPerms w &&& tlbU = 0 ↔ (Pte.ofWord w).u = false) := by
  rw [← pteR_iff, ← pteW_iff, ← pteX_iff, ← pteU_iff]
  unfold tlbPerms
  by_cases hr : w &&& pteR = 0 <;> by_cases hw : w &&& pteW = 0 <;> by_cases hx : w &&& pteX = 0 <;>
    by_cases hu : w &&& pteU = 0 <;> simp only [hr, hw, hx, hu, ne_eq, not_true_eq_false, not_false_eq_true, if_true,
      if_false] <;> decide

end Fields

/-- a permission check of the hart is that of the specification at the privilege the hart takes -/
theorem accessAllowed_eq (c : Cpu) (acc : Access) (w : BitVec 64) :
    c.accessAllowed (tlbPerms w) acc.kind = c.walkPermits acc (Pte.ofWord w) := by
  obtain ⟨hr, hw, hx, hu⟩ := tlbPerms_bits w
  have hsum : c.mstatus &&& statusSUM = 0 ↔ c.mstatus.getLsbD 18 = false := and_one_shift_eq_zero_iff _ (by omega)
  have hmxr : c.mstatus &&& statusMXR = 0 ↔ c.mstatus.getLsbD 19 = false := and_one_shift_eq_zero_iff _ (by omega)
  unfold Cpu.accessAllowed Cpu.walkPermits Cpu.context Context.allows Context.reaches Context.grants modeOf
  simp only [ne_eq, hr, hw, hx, hu, hsum, hmxr]
  generalize c.memoryPrivilege acc.kind = priv
  generalize Pte.ofWord w = pte
  by_cases hpu : priv = privUser
  · subst hpu
    cases acc <;> cases pte.u <;> simp [Access.kind, privUser, privSupervisor]
  by_cases hps : priv = privSupervisor
  · subst hps
    cases acc <;> cases pte.u <;> cases c.mstatus.getLsbD 18 <;> simp [Access.kind, privUser, privSupervisor]
  · cases acc <;> simp [Access.kind, hpu, hps]

/-! ## Addresses -/

theorem shr_eq_iff (va v : BitVec 64) (n : Nat) : va >>> n = v ↔ va.toNat / 2 ^ n = v.toNat := by
  rw [← BitVec.toNat_inj, BitVec.toNat_ushiftRight, Nat.shiftRight_eq_div_pow]

theorem shr_and_one_eq_zero_iff (va : BitVec 64) (n : Nat) : va >>> n &&& 1 = 0 ↔ va.toNat / 2 ^ n % 2 = 0 := by
  have hone : (1 : BitVec 64).toNat = 2 ^ 1 - 1 := by decide
  rw [← BitVec.toNat_inj, BitVec.toNat_and, hone, Nat.and_two_pow_sub_one_eq_mod, BitVec.toNat_ushiftRight,
    Nat.shiftRight_eq_div_pow]
  rfl

theorem canonicalVA_iff (satp va : BitVec 64) (h : satpMode satp = satpModeSv39 ∨ satpMode satp = satpModeSv48) :
    canonicalVA va (pageLevels satp) = true ↔ Canonical (pageLevels satp) va := by
  have hne : satpModeSv48 ≠ satpModeSv39 := by decide
  have hlt := va.isLt
  unfold pageLevels Canonical
  rcases h with h | h
  · have hones : ((1#64 <<< 25) - 1).toNat = 2 ^ 25 - 1 := by decide
    have hzero : (0 : BitVec 64).toNat = 0 := rfl
    rw [if_pos h, canonicalVA, BitVec.toInt_eq_toNat_cond]
    simp only [shr_eq_iff, shr_and_one_eq_zero_iff, hones, hzero]
    split_ifs <;> simp only [decide_eq_true_eq] <;> omega
  · have hones : ((1#64 <<< 16) - 1).toNat = 2 ^ 16 - 1 := by decide
    have hzero : (0 : BitVec 64).toNat = 0 := rfl
    rw [if_neg (by rw [h]; exact hne), if_pos h, canonicalVA, BitVec.toInt_eq_toNat_cond]
    simp only [shr_eq_iff, shr_and_one_eq_zero_iff, hones, hzero]
    split_ifs <;> simp only [decide_eq_true_eq] <;> omega

theorem pteAddr_toNat {pt : BitVec 64} (h : pt.toNat < 2 ^ 56) (va : BitVec 64) (i : Nat) :
    (pteAddr pt (va >>> (12 + 9 * i))).toNat = entryAddr va i pt.toNat := by
  have hmask : (0x1ff : BitVec 64).toNat = 2 ^ 9 - 1 := by decide
  have hidx : ((va >>> (12 + 9 * i)) &&& 0x1ff).toNat = vpn va i := by
    rw [BitVec.toNat_and, hmask, Nat.and_two_pow_sub_one_eq_mod, BitVec.toNat_ushiftRight, Nat.shiftRight_eq_div_pow]
    rfl
  have hlt : vpn va i < 2 ^ 9 := Nat.mod_lt _ (by decide)
  rw [pteAddr, BitVec.toNat_add, BitVec.toNat_mul, hidx, entryAddr, show (8 : BitVec 64).toNat = 8 by decide]
  omega

/-- the address a leaf gives: the page's own bits from the virtual address, those above from the entry -/
theorem leaf_paddr (c : Cpu) (va : BitVec 64) (l : Leaf) (hl : l.level < 4) (perms : BitVec 8) :
    (c.tlbFill va (ptePpn l.entry) l.level perms).1 = BitVec.ofNat 64 (l.pa va) := by
  have hfst : (c.tlbFill va (ptePpn l.entry) l.level perms).1 =
    andNot (ptePpn l.entry <<< 12) (pageMask l.level) ||| (va &&& pageMask l.level) := rfl
  have hmod : va.toNat % 2 ^ (12 + 9 * l.level) < 2 ^ (12 + 9 * l.level) := Nat.mod_lt _ (Nat.two_pow_pos _)
  rw [hfst]
  apply BitVec.eq_of_getLsbD_eq
  intro i hi
  rw [Leaf.pa, Nat.mul_comm, BitVec.getLsbD_ofNat, Nat.testBit_two_pow_mul_add _ hmod]
  simp only [andNot, BitVec.getLsbD_or, BitVec.getLsbD_and, BitVec.getLsbD_not, pageMask_bit hl hi, hi, decide_true,
    Bool.true_and]
  by_cases hlow : i < 12 + 9 * l.level
  · simp [hlow, BitVec.testBit_toNat]
  · have hshift : (ptePpn l.entry <<< 12).getLsbD i = l.pte.ppn.testBit (i - 12) := by
      rw [Leaf.pte, ← ptePpn_toNat, BitVec.getLsbD_shiftLeft, BitVec.testBit_toNat]
      simp [hi, show ¬ i < 12 by omega]
    rw [hshift]
    simp [hlow, Nat.testBit_div_two_pow, show i - (12 + 9 * l.level) + 9 * l.level = i - 12 by omega]

/-! ## Reading and writing entries -/

namespace Cpu.EntryInMemory

variable {c : Cpu} {p : Nat}

theorem toNat (h : c.EntryInMemory p) : (BitVec.ofNat 64 p).toNat = p := by
  have hb := h.bound
  have hs := c.mem.size_le
  rw [BitVec.toNat_ofNat]
  omega

theorem lt (h : c.EntryInMemory p) : (BitVec.ofNat 64 p).toNat < c.mem.size.toNat := by
  have hb := h.bound
  rw [h.toNat]
  omega

theorem precheck (h : c.EntryInMemory p) (kind : FaultKind) : c.mem.precheck (BitVec.ofNat 64 p) 8 kind = none := by
  unfold GuestMemory.precheck
  rw [GuestMemory.checkSandboxEscape_eq_none_of_lt h.lt]
  exact h.overlay kind

theorem check (h : c.EntryInMemory p) (hal : p % 8 = 0) : c.mem.check (BitVec.ofNat 64 p) 8 = 0 := by
  have hb := h.bound
  have hs := c.mem.size_le
  rw [GuestMemory.check_eq_zero_iff]
  refine ⟨and_seven_eq_zero (by rw [h.toNat, hal]), h.lt, ?_⟩
  have hlast : (BitVec.ofNat 64 p + 8 - 1).toNat = p + 7 := by
    have := h.toNat
    bv_omega
  rw [hlast]
  omega

theorem reads (h : c.EntryInMemory p) (hal : p % 8 = 0) : c.reads (BitVec.ofNat 64 p) (c.tableWord p) := by
  unfold Cpu.reads GuestMemory.load64 GuestMemory.load
  rw [h.precheck, h.load]
  dsimp only
  rw [if_neg (not_not_intro (h.check hal)), GuestMemory.hostPtr_of_lt h.lt]
  rfl

theorem writes (h : c.EntryInMemory p) (hal : p % 8 = 0) (v : BitVec 64) :
    onMem (GuestMemory.store64 (BitVec.ofNat 64 p) v) c =
      (.ok (), c.setMem { c.mem with bytes := c.mem.bytes.writeLe (BitVec.ofNat 64 p) 8 v }) := by
  have hrun : GuestMemory.store64 (BitVec.ofNat 64 p) v c.mem =
      (.ok (), { c.mem with bytes := c.mem.bytes.writeLe (BitVec.ofNat 64 p) 8 v }) := by
    unfold GuestMemory.store64 GuestMemory.store
    rw [h.precheck, h.store]
    dsimp only
    rw [if_neg (not_not_intro (h.check hal)), GuestMemory.hostPtr_of_lt h.lt]
    rfl
  have honMem : onMem (GuestMemory.store64 (BitVec.ofNat 64 p) v) c =
    ((GuestMemory.store64 (BitVec.ofNat 64 p) v c.mem).1,
      Cpu.setMem (GuestMemory.store64 (BitVec.ofNat 64 p) v c.mem).2 c) := rfl
  rw [honMem, hrun]

end Cpu.EntryInMemory

/-! ## The walk is a search -/

theorem pteUpdated_eq (acc : Access) (l : Leaf) : pteUpdated l.entry acc.kind = l.touched acc := by
  cases acc <;> rfl

theorem writeBackPte_run {c : Cpu} {l : Leaf} (acc : Access) (h : c.EntryInMemory l.addr) (hal : l.addr % 8 = 0)
    (hw : l.entry = c.tableWord l.addr) :
    writeBackPte (BitVec.ofNat 64 l.addr) l.entry (pteUpdated l.entry acc.kind) c = (.ok (), c.afterWalk acc l) := by
  rw [writeBackPte, pteUpdated_eq]
  by_cases hne : l.touched acc ≠ l.entry
  · rw [if_pos hne]
    exact h.writes hal _
  · rw [if_neg hne]
    rw [not_not] at hne
    have hsame : c.mem.bytes.writeLe (BitVec.ofNat 64 l.addr) 8 (l.touched acc) = c.mem.bytes := by
      rw [hne, hw, Cpu.tableWord, Bytes.writeLe_readLe _ _ (by omega)]
    rw [Cpu.afterWalk, hsame]
    rfl

theorem misaligned_iff (l : Leaf) (hl : l.level < 4) :
    (l.level > 0 ∧ ptePpn l.entry &&& ((1#64 <<< (9 * l.level)) - 1) ≠ 0) ↔ ¬ l.Aligned := by
  have hmasks : ∀ n < 4, ((1#64 <<< (9 * n)) - 1).toNat = 2 ^ (9 * n) - 1 := by decide
  have hmask := hmasks l.level hl
  have hand : ptePpn l.entry &&& ((1#64 <<< (9 * l.level)) - 1) = 0 ↔ l.Aligned := by
    rw [← BitVec.toNat_inj, BitVec.toNat_and, hmask, Nat.and_two_pow_sub_one_eq_mod, ptePpn_toNat]
    exact .rfl
  rw [ne_eq, hand, and_iff_right_iff_imp]
  intro h
  by_contra h0
  apply h
  rw [Leaf.Aligned, show l.level = 0 by omega]
  omega

theorem walkLeaf_gives {c : Cpu} {l : Leaf} (acc : Access) (va : BitVec 64) (hl : l.level < 4)
    (h : c.EntryInMemory l.addr) (hal : l.addr % 8 = 0) (hw : l.entry = c.tableWord l.addr) :
    Gives c acc va (walkLeaf va acc.kind l.level (BitVec.ofNat 64 l.addr) l.entry c)
      (if c.walkPermits acc l.pte = true ∧ l.Aligned then some l else none) := by
  rw [walkLeaf, gets_bind_run]
  by_cases hp : c.walkPermits acc l.pte = true
  · have hacc : ¬ (!(id c).accessAllowed (tlbPerms l.entry) acc.kind) = true := by
      rw [id, accessAllowed_eq, ← Leaf.pte, hp]
      decide
    rw [if_neg hacc]
    by_cases hs : l.Aligned
    · rw [if_neg (by exact mt (misaligned_iff l hl).1 (not_not_intro hs)), if_pos ⟨hp, hs⟩,
        bind_of_ok (writeBackPte_run acc h hal hw)]
      refine ⟨((c.afterWalk acc l).tlbFill va (ptePpn l.entry) l.level (tlbPerms l.entry)).2, ?_⟩
      rw [← leaf_paddr (c.afterWalk acc l) va l hl (tlbPerms l.entry)]
      rfl
    · rw [if_pos (by exact (misaligned_iff l hl).2 hs), if_neg (fun h => hs h.2)]
      rfl
  · have hacc : (!(id c).accessAllowed (tlbPerms l.entry) acc.kind) = true := by
      rw [id, accessAllowed_eq, ← Leaf.pte]
      simpa using hp
    rw [if_pos hacc, if_neg (fun h => hp h.1)]
    rfl

theorem walkFrom_gives {c : Cpu} (acc : Access) (va : BitVec 64) {level : Nat} (hl : level ≤ 4) {pt : BitVec 64}
    (hpt : pt.toNat < 2 ^ 56) (hpa : pt.toNat % 8 = 0)
    (hv : ∀ p, Visits c.tableWord va level pt.toNat p → c.EntryInMemory p ∧ (Pte.ofWord (c.tableWord p)).high = 0) :
    Gives c acc va (walkFrom va acc.kind level pt c)
      (search c.tableWord (fun _ => false) (c.walkPermits acc) va level pt.toNat) := by
  induction level generalizing pt with
  | zero => rfl
  | succ level ih =>
    obtain ⟨hmem, hhigh⟩ := hv _ .here
    have haddr : pteAddr pt (va >>> (12 + 9 * level)) = BitVec.ofNat 64 (entryAddr va level pt.toNat) := by
      rw [← pteAddr_toNat hpt, BitVec.ofNat_toNat, BitVec.setWidth_eq]
    have hal : entryAddr va level pt.toNat % 8 = 0 := by
      unfold entryAddr
      omega
    generalize hleaf : leafAt c.tableWord va level pt.toNat = l
    have hlv : l.level = level := by rw [← hleaf]; rfl
    have hla : l.addr = entryAddr va level pt.toNat := by rw [← hleaf]; rfl
    have hlw : l.entry = c.tableWord l.addr := by rw [← hleaf]; rfl
    rw [← hla] at hmem hhigh haddr hal
    rw [← hlw] at hhigh
    rw [walkFrom_succ, haddr, bind_of_ok (hmem.reads hal).onMem, ← hlw]
    rcases hinv : l.pte.invalid with _ | _
    · rw [if_neg (by exact mt (pteInvalid_iff _ hhigh).1 (by rw [← Leaf.pte, hinv]; decide))]
      rcases hx : l.pte.isLeaf with _ | _
      · have hppn := ppn_lt l.entry
        have hnext := nextTable_toNat l.entry
        rw [if_pos ((pointer_iff_not_isLeaf _).2 hx),
          search_of_pointer (by rw [hleaf, hinv]) (by rw [hleaf, hx]) rfl, hleaf, Leaf.pte, ← hnext]
        apply ih (by omega) (by omega) (by omega)
        intro p hp
        rw [hnext] at hp
        exact hv p (.next (by rw [Leaf.pte, hlw, hla]) hinv hx hp)
      · rw [if_neg (by rw [pointer_iff_not_isLeaf, ← Leaf.pte, hx]; decide),
          search_of_leaf (by rw [hleaf, hinv]) (by rw [hleaf, hx]), hleaf, ← hlv]
        exact walkLeaf_gives acc va (by omega) hmem hal hlw
    · rw [if_pos (by exact (pteInvalid_iff _ hhigh).2 hinv), search_of_invalid (by rw [hleaf, hinv])]
      rfl

/-- **What the walk does.**  A search that follows every valid pointer, with the hart's own privilege. -/
theorem walk_search {c : Cpu} (acc : Access) (va : BitVec 64)
    (hmode : satpMode c.satp = satpModeSv39 ∨ satpMode c.satp = satpModeSv48) (hmem : c.TablesInMemory va) :
    Gives c acc va (walk va acc.kind c)
      (Translation.translate c.tableWord (fun _ => false) (c.walkPermits acc) va (pageLevels c.satp) c.rootTable) := by
  have hroot : ((c.satp &&& ((1#64 <<< 44) - 1)) <<< 12).toNat = c.rootTable := by
    have hmask : ((1#64 <<< 44) - 1).toNat = 2 ^ 44 - 1 := by decide
    rw [BitVec.toNat_shiftLeft, BitVec.toNat_and, hmask, Nat.and_two_pow_sub_one_eq_mod, Nat.shiftLeft_eq,
      Cpu.rootTable]
    omega
  have hlevels : pageLevels c.satp ≤ 4 := by
    unfold pageLevels
    split_ifs <;> omega
  rw [walk_run, Translation.translate]
  by_cases hc : Canonical (pageLevels c.satp) va
  · rw [if_pos hc, if_neg (by simp [(canonicalVA_iff c.satp va hmode).2 hc]), ← hroot]
    apply walkFrom_gives acc va hlevels
    · rw [hroot, Cpu.rootTable]
      omega
    · rw [hroot, Cpu.rootTable]
      omega
    · rw [hroot]
      exact hmem
  · rw [if_neg hc, if_pos]
    · rfl
    · simpa using mt (canonicalVA_iff c.satp va hmode).1 hc

/-! ## The walk and the specification -/

/-- walk and specification say the same of a leaf that pointers `ps` lead to. In one mode: the leaf refuses the access,
or no pointer has U, A or D set. In two modes: R, W and X refuse it; or the hart's mode reaches the page, and so does
the effective one over pointers with these bits clear; or the hart's mode does not reach it, and the effective one does
not either or comes to a pointer with such a bit -/
@[mk_iff] structure Cpu.LeafAgrees (c : Cpu) (acc : Access) (ps : List Pte) (leaf : Pte) : Prop where
  one : c.OneMode acc → c.permits acc leaf = false ∨ ∀ pte ∈ ps, pte.marked = false
  two : ¬ c.OneMode acc → (c.context (modeOf c.priv)).grants acc leaf = true →
    if (c.context (modeOf c.priv)).reaches acc leaf = true then
      (c.context c.previousMode).reaches acc leaf = true ∧ ∀ pte ∈ ps, pte.marked = false
    else (c.context c.previousMode).reaches acc leaf = false ∨ ∃ pte ∈ ps, pte.marked = true

/-- … of the aligned leaf that the tables lead to, if there is one -/
def Cpu.TablesAgree (c : Cpu) (acc : Access) (va : BitVec 64) : Prop :=
  Canonical (pageLevels c.satp) va → ∀ ps l, Leads c.tableWord va (pageLevels c.satp) c.rootTable ps l → l.Aligned →
    c.LeafAgrees acc ps l.pte

theorem walkMode_of_oneMode {c : Cpu} {acc : Access} (h : c.OneMode acc) :
    modeOf (c.memoryPrivilege acc.kind) = c.effectiveMode acc := by
  have hmprv : c.mstatus &&& statusMPRV ≠ 0 ↔ c.mstatus.getLsbD 17 = true := by
    rw [ne_eq, show (c.mstatus &&& statusMPRV = 0 ↔ _) from and_one_shift_eq_zero_iff _ (by omega), Bool.not_eq_false]
  have hkind : acc.kind ≠ .fetch ↔ acc ≠ .fetch := by cases acc <;> decide
  unfold Cpu.memoryPrivilege Cpu.effectiveMode
  simp only [hmprv, hkind]
  by_cases hm : acc ≠ .fetch ∧ c.mstatus.getLsbD 17 = true
  · rw [if_pos hm]
    by_cases hp : c.priv = privMachine
    · rw [if_pos ⟨hm.1, hp, hm.2⟩, Cpu.previousMode]
      have hmpp : ((c.mstatus >>> 11) &&& 3).setWidth 8 = (c.mstatus.extractLsb' 11 2).setWidth 8 := by
        apply BitVec.eq_of_getLsbD_eq
        intro i hi
        have hthree : (3 : BitVec 64).getLsbD i = decide (i < 2) := by
          interval_cases i <;> rfl
        simp only [BitVec.getLsbD_setWidth, BitVec.getLsbD_and, BitVec.getLsbD_ushiftRight, BitVec.getLsbD_extractLsb',
          hthree, hi, decide_true, Bool.true_and, Nat.add_comm]
        by_cases h2 : i < 2 <;> simp [h2]
      rw [hmpp]
      generalize c.mstatus.extractLsb' 11 2 = mpp
      revert mpp
      decide
    · rw [if_neg (fun h => hp h.2.1)]
      rcases h with h | h | h | h
      · exact absurd h hm.1
      · rw [h] at hm
        exact absurd hm.2 (by decide)
      · exact absurd h hp
      · exact h.symm
  · rw [if_neg hm, if_neg (fun h => hm ⟨h.1, h.2.2⟩)]

theorem modes_of_not_oneMode {c : Cpu} {acc : Access} (h : ¬ c.OneMode acc) :
    c.memoryPrivilege acc.kind = c.priv ∧ c.effectiveMode acc = c.previousMode := by
  simp only [Cpu.OneMode, not_or] at h
  obtain ⟨hfetch, hmprv, hpriv, -⟩ := h
  constructor
  · exact if_neg fun hm => hpriv hm.2.1
  · exact if_pos ⟨hfetch, by simpa using hmprv⟩

theorem leafAgrees_iff_permits (c : Cpu) (acc : Access) (ps : List Pte) (leaf : Pte) : c.LeafAgrees acc ps leaf ↔
    (c.walkPermits acc leaf = true ↔ c.permits acc leaf = true ∧ ∀ pte ∈ ps, pte.marked = false) := by
  have hmarked : (∃ pte ∈ ps, pte.marked = true) ↔ ¬ ∀ pte ∈ ps, pte.marked = false := by simp
  rw [Cpu.leafAgrees_iff, hmarked]
  by_cases h : c.OneMode acc
  · have hsame : c.walkPermits acc leaf = c.permits acc leaf := by
      rw [Cpu.walkPermits, Cpu.permits, walkMode_of_oneMode h]
    rw [hsame]
    cases c.permits acc leaf <;> simp [h]
  · obtain ⟨hown, hprevious⟩ := modes_of_not_oneMode h
    rw [Cpu.walkPermits, Cpu.permits, hown, hprevious, Context.allows, Context.allows]
    have hgrants : (c.context c.previousMode).grants acc leaf = (c.context (modeOf c.priv)).grants acc leaf := by
      cases acc <;> rfl
    rw [hgrants]
    cases (c.context (modeOf c.priv)).grants acc leaf <;> cases (c.context (modeOf c.priv)).reaches acc leaf <;>
      cases (c.context c.previousMode).reaches acc leaf <;> simp [h]

theorem Gives.unique {c : Cpu} {acc : Access} {va : BitVec 64} {run : Except MemFault (BitVec 64 × TlbEntry) × Cpu}
    {r r' : Option Leaf} (h : Gives c acc va run r) (h' : Gives c acc va run r')
    (hsame : ∀ l l', r = some l → r' = some l' → l = l') : r = r' := by
  rcases r with _ | l <;> rcases r' with _ | l'
  · rfl
  · obtain ⟨e, h'⟩ := h'
    cases h.symm.trans h'
  · obtain ⟨e, h⟩ := h
    cases h.symm.trans h'
  · rw [hsame l l' rfl rfl]

/-- **The page walk.**  With the entries it reads in memory and their bits 63..54 clear, the walk does what the
specification's translation says exactly when the two agree about the leaf that the tables lead to (`LeafAgrees`): where
both make the access in one mode, when the leaf refuses the access or no pointer has U, A or D set. -/
theorem walk_translates_iff (c : Cpu) (acc : Access) (va : BitVec 64)
    (hmode : satpMode c.satp = satpModeSv39 ∨ satpMode c.satp = satpModeSv48) (hmem : c.TablesInMemory va) :
    Gives c acc va (walk va acc.kind c) (c.translate acc va) ↔ c.TablesAgree acc va := by
  have hwalk := walk_search acc va hmode hmem
  have hiff : c.translate acc va =
      Translation.translate c.tableWord (fun _ => false) (c.walkPermits acc) va (pageLevels c.satp) c.rootTable ↔
        c.TablesAgree acc va := by
    rw [Cpu.translate, translate_eq_translate_iff]
    refine forall_congr' fun _ => forall_congr' fun ps => forall_congr' fun l => forall_congr' fun _ =>
      forall_congr' fun _ => ?_
    simp only [implies_true, and_true]
    exact Iff.comm.trans (leafAgrees_iff_permits c acc ps l.pte).symm
  rw [← hiff]
  constructor
  · intro h
    apply h.unique hwalk
    intro l l' hl hl'
    obtain ⟨-, ps, hlead, -⟩ := translate_eq_some_iff.1 hl
    obtain ⟨-, ps', hlead', -⟩ := translate_eq_some_iff.1 hl'
    exact (hlead.unique hlead').2
  · intro h
    rw [h]
    exact hwalk

/-- a hart in user mode with Sv39 tables: the root table, at 4096, has one entry, and so has the one at 8192 -/
def tablesCpu (root next : BitVec 64) : Cpu :=
  let m := GuestMemory.newGuestMemoryWithModel 15 .linear true
  { newCPU { m with bytes := (Bytes.writeLe (fun _ => 0) 0x1000 8 root).writeLe 0x2000 8 next } with
    mmu := some Cpu.emptyMmu, satp := (satpModeSv39 <<< 60) ||| 1 }

/-- a page of 2 MiB, mapped to itself for every access -/
def lowSuperpage : BitVec 64 := 0xDF

theorem tablesCpu_inMemory {root : BitVec 64} (h : root = 0x801 ∨ root = 0x841) :
    (tablesCpu root lowSuperpage).TablesInMemory 0 := by
  have hentry : ∀ p, p + 8 ≤ 2 ^ 15 → (tablesCpu root lowSuperpage).mem.touchesGuard (BitVec.ofNat 64 p) 8 = false →
      (tablesCpu root lowSuperpage).EntryInMemory p := by
    intro p hp hguard
    exact ⟨hp, hguard, fun _ => rfl, rfl, fun _ => rfl⟩
  have hroot : (tablesCpu root lowSuperpage).tableWord 0x1000 = root := by
    rcases h with rfl | rfl <;> decide +kernel
  have hnext : (tablesCpu root lowSuperpage).tableWord 0x2000 = lowSuperpage := by
    rcases h with rfl | rfl <;> decide +kernel
  have hlevels : pageLevels (tablesCpu root lowSuperpage).satp = 3 :=
    show pageLevels ((satpModeSv39 <<< 60) ||| 1) = 3 by decide
  have htable : (tablesCpu root lowSuperpage).rootTable = 0x1000 :=
    show ((satpModeSv39 <<< 60) ||| 1 : BitVec 64).toNat % 2 ^ 44 * 2 ^ 12 = 0x1000 by decide
  have hppn : (Pte.ofWord root).ppn * 2 ^ 12 = 0x2000 := by
    rcases h with rfl | rfl <;> decide
  intro p hv
  rw [hlevels, htable] at hv
  cases hv with
  | here =>
    change _ ∧ (Pte.ofWord ((tablesCpu root lowSuperpage).tableWord 0x1000)).high = 0
    rw [hroot]
    exact ⟨hentry 0x1000 (by decide) (by rcases h with rfl | rfl <;> decide), by rcases h with rfl | rfl <;> decide⟩
  | next hp _ _ hv =>
    change _ = Pte.ofWord ((tablesCpu root lowSuperpage).tableWord 0x1000) at hp
    rw [hp, hroot, hppn] at hv
    cases hv with
    | here =>
      change _ ∧ (Pte.ofWord ((tablesCpu root lowSuperpage).tableWord 0x2000)).high = 0
      rw [hnext]
      exact ⟨hentry 0x2000 (by decide) (by rcases h with rfl | rfl <;> decide), by decide⟩
    | next hp _ hx _ =>
      change _ = Pte.ofWord ((tablesCpu root lowSuperpage).tableWord 0x2000) at hp
      rw [hp, hnext] at hx
      cases hx

/-- over a pointer with U, A and D clear, the walk of a load does what the specification says -/
theorem walk_translates_clean :
    Gives (tablesCpu 0x801 lowSuperpage) .load 0 (walk 0 .load (tablesCpu 0x801 lowSuperpage))
      ((tablesCpu 0x801 lowSuperpage).translate .load 0) ∧ (tablesCpu 0x801 lowSuperpage).TablesAgree .load 0 := by
  have hmem := @tablesCpu_inMemory 0x801 (.inl rfl)
  have hmode : satpMode (tablesCpu 0x801 lowSuperpage).satp = satpModeSv39 := by decide
  have hsame : (tablesCpu 0x801 lowSuperpage).translate .load 0 =
      Translation.translate (tablesCpu 0x801 lowSuperpage).tableWord (fun _ => false)
        ((tablesCpu 0x801 lowSuperpage).walkPermits .load) 0 (pageLevels (tablesCpu 0x801 lowSuperpage).satp)
        (tablesCpu 0x801 lowSuperpage).rootTable := by decide +kernel
  have hgives : Gives (tablesCpu 0x801 lowSuperpage) .load 0 (walk 0 .load (tablesCpu 0x801 lowSuperpage))
      ((tablesCpu 0x801 lowSuperpage).translate .load 0) := by
    rw [hsame]
    exact walk_search .load 0 (.inl hmode) hmem
  exact ⟨hgives, (walk_translates_iff _ .load 0 (.inl hmode) hmem).1 hgives⟩

/-- over a pointer with A set, the walk goes on where the specification has a page fault -/
theorem walk_follows_marked : ∃ c : Cpu, satpMode c.satp = satpModeSv39 ∧ c.TablesInMemory 0 ∧
    c.translate .load 0 = none ∧ (∃ e, (walk 0 .load c).1 = .ok (0, e)) ∧
    ¬ Gives c .load 0 (walk 0 .load c) (c.translate .load 0) := by
  have hnone : (tablesCpu 0x841 lowSuperpage).translate .load 0 = none := by decide +kernel
  have hlead := walk_search (c := tablesCpu 0x841 lowSuperpage) .load 0 (.inl (by decide))
      (tablesCpu_inMemory (.inr rfl))
  have hsome : Translation.translate (tablesCpu 0x841 lowSuperpage).tableWord (fun _ => false)
      ((tablesCpu 0x841 lowSuperpage).walkPermits .load) 0 (pageLevels (tablesCpu 0x841 lowSuperpage).satp)
      (tablesCpu 0x841 lowSuperpage).rootTable = some ⟨0x2000, lowSuperpage, 1⟩ := by decide +kernel
  rw [hsome] at hlead
  obtain ⟨e, hrun⟩ := hlead
  refine ⟨tablesCpu 0x841
    lowSuperpage, by decide, tablesCpu_inMemory (.inr rfl), hnone, ⟨e, congrArg Prod.fst hrun⟩, ?_⟩
  rw [hnone]
  intro h
  cases hrun.symm.trans h

end RiscvEmu
