/-
What a page-table walk may change: the A and D bits of page-table entries, and nothing else.

The tables of a hart are the root that `satp` names and whatever valid pointer entries lead to (`TableAt`); `SameButAD
c b` says that `b` is the hart's memory up to the A and D bits of the entries of these tables.

• `SameButAD.agrees`: such a memory has the same tables, so the next walk is covered too.
• `SameButAD.writeBack`: the write-back of a leaf entry stays within it.
• `Stays.keeps_walk`: on a hart without a device board this is all that a walk writes.
-/
import RiscvEmu.Cpu.Direct

namespace RiscvEmu

open GuestMemory Exec BitVec Bytes

/-! ## The tables -/

def ptePpn (pte : BitVec 64) : BitVec 64 := (pte >>> 10) &&& ((1#64 <<< 44) - 1)

def pteInvalid (pte : BitVec 64) : Prop := pte &&& pteV = 0 ∨ (pte &&& pteW ≠ 0 ∧ pte &&& pteR = 0)

/-- an entry that points to the next table -/
def ptePointer (pte : BitVec 64) : Prop := ¬ pteInvalid pte ∧ pte &&& (pteR ||| pteX) = 0

def pageLevels (satp : BitVec 64) : Nat :=
  if satpMode satp = satpModeSv39 then 3 else if satpMode satp = satpModeSv48 then 4 else 0

def pteAddr (pt i : BitVec 64) : BitVec 64 := pt + (i &&& 0x1ff) * 8

/-- the entry that memory holds at a physical address -/
def GuestMemory.entryAt (m : GuestMemory) (p : BitVec 64) : BitVec 64 := m.bytes.readLe (m.hostPtr p) 8

/-- the tables of a hart with an MMU, with the number of levels below them -/
inductive TableAt (c : Cpu) : Nat → BitVec 64 → Prop
  | root : c.mmu ≠ none → TableAt c (pageLevels c.satp) ((c.satp &&& ((1#64 <<< 44) - 1)) <<< 12)
  | next {level : Nat} {pt : BitVec 64} (i : BitVec 64) : TableAt c (level + 1) pt →
      ptePointer (c.mem.entryAt (pteAddr pt i)) → TableAt c level (ptePpn (c.mem.entryAt (pteAddr pt i)) <<< 12)

/-- `p` is the physical address of a page-table entry -/
def PteAddr (c : Cpu) (p : BitVec 64) : Prop := ∃ level pt i, TableAt c (level + 1) pt ∧ p = pteAddr pt i

/-- `q` is the slab offset of a page-table entry -/
def PteAt (c : Cpu) (q : BitVec 64) : Prop := ∃ p, PteAddr c p ∧ q = c.mem.hostPtr p

/-- `v` is the byte that memory holds at `q`, up to A and D where a page-table entry starts -/
def ByteKept (c : Cpu) (q : BitVec 64) (v : BitVec 8) : Prop :=
  v = c.mem.bytes q ∨ (PteAt c q ∧ v &&& 0x3F#8 = c.mem.bytes q &&& 0x3F#8)

/-- the hart's memory up to the A and D bits of page-table entries -/
def SameButAD (c : Cpu) (b : Bytes) : Prop := ∀ q, ByteKept c q (b q)

theorem SameButAD.refl (c : Cpu) : SameButAD c c.mem.bytes := fun _ => Or.inl rfl

theorem TableAt.aligned {level : Nat} {pt : BitVec 64} {c : Cpu} (h : TableAt c level pt) : pt.toNat % 8 = 0 := by
  have hshift : ∀ x : BitVec 64, (x <<< 12).toNat % 8 = 0 := by
    intro x
    rw [toNat_shiftLeft, Nat.shiftLeft_eq]
    omega
  cases h with
  | root _ => exact hshift _
  | next _ _ _ => exact hshift _

theorem PteAt.aligned {q : BitVec 64} {c : Cpu} (h : PteAt c q) : q.toNat % 8 = 0 := by
  obtain ⟨p, ⟨level, pt, i, ht, rfl⟩, rfl⟩ := h
  have hpt := ht.aligned
  have hp : (pteAddr pt i).toNat % 8 = 0 := by
    rw [pteAddr, toNat_add, toNat_mul, show (8 : BitVec 64).toNat = 8 by rfl]
    omega
  unfold hostPtr
  split_ifs
  · rw [c.mem.and_mask_toNat, c.mem.size_toNat]
    by_cases hs : 3 ≤ c.mem.logSize.val
    · obtain ⟨k, hk⟩ := Nat.exists_eq_add_of_le hs
      rw [hk, Nat.pow_add, show 2 ^ 3 = 8 by decide, Nat.mod_mul_right_mod]
      exact hp
    · -- a slab of less than eight bytes holds one entry at most, at offset 0
      have h8 : 2 ^ c.mem.logSize.val ∣ 8 := by
        rw [show 8 = 2 ^ 3 by decide]
        exact Nat.pow_dvd_pow 2 (by omega)
      have h0 : (pteAddr pt i).toNat % 2 ^ c.mem.logSize.val = 0 :=
        Nat.mod_eq_zero_of_dvd (h8.trans (Nat.dvd_of_mod_eq_zero hp))
      rw [h0]
  · exact hp

/-! ## Entries that differ in A and D only -/

def pteAD : BitVec 64 := pteA ||| pteD

/-- two entries with the same bits but for A and D -/
def EntryAgrees (x y : BitVec 64) : Prop := x &&& ~~~ pteAD = y &&& ~~~ pteAD

namespace EntryAgrees

variable {x y : BitVec 64}

theorem and_mask (h : EntryAgrees x y) {m : BitVec 64} (hm : ~~~ pteAD &&& m = m) : x &&& m = y &&& m := by
  have := congrArg (· &&& m) h
  simpa only [BitVec.and_assoc, hm] using this

theorem ppn (h : EntryAgrees x y) : ptePpn x = ptePpn y := by
  have hp : ∀ z : BitVec 64, ptePpn z = ptePpn (z &&& ~~~ pteAD) := by
    intro z
    rw [ptePpn, ptePpn, ushiftRight_and_distrib, BitVec.and_assoc]
    congr 1
  rw [hp x, hp y, h]

theorem pointer_iff (h : EntryAgrees x y) : ptePointer x ↔ ptePointer y := by
  unfold ptePointer pteInvalid
  rw [h.and_mask (m := pteV) (by decide), h.and_mask (m := pteW) (by decide),
    h.and_mask (m := pteR) (by decide), h.and_mask (m := pteR ||| pteX) (by decide)]

end EntryAgrees

namespace SameButAD

variable {c : Cpu} {b : Bytes} {p pte : BitVec 64}

theorem byte_ne_zero (h : SameButAD c b) (hp : PteAddr c p) {i : Nat} (hi : 0 < i) (hi' : i < 8) :
    b (c.mem.hostPtr p + BitVec.ofNat 64 i) = c.mem.bytes (c.mem.hostPtr p + BitVec.ofNat 64 i) := by
  rcases h (c.mem.hostPtr p + BitVec.ofNat 64 i) with heq | ⟨hpte, -⟩
  · exact heq
  · have h0 : (c.mem.hostPtr p).toNat % 8 = 0 := PteAt.aligned ⟨p, hp, rfl⟩
    have h1 := hpte.aligned
    rw [toNat_add, toNat_ofNat] at h1
    omega

theorem and_low (h : SameButAD c b) (q : BitVec 64) : b q &&& 0x3F#8 = c.mem.bytes q &&& 0x3F#8 := by
  rcases h q with heq | ⟨-, hlow⟩
  · rw [heq]
  · exact hlow

theorem getLsbD_pteAD (t : Nat) : pteAD.getLsbD t = (decide (t = 6) || decide (t = 7)) := by
  have hsmall : ∀ t < 64, pteAD.getLsbD t = (decide (t = 6) || decide (t = 7)) := by decide
  rcases Nat.lt_or_ge t 64 with hlt | hge
  · exact hsmall t hlt
  · rw [getLsbD_of_ge _ _ hge]
    simp [show t ≠ 6 by omega, show t ≠ 7 by omega]

theorem agrees (h : SameButAD c b) (hp : PteAddr c p) :
    EntryAgrees (b.readLe (c.mem.hostPtr p) 8) (c.mem.entryAt p) := by
  apply eq_of_getLsbD_eq
  intro t ht
  simp only [getLsbD_and, getLsbD_not, getLsbD_pteAD, entryAt,
    getLsbD_readLe _ _ (Nat.le_refl 8), ht, decide_true, Bool.true_and]
  by_cases hzero : t / 8 = 0
  · have hlow := congrArg (fun z => z.getLsbD t) (h.and_low (c.mem.hostPtr p))
    have hmask : ∀ t < 8, t ≠ 6 → t ≠ 7 → (0x3F#8).getLsbD t = true := by decide
    rw [hzero, show t % 8 = t by omega, BitVec.add_zero]
    by_cases h6 : t = 6
    · simp [h6]
    · by_cases h7 : t = 7
      · simp [h7]
      · simp only [getLsbD_and, hmask t (by omega) h6 h7, Bool.and_true] at hlow
        simp [h6, h7, hlow]
  · rw [h.byte_ne_zero hp (by omega) (by omega)]

theorem writeBack (h : SameButAD c b) (hp : PteAddr c p) (hpte : b.readLe (c.mem.hostPtr p) 8 = pte)
    (kind : FaultKind) :
    SameButAD c (b.writeLe (c.mem.hostPtr p) 8 (pteUpdated pte kind)) := by
  have hup : ∃ ad : BitVec 64, pteUpdated pte kind = pte ||| ad ∧ ad &&& ~~~ pteAD = 0#64 := by
    unfold pteUpdated
    split_ifs
    · exact ⟨pteA ||| pteD, BitVec.or_assoc .., by decide⟩
    · exact ⟨pteA, rfl, by decide⟩
  obtain ⟨ad, hup, had⟩ := hup
  have hbit : ∀ t < 64, t ≠ 6 → t ≠ 7 → ad.getLsbD t = false := by
    intro t ht h6 h7
    have hz := congrArg (fun z => z.getLsbD t) had
    simpa only [getLsbD_and, getLsbD_not, getLsbD_pteAD, getLsbD_zero, ht, h6, h7, decide_true,
      decide_false, Bool.or_false, Bool.not_false, Bool.and_true] using hz
  intro q
  rw [writeLe_apply, hup]
  split_ifs with hin
  · have hq : c.mem.hostPtr p + BitVec.ofNat 64 (q - c.mem.hostPtr p).toNat = q := by
      rw [ofNat_toNat, setWidth_eq]
      bv_omega
    have hold : byteOf pte (q - c.mem.hostPtr p).toNat = b q := by
      rw [← hpte, byteOf_readLe _ _ (Nat.le_refl 8) hin, hq]
    by_cases hzero : (q - c.mem.hostPtr p).toNat = 0
    · have hqp : q = c.mem.hostPtr p := by bv_omega
      refine Or.inr ⟨⟨p, hp, hqp⟩, ?_⟩
      rw [← h.and_low q, ← hold]
      apply eq_of_getLsbD_eq
      intro t ht
      have hmask : ∀ t < 8, (t = 6 ∨ t = 7) → (0x3F#8).getLsbD t = false := by decide
      simp only [getLsbD_and, getLsbD_byteOf, hzero, getLsbD_or, ht]
      by_cases h67 : t = 6 ∨ t = 7
      · simp [hmask t ht h67]
      · rw [hbit (8 * 0 + t) (by omega) (by omega) (by omega)]
        simp
    · -- above the lowest byte the entry is written back as it was read
      have hsame : byteOf (pte ||| ad) (q - c.mem.hostPtr p).toNat = byteOf pte (q - c.mem.hostPtr p).toNat := by
        apply eq_of_getLsbD_eq
        intro t ht
        simp only [getLsbD_byteOf, getLsbD_or]
        rw [hbit _ (by omega) (by omega) (by omega)]
        simp
      rw [hsame, hold]
      exact h q
  · exact h q

end SameButAD

/-! ## The hart's accesses -/

/-- the hart once an access has translated its address, before memory is accessed -/
def Cpu.translated (c : Cpu) (kind : FaultKind) (w a : BitVec 64) : Cpu :=
  match c.mmu with
  | none => c
  | some mm => if a &&& (w - 1) ≠ 0 then c else (mm.lookup a kind c).2

section Access

variable {P : Cpu → Prop} {c : Cpu} {kind : FaultKind} {w a : BitVec 64}

theorem translated_ends (h : P c) (hlookup : ∀ mm, c.mmu = some mm → P (mm.lookup a kind c).2) :
    P (c.translated kind w a) := by
  unfold Cpu.translated
  split
  · exact h
  · rename_i mm hmm
    split_ifs
    · exact h
    · exact hlookup mm hmm

theorem lookup_ends {α : Type} {mm : Mmu} (hmm : c.mmu = some mm) (h : P (c.translated kind w a))
    {k : Option TlbEntry × BitVec 64 → MemOp α} (hk : ∀ r, Keeps P (k r)) :
    P ((if a &&& (w - 1) ≠ 0 then Exec.fail { addr := a, width := w, kind := .misalign }
      else mm.lookup a kind >>= k : MemOp α) c).2 := by
  unfold Cpu.translated at h
  rw [hmm] at h
  dsimp only at h
  split_ifs at h ⊢
  · exact h
  · exact Keeps.bind_from h hk

/-- what holds when the address is translated, and the access to memory keeps, holds in the end -/
theorem loadVia_ends (h : P (c.translated .load w a)) (hmem : ∀ p, Keeps P (onMem (load w p))) :
    P (loadVia w a c).2 := by
  unfold loadVia
  split
  · rename_i hmm
    exact hmem a c (by simpa [Cpu.translated, hmm] using h)
  · rename_i mm hmm
    refine lookup_ends hmm h fun r => ?_
    obtain ⟨e | e, p⟩ := r
    · exact hmem p
    · exact .ite (.gets _) (hmem p)

theorem fetchVia_ends (h : P (c.translated .fetch w a)) (hmem : ∀ p, Keeps P (onMem (fetch w p))) :
    P (fetchVia w a c).2 := by
  unfold fetchVia
  split
  · rename_i hmm
    exact hmem a c (by simpa [Cpu.translated, hmm] using h)
  · rename_i mm hmm
    refine lookup_ends hmm h fun r => ?_
    obtain ⟨e | e, p⟩ := r
    · exact hmem p
    · exact .ite (.gets _) (.ite (.fail _) (hmem p))

theorem storeVia_ends {v : BitVec 64} (h : P (c.translated .store w a)) (hmem : ∀ p, Keeps P (onMem (store w p v)))
    (hdirect : ∀ c b, P c → P (Cpu.setMem { c.mem with bytes := b } c)) : P (storeVia w a v c).2 := by
  unfold storeVia
  split
  · rename_i hmm
    exact hmem a c (by simpa [Cpu.translated, hmm] using h)
  · rename_i mm hmm
    refine lookup_ends hmm h fun r => ?_
    obtain ⟨e | e, p⟩ := r
    · exact hmem p
    · exact .ite (.modify fun c hc => hdirect c _ hc) (hmem p)

end Access

/-! ## Walks -/

theorem walkFrom_succ (addr : BitVec 64) (kind : FaultKind) (level : Nat) (pt : BitVec 64) :
    walkFrom addr kind (level + 1) pt = onMem (GuestMemory.load64 (pteAddr pt (addr >>> (12 + 9 * level)))) >>=
      fun pte =>
      if pte &&& pteV = 0 ∨ (pte &&& pteW ≠ 0 ∧ pte &&& pteR = 0) then Exec.fail (pageFault addr kind)
      else if pte &&& (pteR ||| pteX) = 0 then walkFrom addr kind level (ptePpn pte <<< 12)
      else walkLeaf addr kind level (pteAddr pt (addr >>> (12 + 9 * level))) pte := rfl

theorem walk_run (addr : BitVec 64) (kind : FaultKind) (c : Cpu) :
    walk addr kind c = (if !canonicalVA addr (pageLevels c.satp) then Exec.fail (pageFault addr kind)
      else walkFrom addr kind (pageLevels c.satp) ((c.satp &&& ((1#64 <<< 44) - 1)) <<< 12) : MemOp _) c := by
  rw [walk, gets_bind_run]
  unfold pageLevels
  rfl

/-- the parts of guest memory that no access changes: all but the bytes and the board's log -/
def GuestMemory.shape (m : GuestMemory) : GuestMemory :=
  { m with bytes := fun _ => 0, mmio := m.mmio.map fun d => { d with log := [] } }

/-- `c'` is reached from `c`, a hart without a device board, within a walk: memory is the same up to the A and D bits
of page-table entries -/
structure Stays (c c' : Cpu) : Prop where
  satp : c'.satp = c.satp
  board : c'.mem.mmio = none
  hostPtr : c'.mem.hostPtr = c.mem.hostPtr
  bytes : SameButAD c c'.mem.bytes

namespace Stays

variable {c c' : Cpu}

theorem refl (h : c.mem.mmio = none) : Stays c c := ⟨rfl, h, rfl, SameButAD.refl c⟩

theorem entry_read (h : Stays c c') {p pte : BitVec 64} {c'' : Cpu}
    (hr : onMem (GuestMemory.load64 p) c' = (.ok pte, c'')) :
    c'' = c' ∧ pte = c'.mem.bytes.readLe (c.mem.hostPtr p) 8 := by
  rw [onMem_run, GuestMemory.load64, load_noMmio h.board, h.hostPtr] at hr
  split at hr
  · cases hr
  · cases hr
    exact ⟨rfl, rfl⟩

theorem keeps_writeBack (h : Stays c c') {p pte : BitVec 64} (hp : PteAddr c p)
    (hpte : pte = c'.mem.bytes.readLe (c.mem.hostPtr p) 8) (kind : FaultKind) :
    Stays c (writeBackPte p pte (pteUpdated pte kind) c').2 := by
  unfold writeBackPte
  split_ifs
  · rw [onMem_run, GuestMemory.store64, store_noMmio h.board, h.hostPtr]
    split
    · exact h
    · exact { h with bytes := h.bytes.writeBack hp hpte.symm kind }
  · exact h

theorem keeps_walkLeaf (h : Stays c c') {p pte : BitVec 64} (hp : PteAddr c p)
    (hpte : pte = c'.mem.bytes.readLe (c.mem.hostPtr p) 8) (addr : BitVec 64) (kind : FaultKind) (level : Nat) :
    Stays c (walkLeaf addr kind level p pte c').2 := by
  have hwb := h.keeps_writeBack hp hpte kind
  rw [walkLeaf, gets_bind_run]
  split_ifs
  · exact h
  · exact h
  · rcases hr : writeBackPte p pte (pteUpdated pte kind) c' with ⟨e | u, c''⟩
    · rw [bind_of_error hr]
      rwa [hr] at hwb
    · rw [bind_of_ok hr]
      rwa [hr] at hwb

theorem keeps_walkFrom (addr : BitVec 64) (kind : FaultKind) {level : Nat} {pt : BitVec 64} (ht : TableAt c level pt) :
    Exec.Keeps (Stays c) (walkFrom addr kind level pt) := by
  induction level generalizing pt with
  | zero => exact .fail _
  | succ level ih =>
    intro c' h
    have hp : PteAddr c (pteAddr pt (addr >>> (12 + 9 * level))) := ⟨level, pt, _, ht, rfl⟩
    have hload : (onMem (GuestMemory.load64 (pteAddr pt (addr >>> (12 + 9 * level)))) c').2 = c' := by
      rw [onMem_run, GuestMemory.load64, load_noMmio h.board]
      rfl
    rw [walkFrom_succ]
    rcases hr : onMem (GuestMemory.load64 (pteAddr pt (addr >>> (12 + 9 * level)))) c' with ⟨e | pte, c''⟩
    · rw [bind_of_error hr]
      rw [hr] at hload
      exact hload ▸ h
    · obtain ⟨rfl, hpte⟩ := h.entry_read hr
      rw [bind_of_ok hr]
      have hag : EntryAgrees pte (c.mem.entryAt (pteAddr pt (addr >>> (12 + 9 * level)))) := by
        rw [hpte]
        exact h.bytes.agrees hp
      by_cases hinv : pte &&& pteV = 0 ∨ (pte &&& pteW ≠ 0 ∧ pte &&& pteR = 0)
      · rw [if_pos hinv]
        exact h
      · rw [if_neg hinv]
        by_cases hptr : pte &&& (pteR ||| pteX) = 0
        · -- the entry points on: so does the one the hart started with, to the same table
          rw [if_pos hptr, hag.ppn]
          exact ih (ht.next _ (hag.pointer_iff.1 ⟨hinv, hptr⟩)) _ h
        · rw [if_neg hptr]
          exact h.keeps_walkLeaf hp hpte addr kind level

theorem keeps_walk (hm : c.mmu ≠ none) (addr : BitVec 64) (kind : FaultKind) :
    Exec.Keeps (Stays c) (walk addr kind) := by
  intro c' h
  rw [walk_run, h.satp]
  split_ifs
  · exact h
  · exact keeps_walkFrom addr kind (TableAt.root hm) c' h

end Stays

end RiscvEmu
