/-
The software TLB as walks fill it.

A walk changes guest memory only (`walk_onlyMem`), and the entry it returns maps whole pages to whole pages with the
permissions the access was checked against (`Filled`). `lookup_run`: a lookup answers with the address itself, with an
entry of the TLB, or with what a walk returns.
-/
import RiscvEmu.Cpu.PageTable

namespace RiscvEmu

variable {mm : Mmu} {e : TlbEntry} {level : Nat} {kind : FaultKind} {c c' : Cpu} {addr paddr : BitVec 64}

open Exec BitVec

/-! ## A walk changes memory only -/

def OnlyMem (c c' : Cpu) : Prop := ∃ m, c' = Cpu.setMem m c

theorem keeps_onlyMem_onMem {α : Type} (c : Cpu) (m : Exec GuestMemory MemFault α) :
    Exec.Keeps (OnlyMem c) (onMem m) := by
  rintro c' ⟨m', rfl⟩
  exact ⟨_, rfl⟩

/-- what the accesses to tables keep, a walk keeps -/
theorem keeps_walk {P : Cpu → Prop} (hload : ∀ p, Exec.Keeps P (onMem (GuestMemory.load64 p)))
    (hstore : ∀ p v, Exec.Keeps P (onMem (GuestMemory.store64 p v))) (addr : BitVec 64) (kind : FaultKind) :
    Exec.Keeps P (walk addr kind) := by
  have hfrom : ∀ level pt, Exec.Keeps P (walkFrom addr kind level pt) := by
    intro level
    induction level with
    | zero => exact fun _ => .fail _
    | succ level ih =>
      intro pt
      refine .bind (hload _) fun pte => .ite (.fail _) (.ite (ih _) ?_)
      refine .bind (.gets _) fun _ => .ite (.fail _) (.ite (.fail _) (.bind ?_ fun _ => .gets _))
      exact .ite (hstore _ _) (.pure _)
  exact .bind (.gets _) fun _ => .ite (.fail _) (hfrom _ _)

theorem walk_onlyMem (addr : BitVec 64) (kind : FaultKind) (c : Cpu) : OnlyMem c (walk addr kind c).2 :=
  keeps_walk (fun _ => keeps_onlyMem_onMem c _) (fun _ _ => keeps_onlyMem_onMem c _) addr kind c ⟨c.mem, rfl⟩

namespace GuestMemory

theorem mmioAccess_shape {m m' : GuestMemory} {a : MmioAccess} {r : Except MemFault (BitVec 64)}
    (h : m.mmioAccess a = some (r, m')) : m'.shape = m.shape := by
  unfold mmioAccess at h
  split at h
  · cases h
  · rename_i d hd
    dsimp only at h
    split at h
    · cases h
    · cases h
      simp only [shape, hd, Option.map_some]
    · cases h
      simp only [shape, hd, Option.map_some]

theorem load_shape (w p : BitVec 64) (m : GuestMemory) : (load w p m).2.shape = m.shape := by
  unfold load
  split
  · rfl
  · split
    · rename_i r hr
      exact mmioAccess_shape hr
    · split_ifs <;> rfl

theorem fetch_shape (w p : BitVec 64) (m : GuestMemory) : (fetch w p m).2.shape = m.shape := by
  unfold fetch
  split
  · rfl
  · split_ifs <;> rfl

theorem store_shape (w p v : BitVec 64) (m : GuestMemory) : (store w p v m).2.shape = m.shape := by
  unfold store
  split
  · rfl
  · split
    · rename_i hr
      exact mmioAccess_shape hr
    · rename_i hr
      exact mmioAccess_shape hr
    · split_ifs <;> rfl

end GuestMemory

theorem walk_shape (addr : BitVec 64) (kind : FaultKind) (c : Cpu) : (walk addr kind c).2.mem.shape = c.mem.shape :=
  keeps_walk (P := fun s => s.mem.shape = c.mem.shape) (fun p s hs => (GuestMemory.load_shape 8 p s.mem).trans hs)
    (fun p v s hs => (GuestMemory.store_shape 8 p v s.mem).trans hs) addr kind c rfl

/-- the way of a successful walk: the entries it reads one after the other, and the leaf it ends at -/
inductive Walked (addr : BitVec 64) (kind : FaultKind) : Nat → BitVec 64 → Cpu → BitVec 64 × TlbEntry → Cpu → Prop
  | leaf {level : Nat} {pt pte : BitVec 64} {c c₁ c' : Cpu} :
    onMem (GuestMemory.load64 (pteAddr pt (addr >>> (12 + 9 * level)))) c = (.ok pte, c₁) → ¬ pteInvalid pte →
    pte &&& (pteR ||| pteX) ≠ 0 → c₁.accessAllowed (tlbPerms pte) kind = true →
    ¬ (level > 0 ∧ ptePpn pte &&& ((1#64 <<< (9 * level)) - 1) ≠ 0) →
    writeBackPte (pteAddr pt (addr >>> (12 + 9 * level))) pte (pteUpdated pte kind) c₁ = (.ok (), c') →
    Walked addr kind (level + 1) pt c (c'.tlbFill addr (ptePpn pte) level (tlbPerms pte)) c'
  | next {level : Nat} {pt pte : BitVec 64} {c c₁ c' : Cpu} {r : BitVec 64 × TlbEntry} :
    onMem (GuestMemory.load64 (pteAddr pt (addr >>> (12 + 9 * level)))) c = (.ok pte, c₁) → ¬ pteInvalid pte →
    pte &&& (pteR ||| pteX) = 0 → Walked addr kind level (ptePpn pte <<< 12) c₁ r c' →
    Walked addr kind (level + 1) pt c r c'

theorem onlyMem_of_onMem {α : Type} {m : Exec GuestMemory MemFault α} {r : Except MemFault α}
    (h : onMem m c = (r, c')) :
    OnlyMem c c' := ⟨_, (congrArg Prod.snd h).symm⟩

theorem onlyMem_of_writeBack {p v u : BitVec 64} {r : Except MemFault Unit} (h : writeBackPte p v u c = (r, c')) :
    OnlyMem c c' := by
  unfold writeBackPte at h
  split_ifs at h
  · exact onlyMem_of_onMem h
  · cases h
    exact ⟨c.mem, rfl⟩

theorem walkFrom_walked {pt : BitVec 64} {r : BitVec 64 × TlbEntry}
    (h : walkFrom addr kind level pt c = (.ok r, c')) : Walked addr kind level pt c r c' := by
  induction level generalizing pt c with
  | zero => cases h
  | succ level ih =>
    rw [walkFrom_succ] at h
    obtain ⟨pte, c₁, hr, h⟩ := bind_ok_iff.1 h
    split_ifs at h with hinv hptr
    · cases h
    · exact .next hr hinv hptr (ih h)
    rw [walkLeaf, gets_bind_run] at h
    split_ifs at h with hp hs
    · cases h
    · cases h
    · obtain ⟨u, c₂, hw, h⟩ := bind_ok_iff.1 h
      cases h
      exact .leaf hr hinv hptr (by simpa using hp) hs hw

theorem pageLevels_le (satp : BitVec 64) : pageLevels satp ≤ 4 := by
  unfold pageLevels
  split_ifs <;> omega

def satpRoot (satp : BitVec 64) : BitVec 64 := (satp &&& ((1#64 <<< 44) - 1)) <<< 12

theorem walk_walked {r : BitVec 64 × TlbEntry} (h : walk addr kind c = (.ok r, c')) :
    canonicalVA addr (pageLevels c.satp) = true ∧ Walked addr kind (pageLevels c.satp) (satpRoot c.satp) c r c' := by
  rw [walk_run] at h
  split_ifs at h with hc
  · cases h
  · exact ⟨by simpa using hc, walkFrom_walked h⟩

/-! ## The entries -/

/-- an entry that translates the access and was checked for it -/
structure Filled (c : Cpu) (addr : BitVec 64) (kind : FaultKind) (e : TlbEntry) : Prop where
  valid : e.valid = true
  tag : andNot addr e.mask = e.tag
  mask : e.mask &&& 0xFFF = 0xFFF
  base : e.paddrBase &&& 0xFFF = 0
  allowed : c.accessAllowed e.perms kind = true

theorem pageMask_low (level : Nat) (hl : level < 4) : ((1#64 <<< (12 + 9 * level)) - 1) &&& 0xFFF = 0xFFF := by
  revert level
  decide

theorem tlbFill_filled (c : Cpu) (addr ppn : BitVec 64) (hl : level < 4) {perms : BitVec 8}
    (hp : c.accessAllowed perms kind = true) : Filled c addr kind (c.tlbFill addr ppn level perms).2 := by
  refine ⟨rfl, rfl, pageMask_low level hl, ?_, hp⟩
  change andNot (ppn <<< 12) ((1#64 <<< (12 + 9 * level)) - 1) &&& 0xFFF = 0
  have hmask := pageMask_low level hl
  generalize (1#64 <<< (12 + 9 * level)) - 1 = m at hmask
  rw [andNot, BitVec.and_assoc]
  have : ~~~ m &&& 0xFFF = 0#64 := by
    rw [← hmask]
    ext i hi
    simp only [getElem_and, getElem_not, getElem_zero]
    cases m[i] <;> simp
  rw [this]
  simp

theorem Filled.congr (h : Filled c addr kind e)
    (hc : OnlyMem c c') : Filled c' addr kind e := by
  obtain ⟨m, rfl⟩ := hc
  exact ⟨h.valid, h.tag, h.mask, h.base, h.allowed⟩

theorem Walked.filled {pt : BitVec 64} {r : BitVec 64 × TlbEntry} (h : Walked addr kind level pt c r c')
    (hl : level ≤ 4) :
    Filled c addr kind r.2 ∧ r.1 = r.2.paddrBase ||| (addr &&& r.2.mask) := by
  induction h with
  | @leaf level pt pte c _ _ hr _ _ ha _ hw =>
    obtain ⟨m, rfl⟩ := onlyMem_of_onMem hr
    obtain ⟨m', rfl⟩ := onlyMem_of_writeBack hw
    have hf := tlbFill_filled (Cpu.setMem m' (Cpu.setMem m c)) addr (ptePpn pte) (show level < 4 by omega) ha
    exact ⟨hf.congr ⟨c.mem, rfl⟩, rfl⟩
  | @next _ _ _ c _ _ _ hr _ _ _ ih =>
    obtain ⟨m, rfl⟩ := onlyMem_of_onMem hr
    obtain ⟨hf, hp⟩ := ih (by omega)
    exact ⟨hf.congr ⟨c.mem, rfl⟩, hp⟩

theorem walk_filled (h : walk addr kind c = (.ok (paddr, e), c')) :
    Filled c addr kind e ∧ paddr = e.paddrBase ||| (addr &&& e.mask) :=
  (walk_walked h).2.filled (pageLevels_le _)

/-! ## Lookups -/

/-- the index an address has in the TLBs -/
def tlbIndex (addr : BitVec 64) : BitVec 9 := (addr >>> 12).setWidth 9

/-- the access is made with the address it names -/
def Cpu.untranslated (c : Cpu) (kind : FaultKind) : Prop := c.mmuBypass kind = true ∨ satpMode c.satp = satpModeBare

instance (c : Cpu) (kind : FaultKind) : Decidable (c.untranslated kind) := by
  unfold Cpu.untranslated
  infer_instance

theorem lookup_untranslated (h : c.untranslated kind) (mm : Mmu) (addr : BitVec 64) :
    mm.lookup addr kind c = (.ok (none, addr), c) := by
  rw [Mmu.lookup, gets_bind_run]
  rw [if_pos (by exact h)]
  rfl

theorem lookup_hit (h : ¬ c.untranslated kind)
    (he : mm.table kind (tlbIndex addr) = e) (hv : e.valid = true) (ht : andNot addr e.mask = e.tag)
    (ha : c.accessAllowed e.perms kind = true) :
    mm.lookup addr kind c = (.ok (some e, e.paddrBase + (addr &&& e.mask)), c) := by
  subst he
  rw [Mmu.lookup, gets_bind_run]
  rw [if_neg (by exact h), if_pos ⟨hv, ht, ha⟩]
  rfl

def Mmu.hit (mm : Mmu) (c : Cpu) (addr : BitVec 64) (kind : FaultKind) : Bool :=
  let e := mm.table kind (tlbIndex addr)
  e.valid ∧ andNot addr e.mask = e.tag ∧ c.accessAllowed e.perms kind

theorem lookup_run (mm : Mmu) (addr : BitVec 64) (kind : FaultKind) (c : Cpu) :
    mm.lookup addr kind c =
      if c.untranslated kind then (.ok (none, addr), c)
      else if mm.hit c addr kind then
        (.ok (some (mm.table kind (tlbIndex addr)),
          (mm.table kind (tlbIndex addr)).paddrBase + (addr &&& (mm.table kind (tlbIndex addr)).mask)), c)
      else match walk addr kind c with
        | (.error f, c') => (.error f, c')
        | (.ok (paddr, fill), c') =>
            (.ok (some fill, paddr), { c' with mmu := some (mm.setEntry kind (tlbIndex addr) fill) }) := by
  by_cases hu : c.untranslated kind
  · rw [if_pos hu, lookup_untranslated hu]
  rw [if_neg hu]
  by_cases hit : mm.hit c addr kind = true
  · obtain ⟨hv, ht, ha⟩ := of_decide_eq_true hit
    rw [if_pos hit, lookup_hit hu rfl hv ht ha]
  · rw [if_neg hit, Mmu.lookup, gets_bind_run, if_neg (by exact hu), if_neg (by exact fun h => hit (decide_eq_true h))]
    rcases hr : walk addr kind c with ⟨f | ⟨paddr, fill⟩, c'⟩
    · rw [bind_of_error hr]
    · rw [bind_of_ok hr]
      rfl

theorem lookup_none
    (h : mm.lookup addr kind c = (.ok (none, paddr), c')) : paddr = addr ∧ c' = c := by
  rw [lookup_run] at h
  split_ifs at h
  · cases h
    exact ⟨rfl, rfl⟩
  · cases h
  · rcases hr : walk addr kind c with ⟨f | r, c''⟩
    · rw [hr] at h
      cases h
    · rw [hr] at h
      cases h

end RiscvEmu
