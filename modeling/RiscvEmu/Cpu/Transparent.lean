/-
The TLB cannot be seen.

A run is a sequence of loads, stores, fetches, writes of `satp`, `SFENCE.VMA` and changes to anything else (`TlbOp`:
privilege, `mstatus`, registers, memory). Beside it goes a note of the page-table entries that its walks have read
since the last flush (`noted`).

`tlb_transparent`: if at every lookup the noted entries are in memory as they were, up to A and D bits, then every
lookup gives what a walk would give.

`undisturbed_of_spares`: without a device board this holds if no store of the guest changes a noted entry.
-/
import RiscvEmu.Cpu.Mapping

namespace RiscvEmu

open GuestMemory List BitVec Bytes

open Exec

/-! ## The runs -/

inductive TlbOp
  | load (width addr : BitVec 64)
  | store (width addr value : BitVec 64)
  | fetch (width addr : BitVec 64)
  | satp (value : BitVec 64)
  | sfence
  | other (d : Cpu)

def TlbOp.run : TlbOp → Cpu → Cpu
  | .load w a, c => (loadVia w a c).2
  | .store w a v, c => (storeVia w a v c).2
  | .fetch w a, c => (fetchVia w a c).2
  | .satp v, c => (c.writeCSR 0x180 v).2
  | .sfence, c => c.flushTLB
  | .other d, c => { d with satp := c.satp, mmu := c.mmu }

/-- the lookup that the operation makes: none if the address is not aligned -/
def TlbOp.lookup : TlbOp → Option (BitVec 64 × FaultKind)
  | .load w a => if a &&& (w - 1) ≠ 0 then none else some (a, .load)
  | .store w a _ => if a &&& (w - 1) ≠ 0 then none else some (a, .store)
  | .fetch w a => if a &&& (w - 1) ≠ 0 then none else some (a, .fetch)
  | _ => none

/-- the kinds of access there is a TLB for -/
def accessKinds : List FaultKind := [.load, .store, .fetch]

theorem TlbOp.lookup_kind {addr : BitVec 64} {kind : FaultKind} (op : TlbOp) (h : op.lookup = some (addr, kind)) :
    kind ∈ accessKinds := by
  have hsome : ∀ {p : Prop} [Decidable p] {a : BitVec 64} {k : FaultKind},
      (if p then none else some (a, k)) = some (addr, kind) → k = kind := by
    intro p _ a k hp
    split_ifs at hp
    cases hp
    rfl
  cases op with
  | load w a => exact hsome h ▸ by decide
  | store w a v => exact hsome h ▸ by decide
  | fetch w a => exact hsome h ▸ by decide
  | satp v => cases h
  | sfence => cases h
  | other d => cases h

/-- the entries that a walk from the table at `pt` reads, as it leaves them -/
def walkFromReads (addr : BitVec 64) (kind : FaultKind) : Nat → BitVec 64 → Cpu → List (BitVec 64 × BitVec 64)
  | 0, _, _ => []
  | level + 1, pt, c =>
    let p := pteAddr pt (addr >>> (12 + 9 * level))
    match onMem (GuestMemory.load64 p) c with
    | (.error _, _) => []
    | (.ok v, c') =>
      if v &&& (pteR ||| pteX) = 0 then (p, v) :: walkFromReads addr kind level (ptePpn v <<< 12) c'
      else [(p, pteUpdated v kind)]

/-- the entries that a lookup reads to fill the TLB -/
def Mmu.fillReads (mm : Mmu) (addr : BitVec 64) (kind : FaultKind) (c : Cpu) : List (BitVec 64 × BitVec 64) :=
  if c.untranslated kind ∨ mm.hit c addr kind then []
  else if (walk addr kind c).1.isOk then walkFromReads addr kind (pageLevels c.satp) (satpRoot c.satp) c
  else []

/-- the entries read since the last flush, after the operation -/
def noted (n : List (BitVec 64 × BitVec 64)) (c : Cpu) : TlbOp → List (BitVec 64 × BitVec 64)
  | .satp v => if satpWriteSupported v ∧ c.satp ≠ v then [] else n
  | .sfence => []
  | op =>
    match c.mmu, op.lookup with
    | some mm, some (addr, kind) => n ++ mm.fillReads addr kind c
    | _, _ => n

/-- a noted entry is in memory, with A and D bits possibly set since -/
def Cpu.Holds (c : Cpu) (r : BitVec 64 × BitVec 64) : Prop := ∃ v, c.reads r.1 v ∧ Grown r.2 v

/-- at every lookup of the run the noted entries are in memory -/
def Undisturbed : List TlbOp → List (BitVec 64 × BitVec 64) → Cpu → Prop
  | [], _, _ => True
  | op :: ops, n, c => (op.lookup ≠ none → ∀ r ∈ n, c.Holds r) ∧ Undisturbed ops (noted n c op) (op.run c)

/-- the translation of an address without a TLB -/
def translateAfresh (addr : BitVec 64) (kind : FaultKind) (c : Cpu) : Except MemFault (BitVec 64) :=
  if c.untranslated kind then .ok addr else (walk addr kind c).1.map Prod.fst

/-- every lookup of the run answers as a walk would -/
def Transparent : List TlbOp → Cpu → Prop
  | [], _ => True
  | op :: ops, c =>
    (∀ addr kind mm, op.lookup = some (addr, kind) → c.mmu = some mm →
      (mm.lookup addr kind c).1.map Prod.snd = translateAfresh addr kind c) ∧ Transparent ops (op.run c)

/-! ## What is in the TLB -/

/-- every valid entry was filled from entries that are noted -/
def TlbNoted (n : List (BitVec 64 × BitVec 64)) (c : Cpu) : Prop :=
  ∀ mm, c.mmu = some mm → ∀ kind ∈ accessKinds, ∀ i, (mm.table kind i).valid = true →
    ∃ addr l v, canonicalVA addr (pageLevels c.satp) = true ∧
      Maps (fun p w => (p, w) ∈ n) addr (pageLevels c.satp) (satpRoot c.satp) l v ∧
      EntryFor addr l v (mm.table kind i) ∧ pteUpdated v kind = v

theorem Walked.noted {addr pt : BitVec 64} {kind : FaultKind} {level : Nat} {c c' : Cpu} {r : BitVec 64 × TlbEntry}
    (h : Walked addr kind level pt c r c') :
    ∃ l v, Maps (fun p w => (p, w) ∈ walkFromReads addr kind level pt c) addr level pt l v ∧
      EntryFor addr l v r.2 ∧ pteUpdated v kind = v := by
  induction h with
  | @leaf level _ v _ _ _ hr hinv hptr _ hs _ =>
    have hg := grown_pteUpdated v kind
    refine ⟨level, pteUpdated v kind, ?_, EntryFor.grown ⟨rfl, rfl, rfl, rfl, hs⟩ hg, pteUpdated_idem v kind⟩
    unfold walkFromReads
    simp only [hr]
    rw [if_neg hptr]
    exact .leaf mem_cons_self (fun hi => hinv (hg.invalid_iff.2 hi)) (hg.pointer ▸ hptr)
  | next hr hinv hptr _ ih =>
    obtain ⟨l, w, hm, he, hu⟩ := ih
    refine ⟨l, w, ?_, he, hu⟩
    unfold walkFromReads
    simp only [hr]
    rw [if_pos hptr]
    exact .next mem_cons_self hinv hptr (hm.mono fun p w hp => mem_cons_of_mem _ hp)

theorem walk_of_hit {addr : BitVec 64} {kind : FaultKind} {mm : Mmu} {n : List (BitVec 64 × BitVec 64)} {c : Cpu}
    (hn : TlbNoted n c) (hh : ∀ r ∈ n, c.Holds r) (hmm : c.mmu = some mm) (hk : kind ∈ accessKinds)
    (hit : mm.hit c addr kind = true) :
    (walk addr kind c).1.map Prod.fst =
      .ok ((mm.table kind (tlbIndex addr)).paddrBase + (addr &&& (mm.table kind (tlbIndex addr)).mask)) := by
  obtain ⟨hv, ht, ha⟩ := of_decide_eq_true hit
  obtain ⟨addr₀, l, v, hcan, hmap, he, hu⟩ := hn mm hmm kind hk _ hv
  have hpage : andNot addr₀ (pageMask l) = andNot addr (pageMask l) := by rw [← he.tag, ← ht, he.mask]
  obtain ⟨v', hmap', hg⟩ := (hmap.congr (pageLevels_le _) hpage).grown fun p w hp => hh (p, w) hp
  obtain ⟨p, -, hw⟩ := walkFrom_of_maps hmap' kind
  obtain ⟨fill, hleaf⟩ := @walkLeaf_of_entryFor _ _ _ _ addr _ _ (he.grown hg) ha (hg.pteUpdated hu) p
  have hc : canonicalVA addr (pageLevels c.satp) = true := by
    rw [← canonicalVA_of_page hmap.level_lt hpage, hcan]
  have hrun : walk addr kind c = walkFrom addr kind (pageLevels c.satp) (satpRoot c.satp) c := by
    rw [walk_run, if_neg (by simp [hc])]
    rfl
  rw [hrun, hw, hleaf]
  rfl

/-! ## Lookups -/

theorem lookup_afresh {kind : FaultKind} {mm : Mmu} {n : List (BitVec 64 × BitVec 64)} {c : Cpu} (hn : TlbNoted n c)
    (hh : ∀ r ∈ n, c.Holds r)
    (hmm : c.mmu = some mm) (addr : BitVec 64) (hk : kind ∈ accessKinds) :
    (mm.lookup addr kind c).1.map Prod.snd = translateAfresh addr kind c := by
  rw [lookup_run, translateAfresh]
  by_cases hu : c.untranslated kind
  · rw [if_pos hu, if_pos hu]
    rfl
  rw [if_neg hu, if_neg hu]
  by_cases hit : mm.hit c addr kind = true
  · rw [if_pos hit, walk_of_hit hn hh hmm hk hit]
    rfl
  · rw [if_neg hit]
    rcases walk addr kind c with ⟨f | ⟨paddr, fill⟩, c'⟩ <;> rfl

theorem TlbNoted.congr {n : List (BitVec 64 × BitVec 64)} {c c' : Cpu} (h : TlbNoted n c) (hmmu : c'.mmu = c.mmu)
    (hsatp : c'.satp = c.satp) : TlbNoted n c' := by
  unfold TlbNoted
  rw [hmmu, hsatp]
  exact h

theorem TlbNoted.more {n : List (BitVec 64 × BitVec 64)} {c : Cpu} (h : TlbNoted n c)
    (n' : List (BitVec 64 × BitVec 64)) : TlbNoted (n ++ n') c := by
  intro mm hmm kind hk i hv
  obtain ⟨addr, l, v, hcan, hmap, he, hu⟩ := h mm hmm kind hk i hv
  exact ⟨addr, l, v, hcan, hmap.mono fun p w hp => mem_append_left _ hp, he, hu⟩

theorem table_setEntry_cases {kind : FaultKind} (mm : Mmu) {kind' : FaultKind} (hk : kind ∈ accessKinds)
    (hk' : kind' ∈ accessKinds)
    (idx i : BitVec 9) (e : TlbEntry) :
    (kind' = kind ∧ (mm.setEntry kind idx e).table kind' i = e) ∨
      (mm.setEntry kind idx e).table kind' i = mm.table kind' i := by
  simp only [accessKinds, mem_cons, not_mem_nil, or_false] at hk hk'
  rcases hk with rfl | rfl | rfl <;> rcases hk' with rfl | rfl | rfl <;> by_cases hi : i = idx <;>
    simp [Mmu.setEntry, Mmu.table, hi]

theorem TlbNoted.lookup {kind : FaultKind} {mm : Mmu} {n : List (BitVec 64 × BitVec 64)} {c : Cpu} (h : TlbNoted n c)
    (hmm : c.mmu = some mm) (addr : BitVec 64) (hk : kind ∈ accessKinds) :
    TlbNoted (n ++ mm.fillReads addr kind c) (mm.lookup addr kind c).2 := by
  rw [lookup_run, Mmu.fillReads]
  by_cases hu : c.untranslated kind
  · rw [if_pos hu]
    exact h.more _
  by_cases hit : mm.hit c addr kind = true
  · rw [if_neg hu, if_pos hit]
    exact h.more _
  rw [if_neg hu, if_neg hit, if_neg (by simp [hu, hit])]
  have hmem := walk_onlyMem addr kind c
  rcases hr : walk addr kind c with ⟨f | ⟨paddr, fill⟩, c'⟩
  · rw [hr] at hmem
    obtain ⟨m, rfl⟩ := hmem
    exact (h.more _).congr rfl rfl
  rw [hr] at hmem
  obtain ⟨m, rfl⟩ := hmem
  obtain ⟨hcan, hwalked⟩ := walk_walked hr
  obtain ⟨l, v, hmap, he, hup⟩ := hwalked.noted
  intro mm' hmm' kind' hk' i hv
  cases hmm'
  rcases table_setEntry_cases mm hk hk' (tlbIndex addr) i fill with ⟨rfl, heq⟩ | heq
  · rw [heq]
    exact ⟨addr, l, v, hcan, hmap.mono fun p w hp => mem_append_right _ hp, he, hup⟩
  · rw [heq] at hv ⊢
    exact (@TlbNoted.congr _ _ (Cpu.setMem m c) (h.more _) rfl rfl) mm hmm kind' hk' i hv

/-! ## Whole accesses -/

/-- `c'` has the TLB and the tables of `c` -/
def SameTlb (c c' : Cpu) : Prop := c'.mmu = c.mmu ∧ c'.satp = c.satp

/-- the entries noted when an access has translated its address -/
theorem translated_noted {kind : FaultKind} {n : List (BitVec 64 × BitVec 64)} {c c' : Cpu} (hn : TlbNoted n c)
    (hk : kind ∈ accessKinds) (w a : BitVec 64)
    (h : SameTlb (c.translated kind w a) c') :
    TlbNoted (match c.mmu, if a &&& (w - 1) ≠ 0 then none else some (a, kind) with
      | some mm, some (addr, kind) => n ++ mm.fillReads addr kind c
      | _, _ => n) c' := by
  refine TlbNoted.congr ?_ h.1 h.2
  unfold Cpu.translated
  cases hmm : c.mmu with
  | none => exact hn
  | some mm =>
    dsimp only
    split_ifs
    · exact hn
    · exact hn.lookup hmm a hk

theorem load_noted {n : List (BitVec 64 × BitVec 64)} {c : Cpu} (hn : TlbNoted n c) (w a : BitVec 64) :
    TlbNoted (noted n c (.load w a)) (loadVia w a c).2 :=
  translated_noted hn (by decide) w a (loadVia_ends ⟨rfl, rfl⟩ fun _ _ hs => hs)

theorem store_noted {n : List (BitVec 64 × BitVec 64)} {c : Cpu} (hn : TlbNoted n c) (w a v : BitVec 64) :
    TlbNoted (noted n c (.store w a v)) (storeVia w a v c).2 :=
  translated_noted hn (by decide) w a (storeVia_ends ⟨rfl, rfl⟩ (fun _ _ hs => hs) fun _ _ hs => hs)

theorem fetch_noted {n : List (BitVec 64 × BitVec 64)} {c : Cpu} (hn : TlbNoted n c) (w a : BitVec 64) :
    TlbNoted (noted n c (.fetch w a)) (fetchVia w a c).2 :=
  translated_noted hn (by decide) w a (fetchVia_ends ⟨rfl, rfl⟩ fun _ _ hs => hs)

theorem flushTLB_noted (n : List (BitVec 64 × BitVec 64)) (c : Cpu) : TlbNoted n c.flushTLB := by
  intro mm hmm kind _ i hv
  unfold Cpu.flushTLB at hmm
  cases hc : c.mmu with
  | none =>
    rw [hc] at hmm
    cases hmm
  | some mm₀ =>
    rw [hc] at hmm
    cases hmm
    cases kind <;> cases hv

theorem run_noted {n : List (BitVec 64 × BitVec 64)} {c : Cpu} (hn : TlbNoted n c) (op : TlbOp) :
    TlbNoted (noted n c op) (op.run c) := by
  cases op with
  | load w a => exact load_noted hn w a
  | store w a v => exact store_noted hn w a v
  | fetch w a => exact fetch_noted hn w a
  | sfence => exact flushTLB_noted _ c
  | other d =>
    have hsame : noted n c (.other d) = n := by
      unfold noted
      cases c.mmu <;> rfl
    rw [hsame]
    exact hn.congr rfl rfl
  | satp v =>
    have hrun : (c.writeCSR 0x180 v).2 = if satpWriteSupported v ∧
        c.satp ≠ v then { c with satp := v }.flushTLB else c := by
      change (if satpWriteSupported v ∧ c.satp ≠ v then (true, { c with satp := v }.flushTLB) else (true, c)).2 = _
      split_ifs <;> rfl
    rw [TlbOp.run, hrun, noted]
    split_ifs
    · exact flushTLB_noted _ _
    · exact hn

/-- **The TLB cannot be seen.**  In every run from a flushed TLB in which, at every lookup, the
page-table entries read since the last flush are in memory as they were (but for A and D), every
lookup gives the physical address, or the fault, of a walk in that state. -/
theorem tlb_transparent (ops : List TlbOp) (c : Cpu) (h : Undisturbed ops [] c.flushTLB) :
    Transparent ops c.flushTLB := by
  have hrun : ∀ (ops : List TlbOp) n c, TlbNoted n c → Undisturbed ops n c → Transparent ops c := by
    intro ops
    induction ops with
    | nil => exact fun _ _ _ _ => trivial
    | cons op ops ih =>
      intro n c hn hu
      refine ⟨fun addr kind mm hl hmm => ?_, ih _ _ (run_noted hn op) hu.2⟩
      exact lookup_afresh hn (hu.1 (by simp [hl])) hmm addr (op.lookup_kind hl)
  exact hrun ops [] _ (flushTLB_noted [] c) h

/-! ## Plain memory -/

theorem readLe_writeLe_same (b : Bytes) (a v : BitVec 64) : (b.writeLe a 8 v).readLe a 8 = v := by
  apply eq_of_getLsbD_eq
  intro t ht
  have hi : t / 8 < 8 := by omega
  have hoff : (a + BitVec.ofNat 64 (t / 8) - a).toNat = t / 8 := by bv_omega
  rw [getLsbD_readLe _ _ (Nat.le_refl 8), writeLe_apply, hoff, if_pos hi, getLsbD_byteOf,
    show 8 * (t / 8) + t % 8 = t by omega, decide_eq_true (show t < 8 * 8 by omega),
    decide_eq_true (show t % 8 < 8 by omega), Bool.true_and, Bool.true_and]

theorem readLe_writeLe_other (b : Bytes) {a a' : BitVec 64} (v : BitVec 64) (ha : a.toNat % 8 = 0)
    (ha' : a'.toNat % 8 = 0)
    (hne : a ≠ a') : (b.writeLe a' 8 v).readLe a 8 = b.readLe a 8 := by
  rw [readLe_eq_assemble, readLe_eq_assemble]
  refine assemble_congr fun i hi => ?_
  have hn : a.toNat ≠ a'.toNat := fun h => hne (eq_of_toNat_eq h)
  have hlt := a.isLt
  have hlt' := a'.isLt
  rw [writeLe_apply, if_neg]
  rw [toNat_sub, toNat_add, toNat_ofNat]
  omega

theorem and_seven_iff (a : BitVec 64) : a &&& (8 - 1) = 0 ↔ a.toNat % 8 = 0 := by
  have h : (a &&& (8 - 1)).toNat = a.toNat % 8 := by
    rw [toNat_and, show ((8 : BitVec 64) - 1).toNat = 2 ^ 3 - 1 by rfl, Nat.and_two_pow_sub_one_eq_mod]
  rw [← h]
  exact ⟨fun h0 => by rw [h0]; rfl, fun h0 => eq_of_toNat_eq h0⟩

theorem reads_iff {c : Cpu} (hb : c.mem.mmio = none) (p v : BitVec 64) :
    c.reads p v ↔ c.mem.accessFault p 8 .load = none ∧ c.mem.bytes.readLe (c.mem.hostPtr p) 8 = v := by
  unfold Cpu.reads GuestMemory.load64
  rw [load_noMmio hb]
  cases c.mem.accessFault p 8 .load with
  | none => simp
  | some f => simp

theorem accessFault_aligned {p : BitVec 64} {kind : FaultKind} {m : GuestMemory} (h : m.accessFault p 8 kind = none) :
    p.toNat % 8 = 0 ∧ m.hostPtr p = p := by
  obtain ⟨ha, hlt, -⟩ := (m.check_eq_zero_iff p 8).1 ((m.accessFault_eq_none_iff p 8 kind).1 h).2
  exact ⟨(and_seven_iff p).1 ha, hostPtr_of_lt hlt⟩

/-- memory is plain and holds the noted entries -/
structure TablesIn (n : List (BitVec 64 × BitVec 64)) (c : Cpu) : Prop where
  plain : c.mem.mmio = none
  holds : ∀ r ∈ n, c.Holds r

theorem TablesIn.congr {n : List (BitVec 64 × BitVec 64)} {c c' : Cpu} (h : TablesIn n c) (hm : c'.mem = c.mem) :
    TablesIn n c' := by
  refine ⟨hm ▸ h.plain, fun r hr => ?_⟩
  unfold Cpu.Holds Cpu.reads
  rw [hm]
  exact h.holds r hr

theorem holds_writeBack {p v : BitVec 64} {kind : FaultKind} {c : Cpu} (hb : c.mem.mmio = none)
    {r : BitVec 64 × BitVec 64} (h : c.Holds r)
    (hp : c.reads p v) (hf : c.mem.accessFault p 8 .store = none) :
    (Cpu.setMem { c.mem with bytes := c.mem.bytes.writeLe (c.mem.hostPtr p) 8 (pteUpdated v kind) } c).Holds r := by
  obtain ⟨w, hr, hg⟩ := h
  obtain ⟨hrf, hrv⟩ := (reads_iff hb _ _).1 hr
  obtain ⟨ha, hhost⟩ := accessFault_aligned hf
  obtain ⟨ha', hhost'⟩ := accessFault_aligned hrf
  have hnew : ∀ x,
      (Cpu.setMem { c.mem with bytes := c.mem.bytes.writeLe (c.mem.hostPtr p) 8 (pteUpdated v kind) } c).reads
      r.1 x ↔ (c.mem.bytes.writeLe p 8 (pteUpdated v kind)).readLe r.1 8 = x := by
    intro x
    have hiff := reads_iff (c := Cpu.setMem { c.mem with
      bytes := c.mem.bytes.writeLe (c.mem.hostPtr p) 8 (pteUpdated v kind) } c) hb r.1 x
    rw [hiff]
    change c.mem.accessFault r.1 8 .load = none ∧
      (c.mem.bytes.writeLe (c.mem.hostPtr p) 8 (pteUpdated v kind)).readLe (c.mem.hostPtr r.1) 8 = x ↔ _
    rw [hhost, hhost']
    exact ⟨fun hx => hx.2, fun hx => ⟨hrf, hx⟩⟩
  by_cases heq : r.1 = p
  · have hwv : w = v := by
      rw [heq] at hr
      have := hr.symm.trans hp
      simpa using this
    rw [hwv] at hg
    exact ⟨pteUpdated v kind, (hnew _).2 (by rw [heq, readLe_writeLe_same]), hg.trans (grown_pteUpdated v kind)⟩
  · refine ⟨w, (hnew _).2 ?_, hg⟩
    rw [readLe_writeLe_other _ _ ha' ha heq, ← hrv, hhost']

namespace TablesIn

theorem writeBack {n : List (BitVec 64 × BitVec 64)} {c : Cpu} (h : TablesIn n c) {p v : BitVec 64} (hp : c.reads p v)
    (kind : FaultKind) : TablesIn n (writeBackPte p v (pteUpdated v kind) c).2 := by
  unfold writeBackPte
  split_ifs with hne
  · have hrun : (onMem (GuestMemory.store64 p (pteUpdated v kind)) c).2 =
        Cpu.setMem (GuestMemory.store64 p (pteUpdated v kind) c.mem).2 c := rfl
    rw [hrun, GuestMemory.store64, store_noMmio h.plain]
    cases hf : c.mem.accessFault p 8 .store with
    | some f => exact h
    | none => exact ⟨h.plain, fun r hr => holds_writeBack h.plain (h.holds r hr) hp hf⟩
  · exact h

theorem walkLeaf {n : List (BitVec 64 × BitVec 64)} {c : Cpu} (h : TablesIn n c) {p v : BitVec 64} (hp : c.reads p v)
    (addr : BitVec 64) (kind : FaultKind) (l : Nat) :
    TablesIn n (walkLeaf addr kind l p v c).2 := by
  have hwb := h.writeBack hp kind
  rw [RiscvEmu.walkLeaf, gets_bind_run]
  split_ifs
  · exact h
  · exact h
  · rcases hr : writeBackPte p v (pteUpdated v kind) c with ⟨f | u, c'⟩
    · rw [hr] at hwb
      rw [bind_of_error hr]
      exact hwb
    · rw [hr] at hwb
      rw [bind_of_ok hr]
      exact hwb

end TablesIn

theorem load64_plain {c : Cpu} (hb : c.mem.mmio = none) (p : BitVec 64) :
    (∃ f, onMem (GuestMemory.load64 p) c = (.error f, c)) ∨ ∃ v, onMem (GuestMemory.load64 p) c = (.ok v, c) ∧
      c.reads p v := by
  have hrun : onMem
      (GuestMemory.load64 p) c = ((GuestMemory.load64 p c.mem).1, Cpu.setMem (GuestMemory.load64 p c.mem).2 c) :=
    rfl
  rw [hrun, GuestMemory.load64, load_noMmio hb]
  cases hf : c.mem.accessFault p 8 .load with
  | some f => exact Or.inl ⟨f, rfl⟩
  | none => exact Or.inr ⟨_, rfl, (reads_iff hb _ _).2 ⟨hf, rfl⟩⟩

namespace TablesIn

theorem walkFrom {n : List (BitVec 64 × BitVec 64)} {c : Cpu} (h : TablesIn n c) (addr : BitVec 64) (kind : FaultKind)
    (level : Nat) (pt : BitVec 64) :
    TablesIn n (walkFrom addr kind level pt c).2 := by
  induction level generalizing pt with
  | zero => exact h
  | succ level ih =>
    rw [walkFrom_succ]
    rcases load64_plain h.plain (pteAddr pt (addr >>> (12 + 9 * level))) with ⟨f, hr⟩ | ⟨v, hr, hp⟩
    · rw [bind_of_error hr]
      exact h
    rw [bind_of_ok hr]
    split_ifs
    · exact h
    · exact ih _
    · exact h.walkLeaf hp addr kind level

theorem walk {n : List (BitVec 64 × BitVec 64)} {c : Cpu} (h : TablesIn n c) (addr : BitVec 64) (kind : FaultKind) :
    TablesIn n (walk addr kind c).2 := by
  rw [walk_run]
  split_ifs
  · exact h
  · exact h.walkFrom addr kind _ _

end TablesIn

theorem reads_writeBack {p v : BitVec 64} {kind : FaultKind} {c c' : Cpu} (hb : c.mem.mmio = none)
    (hp : c.reads p v) {u : Unit}
    (h : writeBackPte p v (pteUpdated v kind) c = (.ok u, c')) : c'.reads p (pteUpdated v kind) := by
  obtain ⟨hpf, hpv⟩ := (reads_iff hb _ _).1 hp
  unfold writeBackPte at h
  by_cases hne : pteUpdated v kind ≠ v
  · rw [if_pos hne] at h
    have hrun : onMem (GuestMemory.store64 p (pteUpdated v kind)) c =
        ((GuestMemory.store64 p (pteUpdated v kind) c.mem).1,
      Cpu.setMem (GuestMemory.store64 p (pteUpdated v kind) c.mem).2 c) := rfl
    rw [hrun, GuestMemory.store64, store_noMmio hb] at h
    cases hf : c.mem.accessFault p 8 .store with
    | some f =>
      rw [hf] at h
      cases h
    | none =>
      rw [hf] at h
      dsimp only at h
      cases h
      have hiff := reads_iff (c := Cpu.setMem { c.mem with
        bytes := c.mem.bytes.writeLe (c.mem.hostPtr p) 8 (pteUpdated v kind) } c) hb p (pteUpdated v kind)
      exact hiff.2 ⟨hpf, readLe_writeLe_same ..⟩
  · rw [if_neg hne] at h
    cases h
    rw [not_not.1 hne]
    exact hp

theorem reads_of_ok {p v : BitVec 64} {c c' : Cpu} (hb : c.mem.mmio = none)
    (h : onMem (GuestMemory.load64 p) c = (.ok v, c')) : c' = c ∧ c.reads p v := by
  obtain ⟨f, hr⟩ | ⟨_, hr, hp⟩ := load64_plain hb p
  · cases hr.symm.trans h
  · cases hr.symm.trans h
    exact ⟨rfl, hp⟩

theorem Walked.tablesIn {addr pt : BitVec 64} {kind : FaultKind} {level : Nat} {n : List (BitVec 64 × BitVec 64)}
    {c c' : Cpu} {q : BitVec 64 × TlbEntry}
    (hw : Walked addr kind level pt c q c') (h : TablesIn n c) : TablesIn n c' := by
  induction hw with
  | leaf hr _ _ _ _ hback =>
    obtain ⟨rfl, hp⟩ := reads_of_ok h.plain hr
    have hkept := h.writeBack hp kind
    rwa [hback] at hkept
  | next hr _ _ _ ih =>
    obtain ⟨rfl, -⟩ := reads_of_ok h.plain hr
    exact ih h

theorem Walked.holds {addr pt : BitVec 64} {kind : FaultKind} {level : Nat} {c c' : Cpu} {q : BitVec 64 × TlbEntry}
    (h : Walked addr kind level pt c q c')
    (hb : c.mem.mmio = none) : ∀ r ∈ walkFromReads addr kind level pt c, c'.Holds r := by
  induction h with
  | leaf hr _ hptr _ _ hw =>
    obtain ⟨rfl, hp⟩ := reads_of_ok hb hr
    intro r hmem
    unfold walkFromReads at hmem
    simp only [hr] at hmem
    rw [if_neg hptr] at hmem
    obtain rfl := mem_singleton.1 hmem
    exact ⟨_, reads_writeBack hb hp hw, Grown.refl _⟩
  | @next level pt v _ c _ _ hr _ hptr hwalked ih =>
    obtain ⟨rfl, hp⟩ := reads_of_ok hb hr
    intro r hmem
    unfold walkFromReads at hmem
    simp only [hr] at hmem
    rw [if_pos hptr] at hmem
    rcases mem_cons.1 hmem with rfl | hrest
    · have hread : c.Holds (pteAddr pt (addr >>> (12 + 9 * level)), v) := ⟨v, hp, Grown.refl v⟩
      exact (hwalked.tablesIn ⟨hb, fun r hr => mem_singleton.1 hr ▸ hread⟩).holds _ mem_cons_self
    · exact ih hb r hrest

theorem holds_fillReads {c : Cpu} (hb : c.mem.mmio = none) (mm : Mmu) (addr : BitVec 64) (kind : FaultKind) :
    ∀ r ∈ mm.fillReads addr kind c, (mm.lookup addr kind c).2.Holds r := by
  intro r hr
  rw [lookup_run]
  unfold Mmu.fillReads at hr
  by_cases hu : c.untranslated kind
  · rw [if_pos (Or.inl hu)] at hr
    cases hr
  by_cases hit : mm.hit c addr kind = true
  · rw [if_pos (Or.inr hit)] at hr
    cases hr
  rw [if_neg hu, if_neg hit]
  rw [if_neg (by simp [hu, hit])] at hr
  rcases hw : walk addr kind c with ⟨f | ⟨paddr, fill⟩, c'⟩
  · rw [hw] at hr
    cases hr
  · rw [hw] at hr
    exact (walk_walked hw).2.holds hb r hr

/-- in plain memory a lookup leaves the noted entries where they are, and notes what is there -/
theorem TablesIn.lookup {n : List (BitVec 64 × BitVec 64)} {c : Cpu} (h : TablesIn n c) (mm : Mmu) (addr : BitVec 64)
    (kind : FaultKind) : TablesIn (n ++ mm.fillReads addr kind c) (mm.lookup addr kind c).2 := by
  have hkeep : TablesIn n (mm.lookup addr kind c).2 := by
    have hwalk := h.walk addr kind
    rw [lookup_run]
    split_ifs
    · exact h
    · exact h
    · rcases hr : RiscvEmu.walk addr kind c with ⟨f | ⟨paddr, fill⟩, c'⟩ <;> rw [hr] at hwalk
      · exact hwalk
      · exact hwalk.congr rfl
  refine ⟨hkeep.plain, fun r hr => ?_⟩
  rcases mem_append.1 hr with hr | hr
  · exact hkeep.holds r hr
  · exact holds_fillReads h.plain mm addr kind r hr

/-- the hart before a store writes its value -/
def Cpu.aboutToStore (c : Cpu) (w a : BitVec 64) : Cpu :=
  match c.mmu with
  | none => c
  | some mm => if a &&& (w - 1) ≠ 0 then c else (mm.lookup a .store c).2

/-- neither the value of a store nor a change from outside touches the noted entries, and no board
appears -/
def Spares (n : List (BitVec 64 × BitVec 64)) (c : Cpu) : TlbOp → Prop
  | .store w a v => ∀ r ∈ noted n c (.store w a v), (c.aboutToStore w a).Holds r → (storeVia w a v c).2.Holds r
  | .other d => d.mem.mmio = none ∧ ∀ r ∈ n, c.Holds r → ((TlbOp.other d).run c).Holds r
  | _ => True

def SparesThroughout : List TlbOp → List (BitVec 64 × BitVec 64) → Cpu → Prop
  | [], _, _ => True
  | op :: ops, n, c => Spares n c op ∧ SparesThroughout ops (noted n c op) (op.run c)

theorem load_plain {c : Cpu} (hb : c.mem.mmio = none) (w a : BitVec 64) : (onMem (load w a) c).2.mem = c.mem := by
  have hrun : (onMem (load w a) c).2 = Cpu.setMem (load w a c.mem).2 c := rfl
  rw [hrun, load_noMmio hb]
  rfl

theorem fetch_plain (c : Cpu) (w a : BitVec 64) : (onMem (fetch w a) c).2.mem = c.mem := by
  have hrun : (onMem (fetch w a) c).2 = Cpu.setMem (fetch w a c.mem).2 c := rfl
  rw [hrun, fetch]
  split
  · rfl
  · split_ifs <;> rfl

theorem store_plain {c : Cpu} (hb : c.mem.mmio = none) (w a v : BitVec 64) :
    (onMem (store w a v) c).2.mem.mmio = none := by
  have hrun : (onMem (store w a v) c).2 = Cpu.setMem (store w a v c.mem).2 c := rfl
  rw [hrun, store_noMmio hb]
  split <;> exact hb

theorem TablesIn.translated {n : List (BitVec 64 × BitVec 64)} {c : Cpu} (h : TablesIn n c) (kind : FaultKind)
    (w a : BitVec 64) :
    TablesIn (match c.mmu, if a &&& (w - 1) ≠ 0 then none else some (a, kind) with
      | some mm, some (addr, kind) => n ++ mm.fillReads addr kind c
      | _, _ => n) (c.translated kind w a) := by
  unfold Cpu.translated
  cases hmm : c.mmu with
  | none => exact h
  | some mm =>
    dsimp only
    split_ifs
    · exact h
    · exact h.lookup mm a kind

theorem TablesIn.load {n : List (BitVec 64 × BitVec 64)} {c : Cpu} (h : TablesIn n c) (w a : BitVec 64) :
    TablesIn (noted n c (.load w a)) (loadVia w a c).2 :=
  loadVia_ends (h.translated .load w a) fun p _ hs => hs.congr (load_plain hs.plain w p)

theorem TablesIn.fetch {n : List (BitVec 64 × BitVec 64)} {c : Cpu} (h : TablesIn n c) (w a : BitVec 64) :
    TablesIn (noted n c (.fetch w a)) (fetchVia w a c).2 :=
  fetchVia_ends (h.translated .fetch w a) fun p s hs => hs.congr (fetch_plain s w p)

theorem TablesIn.run {n : List (BitVec 64 × BitVec 64)} {c : Cpu} (h : TablesIn n c) {op : TlbOp} (hs : Spares n c op) :
    TablesIn (noted n c op) (op.run c) := by
  cases op with
  | load w a => exact h.load w a
  | fetch w a => exact h.fetch w a
  | store w a v =>
    have hmid : TablesIn (noted n c (.store w a v)) (c.aboutToStore w a) := h.translated .store w a
    have hplain : (storeVia w a v c).2.mem.mmio = none := storeVia_ends (P := fun s => s.mem.mmio = none) hmid.plain
      (fun p _ hs => store_plain hs w p v) fun _ _ hs => hs
    exact ⟨hplain, fun r hr => hs r hr (hmid.holds r hr)⟩
  | sfence => exact ⟨h.plain, fun r hr => by cases hr⟩
  | other d =>
    have hsame : noted n c (.other d) = n := by
      unfold noted
      cases c.mmu <;> rfl
    rw [hsame]
    exact ⟨hs.1, fun r hr => hs.2 r hr (h.holds r hr)⟩
  | satp v =>
    have hmem : (c.writeCSR 0x180 v).2.mem = c.mem := by
      change (if satpWriteSupported v ∧ c.satp ≠ v then (true, { c with satp := v }.flushTLB) else (true, c)).2.mem = _
      split_ifs <;> rfl
    have hin : TablesIn n (c.writeCSR 0x180 v).2 := h.congr hmem
    rw [noted]
    split_ifs
    · exact ⟨hin.plain, fun r hr => by cases hr⟩
    · exact hin

/-- in plain memory, entries that no store touches are undisturbed: the A and D bits that walks set
do no harm -/
theorem undisturbed_of_spares {n : List (BitVec 64 × BitVec 64)} {c : Cpu} {ops : List TlbOp} (h : TablesIn n c)
    (hs : SparesThroughout ops n c) : Undisturbed ops n c := by
  induction ops generalizing n c with
  | nil => trivial
  | cons op ops ih => exact ⟨fun _ => h.holds, ih (h.run hs.1) hs.2⟩

/-- a hart with 4 GiB in supervisor mode whose root table, at 4096, maps the lowest GiB to itself -/
def superpageCpu : Cpu :=
  let m := newGuestMemoryWithModel 32 .sandbox true
  let c := (newCPU { m with bytes := fun p => if p = 0x1000 then 0xCF else 0 }).enableMMU
  { c with priv := privSupervisor, satp := (satpModeSv39 <<< 60) ||| 1 }

/-- a walk, a hit through another page of the superpage, and a walk after a fence -/
theorem tlb_transparent_superpage :
    Transparent [.load 8 0x10, .load 8 0x200010, .sfence, .fetch 4 0x10] superpageCpu.flushTLB :=
  tlb_transparent
    _ _ (undisturbed_of_spares ⟨rfl, fun _ hr => by cases hr⟩ ⟨trivial, trivial, trivial, trivial, trivial⟩)

end RiscvEmu
