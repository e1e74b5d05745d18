/-
What a step does to memory, event by event.

An access of the hart is a sequence of events: bytes of the slab are read or written (`touch`), the device board answers
(`board`), and somebody refuses: the alignment check, the page walk, memory or a device (`refused`). The events of a
walk, of a translated access, of the access of an instruction and of a step follow the code from state to state.

`Traces m es`: the error of `m`, if there is one, is that of a refusal among its events `es`, and without a board no
byte changes that is not touched. The hart's accesses have it (`loadVia_traces`, …, `access_traces`).
-/
import RiscvEmu.Cpu.Dealings
import RiscvEmu.Cpu.Transparent

namespace RiscvEmu

open GuestMemory Bytes Exec

/-! ## Events -/

/-- why an access is refused -/
inductive Refusal
  | misaligned (addr width : BitVec 64)
  | page (addr : BitVec 64) (kind : FaultKind)
  | sandbox (addr width : BitVec 64)
  | memory (addr width : BitVec 64) (kind : FaultKind)
  | device (f : MemFault)

/-- the fault that is made of it -/
def Refusal.fault : Refusal → MemFault
  | .misaligned addr width => { addr := addr, width := width, kind := .misalign }
  | .page addr kind => pageFault addr kind
  | .sandbox addr width => { addr := addr, width := width, kind := .sandboxEscape }
  | .memory addr width kind => { addr := addr, width := width, kind := kind }
  | .device f => f

inductive MemEvent
  | touch (off : BitVec 64) (n : Nat)
  | board (m : GuestMemory) (a : MmioAccess)
  | refused (r : Refusal)

/-- an access that is refused as misaligned may be made once more, byte by byte -/
def MemEvent.final : MemEvent → Bool
  | .refused r => r.fault.kind ≠ .misalign
  | _ => true

/-- the faults of the refusals satisfy `Q` -/
def OnRefused (Q : MemFault → Prop) (es : List MemEvent) : Prop := ∀ r, .refused r ∈ es → Q r.fault

/-- byte `q` is one of those that are touched -/
def Touched (es : List MemEvent) (q : BitVec 64) : Prop := ∃ off n, .touch off n ∈ es ∧ (q - off).toNat < n

/-- the events that follow `m`, if it ends with a value -/
def following {α : Type} (m : MemOp α) (k : α → Cpu → List MemEvent) (c : Cpu) : List MemEvent :=
  match m c with
  | (.ok a, c') => k a c'
  | (.error _, _) => []

/-- the events of `m`, and those of what replaces it when it is refused as misaligned -/
def retried {α : Type} (m : MemOp α) (es hs : Cpu → List MemEvent) (c : Cpu) : List MemEvent :=
  (es c).filter MemEvent.final ++
    match m c with
    | (.error f, c') => if f.kind = .misalign then hs c' else []
    | (.ok _, _) => []

/-! ## Physical memory -/

namespace GuestMemory

variable (m : GuestMemory)

/-- the refusal of the checks that come first -/
def preRefusal (addr width : BitVec 64) (kind : FaultKind) : Option Refusal :=
  if (m.checkSandboxEscape addr width).isSome then some (.sandbox addr width)
  else if (m.checkAccessOverlay addr width kind).isSome then some (.memory addr width kind)
  else none

/-- what alignment and bounds leave of an access -/
def slabEvents (addr width : BitVec 64) (kind : FaultKind) : List MemEvent :=
  if m.check addr width = 0 then [.touch (m.hostPtr addr) width.toNat]
  else if addr &&& (width - 1) ≠ 0 then [.refused (.misaligned addr width)]
  else [.refused (.memory addr width kind)]

/-- an access that the board may answer -/
def boardEvents (a : MmioAccess) (addr width : BitVec 64) (kind : FaultKind) : List MemEvent :=
  match m.preRefusal addr width kind with
  | some r => [.refused r]
  | none =>
    match m.mmioAccess a with
    | some (.ok _, _) => [.board m a]
    | some (.error f, _) => [.board m a, .refused (.device f)]
    | none => m.slabEvents addr width kind

def loadEvents (width addr : BitVec 64) : List MemEvent := m.boardEvents (.load addr width) addr width .load

def storeEvents (width addr v : BitVec 64) : List MemEvent := m.boardEvents (.store addr width v) addr width .store

def fetchEvents (width addr : BitVec 64) : List MemEvent :=
  if (m.checkAccessOverlay addr width .fetch).isSome then [.refused (.memory addr width .fetch)]
  else m.slabEvents addr width .fetch

end GuestMemory

/-! ## Translation -/

/-- a leaf entry: not permitted, a superpage out of place, or its A and D bits are written back -/
def leafEvents (addr : BitVec 64) (kind : FaultKind) (level : Nat) (p pte : BitVec 64) (c : Cpu) : List MemEvent :=
  if !c.accessAllowed (tlbPerms pte) kind then [.refused (.page addr kind)]
  else if level > 0 ∧ ptePpn pte &&& ((1#64 <<< (9 * level)) - 1) ≠ 0 then [.refused (.page addr kind)]
  else if pteUpdated pte kind ≠ pte then c.mem.storeEvents 8 p (pteUpdated pte kind)
  else []

/-- a walk: each entry it comes to is read, and is invalid, a pointer or a leaf -/
def walkEvents (addr : BitVec 64) (kind : FaultKind) : Nat → BitVec 64 → Cpu → List MemEvent
  | 0, _, _ => [.refused (.page addr kind)]
  | level + 1, pt, c =>
    let p := pteAddr pt (addr >>> (12 + 9 * level))
    c.mem.loadEvents 8 p ++ following (onMem (GuestMemory.load64 p)) (fun pte c' =>
      if pte &&& pteV = 0 ∨ (pte &&& pteW ≠ 0 ∧ pte &&& pteR = 0) then [.refused (.page addr kind)]
      else if pte &&& (pteR ||| pteX) = 0 then walkEvents addr kind level (ptePpn pte <<< 12) c'
      else leafEvents addr kind level p pte c') c

/-- nothing happens where the address is used as it is or the TLB answers -/
def Mmu.lookupEvents (mm : Mmu) (addr : BitVec 64) (kind : FaultKind) (c : Cpu) : List MemEvent :=
  if c.untranslated kind then []
  else if mm.hit c addr kind then []
  else if !canonicalVA addr (pageLevels c.satp) then [.refused (.page addr kind)]
  else walkEvents addr kind (pageLevels c.satp) (satpRoot c.satp) c

/-- without an MMU memory answers; with one the address has to be aligned and is translated -/
def viaEvents (kind : FaultKind) (width addr : BitVec 64) (mem : Option TlbEntry × BitVec 64 → Cpu → List MemEvent)
    (c : Cpu) : List MemEvent :=
  match c.mmu with
  | none => mem (none, addr) c
  | some mm =>
    if addr &&& (width - 1) ≠ 0 then [.refused (.misaligned addr width)]
    else mm.lookupEvents addr kind c ++ following (mm.lookup addr kind) mem c

/-- a page that is mapped directly is accessed without further checks; `other` says what happens elsewhere -/
def pageEvents (width addr : BitVec 64) (other : Option TlbEntry → BitVec 64 → Cpu → List MemEvent)
    (r : Option TlbEntry × BitVec 64) (c : Cpu) : List MemEvent :=
  match r with
  | (some e, p) =>
    if e.direct then [.touch (e.hostBase + (addr &&& e.mask)) width.toNat] else other (some e) p c
  | (none, p) => other none p c

def loadViaEvents (width addr : BitVec 64) : Cpu → List MemEvent :=
  viaEvents .load width addr (pageEvents width addr fun _ p c => c.mem.loadEvents width p)

def storeViaEvents (width addr v : BitVec 64) : Cpu → List MemEvent :=
  viaEvents .store width addr (pageEvents width addr fun _ p c => c.mem.storeEvents width p v)

/-- there is no fetch from a device page -/
def fetchViaEvents (width addr : BitVec 64) : Cpu → List MemEvent :=
  viaEvents .fetch width addr (pageEvents width addr fun e p c =>
    if e.any TlbEntry.mmio then [.refused (.memory addr width .fetch)] else c.mem.fetchEvents width p)

/-! ## Instructions -/

/-- the bytes of a load that is made byte by byte -/
def loadBytesEvents (w : Nat) (addr : BitVec 64) : Nat → Cpu → List MemEvent
  | 0, _ => []
  | n + 1, c => loadBytesEvents w addr n c ++
      following (loadBytes load8 w addr n) (fun _ => loadViaEvents 1 (addr + BitVec.ofNat 64 n)) c

def storeBytesEvents {w : Nat} (v : BitVec w) (addr : BitVec 64) : Nat → Cpu → List MemEvent
  | 0, _ => []
  | n + 1, c => storeBytesEvents v addr n c ++ following (storeBytes store8 v addr n) (fun _ =>
      storeViaEvents 1 (addr + BitVec.ofNat 64 n) (((v >>> (8 * n)).setWidth 8).setWidth 64)) c

def InsnAccess.events : InsnAccess → Cpu → List MemEvent
  | .load n addr =>
    if n = 1 then loadViaEvents 1 addr
    else retried (loadOnce n addr) (loadViaEvents (BitVec.ofNat 64 n) addr) (loadBytesEvents (8 * n) addr n)
  | .store n addr v =>
    if n = 1 then storeViaEvents 1 addr ((v.setWidth 8).setWidth 64)
    else
      let x := v.setWidth (8 * n)
      retried (storeVia (BitVec.ofNat 64 n) addr (x.setWidth 64))
        (storeViaEvents (BitVec.ofNat 64 n) addr (x.setWidth 64))
        (storeBytesEvents x addr n)
  | .lr n addr => loadViaEvents (BitVec.ofNat 64 n) addr
  | .sc n addr v => storeViaEvents (BitVec.ofNat 64 n) addr v
  | .amo n addr new => fun c => loadViaEvents (BitVec.ofNat 64 n) addr c ++
      following (loadVia (BitVec.ofNat 64 n) addr) (fun old => storeViaEvents (BitVec.ofNat 64 n) addr (new old)) c

/-- the fetch of a word, by halves where it is refused as misaligned -/
def fetch32Events (addr : BitVec 64) : Cpu → List MemEvent :=
  retried (fetch32 addr) (fetchViaEvents 4 addr) fun c =>
    fetchViaEvents 2 addr c ++ following (fetch16 addr) (fun _ => fetchViaEvents 2 (addr + 2)) c

/-- an access as the guest makes it: its kind and its bytes -/
structure GuestAccess where
  kind : FaultKind
  addr : BitVec 64
  width : Nat

/-- `LR` is a load; `SC` and the read-modify-write atomics are stores -/
def InsnAccess.guest : InsnAccess → GuestAccess
  | .load n addr => ⟨.load, addr, n⟩
  | .store n addr _ => ⟨.store, addr, n⟩
  | .lr n addr => ⟨.load, addr, n⟩
  | .sc n addr _ => ⟨.store, addr, n⟩
  | .amo n addr _ => ⟨.store, addr, n⟩

/-- the accesses of a step and their events: the fetch of the first half, that of the word, the instruction -/
def stepEvents (c : Cpu) : List (GuestAccess × List MemEvent) :=
  (⟨.fetch, c.pc, 2⟩, fetchViaEvents 2 c.pc c) ::
    (match fetch16 c.pc c with
      | (.ok half, c') =>
        if half.extractLsb' 0 2 = 3#2 then [(⟨.fetch, c'.pc, 4⟩, fetch32Events c'.pc c')] else []
      | (.error _, _) => []) ++
    match fetchInsn c with
    | (.ok i, c') => ((accessOf c' i).map fun x => (x.guest, x.events c')).toList
    | (.error _, _) => []

/-! ## The events are those of the code -/

/-- the error of `m` is that of a refusal, and without a board no byte changes that is not touched -/
structure Traces {α : Type} (m : MemOp α) (es : Cpu → List MemEvent) : Prop where
  errors : ∀ Q c, ErrAt Q m c ↔ OnRefused Q (es c)
  noBoard : ∀ c, c.mem.mmio = none → (m c).2.mem.mmio = none
  writes : ∀ c, c.mem.mmio = none → ∀ q, ¬ Touched (es c) q → (m c).2.mem.bytes q = c.mem.bytes q

@[simp] theorem onRefused_nil {Q : MemFault → Prop} : OnRefused Q [] := fun _ h => absurd h List.not_mem_nil

@[simp] theorem onRefused_refused {Q : MemFault → Prop} {r : Refusal} : OnRefused Q [.refused r] ↔ Q r.fault := by
  simp [OnRefused]

@[simp] theorem onRefused_touch {Q : MemFault → Prop} {off : BitVec 64} {n : Nat} : OnRefused Q [.touch off n] := by
  simp [OnRefused]

theorem onRefused_append {Q : MemFault → Prop} {es es' : List MemEvent} :
    OnRefused Q (es ++ es') ↔ OnRefused Q es ∧ OnRefused Q es' := by
  unfold OnRefused
  simp only [List.mem_append]
  exact ⟨fun h => ⟨fun r hr => h r (.inl hr), fun r hr => h r (.inr hr)⟩, fun h r hr => hr.elim (h.1 r) (h.2 r)⟩

theorem onRefused_final {Q : MemFault → Prop} {es : List MemEvent} :
    OnRefused Q (es.filter MemEvent.final) ↔ OnRefused (fun f => f.kind ≠ .misalign → Q f) es := by
  unfold OnRefused
  simp only [List.mem_filter, MemEvent.final, decide_eq_true_eq]
  exact ⟨fun h r hr hk => h r ⟨hr, hk⟩, fun h r hr => h r hr.1 hr.2⟩

theorem touched_append {es es' : List MemEvent} {q : BitVec 64} :
    Touched (es ++ es') q ↔ Touched es q ∨ Touched es' q := by
  unfold Touched
  simp only [List.mem_append]
  constructor
  · rintro ⟨off, n, h | h, hq⟩
    · exact .inl ⟨off, n, h, hq⟩
    · exact .inr ⟨off, n, h, hq⟩
  · rintro (⟨off, n, h, hq⟩ | ⟨off, n, h, hq⟩)
    · exact ⟨off, n, .inl h, hq⟩
    · exact ⟨off, n, .inr h, hq⟩

theorem touched_final {es : List MemEvent} {q : BitVec 64} : Touched (es.filter MemEvent.final) q ↔ Touched es q := by
  unfold Touched
  simp only [List.mem_filter, MemEvent.final, and_true]

theorem following_ok {α : Type} {m : MemOp α} {k : α → Cpu → List MemEvent} {c c' : Cpu} {a : α}
    (h : m c = (.ok a, c')) :
    following m k c = k a c' := by rw [following, h]

namespace Traces

variable {α β : Type} {m : MemOp α} {es : Cpu → List MemEvent}

/-- what neither fails nor writes has no events -/
theorem still (h : ∀ c, ∃ a, m c = (.ok a, c)) : Traces m fun _ => [] where
  errors Q c := by
    obtain ⟨a, ha⟩ := h c
    exact iff_of_true (fun e c' he => by rw [ha] at he; cases he) onRefused_nil
  noBoard c hb := by
    obtain ⟨a, ha⟩ := h c
    rw [ha]
    exact hb
  writes c _ q _ := by
    obtain ⟨a, ha⟩ := h c
    rw [ha]

theorem fail (r : Refusal) : Traces (Exec.fail r.fault : MemOp α) fun _ => [.refused r] where
  errors _ _ := ErrAt.fail_iff.trans onRefused_refused.symm
  noBoard _ hb := hb
  writes _ _ _ _ := rfl

theorem bind {k : α → MemOp β} {ks : α → Cpu → List MemEvent} (hm : Traces m es) (hk : ∀ a, Traces (k a) (ks a)) :
    Traces (m >>= k) fun c => es c ++ following m ks c where
  errors Q c := by
    rw [ErrAt.bind_iff, hm.errors, onRefused_append]
    refine and_congr Iff.rfl ?_
    rcases hr : m c with ⟨f | a, c'⟩
    · rw [following, hr]
      exact iff_of_true (fun a c' h => by cases h) onRefused_nil
    · rw [following_ok hr, ← (hk a).errors]
      exact ⟨fun h => h a c' rfl, fun h a' c'' he => by cases he; exact h⟩
  noBoard c hb := by
    have hb' := hm.noBoard c hb
    rcases hr : m c with ⟨f | a, c'⟩
    · rw [bind_of_error hr]
      rwa [hr] at hb'
    · rw [bind_of_ok hr]
      rw [hr] at hb'
      exact (hk a).noBoard c' hb'
  writes c hb q hq := by
    have hb' := hm.noBoard c hb
    rw [touched_append, not_or] at hq
    have hfirst := hm.writes c hb q hq.1
    rcases hr : m c with ⟨f | a, c'⟩
    · rw [bind_of_error hr]
      rwa [hr] at hfirst
    · rw [bind_of_ok hr]
      rw [hr] at hb' hfirst
      rw [following_ok hr] at hq
      exact ((hk a).writes c' hb' q hq.2).trans hfirst

/-- nothing happens after `m` -/
theorem bind_quiet {k : α → MemOp β} (hm : Traces m es) (hk : ∀ a, Traces (k a) fun _ => []) : Traces (m >>= k) es := by
  have h := hm.bind hk
  have hnil : ∀ c, following m (fun _ _ => []) c = [] := by
    intro c
    unfold following
    rcases m c with ⟨f | a, c'⟩ <;> rfl
  simpa only [hnil, List.append_nil] using h

/-- the state decides which computation is made -/
theorem of_state (h : ∀ c, ∃ m' es', Traces m' es' ∧ m c = m' c ∧ es c = es' c) : Traces m es where
  errors Q c := by
    obtain ⟨m', es', ht, hm, hes⟩ := h c
    rw [hes, ← ht.errors]
    exact ErrAt.congr hm
  noBoard c hb := by
    obtain ⟨m', es', ht, hm, hes⟩ := h c
    rw [hm]
    exact ht.noBoard c hb
  writes c hb q hq := by
    obtain ⟨m', es', ht, hm, hes⟩ := h c
    rw [hes] at hq
    rw [hm]
    exact ht.writes c hb q hq

theorem retry {h : MemOp α} {hs : Cpu → List MemEvent} (hm : Traces m es) (hh : Traces h hs) :
    Traces (orMisaligned m h) (retried m es hs) where
  errors Q c := by
    unfold orMisaligned retried
    rw [ErrAt.onError_iff, onRefused_append, onRefused_final, hm.errors]
    refine and_congr (by simp only [decide_eq_false_iff_not, ne_eq]) ?_
    rcases hr : m c with ⟨f | a, c'⟩
    · dsimp only
      split_ifs with hk
      · rw [← hh.errors]
        exact ⟨fun h => h f c' rfl (decide_eq_true hk), fun h f' c'' he _ => by cases he; exact h⟩
      · refine iff_of_true (fun f' c'' he hp => ?_) onRefused_nil
        cases he
        exact absurd (of_decide_eq_true hp) hk
    · exact iff_of_true (fun f c' he => by cases he) onRefused_nil
  noBoard c hb := by
    have hb' := hm.noBoard c hb
    unfold orMisaligned Exec.onError
    rcases hr : m c with ⟨f | a, c'⟩
    · rw [hr] at hb'
      dsimp only
      split_ifs
      · exact hh.noBoard c' hb'
      · exact hb'
    · rwa [hr] at hb'
  writes c hb q hq := by
    have hb' := hm.noBoard c hb
    unfold retried at hq
    rw [touched_append, touched_final, not_or] at hq
    have hfirst := hm.writes c hb q hq.1
    unfold orMisaligned Exec.onError
    rcases hr : m c with ⟨f | a, c'⟩
    · rw [hr] at hb' hfirst hq
      dsimp only
      by_cases hk : f.kind = .misalign
      · rw [if_pos (decide_eq_true hk)]
        have hlater := hq.2
        dsimp only at hlater
        rw [if_pos hk] at hlater
        exact (hh.writes c' hb' q hlater).trans hfirst
      · rw [if_neg (by simpa using hk)]
        exact hfirst
    · rwa [hr] at hfirst

end Traces

/-! ## Memory -/

namespace GuestMemory

theorem overlay_reports {m : GuestMemory} {addr width : BitVec 64} {kind : FaultKind} {f : MemFault}
    (h : m.checkAccessOverlay addr width kind = some f) : f = { addr := addr, width := width, kind := kind } := by
  unfold checkAccessOverlay at h
  cases hov : m.accessOverlay with
  | none =>
    rw [hov] at h
    cases h
  | some ov =>
    rw [hov] at h
    exact ov.reports addr width kind m.size f h

theorem precheck_eq (m : GuestMemory) (addr width : BitVec 64) (kind : FaultKind) :
    m.precheck addr width kind = (m.preRefusal addr width kind).map Refusal.fault := by
  have hescape : ∀ f, m.checkSandboxEscape addr width = some f → f = (Refusal.sandbox addr width).fault := by
    intro f hf
    unfold checkSandboxEscape at hf
    split_ifs at hf
    exact (Option.some.inj hf).symm
  unfold precheck preRefusal
  cases hsand : m.checkSandboxEscape addr width with
  | some f =>
    rw [hescape f hsand]
    rfl
  | none =>
    cases hov : m.checkAccessOverlay addr width kind with
    | some f =>
      rw [overlay_reports hov]
      rfl
    | none => rfl

theorem onRefused_slab {Q : MemFault → Prop} (m : GuestMemory) (addr width : BitVec 64) (kind : FaultKind) :
    OnRefused Q (m.slabEvents addr width kind) ↔ (m.check addr width ≠ 0 → Q (fault addr width kind)) := by
  unfold slabEvents fault
  by_cases hcheck : m.check addr width = 0
  · rw [if_pos hcheck]
    exact iff_of_true onRefused_touch fun h => absurd hcheck h
  · rw [if_neg hcheck]
    have hcond : ∀ P : Prop, (m.check addr width ≠ 0 → P) ↔ P := fun P => ⟨fun h => h hcheck, fun h _ => h⟩
    rw [hcond]
    split_ifs <;> exact onRefused_refused

/-- an access that the board may answer, by what follows where it does not -/
theorem onRefused_board {Q : MemFault → Prop} (m : GuestMemory) (a : MmioAccess) (addr width : BitVec 64)
    (kind : FaultKind) : OnRefused Q (m.boardEvents a addr width kind) ↔
      match m.precheck addr width kind with
      | some f => Q f
      | none =>
        match m.mmioAccess a with
        | some (.ok _, _) => True
        | some (.error f, _) => Q f
        | none => m.check addr width ≠ 0 → Q (fault addr width kind) := by
  unfold boardEvents
  rw [precheck_eq]
  cases m.preRefusal addr width kind with
  | some r => exact onRefused_refused
  | none =>
    rcases m.mmioAccess a with _ | ⟨f | v, m'⟩
    · exact onRefused_slab m addr width kind
    · simp [OnRefused, Refusal.fault]
    · simp [OnRefused]

end GuestMemory

theorem onMem_errAt {α : Type} {Q : MemFault → Prop} {a : Exec GuestMemory MemFault α} {c : Cpu} :
    ErrAt Q (onMem a) c ↔ ∀ f, (a c.mem).1 = .error f → Q f :=
  ⟨fun h f hf => h f _ (Prod.ext hf rfl), fun h f _ hf => h f (congrArg Prod.fst hf)⟩

theorem load_traces (w p : BitVec 64) : Traces (onMem (load w p)) fun c => c.mem.loadEvents w p where
  errors Q c := by
    rw [onMem_errAt, loadEvents, onRefused_board]
    unfold load
    cases c.mem.precheck p w .load with
    | some f => simp
    | none =>
      rcases c.mem.mmioAccess (.load p w) with _ | ⟨f | v, m⟩
      · dsimp only
        split_ifs <;> simp_all
      · simp
      · simp
  noBoard c hb := by
    rw [onMem_run, load_noMmio hb]
    exact hb
  writes c hb q _ := by
    rw [onMem_run, load_noMmio hb]
    rfl

theorem store_traces (w p v : BitVec 64) : Traces (onMem (store w p v)) fun c => c.mem.storeEvents w p v where
  errors Q c := by
    rw [onMem_errAt, storeEvents, onRefused_board]
    unfold store
    cases c.mem.precheck p w .store with
    | some f => simp
    | none =>
      rcases c.mem.mmioAccess (.store p w v) with _ | ⟨f | v, m⟩
      · dsimp only
        split_ifs <;> simp_all
      · simp
      · simp
  noBoard c hb := by
    rw [onMem_run, store_noMmio hb]
    split <;> exact hb
  writes c hb q hq := by
    rw [onMem_run]
    unfold storeEvents boardEvents slabEvents at hq
    unfold store
    rw [mmioAccess_none hb] at hq ⊢
    rw [precheck_eq]
    cases hpre : c.mem.preRefusal p w .store with
    | some r => rfl
    | none =>
      rw [hpre] at hq
      dsimp only [Option.map] at hq ⊢
      by_cases hcheck : c.mem.check p w = 0
      · rw [if_neg (not_not.2 hcheck)]
        rw [if_pos hcheck] at hq
        refine (writeLe_apply _ _ _ _ _).trans (if_neg fun hin => hq ⟨_, _, List.mem_singleton.2 rfl, hin⟩)
      · rw [if_pos hcheck]
        rfl

theorem fetch_traces (w p : BitVec 64) : Traces (onMem (fetch w p)) fun c => c.mem.fetchEvents w p where
  errors Q c := by
    rw [onMem_errAt]
    unfold fetch fetchEvents
    cases hov : c.mem.checkAccessOverlay p w .fetch with
    | some f =>
      rw [if_pos (show (some f).isSome = true from rfl), onRefused_refused, overlay_reports hov]
      simp [Refusal.fault]
    | none =>
      rw [if_neg (show ¬ (none : Option MemFault).isSome = true from Bool.false_ne_true), onRefused_slab]
      dsimp only
      split_ifs <;> simp_all
  noBoard c hb := by
    rw [fetch_plain]
    exact hb
  writes c _ q _ := by
    rw [fetch_plain]

/-! ## The hart's accesses -/

/-- what is written to the TLB is no event -/
theorem fill_traces (f : Cpu → Cpu) (hf : ∀ c, (f c).mem = c.mem) :
    Traces (Exec.modify f : MemOp Unit) fun _ => [] where
  errors _ _ := iff_of_true (ErrAt.modify f) onRefused_nil
  noBoard c hb := (congrArg GuestMemory.mmio (hf c)).trans hb
  writes c _ q _ := congrArg (fun m => m.bytes q) (hf c)

theorem writeBackPte_traces (p pte updated : BitVec 64) : Traces (writeBackPte p pte updated) fun c =>
    if updated ≠ pte then c.mem.storeEvents 8 p updated else [] := by
  unfold writeBackPte
  split_ifs
  · exact store_traces 8 p _
  · exact .still fun c => ⟨(), rfl⟩

theorem walkLeaf_traces (addr : BitVec 64) (kind : FaultKind) (level : Nat) (p pte : BitVec 64) :
    Traces (walkLeaf addr kind level p pte) (leafEvents addr kind level p pte) := by
  refine .of_state fun c => ?_
  unfold walkLeaf leafEvents
  rw [gets_bind_run]
  dsimp only [id]
  by_cases hallowed : (!c.accessAllowed (tlbPerms pte) kind) = true
  · rw [if_pos hallowed, if_pos hallowed]
    exact ⟨_, _, .fail (.page addr kind), rfl, rfl⟩
  · rw [if_neg hallowed, if_neg hallowed]
    by_cases hplace : level > 0 ∧ ptePpn pte &&& ((1#64 <<< (9 * level)) - 1) ≠ 0
    · rw [if_pos hplace, if_pos (by exact hplace)]
      exact ⟨_, _, .fail (.page addr kind), rfl, rfl⟩
    · rw [if_neg hplace, if_neg (by exact hplace)]
      exact ⟨_, _, (writeBackPte_traces p pte _).bind_quiet fun _ => .still fun c => ⟨_, rfl⟩, rfl, rfl⟩

theorem walkFrom_traces (addr : BitVec 64) (kind : FaultKind) (level : Nat) (pt : BitVec 64) :
    Traces (walkFrom addr kind level pt) (walkEvents addr kind level pt) := by
  induction level generalizing pt with
  | zero => exact .fail (.page addr kind)
  | succ level ih =>
    rw [walkFrom_succ]
    refine (load_traces 8 _).bind fun pte => ?_
    by_cases hinv : pte &&& pteV = 0 ∨ (pte &&& pteW ≠ 0 ∧ pte &&& pteR = 0)
    · simp only [if_pos hinv]
      exact .fail (.page addr kind)
    · simp only [if_neg hinv]
      by_cases hptr : pte &&& (pteR ||| pteX) = 0
      · simp only [if_pos hptr]
        exact ih _
      · simp only [if_neg hptr]
        exact walkLeaf_traces addr kind level _ pte

theorem walk_traces (addr : BitVec 64) (kind : FaultKind) : Traces (walk addr kind) fun c =>
    if !canonicalVA addr (pageLevels c.satp) then [.refused (.page addr kind)]
    else walkEvents addr kind (pageLevels c.satp) (satpRoot c.satp) c := by
  refine .of_state fun c => ?_
  rw [walk_run]
  split_ifs
  · exact ⟨_, _, .fail (.page addr kind), rfl, rfl⟩
  · exact ⟨_, _, walkFrom_traces addr kind _ _, rfl, rfl⟩

theorem lookup_traces (mm : Mmu) (addr : BitVec 64) (kind : FaultKind) :
    Traces (mm.lookup addr kind) (mm.lookupEvents addr kind) := by
  have hmiss := (walk_traces addr kind).bind_quiet fun r =>
    (fill_traces (fun c => { c with mmu := some (mm.setEntry kind (tlbIndex addr) r.2) }) fun _ => rfl).bind_quiet
      fun _ => .still (m := pure (some r.2, r.1)) fun c => ⟨_, rfl⟩
  refine .of_state fun c => ?_
  rw [lookup_run]
  unfold Mmu.lookupEvents
  by_cases hu : c.untranslated kind
  · rw [if_pos hu, if_pos hu]
    exact ⟨_, _, .still fun c => ⟨(none, addr), rfl⟩, rfl, rfl⟩
  · rw [if_neg hu, if_neg hu]
    by_cases hit : mm.hit c addr kind = true
    · rw [if_pos hit, if_pos hit]
      exact ⟨_, _, .still (m := pure _) fun c => ⟨_, rfl⟩, rfl, rfl⟩
    · rw [if_neg hit, if_neg hit]
      refine ⟨_, _, hmiss, ?_, rfl⟩
      rcases hw : walk addr kind c with ⟨f | ⟨paddr, fill⟩, c'⟩
      · rw [bind_of_error hw]
      · rw [bind_of_ok hw]
        rfl

/-- the three accesses: what follows the translation has the events of the page -/
theorem via_traces {α : Type} {run : MemOp α} {kind : FaultKind} {width addr : BitVec 64}
    {k : Option TlbEntry × BitVec 64 → MemOp α} {mem : Option TlbEntry × BitVec 64 → Cpu → List MemEvent}
    (hsome : ∀ c mm, c.mmu = some mm → run c = (if addr &&& (width - 1) ≠ 0 then
      Exec.fail (Refusal.misaligned addr width).fault else mm.lookup addr kind >>= k : MemOp α) c)
    (hnone : ∀ c, c.mmu = none → run c = k (none, addr) c) (hk : ∀ r, Traces (k r) (mem r)) :
    Traces run (viaEvents kind width addr mem) := by
  refine .of_state fun c => ?_
  unfold viaEvents
  cases hmm : c.mmu with
  | none => exact ⟨_, _, hk (none, addr), hnone c hmm, rfl⟩
  | some mm =>
    rw [hsome c mm hmm]
    by_cases hmis : addr &&& (width - 1) ≠ 0
    · simp only [if_pos hmis]
      exact ⟨_, _, .fail _, rfl, rfl⟩
    · simp only [if_neg hmis]
      exact ⟨_, _, (lookup_traces mm addr kind).bind hk, rfl, rfl⟩

/-- the bytes of a directly mapped page are read -/
theorem direct_read_traces {α : Type} (f : Cpu → α) (off : BitVec 64) (n : Nat) :
    Traces (Exec.gets f : MemOp α) fun _ => [.touch off n] where
  errors _ _ := iff_of_true (ErrAt.gets f) onRefused_touch
  noBoard _ hb := hb
  writes _ _ _ _ := rfl

theorem direct_write_traces (off v : BitVec 64) (n : Nat) : Traces (Exec.modify fun c =>
    { c with mem := { c.mem with bytes := c.mem.bytes.writeLe off n v } } : MemOp Unit) fun _ => [.touch off n] where
  errors _ _ := iff_of_true (ErrAt.modify _) onRefused_touch
  noBoard _ hb := hb
  writes c _ q hq :=
    (writeLe_apply c.mem.bytes off n v q).trans (if_neg fun hin => hq ⟨off, n, List.mem_singleton.2 rfl, hin⟩)

theorem loadVia_traces (w addr : BitVec 64) : Traces (loadVia w addr) (loadViaEvents w addr) := by
  refine via_traces (fun c mm hmm => by rw [loadVia, hmm]; rfl) (fun c hmm => by rw [loadVia, hmm]) fun r => ?_
  rcases r with ⟨_ | e, p⟩
  · exact load_traces w p
  · unfold pageEvents
    cases hd : e.direct with
    | false => simpa [hd] using load_traces w p
    | true => simpa [hd] using direct_read_traces _ _ _

theorem storeVia_traces (w addr v : BitVec 64) : Traces (storeVia w addr v) (storeViaEvents w addr v) := by
  refine via_traces (fun c mm hmm => by rw [storeVia, hmm]; rfl) (fun c hmm => by rw [storeVia, hmm]) fun r => ?_
  rcases r with ⟨_ | e, p⟩
  · exact store_traces w p v
  · unfold pageEvents
    cases hd : e.direct with
    | false => simpa [hd] using store_traces w p v
    | true => simpa [hd] using direct_write_traces _ _ _

theorem fetchVia_traces (w addr : BitVec 64) : Traces (fetchVia w addr) (fetchViaEvents w addr) := by
  refine via_traces (fun c mm hmm => by rw [fetchVia, hmm]; rfl) (fun c hmm => by rw [fetchVia, hmm]) fun r => ?_
  rcases r with ⟨_ | e, p⟩
  · exact fetch_traces w p
  · unfold pageEvents
    cases hd : e.direct with
    | true => simpa [hd] using direct_read_traces _ _ _
    | false =>
      cases hmmio : e.mmio with
      | true =>
        have hfail : Traces (Exec.fail { addr := addr, width := w, kind := .fetch } : MemOp (BitVec 64)) fun _ =>
            [.refused (.memory addr w .fetch)] := .fail (.memory addr w .fetch)
        simpa [hd, hmmio] using hfail
      | false => simpa [hd, hmmio] using fetch_traces w p

theorem load8_traces (addr : BitVec 64) : Traces (load8 addr) (loadViaEvents 1 addr) :=
  (loadVia_traces 1 addr).bind_quiet fun _ => .still fun _ => ⟨_, rfl⟩

theorem fetch16_traces (addr : BitVec 64) : Traces (fetch16 addr) (fetchViaEvents 2 addr) :=
  (fetchVia_traces 2 addr).bind_quiet fun _ => .still fun _ => ⟨_, rfl⟩

theorem loadBytes_traces (w : Nat) (addr : BitVec 64) (n : Nat) :
    Traces (loadBytes load8 w addr n) (loadBytesEvents w addr n) := by
  induction n with
  | zero => exact .still fun c => ⟨_, rfl⟩
  | succ n ih =>
    rw [loadBytes_succ]
    exact ih.bind fun v => (load8_traces _).bind_quiet fun b => .still fun c => ⟨_, rfl⟩

theorem storeBytes_traces {w : Nat} (v : BitVec w) (addr : BitVec 64) (n : Nat) :
    Traces (storeBytes store8 v addr n) (storeBytesEvents v addr n) := by
  induction n with
  | zero => exact .still fun c => ⟨_, rfl⟩
  | succ n ih =>
    rw [storeBytes_succ]
    exact ih.bind fun _ => storeVia_traces 1 _ _

/-- **The access of an instruction.**  Its error is that of a refusal among its events. -/
theorem access_traces (x : InsnAccess) : Traces x.run x.events := by
  cases x with
  | load n addr =>
    unfold InsnAccess.run InsnAccess.events
    dsimp only
    split_ifs
    · exact (loadVia_traces 1 addr).bind_quiet fun _ => .still fun c => ⟨(), rfl⟩
    · exact ((loadVia_traces _ addr).bind_quiet fun _ => .still fun c => ⟨(), rfl⟩).retry
        ((loadBytes_traces _ addr n).bind_quiet fun _ => .still fun c => ⟨(), rfl⟩)
  | store n addr v =>
    unfold InsnAccess.run InsnAccess.events
    dsimp only
    split_ifs
    · exact storeVia_traces 1 addr _
    · exact (storeVia_traces _ addr _).retry (storeBytes_traces _ addr n)
  | lr n addr => exact (loadVia_traces _ addr).bind_quiet fun _ => .still fun c => ⟨(), rfl⟩
  | sc n addr v => exact storeVia_traces _ addr v
  | amo n addr new => exact (loadVia_traces _ addr).bind fun old => storeVia_traces _ addr (new old)

theorem fetch32M_traces (addr : BitVec 64) : Traces (fetch32M addr) (fetch32Events addr) := by
  refine ((fetchVia_traces 4 addr).bind_quiet fun _ => .still fun _ => ⟨_, rfl⟩).retry ?_
  exact (fetch16_traces addr).bind fun _ =>
    (fetch16_traces (addr + 2)).bind_quiet fun _ => .still fun _ => ⟨_, rfl⟩

end RiscvEmu
