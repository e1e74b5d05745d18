/-
The register allocator (`regalloc_fixed.go`).

`allocate` gives the registers of a block their places in five phases: the pinned registers, the guest's integer and
floating-point registers by priority, the temporaries (by their intervals, or one host register each), and what is
left on the stack. The pools are walked by cursors, here the host registers that remain.

Every phase is a sequence of two steps, `assign` and `spill`. `Sound` is kept by each of them (`Sound.assign`,
`Sound.spill`), and a phase is described by what it can change and from which host registers it takes (`Phase`).

• `allocate_places`: every register that occurs gets a place, and no place is given twice at a time.
-/
import Mathlib.Data.Finset.Card
import Mathlib.Order.Interval.Finset.Nat
import RiscvEmu.Jit.Ir

namespace RiscvEmu.Jit

open Function List

/-! ## The model -/

abbrev Host := BitVec 16

inductive AllocKind where
  | unused
  | reg
  | stack
deriving DecidableEq, Repr

structure IntervalAlloc where
  vreg : VReg
  start : Nat
  stop : Nat
  host : Host
deriving DecidableEq, Repr

structure RegPool where
  intRegs : List Host
  fpRegs : List Host
  noArchFP : Bool
  tempIntervals : Bool

/-- registers that are kept in given host registers, in the order in which the map is walked -/
structure Pinned where
  entries : List (VReg × Host)
  keys : (entries.map Prod.fst).Nodup

/-- `kind` and `spillSlot` are indexed by virtual register -/
structure Allocation where
  kind : VReg → AllocKind
  spillSlot : VReg → BitVec 16
  intervalMap : List IntervalAlloc
  stackSlots : BitVec 16

namespace Allocation

def empty : Allocation := { kind := fun _ => .unused, spillSlot := fun _ => 0, intervalMap := [], stackSlots := 0 }

/-- a register gets a host register for an interval -/
def assign (al : Allocation) (vr : VReg) (start stop : Nat) (host : Host) : Allocation :=
  { al with kind := update al.kind vr .reg
            intervalMap := al.intervalMap ++ [{ vreg := vr, start := start, stop := stop, host := host }] }

/-- a register gets the next slot of the stack -/
def spill (al : Allocation) (vr : VReg) : Allocation :=
  { al with kind := update al.kind vr .stack
            spillSlot := update al.spillSlot vr al.stackSlots
            stackSlots := al.stackSlots + 1 }

end Allocation

def intPriority : List VReg :=
  [1, 2, 5, 6, 10, 11, 12, 13, 14, 15, 16, 17, 8, 9, 7, 28, 29, 30, 31, 3, 4, 18, 19, 20, 21, 22, 23, 24, 25, 26, 27]

def fpPriority : List VReg :=
  [42, 43, 44, 45, 46, 47, 48, 49, 32, 33, 34, 35, 36, 37, 38, 39, 60, 61, 62, 63, 40, 41, 50, 51, 52, 53, 54, 55,
    56, 57, 58, 59]

def Pinned.has (pinned : Pinned) (vr : VReg) : Bool := (pinned.entries.map Prod.fst).contains vr

/-- how many registers the tables have room for -/
def numVRegs (b : Block) (pinned : Pinned) : Nat := (pinned.entries.map Prod.fst).foldl max b.maxVreg + 1

/-- the register occurs in the block, or is pinned -/
def used (b : Block) (pinned : Pinned) (vr : VReg) :
    Bool := (b.instrs.any fun ins => ins.vregs.contains vr) || pinned.has vr

def IRInstr.producesFP (ins : IRInstr) : Bool :=
  (ins.t = .f32 || ins.t = .f64) && !(ins.op = .fCmp || ins.op = .fCvtToI || ins.op = .fCvtToU)

def isFP (b : Block) (vr : VReg) : Bool :=
  (32 ≤ vr && vr < 64) || b.instrs.any fun ins => ins.producesFP && ins.dst ≠ vregZero && ins.dst = vr

/-- the pinned registers get their host registers; `n` is the number of instructions -/
def assignPinned (n num : Nat) (al : Allocation) (e : VReg × Host) : Allocation :=
  if e.1 ≥ num then al else al.assign e.1 0 (n - 1) e.2

/-- registers by priority, each for the whole block, until the pool is used up; what remains of the pool -/
def assignByPriority (n : Nat) (eligible : VReg → Bool) : List VReg → List Host → Allocation → Allocation × List Host
  | [], regs, al => (al, regs)
  | vr :: rest, regs, al =>
    if !eligible vr then assignByPriority n eligible rest regs al
    else
      match regs with
      | [] => (al, [])
      | host :: regs => assignByPriority n eligible rest regs (al.assign vr 0 (n - 1) host)

structure FixedLiveInterval where
  vr : VReg
  start : Nat
  stop : Nat
deriving DecidableEq, Repr

/-- the first and the last instruction in which a register occurs; instruction `i` is the first of the list -/
def fixedFirstLast (vr : VReg) : List IRInstr → Nat → Option (Nat × Nat) → Option (Nat × Nat)
  | [], _, acc => acc
  | ins :: rest, i, acc =>
    fixedFirstLast vr rest (i + 1) (if ins.vregs.contains vr then some ((acc.map Prod.fst).getD i, i) else acc)

/-- the interval of a temporary -/
def tempInterval (b : Block) (vr : VReg) : FixedLiveInterval :=
  match fixedFirstLast vr b.instrs 0 none with
  | some (first, last) => { vr := vr, start := first, stop := last }
  | none => { vr := vr, start := 0, stop := b.instrs.length - 1 }

/-- by start, by end, by register -/
def FixedLiveInterval.le (x y : FixedLiveInterval) : Bool :=
  if x.start ≠ y.start then x.start < y.start else if x.stop ≠ y.stop then x.stop < y.stop else x.vr ≤ y.vr

def fixedIntervalsOverlap (aStart aEnd bStart bEnd : Nat) : Bool := aStart ≤ bEnd && bStart ≤ aEnd

def fixedPickHostForInterval (iv : FixedLiveInterval) (regs : List Host) (assigned : List IntervalAlloc) :
    Option Host :=
  regs.find? fun candidate =>
    !assigned.any fun a => a.host = candidate && fixedIntervalsOverlap iv.start iv.stop a.start a.stop

/-- one interval gets the first host register that is free in it, or a slot -/
def assignInterval (regs : List Host) (al : Allocation) (iv : FixedLiveInterval) : Allocation :=
  match fixedPickHostForInterval iv regs al.intervalMap with
  | some host => al.assign iv.vr iv.start iv.stop host
  | none => al.spill iv.vr

def fixedAssignIntervals (intervals : List FixedLiveInterval) (regs : List Host) (al : Allocation) : Allocation :=
  (intervals.mergeSort FixedLiveInterval.le).foldl (assignInterval regs) al

/-- the temporaries of the block that are not pinned -/
def temps (b : Block) (pinned : Pinned) : List VReg :=
  (range' vregTempStart (numVRegs b pinned - vregTempStart)).filter fun vr => used b pinned vr && !pinned.has vr

/-- temporaries without intervals: a host register each, as long as there are some -/
def assignTemps (n : Nat) (fp : VReg → Bool) : List VReg → List Host → List Host → Allocation → Allocation
  | [], _, _, al => al
  | vr :: rest, ints, fps, al =>
    if fp vr then
      match fps with
      | host :: fps => assignTemps n fp rest ints fps (al.assign vr 0 (n - 1) host)
      | [] => assignTemps n fp rest ints [] (al.spill vr)
    else
      match ints with
      | host :: ints => assignTemps n fp rest ints fps (al.assign vr 0 (n - 1) host)
      | [] => assignTemps n fp rest [] fps (al.spill vr)

/-- what has no place yet goes to the stack -/
def spillRest (b : Block) (pinned : Pinned) (al : Allocation) (vr : VReg) : Allocation :=
  if !used b pinned vr || al.kind vr ≠ .unused then al else if pinned.has vr then al else al.spill vr

/-- the temporaries, with the host registers that the guest's registers leave -/
def assignAllTemps (b : Block) (pool : RegPool) (pinned : Pinned) (ints fps : List Host) (al : Allocation) :
    Allocation :=
  if pool.tempIntervals then
    let intTemps := ((temps b pinned).filter fun vr => !isFP b vr).map (tempInterval b)
    let fpTemps := ((temps b pinned).filter fun vr => isFP b vr).map (tempInterval b)
    fixedAssignIntervals fpTemps fps (fixedAssignIntervals intTemps ints al)
  else assignTemps b.instrs.length (isFP b) (temps b pinned) ints fps al

/-- a guest register of one class that gets a host register if there is one -/
def eligible (b : Block) (pinned : Pinned) (fp : Bool) (vr : VReg) : Bool :=
  vr < numVRegs b pinned && used b pinned vr && isFP b vr == fp && !pinned.has vr

/-- the pinned registers and the guest's registers by priority; what remains of the two pools -/
def assignGuest (b : Block) (pool : RegPool) (pinned : Pinned) : Allocation × List Host × List Host :=
  let n := b.instrs.length
  let al := pinned.entries.foldl (assignPinned n (numVRegs b pinned)) .empty
  let r := assignByPriority n (eligible b pinned false) intPriority pool.intRegs al
  if pool.noArchFP then (r.1, r.2, pool.fpRegs)
  else
    let q := assignByPriority n (eligible b pinned true) fpPriority pool.fpRegs r.1
    (q.1, r.2, q.2)

def allocate (b : Block) (pool : RegPool) (pinned : Pinned) : Allocation :=
  if b.instrs = [] then .empty
  else
    let guest := assignGuest b pool pinned
    let al := assignAllTemps b pool pinned guest.2.1 guest.2.2 guest.1
    (range' 1 (numVRegs b pinned - 1)).foldl (spillRest b pinned) al

/-! ## What a placement keeps -/

/-- the ranges from the first to the last occurrence of two registers overlap -/
def Block.Overlap (b : Block) (vr wr : VReg) : Prop :=
  ∃ i i' j j', b.Occurs vr i ∧ b.Occurs vr i' ∧ b.Occurs wr j ∧ b.Occurs wr j' ∧ i ≤ j' ∧ j ≤ i'

/-- the registers that are on the stack -/
def stacked (num : Nat) (al : Allocation) : Finset VReg := (Finset.range num).filter fun vr => al.kind vr = .stack

/-- the tables agree: a register has an interval just if it is in a host register, and one only; the interval covers its
occurrences; intervals in one host register do not overlap; and the slots are counted -/
structure Sound (b : Block) (num : Nat) (al : Allocation) : Prop where
  regs : ∀ vr, al.kind vr = .reg ↔ vr ∈ al.intervalMap.map IntervalAlloc.vreg
  once : (al.intervalMap.map IntervalAlloc.vreg).Nodup
  covers : ∀ e ∈ al.intervalMap, ∀ i, b.Occurs e.vreg i → e.start ≤ i ∧ i ≤ e.stop
  apart : al.intervalMap.Pairwise fun e f => e.host = f.host →
    fixedIntervalsOverlap e.start e.stop f.start f.stop = false
  inTable : ∀ vr, al.kind vr = .stack → vr < num
  slots : ∀ vr, al.kind vr = .stack → (al.spillSlot vr).toNat < al.stackSlots.toNat
  distinct : ∀ vr wr, al.kind vr = .stack → al.kind wr = .stack → al.spillSlot vr = al.spillSlot wr → vr = wr
  counted : al.stackSlots.toNat = (stacked num al).card

variable {b : Block} {num : Nat} {al al₁ al₂ : Allocation} {vr : VReg}

theorem Sound.empty (b : Block) (num : Nat) : Sound b num .empty := by
  refine ⟨fun vr => ?_, nodup_nil, ?_, List.Pairwise.nil, ?_, ?_, ?_, ?_⟩
  · simp [Allocation.empty]
  · exact fun e he => absurd he not_mem_nil
  · exact fun vr h => nomatch h
  · exact fun vr h => nomatch h
  · exact fun vr wr h => nomatch h
  · simp [stacked, Allocation.empty]

theorem Sound.assign (h : Sound b num al) (hunused : al.kind vr = .unused) {start stop : Nat} {host : Host}
    (hcovers : ∀ i, b.Occurs vr i → start ≤ i ∧ i ≤ stop)
    (hfree : ∀ e ∈ al.intervalMap, e.host = host → fixedIntervalsOverlap e.start e.stop start stop = false) :
    Sound b num (al.assign vr start stop host) := by
  have hnew : vr ∉ al.intervalMap.map IntervalAlloc.vreg := fun hmem => by
    rw [← h.regs, hunused] at hmem
    cases hmem
  -- the stack is as before: the register was not on it and is not now
  have hstack : ∀ v, (al.assign vr start stop host).kind v = .stack ↔ al.kind v = .stack := by
    intro v
    show update al.kind vr .reg v = .stack ↔ _
    by_cases hv : v = vr
    · rw [hv, update_self, hunused]
      exact iff_of_false (fun h => nomatch h) fun h => nomatch h
    · rw [update_of_ne hv]
  have hstacked : stacked num (al.assign vr start stop host) = stacked num al :=
    Finset.filter_congr fun v _ => hstack v
  refine ⟨fun v => ?_, ?_, fun e he => ?_, ?_, fun v hv => h.inTable v ((hstack v).mp hv),
    fun v hv => h.slots v ((hstack v).mp hv), fun v w hv hw => h.distinct v w ((hstack v).mp hv) ((hstack w).mp hw), ?_⟩
  · show update al.kind vr .reg v = .reg ↔ v ∈ (al.intervalMap ++ [_]).map IntervalAlloc.vreg
    rw [map_append, mem_append, ← h.regs]
    by_cases hv : v = vr
    · rw [hv, update_self]
      exact iff_of_true rfl (.inr (mem_singleton.mpr rfl))
    · rw [update_of_ne hv]
      exact ⟨.inl, fun hor => hor.elim id fun hmem => absurd (mem_singleton.mp hmem) hv⟩
  · show ((al.intervalMap ++ [_]).map IntervalAlloc.vreg).Nodup
    rw [map_append, nodup_append]
    refine ⟨h.once, nodup_singleton _, fun a ha c hc => ?_⟩
    rw [mem_singleton.mp hc]
    rintro rfl
    exact hnew ha
  · obtain he | he := mem_append.mp he
    · exact h.covers e he
    · rw [mem_singleton.mp he]
      exact hcovers
  · refine pairwise_append.mpr ⟨h.apart, pairwise_singleton _ _, fun e he f hf => ?_⟩
    rw [mem_singleton.mp hf]
    exact hfree e he
  · rw [hstacked]
    exact h.counted

theorem Sound.spill (hnum : num < 2 ^ 15) (h : Sound b num al) (hunused : al.kind vr = .unused) (hlt : vr < num) :
    Sound b num (al.spill vr) := by
  have hnot : vr ∉ stacked num al := fun hmem => by
    rw [stacked, Finset.mem_filter, hunused] at hmem
    cases hmem.2
  have hstacked : stacked num (al.spill vr) = insert vr (stacked num al) := by
    ext v
    rw [Finset.mem_insert, stacked, stacked, Finset.mem_filter, Finset.mem_filter, Finset.mem_range]
    show v < num ∧ update al.kind vr .stack v = .stack ↔ _
    by_cases hv : v = vr
    · rw [hv, update_self]
      exact iff_of_true ⟨hlt, rfl⟩ (.inl rfl)
    · rw [update_of_ne hv]
      exact ⟨.inr, fun hor => hor.resolve_left hv⟩
  have hcard : (insert vr (stacked num al)).card ≤ num := by
    have hsub : insert vr (stacked num al) ⊆ Finset.range num :=
      Finset.insert_subset (Finset.mem_range.mpr hlt) (Finset.filter_subset _ _)
    simpa using Finset.card_le_card hsub
  rw [Finset.card_insert_of_notMem hnot, ← h.counted] at hcard
  -- so the counter does not wrap
  have hnext : (al.stackSlots + 1).toNat = al.stackSlots.toNat + 1 := by
    rw [BitVec.toNat_add, show BitVec.toNat (1 : BitVec 16) = 1 from rfl]
    omega
  have hkind : ∀ v, v ≠ vr → (al.spill vr).kind v = al.kind v := fun v hv => update_of_ne hv _ _
  have hslot : ∀ v, v ≠ vr → (al.spill vr).spillSlot v = al.spillSlot v := fun v hv => update_of_ne hv _ _
  have hself : (al.spill vr).spillSlot vr = al.stackSlots := update_self _ _ _
  refine ⟨fun v => ?_, h.once, h.covers, h.apart, fun v hv => ?_, fun v hv => ?_, fun v w hv hw heq => ?_, ?_⟩
  · show update al.kind vr .stack v = .reg ↔ v ∈ al.intervalMap.map IntervalAlloc.vreg
    rw [← h.regs]
    by_cases hv : v = vr
    · rw [hv, update_self, hunused]
      exact iff_of_false (fun h => nomatch h) fun h => nomatch h
    · rw [update_of_ne hv]
  · by_cases hvr : v = vr
    · rw [hvr]
      exact hlt
    · rw [hkind v hvr] at hv
      exact h.inTable v hv
  · show ((al.spill vr).spillSlot v).toNat < (al.stackSlots + 1).toNat
    by_cases hvr : v = vr
    · rw [hvr, hself]
      omega
    · rw [hkind v hvr] at hv
      have hbefore := h.slots v hv
      rw [hslot v hvr]
      omega
  · by_cases hvr : v = vr
    · by_cases hwr : w = vr
      · rw [hvr, hwr]
      · rw [hkind w hwr] at hw
        have hbefore := h.slots w hw
        rw [hvr, hself, hslot w hwr] at heq
        rw [heq] at hbefore
        omega
    · rw [hkind v hvr] at hv
      by_cases hwr : w = vr
      · have hbefore := h.slots v hv
        rw [hwr, hself, hslot v hvr] at heq
        rw [heq] at hbefore
        omega
      · rw [hkind w hwr] at hw
        rw [hslot v hvr, hslot w hwr] at heq
        exact h.distinct v w hv hw heq
  · show (al.stackSlots + 1).toNat = _
    rw [hnext, hstacked, Finset.card_insert_of_notMem hnot, h.counted]

/-! ## Phases -/

/-- a phase gives places to registers of `P` that have none, and takes host registers from `hosts` -/
structure Phase (b : Block) (num : Nat) (P : VReg → Prop) (hosts : List Host) (al al' : Allocation) : Prop where
  sound : Sound b num al'
  changes : ∀ v, al'.kind v ≠ al.kind v → P v ∧ al.kind v = .unused
  taken : ∀ e ∈ al'.intervalMap, e ∈ al.intervalMap ∨ e.host ∈ hosts

variable {P Q : VReg → Prop} {hosts hosts' : List Host}

theorem Phase.refl (h : Sound b num al) :
    Phase b num P hosts al al := ⟨h, fun _ hv => absurd rfl hv, fun _ he => .inl he⟩

theorem Phase.trans (h₁ : Phase b num P hosts al al₁) (h₂ : Phase b num P hosts al₁ al₂) :
    Phase b num P hosts al al₂ := by
  refine ⟨h₂.sound, fun v hv => ?_, fun e he => ?_⟩
  · by_cases heq : al₁.kind v = al.kind v
    · rw [← heq] at hv ⊢
      exact h₂.changes v hv
    · exact h₁.changes v heq
  · exact (h₂.taken e he).elim (h₁.taken e) .inr

theorem Phase.mono (h : Phase b num P hosts al al₁) (hP : ∀ v, P v → Q v) (hhosts : ∀ x ∈ hosts, x ∈ hosts') :
    Phase b num Q hosts' al al₁ :=
  ⟨h.sound, fun v hv => ⟨hP v (h.changes v hv).1, (h.changes v hv).2⟩, fun e he => (h.taken e he).imp id (hhosts _)⟩

theorem Phase.unused (h : Phase b num P hosts al al₁) {v : VReg} (hv : ¬ P v) (hunused : al.kind v = .unused) :
    al₁.kind v = .unused := by
  by_contra hne
  exact hv (h.changes v fun heq => hne (heq.trans hunused)).1

theorem Phase.placed (h : Phase b num P hosts al al₁) {v : VReg} (hv : al.kind v ≠ .unused) :
    al₁.kind v = al.kind v := by
  by_contra hne
  exact hv (h.changes v hne).2

theorem phase_assign (h : Sound b num al) (hunused : al.kind vr = .unused) {start stop : Nat} {host : Host}
    (hcovers : ∀ i, b.Occurs vr i → start ≤ i ∧ i ≤ stop)
    (hfree : ∀ e ∈ al.intervalMap, e.host = host → fixedIntervalsOverlap e.start e.stop start stop = false) :
    Phase b num (· = vr) [host] al (al.assign vr start stop host) := by
  refine ⟨h.assign hunused hcovers hfree, fun v hv => ?_, fun e he => ?_⟩
  · by_cases hvr : v = vr
    · exact ⟨hvr, by rw [hvr]; exact hunused⟩
    · exact absurd (update_of_ne hvr _ _) hv
  · refine (mem_append.mp he).imp id fun he => ?_
    rw [mem_singleton.mp he]
    exact mem_singleton.mpr rfl

theorem phase_spill (hnum : num < 2 ^ 15) (h : Sound b num al) (hunused : al.kind vr = .unused) (hlt : vr < num) :
    Phase b num (· = vr) [] al (al.spill vr) := by
  refine ⟨h.spill hnum hunused hlt, fun v hv => ?_, fun _ he => .inl he⟩
  by_cases hvr : v = vr
  · exact ⟨hvr, by rw [hvr]; exact hunused⟩
  · exact absurd (update_of_ne hvr _ _) hv

/-! ## Pinned registers -/

theorem whole_covers (b : Block) (vr : VReg) (i : Nat) (h : b.Occurs vr i) : 0 ≤ i ∧ i ≤ b.instrs.length - 1 := by
  obtain ⟨ins, hins, -⟩ := h
  have hlt := (List.getElem?_eq_some_iff.mp hins).1
  omega

theorem phase_assign_whole (h : Sound b num al) (hunused : al.kind vr = .unused) {host : Host}
    (hfresh : ∀ e ∈ al.intervalMap, e.host ≠ host) :
    Phase b num (· = vr) [host] al (al.assign vr 0 (b.instrs.length - 1) host) :=
  phase_assign h hunused (whole_covers b vr) fun e he heq => absurd heq (hfresh e he)

theorem pinned_phase {l : List (VReg × Host)} (h : Sound b num al) (hkeys : (l.map Prod.fst).Nodup)
    (hhosts : (l.map Prod.snd).Nodup)
    (hfresh : ∀ e ∈ al.intervalMap, e.host ∉ l.map Prod.snd) (hunused : ∀ v ∈ l.map Prod.fst, al.kind v = .unused)
    (hlt : ∀ v ∈ l.map Prod.fst, v < num) :
    Phase b num (· ∈ l.map Prod.fst) (l.map Prod.snd) al (l.foldl (assignPinned b.instrs.length num) al) ∧
      ∀ v ∈ l.map Prod.fst, (l.foldl (assignPinned b.instrs.length num) al).kind v ≠ .unused := by
  induction l generalizing al with
  | nil => exact ⟨.refl h, fun v hv => absurd hv not_mem_nil⟩
  | cons x l ih =>
    obtain ⟨v, host⟩ := x
    rw [map_cons, nodup_cons] at hkeys hhosts
    rw [map_cons, forall_mem_cons] at hunused hlt
    have hstep : Phase b num (· = v) [host] al (al.assign v 0 (b.instrs.length - 1) host) :=
      phase_assign_whole h hunused.1 fun e he heq => hfresh e he (by rw [heq]; exact mem_cons_self)
    have hrest := ih hstep.sound hkeys.2 hhosts.2 (fun e he hmem => ?_) (fun w hw => ?_) hlt.2
    · have hfirst : assignPinned b.instrs.length num al (v, host) = al.assign v 0 (b.instrs.length - 1) host :=
        if_neg (Nat.not_le.mpr hlt.1)
      rw [foldl_cons, hfirst]
      refine ⟨(hstep.mono ?_ ?_).trans (hrest.1.mono ?_ ?_), fun w hw => ?_⟩
      · rintro w rfl
        exact mem_cons_self
      · intro x hx
        rw [mem_singleton.mp hx]
        exact mem_cons_self
      · exact fun w hw => mem_cons_of_mem v hw
      · exact fun x hx => mem_cons_of_mem host hx
      · obtain rfl | hw := mem_cons.mp hw
        · have hreg : (al.assign w 0 (b.instrs.length - 1) host).kind w = .reg := update_self _ _ _
          rw [hrest.1.placed (by rw [hreg]; exact fun h => nomatch h), hreg]
          exact fun h => nomatch h
        · exact hrest.2 w hw
    · obtain hold | hnew := hstep.taken e he
      · exact hfresh e hold (mem_cons_of_mem host hmem)
      · rw [mem_singleton.mp hnew] at hmem
        exact hhosts.1 hmem
    · refine hstep.unused (fun heq => ?_) (hunused.2 w hw)
      rw [heq] at hw
      exact hkeys.1 hw

/-! ## Registers by priority -/

theorem priority_phase {eligible : VReg → Bool} {vrs : List VReg} {regs : List Host} (h : Sound b num al)
    (hvrs : vrs.Nodup)
    (hunused : ∀ v ∈ vrs, eligible v = true → al.kind v = .unused) (hregs : regs.Nodup)
    (hfresh : ∀ e ∈ al.intervalMap, e.host ∉ regs) {r : Allocation × List Host}
    (hr : assignByPriority b.instrs.length eligible vrs regs al = r) :
    Phase b num (fun v => v ∈ vrs ∧ eligible v = true) regs al r.1 ∧ r.2.Sublist regs ∧ ∀ e ∈ r.1.intervalMap,
      e.host ∉ r.2 := by
  induction vrs generalizing regs al with
  | nil =>
    rw [← hr]
    exact ⟨.refl h, List.Sublist.refl regs, hfresh⟩
  | cons v vrs ih =>
    rw [nodup_cons] at hvrs
    rw [forall_mem_cons] at hunused
    unfold assignByPriority at hr
    by_cases helig : eligible v = true
    · rw [if_neg (by rw [helig]; decide)] at hr
      cases regs with
      | nil =>
        rw [← hr]
        exact ⟨.refl h, List.Sublist.refl [], fun e _ => not_mem_nil⟩
      | cons host regs =>
        rw [nodup_cons] at hregs
        have hstep : Phase b num (· = v) [host] al (al.assign v 0 (b.instrs.length - 1) host) :=
          phase_assign_whole h (hunused.1 helig) fun e he heq => hfresh e he (by rw [heq]; exact mem_cons_self)
        obtain ⟨hphase, hsub, hleft⟩ := @ih (al.assign v 0 (b.instrs.length - 1) host) regs hstep.sound hvrs.2
          (fun w hw hw' => hstep.unused (fun heq => hvrs.1 (by rw [← heq]; exact hw)) (hunused.2 w hw hw')) hregs.2
          (fun e he hmem => (hstep.taken e he).elim
            (fun hold => hfresh e hold (mem_cons_of_mem host hmem)) fun hnew => by
            rw [mem_singleton.mp hnew] at hmem
            exact hregs.1 hmem) hr
        refine ⟨(hstep.mono ?_ ?_).trans (hphase.mono ?_ ?_), hsub.cons host, hleft⟩
        · rintro w rfl
          exact ⟨mem_cons_self, helig⟩
        · intro x hx
          rw [mem_singleton.mp hx]
          exact mem_cons_self
        · exact fun w hw => ⟨mem_cons_of_mem v hw.1, hw.2⟩
        · exact fun x hx => mem_cons_of_mem host hx
    · rw [if_pos (by simpa using helig)] at hr
      obtain ⟨hphase, hsub, hleft⟩ := ih h hvrs.2 hunused.2 hregs hfresh hr
      exact ⟨hphase.mono (fun w hw => ⟨mem_cons_of_mem v hw.1, hw.2⟩) fun _ hx => hx, hsub, hleft⟩

/-! ## Temporaries -/

theorem fixedIntervalsOverlap_comm (aStart aEnd bStart bEnd : Nat) :
    fixedIntervalsOverlap aStart aEnd bStart bEnd = fixedIntervalsOverlap bStart bEnd aStart aEnd := Bool.and_comm _ _

theorem fixedPickHostForInterval_some {iv : FixedLiveInterval} {regs : List Host} {assigned : List IntervalAlloc}
    {host : Host}
    (h : fixedPickHostForInterval iv regs assigned = some host) :
    host ∈ regs ∧ ∀ e ∈ assigned, e.host = host → fixedIntervalsOverlap e.start e.stop iv.start iv.stop = false := by
  refine ⟨mem_of_find?_eq_some h, fun e he heq => ?_⟩
  have hfree := find?_some h
  rw [Bool.not_eq_true', any_eq_false] at hfree
  have hnot := hfree e he
  rw [heq, decide_eq_true rfl, Bool.true_and, Bool.not_eq_true] at hnot
  rw [fixedIntervalsOverlap_comm]
  exact hnot

theorem intervals_phase (hnum : num < 2 ^ 15) {regs : List Host} {l : List FixedLiveInterval} (h : Sound b num al)
    (hvrs : (l.map FixedLiveInterval.vr).Nodup) (hunused : ∀ v ∈ l.map FixedLiveInterval.vr, al.kind v = .unused)
    (hlt : ∀ iv ∈ l, iv.vr < num) (hcovers : ∀ iv ∈ l, ∀ i, b.Occurs iv.vr i → iv.start ≤ i ∧ i ≤ iv.stop) :
    Phase b num (· ∈ l.map FixedLiveInterval.vr) regs al (l.foldl (assignInterval regs) al) := by
  induction l generalizing al with
  | nil => exact .refl h
  | cons iv l ih =>
    rw [map_cons, nodup_cons] at hvrs
    rw [map_cons, forall_mem_cons] at hunused
    rw [forall_mem_cons] at hlt hcovers
    have hstep : Phase b num (· = iv.vr) regs al (assignInterval regs al iv) := by
      unfold assignInterval
      cases hpick : fixedPickHostForInterval iv regs al.intervalMap with
      | none => exact (phase_spill hnum h hunused.1 hlt.1).mono (fun _ hv => hv) fun x hx => absurd hx not_mem_nil
      | some host =>
        obtain ⟨hmem, hfree⟩ := fixedPickHostForInterval_some hpick
        refine (phase_assign h hunused.1 hcovers.1 hfree).mono (fun _ hv => hv) fun x hx => ?_
        rw [mem_singleton.mp hx]
        exact hmem
    rw [foldl_cons, map_cons]
    refine (hstep.mono ?_ fun _ hx => hx).trans
      ((ih hstep.sound hvrs.2 (fun w hw => ?_) hlt.2 hcovers.2).mono ?_ fun _ hx => hx)
    · rintro w rfl
      exact mem_cons_self
    · exact hstep.unused (fun heq => hvrs.1 (by rw [← heq]; exact hw)) (hunused.2 w hw)
    · exact fun w hw => mem_cons_of_mem iv.vr hw

theorem fixedAssignIntervals_phase (hnum : num < 2 ^ 15) {regs : List Host} {l : List FixedLiveInterval}
    (h : Sound b num al)
    (hvrs : (l.map FixedLiveInterval.vr).Nodup) (hunused : ∀ v ∈ l.map FixedLiveInterval.vr, al.kind v = .unused)
    (hlt : ∀ iv ∈ l, iv.vr < num) (hcovers : ∀ iv ∈ l, ∀ i, b.Occurs iv.vr i → iv.start ≤ i ∧ i ≤ iv.stop) :
    Phase b num (· ∈ l.map FixedLiveInterval.vr) regs al (fixedAssignIntervals l regs al) := by
  have hperm := mergeSort_perm l FixedLiveInterval.le
  have hmap := hperm.map FixedLiveInterval.vr
  refine (intervals_phase hnum h (hmap.nodup_iff.mpr hvrs) (fun v hv => hunused v (hmap.mem_iff.mp hv))
    (fun iv hiv => hlt iv (hperm.mem_iff.mp hiv))
    fun iv hiv => hcovers iv (hperm.mem_iff.mp hiv)).mono ?_ fun _ hx => hx
  exact fun v hv => hmap.mem_iff.mp hv

theorem fixedFirstLast_some {l : List IRInstr} {i first last : Nat} (hlast : last ≤ i) :
    ∃ last', fixedFirstLast vr l i (some (first, last)) = some (first, last') ∧ last ≤ last' := by
  induction l generalizing i last with
  | nil => exact ⟨last, rfl, Nat.le_refl last⟩
  | cons ins l ih =>
    rw [fixedFirstLast]
    by_cases hin : ins.vregs.contains vr = true
    · rw [if_pos hin]
      obtain ⟨last', heq, hle⟩ := @ih (i + 1) i (Nat.le_succ i)
      exact ⟨last', heq, Nat.le_trans hlast hle⟩
    · rw [if_neg hin]
      exact ih (Nat.le_succ_of_le hlast)

theorem fixedFirstLast_covers {l : List IRInstr} {i k : Nat} {acc : Option (Nat × Nat)} {ins : IRInstr}
    (hacc : ∀ p, acc = some p → p.1 ≤ i ∧ p.2 ≤ i) (hins : l[k]? = some ins) (hvr : vr ∈ ins.vregs) :
    ∃ first last, fixedFirstLast vr l i acc = some (first, last) ∧ first ≤ i + k ∧ i + k ≤ last := by
  induction l generalizing i k acc with
  | nil => cases hins
  | cons head l ih =>
    have hnext : ∀ p, (if head.vregs.contains vr then some ((acc.map Prod.fst).getD i, i) else acc) = some p →
        p.1 ≤ i + 1 ∧ p.2 ≤ i + 1 := by
      intro p hp
      split_ifs at hp
      · cases hp
        cases acc with
        | none => exact ⟨Nat.le_succ i, Nat.le_succ i⟩
        | some q => exact ⟨Nat.le_succ_of_le (hacc q rfl).1, Nat.le_succ i⟩
      · obtain ⟨h₁, h₂⟩ := hacc p hp
        exact ⟨Nat.le_succ_of_le h₁, Nat.le_succ_of_le h₂⟩
    rw [fixedFirstLast]
    cases k with
    | zero =>
      cases hins
      rw [if_pos (contains_iff_mem.mpr hvr)]
      obtain ⟨last', heq, hle⟩ := @fixedFirstLast_some vr l (i + 1) ((acc.map Prod.fst).getD i) i (Nat.le_succ i)
      refine ⟨_, last', heq, ?_, hle⟩
      cases acc with
      | none => exact Nat.le_refl i
      | some q => exact (hacc q rfl).1
    | succ k =>
      obtain ⟨first, last, heq, hfrom, hto⟩ := ih hnext (by simpa using hins)
      exact ⟨first, last, heq, by omega, by omega⟩

theorem tempInterval_vr (b : Block) (vr : VReg) : (tempInterval b vr).vr = vr := by
  unfold tempInterval
  split
  · rfl
  · rfl

theorem tempInterval_covers (b : Block) (vr : VReg) (i : Nat) (h : b.Occurs vr i) :
    (tempInterval b vr).start ≤ i ∧ i ≤ (tempInterval b vr).stop := by
  obtain ⟨ins, hins, hvr⟩ := h
  obtain ⟨first, last, heq, hfrom, hto⟩ :=
    @fixedFirstLast_covers vr b.instrs 0 i none ins (fun p hp => nomatch hp) hins hvr
  rw [Nat.zero_add] at hfrom hto
  unfold tempInterval
  rw [heq]
  exact ⟨hfrom, hto⟩

theorem lt_of_mem_range {a v n : Nat} (hfrom : a ≤ v) (hto : v < a + (n - a)) : v < n := by omega

theorem mem_temps {pinned : Pinned} (h : vr ∈ temps b pinned) :
    vregTempStart ≤ vr ∧ vr < numVRegs b pinned ∧ used b pinned vr = true ∧ pinned.has vr = false := by
  unfold temps at h
  rw [mem_filter, mem_range'_1, Bool.and_eq_true, Bool.not_eq_true'] at h
  obtain ⟨⟨hfrom, hto⟩, hused, hfree⟩ := h
  exact ⟨hfrom, lt_of_mem_range hfrom hto, hused, hfree⟩

theorem temps_nodup (b : Block) (pinned : Pinned) : (temps b pinned).Nodup := List.Nodup.filter _ nodup_range'

theorem assignTemps_phase (hnum : num < 2 ^ 15) {fp : VReg → Bool} {vrs : List VReg} {ints fps : List Host}
    (h : Sound b num al)
    (hvrs : vrs.Nodup) (hunused : ∀ v ∈ vrs, al.kind v = .unused) (hlt : ∀ v ∈ vrs, v < num)
    (hpool : (ints ++ fps).Nodup)
    (hfresh : ∀ e ∈ al.intervalMap, e.host ∉ ints ++ fps) :
    Phase b num (· ∈ vrs) (ints ++ fps) al (assignTemps b.instrs.length fp vrs ints fps al) := by
  induction vrs generalizing ints fps al with
  | nil => exact .refl h
  | cons v vrs ih =>
    rw [nodup_cons] at hvrs
    rw [forall_mem_cons] at hunused hlt
    -- one register from the pool, or a slot; what is left of the pool is not taken
    have hnext : ∀ ints' fps' hosts al', (ints' ++ fps').Sublist (ints ++ fps) →
        (∀ x ∈ hosts, x ∈ ints ++ fps ∧ x ∉ ints' ++ fps') →
        Phase b num (· = v) hosts al al' →
        Phase b num (· ∈ v :: vrs) (ints ++ fps) al (assignTemps b.instrs.length fp vrs ints' fps' al') := by
      intro ints' fps' hosts al' hsub hhosts hstep
      refine (hstep.mono ?_ fun x hx => (hhosts x hx).1).trans ((ih hstep.sound hvrs.2 (fun w hw => ?_) hlt.2
        (hpool.sublist hsub) fun e he hmem => ?_).mono ?_ fun x hx => hsub.subset hx)
      · rintro w rfl
        exact mem_cons_self
      · exact hstep.unused (fun heq => hvrs.1 (by rw [← heq]; exact hw)) (hunused.2 w hw)
      · obtain hold | hnew := hstep.taken e he
        · exact hfresh e hold (hsub.subset hmem)
        · exact (hhosts e.host hnew).2 hmem
      · exact fun w hw => mem_cons_of_mem v hw
    have hspill := phase_spill hnum h hunused.1 hlt.1
    unfold assignTemps
    by_cases hfp : fp v = true
    · rw [if_pos hfp]
      cases fps with
      | nil => exact hnext ints [] [] _ (List.Sublist.refl _) (fun x hx => absurd hx not_mem_nil) hspill
      | cons host fps =>
        have hmem : host ∈ ints ++ host :: fps := mem_append_right ints mem_cons_self
        have hout : host ∉ ints ++ fps := by
          have hmid := nodup_middle.mp hpool
          exact (nodup_cons.mp hmid).1
        refine hnext ints fps [host] _ ((sublist_cons_self host fps).append_left ints) (fun x hx => ?_)
          (phase_assign_whole h hunused.1 fun e he heq => hfresh e he (by rw [heq]; exact hmem))
        rw [mem_singleton.mp hx]
        exact ⟨hmem, hout⟩
    · rw [if_neg hfp]
      cases ints with
      | nil => exact hnext [] fps [] _ (List.Sublist.refl _) (fun x hx => absurd hx not_mem_nil) hspill
      | cons host ints =>
        refine hnext ints fps [host] _ (sublist_cons_self host (ints ++ fps)) (fun x hx => ?_)
          (phase_assign_whole h hunused.1 fun e he heq => hfresh e he (by rw [heq]; exact mem_cons_self))
        rw [mem_singleton.mp hx]
        exact ⟨mem_cons_self, (nodup_cons.mp hpool).1⟩

theorem assignAllTemps_phase {pool : RegPool} {pinned : Pinned} (hnum : numVRegs b pinned < 2 ^ 15)
    {ints fps : List Host}
    (h : Sound b (numVRegs b pinned) al) (hunused : ∀ v ∈ temps b pinned, al.kind v = .unused)
    (hpool : (ints ++ fps).Nodup)
    (hfresh : ∀ e ∈ al.intervalMap, e.host ∉ ints ++ fps) :
    Phase b (numVRegs b pinned) (· ∈ temps b pinned) (ints ++ fps) al (assignAllTemps b pool pinned ints fps al) := by
  have hlt : ∀ v ∈ temps b pinned, v < numVRegs b pinned := fun v hv => (mem_temps hv).2.1
  unfold assignAllTemps
  by_cases hintervals : pool.tempIntervals = true
  · rw [if_pos hintervals]
    have hmap : ∀ l : List VReg, (l.map (tempInterval b)).map FixedLiveInterval.vr = l := by
      intro l
      rw [map_map]
      exact (map_congr_left fun v _ => tempInterval_vr b v).trans (map_id l)
    -- the temporaries of one class, when they have no place yet
    have hclass : ∀ (p : VReg → Bool) regs al', Sound b (numVRegs b pinned) al' →
        (∀ v ∈ (temps b pinned).filter p, al'.kind v = .unused) →
        Phase b (numVRegs b pinned) (· ∈ (temps b pinned).filter p) regs al'
          (fixedAssignIntervals (((temps b pinned).filter p).map (tempInterval b)) regs al') := by
      intro p regs al' hs hun
      have hall := @fixedAssignIntervals_phase b (numVRegs b pinned) al' hnum regs
          (((temps b pinned).filter p).map (tempInterval b)) hs
      rw [hmap] at hall
      refine hall ((temps_nodup b pinned).filter p) hun (fun iv hiv => ?_) fun iv hiv => ?_
      · obtain ⟨v, hv, rfl⟩ := mem_map.mp hiv
        rw [tempInterval_vr]
        exact hlt v (mem_filter.mp hv).1
      · obtain ⟨v, hv, rfl⟩ := mem_map.mp hiv
        rw [tempInterval_vr]
        exact tempInterval_covers b v
    have hint := hclass (fun v => !isFP b v) ints al h fun v hv => hunused v (mem_filter.mp hv).1
    have hfp := hclass (fun v => isFP b v) fps _ hint.sound fun v hv => by
      obtain ⟨hv, hclass⟩ := mem_filter.mp hv
      refine hint.unused (fun hin => ?_) (hunused v hv)
      have hnot := (mem_filter.mp hin).2
      rw [hclass] at hnot
      cases hnot
    refine (hint.mono ?_ ?_).trans (hfp.mono ?_ ?_)
    · exact fun v hv => (mem_filter.mp hv).1
    · exact fun x hx => mem_append_left fps hx
    · exact fun v hv => (mem_filter.mp hv).1
    · exact fun x hx => mem_append_right ints hx
  · rw [if_neg hintervals]
    exact assignTemps_phase hnum h (temps_nodup b pinned) hunused hlt hpool hfresh

/-! ## The rest -/

theorem spillRest_phase {pinned : Pinned} (hnum : num < 2 ^ 15) {l : List VReg} (h : Sound b num al)
    (hlt : ∀ v ∈ l, v < num) :
    Phase b num (fun _ => True) [] al (l.foldl (spillRest b pinned) al) ∧
      ∀ v ∈ l, used b pinned v = true → pinned.has v = false → (l.foldl (spillRest b pinned) al).kind v ≠ .unused := by
  induction l generalizing al with
  | nil => exact ⟨.refl h, fun v hv => absurd hv not_mem_nil⟩
  | cons v l ih =>
    rw [forall_mem_cons] at hlt
    have hstep : Phase b num (fun _ => True) [] al (spillRest b pinned al v) ∧
        (used b pinned v = true → pinned.has v = false → (spillRest b pinned al v).kind v ≠ .unused) := by
      unfold spillRest
      by_cases hskip : (!used b pinned v || decide (al.kind v ≠ .unused)) = true
      · rw [if_pos hskip]
        refine ⟨.refl h, fun hused _ => ?_⟩
        rw [hused, Bool.not_true, Bool.false_or, decide_eq_true_eq] at hskip
        exact hskip
      · rw [if_neg hskip]
        rw [Bool.not_eq_true, Bool.or_eq_false_iff, decide_eq_false_iff_not, not_not] at hskip
        by_cases hpinned : pinned.has v = true
        · rw [if_pos hpinned]
          exact ⟨.refl h, fun _ hfree => absurd (hpinned.symm.trans hfree) (by decide)⟩
        · rw [if_neg hpinned]
          refine ⟨(phase_spill hnum h hskip.2 hlt.1).mono (fun _ _ => trivial) fun _ hx => hx, fun _ _ => ?_⟩
          have hself : (al.spill v).kind v = .stack := update_self _ _ _
          rw [hself]
          exact fun h => nomatch h
    obtain ⟨hrest, hall⟩ := ih hstep.1.sound hlt.2
    rw [foldl_cons]
    refine ⟨hstep.1.trans hrest, fun w hw hused hfree => ?_⟩
    obtain rfl | hw := mem_cons.mp hw
    · have hplace := hstep.2 hused hfree
      rw [hrest.placed hplace]
      exact hplace
    · exact hall w hw hused hfree

/-! ## The allocation -/

/-- one place for every register of the block, no slot twice, and no host register twice where ranges overlap -/
structure Places (b : Block) (al : Allocation) : Prop where
  place : ∀ vr i, b.Occurs vr i →
    (al.kind vr = .reg ∧ (al.intervalMap.map IntervalAlloc.vreg).count vr = 1) ∨
      (al.kind vr = .stack ∧ (al.intervalMap.map IntervalAlloc.vreg).count vr = 0)
  slot : ∀ vr wr, al.kind vr = .stack → al.kind wr = .stack → vr ≠ wr → al.spillSlot vr ≠ al.spillSlot wr
  host : ∀ e ∈ al.intervalMap, ∀ f ∈ al.intervalMap, e.vreg ≠ f.vreg → e.host = f.host → ¬ b.Overlap e.vreg f.vreg

theorem not_overlap_of_apart (h : Sound b num al) {e f : IntervalAlloc} (he : e ∈ al.intervalMap)
    (hf : f ∈ al.intervalMap)
    (hne : e.vreg ≠ f.vreg) (hhost : e.host = f.host) : ¬ b.Overlap e.vreg f.vreg := by
  have hapart : fixedIntervalsOverlap e.start e.stop f.start f.stop = false := by
    have hsymm : Std.Symm fun x y : IntervalAlloc =>
        x.host = y.host → fixedIntervalsOverlap x.start x.stop y.start y.stop = false := by
      refine ⟨fun x y hxy heq => ?_⟩
      rw [fixedIntervalsOverlap_comm]
      exact hxy heq.symm
    exact h.apart.forall he hf (fun heq => hne (by rw [heq])) hhost
  rintro ⟨i, i', j, j', hi, hi', hj, hj', hij, hji⟩
  have hcov := h.covers e he
  have hcov' := h.covers f hf
  have h₁ := (hcov i hi).1
  have h₂ := (hcov i' hi').2
  have h₃ := (hcov' j hj).1
  have h₄ := (hcov' j' hj').2
  unfold fixedIntervalsOverlap at hapart
  rw [Bool.and_eq_false_iff, decide_eq_false_iff_not, decide_eq_false_iff_not] at hapart
  omega

theorem Sound.places (h : Sound b num al) (hall : ∀ vr i, b.Occurs vr i → al.kind vr ≠ .unused) : Places b al := by
  refine ⟨fun vr i hocc => ?_, fun vr wr hv hw hne heq => hne (h.distinct vr wr hv hw heq),
    fun e he f hf => not_overlap_of_apart h he hf⟩
  cases hkind : al.kind vr with
  | unused => exact absurd hkind (hall vr i hocc)
  | reg => exact .inl ⟨rfl, count_eq_one_of_mem h.once ((h.regs vr).mp hkind)⟩
  | stack =>
    refine .inr ⟨rfl, count_eq_zero_of_not_mem fun hmem => ?_⟩
    rw [← h.regs, hkind] at hmem
    cases hmem

theorem occurs_facts {pinned : Pinned} {i : Nat} (h : b.Occurs vr i) :
    vr ≠ 0 ∧ vr < numVRegs b pinned ∧ used b pinned vr = true := by
  obtain ⟨ins, hins, hvr⟩ := h
  have hmem := mem_of_getElem? hins
  refine ⟨?_, ?_, ?_⟩
  · exact of_decide_eq_true (mem_filter.mp hvr).2
  · have hbound := b.bound ins hmem vr hvr
    have hmax := (Block.le_foldl_max (pinned.entries.map Prod.fst) b.maxVreg).1
    exact Nat.lt_succ_of_le (Nat.le_trans hbound hmax)
  · unfold used
    rw [Bool.or_eq_true, any_eq_true]
    exact .inl ⟨ins, hmem, contains_iff_mem.mpr hvr⟩

theorem lt_numVRegs_of_pinned {pinned : Pinned} (h : vr ∈ pinned.entries.map Prod.fst) : vr < numVRegs b pinned :=
  Nat.lt_succ_of_le ((Block.le_foldl_max (pinned.entries.map Prod.fst) b.maxVreg).2 vr h)

theorem priority_lists : intPriority.Nodup ∧ fpPriority.Nodup ∧ (∀ v ∈ fpPriority, v ∉ intPriority) ∧
    (∀ v ∈ intPriority, v < vregTempStart) ∧ ∀ v ∈ fpPriority, v < vregTempStart := by
  decide

theorem not_pinned_iff {pinned : Pinned} {v : VReg} : pinned.has v = false ↔ v ∉ pinned.entries.map Prod.fst := by
  unfold Pinned.has
  rw [← Bool.not_eq_true, contains_iff_mem]

theorem not_pinned_of_eligible {pinned : Pinned} {fp : Bool} {v : VReg} (h : eligible b pinned fp v = true) :
    v ∉ pinned.entries.map Prod.fst := by
  unfold eligible at h
  rw [Bool.and_eq_true, Bool.not_eq_true'] at h
  exact not_pinned_iff.mp h.2

/-- what is known when the guest's registers have their places -/
structure GuestPlaced (b : Block) (pool : RegPool) (pinned : Pinned) (g : Allocation × List Host × List Host) :
    Prop where
  sound : Sound b (numVRegs b pinned) g.1
  placed : ∀ v ∈ pinned.entries.map Prod.fst, g.1.kind v ≠ .unused
  waiting : ∀ v ∈ temps b pinned, g.1.kind v = .unused
  left : (g.2.1 ++ g.2.2).Nodup
  fresh : ∀ e ∈ g.1.intervalMap, e.host ∉ g.2.1 ++ g.2.2

theorem assignGuest_placed {pool : RegPool} {pinned : Pinned} (hpool : (pool.intRegs ++ pool.fpRegs).Nodup)
    (hhosts : (pinned.entries.map Prod.snd).Nodup)
    (hout : ∀ x ∈ pinned.entries.map Prod.snd, x ∉ pool.intRegs ++ pool.fpRegs) :
    GuestPlaced b pool pinned (assignGuest b pool pinned) := by
  obtain ⟨hintNodup, hfpNodup, hclasses, hintSmall, hfpSmall⟩ := priority_lists
  obtain ⟨hints, hfps, hcross⟩ := nodup_append.mp hpool
  -- the pinned registers
  obtain ⟨hp₁, hplaced⟩ := pinned_phase (Sound.empty b (numVRegs b pinned)) pinned.keys hhosts
    (fun e he => absurd he not_mem_nil) (fun v _ => rfl) fun v hv => lt_numVRegs_of_pinned hv
  have hfree : ∀ v, v ∉ pinned.entries.map Prod.fst →
      (pinned.entries.foldl (assignPinned b.instrs.length (numVRegs b pinned)) .empty).kind v = .unused :=
    fun v hv => hp₁.unused hv rfl
  have htaken := fun e he => (hp₁.taken e he).resolve_left not_mem_nil
  unfold assignGuest
  dsimp only
  generalize pinned.entries.foldl (assignPinned b.instrs.length (numVRegs b pinned)) .empty =
    al₁ at hp₁ hplaced hfree htaken ⊢
  -- the integer registers
  generalize hr : assignByPriority b.instrs.length (eligible b pinned false) intPriority pool.intRegs al₁ = r
  obtain ⟨hp₂, hsub, hleft⟩ :=
    priority_phase hp₁.sound hintNodup (fun v _ helig => hfree v (not_pinned_of_eligible helig)) hints
    (fun e he hmem => hout _ (htaken e he) (mem_append_left _ hmem)) hr
  have hfresh₂ : ∀ e ∈ r.1.intervalMap, e.host ∉ pool.fpRegs := by
    intro e he hmem
    obtain hold | hnew := hp₂.taken e he
    · exact hout _ (htaken e hold) (mem_append_right _ hmem)
    · exact hcross _ hnew _ hmem rfl
  have htemp : ∀ v ∈ temps b pinned, v ∉ intPriority ∧ v ∉ fpPriority ∧ v ∉ pinned.entries.map Prod.fst := by
    intro v hv
    obtain ⟨hge, -, -, hnot⟩ := mem_temps hv
    exact ⟨fun h => Nat.not_lt.mpr hge (hintSmall v h), fun h => Nat.not_lt.mpr hge (hfpSmall v h),
      not_pinned_iff.mp hnot⟩
  have hunused₂ : ∀ v, v ∉ pinned.entries.map Prod.fst → v ∉ intPriority → r.1.kind v = .unused :=
    fun v hv hint => hp₂.unused (fun h => hint h.1) (hfree v hv)
  by_cases hno : pool.noArchFP = true
  · rw [if_pos hno]
    refine ⟨hp₂.sound, fun v hv => ?_, fun v hv => ?_, ?_, fun e he hmem => ?_⟩
    · show r.1.kind v ≠ .unused
      rw [hp₂.placed (hplaced v hv)]
      exact hplaced v hv
    · obtain ⟨hnotInt, -, hnot⟩ := htemp v hv
      exact hunused₂ v hnot hnotInt
    · exact hpool.sublist (hsub.append_right _)
    · obtain hmem | hmem := mem_append.mp hmem
      · exact hleft e he hmem
      · exact hfresh₂ e he hmem
  · rw [if_neg hno]
    -- the floating-point registers
    generalize hq : assignByPriority b.instrs.length (eligible b pinned true) fpPriority pool.fpRegs r.1 = q
    obtain ⟨hp₃, hsub', hleft'⟩ := priority_phase hp₂.sound hfpNodup
      (fun v hv helig => hunused₂ v (not_pinned_of_eligible helig) (hclasses v hv)) hfps hfresh₂ hq
    refine ⟨hp₃.sound, fun v hv => ?_, fun v hv => ?_, ?_, fun e he hmem => ?_⟩
    · have hplaced₂ : r.1.kind v ≠ .unused := by
        rw [hp₂.placed (hplaced v hv)]
        exact hplaced v hv
      show q.1.kind v ≠ .unused
      rw [hp₃.placed hplaced₂]
      exact hplaced₂
    · obtain ⟨hnotInt, hnotFp, hnot⟩ := htemp v hv
      exact hp₃.unused (fun h => hnotFp h.1) (hunused₂ v hnot hnotInt)
    · exact hpool.sublist (hsub.append hsub')
    · obtain hmem | hmem := mem_append.mp hmem
      · obtain hold | hnew := hp₃.taken e he
        · exact hleft e hold hmem
        · exact hcross _ (hsub.subset hmem) _ hnew rfl
      · exact hleft' e he hmem

/-- **Places for all registers.** In a block that is not empty and whose registers, the pinned ones counted even where
they do not occur, have numbers below 32767, with host registers that are all different, every register that occurs has
one place, in a host register or on the stack; two registers never share a slot, and share a host register only if their
ranges do not overlap. -/
theorem allocate_places (b : Block) (pool : RegPool) (pinned : Pinned) (hne : b.instrs ≠ [])
    (hnum : numVRegs b pinned < 2 ^ 15)
    (hpool : (pool.intRegs ++ pool.fpRegs).Nodup) (hhosts : (pinned.entries.map Prod.snd).Nodup)
    (hout : ∀ x ∈ pinned.entries.map Prod.snd, x ∉ pool.intRegs ++ pool.fpRegs) :
    Places b (allocate b pool pinned) := by
  have hguest := @assignGuest_placed b pool pinned hpool hhosts hout
  unfold allocate
  rw [if_neg hne]
  dsimp only
  generalize assignGuest b pool pinned = g at hguest ⊢
  have htemps :=
      @assignAllTemps_phase b g.1 pool pinned hnum g.2.1 g.2.2 hguest.sound hguest.waiting hguest.left hguest.fresh
  generalize assignAllTemps b pool pinned g.2.1 g.2.2 g.1 = al at htemps ⊢
  obtain ⟨hrest, hall⟩ :=
    @spillRest_phase b (numVRegs b pinned) al pinned hnum (range' 1 (numVRegs b pinned - 1)) htemps.sound
    fun v hv => by
      rw [mem_range'_1] at hv
      exact lt_of_mem_range hv.1 hv.2
  refine hrest.sound.places fun vr i hocc => ?_
  obtain ⟨hzero, hlt, hused⟩ := @occurs_facts b vr pinned i hocc
  cases hpinned : pinned.has vr with
  | true =>
    have hkey : vr ∈ pinned.entries.map Prod.fst := contains_iff_mem.mp hpinned
    have hplaced : al.kind vr ≠ .unused := by
      rw [htemps.placed (hguest.placed vr hkey)]
      exact hguest.placed vr hkey
    rw [hrest.placed hplaced]
    exact hplaced
  | false =>
    refine hall vr ?_ hused hpinned
    rw [mem_range'_1]
    exact ⟨Nat.pos_of_ne_zero hzero, by rw [Nat.add_sub_cancel' (Nat.lt_of_le_of_lt (Nat.zero_le _) hlt)]; exact hlt⟩

/-- a sum that goes through two temporaries -/
def sumBlock : Block :=
  ((Block.new.appendIns { op := .add, t := .i64, dst := 64, a := 10, b := 11, c := 0 }).appendIns
    { op := .sext, t := .i32, dst := 65, a := 64, b := 0, c := 0 }).appendIns
    { op := .mov, t := .i64, dst := 12, a := 65, b := 0, c := 0 }

def smallPool : RegPool := { intRegs := [0, 1], fpRegs := [16], noArchFP := false, tempIntervals := true }

def x10Pinned : Pinned := { entries := [(10, 7)], keys := nodup_singleton _ }

/-- x10 is pinned, x11 and x12 take the pool, and the temporaries go to the stack -/
theorem sumBlock_places : Places sumBlock (allocate sumBlock smallPool x10Pinned) := by
  refine allocate_places sumBlock smallPool x10Pinned (by decide) (by decide) (by decide) (by decide) fun x hx => ?_
  rw [mem_singleton.mp hx]
  decide

end RiscvEmu.Jit
