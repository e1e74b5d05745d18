/-
One turn of the dispatch loop: which slot it executes from, on which hart, and what is left of the locals.

• `dispatch_eq`: the megaswitch runs one arm (`armOf`) on the locals of the turn, with counts flushed and a slot
  recorded where needed (`prepare`).
• `SameCounts`: flushed or not, what has been counted is the same.
-/
import RiscvEmu.Cached.Arms

namespace RiscvEmu

open Exec

namespace Locals

variable (s : Locals)

/-- the slot that the turn executes from, recorded before or in this turn -/
def executed : Option Slot :=
  match s.recorded with
  | some d => some d
  | none => s.slot.bind fun _ => populateSlot s.cpu.mem s.cache s.pc

/-- the locals once the slot `d` is recorded; nothing happens where it is already -/
def opened (d : Slot) : Locals :=
  match s.recorded, s.slot with
  | none, some i => { s.flush with cache := s.cache.setSlot i d }
  | _, _ => s

/-- the locals that the arm runs on -/
def prepare : Locals :=
  match s.executed with
  | some d => if d.insn.op.delegated then (s.opened d).flush else s.opened d
  | none => s.flush

def armOf (fp : HostFP) : Arm :=
  match s.executed with
  | some d => arm fp d.insn
  | none => armInterp fp

end Locals

variable (fp : HostFP) (s : Locals)

theorem execSlot_eq (d : Slot) :
    execSlot fp s d = (if d.insn.op.delegated then s.flush else s).run (arm fp d.insn) := by
  unfold execSlot
  split_ifs <;> rfl

/-- **Dispatch.**  One arm runs on the prepared locals. -/
theorem dispatch_eq : dispatch fp s = s.prepare.run (s.armOf fp) := by
  unfold dispatch Locals.prepare Locals.armOf Locals.executed Locals.opened
  cases hr : s.recorded with
  | some d => exact execSlot_eq fp s d
  | none =>
    cases hs : s.slot with
    | none => rfl
    | some i =>
      cases hp : populateSlot s.cpu.mem s.cache s.pc with
      | none => simp
      | some d => simp [execSlot_eq]

/-! ## What preparing leaves as it was -/

/-- the two differ in what is already counted in the hart and what is still counted in the locals -/
structure SameCounts (s t : Locals) : Prop where
  pc : t.pc = s.pc
  slot : t.slot = s.slot
  attemptsUsed : t.attemptsUsed = s.attemptsUsed
  retiredUsed : t.retiredUsed = s.retiredUsed
  countdown : t.countdown = s.countdown
  hart : t.cpu.addCounts t.instrBegun t.instrRetired = s.cpu.addCounts s.instrBegun s.instrRetired

namespace SameCounts

variable {s t u : Locals}

theorem refl (s : Locals) : SameCounts s s := ⟨rfl, rfl, rfl, rfl, rfl, rfl⟩

theorem trans (h : SameCounts s t) (h' : SameCounts t u) : SameCounts s u :=
  ⟨h'.pc.trans h.pc, h'.slot.trans h.slot, h'.attemptsUsed.trans h.attemptsUsed, h'.retiredUsed.trans h.retiredUsed,
    h'.countdown.trans h.countdown, h'.hart.trans h.hart⟩

theorem flush (s : Locals) : SameCounts s s.flush := by
  unfold Locals.flush
  split_ifs
  · exact ⟨rfl, rfl, rfl, rfl, rfl, by simp [Cpu.addCounts]⟩
  · exact refl s

theorem opened (s : Locals) (d : Slot) : SameCounts s (s.opened d) := by
  unfold Locals.opened
  split
  · have hf := flush s
    exact ⟨hf.pc, hf.slot, hf.attemptsUsed, hf.retiredUsed, hf.countdown, hf.hart⟩
  · exact refl s

theorem prepare (s : Locals) : SameCounts s s.prepare := by
  unfold Locals.prepare
  split
  · split_ifs
    · exact (opened s _).trans (flush _)
    · exact opened s _
  · exact flush s

theorem field {α : Type} (h : SameCounts s t) (f : Cpu → α) (hf : ∀ c b r, f (c.addCounts b r) = f c) :
    f t.cpu = f s.cpu := by
  rw [← hf t.cpu t.instrBegun t.instrRetired, h.hart, hf]

theorem mem (h : SameCounts s t) : t.cpu.mem = s.cpu.mem := h.field Cpu.mem fun _ _ _ => rfl

theorem begun (h : SameCounts s t) :
    t.cpu.riscvInstrBegun + t.instrBegun = s.cpu.riscvInstrBegun + s.instrBegun := congrArg Cpu.riscvInstrBegun h.hart

end SameCounts

/-! ## What an arm leaves as it was -/

theorem execFetched_untouched (i : Fetched) (c : Cpu) : Untouched c (execFetched fp i c).2 := by
  cases i with
  | half insn => exact stepRVC_untouched insn c
  | word insn =>
    have h := execInsn_untouched fp insn (c.setWfi false)
    exact ⟨h.begun, h.watch, h.bare⟩

variable (pc : BitVec 64)

theorem armEbreak_untouched (c : Cpu) : Untouched c (armEbreak pc c).2 := by
  have ht := (Untouched.refl c).trap pc causeBreakpoint 0 2
  unfold armEbreak
  dsimp only
  split_ifs
  · exact ht
  · exact ⟨ht.begun, ht.watch, ht.bare⟩
  · exact ⟨rfl, rfl, id⟩

theorem arm_untouched (d : DecodedInsn) (pc : BitVec 64) (c : Cpu) : Untouched c (arm fp d pc c).2 := by
  cases hd : d.op.delegated with
  | true =>
    have h := execFetched_untouched fp d.fetched { c with pc := pc }
    rw [arm_delegated fp hd, armDelegate_run, handOver_hart]
    exact ⟨h.begun, h.watch, h.bare⟩
  | false =>
    have hdoes := arm_does fp d pc c hd
    generalize arm fp d pc c = r at hdoes ⊢
    cases hdoes with
    | illegal hi => exact Untouched.refl c
    | refused hi ha hr => exact ⟨rfl, rfl, id⟩
    | accessed hi ha hr hflow x => exact ⟨rfl, rfl, id⟩
    | wrote hi ha hfall hjump x => exact ⟨rfl, rfl, id⟩
    | ebreak hop => exact armEbreak_untouched pc c

theorem armInterp_untouched (pc : BitVec 64) (c : Cpu) : Untouched c (armInterp fp pc c).2 := by
  have h := step_untouched fp { c with pc := pc }
  rw [armInterp_run, handOver_hart]
  exact ⟨h.begun, h.watch, h.bare⟩

theorem armOf_untouched (pc : BitVec 64) (c : Cpu) : Untouched c (s.armOf fp pc c).2 := by
  unfold Locals.armOf
  cases s.executed with
  | some d => exact arm_untouched fp d.insn pc c
  | none => exact armInterp_untouched fp pc c

/-! ## Arms that leave the inner loop at once -/

/-- the arm of the slot refuses the encoding, or guest memory refuses its access -/
def DecodedInsn.skips (d : DecodedInsn) (c : Cpu) : Prop :=
  d.op.delegated = false ∧
    (d.inlineIllegal = true ∨ ∃ a f m, d.inlineAccess c = some a ∧ a c.mem = (.error f, m))

variable (d : DecodedInsn)

theorem inlineAccess_congr {c c' : Cpu} (h : c'.x = c.x) : d.inlineAccess c' = d.inlineAccess c := by
  have hb : d.b c' = d.b c := by rw [DecodedInsn.b, DecodedInsn.b, h]
  have ha : d.addr c' = d.addr c := by rw [DecodedInsn.addr, DecodedInsn.addr, h]
  have hsp : d.spAddr c' = d.spAddr c := by rw [DecodedInsn.spAddr, DecodedInsn.spAddr, h]
  unfold DecodedInsn.inlineAccess DecodedInsn.b32
  rw [ha, hb, hsp]

theorem skips_congr {c c' : Cpu} (hx : c'.x = c.x) (hm : c'.mem = c.mem) : d.skips c' ↔ d.skips c := by
  unfold DecodedInsn.skips
  rw [inlineAccess_congr d hx, hm]

theorem armEbreak_not_break (c : Cpu) (e : StepError) : (armEbreak pc c).1 ≠ .breakInner e := by
  unfold armEbreak
  dsimp only
  split_ifs <;> nofun

theorem arm_break_iff (d : DecodedInsn) (pc : BitVec 64) (c : Cpu) :
    (∃ e, (arm fp d pc c).1 = .breakInner e) ↔ d.skips c := by
  cases hd : d.op.delegated with
  | true =>
    rw [arm_delegated fp hd, armDelegate_run]
    refine iff_of_false (fun ⟨e, he⟩ => handOver_not_break _ e he) fun h => ?_
    rw [h.1] at hd
    cases hd
  | false =>
    have hlegal : d.inlineIllegal = false → d.inlineAccess c = none → ¬ d.skips c := by
      rintro hi ha ⟨-, h | ⟨a, f, m, h, -⟩⟩
      · rw [hi] at h
        cases h
      · rw [ha] at h
        cases h
    have hdoes := arm_does fp d pc c hd
    generalize arm fp d pc c = r at hdoes ⊢
    cases hdoes with
    | illegal hi => exact iff_of_true ⟨_, rfl⟩ ⟨hd, .inl hi⟩
    | refused hi ha hr => exact iff_of_true ⟨_, rfl⟩ ⟨hd, .inr ⟨_, _, _, ha, hr⟩⟩
    | accessed hi ha hr hflow x =>
      refine iff_of_false (fun ⟨e, he⟩ => nomatch he) ?_
      rintro ⟨-, h | ⟨a, f, m, h, he⟩⟩
      · rw [hi] at h
        cases h
      · cases ha.symm.trans h
        cases hr.symm.trans he
    | wrote hi ha hfall hjump x => exact iff_of_false (fun ⟨e, he⟩ => nomatch he) (hlegal hi ha)
    | ebreak hop =>
      refine iff_of_false (fun ⟨e, he⟩ => armEbreak_not_break pc c e he) (hlegal ?_ ?_)
      · unfold DecodedInsn.inlineIllegal
        rw [hop]
      · unfold DecodedInsn.inlineAccess
        rw [hop]

/-- the turn executes from a slot whose arm leaves the inner loop at once -/
def Locals.skips (s : Locals) : Prop := ∃ d, s.executed = some d ∧ d.insn.skips s.cpu

theorem armOf_break_iff (pc : BitVec 64) {c : Cpu} (hx : c.x = s.cpu.x)
    (hm : c.mem = s.cpu.mem) : (∃ e, (s.armOf fp pc c).1 = .breakInner e) ↔ s.skips := by
  unfold Locals.armOf Locals.skips
  cases s.executed with
  | some d => simp only [arm_break_iff, skips_congr d.insn hx hm, Option.some.injEq, exists_eq_left']
  | none =>
    refine iff_of_false ?_ (by simp)
    rintro ⟨e, he⟩
    exact handOver_not_break _ e he

/-! ## Runs -/

theorem runCached_succ (nc : NoteChain) (cache : DecoderCache) (attemptBudget retiredBudget : BitVec 64)
    (c : Cpu) (n : Nat) :
    runCachedDualBudget fp nc cache attemptBudget retiredBudget c (n + 1) =
      turn fp nc (budgetsOf attemptBudget retiredBudget c)
        (runCachedDualBudget fp nc cache attemptBudget retiredBudget c n) := Function.iterate_succ_apply' _ _ _

end RiscvEmu
