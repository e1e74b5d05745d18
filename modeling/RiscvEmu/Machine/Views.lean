/-
`sie` and `sip` as views of `mie` and `mip`.

The source keeps both pairs of registers and puts them together when they are read: `sie` reads `sie | mie & mideleg`,
`sip` reads `sip | mip & mideleg`. So a bit that the supervisor clears may still be there in the machine's register,
and a read-modify-write of `sip` stores the external line that it has read.

A run is a sequence of CSR instructions, looks at the external line, and anything else the machine does to the rest of
the hart (`ViewOp`; `machineRun_views` says that it does nothing else). `Cleared` notes which bits software has left
cleared. A bit is `Off` if no register holds it; this is the same as being silent until software touches it again
(`staysQuiet_iff_off`).

`views_iff`: the cleared bits stay silent just if no access clears a bit that the machine's register holds, and none
reads the line into `sip`.
-/
import RiscvEmu.Machine.Invariant

namespace RiscvEmu

variable {b : Nat}

open List BitVec Option

open Exec BitField

/-! ## CSR instructions -/

/-- the instruction writes its CSR -/
def csrWrites (insn : BitVec 32) : Bool := funct3Of insn = 1 ∨ funct3Of insn = 5 ∨ rs1Of insn ≠ 0

def csrSource (c : Cpu) (insn : BitVec 32) : BitVec 64 :=
  if funct3Of insn ≥ 5 then (rs1Of insn).setWidth 64 else c.x (rs1Of insn)

/-- the bits that software sets, resp. clears, with the instruction -/
def csrSets (c : Cpu) (insn : BitVec 32) : BitVec 64 :=
  if !csrWrites insn then 0
  else if funct3Of insn = 1 ∨ funct3Of insn = 5 ∨ funct3Of insn = 2 ∨ funct3Of insn = 6 then csrSource c insn
  else 0

def csrClears (c : Cpu) (insn : BitVec 32) : BitVec 64 :=
  if !csrWrites insn then 0
  else if funct3Of insn = 1 ∨ funct3Of insn = 5 then ~~~ csrSource c insn
  else if funct3Of insn = 2 ∨ funct3Of insn = 6 then 0
  else csrSource c insn

/-! ## The runs -/

/-- a CSR instruction, a look at the external line, or a change of anything but the four interrupt registers -/
inductive ViewOp
  | access (insn : BitVec 32)
  | poll (line : Bool)
  | other (d : Cpu)

def ViewOp.run : ViewOp → Cpu → Cpu
  | .access insn, c => (execCsr insn c).2
  | .poll line, c => c.setExternalPending line
  | .other d, c =>
    { d with csr := { d.csr with sie := c.csr.sie, sip := c.csr.sip, mie := c.csr.mie, mip := c.csr.mip } }

/-- the enable and pending bits that software has left cleared, and the external line when it was
last looked at -/
structure Cleared where
  enable : BitVec 64
  pending : BitVec 64
  line : Bool

/-- `g` after an instruction that clears `cl` through the supervisor's register, where delegated, or sets `st` through
either -/
def clearedBits (g mideleg cl st : BitVec 64) : BitVec 64 := andNot (g ||| (cl &&& mideleg)) st

def Cleared.after (g : Cleared) (c : Cpu) : ViewOp → Cleared
  | .access insn =>
    if (execCsr insn c).1.isOk then
      if imm12Of insn = 0x104 then
        { g with enable := clearedBits g.enable c.csr.mideleg (csrClears c insn) (csrSets c insn) }
      else if imm12Of insn = 0x304 then { g with enable := andNot g.enable (csrSets c insn) }
      else if imm12Of insn = 0x144 then
        { g with pending := clearedBits g.pending c.csr.mideleg (csrClears c insn) (csrSets c insn) }
      else if imm12Of insn = 0x344 then { g with pending := andNot g.pending (csrSets c insn) }
      else g
    else g
  | .poll line => { g with line := line }
  | .other _ => g

/-! ## What is wanted -/

/-- the numbers of the supervisor's interrupts: software, timer, external -/
def supervisorIrqs : List Nat := [1, 5, 9]

/-- the device, resp. `stimecmp`, asserts the interrupt -/
def Asserted (g : Cleared) (c : Cpu) (b : Nat) : Prop := (b = 9 ∧ g.line = true) ∨ (b = 5 ∧ c.csr.stip = true)

/-- the bit reads zero and its interrupt is not taken -/
def Silent (c : Cpu) (addr : BitVec 12) (b : Nat) : Prop :=
  (∀ v, c.readCSR addr = some v → v.getLsbD b = false) ∧ c.pendingSupervisorInterrupt ≠ some (BitVec.ofNat 64 b)

/-- what is cleared, and not asserted, is silent -/
def Quiet (g : Cleared) (c : Cpu) : Prop :=
  ∀ b ∈ supervisorIrqs, (g.enable.getLsbD b = true → Silent c 0x104 b) ∧
    (g.pending.getLsbD b = true → ¬ Asserted g c b → Silent c 0x144 b)

/-- the registers are left to the environment -/
def ViewOp.env : ViewOp → Prop
  | .access _ => False
  | _ => True

def runViews : List ViewOp → Cleared × Cpu → Cleared × Cpu
  | [], s => s
  | op :: ops, s => runViews ops (s.1.after s.2 op, op.run s.2)

/-- what is cleared stays silent until software accesses the registers again -/
def StaysQuiet (g : Cleared) (c : Cpu) : Prop :=
  ∀ ops : List ViewOp, (∀ op ∈ ops, op.env) → Quiet (runViews ops (g, c)).1 (runViews ops (g, c)).2

/-- `StaysQuiet` holds in every state of the run -/
def QuietThroughout : List ViewOp → Cleared → Cpu → Prop
  | [], g, c => StaysQuiet g c
  | op :: ops, g, c => StaysQuiet g c ∧ QuietThroughout ops (g.after c op) (op.run c)

/-! ## The condition -/

/-- an access clears no enable bit that `mie` holds and no pending bit that `mip` holds, and stores no external line in
`sip` that software has not set -/
def Harmless (g : Cleared) (c : Cpu) : ViewOp → Prop
  | .access insn =>
    (execCsr insn c).1.isOk →
      (imm12Of insn = 0x104 → ∀ b ∈ supervisorIrqs,
        (csrClears c insn &&& c.csr.mideleg).getLsbD b = true → c.csr.mie.getLsbD b = false) ∧
      (imm12Of insn = 0x144 →
        ((csrClears c insn &&& c.csr.mideleg).getLsbD 1 = true → c.csr.mip.getLsbD 1 = false) ∧
        ((csrClears c insn &&& c.csr.mideleg).getLsbD 9 = true → g.line = false → c.csr.mip.getLsbD 9 = false) ∧
        (csrWrites insn = true → g.pending.getLsbD 9 = true → (csrSets c insn).getLsbD 9 = false →
          (csrClears c insn).getLsbD 9 = false → (c.csr.mip &&& c.csr.mideleg).getLsbD 9 = false))
  | _ => True

def HarmlessThroughout : List ViewOp → Cleared → Cpu → Prop
  | [], _, _ => True
  | op :: ops, g, c => Harmless g c op ∧ HarmlessThroughout ops (g.after c op) (op.run c)

/-! ## Bits that no register holds -/

/-- the cleared bits are in no register, but for the external line -/
structure Off (g : Cleared) (c : Cpu) : Prop where
  enable : ∀ b ∈ supervisorIrqs, g.enable.getLsbD b = true → c.csr.sie.getLsbD b = false ∧ c.csr.mie.getLsbD b = false
  ssip : g.pending.getLsbD 1 = true → c.csr.sip.getLsbD 1 = false ∧ c.csr.mip.getLsbD 1 = false
  stip : g.pending.getLsbD 5 = true → c.csr.sip.getLsbD 5 = false
  seip : g.pending.getLsbD 9 = true → c.csr.sip.getLsbD 9 = false ∧ (g.line = false → c.csr.mip.getLsbD 9 = false)

variable (c : Cpu)

theorem mipValue_getLsbD (hb : b < 64) :
    c.mipValue.getLsbD b = if b = 5 then c.csr.stip else c.csr.mip.getLsbD b := by
  have hbit : mipSTIP.getLsbD b = decide (5 = b) := getLsbD_one_shift (by decide) b
  have hnot : (andNot c.csr.mip mipSTIP).getLsbD b = (c.csr.mip.getLsbD b && !decide (5 = b)) := by
    simp only [andNot, getLsbD_and, getLsbD_not, hbit, hb, decide_true, Bool.true_and]
  unfold Cpu.mipValue
  by_cases h5 : b = 5
  · subst h5
    cases hs : c.csr.stip <;> simp only [getLsbD_or, hnot, hbit, decide_true, Bool.not_true, Bool.and_false,
      Bool.or_true, if_true, Bool.false_eq_true, if_false]
  · have h5' : ¬ 5 = b := fun h => h5 h.symm
    cases hs : c.csr.stip <;> simp only [getLsbD_or, hnot, hbit, decide_eq_false h5', Bool.not_false, Bool.and_true,
      Bool.or_false, if_true, Bool.false_eq_true, if_false, if_neg h5]

theorem pendingSupervisorInterrupt_bit {c : Cpu} (hb : b < 64)
    (h : c.pendingSupervisorInterrupt = some (BitVec.ofNat 64 b)) :
    (c.mipValue.getLsbD b || c.csr.sip.getLsbD b) = true ∧ (c.csr.mie.getLsbD b || c.csr.sie.getLsbD b) = true := by
  unfold Cpu.pendingSupervisorInterrupt at h
  dsimp only at h
  split_ifs at h
  have hp := find?_some h
  have hn : (BitVec.ofNat 64 b).toNat = b := by
    rw [toNat_ofNat, Nat.mod_eq_of_lt (by omega)]
  rw [hn, decide_eq_true_eq, ne_eq] at hp
  have hbit := mt (and_one_shift_eq_zero_iff _ hb).2 hp
  rw [Bool.not_eq_false, getLsbD_and, getLsbD_and, getLsbD_or, getLsbD_or,
    Bool.and_eq_true, Bool.and_eq_true] at hbit
  exact hbit.1

theorem setExternalPending_mip (line : Bool) (hb : b < 64) :
    (c.setExternalPending line).csr.mip.getLsbD b = if b = 9 then line else c.csr.mip.getLsbD b := by
  have hbit : mipSEIP.getLsbD b = decide (9 = b) := getLsbD_one_shift (by decide) b
  unfold Cpu.setExternalPending
  by_cases h9 : b = 9
  · subst h9
    cases line <;> simp only [andNot, getLsbD_or, getLsbD_and, getLsbD_not, hbit, decide_true,
      Bool.not_true, Bool.and_false, Bool.or_true, if_true, Bool.false_eq_true, if_false]
  · have h9' : ¬ 9 = b := fun h => h9 h.symm
    cases line <;> simp only [andNot, getLsbD_or, getLsbD_and, getLsbD_not, hbit, hb, decide_true,
      decide_eq_false h9', Bool.not_false, Bool.and_true, Bool.or_false, if_true, Bool.false_eq_true,
        if_false, if_neg h9]

theorem off_env {g : Cleared} {c : Cpu} (h : Off g c) {op : ViewOp} (he : op.env) : Off (g.after c op) (op.run c) := by
  cases op with
  | access insn => exact he.elim
  | other d => exact { enable := h.enable, ssip := h.ssip, stip := h.stip, seip := h.seip }
  | poll line =>
    refine { enable := h.enable, ssip := fun hp => ⟨(h.ssip hp).1, ?_⟩, stip := h.stip
             seip := fun hp => ⟨(h.seip hp).1, fun hl => ?_⟩ }
    · rw [ViewOp.run, setExternalPending_mip c line (by decide), if_neg (by decide)]
      exact (h.ssip hp).2
    · rw [ViewOp.run, setExternalPending_mip c line (by decide), if_pos rfl]
      exact hl

theorem quiet_of_off {g : Cleared} {c : Cpu} (h : Off g c) : Quiet g c := by
  have h64 : ∀ b ∈ supervisorIrqs, b < 64 := by decide
  intro b hb
  constructor
  · intro hg
    obtain ⟨hs, hm⟩ := h.enable b hb hg
    refine ⟨fun v hv => ?_, fun hp => ?_⟩
    · obtain rfl := some.inj hv
      simp [getLsbD_or, getLsbD_and, hs, hm]
    · have := (pendingSupervisorInterrupt_bit (h64 b hb) hp).2
      simp [hs, hm] at this
  · intro hg hna
    have hoff : c.csr.sip.getLsbD b = false ∧ c.mipValue.getLsbD b = false := by
      rw [mipValue_getLsbD c (h64 b hb)]
      simp only [supervisorIrqs, mem_cons, not_mem_nil, or_false] at hb
      rcases hb with rfl | rfl | rfl
      · exact h.ssip hg
      · refine ⟨h.stip hg, ?_⟩
        simpa [Asserted] using hna
      · refine ⟨(h.seip hg).1, (h.seip hg).2 ?_⟩
        simpa [Asserted] using hna
    refine ⟨fun v hv => ?_, fun hp => ?_⟩
    · obtain rfl := some.inj hv
      simp [getLsbD_or, getLsbD_and, hoff.1, hoff.2]
    · have := (pendingSupervisorInterrupt_bit (h64 b hb) hp).1
      simp [hoff.1, hoff.2] at this

theorem off_runViews {g : Cleared} {c : Cpu} (h : Off g c) {ops : List ViewOp} (he : ∀ op ∈ ops, op.env) :
    Off (runViews ops (g, c)).1 (runViews ops (g, c)).2 := by
  induction ops generalizing g c with
  | nil => exact h
  | cons op ops ih =>
    exact ih (off_env h (he op (mem_cons_self))) fun op' hop => he op' (mem_cons_of_mem _ hop)

/-- the hart with every interrupt delegated and the timer quiet -/
def Cpu.delegatingAll (c : Cpu) : Cpu := { c with csr := { c.csr with mideleg := allOnes 64, stip := false } }

theorem off_of_staysQuiet {g : Cleared} {c : Cpu} (h : StaysQuiet g c) : Off g c := by
  have h64 : ∀ b ∈ supervisorIrqs, b < 64 := by decide
  have hall : ∀ b ∈ supervisorIrqs, (allOnes 64).getLsbD b = true := by decide
  have hnow := h [.other c.delegatingAll] (by simp [ViewOp.env])
  have hlow := h [.poll false, .other c.delegatingAll] (by simp [ViewOp.env])
  have hread : ∀ {a b : Bool}, (a || (b && true)) = false → a = false ∧ b = false := by decide
  -- the bits of `sip`, resp. `mip`, that a look at `sip` shows
  have hsip : ∀ b ∈ supervisorIrqs, g.pending.getLsbD b = true → (b = 9 → g.line = false) →
      c.csr.sip.getLsbD b = false ∧ c.delegatingAll.mipValue.getLsbD b = false := by
    intro b hb hg hl
    have hna : ¬ Asserted g c.delegatingAll b := by
      rintro (⟨h9, hline⟩ | ⟨-, hs⟩)
      · rw [hl h9] at hline
        cases hline
      · cases hs
    have hv := ((hnow b hb).2 hg hna).1 _ rfl
    rw [getLsbD_or, getLsbD_and, show (runViews [.other c.delegatingAll] (g, c)).2.csr.mideleg.getLsbD b = true
      from hall b hb] at hv
    exact hread hv
  constructor
  · intro b hb hg
    have hv := ((hnow b hb).1 hg).1 _ rfl
    rw [getLsbD_or, getLsbD_and, show (runViews [.other c.delegatingAll] (g, c)).2.csr.mideleg.getLsbD b = true
      from hall b hb] at hv
    exact hread hv
  · intro hg
    obtain ⟨hs, hm⟩ := hsip 1 (by decide) hg (fun h => absurd h (by decide))
    rw [mipValue_getLsbD _ (by decide), if_neg (by decide)] at hm
    exact ⟨hs, hm⟩
  · exact fun hg => (hsip 5 (by decide) hg fun h => absurd h (by decide)).1
  · intro hg
    have hna : ¬ Asserted { g with line := false } c.delegatingAll 9 := by
      rintro (⟨-, hline⟩ | ⟨-, hs⟩)
      · cases hline
      · cases hs
    have hv := ((hlow 9 (by decide)).2 hg hna).1 _ rfl
    rw [getLsbD_or] at hv
    refine ⟨(Bool.or_eq_false_iff.1 hv).1, fun hl => ?_⟩
    have hm := (hsip 9 (by decide) hg fun _ => hl).2
    rwa [mipValue_getLsbD _ (by decide), if_neg (by decide)] at hm

theorem staysQuiet_iff_off (g : Cleared) (c : Cpu) : StaysQuiet g c ↔ Off g c :=
  ⟨off_of_staysQuiet, fun h _ he => quiet_of_off (off_runViews h he)⟩

/-! ## One access -/

/-- the value a CSR instruction writes over `old` -/
def csrNewValue (c : Cpu) (insn : BitVec 32) (old : BitVec 64) : BitVec 64 :=
  if funct3Of insn = 1 ∨ funct3Of insn = 5 then csrSource c insn
  else if funct3Of insn = 2 ∨ funct3Of insn = 6 then old ||| csrSource c insn
  else andNot old (csrSource c insn)

variable (insn : BitVec 32)

theorem execCsr_run (c : Cpu) :
    execCsr insn c =
      if !c.checkCSRAccess (imm12Of insn) (csrWrites insn) then (.error .illegalInstruction, c)
      else match (if rdOf insn ≠ 0 ∨ (funct3Of insn ≠ 1 ∧ funct3Of insn ≠ 5) then c.readCSR
        (imm12Of insn) else some 0) with
        | none => (.error .illegalInstruction, c)
        | some old =>
          if csrWrites insn then
            if (c.writeCSR (imm12Of insn) (csrNewValue c insn old)).1 then
              (.ok (), (c.writeCSR (imm12Of insn) (csrNewValue c insn old)).2.setReg (rdOf insn) old)
            else (.error .illegalInstruction, c)
          else (.ok (), c.setReg (rdOf insn) old) := by
  have hrun : execCsr insn c =
      (if !c.checkCSRAccess (imm12Of insn) (csrWrites insn) then illegal
      else match (if decide (rdOf insn ≠ 0 ∨ (funct3Of insn ≠ 1 ∧ funct3Of insn ≠ 5)) = true
          then c.readCSR (imm12Of insn) else some 0) with
        | none => illegal
        | some old =>
          if csrWrites insn then
            if (c.writeCSR (imm12Of insn) (csrNewValue c insn old)).1 then
              Exec.modify fun _ => (c.writeCSR (imm12Of insn) (csrNewValue c insn old)).2.setReg (rdOf insn) old
            else illegal
          else setRegM (rdOf insn) old : Step Unit) c := rfl
  rw [hrun]
  by_cases hacc : (!c.checkCSRAccess (imm12Of insn) (csrWrites insn)) = true
  · rw [if_pos hacc, if_pos hacc]
    rfl
  rw [if_neg hacc, if_neg hacc]
  simp only [decide_eq_true_eq]
  generalize (if rdOf insn ≠ 0 ∨ (funct3Of insn ≠ 1 ∧ funct3Of insn ≠ 5) then c.readCSR (imm12Of insn) else some 0) = o
  cases o with
  | none => rfl
  | some old =>
    by_cases hw : csrWrites insn = true
    · simp only [hw, if_true]
      by_cases hok : (c.writeCSR (imm12Of insn) (csrNewValue c insn old)).1 = true
      · rw [if_pos hok, if_pos hok]
        rfl
      · rw [if_neg hok, if_neg hok]
        rfl
    · simp only [hw, Bool.false_eq_true, if_false]
      rfl

theorem csrNewValue_bit {c : Cpu} {insn : BitVec 32} (hw : csrWrites insn = true) (old : BitVec 64) (hb : b < 64) :
    (csrNewValue c insn old).getLsbD b =
      ((csrSets c insn).getLsbD b || (!(csrClears c insn).getLsbD b && old.getLsbD b)) := by
  unfold csrNewValue csrSets csrClears
  simp only [hw, Bool.not_true, Bool.false_eq_true, if_false]
  by_cases h1 : funct3Of insn = 1 ∨ funct3Of insn = 5
  · have h1' : funct3Of insn = 1 ∨ funct3Of insn = 5 ∨ funct3Of insn = 2 ∨ funct3Of insn = 6 := by tauto
    rw [if_pos h1, if_pos h1', if_pos h1, getLsbD_not, decide_eq_true hb, Bool.true_and]
    cases (csrSource c insn).getLsbD b <;> simp
  · by_cases h2 : funct3Of insn = 2 ∨ funct3Of insn = 6
    · have h2' : funct3Of insn = 1 ∨ funct3Of insn = 5 ∨ funct3Of insn = 2 ∨ funct3Of insn = 6 := by tauto
      rw [if_neg h1, if_pos h2, if_pos h2', if_neg h1, if_pos h2, getLsbD_or]
      cases (csrSource c insn).getLsbD b <;> simp
    · have h2' : ¬ (funct3Of insn = 1 ∨ funct3Of insn = 5 ∨ funct3Of insn = 2 ∨ funct3Of insn = 6) := by tauto
      rw [if_neg h1, if_neg h2, if_neg h2', if_neg h1, if_neg h2, andNot, getLsbD_and, getLsbD_not,
        decide_eq_true hb, Bool.true_and]
      cases (csrSource c insn).getLsbD b <;> simp

/-- what a CSR instruction does: it is refused, it reads, or it writes what it has read with its
bits set and cleared -/
theorem execCsr_cases (c : Cpu) :
    (∃ e, execCsr insn c = (.error e, c)) ∨
      (csrWrites insn = false ∧ ∃ v, execCsr insn c = (.ok (), c.setReg (rdOf insn) v)) ∨
      (csrWrites insn = true ∧ ∃ old,
        execCsr insn c = (.ok (), (c.writeCSR (imm12Of insn) (csrNewValue c insn old)).2.setReg (rdOf insn) old) ∧
        (funct3Of insn ≠ 1 ∧ funct3Of insn ≠ 5 → c.readCSR (imm12Of insn) = some old)) := by
  rw [execCsr_run]
  by_cases hacc : (!c.checkCSRAccess (imm12Of insn) (csrWrites insn)) = true
  · rw [if_pos hacc]
    exact .inl ⟨_, rfl⟩
  rw [if_neg hacc]
  rcases ho : (if rdOf insn ≠ 0 ∨ (funct3Of insn ≠ 1 ∧ funct3Of insn ≠ 5) then c.readCSR (imm12Of insn) else some 0)
    with _ | old
  · exact .inl ⟨_, rfl⟩
  dsimp only
  have hold : funct3Of insn ≠ 1 ∧ funct3Of insn ≠ 5 → c.readCSR (imm12Of insn) = some old := by
    intro h
    rwa [if_pos (Or.inr h)] at ho
  cases hw : csrWrites insn with
  | false => exact .inr (.inl ⟨rfl, old, rfl⟩)
  | true =>
    by_cases hok : (c.writeCSR (imm12Of insn) (csrNewValue c insn old)).1 = true
    · rw [if_pos rfl, if_pos hok]
      exact .inr (.inr ⟨rfl, old, rfl, hold⟩)
    · rw [if_pos rfl, if_neg hok]
      exact .inl ⟨_, rfl⟩

theorem csr_untouched {c : Cpu} {insn : BitVec 32} (hw : csrWrites insn = true) (hb : b < 64)
    (hs : (csrSets c insn).getLsbD b = false) (hc : (csrClears c insn).getLsbD b = false) :
    funct3Of insn ≠ 1 ∧ funct3Of insn ≠ 5 := by
  by_contra hne
  have h1 : funct3Of insn = 1 ∨ funct3Of insn = 5 := by tauto
  have h1' : funct3Of insn = 1 ∨ funct3Of insn = 5 ∨ funct3Of insn = 2 ∨ funct3Of insn = 6 := by tauto
  simp only [csrSets, csrClears, hw, Bool.not_true, Bool.false_eq_true, if_false, if_pos h1, if_pos h1',
    getLsbD_not, decide_eq_true hb, Bool.true_and] at hs hc
  rw [hs] at hc
  cases hc

theorem csrClears_disjoint {c : Cpu} {insn : BitVec 32} (h : (csrClears c insn).getLsbD b = true) :
    (csrSets c insn).getLsbD b = false := by
  unfold csrClears at h
  unfold csrSets
  split_ifs at h with hw h1 h2
  · exact absurd h (by simp)
  · have hsrc : (csrSource c insn).getLsbD b = false := by
      rw [getLsbD_not, Bool.and_eq_true] at h
      simpa using h.2
    split_ifs
    · exact hsrc
    · simp
  · exact absurd h (by simp)
  · have h3 : ¬ (funct3Of insn = 1 ∨ funct3Of insn = 5 ∨ funct3Of insn = 2 ∨ funct3Of insn = 6) := by tauto
    rw [if_neg hw, if_neg h3]
    simp

theorem csrNewValue_zero {c : Cpu} {insn : BitVec 32} {old : BitVec 64} (hw : csrWrites insn = true)
    (hold : funct3Of insn ≠ 1 ∧ funct3Of insn ≠ 5 → c.readCSR (imm12Of insn) = some old) (hb : b < 64)
    (hs : (csrSets c insn).getLsbD b = false)
    (hr : (csrClears c insn).getLsbD b = false → ∀ r, c.readCSR (imm12Of insn) = some r → r.getLsbD b = false) :
    (csrNewValue c insn old).getLsbD b = false := by
  rw [csrNewValue_bit hw old hb, hs, Bool.false_or]
  cases hc : (csrClears c insn).getLsbD b with
  | true => rfl
  | false =>
    rw [hr hc old (hold (csr_untouched hw hb hs hc))]
    rfl

theorem clearedBits_bit {g mideleg cl st : BitVec 64} (hb : b < 64) :
    (clearedBits g mideleg cl st).getLsbD b = true ↔
      (g.getLsbD b = true ∨ (cl &&& mideleg).getLsbD b = true) ∧ st.getLsbD b = false := by
  simp only [clearedBits, andNot, getLsbD_and, getLsbD_or, getLsbD_not, hb, decide_true, Bool.true_and,
    Bool.and_eq_true, Bool.or_eq_true, Bool.not_eq_true']

theorem andNot_bit {x y : BitVec 64} (hb : b < 64) :
    (andNot x y).getLsbD b = true ↔ x.getLsbD b = true ∧ y.getLsbD b = false := by
  simp only [andNot, getLsbD_and, getLsbD_not, hb, decide_true, Bool.true_and, Bool.and_eq_true,
    Bool.not_eq_true']

section Access

variable {g : Cleared} {c : Cpu} {insn : BitVec 32} {old : BitVec 64} (h : Off g c) (hw : csrWrites insn = true)
  (hold : funct3Of insn ≠ 1 ∧ funct3Of insn ≠ 5 → c.readCSR (imm12Of insn) = some old)

include h hw hold

/-- a write to `sie` leaves the cleared bits off exactly if `mie` holds none of those it clears -/
theorem off_sie_iff (ha : imm12Of insn = 0x104#12) :
    Off { g with enable := clearedBits g.enable c.csr.mideleg (csrClears c insn) (csrSets c insn) }
        { c with csr.sie := csrNewValue c insn old &&& implementedSieMask } ↔
      ∀ b ∈ supervisorIrqs, (csrClears c insn &&& c.csr.mideleg).getLsbD b = true → c.csr.mie.getLsbD b = false := by
  have h64 : ∀ b ∈ supervisorIrqs, b < 64 := by decide
  constructor
  · intro hoff b hb hcl
    have hs : (csrSets c insn).getLsbD b = false := by
      rw [getLsbD_and, Bool.and_eq_true] at hcl
      exact csrClears_disjoint hcl.1
    exact (hoff.enable b hb ((clearedBits_bit (h64 b hb)).2 ⟨.inr hcl, hs⟩)).2
  · intro hmie
    refine { enable := fun b hb hg => ?_, ssip := h.ssip, stip := h.stip, seip := h.seip }
    obtain ⟨hg, hs⟩ := (clearedBits_bit (h64 b hb)).1 hg
    have hm : c.csr.mie.getLsbD b = false := hg.elim (fun hg => (h.enable b hb hg).2) (hmie b hb)
    refine ⟨?_, hm⟩
    rw [getLsbD_and, csrNewValue_zero hw hold (h64 b hb) hs, Bool.false_and]
    intro hc r hr
    rw [ha] at hr
    obtain rfl := some.inj hr
    have hg : g.enable.getLsbD b = true := by
      rcases hg with hg | hg
      · exact hg
      · rw [getLsbD_and, hc, Bool.false_and] at hg
        cases hg
    rw [getLsbD_or, getLsbD_and, (h.enable b hb hg).1, hm]
    rfl

theorem off_mie (ha : imm12Of insn = 0x304#12) :
    Off { g with enable := andNot g.enable (csrSets c insn) }
      { c with csr.mie := csrNewValue c insn old &&& implementedMieMask } := by
  have h64 : ∀ b ∈ supervisorIrqs, b < 64 := by decide
  refine { enable := fun b hb hg => ?_, ssip := h.ssip, stip := h.stip, seip := h.seip }
  obtain ⟨hg, hs⟩ := (andNot_bit (h64 b hb)).1 hg
  refine ⟨(h.enable b hb hg).1, ?_⟩
  rw [getLsbD_and, csrNewValue_zero hw hold (h64 b hb) hs, Bool.false_and]
  intro _ r hr
  rw [ha] at hr
  obtain rfl := some.inj hr
  exact (h.enable b hb hg).2

theorem off_mip (ha : imm12Of insn = 0x344#12) :
    Off { g with pending := andNot g.pending (csrSets c insn) }
      { c with csr.mip := csrNewValue c insn old &&& implementedMipMask } := by
  have hzero : ∀ b < 64, b ≠ 5 → (csrSets c insn).getLsbD b = false → c.csr.mip.getLsbD b = false →
      (csrNewValue c insn old &&& implementedMipMask).getLsbD b = false := by
    intro b hb h5 hs hm
    rw [getLsbD_and, csrNewValue_zero hw hold hb hs, Bool.false_and]
    intro _ r hr
    rw [ha] at hr
    obtain rfl := some.inj hr
    rw [mipValue_getLsbD c hb, if_neg h5]
    exact hm
  refine { enable := h.enable, ssip := fun hg => ?_, stip := fun hg => ?_, seip := fun hg => ?_ }
  all_goals obtain ⟨hg, hs⟩ := (andNot_bit (by decide)).1 hg
  · exact ⟨(h.ssip hg).1, hzero 1 (by decide) (by decide) hs (h.ssip hg).2⟩
  · exact h.stip hg
  · exact ⟨(h.seip hg).1, fun hl => hzero 9 (by decide) (by decide) hs ((h.seip hg).2 hl)⟩

/-- a write to `sip` leaves the cleared bits off exactly if `mip` holds none of those it clears, and the line is not
read into `sip` -/
theorem off_sip_iff (ha : imm12Of insn = 0x144#12) :
    Off { g with pending := clearedBits g.pending c.csr.mideleg (csrClears c insn) (csrSets c insn) }
        { c with csr.sip := csrNewValue c insn old &&& implementedSipMask } ↔
      ((csrClears c insn &&& c.csr.mideleg).getLsbD 1 = true → c.csr.mip.getLsbD 1 = false) ∧
        ((csrClears c insn &&& c.csr.mideleg).getLsbD 9 = true → g.line = false → c.csr.mip.getLsbD 9 = false) ∧
        (csrWrites insn = true → g.pending.getLsbD 9 = true → (csrSets c insn).getLsbD 9 = false →
          (csrClears c insn).getLsbD 9 = false → (c.csr.mip &&& c.csr.mideleg).getLsbD 9 = false) := by
  have hdisj : ∀ {b}, (csrClears c insn &&& c.csr.mideleg).getLsbD b = true → (csrSets c insn).getLsbD b = false := by
    intro b hcl
    rw [getLsbD_and, Bool.and_eq_true] at hcl
    exact csrClears_disjoint hcl.1
  -- what `sip` reads as
  have hread : ∀ b < 64, b ≠ 5 → ∀ r, c.readCSR (imm12Of insn) = some r →
      r.getLsbD b = (c.csr.sip.getLsbD b || (c.csr.mip &&& c.csr.mideleg).getLsbD b) := by
    intro b hb h5 r hr
    rw [ha] at hr
    obtain rfl := some.inj hr
    rw [getLsbD_or, getLsbD_and, getLsbD_and, mipValue_getLsbD c hb, if_neg h5]
  have hkept : ∀ {b}, (csrClears c insn).getLsbD b = false →
      (g.pending.getLsbD b = true ∨ (csrClears c insn &&& c.csr.mideleg).getLsbD b = true) →
        g.pending.getLsbD b = true := by
    intro b hc hg
    rcases hg with hg | hg
    · exact hg
    · rw [getLsbD_and, hc, Bool.false_and] at hg
      cases hg
  constructor
  · intro hoff
    refine ⟨fun hcl => ?_, fun hcl hl => ?_, fun _ hg hs hc => ?_⟩
    · exact (hoff.ssip ((clearedBits_bit (by decide)).2 ⟨.inr hcl, hdisj hcl⟩)).2
    · exact (hoff.seip ((clearedBits_bit (by decide)).2 ⟨.inr hcl, hdisj hcl⟩)).2 hl
    · have hv := (hoff.seip ((clearedBits_bit (by decide)).2 ⟨.inl hg, hs⟩)).1
      have hmask : implementedSipMask.getLsbD 9 = true := by decide
      rw [getLsbD_and, hmask, Bool.and_true, csrNewValue_bit hw old (by decide), hs, hc, Bool.false_or, Bool.not_false,
        Bool.true_and, hread 9 (by decide) (by decide) old (hold (csr_untouched hw (by decide) hs hc))] at hv
      exact (Bool.or_eq_false_iff.1 hv).2
  · rintro ⟨hssip, hseip, hlatch⟩
    refine { enable := h.enable, ssip := fun hg => ?_, stip := fun hg => ?_, seip := fun hg => ?_ }
    · obtain ⟨hg, hs⟩ := (clearedBits_bit (by decide)).1 hg
      have hm : c.csr.mip.getLsbD 1 = false := hg.elim (fun hg => (h.ssip hg).2) hssip
      refine ⟨?_, hm⟩
      rw [getLsbD_and, csrNewValue_zero hw hold (by decide) hs, Bool.false_and]
      intro hc r hr
      rw [hread 1 (by decide) (by decide) r hr, (h.ssip (hkept hc hg)).1, getLsbD_and, hm]
      rfl
    · have hmask : implementedSipMask.getLsbD 5 = false := by decide
      rw [getLsbD_and, hmask, Bool.and_false]
    · obtain ⟨hg, hs⟩ := (clearedBits_bit (by decide)).1 hg
      refine ⟨?_, hg.elim (fun hg => (h.seip hg).2) hseip⟩
      rw [getLsbD_and, csrNewValue_zero hw hold (by decide) hs, Bool.false_and]
      intro hc r hr
      have hg' := hkept hc hg
      rw [hread 9 (by decide) (by decide) r hr, (h.seip hg').1, hlatch hw hg' hs hc]
      rfl

end Access

theorem off_congr {g : Cleared} {c c' : Cpu}
    (h : c'.csr.sie = c.csr.sie ∧ c'.csr.sip = c.csr.sip ∧ c'.csr.mie = c.csr.mie ∧
    c'.csr.mip = c.csr.mip) : Off g c' ↔ Off g c := by
  obtain ⟨h1, h2, h3, h4⟩ := h
  constructor
  · intro ho
    exact { enable := h1 ▸ h3 ▸ ho.enable, ssip := h2 ▸ h4 ▸ ho.ssip, stip := h2 ▸ ho.stip, seip := h2 ▸ h4 ▸ ho.seip }
  · intro ho
    exact { enable := h1.symm ▸ h3.symm ▸ ho.enable, ssip := h2.symm ▸ h4.symm ▸ ho.ssip, stip := h2.symm ▸ ho.stip
            seip := h2.symm ▸ h4.symm ▸ ho.seip }

theorem writeCSR_others {c : Cpu} {a : BitVec 12} (v : BitVec 64)
    (ha : a ≠ 0x104#12 ∧ a ≠ 0x304#12 ∧ a ≠ 0x144#12 ∧ a ≠ 0x344#12) :
    (c.writeCSR a v).2.csr.sie = c.csr.sie ∧ (c.writeCSR a v).2.csr.sip = c.csr.sip ∧
      (c.writeCSR a v).2.csr.mie = c.csr.mie ∧ (c.writeCSR a v).2.csr.mip = c.csr.mip := by
  unfold Cpu.writeCSR
  split
  case h_5 => exact absurd rfl ha.1
  case h_12 => exact absurd rfl ha.2.2.1
  case h_18 => exact absurd rfl ha.2.1
  case h_27 => exact absurd rfl ha.2.2.2
  case h_14 => split_ifs <;> exact ⟨rfl, rfl, rfl, rfl⟩
  all_goals exact ⟨rfl, rfl, rfl, rfl⟩

theorem off_access_iff {g : Cleared} {c : Cpu} (h : Off g c) (insn : BitVec 32) :
    Off (g.after c (.access insn)) ((ViewOp.access insn).run c) ↔ Harmless g c (.access insn) := by
  have hreg : ∀ (g : Cleared) (s : Cpu) v, Off g (s.setReg (rdOf insn) v) ↔ Off g s := fun g s v =>
    off_congr ⟨rfl, rfl, rfl, rfl⟩
  rcases execCsr_cases insn c with ⟨e, he⟩ | ⟨hw, v, hv⟩ | ⟨hw, old, hv, hold⟩
  · simp only [Cleared.after, ViewOp.run, Harmless, he, Except.isOk, Except.toBool, Bool.false_eq_true, if_false]
    exact iff_of_true h fun hf => nomatch hf
  · -- a read sets and clears nothing
    have hs : csrSets c insn = 0#64 := by simp [csrSets, hw]
    have hc : csrClears c insn = 0#64 := by simp [csrClears, hw]
    have hg : ∀ x : BitVec 64, clearedBits x c.csr.mideleg 0#64 0#64 = x ∧ andNot x 0#64 = x := by
      intro x
      have hx : andNot x 0#64 = x := by rw [andNot, not_zero, and_allOnes]
      rw [clearedBits, zero_and, or_zero]
      exact ⟨hx, hx⟩
    simp only [Cleared.after, ViewOp.run, Harmless, hv, Except.isOk, Except.toBool, if_true, hs, hc, (hg _).1, (hg _).2]
    refine iff_of_true ?_ fun _ => ⟨fun _ b _ hb => ?_, fun _ => ⟨fun hb => ?_, fun hb => ?_, fun hb => ?_⟩⟩
    · have hoff := (hreg g c v).2 h
      split_ifs <;> exact hoff
    · simp at hb
    · simp at hb
    · simp at hb
    · rw [hw] at hb
      cases hb
  · have hrun : (ViewOp.access insn).run c = (c.writeCSR (imm12Of insn) (csrNewValue c insn old)).2.setReg
        (rdOf insn) old := by
      rw [ViewOp.run, hv]
    have hok : (execCsr insn c).1.isOk = true := by
      rw [hv]
      rfl
    rw [hrun, hreg]
    simp only [Cleared.after, Harmless, hok, if_true, true_implies]
    by_cases h104 : imm12Of insn = 0x104
    · have hstate : (c.writeCSR (imm12Of insn) (csrNewValue c insn old)).2 =
          { c with csr.sie := csrNewValue c insn old &&& implementedSieMask } := by rw [h104]; rfl
      rw [hstate, if_pos h104, off_sie_iff h hw hold h104]
      exact ⟨fun hb => ⟨fun _ => hb, fun ha => absurd (h104.symm.trans ha) (by decide)⟩, fun hb => hb.1 h104⟩
    by_cases h304 : imm12Of insn = 0x304
    · have hstate : (c.writeCSR (imm12Of insn) (csrNewValue c insn old)).2 =
          { c with csr.mie := csrNewValue c insn old &&& implementedMieMask } := by rw [h304]; rfl
      rw [hstate, if_neg h104, if_pos h304]
      exact iff_of_true (off_mie h hw hold h304)
        ⟨fun ha => absurd ha h104, fun ha => absurd (h304.symm.trans ha) (by decide)⟩
    by_cases h144 : imm12Of insn = 0x144
    · have hstate : (c.writeCSR (imm12Of insn) (csrNewValue c insn old)).2 =
          { c with csr.sip := csrNewValue c insn old &&& implementedSipMask } := by rw [h144]; rfl
      rw [hstate, if_neg h104, if_neg h304, if_pos h144, off_sip_iff h hw hold h144]
      exact ⟨fun hb => ⟨fun ha => absurd ha h104, fun _ => hb⟩, fun hb => hb.2 h144⟩
    by_cases h344 : imm12Of insn = 0x344
    · have hstate : (c.writeCSR (imm12Of insn) (csrNewValue c insn old)).2 =
          { c with csr.mip := csrNewValue c insn old &&& implementedMipMask } := by rw [h344]; rfl
      rw [hstate, if_neg h104, if_neg h304, if_neg h144, if_pos h344]
      exact iff_of_true (off_mip h hw hold h344) ⟨fun ha => absurd ha h104, fun ha => absurd ha h144⟩
    rw [if_neg h104, if_neg h304, if_neg h144, if_neg h344]
    refine iff_of_true ?_ ⟨fun ha => absurd ha h104, fun ha => absurd ha h144⟩
    exact (off_congr (writeCSR_others _ ⟨h104, h304, h144, h344⟩)).2 h

theorem off_after_iff {g : Cleared} {c : Cpu} (h : Off g c) (op : ViewOp) :
    Off (g.after c op) (op.run c) ↔ Harmless g c op := by
  cases op with
  | access insn => exact off_access_iff h insn
  | poll line => exact iff_of_true (off_env h trivial) trivial
  | other d => exact iff_of_true (off_env h trivial) trivial

/-! ## Every run -/

theorem quietThroughout_iff {g : Cleared} {c : Cpu} (h : Off g c) (ops : List ViewOp) :
    QuietThroughout ops g c ↔ HarmlessThroughout ops g c := by
  induction ops generalizing g c with
  | nil => exact iff_of_true ((staysQuiet_iff_off g c).2 h) trivial
  | cons op ops ih =>
    by_cases hop : Harmless g c op
    · have hnext := (off_after_iff h op).2 hop
      exact ⟨fun hq => ⟨hop, (ih hnext).1 hq.2⟩, fun hh => ⟨(staysQuiet_iff_off g c).2 h, (ih hnext).2 hh.2⟩⟩
    · have hnot : ¬ StaysQuiet (g.after c op) (op.run c) := fun hq =>
        hop ((off_after_iff h op).1 ((staysQuiet_iff_off _ _).1 hq))
      refine ⟨fun hq => absurd ?_ hnot, fun hh => absurd hh.1 hop⟩
      cases ops with
      | nil => exact hq.2
      | cons op' ops' => exact hq.2.1

/-- software has cleared nothing yet -/
def noneCleared (line : Bool) : Cleared := { enable := 0, pending := 0, line := line }

/-- the hart after reset, with the supervisor's interrupts delegated and `x5` holding the bit of
the external line -/
def delegatingCpu : Cpu :=
  let c := bootCpu fun _ => 0
  { c with csr.mideleg := implementedMideleg, x := fun r => if r = 5 then mipSEIP else 0 }

def SameViews (c c' : Cpu) : Prop :=
  c'.csr.sie = c.csr.sie ∧ c'.csr.sip = c.csr.sip ∧ c'.csr.mie = c.csr.mie ∧ c'.csr.mip = c.csr.mip

namespace SameViews

theorem other {c c' : Cpu} (h : SameViews c c') : (ViewOp.other c').run c = c' := by
  obtain ⟨h1, h2, h3, h4⟩ := h
  rw [ViewOp.run, ← h1, ← h2, ← h3, ← h4]

theorem setupOnly (c₀ : Cpu) : SetupOnly (SameViews c₀) where
  mem _ _ h _ := h
  tlb _ _ h _ := h
  congr hs h := by
    have hcsr := congrArg (·.2.2.1) hs
    exact ⟨(congrArg CsrFile.sie hcsr).trans h.1, (congrArg CsrFile.sip hcsr).trans h.2.1,
      (congrArg CsrFile.mie hcsr).trans h.2.2.1, (congrArg CsrFile.mip hcsr).trans h.2.2.2⟩

end SameViews

instance (insn : BitVec 32) : Decidable (IsCsr insn) := inferInstanceAs (Decidable (_ ∧ _))

/-- `serviceBiosMachineTimer` before it looks at the external line -/
def Cpu.tickBiosMachineTimer (c : Cpu) : Cpu :=
  if c.mem.mmio.isSome then
    let c := c.setMem (c.mem.advanceMachineTimer biosTimerTicksPerInstruction)
    if !c.csr.stip ∧ c.csr.stimecmp ≠ allOnes 64 then c.refreshSupervisorTimerPending else c
  else c

theorem tickBiosMachineTimer_same : SameViews c c.tickBiosMachineTimer := by
  unfold Cpu.tickBiosMachineTimer
  dsimp only
  split_ifs <;> exact ⟨rfl, rfl, rfl, rfl⟩

/-- an operation, seen from the registers: a step executes the CSR instruction it has fetched, an interrupt is taken
after a look at the line -/
def MachineOp.views (fp : HostFP) (op : MachineOp) (c : Cpu) : List ViewOp :=
  match op with
  | .step =>
    match fetchInsn (c.setWfi false) with
    | (.ok (.word insn), c') =>
      if IsCsr insn then [.other c', .access insn, .other (op.run fp c)] else [.other (op.run fp c)]
    | _ => [.other (op.run fp c)]
  | .trapMachineError _ => [.other (op.run fp c)]
  | .takePendingBiosInterrupt =>
    let c' := c.tickBiosMachineTimer
    let line := c'.mem.supervisorExternalInterruptPending
    [.other (c'.setMem line.2), .poll line.1, .other (op.run fp c)]

theorem takePendingBiosInterrupt_same : SameViews c.serviceBiosMachineTimer c.takePendingBiosInterrupt.2 := by
  have h : SameViews c.serviceBiosMachineTimer c.serviceBiosMachineTimer := ⟨rfl, rfl, rfl, rfl⟩
  unfold Cpu.takePendingBiosInterrupt
  dsimp only
  split
  · exact (SameViews.setupOnly _).congr (trapToMachineAt_setup _ _ _ _) h
  · split
    · exact h
    · exact h

theorem trapMachineError_same (err : StepError) : SameViews c (c.trapMachineError err).2 :=
  (SameViews.setupOnly c).congr (trapMachineError_setup c err) ⟨rfl, rfl, rfl, rfl⟩

variable (fp : HostFP)

theorem step_same {c : Cpu}
    (hi : ∀ insn c', fetchInsn (c.setWfi false) = (.ok (.word insn), c') → ¬ IsCsr insn) :
    SameViews c (RiscvEmu.step fp c).2 := by
  have h : SameViews c c := ⟨rfl, rfl, rfl, rfl⟩
  have hclosed : StepClosed (SameViews c) fun _ => True :=
    (SameViews.setupOnly c).stepClosed trivial (fun _ => trivial) fun _ _ _ _ _ => ⟨trivial, trivial⟩
  refine (step_obeys hclosed fp h fun i c' hf => ?_).1
  have hc' := keeps_fetchInsn (SameViews.setupOnly c).fetch (c.setWfi false) h
  rw [hf] at hc'
  cases i with
  | half insn => exact fun _ _ => trivial
  | word insn =>
    exact { csr := fun hcsr => absurd hcsr (hi insn c' hf), mret := fun _ _ => hc', sret := fun _ _ => hc'
            ebreak := fun _ _ => trivial }

theorem execInsn_csr {insn : BitVec 32} (h : IsCsr insn) (c : Cpu) :
    execInsn fp insn c = fallThrough 4 (execCsr insn) c := by
  obtain ⟨ho, hf⟩ := h
  have hne : ∀ w : BitVec 32, funct3Of w = 0 → insn ≠ w := by
    rintro w hw rfl
    rw [hw] at hf
    exact absurd hf.1 (by decide)
  have hvma : ¬ (funct3Of insn = 0 ∧ funct7Of insn = 0x09) := by
    rintro ⟨h0, -⟩
    rw [h0] at hf
    exact absurd hf.1 (by decide)
  have hsys : execInsn fp insn = execSystem insn := by
    unfold execInsn
    rw [ho]
    rfl
  rw [hsys, execSystem, gets_bind_run]
  dsimp only [id]
  rw [if_neg (hne _ (by decide)), if_neg (hne _ (by decide)), if_neg (hne _ (by decide)), if_neg (hne _ (by decide)),
    if_neg (hne _ (by decide)), if_neg hvma, if_pos hf]

theorem step_access {c c' : Cpu} {insn : BitVec 32}
    (hf : fetchInsn (c.setWfi false) = (.ok (.word insn), c')) (hcsr : IsCsr insn) :
    SameViews (execCsr insn c').2 (RiscvEmu.step fp c).2 := by
  have hblind : MemBlind fun c => c.wfi = false := ⟨fun _ _ hc => hc, fun _ _ hc _ => hc⟩
  have hwfi := keeps_fetchInsn hblind.fetch (c.setWfi false) rfl
  rw [hf] at hwfi
  have hsame : c'.setWfi false = c' := by rw [Cpu.setWfi, ← hwfi]
  have hrun : execFetched fp (.word insn) c' = fallThrough 4 (execCsr insn) c' := by
    rw [execFetched, stepFromInsn, modify_bind_run, hsame, execInsn_csr fp hcsr]
  rw [step_run, bind_of_ok (lift_of_ok hf), hrun, fallThrough, gets_bind_run, bind_run]
  rcases execCsr insn c' with ⟨_ | _, c''⟩
  · exact ⟨rfl, rfl, rfl, rfl⟩
  · exact ⟨rfl, rfl, rfl, rfl⟩

/-- an operation of the machine is its CSR instruction, its look at the line and changes elsewhere -/
theorem machineOp_views (op : MachineOp) (g : Cleared) (c : Cpu) :
    (runViews (op.views fp c) (g, c)).2 = op.run fp c := by
  cases op with
  | step =>
    unfold MachineOp.views
    dsimp only
    split
    · rename_i insn c' hf
      split_ifs with hcsr
      · have hc' := keeps_fetchInsn (SameViews.setupOnly c).fetch (c.setWfi false) ⟨rfl, rfl, rfl, rfl⟩
        rw [hf] at hc'
        simp only [runViews, hc'.other]
        exact (step_access fp hf hcsr).other
      · refine (step_same fp fun insn' c'' hf' => ?_).other
        rw [hf] at hf'
        cases hf'
        exact hcsr
    · rename_i hnot
      exact (step_same fp fun insn c' hf => absurd hf (hnot insn c')).other
  | takePendingBiosInterrupt =>
    simp only [MachineOp.views, runViews]
    have htick : SameViews c (Cpu.setMem c.tickBiosMachineTimer.mem.supervisorExternalInterruptPending.2
      c.tickBiosMachineTimer) := tickBiosMachineTimer_same c
    rw [htick.other]
    exact (takePendingBiosInterrupt_same c).other
  | trapMachineError err => exact (trapMachineError_same c err).other

theorem runViews_append (l l' : List ViewOp) (s : Cleared × Cpu) :
    runViews (l ++ l') s = runViews l' (runViews l s) := by
  induction l generalizing s with
  | nil => rfl
  | cons op l ih => exact ih _

/-- what a run of the machine does to the registers -/
def machineViews : List MachineOp → Cpu → List ViewOp
  | [], _ => []
  | op :: ops, c => op.views fp c ++ machineViews ops (op.run fp c)

/-- **A run of the machine, seen from the registers.**  They change in its CSR instructions and looks at the line
alone. -/
theorem machineRun_views (ops : List MachineOp) (g : Cleared) (c : Cpu) :
    (runViews (machineViews fp ops c) (g, c)).2 = ops.foldl (fun c op => op.run fp c) c := by
  induction ops generalizing g c with
  | nil => rfl
  | cons op ops ih =>
    rw [machineViews, runViews_append]
    have hop := machineOp_views fp op g c
    generalize runViews (op.views fp c) (g, c) = s at hop
    obtain ⟨g', c'⟩ := s
    subst hop
    exact ih g' _

end RiscvEmu
