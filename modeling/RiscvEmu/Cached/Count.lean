/-
How the dispatch loop counts the instructions it begins.

Every turn of the inner loop starts one instruction. An arm whose access or encoding is refused leaves the inner loop
before the bookkeeping (`Locals.skips`): it is neither counted in `riscvInstrBegun` nor charged to the attempt budget.

• `counts_starts_iff`: the counter is exact and the budget holds just in the calls in which no turn skips.
• `retriedLoad_uncounted`: a load that faults and is retried by its handler is never charged.
-/
import RiscvEmu.Cached.Turn

namespace RiscvEmu

open Exec

/-! ## What is counted -/

/-- the count of instructions begun, with what the loop still keeps in its locals -/
def Phase.begun : Phase → BitVec 64
  | .inner s => s.cpu.riscvInstrBegun + s.instrBegun
  | .deliver _ s => s.cpu.riscvInstrBegun
  | .returned _ s => s.cpu.riscvInstrBegun

def Phase.attempts : Phase → BitVec 64
  | .inner s | .deliver _ s | .returned _ s => s.attemptsUsed

/-- one instruction is started by every turn of the inner loop -/
def Phase.starts : Phase → Nat
  | .inner _ => 1
  | _ => 0

/-- what the handlers add to the counter of their own -/
def Phase.handlersAdd (nc : NoteChain) : Phase → BitVec 64
  | .deliver err s => (deliverNote nc s.cpu err).2.riscvInstrBegun - s.cpu.riscvInstrBegun
  | _ => 0

/-- the instructions started in the first `n` steps of a run -/
def started (run : Nat → Phase) : Nat → Nat
  | 0 => 0
  | n + 1 => started run n + (run n).starts

def handlersAdded (nc : NoteChain) (run : Nat → Phase) : Nat → BitVec 64
  | 0 => 0
  | n + 1 => handlersAdded nc run n + (run n).handlersAdd nc

/-- after `n` steps the counter is ahead by the instructions started, and no more of them than the
attempt budget allows -/
structure CountsStarts (nc : NoteChain) (attemptBudget : BitVec 64) (c : Cpu) (run : Nat → Phase) (n : Nat) : Prop where
  begun : (run n).begun = c.riscvInstrBegun + BitVec.ofNat 64 (started run n) + handlersAdded nc run n
  bounded : attemptBudget ≠ 0 → started run n ≤ attemptBudget.toNat

section Turns

variable (fp : HostFP) (nc : NoteChain) (b : Budgets) (s : Locals)

theorem outer_begun : (s.outer b).begun = s.cpu.riscvInstrBegun := by
  unfold Locals.outer
  split
  · rfl
  · exact BitVec.add_zero _

theorem pollTohost_begun (c : Cpu) : c.pollTohost.2.riscvInstrBegun = c.riscvInstrBegun := by
  unfold Cpu.pollTohost
  dsimp only
  split_ifs
  · rfl
  · split <;> rfl

variable (err : Option StepError)

theorem afterInner_begun :
    (s.afterInner b err).begun = s.cpu.riscvInstrBegun + s.instrBegun := by
  have hp := pollTohost_begun { s.cpu.addCounts s.instrBegun s.instrRetired with pc := s.pc }
  unfold Locals.afterInner
  dsimp only
  split
  · exact hp
  · exact (outer_begun b _).trans hp
  · exact hp

theorem outer_attempts : (s.outer b).attempts = s.attemptsUsed := by
  unfold Locals.outer
  split <;> rfl

theorem afterInner_attempts : (s.afterInner b err).attempts = s.attemptsUsed := by
  unfold Locals.afterInner
  dsimp only
  split
  · rfl
  · exact outer_attempts b _
  · rfl

theorem goOn_counts :
    (if s.countdown = 0 then s.afterInner b none else .inner s.advance).begun = s.cpu.riscvInstrBegun + s.instrBegun ∧
      (if s.countdown = 0 then s.afterInner b none else .inner s.advance).attempts = s.attemptsUsed := by
  split_ifs
  · exact ⟨afterInner_begun b s none, afterInner_attempts b s none⟩
  · exact ⟨rfl, rfl⟩

theorem innerTurn_counts :
    (s.skips → (innerTurn fp b s).begun = Phase.begun (.inner s) ∧ (innerTurn fp b s).attempts = s.attemptsUsed) ∧
    (¬ s.skips → (innerTurn fp b s).begun = Phase.begun (.inner s) + 1 ∧
      (innerTurn fp b s).attempts = if b.attemptBudget ≠ 0 then s.attemptsUsed + 1 else s.attemptsUsed) := by
  have hsame := SameCounts.prepare s
  have hbreak := armOf_break_iff fp s s.prepare.pc (c := s.prepare.cpu) (hsame.field Cpu.x fun _ _ _ => rfl) hsame.mem
  have hun := armOf_untouched fp s s.prepare.pc s.prepare.cpu
  unfold innerTurn
  rw [dispatch_eq, Locals.run]
  rcases hr : s.armOf fp s.prepare.pc s.prepare.cpu with ⟨e, c'⟩
  rw [hr] at hbreak hun
  have hbegun : c'.riscvInstrBegun + s.prepare.instrBegun = Phase.begun (.inner s) := by
    rw [hun.begun]
    exact hsame.begun
  have hone : c'.riscvInstrBegun + (s.prepare.instrBegun + 1) = Phase.begun (.inner s) + 1 := by
    rw [← BitVec.add_assoc, hbegun]
  have hatt : (if b.attemptBudget ≠ 0 then s.prepare.attemptsUsed + 1 else s.prepare.attemptsUsed) =
      if b.attemptBudget ≠ 0 then s.attemptsUsed + 1 else s.attemptsUsed := by rw [hsame.attemptsUsed]
  cases e with
  | breakInner err =>
    refine ⟨fun _ => ⟨?_, ?_⟩, fun hs => absurd (hbreak.1 ⟨err, rfl⟩) hs⟩
    · exact (afterInner_begun b _ _).trans hbegun
    · exact (afterInner_attempts b _ _).trans hsame.attemptsUsed
  | fail pc err =>
    refine ⟨fun hs => ?_, fun _ => ⟨?_, ?_⟩⟩
    · obtain ⟨e', he⟩ := hbreak.2 hs
      cases he
    · exact (afterInner_begun b _ _).trans hone
    · exact (afterInner_attempts b _ _).trans hatt
  | next pc retired =>
    refine ⟨fun hs => ?_, fun _ => ?_⟩
    · obtain ⟨e', he⟩ := hbreak.2 hs
      cases he
    · obtain ⟨hb, ha⟩ := goOn_counts b (Locals.count { s.prepare with cpu := c' } b pc retired)
      exact ⟨hb.trans hone, ha.trans hatt⟩

variable (err : StepError)

theorem deliverTurn_counts (s : Locals) :
    (deliverTurn nc b err s).begun = s.cpu.riscvInstrBegun + Phase.handlersAdd nc (.deliver err s) ∧
      (deliverTurn nc b err s).attempts = s.attemptsUsed := by
  have hadd : (deliverNote nc s.cpu err).2.riscvInstrBegun =
      s.cpu.riscvInstrBegun + Phase.handlersAdd nc (.deliver err s) := by
    rw [Phase.handlersAdd, BitVec.add_comm, BitVec.sub_add_cancel]
  unfold deliverTurn
  rw [← hadd]
  rcases deliverNote nc s.cpu err with ⟨_ | ⟨res, e⟩, c⟩
  · exact ⟨outer_begun b _, outer_attempts b _⟩
  · exact ⟨rfl, rfl⟩

/-! ## The attempt budget -/

/-- what is charged is within the attempt budget, in the inner loop with the rest of the batch -/
def Phase.Within : Phase → Prop
  | .inner s => 0 < s.countdown ∧
      (b.attemptBudget ≠ 0 → s.attemptsUsed.toNat + s.countdown ≤ b.attemptBudget.toNat)
  | .deliver _ s | .returned _ s => b.attemptBudget ≠ 0 → s.attemptsUsed.toNat ≤ b.attemptBudget.toNat

theorem Phase.Within.attempts_le {b : Budgets} {p : Phase} (h : p.Within b) (h0 : b.attemptBudget ≠ 0) :
    p.attempts.toNat ≤ b.attemptBudget.toNat := by
  cases p with
  | inner s => exact (Nat.le_add_right _ _).trans (h.2 h0)
  | deliver err s => exact h h0
  | returned res s => exact h h0

theorem charge_toNat {used budget : BitVec 64} {left : Nat} (hleft : 0 < left)
    (h : used.toNat + left ≤ budget.toNat) : (used + 1).toNat = used.toNat + 1 := by
  have hlt := budget.isLt
  bv_omega

theorem batch_room (h : s.spent b = none) :
    0 < s.batch b ∧ (b.attemptBudget ≠ 0 → s.attemptsUsed.toNat + s.batch b ≤ b.attemptBudget.toNat) := by
  unfold Locals.spent at h
  split_ifs at h with hr ha
  have hretired : b.retiredBudget ≠ 0 → s.retiredUsed.toNat < b.retiredBudget.toNat := fun h0 => by
    have hlt := not_and.1 hr h0
    bv_omega
  have hattempt : b.attemptBudget ≠ 0 → s.attemptsUsed.toNat < b.attemptBudget.toNat := fun h0 => by
    have hlt := not_and.1 ha h0
    bv_omega
  unfold Locals.batch pollBatch
  dsimp only
  constructor
  · split_ifs with hr0 ha0 ha0
    · have := hretired hr0
      have := hattempt ha0
      bv_omega
    · have := hretired hr0
      bv_omega
    · have := hattempt ha0
      bv_omega
    · omega
  · intro h0
    have := hattempt h0
    rw [if_pos h0]
    split_ifs with hr0
    · bv_omega
    · bv_omega

theorem outer_within (h : b.attemptBudget ≠ 0 → s.attemptsUsed.toNat ≤ b.attemptBudget.toNat) :
    (s.outer b).Within b := by
  unfold Locals.outer
  split
  · exact h
  · exact batch_room b s ‹_›

theorem afterInner_within (err : Option StepError)
    (h : b.attemptBudget ≠ 0 → s.attemptsUsed.toNat ≤ b.attemptBudget.toNat) : (s.afterInner b err).Within b := by
  unfold Locals.afterInner
  dsimp only
  split
  · exact h
  · exact outer_within b _ h
  · exact h

theorem innerTurn_within (h : (Phase.inner s).Within b) : (innerTurn fp b s).Within b := by
  have hsame := SameCounts.prepare s
  obtain ⟨hpos, hroom⟩ := h
  rw [← hsame.countdown] at hpos hroom
  rw [← hsame.attemptsUsed] at hroom
  have hcharged : b.attemptBudget ≠ 0 →
      (if b.attemptBudget ≠ 0 then s.prepare.attemptsUsed + 1 else s.prepare.attemptsUsed).toNat =
        s.prepare.attemptsUsed.toNat + 1 := fun h0 => by
    rw [if_pos h0]
    exact charge_toNat hpos (hroom h0)
  have hwithin : b.attemptBudget ≠ 0 →
      (if b.attemptBudget ≠ 0 then s.prepare.attemptsUsed + 1 else s.prepare.attemptsUsed).toNat ≤
        b.attemptBudget.toNat := fun h0 => by
    rw [hcharged h0]
    have := hroom h0
    omega
  unfold innerTurn
  rw [dispatch_eq, Locals.run]
  cases (s.armOf fp s.prepare.pc s.prepare.cpu).1 with
  | breakInner err =>
    refine afterInner_within b _ _ fun h0 => ?_
    have := hroom h0
    change s.prepare.attemptsUsed.toNat ≤ _
    omega
  | fail pc err => exact afterInner_within b _ _ hwithin
  | next pc retired =>
    dsimp only
    split
    · exact afterInner_within b _ _ hwithin
    · rename_i hmore
      change ¬ s.prepare.countdown - 1 = 0 at hmore
      refine ⟨?_, fun h0 => ?_⟩
      · change 0 < s.prepare.countdown - 1
        omega
      · change (if b.attemptBudget ≠ 0 then _ else _ : BitVec 64).toNat + (s.prepare.countdown - 1) ≤ _
        rw [hcharged h0]
        have := hroom h0
        omega

theorem deliverTurn_goes_on (s : Locals) :
    (∃ t, deliverTurn nc b err s = .inner t) ∨ ∃ res t, deliverTurn nc b err s = .returned res t := by
  unfold deliverTurn
  split
  · unfold Locals.outer
    split
    · exact .inr ⟨_, _, rfl⟩
    · exact .inl ⟨_, rfl⟩
  · exact .inr ⟨_, _, rfl⟩

theorem turn_within (p : Phase) (h : p.Within b) : (turn fp nc b p).Within b := by
  cases p with
  | inner s => exact innerTurn_within fp b s h
  | returned res s => exact h
  | deliver err s =>
    change (deliverTurn nc b err s).Within b
    unfold deliverTurn
    split
    · exact outer_within b _ h
    · exact h

end Turns

/-! ## Calls -/

section Calls

variable (fp : HostFP) (nc : NoteChain) (cache : DecoderCache) (attemptBudget retiredBudget : BitVec 64) (c : Cpu)

theorem runCached_within (n : Nat) :
    (runCachedDualBudget fp nc cache attemptBudget retiredBudget c n).Within
      (budgetsOf attemptBudget retiredBudget c) := by
  induction n with
  | zero => exact outer_within _ _ fun _ => Nat.zero_le _
  | succ n ih =>
    rw [runCached_succ]
    exact turn_within fp nc _ _ ih

theorem turn_counts (b : Budgets) (p : Phase) (hw : p.Within b) (hs : ∀ s, p = .inner s → ¬ s.skips) :
    (turn fp nc b p).begun = p.begun + BitVec.ofNat 64 p.starts + p.handlersAdd nc ∧
      (b.attemptBudget ≠ 0 → (turn fp nc b p).attempts.toNat = p.attempts.toNat + p.starts) := by
  cases p with
  | inner s =>
    obtain ⟨hb, ha⟩ := (innerTurn_counts fp b s).2 (hs s rfl)
    refine ⟨hb.trans (BitVec.add_zero _).symm, fun h0 => ?_⟩
    rw [if_pos h0] at ha
    exact (congrArg BitVec.toNat ha).trans (charge_toNat hw.1 (hw.2 h0))
  | deliver err s =>
    obtain ⟨hb, ha⟩ := deliverTurn_counts nc b err s
    refine ⟨hb.trans ?_, fun _ => congrArg BitVec.toNat ha⟩
    exact congrArg (· + _) (BitVec.add_zero _).symm
  | returned res s => exact ⟨by simp [turn, Phase.starts, Phase.handlersAdd], fun _ => rfl⟩

theorem counts_of_no_skip
    (hs : ∀ n s, runCachedDualBudget fp nc cache attemptBudget retiredBudget c n = .inner s → ¬ s.skips) (n : Nat) :
    CountsStarts nc attemptBudget c (runCachedDualBudget fp nc cache attemptBudget retiredBudget c) n := by
  have hwithin := runCached_within fp nc cache attemptBudget retiredBudget c
  have hsucc := runCached_succ fp nc cache attemptBudget retiredBudget c
  have hstart : runCachedDualBudget fp nc cache attemptBudget retiredBudget c 0 =
    startCached cache (budgetsOf attemptBudget retiredBudget c) c := rfl
  generalize runCachedDualBudget fp nc cache attemptBudget retiredBudget c = run at hs hwithin hsucc hstart ⊢
  suffices h : (run n).begun = c.riscvInstrBegun + BitVec.ofNat 64 (started run n) + handlersAdded nc run n ∧
      (attemptBudget ≠ 0 → (run n).attempts.toNat = started run n) from
    ⟨h.1, fun h0 => h.2 h0 ▸ (hwithin n).attempts_le h0⟩
  induction n with
  | zero =>
    rw [hstart]
    refine ⟨?_, fun _ => ?_⟩
    · exact (outer_begun _ _).trans (by simp [started, handlersAdded])
    · exact congrArg BitVec.toNat (outer_attempts _ _)
  | succ n ih =>
    obtain ⟨hb, ha⟩ := turn_counts fp nc _ (run n) (hwithin n) (hs n)
    rw [← hsucc] at hb ha
    refine ⟨?_, fun h0 => ?_⟩
    · rw [hb, ih.1, started, handlersAdded, BitVec.ofNat_add]
      ac_rfl
    · rw [ha h0, ih.2 h0, started]

theorem no_skip_of_counts
    (h : ∀ n, CountsStarts nc attemptBudget c (runCachedDualBudget fp nc cache attemptBudget retiredBudget c) n)
    (n : Nat) (s : Locals) (hn : runCachedDualBudget fp nc cache attemptBudget retiredBudget c n = .inner s) :
    ¬ s.skips := by
  intro hskip
  have hbefore := (h n).begun
  have hafter := (h (n + 1)).begun
  have hstays := ((innerTurn_counts fp (budgetsOf attemptBudget retiredBudget c) s).1 hskip).1
  rw [runCached_succ, started, handlersAdded, hn] at hafter
  rw [hn, ← hstays] at hbefore
  have hsame := hbefore.symm.trans hafter
  simp only [Phase.starts, Phase.handlersAdd, BitVec.ofNat_add] at hsame
  bv_omega

theorem started_or_returned (n : Nat) :
    started (runCachedDualBudget fp nc cache attemptBudget retiredBudget c) n + 1 ≤
        started (runCachedDualBudget fp nc cache attemptBudget retiredBudget c) (n + 2) ∨
      ∃ k res s, runCachedDualBudget fp nc cache attemptBudget retiredBudget c k = .returned res s := by
  cases hn : runCachedDualBudget fp nc cache attemptBudget retiredBudget c n with
  | inner s =>
    left
    rw [started, started, hn, Phase.starts]
    omega
  | returned res s => exact .inr ⟨n, res, s, hn⟩
  | deliver err s =>
    have hnext := runCached_succ fp nc cache attemptBudget retiredBudget c n
    rw [hn] at hnext
    rcases deliverTurn_goes_on nc (budgetsOf attemptBudget retiredBudget c) err s with ⟨t, ht⟩ | ⟨res, t, ht⟩
    · left
      rw [started, started, hnext.trans ht, Phase.starts]
      omega
    · exact .inr ⟨n + 1, res, t, hnext.trans ht⟩

theorem returns_of_bounded {bound : Nat}
    (h : ∀ n, started (runCachedDualBudget fp nc cache attemptBudget retiredBudget c) n ≤ bound) :
    ∃ n res s, runCachedDualBudget fp nc cache attemptBudget retiredBudget c n = .returned res s := by
  by_contra hnever
  have hgrows : ∀ k, k ≤ started (runCachedDualBudget fp nc cache attemptBudget retiredBudget c) (2 * k) := by
    intro k
    induction k with
    | zero => exact Nat.zero_le _
    | succ k ih =>
      have := (started_or_returned fp nc cache attemptBudget retiredBudget c (2 * k)).resolve_right hnever
      rw [Nat.mul_succ]
      omega
  have := hgrows (bound + 1)
  have := h (2 * (bound + 1))
  omega

/-- **Instructions begun.**  In a call of the dispatch loop the counter of instructions begun is exact
after every step, the attempt budget bounds the instructions started, and with an attempt budget the
call comes back, exactly if no turn of the call skips. -/
theorem counts_starts_iff :
    ((∀ n, CountsStarts nc attemptBudget c (runCachedDualBudget fp nc cache attemptBudget retiredBudget c) n) ∧
      (attemptBudget ≠ 0 →
        ∃ n res s, runCachedDualBudget fp nc cache attemptBudget retiredBudget c n = .returned res s)) ↔
      ∀ n s, runCachedDualBudget fp nc cache attemptBudget retiredBudget c n = .inner s → ¬ s.skips := by
  constructor
  · intro h
    exact no_skip_of_counts fp nc cache attemptBudget retiredBudget c h.1
  · intro hs
    have hcounts := counts_of_no_skip fp nc cache attemptBudget retiredBudget c hs
    refine ⟨hcounts, fun h0 => ?_⟩
    exact returns_of_bounded fp nc cache attemptBudget retiredBudget c fun n => (hcounts n).bounded h0

end Calls

/-- a handler that answers every note and leaves the hart as it is -/
def retryHandler : NoteHandler := fun c _ => (.handled, c)

/-- the call that has one attempt for `lw x5, 4(x6)` beyond the end of memory -/
def retriedLoad : Nat → Phase :=
  runCachedDualBudget default [retryHandler] (defaultCache (onePageCpu 0x00432283)) 1 0 (onePageCpu 0x00432283)

/-- two loads are started on a budget of one, none is counted, and the loop is still running -/
theorem retriedLoad_uncounted :
    ¬ CountsStarts [retryHandler] 1 (onePageCpu 0x00432283) retriedLoad 4 ∧ started retriedLoad 4 = 2 ∧
      (retriedLoad 4).begun = 0 ∧ (retriedLoad 4).starts = 1 := by
  have hstarted : started retriedLoad 4 = 2 := by decide
  refine ⟨fun h => ?_, hstarted, by decide, by decide⟩
  have := h.bounded (by decide)
  rw [hstarted] at this
  exact absurd this (by decide)

end RiscvEmu
