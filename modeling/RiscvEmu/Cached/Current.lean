/-
Code that changes under the decoder cache.

A slot is recorded once and never looked at again: `FENCE.I` ends a block and does nothing else, and nothing
invalidates a slot. What is executed is the code as it was when the slot was recorded.

• `Coherent`: every recorded slot is decoded from the bytes that memory holds at its address.
• `turn_coherent`: a step that leaves the bytes of the recorded slots as they are keeps it.
• `not_stale_of_keepsCode`: a run of such steps executes no stale slot.
• `rewritten_stale`: a guest that rewrites an instruction, executes `FENCE.I` and jumps back executes the old one.
-/
import RiscvEmu.Cached.Turn
import RiscvEmu.Lib.Bits

namespace RiscvEmu

variable {v : BitVec 32} {d : Slot}

open GuestMemory BitVec Bytes Option

open Exec

/-! ## The bytes of an instruction -/

namespace GuestMemory

variable {m m' : GuestMemory} {pc : BitVec 64}

/-- the `n` bytes of memory that a fetch at `pc` reads -/
def codeAt (m : GuestMemory) (pc : BitVec 64) (n : Nat) : BitVec 64 := m.bytes.readLe (m.hostPtr pc) n

/-- memory holds the instruction at `pc` -/
def Holds (m : GuestMemory) (pc : BitVec 64) (i : Fetched) : Prop := m.codeAt pc i.len = i.bits.setWidth 64

theorem fetch_ok {width addr v : BitVec 64} (h : fetch width addr m = (.ok v, m')) :
    m.check addr width = 0 ∧ v = m.codeAt addr width.toNat ∧ m' = m := by
  unfold fetch at h
  split at h
  · cases h
  · split_ifs at h with hc
    · cases h
    · cases h
      exact ⟨not_not.1 hc, rfl, rfl⟩

theorem fetch16_ok {v : BitVec 16} (h : fetch16 pc m = (.ok v, m')) :
    m.check pc 2 = 0 ∧ v = (m.codeAt pc 2).setWidth 16 ∧ m' = m := by
  unfold fetch16 at h
  obtain ⟨u, s, hf, h⟩ := bind_ok_iff.1 h
  cases h
  obtain ⟨hc, rfl, rfl⟩ := fetch_ok hf
  exact ⟨hc, rfl, rfl⟩

theorem fetch32_ok (h : fetch32 pc m = (.ok v, m')) : v = (m.codeAt pc 4).setWidth 32 ∧ m' = m := by
  unfold fetch32 at h
  obtain ⟨u, s, hf, h⟩ := bind_ok_iff.1 h
  cases h
  obtain ⟨-, rfl, rfl⟩ := fetch_ok hf
  exact ⟨rfl, rfl⟩

theorem halves_eq (hlo : m.check pc 2 = 0) (hhi : m.check (pc + 2) 2 = 0) :
    ((m.codeAt pc 2).setWidth 16).setWidth 32 ||| (((m.codeAt (pc + 2) 2).setWidth 16).setWidth 32 <<< 16) =
      (m.codeAt pc 4).setWidth 32 := by
  have h0 := ((check_eq_zero_iff m pc 2).1 hlo).2.1
  have h2 := ((check_eq_zero_iff m (pc + 2) 2).1 hhi).2.1
  unfold codeAt
  rw [hostPtr_of_lt h0, hostPtr_of_lt h2]
  apply eq_of_getLsbD_eq
  intro t ht
  simp only [getLsbD_or, getLsbD_shiftLeft, getLsbD_setWidth, getLsbD_readLe _ _ (show 2 ≤ 8 by decide),
    getLsbD_readLe _ _ (show 4 ≤ 8 by decide)]
  rcases Nat.lt_or_ge t 16 with hlt | hge
  · simp [hlt, ht]
  · have hdiv : pc + 2 + BitVec.ofNat 64 ((t - 16) / 8) = pc + BitVec.ofNat 64 (t / 8) := by
      rw [show t / 8 = 2 + (t - 16) / 8 by omega, ofNat_add, ← BitVec.add_assoc]
      rfl
    rw [hdiv, show (t - 16) % 8 = t % 8 by omega]
    simp [ht, show ¬ t < 16 by omega, show t - 16 < 16 by omega, show t - 16 < 32 by omega]

theorem fetch32U_ok (h : fetch32U pc m = (.ok v, m')) : v = (m.codeAt pc 4).setWidth 32 ∧ m' = m := by
  unfold fetch32U at h
  obtain ⟨lo, s, hlo, h⟩ := bind_ok_iff.1 h
  obtain ⟨hclo, rfl, rfl⟩ := fetch16_ok hlo
  obtain ⟨hi, s', hhi, h⟩ := bind_ok_iff.1 h
  cases h
  obtain ⟨hchi, rfl, rfl⟩ := fetch16_ok hhi
  exact ⟨halves_eq hclo hchi, rfl⟩

theorem codeAt_setWidth (m : GuestMemory) (pc : BitVec 64) {n w : Nat} (hn : n ≤ 8) (hw : 8 * n ≤ w) :
    ((m.codeAt pc n).setWidth w).setWidth 64 = m.codeAt pc n := by
  apply eq_of_getLsbD_eq
  intro t ht
  unfold codeAt
  rw [getLsbD_setWidth, getLsbD_setWidth, getLsbD_readLe _ _ hn]
  by_cases hlt : t < 8 * n
  · simp [hlt, ht, show t < w by omega]
  · simp [hlt]

theorem fetch32_state (m : GuestMemory) (pc : BitVec 64) : (fetch32 pc m).2 = m := by
  have hf : (fetch 4 pc m).2 = m := by
    unfold fetch
    split
    · rfl
    · split_ifs <;> rfl
  unfold fetch32
  rcases hr : fetch 4 pc m with ⟨e | u, s⟩
  · rw [bind_of_error hr]
    exact (congrArg Prod.snd hr).symm.trans hf
  · rw [bind_of_ok hr]
    exact (congrArg Prod.snd hr).symm.trans hf

theorem fetchWord_ok (h : orBytes (fetch32 pc) (fetch32U pc) m = (.ok v, m')) :
    v = (m.codeAt pc 4).setWidth 32 := by
  rcases hr : fetch32 pc m with ⟨e | u, s⟩
  · obtain rfl : s = m := (congrArg Prod.snd hr).symm.trans (fetch32_state m pc)
    simp only [orBytes, Exec.onError, hr] at h
    split_ifs at h
    · exact (fetch32U_ok h).1
    · cases h
  · simp only [orBytes, Exec.onError, hr] at h
    cases h
    exact (fetch32_ok hr).1

theorem fetchInsn_holds {i : Fetched} (h : fetchInsn pc m = (.ok i, m')) : m.Holds pc i := by
  unfold fetchInsn at h
  obtain ⟨half, s, hf, h⟩ := bind_ok_iff.1 h
  obtain ⟨-, rfl, rfl⟩ := fetch16_ok hf
  by_cases hq : ((s.codeAt pc 2).setWidth 16).extractLsb' 0 2 ≠ 3#2
  · rw [if_pos hq] at h
    obtain rfl : Fetched.half _ = i := Except.ok.inj (congrArg Prod.fst h)
    have hhalf := codeAt_setWidth s pc (n := 2) (w := 16) (by decide) (by decide)
    refine hhalf.symm.trans ?_
    simp [Fetched.bits]
  · rw [if_neg hq] at h
    obtain ⟨w, s', hw, h⟩ := bind_ok_iff.1 h
    cases h
    obtain rfl := fetchWord_ok hw
    exact (codeAt_setWidth s pc (n := 4) (w := 32) (by decide) (by decide)).symm

end GuestMemory

/-! ## Coherence -/

/-- every recorded slot of an even address is decoded from the bytes that memory holds there -/
def Coherent (m : GuestMemory) (dc : DecoderCache) : Prop :=
  ∀ q i d, q.getLsbD 0 = false → dc.lookup q = some i → dc.slots i = some d → ∃ j, d = slotOf dc q j ∧ m.Holds q j

/-- the bytes of the recorded slots are the same in both memories -/
def CodeSame (dc : DecoderCache) (m m' : GuestMemory) : Prop :=
  ∀ q i d, q.getLsbD 0 = false → dc.lookup q = some i → dc.slots i = some d →
    m'.codeAt q d.insn.len = m.codeAt q d.insn.len

section Coherence

variable {m m' : GuestMemory} {dc : DecoderCache} {pc q i : BitVec 64}

theorem Coherent.codeSame (h : Coherent m dc) (hs : CodeSame dc m m') : Coherent m' dc := by
  intro q i d hq hi hd
  obtain ⟨j, rfl, hj⟩ := h q i d hq hi hd
  have hsame := hs q i _ hq hi hd
  rw [slotOf_len] at hsame
  exact ⟨j, rfl, hsame.trans hj⟩

theorem coherent_new (m : GuestMemory) (base size : BitVec 64) : Coherent m (.newDecoderCache base size) :=
  fun _ _ _ _ _ hd => nomatch hd

theorem lookup_even (hq : q.getLsbD 0 = false) (hpc : pc.getLsbD 0 = false) (hi : dc.lookup q = some i)
    (hi' : dc.lookup pc = some i) : q = pc := by
  unfold DecoderCache.lookup at hi hi'
  dsimp only at hi hi'
  split_ifs at hi hi'
  have hshift : (q - dc.base) >>> 1 = (pc - dc.base) >>> 1 :=
    (some.inj hi).trans (some.inj hi').symm
  rw [BitField.bit0_iff] at hq hpc
  have hnat := congrArg BitVec.toNat hshift
  rw [toNat_ushiftRight, toNat_ushiftRight, Nat.shiftRight_eq_div_pow, Nat.shiftRight_eq_div_pow] at hnat
  bv_omega

theorem Coherent.setSlot (h : Coherent m dc) (hpc : pc.getLsbD 0 = false) (hi : dc.lookup pc = some i) {j : Fetched}
    (hj : m.Holds pc j) : Coherent m (dc.setSlot i (slotOf dc pc j)) := by
  intro q i' d hq hi' hd
  change dc.lookup q = some i' at hi'
  change (if i' = i then some (slotOf dc pc j) else dc.slots i') = some d at hd
  split_ifs at hd with hsame
  · subst hsame
    obtain rfl := lookup_even hq hpc hi' hi
    exact ⟨j, (some.inj hd).symm, hj⟩
  · exact h q i' d hq hi' hd

theorem populateSlot_holds (h : populateSlot m dc pc = some d) : ∃ j, d = slotOf dc pc j ∧ m.Holds pc j := by
  unfold populateSlot at h
  rcases hf : GuestMemory.fetchInsn pc m with ⟨e | j, s⟩
  · rw [hf] at h
    cases h
  · rw [hf] at h
    cases h
    exact ⟨j, rfl, fetchInsn_holds hf⟩

end Coherence

/-! ## The memory that a turn leaves -/

/-- the memory that the access of a fetched instruction leaves -/
def memAfterInsn (c : Cpu) : Fetched → GuestMemory
  | .half insn => memAfter c (accessOf16 c insn)
  | .word insn => memAfter (c.setWfi false) (accessOf32 (c.setWfi false) insn)

variable (fp : HostFP)

theorem execFetched_mem (i : Fetched) (c : Cpu) : (execFetched fp i c).2.mem = memAfterInsn c i := by
  cases i with
  | half insn => exact (stepRVC_deals insn).leaves
  | word insn => exact (execInsn_deals fp insn).leaves

/-- the memory that the access of an inline arm leaves -/
def memAfterInline (d : DecodedInsn) (c : Cpu) : GuestMemory :=
  match d.inlineAccess c with
  | some a => (a c.mem).2
  | none => c.mem

/-- the memory that the access of the turn leaves; the interpreter fetches on its own -/
def Locals.accessed (s : Locals) : GuestMemory :=
  let c := { s.prepare.cpu with pc := s.prepare.pc }
  match s.executed with
  | some d => if d.insn.op.delegated then memAfterInsn c d.insn.fetched else memAfterInline d.insn s.prepare.cpu
  | none =>
    match fetchInsn (c.setWfi false) with
    | (.ok i, c') => memAfterInsn c' i
    | (.error _, c') => c'.mem

variable (c : Cpu)

theorem inlineAccess_illegal {d : DecodedInsn} (h : d.inlineIllegal = true) : d.inlineAccess c = none := by
  obtain ⟨len, op, rd, rs1, rs2, funct3, funct7, imm, insn⟩ := d
  cases op
  case cLWSP | cLDSP => exact if_pos (of_decide_eq_true h)
  all_goals first | rfl | cases h

variable (pc : BitVec 64)

theorem armEbreak_mem (c : Cpu) : (armEbreak pc c).2.mem = c.mem := by
  unfold armEbreak
  dsimp only
  split_ifs
  · exact trapToPrivilegedAt_mem c pc causeBreakpoint 0 2
  · exact trapToPrivilegedAt_mem c pc causeBreakpoint 0 2
  · rfl

theorem arm_inline_mem {d : DecodedInsn} (c : Cpu) (hd : d.op.delegated = false) :
    (arm fp d pc c).2.mem = memAfterInline d c := by
  have hdoes := arm_does fp d pc c hd
  unfold memAfterInline
  generalize arm fp d pc c = r at hdoes ⊢
  cases hdoes with
  | illegal hi => rw [inlineAccess_illegal c hi]
  | refused hi ha hr =>
    rw [ha]
    exact (congrArg Prod.snd hr).symm
  | accessed hi ha hr hflow x =>
    rw [ha]
    exact (congrArg Prod.snd hr).symm
  | wrote hi ha hfall hjump x => rw [ha]
  | ebreak hop =>
    have hnone : d.inlineAccess c = none := by
      unfold DecodedInsn.inlineAccess
      rw [hop]
    rw [hnone]
    exact armEbreak_mem pc c

theorem step_mem :
    (step fp c).2.mem = match fetchInsn (c.setWfi false) with
      | (.ok i, c') => memAfterInsn c' i
      | (.error _, c') => c'.mem := by
  rw [step_run]
  rcases hf : fetchInsn (c.setWfi false) with ⟨e | i, c'⟩
  · rw [bind_of_error (lift_of_error hf)]
  · rw [bind_of_ok (lift_of_ok hf), execFetched_mem]

/-- **Memory.**  The arm of a turn leaves the memory that its access leaves. -/
theorem armOf_mem (s : Locals) : (s.armOf fp s.prepare.pc s.prepare.cpu).2.mem = s.accessed := by
  unfold Locals.armOf Locals.accessed
  cases s.executed with
  | some d =>
    dsimp only
    split_ifs with hd
    · rw [arm_delegated fp hd, armDelegate_run, handOver_hart, execFetched_mem]
    · exact arm_inline_mem fp _ _ (Bool.eq_false_of_not_eq_true hd)
  | none =>
    change (armInterp fp s.prepare.pc s.prepare.cpu).2.mem = _
    rw [armInterp_run, handOver_hart]
    exact step_mem fp _

/-! ## One step -/

/-- the memory after a look at the watched word -/
def GuestMemory.polled (m : GuestMemory) (watchAddr : BitVec 64) : GuestMemory :=
  if watchAddr = 0 then m else (GuestMemory.load64 watchAddr m).2

theorem pollTohost_mem : c.pollTohost.2.mem = c.mem.polled c.watchAddr := by
  unfold Cpu.pollTohost polled
  split_ifs
  · rfl
  · dsimp only
    split <;> rfl

/-- the slot that a turn executes is not the code at `pc` -/
def Phase.Stale (p : Phase) : Prop :=
  ∃ s d, p = .inner s ∧ s.executed = some d ∧ s.cpu.mem.codeAt s.pc d.insn.len ≠ d.insn.insn.setWidth 64

/-- the step starts at an even `pc` and changes no byte of a recorded instruction, by its access, by a board that
answers the look at the watched word, or by the handlers -/
def Phase.KeepsCode (nc : NoteChain) : Phase → Prop
  | .inner s => s.pc.getLsbD 0 = false ∧ CodeSame s.prepare.cache s.cpu.mem s.accessed ∧
      CodeSame s.prepare.cache s.cpu.mem (s.accessed.polled s.cpu.watchAddr)
  | .deliver err s => CodeSame s.cache s.cpu.mem (deliverNote nc s.cpu err).2.mem
  | .returned _ _ => True

/-- the invariant of the loop: the cache is coherent, and the slot in hand is the slot of `pc` -/
def Phase.Coherent : Phase → Prop
  | .inner s => RiscvEmu.Coherent s.cpu.mem s.cache ∧ s.slot = s.cache.lookup s.pc
  | .deliver _ s | .returned _ s => RiscvEmu.Coherent s.cpu.mem s.cache

section Step

variable {s : Locals}

theorem prepare_recorded (s : Locals) : s.prepare.recorded = s.executed := by
  have hflush : ∀ t : Locals, t.flush.recorded = t.recorded := fun t => by
    unfold Locals.flush
    split_ifs <;> rfl
  have hopened : ∀ d, s.executed = some d → (s.opened d).recorded = some d := fun d hd => by
    unfold Locals.executed at hd
    unfold Locals.opened
    cases hr : s.recorded with
    | some d' =>
      rw [hr] at hd
      exact hr.trans hd
    | none =>
      rw [hr] at hd
      cases hs : s.slot with
      | none =>
        rw [hs] at hd
        cases hd
      | some i =>
        have hslot : s.flush.slot = some i := (SameCounts.flush s).slot.trans hs
        simp [Locals.recorded, hslot, DecoderCache.setSlot]
  unfold Locals.prepare
  cases he : s.executed with
  | some d =>
    dsimp only
    split_ifs
    · exact (hflush _).trans (hopened d he)
    · exact hopened d he
  | none =>
    refine (hflush s).trans ?_
    unfold Locals.executed at he
    cases hr : s.recorded with
    | some d =>
      rw [hr] at he
      cases he
    | none => rfl

theorem executed_holds (hpc : s.pc.getLsbD 0 = false) (hc : (Phase.inner s).Coherent)
    (hd : s.executed = some d) : ∃ j, d = slotOf s.cache s.pc j ∧ s.cpu.mem.Holds s.pc j := by
  obtain ⟨hcoh, hslot⟩ := hc
  unfold Locals.executed at hd
  cases hr : s.recorded with
  | some d' =>
    rw [hr] at hd
    obtain rfl : d' = d := some.inj hd
    unfold Locals.recorded at hr
    cases hs : s.slot with
    | none =>
      rw [hs] at hr
      cases hr
    | some i =>
      rw [hs] at hr
      exact hcoh s.pc i d' hpc (hslot.symm.trans hs) hr
  | none =>
    rw [hr] at hd
    cases hs : s.slot with
    | none =>
      rw [hs] at hd
      cases hd
    | some i =>
      rw [hs] at hd
      exact populateSlot_holds hd

theorem not_stale (hpc : s.pc.getLsbD 0 = false) (hc : (Phase.inner s).Coherent) : ¬ (Phase.inner s).Stale := by
  rintro ⟨t, d, ht, hd, hne⟩
  cases ht
  obtain ⟨j, rfl, hj⟩ := executed_holds hpc hc hd
  rw [slotOf_len, slotOf_insn] at hne
  exact hne hj

/-- recording the slot of the turn keeps the cache coherent, and the range of the cache is fixed -/
theorem prepare_coherent (hpc : s.pc.getLsbD 0 = false) (hc : (Phase.inner s).Coherent) :
    Coherent s.cpu.mem s.prepare.cache ∧ s.prepare.cache.lookup = s.cache.lookup := by
  have hflush : ∀ t : Locals, t.flush.cache = t.cache := fun t => by
    unfold Locals.flush
    split_ifs <;> rfl
  have hopened : ∀ d, s.executed = some d →
      Coherent s.cpu.mem (s.opened d).cache ∧ (s.opened d).cache.lookup = s.cache.lookup := fun d hd => by
    obtain ⟨j, rfl, hj⟩ := executed_holds hpc hc hd
    unfold Locals.opened
    split
    · rename_i i hr hs
      exact ⟨hc.1.setSlot hpc (hc.2.symm.trans hs) hj, rfl⟩
    · exact ⟨hc.1, rfl⟩
  unfold Locals.prepare
  cases he : s.executed with
  | some d =>
    dsimp only
    split_ifs
    · rw [hflush]
      exact hopened d he
    · exact hopened d he
  | none =>
    rw [hflush]
    exact ⟨hc.1, rfl⟩

theorem outer_coherent (b : Budgets) (h : Coherent s.cpu.mem s.cache) : (s.outer b).Coherent := by
  unfold Locals.outer
  split
  · exact h
  · exact ⟨h, rfl⟩

theorem afterInner_coherent (b : Budgets) (err : Option StepError)
    (h : Coherent (s.cpu.mem.polled s.cpu.watchAddr) s.cache) : (s.afterInner b err).Coherent := by
  have hpolled : Coherent { s.cpu.addCounts s.instrBegun s.instrRetired with pc := s.pc }.pollTohost.2.mem s.cache := by
    rw [pollTohost_mem]
    exact h
  unfold Locals.afterInner
  dsimp only
  split
  · exact hpolled
  · exact outer_coherent b hpolled
  · exact hpolled

theorem advance_slot (fp : HostFP) (hpc : s.pc.getLsbD 0 = false) (hc : (Phase.inner s).Coherent) {t : Locals}
    (hslot : t.slot = s.prepare.slot) (hcache : t.cache = s.prepare.cache) {retired : Bool} {c' : Cpu}
    (ha : s.armOf fp s.prepare.pc s.prepare.cpu = (.next t.pc retired, c')) :
    t.advance.slot = t.advance.cache.lookup t.advance.pc := by
  have hrec : t.recorded = s.executed := by
    rw [← prepare_recorded, Locals.recorded, Locals.recorded, hslot, hcache]
  have hlookup : t.cache.lookup = s.cache.lookup := hcache ▸ (prepare_coherent hpc hc).2
  rw [Locals.advance, hrec]
  cases he : s.executed with
  | none => rfl
  | some d =>
    obtain ⟨j, rfl, -⟩ := executed_holds hpc hc he
    cases hn : (slotOf s.cache s.pc j).next with
    | none =>
      rw [bind_some, hn]
    | some i =>
      have harm : s.armOf fp = arm fp (slotOf s.cache s.pc j).insn := by
        unfold Locals.armOf
        rw [he]
      rw [harm, (SameCounts.prepare s).pc] at ha
      rw [bind_some, hn, hlookup]
      exact (arm_next_pc fp s.cache ha hn).symm

end Step

/-- **Coherence.** Such a step keeps the decoder cache coherent. -/
theorem turn_coherent (nc : NoteChain) (b : Budgets) {p : Phase} (hk : p.KeepsCode nc) (hc : p.Coherent) :
    (turn fp nc b p).Coherent := by
  cases p with
  | returned res s => exact hc
  | deliver err s =>
    have hkept : Coherent (deliverNote nc s.cpu err).2.mem s.cache := Coherent.codeSame hc hk
    change (deliverTurn nc b err s).Coherent
    unfold deliverTurn
    split
    · rename_i c hd
      rw [hd] at hkept
      exact outer_coherent b hkept
    · rename_i res e c hd
      rw [hd] at hkept
      exact hkept
  | inner s =>
    obtain ⟨hpc, haccess, hpoll⟩ := hk
    obtain ⟨hprep, hlookup⟩ := prepare_coherent hpc hc
    have hmem := armOf_mem fp s
    have hwatch := (armOf_untouched fp s s.prepare.pc s.prepare.cpu).watch
    rw [(SameCounts.prepare s).field Cpu.watchAddr fun _ _ _ => rfl] at hwatch
    change (innerTurn fp b s).Coherent
    unfold innerTurn
    rw [dispatch_eq, Locals.run]
    rcases ha : s.armOf fp s.prepare.pc s.prepare.cpu with ⟨e, c'⟩
    rw [ha] at hmem hwatch
    dsimp only at hmem hwatch
    have hafter : Coherent (c'.mem.polled c'.watchAddr) s.prepare.cache := by
      rw [hmem, hwatch]
      exact hprep.codeSame hpoll
    cases e with
    | breakInner err => exact afterInner_coherent b _ hafter
    | fail pc err => exact afterInner_coherent b _ hafter
    | next pc retired =>
      dsimp only
      split_ifs
      · exact afterInner_coherent b _ hafter
      · refine ⟨hprep.codeSame (hmem ▸ haccess), ?_⟩
        exact advance_slot fp hpc hc rfl rfl ha

/-- **Current code.**  A call on a fresh cache executes no stale slot as long as every step starts at
an even `pc` and changes no byte of an instruction that is recorded. -/
theorem not_stale_of_keepsCode (fp : HostFP) (nc : NoteChain) (base size attemptBudget retiredBudget : BitVec 64)
    (c : Cpu) (n : Nat)
    (h : ∀ k ≤ n,
      (runCachedDualBudget fp nc (.newDecoderCache base size) attemptBudget retiredBudget c k).KeepsCode nc) :
    ¬ (runCachedDualBudget fp nc (.newDecoderCache base size) attemptBudget retiredBudget c n).Stale := by
  have hcoh : ∀ k ≤ n,
      (runCachedDualBudget fp nc (.newDecoderCache base size) attemptBudget retiredBudget c k).Coherent := by
    intro k
    induction k with
    | zero =>
      intro _
      exact outer_coherent _ (coherent_new c.mem base size)
    | succ k ih =>
      intro hk
      rw [runCached_succ]
      exact turn_coherent fp nc _ (h k (by omega)) (ih (by omega))
  have hn := hcoh n le_rfl
  have hkeeps := h n le_rfl
  generalize runCachedDualBudget fp nc (.newDecoderCache base size) attemptBudget retiredBudget c n = p at hn hkeeps ⊢
  cases p with
  | inner s => exact not_stale hkeeps.1 hn
  | deliver err s =>
    rintro ⟨t, d, ht, -⟩
    cases ht
  | returned res s =>
    rintro ⟨t, d, ht, -⟩
    cases ht

/-- one page of memory with a program at address 0 and the value `v` in `x6` -/
def patchCpu (program : Bytes) (v : BitVec 64) : Cpu :=
  let m := newGuestMemoryWithModel 12 .sandbox true
  { newCPU { m with bytes := program } with x := fun r => if r = 6 then v else 0 }

/-- the instruction that a turn executes from its slot -/
def Phase.executedWord : Phase → Option (BitVec 32)
  | .inner s => s.executed.map fun d => d.insn.insn
  | _ => none

/-- the word at address 512 -/
def Phase.storedWord : Phase → Option (BitVec 64)
  | .inner s => some (s.cpu.mem.codeAt 512 4)
  | _ => none

/-- `CodeSame` as a test, for a cache of the first eight bytes -/
def codeSame (dc : DecoderCache) (m m' : GuestMemory) : Bool :=
  dc.base == 0 && dc.size == 8 && [0#64, 2, 4, 6].all fun q =>
    (dc.slots (q >>> 1)).all fun d => m'.codeAt q d.insn.len == m.codeAt q d.insn.len

theorem codeSame_sound {dc : DecoderCache} {m m' : GuestMemory} (h : codeSame dc m m' = true) : CodeSame dc m m' := by
  intro q i d hq hi hd
  simp only [codeSame, Bool.and_eq_true, beq_iff_eq, List.all_eq_true] at h
  obtain ⟨⟨hbase, hsize⟩, hslots⟩ := h
  unfold DecoderCache.lookup at hi
  rw [hbase, hsize, show q - 0 = q from BitVec.sub_zero q] at hi
  dsimp only at hi
  split_ifs at hi with hrange
  obtain rfl := some.inj hi
  have hmem : q ∈ [0#64, 2, 4, 6] := by
    rw [BitField.bit0_iff] at hq
    simp only [List.mem_cons, List.not_mem_nil, or_false]
    bv_omega
  have hslot := hslots q hmem
  rw [hd] at hslot
  exact eq_of_beq hslot

/-- `KeepsCode` as a test, for a turn that executes an instruction -/
def Phase.keepsCode : Phase → Bool
  | .inner s => !s.pc.getLsbD 0 && codeSame s.prepare.cache s.cpu.mem s.accessed &&
      codeSame s.prepare.cache s.cpu.mem (s.accessed.polled s.cpu.watchAddr)
  | _ => false

theorem keepsCode_sound (nc : NoteChain) {p : Phase} (h : p.keepsCode = true) : p.KeepsCode nc := by
  cases p with
  | inner s =>
    simp only [Phase.keepsCode, Bool.and_eq_true, Bool.not_eq_true'] at h
    exact ⟨h.1.1, codeSame_sound h.1.2, codeSame_sound h.2⟩
  | deliver err s => cases h
  | returned res s => cases h

/-- `sw x6, 512(x0); jal x0, -4` with 5 in `x6` -/
def storing : Cpu := patchCpu (Bytes.writeLe (fun _ => 0) 0 8 0xFFDFF06F20602023) 5

/-- a loop that stores beside its code executes the code at `pc` when it comes round to the store … -/
theorem storeLoop_not_stale :
    let run := runCachedDualBudget default [] (.newDecoderCache 0 8) 0 0 storing
    ¬ (run 2).Stale ∧ (run 2).executedWord = some 0x20602023 ∧ (run 2).storedWord = some 5 := by
  have hkeeps : ∀ k ≤ 2, (runCachedDualBudget default [] (.newDecoderCache 0 8) 0 0 storing k).keepsCode = true := by
    decide +kernel
  exact ⟨not_stale_of_keepsCode default [] 0 8 0 0 storing 2 fun k hk => keepsCode_sound [] (hkeeps k hk),
    by decide +kernel, by decide +kernel⟩

/-- `addi x5, x5, 1; sw x6, 0(x0); fence.i; jal x0, -12` with `addi x5, x5, 2` in `x6` -/
def rewriting : Cpu :=
  patchCpu (writeLe (writeLe (fun _ => 0) 0 8 0x0060202300128293) 8 8 0xFF5FF06F0000100F) 0x00228293

/-- … but code that was rewritten before a `FENCE.I` is executed as it was, and not as `RunWithChain`
executes it -/
theorem rewritten_stale :
    let run := runCachedDualBudget default [] (defaultCache rewriting) 0 0 rewriting
    (run 4).Stale ∧ (List.range 5).map (fun n => (run n).executedWord) =
        [some 0x00128293, some 0x00602023, some 0x0000100F, some 0xFF5FF06F, some 0x00128293] ∧
      ((fun c => (chainTurn default [] c).2)^[5] rewriting).x 5 = 3 := by
  refine ⟨⟨_, _, rfl, rfl, ?_⟩, ?_, ?_⟩
  · decide
  · decide
  · decide

end RiscvEmu
