/-
What the interrupt controller offers.

Looking at a UART takes its input out of the channel, so asking for pending interrupts changes the board; the answer
depends on the input only through whether there is some (`BiosUARTPort.asks`).

• `plicPendingForContext_value`: the answer, as a function of the board before.
• `plicPendingForContext_eq_iff`: a context with no claim gets the pending, enabled source of the highest priority
  above its threshold, the lowest-numbered one among equals (`Offered`).
-/
import RiscvEmu.Board.Mmio

namespace RiscvEmu

open List

namespace BiosUARTPort

variable {u u' : BiosUARTPort}

/-- a byte of input has arrived and has not been read -/
def waiting (u : BiosUARTPort) : Bool :=
  !u.rx.isEmpty || match u.rxCh with
    | none => false
    | some ch => !ch.queue.isEmpty

/-- the port asks for an interrupt -/
def asks (u : BiosUARTPort) : Bool := (u.regs 1 &&& uartIERRDI ≠ 0 && u.waiting) || u.uartTXInterruptPending

/-- the part of a port that taking input leaves alone -/
structure SameSettings (u u' : BiosUARTPort) : Prop where
  regs : u'.regs = u.regs
  txInterrupt : u'.txInterrupt = u.txInterrupt
  waiting : u'.waiting = u.waiting

theorem SameSettings.refl (u : BiosUARTPort) : SameSettings u u := ⟨rfl, rfl, rfl⟩

theorem SameSettings.trans {v : BiosUARTPort} (h : SameSettings u u') (h' : SameSettings u' v) : SameSettings u v :=
  ⟨h'.regs.trans h.regs, h'.txInterrupt.trans h.txInterrupt, h'.waiting.trans h.waiting⟩

theorem SameSettings.asks (h : SameSettings u u') : u'.asks = u.asks := by
  unfold BiosUARTPort.asks uartTXInterruptPending
  rw [h.regs, h.txInterrupt, h.waiting]

/-- what a round does: it takes a byte, or drops a channel that is closed and empty -/
inductive Received (u : BiosUARTPort) : BiosUARTPort → Prop
  | byte {ch : RxChannel} {b : BitVec 8} {rest : List (BitVec 8)} (hch : u.rxCh = some ch) (hq : ch.queue = b :: rest) :
      Received u { u with rx := u.rx ++ [b], rxCh := some { ch with queue := rest } }
  | dropped {ch : RxChannel} (hch : u.rxCh = some ch) (hq : ch.queue = []) : Received u { u with rxCh := none }

theorem receive_received (h : u.receive = some u') : Received u u' := by
  unfold receive at h
  split at h
  · cases h
  · rename_i ch hch
    split at h
    · split at h
      · rename_i b rest hq
        cases h
        exact .byte hch hq
      · rename_i hq
        split_ifs at h
        cases h
        exact .dropped hch hq
    · cases h

theorem receive_same (h : u.receive = some u') : SameSettings u u' := by
  cases receive_received h with
  | byte hch hq => exact ⟨rfl, rfl, by simp [waiting, hch, hq]⟩
  | dropped hch hq => exact ⟨rfl, rfl, by simp [waiting, hch, hq]⟩

theorem receive_rounds (h : u.receive = some u') : u'.rounds < u.rounds := by
  cases receive_received h with
  | byte hch hq => simp [rounds, hch, hq]
  | dropped hch hq => simp [rounds, hch]

theorem receive_of_rounds (h : u.rounds = 0) : u.receive = none := by
  unfold rounds at h
  unfold receive
  cases hch : u.rxCh with
  | none => rfl
  | some ch => simp [hch] at h

theorem waiting_of_receive_none (h : u.receive = none) : u.waiting = !u.rx.isEmpty := by
  unfold receive at h
  unfold waiting
  cases hch : u.rxCh with
  | none => simp
  | some ch =>
    simp only [hch] at h
    cases hrx : u.rx with
    | cons b rest => simp
    | nil =>
      rw [hrx, if_pos (by decide)] at h
      cases hq : ch.queue with
      | nil => simp [hq]
      | cons b rest => simp [hq] at h

theorem receiveAll_same (n : Nat) (u : BiosUARTPort) : SameSettings u (receiveAll n u).2 := by
  induction n generalizing u with
  | zero => exact .refl u
  | succ n ih =>
    unfold receiveAll
    cases hr : u.receive with
    | none => exact .refl u
    | some u' => exact (receive_same hr).trans (ih u')

theorem receiveAll_done (n : Nat) (u : BiosUARTPort) (h : u.rounds ≤ n) : (receiveAll n u).2.receive = none := by
  induction n generalizing u with
  | zero => exact receive_of_rounds (Nat.le_zero.mp h)
  | succ n ih =>
    unfold receiveAll
    cases hr : u.receive with
    | none => exact hr
    | some u' =>
      have hless := receive_rounds hr
      exact ih u' (by omega)

theorem drain_same (u : BiosUARTPort) : SameSettings u u.drain.2 := receiveAll_same _ u

theorem drain_done (u : BiosUARTPort) : u.drain.2.receive = none := receiveAll_done _ u (Nat.le_refl _)

theorem asks_of_receive_none (h : u.receive = none) :
    u.asks = (u.uartRXInterruptPending || u.uartTXInterruptPending) := by
  unfold asks uartRXInterruptPending
  rw [waiting_of_receive_none h]
  cases hrx : u.rx <;> simp

end BiosUARTPort

namespace BoardState

variable (m : BoardState) (i : Fin 2)

@[simp] theorem drainUARTInput_uarts :
    (m.drainUARTInput i).uarts = Function.update m.uarts i (m.uarts i).drain.2 := by
  unfold drainUARTInput setUart markExternalInterruptDirty
  dsimp only
  split_ifs <;> rfl

/-- the registers of the interrupt controller and the network device -/
structure SamePlic (m m' : BoardState) : Prop where
  priority : m'.plicPriority = m.plicPriority
  enable : m'.plicEnable = m.plicEnable
  threshold : m'.plicThreshold = m.plicThreshold
  claimed : m'.plicClaimed = m.plicClaimed
  virtio : m'.virtioNet = m.virtioNet

theorem SamePlic.trans {m m' m'' : BoardState} (h : SamePlic m m') (h' : SamePlic m' m'') : SamePlic m m'' :=
  ⟨h'.priority.trans h.priority, h'.enable.trans h.enable, h'.threshold.trans h.threshold,
    h'.claimed.trans h.claimed, h'.virtio.trans h.virtio⟩

theorem drainUARTInput_plic : SamePlic m (m.drainUARTInput i) := by
  unfold drainUARTInput setUart markExternalInterruptDirty
  dsimp only
  split_ifs <;> exact ⟨rfl, rfl, rfl, rfl, rfl⟩

theorem SamePlic.virtioPending {m m' : BoardState} (h : SamePlic m m') : m'.virtioPending = m.virtioPending := by
  unfold BoardState.virtioPending
  rw [h.virtio]

theorem SamePlic.plicSelect {m m' : BoardState} (h : SamePlic m m') (ctx : Fin 2) (bits : BitVec 32) :
    m'.plicSelect ctx bits = m.plicSelect ctx bits := by
  unfold BoardState.plicSelect
  rw [h.priority, h.enable, h.threshold]

theorem uartInterruptPendingAt_value : (m.uartInterruptPendingAt i).1 = (m.uarts i).asks := by
  unfold uartInterruptPendingAt
  simp only [drainUARTInput_uarts, Function.update_self]
  rw [← BiosUARTPort.asks_of_receive_none (BiosUARTPort.drain_done _), (BiosUARTPort.drain_same _).asks]

def pendingBits : BitVec 32 := plicBits (m.uarts 0).asks (m.uarts 1).asks m.virtioPending

theorem plicPendingBits_value : m.plicPendingBits.1 = m.pendingBits := by
  have hplic := (m.drainUARTInput_plic 0).trans ((m.drainUARTInput 0).drainUARTInput_plic 1)
  have hother : (m.drainUARTInput 0).uarts 1 = m.uarts 1 := by simp
  unfold plicPendingBits pendingBits
  dsimp only
  rw [uartInterruptPendingAt_value, uartInterruptPendingAt_value]
  show plicBits _ ((m.drainUARTInput 0).uarts 1).asks ((m.drainUARTInput 0).drainUARTInput 1).virtioPending = _
  rw [hother, hplic.virtioPending]

theorem plicPendingBits_plic : SamePlic m m.plicPendingBits.2 :=
  (m.drainUARTInput_plic 0).trans ((m.drainUARTInput 0).drainUARTInput_plic 1)

variable (ctx : Fin 2)

theorem plicPendingForContext_value :
    (m.plicPendingForContext ctx).1 = if m.plicClaimed ctx ≠ 0 then 0 else m.plicSelect ctx m.pendingBits := by
  unfold plicPendingForContext
  split_ifs
  · rfl
  · dsimp only
    rw [m.plicPendingBits_plic.plicSelect, plicPendingBits_value]

/-! ## The source that is offered -/

def Pending (source : Nat) : Prop :=
  (source = biosUARTIRQ ∧ (m.uarts 0).asks = true) ∨ (source = biosUART1IRQ ∧ (m.uarts 1).asks = true) ∨
    (source = biosVirtioNetIRQ ∧ m.virtioPending = true)

theorem plicBits_iff (uart0 uart1 virtio : Bool) (source : Nat) : (plicBits uart0 uart1 virtio).getLsbD source = true ↔
    (source = biosUARTIRQ ∧ uart0 = true) ∨ (source = biosUART1IRQ ∧ uart1 = true) ∨
      (source = biosVirtioNetIRQ ∧ virtio = true) := by
  unfold plicBits biosUARTIRQ biosUART1IRQ biosVirtioNetIRQ
  have hbit (k : Nat) (hk : k < 32) : (1#32 <<< k).getLsbD source = true ↔ source = k := by
    simp only [BitVec.getLsbD_shiftLeft, BitVec.getLsbD_one, Bool.and_eq_true, decide_eq_true_eq, Bool.not_eq_true',
      decide_eq_false_iff_not]
    omega
  simp only [BitVec.getLsbD_or, Bool.or_eq_true, or_assoc]
  refine or_congr ?_ (or_congr ?_ ?_)
  · cases uart0 with
    | false => simp
    | true => rw [if_pos rfl, hbit 10 (by decide), and_iff_left rfl]
  · cases uart1 with
    | false => simp
    | true => rw [if_pos rfl, hbit 11 (by decide), and_iff_left rfl]
  · cases virtio with
    | false => simp
    | true => rw [if_pos rfl, hbit 1 (by decide), and_iff_left rfl]

theorem pendingBits_iff (source : Nat) : m.pendingBits.getLsbD source = true ↔ m.Pending source :=
  plicBits_iff _ _ _ source

/-- the source is pending, and the context has it enabled -/
def Wanted (ctx : Fin 2) (source : Nat) : Prop :=
  m.Pending source ∧ (m.plicEnable ctx).getLsbD source = true

/-- the source comes first for the context -/
structure Offered (ctx : Fin 2) (source : Nat) : Prop where
  wanted : m.Wanted ctx source
  above : m.plicThreshold ctx < m.plicPriority source
  first : ∀ other, m.Wanted ctx other →
    m.plicPriority other < m.plicPriority source ∨ (m.plicPriority other = m.plicPriority source ∧ source ≤ other)

theorem Pending.lt {m : BoardState} {source : Nat} (h : m.Pending source) : 0 < source ∧ source < 32 := by
  unfold Pending biosUARTIRQ biosUART1IRQ biosVirtioNetIRQ at h
  omega

section Best

variable {priority : Nat → BitVec 32} {threshold : BitVec 32}

/-- the best of `sources`, or what was the best before them -/
structure BestOf (priority : Nat → BitVec 32) (threshold : BitVec 32) (sources : List Nat) (best r : Nat × BitVec 32) :
    Prop where
  from_ : r = best ∨ (r.1 ∈ sources ∧ r.2 = priority r.1 ∧ threshold < r.2 ∧ best.2 < r.2)
  bound : ∀ s ∈ sources, threshold < priority s → priority s ≤ r.2
  first : ∀ s ∈ sources, threshold < priority s → priority s = r.2 → r = best ∨ r.1 ≤ s

theorem plicBest_best {sources : List Nat} (hsorted : sources.Pairwise (· < ·)) (best : Nat × BitVec 32) :
    BestOf priority threshold sources best (plicBest priority threshold sources best) := by
  induction sources generalizing best with
  | nil => exact ⟨.inl rfl, fun s hs => absurd hs not_mem_nil, fun s hs => absurd hs not_mem_nil⟩
  | cons source rest ih =>
    obtain ⟨hless, hrest⟩ := pairwise_cons.mp hsorted
    unfold plicBest
    split_ifs with hskip
    · have hih := ih hrest best
      have hbest : best.2 ≤ (plicBest priority threshold rest best).2 := by
        obtain hsame | ⟨-, -, -, hmore⟩ := hih.from_
        · rw [hsame]
          exact BitVec.le_refl _
        · exact BitVec.le_of_lt hmore
      generalize plicBest priority threshold rest best = r at hih hbest ⊢
      refine ⟨hih.from_.imp_right fun h => ⟨mem_cons_of_mem _ h.1, h.2⟩, fun s hs hs' => ?_, fun s hs hs' heq => ?_⟩
      · obtain rfl | hs := mem_cons.mp hs
        · obtain hbelow | hbelow := hskip
          · exact absurd hs' (BitVec.not_lt.mpr hbelow)
          · exact BitVec.le_trans hbelow hbest
        · exact hih.bound s hs hs'
      · obtain rfl | hs := mem_cons.mp hs
        · obtain hbelow | hbelow := hskip
          · exact absurd hs' (BitVec.not_lt.mpr hbelow)
          · refine hih.from_.imp_right fun h => ?_
            have hmore := h.2.2.2
            rw [← heq] at hmore
            exact absurd hmore (BitVec.not_lt.mpr hbelow)
        · exact hih.first s hs hs' heq
    · rw [not_or, BitVec.not_le, BitVec.not_le] at hskip
      have hih := ih hrest (source, priority source)
      generalize plicBest priority threshold rest (source, priority source) = r at hih ⊢
      refine ⟨.inr ?_, fun s hs hs' => ?_, fun s hs hs' heq => .inr ?_⟩
      · obtain rfl | ⟨hmem, heq, habove, hmore⟩ := hih.from_
        · exact ⟨mem_cons_self, rfl, hskip.1, hskip.2⟩
        · exact ⟨mem_cons_of_mem _ hmem, heq, habove, BitVec.lt_trans hskip.2 hmore⟩
      · obtain rfl | hs := mem_cons.mp hs
        · obtain rfl | ⟨-, -, -, hmore⟩ := hih.from_
          · exact BitVec.le_refl _
          · exact BitVec.le_of_lt hmore
        · exact hih.bound s hs hs'
      · obtain rfl | hs := mem_cons.mp hs
        · obtain rfl | ⟨-, -, -, hmore⟩ := hih.from_
          · exact Nat.le_refl _
          · rw [heq] at hmore
            exact absurd hmore (BitVec.lt_irrefl _)
        · obtain rfl | hle := hih.first s hs hs' heq
          · exact Nat.le_of_lt (hless s hs)
          · exact hle

end Best

/-- the answer to a context with no claim is the best of the sources that are pending and enabled -/
theorem plicSelect_best (bits : BitVec 32) : ∃ (sources : List Nat) (r : Nat × BitVec 32),
    (∀ s, s ∈ sources ↔ bits.getLsbD s = true ∧ (m.plicEnable ctx).getLsbD s = true) ∧
      BestOf m.plicPriority (m.plicThreshold ctx) sources (0, 0) r ∧ m.plicSelect ctx bits = BitVec.ofNat 32 r.1 := by
  refine ⟨(range 32).filter (bits &&& (m.plicEnable ctx).setWidth 32).getLsbD, _, fun s => ?_,
    plicBest_best (pairwise_lt_range.filter _) (0, 0), rfl⟩
  rw [mem_filter, mem_range, BitVec.getLsbD_and, Bool.and_eq_true, BitVec.getLsbD_setWidth, Bool.and_eq_true,
    decide_eq_true_eq]
  constructor
  · exact fun h => ⟨h.2.1, h.2.2.2⟩
  · exact fun h => ⟨BitVec.lt_of_getLsbD h.1, h.1, BitVec.lt_of_getLsbD h.1, h.2⟩

theorem plicSelect_eq_iff {source : BitVec 32} (h : source ≠ 0) :
    m.plicSelect ctx m.pendingBits = source ↔ m.Offered ctx source.toNat := by
  obtain ⟨sources, r, hmem, hbest, hselect⟩ := m.plicSelect_best ctx m.pendingBits
  have hsources (s : Nat) : s ∈ sources ↔ m.Wanted ctx s := by
    rw [hmem, pendingBits_iff]
    rfl
  rw [hselect]
  constructor
  · intro heq
    obtain rfl | ⟨hmem, hpriority, habove, hmore⟩ := hbest.from_
    · exact absurd heq.symm h
    have hwanted := (hsources r.1).mp hmem
    have hr : source.toNat = r.1 := by
      rw [← heq, BitVec.toNat_ofNat, Nat.mod_eq_of_lt (Nat.lt_trans hwanted.1.lt.2 (by decide))]
    rw [hr]
    refine ⟨hwanted, hpriority ▸ habove, fun other hother => ?_⟩
    rw [← hpriority]
    by_cases hover : m.plicThreshold ctx < m.plicPriority other
    · have hbound := hbest.bound other ((hsources other).mpr hother) hover
      obtain hlt | heq' := Nat.lt_or_eq_of_le (BitVec.le_def.mp hbound)
      · exact .inl hlt
      · have heq' := BitVec.eq_of_toNat_eq heq'
        obtain hzero | hle := hbest.first other ((hsources other).mpr hother) hover heq'
        · rw [hzero] at hmore
          exact absurd hmore (BitVec.lt_irrefl _)
        · exact .inr ⟨heq', hle⟩
    · exact .inl (Nat.lt_of_le_of_lt (BitVec.not_lt.mp hover) habove)
  · intro hoffered
    have hmem := (hsources _).mpr hoffered.wanted
    have hbound := hbest.bound _ hmem hoffered.above
    obtain rfl | ⟨hmem', hpriority, habove, -⟩ := hbest.from_
    · exact absurd (Nat.lt_of_lt_of_le hoffered.above hbound) (Nat.not_lt_zero _)
    rw [hpriority] at hbound
    obtain hlt | ⟨heq, hle⟩ := hoffered.first r.1 ((hsources r.1).mp hmem')
    · exact absurd hlt (BitVec.not_lt.mpr hbound)
    · obtain rfl | hle' := hbest.first _ hmem hoffered.above (heq.symm.trans hpriority.symm)
      · exact absurd habove (Nat.not_lt_zero _)
      · rw [Nat.le_antisymm hle' hle, BitVec.ofNat_toNat, BitVec.setWidth_eq]

/-- the context has the source enabled, with a priority above its threshold -/
def gate (ctx : Fin 2) (source : Nat) : Bool :=
  (m.plicEnable ctx).getLsbD source && m.plicThreshold ctx < m.plicPriority source

/-- some source that asks passes the gate -/
def passes (ctx : Fin 2) (uart0 uart1 virtio : Bool) : Bool :=
  uart0 && m.gate ctx biosUARTIRQ || uart1 && m.gate ctx biosUART1IRQ || virtio && m.gate ctx biosVirtioNetIRQ

theorem passes_iff (uart0 uart1 virtio : Bool) : m.passes ctx uart0 uart1 virtio = true ↔
    ∃ s, (plicBits uart0 uart1 virtio).getLsbD s = true ∧ m.gate ctx s = true := by
  simp only [plicBits_iff, passes, Bool.or_eq_true, Bool.and_eq_true]
  constructor
  · rintro ((⟨ha, hg⟩ | ⟨ha, hg⟩) | ⟨ha, hg⟩)
    · exact ⟨_, .inl ⟨rfl, ha⟩, hg⟩
    · exact ⟨_, .inr (.inl ⟨rfl, ha⟩), hg⟩
    · exact ⟨_, .inr (.inr ⟨rfl, ha⟩), hg⟩
  · rintro ⟨s, ⟨rfl, ha⟩ | ⟨rfl, ha⟩ | ⟨rfl, ha⟩, hg⟩
    · exact .inl (.inl ⟨ha, hg⟩)
    · exact .inl (.inr ⟨ha, hg⟩)
    · exact .inr ⟨ha, hg⟩

theorem plicSelect_ne_zero_iff (uart0 uart1 virtio : Bool) :
    m.plicSelect ctx (plicBits uart0 uart1 virtio) ≠ 0 ↔ m.passes ctx uart0 uart1 virtio = true := by
  obtain ⟨sources, r, hmem, hbest, hselect⟩ := m.plicSelect_best ctx (plicBits uart0 uart1 virtio)
  rw [passes_iff, hselect]
  unfold gate
  simp only [Bool.and_eq_true, decide_eq_true_eq]
  constructor
  · intro hne
    obtain rfl | ⟨hsource, hpriority, habove, -⟩ := hbest.from_
    · exact absurd rfl hne
    · have hin := (hmem r.1).mp hsource
      exact ⟨r.1, hin.1, hin.2, hpriority ▸ habove⟩
  · rintro ⟨s, hbit, henable, habove⟩
    have hbound := hbest.bound s ((hmem s).mpr ⟨hbit, henable⟩) habove
    obtain rfl | ⟨hsource, -⟩ := hbest.from_
    · exact absurd (Nat.lt_of_lt_of_le habove hbound) (Nat.not_lt_zero _)
    · have hin := (plicBits_iff _ _ _ _).mp ((hmem r.1).mp hsource).1
      obtain ⟨h, -⟩ | ⟨h, -⟩ | ⟨h, -⟩ := hin <;> rw [h] <;> decide

/-- **What a context is offered.**  A context with no claim gets the source that comes first. -/
theorem plicPendingForContext_eq_iff {source : BitVec 32} (h : source ≠ 0) :
    (m.plicPendingForContext ctx).1 = source ↔ m.plicClaimed ctx = 0 ∧ m.Offered ctx source.toNat := by
  rw [plicPendingForContext_value]
  split_ifs with hclaimed
  · exact iff_of_false h.symm fun hoffered => hclaimed hoffered.1
  · rw [plicSelect_eq_iff m ctx h, and_iff_right (not_not.mp hclaimed)]

end BoardState

end RiscvEmu
