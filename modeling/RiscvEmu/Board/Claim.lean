/-
The claim protocol of the interrupt controller, over whole sequences of what can happen to the board.

A source is in service from the read of a claim register that returns it until the same context writes it to its
completion register. While it is, no claim read should return it.

• `claimed_once`: it holds in every sequence in which no context reads its claim register while it has a claim, or
  while the other one has a claim of a source that is enabled for both.
• `extra_read_releases`: what happens otherwise. A claim read that returns 0 forgets the claim in service, and a claim
  of one context does not keep the other from claiming the source.
-/
import RiscvEmu.Board.Plic

namespace RiscvEmu

open BitVec

namespace BiosUARTPort

/-- a port at start; `input` says whether a host goroutine fills a channel -/
def start (input : Bool) (out : UartSink) : BiosUARTPort :=
  { regs := fun i => if i = 2 then 0x01 else if i = 5 then 0x60 else 0
    txInterrupt := false, rx := [], rxCh := if input then some { queue := [], closed := false } else none
    out := out, written := [] }

/-- a host goroutine sends a byte, if the channel has room -/
def arrive (u : BiosUARTPort) (b : BitVec 8) : BiosUARTPort :=
  match u.rxCh with
  | none => u
  | some ch =>
    if ch.closed ∨ ch.queue.length ≥ uartRXLimit then u
    else { u with rxCh := some { ch with queue := ch.queue ++ [b] } }

def close (u : BiosUARTPort) : BiosUARTPort := { u with rxCh := u.rxCh.map fun ch => { ch with closed := true } }

end BiosUARTPort

namespace BoardState

/-- the board at start, with or without standard input, console sockets, and the optional devices -/
def newBiosMmio (stdin consoleSockets : Bool) (hostio : Option HostIODevice) (virtioNet : Option VirtioNet) :
    BoardState :=
  { uarts := fun i =>
    if i = 0 then .start stdin .writer else .start consoleSockets (if consoleSockets then .socket else .none)
    resets := 0, hostio := hostio, virtioNet := virtioNet, sent := []
    clint := Bytes.writeLe (fun _ => 0) 0x4000 8 (allOnes 64), mtime := 0
    plicPriority := fun _ => 0, plicEnable := fun _ => 0, plicThreshold := fun _ => 0, plicClaimed := fun _ => 0
    supervisorExternalPending := false, externalInterruptDirty := true }

def injectFrame (m : BoardState) (frame : NetFrame) (mem : GuestMemory) : BoardState × GuestMemory :=
  match m.virtioNet with
  | none => (m, mem)
  | some d =>
    let r := d.injectGuestFrame frame mem
    ({ m with virtioNet := some r.2.1 }, r.2.2)

end BoardState

/-- what happens to the board: an access of the guest, a look at the interrupt line, the timer, an arrival and the mark
that it sets; `guest` is any other change of guest memory -/
inductive BoardEvent
  | load (addr width : BitVec 64)
  | store (addr width value : BitVec 64)
  | poll
  | advance (ticks : BitVec 64)
  | guest (mem : GuestMemory)
  | byte (port : Fin 2) (b : BitVec 8)
  | close (port : Fin 2)
  | frame (frame : NetFrame)
  | mark

abbrev BoardAndMemory := BoardState × GuestMemory

namespace BoardEvent

def apply (s : BoardAndMemory) : BoardEvent → BoardAndMemory
  | .load addr width => ((s.1.load addr width).2, s.2)
  | .store addr width value => (s.1.store addr width value s.2).2
  | .poll => (s.1.supervisorExternalInterruptPending.2, s.2)
  | .advance ticks => (s.1.advanceMachineTimer ticks, s.2)
  | .guest mem => (s.1, mem)
  | .byte port b => (s.1.setUart port ((s.1.uarts port).arrive b), s.2)
  | .close port => (s.1.setUart port (s.1.uarts port).close, s.2)
  | .frame f => s.1.injectFrame f s.2
  | .mark => (s.1.markExternalInterruptDirty, s.2)

/-- the claim and completion register of a context -/
def claimRegister (ctx : Fin 2) : BitVec 64 := biosPLICBase + 0x200004 + 0x1000 * BitVec.ofNat 64 ctx

/-- the event is a read of the claim register of the context -/
def readsClaim (ctx : Fin 2) (e : BoardEvent) : Bool :=
  match e with
  | .load addr width => addr = claimRegister ctx ∧ width = 4
  | _ => false

/-- the context and the source that the guest gets from a read of a claim register -/
def claims (s : BoardAndMemory) (e : BoardEvent) (ctx : Fin 2) (source : BitVec 32) : Prop :=
  e.readsClaim ctx = true ∧
    ∃ v : BitVec 64, (s.1.load (claimRegister ctx) 4).1 = some (.ok v) ∧ v.setWidth 32 = source ∧ source ≠ 0

/-- the event is a write of the source to the completion register of the context -/
def completes (e : BoardEvent) (ctx : Fin 2) (source : BitVec 32) : Prop :=
  ∃ value, e = .store (claimRegister ctx) 4 value ∧ value.setWidth 32 = source

/-- the claims in service after the event -/
def serve (s : BoardAndMemory) (e : BoardEvent) (served : Set (Fin 2 × BitVec 32)) : Set (Fin 2 × BitVec 32) :=
  { p | (p ∈ served ∧ ¬ e.completes p.1 p.2) ∨ e.claims s p.1 p.2 }

end BoardEvent

/-- no claim read returns a source that is in service -/
def ClaimedOnce (s : BoardAndMemory) (served : Set (Fin 2 × BitVec 32)) : List BoardEvent → Prop
  | [] => True
  | e :: rest =>
    (∀ ctx source, e.claims s ctx source → ∀ other, (other, source) ∉ served) ∧
      ClaimedOnce (e.apply s) (e.serve s served) rest

/-- the event is no claim read out of turn: no context reads its claim register while it has a claim, or while the other
context has a claim of a source that is enabled for it too -/
def BoardEvent.InTurn (m : BoardState) (e : BoardEvent) : Prop :=
  ∀ ctx, e.readsClaim ctx = true → m.plicClaimed ctx = 0 ∧
    ∀ other, m.plicClaimed other ≠ 0 → (m.plicEnable ctx).getLsbD (m.plicClaimed other).toNat = false

/-- no claim read of the sequence is out of turn -/
def ClaimsInTurn (s : BoardAndMemory) : List BoardEvent → Prop
  | [] => True
  | e :: rest => e.InTurn s.1 ∧ ClaimsInTurn (e.apply s) rest

namespace BoardState

variable (m : BoardState)

theorem device_claimRegister (ctx : Fin 2) :
    m.device (BoardEvent.claimRegister ctx) 4 = some (.plic (0x200004 + 0x1000 * BitVec.ofNat 64 ctx)) := by
  have hoptional {α : Type} (d : Option α) : optionalOffset d none = none := by cases d <;> rfl
  have hothers : mmioRangeOffset (BoardEvent.claimRegister ctx) 4 biosSysconBase biosSysconSize = none ∧
      biosUARTRangeOffset (BoardEvent.claimRegister ctx) 4 = none ∧
      mmioRangeOffset (BoardEvent.claimRegister ctx) 4 biosHostIOBase biosHostIOSize = none ∧
      mmioRangeOffset (BoardEvent.claimRegister ctx) 4 biosVirtioNetBase biosVirtioNetSize = none ∧
      mmioRangeOffset (BoardEvent.claimRegister ctx) 4 biosCLINTBase biosCLINTSize = none := by
    revert ctx
    decide
  have hplic : mmioRangeOffset (BoardEvent.claimRegister ctx) 4 biosPLICBase biosPLICSize =
      some (0x200004 + 0x1000 * BitVec.ofNat 64 ctx) := by
    revert ctx
    decide
  obtain ⟨hsyscon, huart, hhostio, hvirtio, hclint⟩ := hothers
  unfold device
  rw [hsyscon, huart, hhostio, hvirtio, hclint, hplic, hoptional, hoptional]
  rfl

theorem load_claimRegister (ctx : Fin 2) :
    m.load (BoardEvent.claimRegister ctx) 4 = (some (.ok ((m.plicClaim ctx).1.setWidth 64)), (m.plicClaim ctx).2) := by
  have hcontext : plicContext (0x200004 + 0x1000 * BitVec.ofNat 64 ctx) 0x2000 0x80 = none ∧
      plicContext (0x200004 + 0x1000 * BitVec.ofNat 64 ctx) 0x200000 0x1000 = some ctx ∧
      ¬ (0x200004 + 0x1000 * BitVec.ofNat 64 ctx : BitVec 64) < 0x1000 ∧
      ¬ (0x200004 + 0x1000 * BitVec.ofNat 64 ctx : BitVec 64) < 0x2000 ∧
      (0x200004 + 0x1000 * BitVec.ofNat 64 ctx - 0x200000 : BitVec 64) % 0x1000 = 4 := by
    revert ctx
    decide
  obtain ⟨hnone, hsome, hpriority, hpending, hreg⟩ := hcontext
  unfold load
  rw [device_claimRegister]
  simp only [loadPLIC, ne_eq, not_true_eq_false, if_false, hpriority, hpending, hnone, hsome, hreg]
  rfl

end BoardState

namespace BoardEvent

variable {s : BoardAndMemory} {e : BoardEvent} {ctx : Fin 2} {source : BitVec 32}

theorem claims_iff : e.claims s ctx source ↔
    e.readsClaim ctx = true ∧ source ≠ 0 ∧ s.1.plicClaimed ctx = 0 ∧ s.1.Offered ctx source.toNat := by
  unfold claims
  rw [BoardState.load_claimRegister]
  have hvalue :
      (∃ v : BitVec 64, (some (Except.ok ((s.1.plicClaim ctx).1.setWidth 64)) : Option (Except MemFault (BitVec 64)))
      = some (.ok v) ∧ v.setWidth 32 = source ∧ source ≠ 0) ↔
        source ≠ 0 ∧ (s.1.plicPendingForContext ctx).1 = source := by
    constructor
    · rintro ⟨v, hv, hsource, hne⟩
      cases hv
      rw [setWidth_setWidth_of_le _ (by decide), setWidth_eq] at hsource
      exact ⟨hne, hsource⟩
    · rintro ⟨hne, hsource⟩
      refine ⟨_, rfl, ?_, hne⟩
      rw [setWidth_setWidth_of_le _ (by decide), setWidth_eq]
      exact hsource
  rw [hvalue]
  refine and_congr_right fun _ => and_congr_right fun hne => ?_
  exact s.1.plicPendingForContext_eq_iff ctx hne

end BoardEvent

/-! ## What changes the claim of a context -/

namespace BoardState

theorem device_plic {m : BoardState} {addr width off : BitVec 64} (h : m.device addr width = some (.plic off)) :
    addr = biosPLICBase + off := by
  unfold device at h
  split at h
  · cases h
  split at h
  · cases h
  split at h
  · cases h
  split at h
  · cases h
  split at h
  · cases h
  · obtain ⟨o, ho, heq⟩ := Option.map_eq_some_iff.1 h
    cases heq
    unfold mmioRangeOffset at ho
    split_ifs at ho
    cases ho
    rw [BitVec.add_comm, BitVec.sub_add_cancel]

theorem uartByte_claimed (m : BoardState) (i : Fin 2) (off : BitVec 64) :
    (m.uartByte i off).2.plicClaimed = m.plicClaimed := by
  rw [← (m.drainUARTInput_plic i).claimed]
  unfold uartByte
  dsimp only
  generalize m.drainUARTInput i = m'
  split_ifs
  · rfl
  · cases (m'.uarts i).rx <;> rfl
  all_goals rfl

theorem loadUARTPort_claimed (i : Fin 2) (off : BitVec 64) (n : Nat) (m : BoardState) :
    (loadUARTPort i off n m).2.plicClaimed = m.plicClaimed := by
  induction n with
  | zero => rfl
  | succ n ih => exact (uartByte_claimed _ i _).trans ih

theorem plicPendingForContext_claimed (m : BoardState) (ctx : Fin 2) :
    (m.plicPendingForContext ctx).2.plicClaimed = m.plicClaimed := by
  unfold plicPendingForContext
  split_ifs
  · rfl
  · exact m.plicPendingBits_plic.claimed

/-- the registers of a context that hold `off` start at its base -/
theorem claimRegister_of_context {off : BitVec 64} {ctx : Fin 2} (hctx : plicContext off 0x200000 0x1000 = some ctx)
    (hreg : (off - 0x200000) % 0x1000 = 4) : biosPLICBase + off = BoardEvent.claimRegister ctx := by
  have hoff : off = 0x200004 + 0x1000 * BitVec.ofNat 64 ctx := by
    have hmod : (off - 0x200000).toNat % 0x1000 = 4 := congrArg BitVec.toNat hreg
    unfold plicContext at hctx
    split_ifs at hctx with hlow h0 h1 <;> cases hctx <;> bv_omega
  rw [hoff, BoardEvent.claimRegister, BitVec.add_assoc]

/-- a load leaves the claim of a context alone unless it reads the claim register -/
theorem load_claimed (m : BoardState) {addr width : BitVec 64} {ctx : Fin 2}
    (h : ¬ (addr = BoardEvent.claimRegister ctx ∧ width = 4)) :
    (m.load addr width).2.plicClaimed ctx = m.plicClaimed ctx := by
  unfold load
  cases hd : m.device addr width with
  | none =>
    dsimp only
    split_ifs <;> rfl
  | some d =>
    cases d with
    | syscon off => rfl
    | uart i off => exact congrFun (loadUARTPort_claimed i off _ m) ctx
    | hostio d off => rfl
    | virtioNet d off => rfl
    | clint off => rfl
    | plic off =>
      dsimp only
      unfold loadPLIC
      split
      · rfl
      rename_i hwidth
      split
      · rfl
      split
      · exact congrFun m.plicPendingBits_plic.claimed ctx
      · cases plicContext off 0x2000 0x80 with
        | some _ => rfl
        | none =>
          cases hctx : plicContext off 0x200000 0x1000 with
          | none => rfl
          | some other =>
            dsimp only
            split_ifs with hthreshold hclaim
            · rfl
            · have hother : ctx ≠ other := by
                rintro rfl
                exact h ⟨(device_plic hd).trans (claimRegister_of_context hctx hclaim), not_not.1 hwidth⟩
              exact (Function.update_of_ne hother _ _).trans (congrFun (m.plicPendingForContext_claimed other) ctx)
            · rfl

/-- a store leaves it alone unless it writes the claimed source to the completion register -/
theorem store_claimed (m : BoardState) {addr width value : BitVec 64} (mem : GuestMemory) {ctx : Fin 2}
    (h : ¬ (addr = BoardEvent.claimRegister ctx ∧ width = 4 ∧ value.setWidth 32 = m.plicClaimed ctx)) :
    (m.store addr width value mem).2.1.plicClaimed ctx = m.plicClaimed ctx := by
  unfold store
  cases hd : m.device addr width with
  | none =>
    dsimp only
    split_ifs <;> rfl
  | some d =>
    cases d with
    | syscon off =>
      dsimp only
      unfold storeSyscon
      split_ifs <;> rfl
    | uart i off => rfl
    | hostio d off => rfl
    | virtioNet d off => rfl
    | clint off =>
      dsimp only
      unfold storeCLINT
      split_ifs <;> rfl
    | plic off =>
      dsimp only
      unfold storePLIC
      split_ifs with hwidth
      · rfl
      · rfl
      · rfl
      · cases plicContext off 0x2000 0x80 with
        | some _ =>
          dsimp only
          split_ifs <;> rfl
        | none =>
          cases hctx : plicContext off 0x200000 0x1000 with
          | none => rfl
          | some other =>
            dsimp only
            split_ifs with hthreshold hcomplete
            · rfl
            · unfold plicComplete
              split_ifs with hsource
              · have hother : ctx ≠ other := by
                  rintro rfl
                  exact h ⟨(device_plic hd).trans (claimRegister_of_context hctx hcomplete), not_not.1 hwidth,
                    hsource.symm⟩
                exact Function.update_of_ne hother _ _
              · rfl
            · rfl

end BoardState

namespace BoardEvent

/-- only a claim read and the completion of its claim change the claim of a context -/
theorem apply_claimed (s : BoardAndMemory) {e : BoardEvent} {ctx : Fin 2} (hreads : ¬ e.readsClaim ctx = true)
    (hcompletes : ¬ e.completes ctx (s.1.plicClaimed ctx)) : (e.apply s).1.plicClaimed ctx = s.1.plicClaimed ctx := by
  cases e with
  | load addr width => exact s.1.load_claimed fun h => hreads (decide_eq_true h)
  | store addr width value =>
    refine s.1.store_claimed s.2 ?_
    rintro ⟨rfl, rfl, hsource⟩
    exact hcompletes ⟨value, rfl, hsource⟩
  | poll =>
    show s.1.supervisorExternalInterruptPending.2.plicClaimed ctx = _
    unfold BoardState.supervisorExternalInterruptPending
    split_ifs
    · rfl
    · exact congrFun (BoardState.plicPendingForContext_claimed _ plicSContext) ctx
  | frame f =>
    show (s.1.injectFrame f s.2).1.plicClaimed ctx = _
    unfold BoardState.injectFrame
    split <;> rfl
  | advance ticks => rfl
  | guest mem => rfl
  | byte port b => rfl
  | close port => rfl
  | mark => rfl

/-- the register of a context holds what it has in service -/
def Recorded (m : BoardState) (served : Set (Fin 2 × BitVec 32)) : Prop :=
  ∀ p ∈ served, p.2 ≠ 0 ∧ m.plicClaimed p.1 = p.2

theorem Recorded.apply {s : BoardAndMemory} {e : BoardEvent} {served : Set (Fin 2 × BitVec 32)}
    (h : Recorded s.1 served) (hturn : e.InTurn s.1) : Recorded (e.apply s).1 (e.serve s served) := by
  rintro ⟨ctx, source⟩ (⟨hserved, hcompletes⟩ | hclaims)
  · obtain ⟨hne, hclaimed⟩ := h _ hserved
    refine ⟨hne, (apply_claimed s ?_ ?_).trans hclaimed⟩
    · intro hreads
      exact hne (hclaimed.symm.trans (hturn ctx hreads).1)
    · rwa [hclaimed]
  · obtain ⟨hreads, v, hv, hsource, hne⟩ := hclaims
    refine ⟨hne, ?_⟩
    cases e with
    | load addr width =>
      obtain ⟨rfl, rfl⟩ := of_decide_eq_true hreads
      have hvalue : (s.1.plicClaim ctx).1.setWidth 64 = v := by
        rw [BoardState.load_claimRegister] at hv
        exact Except.ok.inj (Option.some.inj hv)
      have hclaim : (s.1.plicClaim ctx).1 = source := by
        rw [show source = v.setWidth 32 from hsource.symm, ← hvalue, setWidth_setWidth_of_le _ (by decide), setWidth_eq]
      show (s.1.load (claimRegister ctx) 4).2.plicClaimed ctx = source
      rw [BoardState.load_claimRegister, ← hclaim]
      exact Function.update_self _ _ _
    | _ => cases hreads

/-- a claim read in turn returns no source that is in service -/
theorem Recorded.fresh {s : BoardAndMemory} {e : BoardEvent} {served : Set (Fin 2 × BitVec 32)}
    (h : Recorded s.1 served) (hturn : e.InTurn s.1) {ctx : Fin 2} {source : BitVec 32}
    (hclaims : e.claims s ctx source)
    (other : Fin 2) : (other, source) ∉ served := by
  intro hserved
  obtain ⟨hreads, hne, -, hoffered⟩ := claims_iff.1 hclaims
  obtain ⟨-, hclaimed⟩ := h _ hserved
  have hdisabled := (hturn ctx hreads).2 other (by rwa [hclaimed])
  rw [hclaimed, hoffered.wanted.2] at hdisabled
  cases hdisabled

end BoardEvent

/-- **Claims made in turn are made once.**  In every sequence of events, from any board, in which no context reads its
claim register while it has a claim, or while the other context has a claim of a source that is enabled for it too, no
claim read returns a source that is in service. -/
theorem claimed_once (s : BoardAndMemory) (events : List BoardEvent) (h : ClaimsInTurn s events) :
    ClaimedOnce s ∅ events := by
  have hrecorded : BoardEvent.Recorded s.1 ∅ := fun p hp => absurd hp (Set.notMem_empty p)
  generalize (∅ : Set (Fin 2 × BitVec 32)) = served at hrecorded ⊢
  induction events generalizing s served with
  | nil => trivial
  | cons e rest ih =>
    obtain ⟨hturn, hrest⟩ := h
    exact ⟨fun ctx source hclaims => hrecorded.fresh hturn hclaims, ih _ hrest _ (hrecorded.apply hturn)⟩

/-- standard input of the first UART is enabled for both contexts, and a byte arrives -/
def inputPending : BoardAndMemory :=
  [.store (biosUARTBase + 1) 1 1, .store (biosPLICBase + 40) 4 1, .store (biosPLICBase + 0x2000) 4 0x400,
    .store (biosPLICBase + 0x2080) 4 0x400, .byte 0 0x41].foldl BoardEvent.apply
    (.newBiosMmio true false none none, .newGuestMemoryWithModel 20 .sandbox true)

def claimRead (ctx : Fin 2) : BoardEvent := .load (BoardEvent.claimRegister ctx) 4

theorem claimRead_serves {s : BoardAndMemory} {served : Set (Fin 2 × BitVec 32)} {ctx : Fin 2} {source : BitVec 32}
    (h : (claimRead ctx).claims s ctx source) : (ctx, source) ∈ (claimRead ctx).serve s served := .inr h

theorem claimRead_keeps {s : BoardAndMemory} {served : Set (Fin 2 × BitVec 32)} {ctx : Fin 2} {p : Fin 2 × BitVec 32}
    (h : p ∈ served) : p ∈ (claimRead ctx).serve s served := by
  refine .inl ⟨h, ?_⟩
  rintro ⟨value, hvalue, -⟩
  cases hvalue

theorem claims_of_load {s : BoardAndMemory} {ctx : Fin 2} {v : BitVec 64}
    (h : (s.1.load (BoardEvent.claimRegister ctx) 4).1 = some (.ok v))
    (hne : v.setWidth 32 ≠ 0) : (claimRead ctx).claims s ctx (v.setWidth 32) :=
  ⟨by simp [BoardEvent.readsClaim, claimRead], v, h, rfl, hne⟩

def completion (ctx : Fin 2) : BoardEvent := .store (BoardEvent.claimRegister ctx) 4 10

/-- both contexts claim the source, one after the other has completed it -/
theorem claimed_once_each : (claimRead 0).claims inputPending 0 10 ∧
    (claimRead 1).claims ((completion 0).apply ((claimRead 0).apply inputPending)) 1 10 ∧
    ClaimedOnce inputPending ∅ [claimRead 0, completion 0, claimRead 1, completion 1, claimRead 0] := by
  have hidle (ctx : Fin 2) {s : BoardAndMemory} (h : ∀ ctx, s.1.plicClaimed ctx = 0) : (claimRead ctx).InTurn s.1 :=
    fun ctx _ => ⟨h ctx, fun other hother => absurd (h other) hother⟩
  have hstore (ctx : Fin 2) (m : BoardState) : (completion ctx).InTurn m := fun ctx hreads => by cases hreads
  refine ⟨claims_of_load (v := 10) rfl (by decide), claims_of_load (v := 10) rfl (by decide), claimed_once _ _ ?_⟩
  exact ⟨hidle 0 (by decide), hstore 0 _, hidle 1 (by decide), hstore 1 _, hidle 0 (by decide), trivial⟩

/-! ## Two ways to claim a source twice -/

/-- the second of three claim reads returns 0 and forgets the claim of the first, so the third returns the source
again; and after a claim of one context the other gets the same source -/
theorem extra_read_releases :
    ¬ ClaimedOnce inputPending ∅ [claimRead 0, claimRead 0, claimRead 0] ∧
    ¬ ClaimedOnce inputPending ∅ [claimRead 0, claimRead 1] := by
  have hfirst : (claimRead 0).claims inputPending 0 10 := claims_of_load (v := 10) rfl (by decide)
  constructor
  · intro h
    have hthird : (claimRead 0).claims ((claimRead 0).apply ((claimRead 0).apply inputPending)) 0 10 :=
      claims_of_load (v := 10) rfl (by decide)
    exact h.2.2.1 0 10 hthird 0 (claimRead_keeps (claimRead_serves hfirst))
  · intro h
    have hsecond : (claimRead 1).claims ((claimRead 0).apply inputPending) 1 10 :=
      claims_of_load (v := 10) rfl (by decide)
    exact h.2.1 1 10 hsecond 0 (claimRead_serves hfirst)

end RiscvEmu
