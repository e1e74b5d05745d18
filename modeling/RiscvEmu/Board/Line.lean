/-
The cached external interrupt line, with arrivals at any time.

`SupervisorExternalInterruptPending` is cut into its accesses to what it shares with the host's goroutines: the mark,
the channels of the UARTs and the interrupt status of the network device. Between any two of them a byte or a frame
may arrive, and a goroutine may set the mark for it (`LineAction`). That of a console socket never does; the network
device does if it has a wake function.

• `look_uninterrupted`: a look that nothing interrupts is the function of the source.
• `load_quiet`, `store_quiet`: an access of the guest sets the mark, or leaves the line as it is.
• `line_coherent`: the cache is right whenever the mark is clear and no arrival still has to set it, if each arrival
  that sets no mark is heard anyway (`Heard`).
• `socket_byte_unheard`: a byte from a console socket with the mark clear.
-/
import RiscvEmu.Board.Claim

namespace RiscvEmu

open Function List BoardState Option

namespace BoardState

variable (m : BoardState)

/-- the line of the supervisor context -/
def line : Bool := m.plicClaimed plicSContext = 0 ∧
  m.passes plicSContext (m.uarts 0).asks (m.uarts 1).asks m.virtioPending = true

theorem line_iff : m.line = true ↔ (m.plicPendingForContext plicSContext).1 ≠ 0 := by
  rw [plicPendingForContext_value, line, decide_eq_true_eq]
  split_ifs with hclaimed
  · exact iff_of_false (fun h => hclaimed h.1) (fun h => h rfl)
  · rw [and_iff_right (not_not.mp hclaimed)]
    exact (m.plicSelect_ne_zero_iff plicSContext _ _ _).symm

/-! ## The accesses of the guest -/

/-- what the line and its cache depend on is as it was -/
structure SameLine (m m' : BoardState) : Prop extends SamePlic m m' where
  asks : ∀ i, (m'.uarts i).asks = (m.uarts i).asks
  dirty : m'.externalInterruptDirty = m.externalInterruptDirty
  cached : m'.supervisorExternalPending = m.supervisorExternalPending

theorem SameLine.refl : SameLine m m := ⟨⟨rfl, rfl, rfl, rfl, rfl⟩, fun _ => rfl, rfl, rfl⟩

variable {m}
variable {m' m'' : BoardState}

theorem SamePlic.gate (h : SamePlic m m') (ctx : Fin 2) (source : Nat) : m'.gate ctx source = m.gate ctx source := by
  unfold BoardState.gate
  rw [h.enable, h.threshold, h.priority]

theorem SamePlic.passes (h : SamePlic m m') (ctx : Fin 2) (a b v : Bool) :
    m'.passes ctx a b v = m.passes ctx a b v := by
  unfold BoardState.passes
  rw [h.gate, h.gate, h.gate]

theorem SameLine.line (h : SameLine m m') : m'.line = m.line := by
  unfold BoardState.line
  rw [h.claimed, h.toSamePlic.passes, h.asks, h.asks, h.toSamePlic.virtioPending]

/-- the mark is set, or the line is as it was -/
def Quiet (m m' : BoardState) : Prop := m'.externalInterruptDirty = true ∨ SameLine m m'

theorem Quiet.refl (m : BoardState) : Quiet m m := .inr (.refl m)

theorem Quiet.marked (m m' : BoardState) : Quiet m m'.markExternalInterruptDirty := .inl rfl

theorem Quiet.trans (h : Quiet m m') (h' : Quiet m' m'') : Quiet m m'' := by
  obtain hmark | hsame' := h'
  · exact .inl hmark
  · obtain hmark | hsame := h
    · exact .inl (hsame'.dirty.trans hmark)
    · refine .inr ⟨hsame.toSamePlic.trans hsame'.toSamePlic, fun i => (hsame'.asks i).trans (hsame.asks i), ?_, ?_⟩
      · exact hsame'.dirty.trans hsame.dirty
      · exact hsame'.cached.trans hsame.cached

theorem setUart_sameLine {u : BiosUARTPort} {i : Fin 2} (h : u.asks = (m.uarts i).asks) :
    SameLine m (m.setUart i u) := by
  refine ⟨⟨rfl, rfl, rfl, rfl, rfl⟩, fun j => ?_, rfl, rfl⟩
  show (update m.uarts i u j).asks = _
  by_cases hij : j = i
  · rw [hij, update_self, h]
  · rw [update_of_ne hij]

theorem drainUARTInput_quiet (m : BoardState) (i : Fin 2) : Quiet m (m.drainUARTInput i) := by
  unfold drainUARTInput
  dsimp only
  split_ifs
  · exact .marked _ _
  · exact .inr (setUart_sameLine (BiosUARTPort.drain_same _).asks)

theorem uartByte_quiet (m : BoardState) (i : Fin 2) (off : BitVec 64) : Quiet m (m.uartByte i off).2 := by
  refine (drainUARTInput_quiet m i).trans ?_
  unfold uartByte
  dsimp only
  generalize m.drainUARTInput i = m'
  split_ifs
  · exact .refl m'
  · cases (m'.uarts i).rx with
    | nil => exact .refl m'
    | cons b rest => exact .marked _ _
  · exact .refl m'
  · exact .refl m'
  · exact .marked _ _
  all_goals exact .refl m'

theorem loadUARTPort_quiet (i : Fin 2) (off : BitVec 64) (n : Nat) (m : BoardState) :
    Quiet m (loadUARTPort i off n m).2 := by
  induction n with
  | zero => exact .refl m
  | succ n ih => exact ih.trans (uartByte_quiet _ i _)

theorem plicPendingBits_quiet (m : BoardState) : Quiet m m.plicPendingBits.2 :=
  (drainUARTInput_quiet m 0).trans (drainUARTInput_quiet _ 1)

theorem loadPLIC_quiet (m : BoardState) (off width : BitVec 64) : Quiet m (m.loadPLIC off width).2 := by
  unfold loadPLIC
  split
  · exact .refl m
  split
  · exact .refl m
  split
  · exact plicPendingBits_quiet m
  · cases plicContext off 0x2000 0x80 with
    | some ctx => exact .refl m
    | none =>
      cases plicContext off 0x200000 0x1000 with
      | none => exact .refl m
      | some ctx =>
        dsimp only
        split_ifs
        · exact .refl m
        · exact .marked _ _
        · exact .refl m

theorem storePLIC_quiet (m : BoardState) (off width value : BitVec 64) : Quiet m (m.storePLIC off width value) := by
  unfold storePLIC
  split_ifs
  · exact .refl m
  · exact .marked _ _
  · exact .marked _ _
  · cases plicContext off 0x2000 0x80 with
    | some ctx => exact .marked _ _
    | none =>
      cases plicContext off 0x200000 0x1000 with
      | none => exact .marked _ _
      | some ctx => exact .marked _ _

theorem storeSyscon_quiet (m : BoardState) (off width : BitVec 64) : Quiet m (m.storeSyscon off width) := by
  unfold storeSyscon
  split_ifs
  · exact .refl m
  · refine .inr ⟨⟨rfl, rfl, rfl, rfl, rfl⟩, fun i => ?_, rfl, rfl⟩
    unfold BiosUARTPort.closeOutput
    dsimp only
    split_ifs <;> rfl

theorem storeCLINT_quiet (m : BoardState) (off width value : BitVec 64) : Quiet m (m.storeCLINT off width value) := by
  unfold storeCLINT
  dsimp only
  split_ifs <;> exact .inr ⟨⟨rfl, rfl, rfl, rfl, rfl⟩, fun i => rfl, rfl, rfl⟩

theorem load_quiet (m : BoardState) (addr width : BitVec 64) : Quiet m (m.load addr width).2 := by
  unfold load
  cases m.device addr width with
  | none =>
    dsimp only
    split_ifs <;> exact .refl m
  | some d =>
    cases d with
    | syscon off => exact .refl m
    | uart i off => exact loadUARTPort_quiet i off _ m
    | hostio d off => exact .refl m
    | virtioNet d off => exact .refl m
    | clint off => exact .inr ⟨⟨rfl, rfl, rfl, rfl, rfl⟩, fun i => rfl, rfl, rfl⟩
    | plic off => exact loadPLIC_quiet m off width

theorem store_quiet (m : BoardState) (addr width value : BitVec 64) (mem : GuestMemory) :
    Quiet m (m.store addr width value mem).2.1 := by
  unfold store
  cases m.device addr width with
  | none =>
    dsimp only
    split_ifs <;> exact .refl m
  | some d =>
    cases d with
    | syscon off => exact storeSyscon_quiet m off width
    | uart i off => exact .marked _ _
    | hostio d off => exact .inr ⟨⟨rfl, rfl, rfl, rfl, rfl⟩, fun i => rfl, rfl, rfl⟩
    | virtioNet d off => exact .marked _ _
    | clint off => exact storeCLINT_quiet m off width value
    | plic off => exact storePLIC_quiet m off width value

end BoardState

namespace BoardState

variable {m : BoardState}

/-- the swap that clears the mark -/
def clearMark (m : BoardState) : BoardState := { m with externalInterruptDirty := false }

def setCached (m : BoardState) (line : Bool) : BoardState := { m with supervisorExternalPending := line }

theorem poll_clean (h : m.externalInterruptDirty = false) : m.supervisorExternalInterruptPending.2 = m := by
  unfold supervisorExternalInterruptPending
  rw [h]
  rfl

theorem poll_claimed (h : m.externalInterruptDirty = true) (hclaimed : m.plicClaimed plicSContext ≠ 0) :
    m.supervisorExternalInterruptPending.2 = m.clearMark.setCached false := by
  have hvalue : m.clearMark.plicPendingForContext plicSContext = (0, m.clearMark) := if_pos hclaimed
  unfold supervisorExternalInterruptPending
  rw [h]
  show setCached (m.clearMark.plicPendingForContext plicSContext).2
    (decide ((m.clearMark.plicPendingForContext plicSContext).1 ≠ 0)) = _
  rw [hvalue]
  rfl

theorem poll_asks (h : m.externalInterruptDirty = true) (hclaimed : ¬ m.plicClaimed plicSContext ≠ 0) :
    m.supervisorExternalInterruptPending.2 = m.clearMark.plicPendingBits.2.setCached
      (decide (m.clearMark.plicPendingBits.2.plicSelect plicSContext m.clearMark.plicPendingBits.1 ≠ 0)) := by
  have hvalue : m.clearMark.plicPendingForContext plicSContext =
      (m.clearMark.plicPendingBits.2.plicSelect plicSContext m.clearMark.plicPendingBits.1,
        m.clearMark.plicPendingBits.2) :=
    if_neg hclaimed
  unfold supervisorExternalInterruptPending
  rw [h]
  show setCached (m.clearMark.plicPendingForContext plicSContext).2
    (decide ((m.clearMark.plicPendingForContext plicSContext).1 ≠ 0)) = _
  rw [hvalue]

end BoardState

/-! ## Arrivals at any time -/

/-- how far a look at the line has come -/
inductive PollStage
  | idle
  /-- the mark was seen set -/
  | loaded
  /-- the input of a port is being taken; `uart0` is the answer of the first port, once it is known -/
  | draining (port : Fin 2) (uart0 changed : Bool)
  | asking (uart0 uart1 : Bool)
  | answered (line : Bool)
deriving DecidableEq

structure LineState where
  board : BoardState
  mem : GuestMemory
  /-- the arrivals whose mark is still to be set -/
  unmarked : Nat
  stage : PollStage

inductive LineAction
  | load (addr width : BitVec 64)
  | store (addr width value : BitVec 64)
  | advance (ticks : BitVec 64)
  | guest (mem : GuestMemory)
  | look
  | swap
  | take
  | ask
  | answer
  | byte (port : Fin 2) (b : BitVec 8)
  | close
  | frame (frame : NetFrame)
  | mark

/-- the channel of the port takes another byte -/
def BiosUARTPort.room (u : BiosUARTPort) : Bool :=
  match u.rxCh with
  | none => false
  | some ch => !ch.closed && ch.queue.length < uartRXLimit

/-- `InjectGuestFrame` takes the frame -/
def NetFrame.accepted (f : NetFrame) : Bool := 0 < f.length ∧ f.length ≤ virtioNetMaxFrameLen

namespace LineState

/-- one step, if it can be taken; port 0 is fed by standard input, port 1 by a console socket -/
def step (wakes : Bool) (s : LineState) : LineAction → Option LineState
  | .load addr width => if s.stage = .idle then some { s with board := (s.board.load addr width).2 } else none
  | .store addr width value =>
    if s.stage = .idle then
      let r := s.board.store addr width value s.mem
      some { s with board := r.2.1, mem := r.2.2 }
    else none
  | .advance ticks => if s.stage = .idle then some { s with board := s.board.advanceMachineTimer ticks } else none
  | .guest mem => if s.stage = .idle then some { s with mem := mem } else none
  | .look =>
    if s.stage = .idle then some (if s.board.externalInterruptDirty then { s with stage := .loaded } else s) else none
  | .swap =>
    if s.stage = .loaded then
      some { s with
        board := { s.board with externalInterruptDirty := false }
        stage := if s.board.plicClaimed plicSContext ≠ 0 then .answered false else .draining 0 false false }
    else none
  | .take =>
    match s.stage with
    | .draining port uart0 changed =>
      match (s.board.uarts port).receive with
      | some u => some { s with board := s.board.setUart port u, stage := .draining port uart0 true }
      | none =>
        let u := s.board.uarts port
        let answer := u.uartRXInterruptPending || u.uartTXInterruptPending
        some { s with
          board := if changed then s.board.markExternalInterruptDirty else s.board
          stage := if port = 0 then .draining 1 answer false else .asking uart0 answer }
    | _ => none
  | .ask =>
    match s.stage with
    | .asking uart0 uart1 =>
      let source := s.board.plicSelect plicSContext (plicBits uart0 uart1 s.board.virtioPending)
      some { s with stage := .answered (source ≠ 0) }
    | _ => none
  | .answer =>
    match s.stage with
    | .answered line => some { s with board := { s.board with supervisorExternalPending := line }, stage := .idle }
    | _ => none
  | .byte port b =>
    if (s.board.uarts port).room then
      some { s with
        board := s.board.setUart port ((s.board.uarts port).arrive b)
        unmarked := if port = 0 then s.unmarked + 1 else s.unmarked }
    else none
  | .close => some { s with board := s.board.setUart 0 (s.board.uarts 0).close, unmarked := s.unmarked + 1 }
  | .frame f =>
    if s.board.virtioNet.isSome then
      let r := s.board.injectFrame f s.mem
      some { s with board := r.1, mem := r.2, unmarked := if wakes && f.accepted then s.unmarked + 1 else s.unmarked }
    else none
  | .mark =>
    if s.unmarked = 0 then none
    else some { s with board := s.board.markExternalInterruptDirty, unmarked := s.unmarked - 1 }

def run (wakes : Bool) (s : LineState) : List LineAction → Option LineState
  | [] => some s
  | a :: rest => (s.step wakes a).bind fun s' => s'.run wakes rest

/-- between two CPU steps, with the mark clear and no mark still to be set, the cache is the line -/
def Coherent (s : LineState) : Prop :=
  s.stage = .idle → s.board.externalInterruptDirty = false → s.unmarked = 0 →
    s.board.supervisorExternalPending = decide ((s.board.plicPendingForContext plicSContext).1 ≠ 0)

def arrived (s : LineState) : LineAction → BoardState
  | .byte port b => s.board.setUart port ((s.board.uarts port).arrive b)
  | .frame f => (s.board.injectFrame f s.mem).1
  | _ => s.board

/-- the arrivals for which no mark is set -/
def silent (wakes : Bool) : LineAction → Bool
  | .byte port _ => port ≠ 0
  | .frame f => !(wakes && f.accepted)
  | _ => false

/-- the look that is under way has still to ask the device that the arrival is for -/
def notYet (stage : PollStage) : LineAction → Bool
  | .byte _ _ => match stage with
    | .draining _ _ _ => true
    | _ => false
  | .frame _ => match stage with
    | .draining _ _ _ => true
    | .asking _ _ => true
    | _ => false
  | _ => false

/-- an arrival without a mark is heard: the mark is or will be set for another reason, the device has still to be asked,
or the line does not change -/
def Heard (wakes : Bool) (s : LineState) (a : LineAction) : Prop :=
  silent wakes a = true → s.board.externalInterruptDirty = true ∨ 0 < s.unmarked ∨ notYet s.stage a = true ∨
    (s.arrived a).line = s.board.line

def HeardRun (wakes : Bool) (s : LineState) : List LineAction → Prop
  | [] => True
  | a :: rest => s.Heard wakes a ∧ ∀ s', s.step wakes a = some s' → s'.HeardRun wakes rest

def start (stdin consoleSockets : Bool) (hostio : Option HostIODevice) (virtioNet : Option VirtioNet)
    (mem : GuestMemory) :
    LineState :=
  { board := .newBiosMmio stdin consoleSockets hostio virtioNet, mem := mem, unmarked := 0, stage := .idle }

/-! ## A look that nothing interrupts -/

theorem run_append (wakes : Bool) (s : LineState) (l l' : List LineAction) :
    s.run wakes (l ++ l') = (s.run wakes l).bind fun s' => s'.run wakes l' := by
  induction l generalizing s with
  | nil => rfl
  | cons a rest ih =>
    show (s.step wakes a).bind (fun s' => s'.run wakes (rest ++ l')) = _
    simp only [ih]
    exact (bind_assoc _ _ _).symm

theorem run_cons_of_step {wakes : Bool} {s s' : LineState} {rest : List LineAction}
    (h : s.step wakes a = some s') : s.run wakes (a :: rest) = s'.run wakes rest := by
  show (s.step wakes a).bind _ = _
  rw [h]
  rfl

/-- the stage after the input of a port is taken -/
def afterTaking (port : Fin 2) (uart0 : Bool) (u : BiosUARTPort) : PollStage :=
  let answer := u.uartRXInterruptPending || u.uartTXInterruptPending
  if port = 0 then .draining 1 answer false else .asking uart0 answer

theorem step_take_none {wakes uart0 changed : Bool} {port : Fin 2} {s : LineState}
    (hs : s.stage = .draining port uart0 changed) (hr : (s.board.uarts port).receive = none) :
    s.step wakes .take = some { s with
      board := if changed then s.board.markExternalInterruptDirty else s.board
      stage := afterTaking port uart0 (s.board.uarts port) } := by
  rw [step, hs]
  dsimp only
  rw [hr]
  rfl

theorem step_take_some {u : BiosUARTPort} {wakes uart0 changed : Bool} {port : Fin 2} {s : LineState}
    (hs : s.stage = .draining port uart0 changed) (hr : (s.board.uarts port).receive = some u) : s.step wakes .take =
      some { s with board := s.board.setUart port u, stage := .draining port uart0 true } := by
  rw [step, hs]
  dsimp only
  rw [hr]

theorem run_take (wakes : Bool) (port : Fin 2) (uart0 : Bool) (n : Nat) (s : LineState) (changed : Bool)
    (hs : s.stage = .draining port uart0 changed) (hn : (s.board.uarts port).rounds ≤ n) :
    ∃ k, s.run wakes (replicate k .take) = some { s with
      board := if changed || (BiosUARTPort.receiveAll n (s.board.uarts port)).1 then
          (s.board.setUart port (BiosUARTPort.receiveAll n (s.board.uarts port)).2).markExternalInterruptDirty
        else s.board.setUart port (BiosUARTPort.receiveAll n (s.board.uarts port)).2
      stage := afterTaking port uart0 (BiosUARTPort.receiveAll n (s.board.uarts port)).2 } := by
  have hself : s.board.setUart port (s.board.uarts port) = s.board := by
    unfold setUart
    rw [update_eq_self]
  induction n generalizing s changed with
  | zero =>
    refine ⟨1, ?_⟩
    show (s.step wakes .take).bind _ = _
    rw [step_take_none hs (BiosUARTPort.receive_of_rounds (Nat.le_zero.mp hn))]
    unfold BiosUARTPort.receiveAll
    rw [hself, Bool.or_false]
    rfl
  | succ n ih =>
    unfold BiosUARTPort.receiveAll
    cases hr : (s.board.uarts port).receive with
    | none =>
      refine ⟨1, ?_⟩
      show (s.step wakes .take).bind _ = _
      rw [step_take_none hs hr]
      dsimp only
      rw [hself, Bool.or_false]
      rfl
    | some u =>
      have hu : (s.board.setUart port u).uarts port = u := by
        show update s.board.uarts port u port = u
        rw [update_self]
      have hless := BiosUARTPort.receive_rounds hr
      obtain ⟨k, hk⟩ := ih { s with board := s.board.setUart port u, stage := .draining port uart0 true } true rfl
        (by rw [hu]; omega) (by unfold setUart; rw [update_eq_self])
      refine ⟨k + 1, ?_⟩
      show (s.step wakes .take).bind _ = _
      rw [step_take_some hs hr]
      refine hk.trans ?_
      have htwice (v : BiosUARTPort) : (s.board.setUart port u).setUart port v = s.board.setUart port v := by
        unfold setUart
        rw [update_idem]
      dsimp only
      rw [hu, htwice, Bool.true_or, Bool.or_true]

theorem run_drain (wakes : Bool) (port : Fin 2) (uart0 : Bool) (s : LineState)
    (hs : s.stage = .draining port uart0 false) :
    ∃ k, s.run wakes (replicate k .take) = some { s with
      board := s.board.drainUARTInput port
      stage := afterTaking port uart0 ((s.board.drainUARTInput port).uarts port) } := by
  obtain ⟨k, hk⟩ := run_take wakes port uart0 _ s false hs (Nat.le_refl _)
  refine ⟨k, hk.trans ?_⟩
  rw [drainUARTInput_uarts, update_self, Bool.false_or]
  rfl

/-- **A look that nothing interrupts** is `supervisorExternalInterruptPending`. -/
theorem look_uninterrupted (wakes : Bool) (s : LineState) (hs : s.stage = .idle) :
    ∃ actions, (∀ a ∈ actions, a ∈ [LineAction.look, .swap, .take, .ask, .answer]) ∧
      s.run wakes actions = some { s with board := s.board.supervisorExternalInterruptPending.2 } := by
  obtain ⟨m, mem, unmarked, stage⟩ := s
  cases hs
  cases hdirty : m.externalInterruptDirty with
  | false =>
    have hlook : step wakes ⟨m, mem, unmarked, .idle⟩ .look = some ⟨m, mem, unmarked, .idle⟩ := by
      rw [step, if_pos rfl, hdirty]
      rfl
    refine ⟨[.look], by simp, ?_⟩
    rw [run_cons_of_step hlook, poll_clean hdirty]
    rfl
  | true =>
    have hlook : step wakes ⟨m, mem, unmarked, .idle⟩ .look = some ⟨m, mem, unmarked, .loaded⟩ := by
      rw [step, if_pos rfl, hdirty]
      rfl
    by_cases hclaimed : m.plicClaimed plicSContext ≠ 0
    · have hswap :
          step wakes ⟨m, mem, unmarked, .loaded⟩ .swap = some ⟨m.clearMark, mem, unmarked, .answered false⟩ := by
        rw [step, if_pos rfl, if_pos hclaimed]
        rfl
      refine ⟨[.look, .swap, .answer], by simp, ?_⟩
      rw [run_cons_of_step hlook, run_cons_of_step hswap, poll_claimed hdirty hclaimed]
      rfl
    · -- the input of both ports is taken, then the network device is asked
      have hswap : step wakes ⟨m, mem, unmarked, .loaded⟩ .swap =
          some ⟨m.clearMark, mem, unmarked, .draining 0 false false⟩ := by
        rw [step, if_pos rfl, if_neg hclaimed]
        rfl
      obtain ⟨k, hk⟩ := run_drain wakes 0 false ⟨m.clearMark, mem, unmarked, .draining 0 false false⟩ rfl
      obtain ⟨l, hl⟩ := run_drain wakes 1 (m.clearMark.uartInterruptPendingAt 0).1
        ⟨m.clearMark.drainUARTInput 0, mem, unmarked, .draining 1 (m.clearMark.uartInterruptPendingAt 0).1 false⟩ rfl
      refine ⟨.look :: .swap :: (replicate k .take ++ (replicate l .take ++ [.ask, .answer])), ?_, ?_⟩
      · intro a ha
        simp only [mem_append, mem_cons, mem_replicate, not_mem_nil, or_false] at ha ⊢
        tauto
      · rw [run_cons_of_step hlook, run_cons_of_step hswap, run_append, hk, bind_some, run_append]
        refine (congrArg (fun r => Option.bind r _) hl).trans ?_
        rw [poll_asks hdirty hclaimed]
        rfl

/-- at start both ports are asked -/
theorem look_uninterrupted_start :
    let s := start true true none none (.newGuestMemoryWithModel 20 .sandbox true)
    ∃ actions, (∀ a ∈ actions, a ∈ [LineAction.look, .swap, .take, .ask, .answer]) ∧
      s.run true actions = some { s with board := s.board.supervisorExternalInterruptPending.2 } :=
  look_uninterrupted true _ rfl

/-! ## The invariant -/

/-- the mark is clear and will not be set for what has arrived so far -/
def settled (s : LineState) : Prop := s.board.externalInterruptDirty = false ∧ s.unmarked = 0

/-- what a look has found so far is right, or will be looked at again -/
def Inv (s : LineState) : Prop :=
  match s.stage with
  | .idle => s.settled → s.board.supervisorExternalPending = s.board.line
  | .loaded => s.board.externalInterruptDirty = true
  | .draining port uart0 _ => s.board.plicClaimed plicSContext = 0 ∧ (port = 1 → s.settled →
      s.board.passes plicSContext uart0 (s.board.uarts 1).asks s.board.virtioPending = s.board.line)
  | .asking uart0 uart1 => s.board.plicClaimed plicSContext = 0 ∧ (s.settled →
      s.board.passes plicSContext uart0 uart1 s.board.virtioPending = s.board.line)
  | .answered line => s.settled → line = s.board.line

theorem Inv.coherent {s : LineState} (h : s.Inv) : s.Coherent := by
  intro hstage hdirty hunmarked
  unfold Inv at h
  rw [hstage] at h
  rw [h ⟨hdirty, hunmarked⟩, Bool.eq_iff_iff, decide_eq_true_eq, line_iff]

end LineState

namespace BoardState

theorem line_of_claimed {m : BoardState} (h : m.plicClaimed plicSContext = 0) :
    m.line = m.passes plicSContext (m.uarts 0).asks (m.uarts 1).asks m.virtioPending := by
  rw [Bool.eq_iff_iff, line, decide_eq_true_eq, and_iff_right h]

theorem passes_uart1_mono {ctx : Fin 2} {m : BoardState} {a a' b b' v : Bool}
    (h : m.passes ctx a b v = m.passes ctx a' b v)
    (hb : b = true → b' = true) : m.passes ctx a b' v = m.passes ctx a' b' v := by
  unfold passes at *
  generalize m.gate ctx biosUARTIRQ = g0 at *
  generalize m.gate ctx biosUART1IRQ = g1 at *
  generalize m.gate ctx biosVirtioNetIRQ = g2 at *
  revert a a' b b' v g0 g1 g2
  decide

theorem passes_virtio_mono {ctx : Fin 2} {m : BoardState} {a a' b b' v v' : Bool}
    (h : m.passes ctx a b v = m.passes ctx a' b' v)
    (hv : v = true → v' = true) : m.passes ctx a b v' = m.passes ctx a' b' v' := by
  cases v with
  | true => rw [hv rfl, h]
  | false =>
    cases v' with
    | false => exact h
    | true =>
      unfold passes at *
      simp only [Bool.false_and, Bool.or_false] at h
      rw [h]

/-- what a frame does to the board -/
structure FrameArrived (m m' : BoardState) : Prop where
  priority : m'.plicPriority = m.plicPriority
  enable : m'.plicEnable = m.plicEnable
  threshold : m'.plicThreshold = m.plicThreshold
  claimed : m'.plicClaimed = m.plicClaimed
  uarts : m'.uarts = m.uarts
  dirty : m'.externalInterruptDirty = m.externalInterruptDirty
  cached : m'.supervisorExternalPending = m.supervisorExternalPending
  virtio : m.virtioPending = true → m'.virtioPending = true

end BoardState

theorem VirtioNet.raiseVringInterruptLocked_pending (d : VirtioNet) :
    d.raiseVringInterruptLocked.interruptPending = true := by
  unfold raiseVringInterruptLocked interruptPending virtioMMIOIntVring
  rw [decide_eq_true_eq]
  intro h
  have h : d.interruptStatus ||| 1#32 = 0 := h
  have hbit : (d.interruptStatus ||| 1#32).getLsbD 0 = true := by simp
  rw [h] at hbit
  exact absurd hbit (by decide)

theorem VirtioNet.injectGuestFrame_pending {d : VirtioNet} (f : NetFrame) (mem : GuestMemory)
    (h : d.interruptPending = true) :
    (d.injectGuestFrame f mem).2.1.interruptPending = true := by
  unfold injectGuestFrame
  split_ifs
  · exact h
  · unfold pumpRXLocked
    dsimp only
    split_ifs
    · exact h
    · exact raiseVringInterruptLocked_pending _
    · exact h

theorem BoardState.injectFrame_arrived (m : BoardState) (f : NetFrame) (mem : GuestMemory) :
    FrameArrived m (m.injectFrame f mem).1 := by
  unfold injectFrame
  cases hnet : m.virtioNet with
  | none => exact ⟨rfl, rfl, rfl, rfl, rfl, rfl, rfl, fun h => h⟩
  | some d =>
    refine ⟨rfl, rfl, rfl, rfl, rfl, rfl, rfl, fun h => ?_⟩
    unfold BoardState.virtioPending at h ⊢
    rw [hnet] at h
    exact VirtioNet.injectGuestFrame_pending f mem h

theorem BiosUARTPort.arrive_asks {u : BiosUARTPort} (b : BitVec 8) (h : u.asks = true) : (u.arrive b).asks = true := by
  unfold arrive
  cases hch : u.rxCh with
  | none => exact h
  | some ch =>
    dsimp only
    split_ifs
    · exact h
    · unfold asks waiting at h ⊢
      simp only [hch, Bool.or_eq_true, Bool.and_eq_true] at h ⊢
      refine h.imp_left fun hin => ⟨hin.1, ?_⟩
      simp

namespace LineState

variable {s s' : LineState}

theorem Inv.of_sameLine (h : s.Inv) (hstage : s'.stage = s.stage) (hsame : s.board.SameLine s'.board)
    (hunmarked : s'.unmarked = s.unmarked) : s'.Inv := by
  have hsettled : s'.settled ↔ s.settled := by
    unfold settled
    rw [hsame.dirty, hunmarked]
  unfold Inv at h ⊢
  rw [hstage, hsame.cached, hsame.line, hsame.dirty, hsame.claimed, hsettled, hsame.asks,
    hsame.toSamePlic.virtioPending]
  simp only [hsame.toSamePlic.passes]
  exact h

theorem Inv.of_unsettled (h : s.Inv) (hstage : s'.stage = s.stage)
    (hclaimed : s'.board.plicClaimed = s.board.plicClaimed)
    (hdirty : s.board.externalInterruptDirty = true → s'.board.externalInterruptDirty = true) (hun : ¬ s'.settled) :
    s'.Inv := by
  unfold Inv at h ⊢
  rw [hstage, hclaimed]
  cases hs : s.stage with
  | idle => exact fun hset => absurd hset hun
  | loaded =>
    rw [hs] at h
    exact hdirty h
  | draining port uart0 changed =>
    rw [hs] at h
    exact ⟨h.1, fun _ hset => absurd hset hun⟩
  | asking uart0 uart1 =>
    rw [hs] at h
    exact ⟨h.1, fun hset => absurd hset hun⟩
  | answered line => exact fun hset => absurd hset hun

theorem Heard.settled {wakes : Bool} {a : LineAction} (h : s.Heard wakes a) (hsilent : silent wakes a = true)
    (hsettled : s.settled) : notYet s.stage a = true ∨ (s.arrived a).line = s.board.line := by
  obtain hdirty | hunmarked | hrest := h hsilent
  · exact absurd (hsettled.1.symm.trans hdirty) (by decide)
  · exact absurd hsettled.2 (Nat.ne_of_gt hunmarked)
  · exact hrest

theorem Inv.of_byte {wakes : Bool} {b : BitVec 8} (h : s.Inv) (hheard : s.Heard wakes (.byte 1 b)) :
    Inv { s with board := s.board.setUart 1 ((s.board.uarts 1).arrive b) } := by
  have hline (hset : s.settled) := hheard.settled rfl hset
  unfold Inv at h ⊢
  dsimp only
  cases hs : s.stage with
  | idle =>
    rw [hs] at h
    intro hset
    obtain hnot | hsame := hline hset
    · simp [notYet, hs] at hnot
    · exact (h hset).trans hsame.symm
  | loaded =>
    rw [hs] at h
    exact h
  | draining port uart0 changed =>
    rw [hs] at h
    refine ⟨h.1, fun hport hset => ?_⟩
    have hbefore := h.2 hport hset
    rw [line_of_claimed h.1] at hbefore
    rw [line_of_claimed (m := s.board.setUart 1 ((s.board.uarts 1).arrive b)) h.1]
    exact passes_uart1_mono hbefore fun hasks => BiosUARTPort.arrive_asks b hasks
  | asking uart0 uart1 =>
    rw [hs] at h
    refine ⟨h.1, fun hset => ?_⟩
    obtain hnot | hsame := hline hset
    · simp [notYet, hs] at hnot
    · exact (h.2 hset).trans hsame.symm
  | answered line =>
    rw [hs] at h
    intro hset
    obtain hnot | hsame := hline hset
    · simp [notYet, hs] at hnot
    · exact (h hset).trans hsame.symm

theorem Inv.of_frame {wakes : Bool} {f : NetFrame} (h : s.Inv) (hsilent : silent wakes (.frame f) = true)
    (hheard : s.Heard wakes (.frame f)) :
    Inv { s with board := (s.board.injectFrame f s.mem).1, mem := (s.board.injectFrame f s.mem).2 } := by
  have hline (hset : s.settled) :
      notYet s.stage (.frame f) = true ∨ (s.board.injectFrame f s.mem).1.line = s.board.line :=
    hheard.settled hsilent hset
  have harrived := s.board.injectFrame_arrived f s.mem
  generalize (s.board.injectFrame f s.mem).2 = mem'
  generalize (s.board.injectFrame f s.mem).1 = m' at hline harrived
  have hset' (hset : settled { s with board := m', mem := mem' }) : s.settled := ⟨harrived.dirty ▸ hset.1, hset.2⟩
  have hpasses (a b v : Bool) : m'.passes plicSContext a b v = s.board.passes plicSContext a b v := by
    unfold BoardState.passes BoardState.gate
    rw [harrived.enable, harrived.threshold, harrived.priority]
  unfold Inv at h ⊢
  dsimp only
  cases hs : s.stage with
  | idle =>
    rw [hs] at h
    intro hset
    obtain hnot | hsame := hline (hset' hset)
    · simp [notYet, hs] at hnot
    · exact harrived.cached.trans ((h (hset' hset)).trans hsame.symm)
  | loaded =>
    rw [hs] at h
    exact harrived.dirty.trans h
  | draining port uart0 changed =>
    rw [hs] at h
    have hclaimed : m'.plicClaimed plicSContext = 0 := harrived.claimed ▸ h.1
    refine ⟨hclaimed, fun hport hset => ?_⟩
    have hbefore := h.2 hport (hset' hset)
    rw [line_of_claimed h.1] at hbefore
    rw [line_of_claimed hclaimed, hpasses, hpasses, harrived.uarts]
    exact passes_virtio_mono hbefore harrived.virtio
  | asking uart0 uart1 =>
    rw [hs] at h
    have hclaimed : m'.plicClaimed plicSContext = 0 := harrived.claimed ▸ h.1
    refine ⟨hclaimed, fun hset => ?_⟩
    have hbefore := h.2 (hset' hset)
    rw [line_of_claimed h.1] at hbefore
    rw [line_of_claimed hclaimed, hpasses, hpasses, harrived.uarts]
    exact passes_virtio_mono hbefore harrived.virtio
  | answered line =>
    rw [hs] at h
    intro hset
    obtain hnot | hsame := hline (hset' hset)
    · simp [notYet, hs] at hnot
    · exact (h (hset' hset)).trans hsame.symm

theorem Inv.of_quiet {m' : BoardState} {mem' : GuestMemory} (h : s.Inv) (hstage : s.stage = .idle)
    (hquiet : s.board.Quiet m') :
    Inv { s with board := m', mem := mem' } := by
  obtain hdirty | hsame := hquiet
  · unfold Inv
    rw [show ({ s with board := m', mem := mem' } : LineState).stage = .idle from hstage]
    exact fun hset => absurd (hset.1.symm.trans hdirty) (by decide)
  · exact h.of_sameLine rfl hsame rfl

theorem Inv.of_swap {wakes : Bool} (hstep : s.step wakes .swap = some s') : s'.Inv := by
  rw [step] at hstep
  split_ifs at hstep with hstage hclaimed
  · cases hstep
    intro _
    show false = BoardState.line _
    rw [eq_comm, BoardState.line, decide_eq_false_iff_not]
    exact fun h => hclaimed h.1
  · cases hstep
    exact ⟨not_not.mp hclaimed, fun hport => absurd hport (by decide)⟩

theorem Inv.of_marked (hdirty : s.board.externalInterruptDirty = true)
    (hstage : (∃ port uart0 changed, s.stage = .draining port uart0 changed ∧ s.board.plicClaimed plicSContext = 0) ∨
      ∃ uart0 uart1, s.stage = .asking uart0 uart1 ∧ s.board.plicClaimed plicSContext = 0) : s.Inv := by
  have hun (hset : s.settled) : False := absurd (hset.1.symm.trans hdirty) (by decide)
  unfold Inv
  obtain ⟨port, uart0, changed, hs, hclaimed⟩ | ⟨uart0, uart1, hs, hclaimed⟩ := hstage
  · rw [hs]
    exact ⟨hclaimed, fun _ hset => (hun hset).elim⟩
  · rw [hs]
    exact ⟨hclaimed, fun hset => (hun hset).elim⟩

theorem Inv.of_take {wakes : Bool} (h : s.Inv) (hstep : s.step wakes .take = some s') : s'.Inv := by
  unfold step at hstep
  cases hs : s.stage with
  | idle => simp [hs] at hstep
  | loaded => simp [hs] at hstep
  | asking uart0 uart1 => simp [hs] at hstep
  | answered line => simp [hs] at hstep
  | draining port uart0 changed =>
    simp only [hs] at hstep
    have hinv := h
    unfold Inv at hinv
    rw [hs] at hinv
    cases hr : (s.board.uarts port).receive with
    | some u =>
      simp only [hr] at hstep
      cases hstep
      have hsame := setUart_sameLine (m := s.board) (i := port) (BiosUARTPort.receive_same hr).asks
      have hkeep : Inv { s with board := s.board.setUart port u } := h.of_sameLine rfl hsame rfl
      unfold Inv at hkeep ⊢
      dsimp only at hkeep ⊢
      rw [hs] at hkeep
      exact hkeep
    | none =>
      simp only [hr] at hstep
      cases hstep
      have hanswer := BiosUARTPort.asks_of_receive_none hr
      obtain rfl | rfl : port = 0 ∨ port = 1 := by omega
      · cases changed with
        | true => exact Inv.of_marked rfl (.inl ⟨_, _, _, rfl, hinv.1⟩)
        | false =>
          refine ⟨hinv.1, fun _ hset => ?_⟩
          rw [← hanswer]
          exact (line_of_claimed hinv.1).symm
      · cases changed with
        | true => exact Inv.of_marked rfl (.inr ⟨_, _, rfl, hinv.1⟩)
        | false =>
          refine ⟨hinv.1, fun hset => ?_⟩
          rw [← hanswer]
          exact hinv.2 rfl hset

theorem Inv.of_ask {wakes : Bool} (h : s.Inv) (hstep : s.step wakes .ask = some s') : s'.Inv := by
  unfold step at hstep
  cases hs : s.stage with
  | idle => simp [hs] at hstep
  | loaded => simp [hs] at hstep
  | draining port uart0 changed => simp [hs] at hstep
  | answered line => simp [hs] at hstep
  | asking uart0 uart1 =>
    simp only [hs] at hstep
    cases hstep
    unfold Inv at h ⊢
    rw [hs] at h
    intro hset
    rw [← h.2 hset, Bool.eq_iff_iff, decide_eq_true_eq]
    exact s.board.plicSelect_ne_zero_iff plicSContext uart0 uart1 _

theorem Inv.of_answer {wakes : Bool} (h : s.Inv) (hstep : s.step wakes .answer = some s') : s'.Inv := by
  unfold step at hstep
  cases hs : s.stage with
  | idle => simp [hs] at hstep
  | loaded => simp [hs] at hstep
  | draining port uart0 changed => simp [hs] at hstep
  | asking uart0 uart1 => simp [hs] at hstep
  | answered line =>
    simp only [hs] at hstep
    cases hstep
    unfold Inv at h ⊢
    rw [hs] at h
    exact h

theorem step_inv {wakes : Bool} {a : LineAction} (h : s.Inv) (hheard : s.Heard wakes a)
    (hstep : s.step wakes a = some s') :
    s'.Inv := by
  cases a with
  | load addr width =>
    rw [step] at hstep
    split_ifs at hstep with hstage
    cases hstep
    exact h.of_quiet hstage (s.board.load_quiet addr width)
  | store addr width value =>
    rw [step] at hstep
    split_ifs at hstep with hstage
    cases hstep
    exact h.of_quiet hstage (s.board.store_quiet addr width value s.mem)
  | advance ticks =>
    rw [step] at hstep
    split_ifs at hstep with hstage
    cases hstep
    exact h.of_sameLine rfl ⟨⟨rfl, rfl, rfl, rfl, rfl⟩, fun _ => rfl, rfl, rfl⟩ rfl
  | guest mem =>
    rw [step] at hstep
    split_ifs at hstep with hstage
    cases hstep
    exact h.of_sameLine rfl (.refl _) rfl
  | look =>
    rw [step] at hstep
    split_ifs at hstep with hstage hdirty
    · cases hstep
      exact hdirty
    · cases hstep
      exact h
  | swap => exact Inv.of_swap hstep
  | take => exact h.of_take hstep
  | ask => exact h.of_ask hstep
  | answer => exact h.of_answer hstep
  | byte port b =>
    rw [step] at hstep
    split_ifs at hstep with hroom hport
    · cases hstep
      exact h.of_unsettled rfl rfl (fun hdirty => hdirty) fun hset => absurd hset.2 (Nat.succ_ne_zero _)
    · cases hstep
      obtain rfl : port = 1 := by omega
      exact h.of_byte hheard
  | close =>
    rw [step] at hstep
    cases hstep
    exact h.of_unsettled rfl rfl (fun hdirty => hdirty) fun hset => absurd hset.2 (Nat.succ_ne_zero _)
  | frame f =>
    have harrived := s.board.injectFrame_arrived f s.mem
    rw [step] at hstep
    split_ifs at hstep with hnet hmark
    · cases hstep
      exact h.of_unsettled rfl harrived.claimed (fun hdirty => harrived.dirty.trans hdirty) fun hset =>
        absurd hset.2 (Nat.succ_ne_zero _)
    · cases hstep
      exact h.of_frame (by rw [silent, Bool.eq_false_of_not_eq_true hmark, Bool.not_false]) hheard
  | mark =>
    rw [step] at hstep
    split_ifs at hstep with hunmarked
    cases hstep
    exact h.of_unsettled rfl rfl (fun _ => rfl) fun hset => absurd hset.1 (by simp [markExternalInterruptDirty])

theorem run_inv {wakes : Bool} {actions : List LineAction} (h : s.Inv) (hheard : s.HeardRun wakes actions)
    (hrun : s.run wakes actions = some s') : s'.Inv := by
  induction actions generalizing s with
  | nil =>
    cases hrun
    exact h
  | cons a rest ih =>
    obtain ⟨t, hstep, hrest⟩ := bind_eq_some_iff.mp hrun
    exact ih (step_inv h hheard.1 hstep) (hheard.2 t hstep) hrest

theorem start_inv (stdin consoleSockets : Bool) (hostio : Option HostIODevice) (virtioNet : Option VirtioNet)
    (mem : GuestMemory) : (start stdin consoleSockets hostio virtioNet mem).Inv :=
  fun hset => absurd hset.1 (by simp [start, newBiosMmio])

/-- between two CPU steps an arrival without a mark keeps the cache right just if it is heard -/
theorem silent_coherent_iff {wakes : Bool} {a : LineAction} (h : s.Inv) (hstage : s.stage = .idle)
    (hsilent : silent wakes a = true) (hstep : s.step wakes a = some s') : s'.Coherent ↔ s.Heard wakes a := by
  -- the arrival leaves the stage, the mark, the cache and the number of marks to be set alone
  have hsame : s'.stage = .idle ∧ s'.unmarked = s.unmarked ∧ s'.board = s.arrived a ∧
      s'.board.externalInterruptDirty = s.board.externalInterruptDirty ∧
      s'.board.supervisorExternalPending = s.board.supervisorExternalPending := by
    cases a with
    | byte port b =>
      rw [step] at hstep
      split_ifs at hstep with hroom hport
      · exact absurd hsilent (by simp [silent, hport])
      · cases hstep
        exact ⟨hstage, rfl, rfl, rfl, rfl⟩
    | frame f =>
      have harrived := s.board.injectFrame_arrived f s.mem
      rw [step] at hstep
      split_ifs at hstep with hnet hmark
      · exact absurd hsilent (by rw [silent, hmark]; decide)
      · cases hstep
        exact ⟨hstage, rfl, rfl, harrived.dirty, harrived.cached⟩
    | _ => exact absurd hsilent (by simp [silent])
  obtain ⟨hstage', hunmarked, hboard, hdirty, hcached⟩ := hsame
  have hnot : notYet s.stage a = false := by
    rw [hstage]
    cases a <;> rfl
  unfold Inv at h
  rw [hstage] at h
  constructor
  · intro hcoherent _
    by_cases hset : s.settled
    · refine .inr (.inr (.inr ?_))
      have hafter := hcoherent hstage' (hdirty.trans hset.1) (hunmarked.trans hset.2)
      rw [hcached, h hset, hboard] at hafter
      rw [hafter, Bool.eq_iff_iff, decide_eq_true_eq, line_iff]
    · rw [settled, not_and_or, Bool.not_eq_false] at hset
      exact hset.imp_right fun hne => .inl (Nat.pos_of_ne_zero hne)
  · intro hheard _ hclear hnone
    have hset : s.settled := ⟨hdirty.symm.trans hclear, hunmarked.symm.trans hnone⟩
    obtain hnotYet | hline := hheard.settled hsilent hset
    · exact absurd (hnot.symm.trans hnotYet) (by decide)
    · rw [hcached, h hset, ← hline, hboard, Bool.eq_iff_iff, decide_eq_true_eq, line_iff]

/-- **The cache and the line.**  In every run in which each arrival without a mark is heard, the cache is right
whenever the mark is clear and no arrival still has to set it; and if one comes between two CPU steps, the cache stays
right just if it is heard. -/
theorem line_coherent (wakes stdin consoleSockets : Bool) (hostio : Option HostIODevice) (virtioNet : Option VirtioNet)
    (mem : GuestMemory) (actions : List LineAction) (s : LineState)
    (hheard : (start stdin consoleSockets hostio virtioNet mem).HeardRun wakes actions)
    (hrun : (start stdin consoleSockets hostio virtioNet mem).run wakes actions = some s) :
    s.Coherent ∧ ∀ a s', s.stage = .idle → silent wakes a = true → s.step wakes a = some s' →
      (s'.Coherent ↔ s.Heard wakes a) := by
  have hinv := run_inv (start_inv stdin consoleSockets hostio virtioNet mem) hheard hrun
  exact ⟨hinv.coherent, fun a s' hstage hsilent hstep => silent_coherent_iff hinv hstage hsilent hstep⟩

/-- the guest enables the receive interrupt of a port for the supervisor, and looks at the line until the mark is clear
-/
def enableInput (uart : BitVec 64) (source : Nat) : List LineAction :=
  [.store (uart + 1) 1 1, .store (biosPLICBase + 4 * BitVec.ofNat 64 source) 4 1,
    .store (biosPLICBase + 0x2080) 4 (1#64 <<< source), .look, .swap, .take, .take, .ask, .answer]

/-- a byte on standard input is seen by the next look -/
theorem line_coherent_stdin : ∃ s, (start true true none none (.newGuestMemoryWithModel 20 .sandbox true)).run true
    (enableInput biosUARTBase biosUARTIRQ ++ [.byte 0 0x41, .mark, .look, .swap, .take, .take, .take, .ask, .answer]) =
      some s ∧
    s.Coherent := by
  have hsome : ((start true true none none (.newGuestMemoryWithModel 20 .sandbox true)).run true
      (enableInput biosUARTBase biosUARTIRQ ++ [.byte 0 0x41, .mark, .look, .swap, .take, .take, .take, .ask,
        .answer])).isSome =
      true := by decide +kernel
  obtain ⟨s, hs⟩ := isSome_iff_exists.mp hsome
  refine ⟨s, hs, (line_coherent true true true none none _ _ s ?_ hs).1⟩
  -- none of these actions is an arrival without a mark
  have hall : ∀ (l : List LineAction) (s : LineState), (∀ a ∈ l, silent true a = false) → s.HeardRun true l := by
    intro l
    induction l with
    | nil => exact fun _ _ => trivial
    | cons a rest ih =>
      intro s h
      refine ⟨fun hsilent => ?_, fun s' _ => ih s' fun a ha => h a (mem_cons_of_mem _ ha)⟩
      exact absurd (hsilent.symm.trans (h a mem_cons_self)) (by decide)
  exact hall _ _ (by decide)

/-- a byte from a console socket while the mark is clear: the cache stays clear though the line is asserted -/
theorem socket_byte_unheard : ∃ s, (start true true none none (.newGuestMemoryWithModel 20 .sandbox true)).run true
    (enableInput biosUART1Base biosUART1IRQ ++ [.byte 1 0x41]) = some s ∧ ¬ s.Coherent ∧
    s.stage = .idle ∧ s.board.externalInterruptDirty = false ∧ s.unmarked = 0 ∧
    s.board.supervisorExternalPending = false ∧ (s.board.plicPendingForContext plicSContext).1 = 11 := by
  have hsome : ∃ s ∈ (start true true none none (.newGuestMemoryWithModel 20 .sandbox true)).run true
      (enableInput biosUART1Base biosUART1IRQ ++ [.byte 1 0x41]),
      s.stage = .idle ∧ s.board.externalInterruptDirty = false ∧ s.unmarked = 0 ∧
      s.board.supervisorExternalPending = false ∧
        (s.board.plicPendingForContext plicSContext).1 = 11 := by decide +kernel
  obtain ⟨s, hs, hfacts⟩ := hsome
  refine ⟨s, hs, fun hcoherent => ?_, hfacts⟩
  obtain ⟨hstage, hdirty, hunmarked, hcached, hline⟩ := hfacts
  have hcache := hcoherent hstage hdirty hunmarked
  rw [hcached, hline] at hcache
  exact absurd hcache (by decide)

end LineState

end RiscvEmu
