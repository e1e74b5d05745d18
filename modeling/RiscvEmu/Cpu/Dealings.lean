/-
What an instruction has to do with memory.

An instruction makes at most one access (`accessOf32`, `accessOf16`): a load or a store that is retried byte by byte
where it is misaligned, or an atomic, which is not. It returns a memory fault exactly if that access does, and leaves
the memory that it leaves (`execInsn_deals`, `stepRVC_deals`).
-/
import RiscvEmu.Cpu.Closed

namespace RiscvEmu

open Exec

/-! ## Accesses -/

/-- the access of an instruction: width in bytes, address, and the value to store -/
inductive InsnAccess
  | load (n : Nat) (addr : BitVec 64)
  | store (n : Nat) (addr v : BitVec 64)
  | lr (n : Nat) (addr : BitVec 64)
  | sc (n : Nat) (addr v : BitVec 64)
  | amo (n : Nat) (addr : BitVec 64) (new : BitVec 64 → BitVec 64)

def loadOnce (n : Nat) (addr : BitVec 64) : MemOp Unit := loadVia (BitVec.ofNat 64 n) addr >>= fun _ => pure ()

/-- a load that is retried byte by byte -/
def loadM (n : Nat) (addr : BitVec 64) : MemOp Unit :=
  orMisaligned (loadOnce n addr) (Bytes.loadBytes load8 (8 * n) addr n >>= fun _ => pure ())

/-- a single byte is not retried -/
def InsnAccess.run : InsnAccess → MemOp Unit
  | .load n addr => if n = 1 then loadOnce 1 addr else loadM n addr
  | .store n addr v => if n = 1 then storeVia 1 addr ((v.setWidth 8).setWidth 64) else storeM n addr
      (v.setWidth (8 * n))
  | .lr n addr => loadOnce n addr
  | .sc n addr v => storeVia (BitVec.ofNat 64 n) addr v
  | .amo n addr new => loadVia (BitVec.ofNat 64 n) addr >>= fun old => storeVia (BitVec.ofNat 64 n) addr (new old)

/-- the access of an atomic; `SC` makes none without a reservation -/
def atomicOf (c : Cpu) (insn : BitVec 32) : Option InsnAccess :=
  let addr := c.x (rs1Of insn)
  let v := c.x (rs2Of insn)
  let word : Bool := funct3Of insn = 2
  let n := if word then 4 else 8
  match funct5Of insn with
  | 0b00010 => some (.lr n addr)
  | 0b00011 =>
    if c.resvValid && c.resvAddr = addr then some
      (.sc n addr (if word then (v.setWidth 32).setWidth 64 else v)) else none
  | f => some (.amo n addr fun old =>
      if word then (amoOpW f (old.setWidth 32) (v.setWidth 32)).setWidth 64 else amoOpD f old v)

section Atomics

variable {c : Cpu} {insn : BitVec 32}

theorem atomicOf_lr (h : funct5Of insn = 0b00010) :
    atomicOf c insn = some (.lr (if decide (funct3Of insn = 2) then 4 else 8) (c.x (rs1Of insn))) := by
  unfold atomicOf
  rw [h]
  rfl

theorem atomicOf_sc (h : funct5Of insn = 0b00011) :
    atomicOf c insn = if c.resvValid && c.resvAddr = c.x (rs1Of insn) then
      some (.sc (if decide (funct3Of insn = 2) then 4 else 8) (c.x (rs1Of insn))
        (if decide (funct3Of insn = 2) then ((c.x (rs2Of insn)).setWidth 32).setWidth 64 else c.x
          (rs2Of insn))) else none := by
  unfold atomicOf
  rw [h]
  rfl

theorem atomicOf_amo (hlr : funct5Of insn ≠ 0b00010) (hsc : funct5Of insn ≠ 0b00011) :
    atomicOf c insn = some (.amo (if decide (funct3Of insn = 2) then 4 else 8) (c.x (rs1Of insn)) fun old =>
      if decide (funct3Of insn = 2) then
        (amoOpW (funct5Of insn) (old.setWidth 32) ((c.x (rs2Of insn)).setWidth 32)).setWidth 64
      else amoOpD (funct5Of insn) old (c.x (rs2Of insn))) := by
  unfold atomicOf
  dsimp only
  split
  case h_1 heq => exact absurd heq hlr
  case h_2 heq => exact absurd heq hsc
  case h_3 => rfl

end Atomics

def loadOf (c : Cpu) (insn : BitVec 32) : Option InsnAccess :=
  let addr := c.x (rs1Of insn) + iimm insn
  match funct3Of insn with
  | 0x0 | 0x4 => some (.load 1 addr)
  | 0x1 | 0x5 => some (.load 2 addr)
  | 0x2 | 0x6 => some (.load 4 addr)
  | 0x3 => some (.load 8 addr)
  | _ => none

def accessOf32 (c : Cpu) (insn : BitVec 32) : Option InsnAccess :=
  match opcodeOf insn with
  | 0x03 => loadOf c insn
  | 0x23 =>
    let addr := c.x (rs1Of insn) + simm insn
    match funct3Of insn with
    | 0x0 => some (.store 1 addr (c.x (rs2Of insn)))
    | 0x1 => some (.store 2 addr (c.x (rs2Of insn)))
    | 0x2 => some (.store 4 addr (c.x (rs2Of insn)))
    | 0x3 => some (.store 8 addr (c.x (rs2Of insn)))
    | _ => none
  | 0x2F => atomicOf c insn
  | 0x07 =>
    if !c.fpEnabled then none
    else match funct3Of insn with
      | 0b010 => some (.load 4 (c.x (rs1Of insn) + iimm insn))
      | 0b011 => some (.load 8 (c.x (rs1Of insn) + iimm insn))
      | _ => none
  | 0x27 =>
    if !c.fpEnabled then none
    else match funct3Of insn with
      | 0b010 => some (.store 4 (c.x (rs1Of insn) + simm insn) (c.f (rs2Of insn)))
      | 0b011 => some (.store 8 (c.x (rs1Of insn) + simm insn) (c.f (rs2Of insn)))
      | _ => none
  | _ => none

open Rvc in
def accessOf16 (c : Cpu) (insn : BitVec 16) : Option InsnAccess :=
  match quad insn with
  | 0x0 =>
    match funct3 insn with
    | 0b001 => some (.load 8 (c.x (rp7 insn) + dwordImm insn))
    | 0b010 => some (.load 4 (c.x (rp7 insn) + wordImm insn))
    | 0b011 => some (.load 8 (c.x (rp7 insn) + dwordImm insn))
    | 0b101 => some (.store 8 (c.x (rp7 insn) + dwordImm insn) (c.f (rp2 insn)))
    | 0b110 => some (.store 4 (c.x (rp7 insn) + wordImm insn) (c.x (rp2 insn)))
    | 0b111 => some (.store 8 (c.x (rp7 insn) + dwordImm insn) (c.x (rp2 insn)))
    | _ => none
  | 0x2 =>
    match funct3 insn with
    | 0b001 => some (.load 8 (c.x 2 + ldspImm insn))
    | 0b010 => some (.load 4 (c.x 2 + lwspImm insn))
    | 0b011 => some (.load 8 (c.x 2 + ldspImm insn))
    | 0b101 => some (.store 8 (c.x 2 + sdspImm insn) (c.f (rf2 insn)))
    | 0b110 => some (.store 4 (c.x 2 + swspImm insn) (c.x (rf2 insn)))
    | 0b111 => some (.store 8 (c.x 2 + sdspImm insn) (c.x (rf2 insn)))
    | _ => none
  | _ => none

def accessOf (c : Cpu) : Fetched → Option InsnAccess
  | .half insn => accessOf16 c insn
  | .word insn => accessOf32 c insn

/-! ## Loads

The access of a load is the load without its value. -/

variable (addr : BitVec 64)

theorem run_load8 : InsnAccess.run (.load 1 addr) = forget (load8 addr) :=
  (forget_bind_pure (loadVia 1 addr) fun v => v.setWidth 8).symm

theorem run_load16M : InsnAccess.run (.load 2 addr) = forget (load16M addr) := by
  rw [load16M, orMisaligned, forget_onError, load16, forget_bind_pure]
  rfl

theorem run_load32M : InsnAccess.run (.load 4 addr) = forget (load32M addr) := by
  rw [load32M, orMisaligned, forget_onError, load32, forget_bind_pure]
  rfl

theorem run_load64M : InsnAccess.run (.load 8 addr) = forget (load64M addr) := by
  rw [load64M, orMisaligned, forget_onError]
  rfl

theorem run_amoLoad (word : Bool) (addr : BitVec 64) :
    InsnAccess.run (.lr (if word then 4 else 8) addr) = forget (amoLoad word addr) := by
  cases word with
  | true =>
    change forget (loadVia 4 addr) = forget (load32 addr >>= fun v => pure (v.signExtend 64))
    rw [forget_bind_pure, load32, forget_bind_pure]
  | false => rfl

theorem run_amoW (g : BitVec 32 → BitVec 32) :
    InsnAccess.run (.amo 4 addr fun old => (g (old.setWidth 32)).setWidth 64) =
      load32 addr >>= fun old => store32 addr (g old) := by
  funext c
  unfold load32
  rcases hr : loadVia 4 addr c with ⟨e | v, s⟩
  · exact (bind_of_error hr).trans (bind_of_error (bind_of_error hr)).symm
  · have hok : (loadVia 4 addr >>= fun v => pure (v.setWidth 32) : MemOp (BitVec 32)) c = (.ok (v.setWidth 32), s) :=
      bind_of_ok hr
    have hamo : InsnAccess.run (.amo 4 addr fun old => (g (old.setWidth 32)).setWidth 64) c =
        store32 addr (g (v.setWidth 32)) s := bind_of_ok hr
    rw [hamo, bind_of_ok hok]

/-! ## Faults and memory -/

/-- `Q` of the memory faults among the errors -/
def OnFault (Q : MemFault → Prop) (e : StepError) : Prop := ∀ f, e = .memFault f → Q f

/-- what a computation has to do with memory: the fault it returns and the state it returns it in, or
the memory it leaves -/
def dealt {α : Type} (m : Step α) (c : Cpu) : (MemFault × Cpu) ⊕ GuestMemory :=
  match m c with
  | (.error (.memFault f), s) => .inl (f, s)
  | (_, s) => .inr s.mem

/-- … and what an access has -/
def dealtBy (c : Cpu) : Option InsnAccess → (MemFault × Cpu) ⊕ GuestMemory
  | none => .inr c.mem
  | some x => dealt x.run.lift c

/-- the computation deals with memory as the access does -/
def Deals (c : Cpu) (m : Step Unit) (a : Option InsnAccess) : Prop := dealt m c = dealtBy c a

/-- the faults of an instruction are those of its access -/
def FaultsOf (Q : MemFault → Prop) (c : Cpu) (a : Option InsnAccess) : Prop := ∀ x, a = some x → ErrAt Q x.run c

section Rules

variable {α : Type} {c : Cpu}

theorem dealt_of_fault {m : Step α} {f : MemFault} {s : Cpu} (h : m c = (.error (.memFault f), s)) :
    dealt m c = .inl (f, s) := by
  rw [dealt, h]

theorem dealt_inl_iff {m : Step α} {f : MemFault} {s : Cpu} :
    dealt m c = .inl (f, s) ↔ m c = (.error (.memFault f), s) := by
  refine ⟨fun h => ?_, dealt_of_fault⟩
  unfold dealt at h
  split at h
  · rename_i hr
    cases h
    exact hr
  · cases h

theorem dealt_bind {m : Step α} {k : α → Step Unit} (hk : ∀ a s, dealt (k a) s = .inr s.mem) :
    dealt (m >>= k) c = dealt m c := by
  rcases hr : m c with ⟨e | a, s⟩
  · unfold dealt
    rw [bind_of_error hr, hr]
    cases e <;> rfl
  · have h := hk a s
    unfold dealt at h ⊢
    rw [bind_of_ok hr, hr]
    exact h

theorem dealt_forget (m : MemOp α) : dealt (MemOp.lift (forget m)) c = dealt m.lift c := by
  unfold dealt
  rcases hr : m c with ⟨e | a, s⟩
  · have hf : forget m c = (.error e, s) := bind_of_error hr
    rw [lift_of_error hf, lift_of_error hr]
  · have hf : forget m c = (.ok (), s) := bind_of_ok hr
    rw [lift_of_ok hf, lift_of_ok hr]

theorem deals_load {m : MemOp α} {k : α → Step Unit} {x : InsnAccess} (hx : x.run = forget m)
    (hk : ∀ a s, dealt (k a) s = .inr s.mem) : Deals c (m.lift >>= k) (some x) := by
  change dealt (m.lift >>= k) c = dealt x.run.lift c
  rw [dealt_bind hk, hx, dealt_forget]

theorem dealt_amo (m : MemOp α) (st : α → MemOp Unit) {k : α → Unit → Step Unit}
    (hk : ∀ a u s, dealt (k a u) s = .inr s.mem) :
    dealt (m.lift >>= fun old => (st old).lift >>= k old) c = dealt (MemOp.lift (m >>= st)) c := by
  rcases hr : m c with ⟨e | a, s⟩
  · unfold dealt
    rw [bind_of_error (lift_of_error hr), lift_of_error (bind_of_error hr)]
  · have hst : MemOp.lift (m >>= st) c = (st a).lift s := by
      unfold MemOp.lift Exec.mapErr
      rw [bind_of_ok hr]
    have h := dealt_bind (m := (st a).lift) (c := s) (hk a)
    unfold dealt at h ⊢
    rw [bind_of_ok (lift_of_ok hr), hst]
    exact h

theorem deals_store64M (addr v : BitVec 64) : Deals c (store64M addr v).lift (some (.store 8 addr v)) := by
  rw [store64M_eq, ← BitVec.setWidth_eq v, BitVec.setWidth_eq]
  rfl

theorem deals_gets_bind {f : Cpu → α} {k : α → Step Unit} {a : Option InsnAccess} :
    Deals c (Exec.gets f >>= k) a ↔ Deals c (k (f c)) a := Iff.rfl

theorem deals_illegal : Deals c illegal none := rfl

theorem deals_fallThrough {len : BitVec 64} {body : Step Unit} {a : Option InsnAccess} (h : Deals c body a) :
    Deals c (fallThrough len body) a :=
  deals_gets_bind.2 ((dealt_bind (m := body) fun _ _ => rfl).trans h)

theorem deals_quiet {m : Step Unit} (h : Obeys (fun s => s.mem = c.mem) (OnFault fun _ => False) m) :
    Deals c m none := by
  obtain ⟨hm, hq⟩ := h c rfl
  change dealt m c = .inr c.mem
  unfold dealt
  split
  · rename_i f s hr
    exact (hq _ (congrArg Prod.fst hr) f rfl).elim
  · rename_i hr
    rw [hr] at hm
    exact congrArg Sum.inr hm

theorem lift_fault_iff {m : MemOp α} {f : MemFault} {s : Cpu} :
    m.lift c = (.error (.memFault f), s) ↔ m c = (.error f, s) := by
  refine ⟨fun h => ?_, lift_of_error⟩
  rcases hr : m c with ⟨g | a, t⟩
  · rw [lift_of_error hr] at h
    cases h
    rfl
  · rw [lift_of_ok hr] at h
    cases h

namespace Deals

variable {m : Step Unit} {a : Option InsnAccess} {f : MemFault} {c' : Cpu}

/-- **Faults of an instruction.** They are those of its access, in the state in which the access has ended. -/
theorem fault_iff (h : Deals c m a) :
    m c = (.error (.memFault f), c') ↔ ∃ x, a = some x ∧ x.run c = (.error f, c') := by
  rw [← dealt_inl_iff, h]
  cases a with
  | none => exact ⟨fun hf => (nomatch hf), fun ⟨_, hx, _⟩ => (nomatch hx)⟩
  | some x =>
    rw [dealtBy, dealt_inl_iff, lift_fault_iff]
    exact ⟨fun hx => ⟨x, rfl, hx⟩, fun ⟨_, hy, hx⟩ => Option.some.inj hy ▸ hx⟩

theorem errAt {Q : MemFault → Prop} (h : Deals c m a) : ErrAt (OnFault Q) m c ↔ FaultsOf Q c a := by
  constructor
  · intro hm x hx f c' hf
    exact hm _ c' (h.fault_iff.2 ⟨x, hx, hf⟩) f rfl
  · rintro hq e c' he f rfl
    obtain ⟨x, hx, hf⟩ := h.fault_iff.1 he
    exact hq x hx f c' hf

end Deals

end Rules

/-! ## Instructions without an access -/

theorem trapToPrivilegedAt_mem (c : Cpu) (pc cause tval : BitVec 64) (len : BitVec 8) :
    (c.trapToPrivilegedAt pc cause tval len).2.mem = c.mem := by
  unfold Cpu.trapToPrivilegedAt Cpu.trapToMachineAt
  dsimp only
  split_ifs <;> rfl

theorem sameMem_coreClosed (m : GuestMemory) : CoreClosed (fun c => c.mem = m) (OnFault fun _ => False) where
  reg _ _ _ h := h
  freg _ _ _ h := h
  resv _ _ h := h
  noResv _ h := h
  note _ _ _ h := h
  wfi _ _ h := h
  flags _ _ h := h
  dirty _ h := h
  next _ _ _ _ h _ := h
  jump _ _ h := h
  flush _ h _ := h
  trap c cause tval len h _ := (trapToPrivilegedAt_mem c c.pc cause tval len).trans h
  illegal _ hf := nomatch hf
  unhandled _ _ _ _ _ := ⟨fun _ => (nomatch ·), fun _ => (nomatch ·)⟩

theorem sameMem_special {m : GuestMemory} {c : Cpu} (hc : c.mem = m) (insn : BitVec 32) :
    SpecialWord (fun s => s.mem = m) (OnFault fun _ => False) c insn where
  csr _ := keeps_execCsr (P := fun s => s.mem = m) (fun _ _ _ h => h)
    (fun s a v h _ _ => (writeCSR_frame s a v).1.trans h) insn c hc
  mret _ _ := hc
  sret _ _ := hc
  ebreak _ _ _ hf := nomatch hf

/-! ## Instructions -/

section Instructions

variable {c : Cpu} (insn : BitVec 32)

theorem execLoad_deals : Deals c (execLoad insn) (loadOf c insn) := by
  unfold execLoad loadOf
  rw [deals_gets_bind]
  generalize c.x (rs1Of insn) + iimm insn = addr
  rcases funct3_cases (funct3Of insn) with h | h | h | h | h | h | h | h <;> rw [h]
  · exact deals_load (run_load8 addr) fun _ _ => rfl
  · exact deals_load (run_load16M addr) fun _ _ => rfl
  · exact deals_load (run_load32M addr) fun _ _ => rfl
  · exact deals_load (run_load64M addr) fun _ _ => rfl
  · exact deals_load (run_load8 addr) fun _ _ => rfl
  · exact deals_load (run_load16M addr) fun _ _ => rfl
  · exact deals_load (run_load32M addr) fun _ _ => rfl
  · exact deals_illegal

theorem execStore_deals (ho : opcodeOf insn = 0x23#7) :
    Deals c (execStore insn) (accessOf32 c insn) := by
  unfold execStore accessOf32
  rw [deals_gets_bind, deals_gets_bind, ho]
  dsimp only
  generalize c.x (rs1Of insn) + simm insn = addr
  generalize c.x (rs2Of insn) = v
  rcases funct3_cases (funct3Of insn) with h | h | h | h | h | h | h | h <;> rw [h]
  case inr.inr.inr.inl => exact deals_store64M addr v
  all_goals rfl

theorem amoStore_eq (word : Bool) (addr v : BitVec 64) : amoStore word addr v =
    InsnAccess.run (.sc (if word then 4 else 8) addr (if word then (v.setWidth 32).setWidth 64 else v)) := by
  cases word <;> rfl

theorem execAmo_deals : Deals c (execAmo insn) (atomicOf c insn) := by
  unfold execAmo
  rw [deals_gets_bind, deals_gets_bind]
  dsimp only
  split
  case h_1 heq =>
    rw [atomicOf_lr heq]
    exact deals_load (run_amoLoad _ _) fun _ _ => rfl
  case h_2 heq =>
    rw [atomicOf_sc heq, deals_gets_bind]
    by_cases hr : (c.resvValid && decide (c.resvAddr = c.x (rs1Of insn))) = true
    · rw [if_pos hr, if_pos hr, amoStore_eq]
      exact dealt_bind fun _ _ => rfl
    · rw [if_neg hr, if_neg hr]
      rfl
  case h_3 hlr hsc =>
    rw [atomicOf_amo hlr hsc]
    cases decide (funct3Of insn = 2) with
    | true =>
      refine (dealt_amo (load32 (c.x (rs1Of insn))) _ fun _ _ _ => rfl).trans ?_
      rw [← run_amoW]
      rfl
    | false => exact dealt_amo (load64 (c.x (rs1Of insn))) _ fun _ _ _ => rfl

theorem deals_requireFP {body : Step Unit} {a : Option InsnAccess} (h : Deals c body a) :
    Deals c (requireFP >>= fun _ => body) (if !c.fpEnabled then none else a) := by
  unfold Deals dealt
  by_cases hfp : c.fpEnabled = true
  · rw [hfp, bind_of_ok (requireFP_of_enabled hfp)]
    exact h
  · rw [Bool.not_eq_true] at hfp
    rw [hfp, bind_of_error (requireFP_of_disabled hfp)]
    rfl

theorem execLoadFP_deals (ho : opcodeOf insn = 0x07#7) :
    Deals c (execLoadFP insn) (accessOf32 c insn) := by
  unfold execLoadFP fpDirtying accessOf32
  rw [ho]
  refine deals_requireFP ((dealt_bind fun _ _ => rfl).trans ?_)
  change Deals c _ _
  rw [deals_gets_bind]
  generalize c.x (rs1Of insn) + iimm insn = addr
  rcases funct3_cases (funct3Of insn) with h | h | h | h | h | h | h | h <;> rw [h]
  case inr.inr.inl => exact deals_load (run_load32M addr) fun _ _ => rfl
  case inr.inr.inr.inl => exact deals_load (run_load64M addr) fun _ _ => rfl
  all_goals exact deals_illegal

theorem execStoreFP_deals (ho : opcodeOf insn = 0x27#7) :
    Deals c (execStoreFP insn) (accessOf32 c insn) := by
  unfold execStoreFP accessOf32
  rw [ho]
  refine deals_requireFP ?_
  rw [deals_gets_bind, deals_gets_bind]
  generalize c.x (rs1Of insn) + simm insn = addr
  generalize c.f (rs2Of insn) = v
  rcases funct3_cases (funct3Of insn) with h | h | h | h | h | h | h | h <;> rw [h]
  case inr.inr.inr.inl => exact deals_store64M addr v
  all_goals rfl

theorem accessOf32_none {insn : BitVec 32} (h : opcodeOf insn ∉ [0x03#7, 0x23#7, 0x2F#7, 0x07#7, 0x27#7]) :
    accessOf32 c insn = none := by
  simp only [List.mem_cons, List.not_mem_nil, or_false, not_or] at h
  obtain ⟨h1, h2, h3, h4, h5⟩ := h
  unfold accessOf32
  split
  · exact absurd ‹_› h1
  · exact absurd ‹_› h2
  · exact absurd ‹_› h3
  · exact absurd ‹_› h4
  · exact absurd ‹_› h5
  · rfl

/-- **Memory and an instruction.** A 32-bit instruction has the memory faults of its access, and leaves the memory that
its access leaves. -/
theorem execInsn_deals (fp : HostFP) (insn : BitVec 32) : Deals c (execInsn fp insn) (accessOf32 c insn) := by
  have hcore := sameMem_coreClosed c.mem
  have hnone : ∀ {m : Step Unit}, opcodeOf insn ∉ [0x03#7, 0x23#7, 0x2F#7, 0x07#7, 0x27#7] → Deals c m none →
      Deals c m (accessOf32 c insn) := by
    intro m ho hm
    rw [accessOf32_none ho]
    exact hm
  unfold execInsn
  split
  case h_1 ho =>
    rw [accessOf32, ho]
    exact deals_fallThrough (execLoad_deals insn)
  case h_2 ho => exact deals_fallThrough (execStore_deals insn ho)
  case h_7 ho =>
    rw [accessOf32, ho]
    exact deals_fallThrough (execAmo_deals insn)
  case h_15 ho => exact deals_fallThrough (execLoadFP_deals insn ho)
  case h_16 ho => exact deals_fallThrough (execStoreFP_deals insn ho)
  case h_22 h1 h2 _ _ _ _ h7 _ _ _ _ _ _ _ h15 h16 _ _ _ _ _ =>
    refine hnone ?_ deals_illegal
    simp only [List.mem_cons, List.not_mem_nil, or_false, not_or]
    exact ⟨h1, h2, h7, h15, h16⟩
  case h_3 ho | h_4 ho | h_5 ho | h_6 ho =>
    refine hnone (by rw [ho]; decide) (deals_fallThrough (deals_quiet ?_))
    first
      | exact (Obeys.gets _).bind fun _ => obeys_orIllegal hcore.toRegClosed _ _
      | exact (Obeys.gets _).bind fun _ => (Obeys.gets _).bind fun _ => obeys_orIllegal hcore.toRegClosed _ _
  case h_8 ho | h_9 ho | h_10 ho => exact hnone (by rw [ho]; decide) (deals_fallThrough rfl)
  case h_11 ho | h_12 ho => exact hnone (by rw [ho]; decide) rfl
  case h_13 ho => exact hnone (by rw [ho]; decide) (deals_quiet (obeys_execBranch hcore.toFlowClosed insn))
  case h_14 ho =>
    exact hnone (by rw [ho]; decide) (deals_quiet fun s hs => obeys_execSystem hcore ho hs (sameMem_special hs insn))
  case h_17 ho | h_18 ho | h_19 ho | h_20 ho =>
    exact hnone (by rw [ho]; decide) (deals_fallThrough (deals_quiet (obeys_execFma hcore.toFloatClosed fp insn)))
  case h_21 ho =>
    exact hnone (by rw [ho]; decide) (deals_fallThrough (deals_quiet (obeys_execFp hcore.toFloatClosed fp insn)))

theorem stepRvc0_deals (insn : BitVec 16) (hq : Rvc.quad insn = 0#2) : Deals c (stepRvc0 insn) (accessOf16 c insn) := by
  unfold stepRvc0 accessOf16
  rw [hq]
  dsimp only
  rcases funct3_cases (Rvc.funct3 insn) with h | h | h | h | h | h | h | h <;> rw [h]
  · have hreg := (sameMem_coreClosed c.mem).toRegClosed
    exact deals_quiet (Obeys.ite (Obeys.fail hreg.illegal) (obeys_setRegFrom hreg _ _))
  · exact deals_gets_bind.2 (deals_load (run_load64M _) fun _ _ => rfl)
  · exact deals_gets_bind.2 (deals_load (run_load32M _) fun _ _ => rfl)
  · exact deals_gets_bind.2 (deals_load (run_load64M _) fun _ _ => rfl)
  · exact deals_illegal
  · exact deals_gets_bind.2 (deals_gets_bind.2 (deals_store64M _ _))
  · rfl
  · exact deals_gets_bind.2 (deals_gets_bind.2 (deals_store64M _ _))

theorem stepRvc2_deals (insn : BitVec 16) (hq : Rvc.quad insn = 2#2) : Deals c (stepRvc2 insn) (accessOf16 c insn) := by
  have hcore := sameMem_coreClosed c.mem
  have hset : ∀ rd v, Deals c (fallThrough 2 (setRegFrom rd v)) none := fun rd v =>
    deals_fallThrough (deals_quiet (obeys_setRegFrom hcore.toRegClosed rd v))
  unfold stepRvc2 accessOf16
  rw [hq]
  dsimp only
  rcases funct3_cases (Rvc.funct3 insn) with h | h | h | h | h | h | h | h <;> rw [h]
  · exact hset _ _
  · exact deals_fallThrough (deals_gets_bind.2 (deals_load (run_load64M _) fun _ _ => rfl))
  · exact deals_fallThrough (deals_gets_bind.2 (deals_load (run_load32M _) fun _ _ => rfl))
  · exact deals_fallThrough (deals_gets_bind.2 (deals_load (run_load64M _) fun _ _ => rfl))
  · split_ifs
    · exact deals_illegal
    · rfl
    · exact hset _ _
    · exact deals_quiet fun s hs => obeys_execEbreak hcore hs fun _ _ hf => nomatch hf
    · rfl
    · exact hset _ _
  · exact deals_fallThrough (deals_gets_bind.2 (deals_gets_bind.2 (deals_store64M _ _)))
  · exact deals_fallThrough rfl
  · exact deals_fallThrough (deals_gets_bind.2 (deals_gets_bind.2 (deals_store64M _ _)))

theorem stepRVC_deals (insn : BitVec 16) : Deals c (stepRVC insn) (accessOf16 c insn) := by
  unfold stepRVC
  split
  case h_1 hq => exact deals_fallThrough (stepRvc0_deals insn hq)
  case h_2 hq =>
    rw [accessOf16, hq]
    exact deals_quiet (obeys_stepRvc1 (sameMem_coreClosed c.mem).toFlowClosed insn)
  case h_3 hq => exact stepRvc2_deals insn hq
  case h_4 h0 _ h2 =>
    unfold accessOf16
    split
    · exact absurd ‹_› h0
    · exact absurd ‹_› h2
    · exact deals_illegal

end Instructions

end RiscvEmu
