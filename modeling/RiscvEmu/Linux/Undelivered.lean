/-
What is left behind when a signal cannot be delivered (`jea9linux.go`: `deliverSignal`, `deliverPendingSignals`,
`ensureSignalRestorer`, `writeSignalFrame`).

A delivery writes the frame, notes it in `signalFrames`, finds the page to return through and only then enters the
handler. A frame that cannot be written leaves nothing but bytes of the frame itself (`writeSignalFrame_fills`). The
later failure comes too late: the frame is noted, and the page that was tried has been cleared
(`ensureSignalRestorer_tried`). `deliverPendingSignals` takes the signal off the list before it tries, so that any
failure loses it.

`failed_delivery_iff` says, for all three entry points, when a failure leaves everything else alone.
-/
import RiscvEmu.Linux.FreeRanges
import RiscvEmu.Linux.Pending

namespace RiscvEmu.Linux

open GuestMemory Exec Function Call

variable {s : Sys}

/-! ## Stores into a frame -/

/-- guest memory with other contents -/
def Sys.withBytes (s : Sys) (b : Bytes) : Sys := { s with cpu.mem.bytes := b }

def InFrame (sp p : BitVec 64) : Prop := p - sp < signalFrameSize

/-- nothing but the frame differs -/
def SameOutside (sp : BitVec 64) (b b' : Bytes) : Prop := ∀ p, ¬ InFrame sp p → b' p = b p

theorem SameOutside.refl (sp : BitVec 64) (b : Bytes) : SameOutside sp b b := fun _ _ => rfl

theorem SameOutside.trans {sp : BitVec 64} {b₁ b₂ b₃ : Bytes} (h : SameOutside sp b₁ b₂) (h' : SameOutside sp b₂ b₃) :
    SameOutside sp b₁ b₃ := fun p hp => (h' p hp).trans (h p hp)

/-- an address and a width -/
abbrev Slot := BitVec 64 × BitVec 64

def Storable (m : GuestMemory) (slots : List Slot) : Prop := ∀ e ∈ slots, m.accessFault e.1 e.2 .store = none

/-- the slot lies in the frame at `sp` -/
def SlotIn (sp : BitVec 64) (e : Slot) : Prop := (e.1 - sp).toNat + e.2.toNat ≤ signalFrameSize.toNat

/-- `c` stores to these slots, changes nothing but the frame at `sp`, and fails iff one of them is refused -/
def Fills (sp : BitVec 64) (slots : List Slot) (c : Call Unit) : Prop :=
  ∀ s : Sys, s.cpu.mem.mmio = none → ∃ b, SameOutside sp s.cpu.mem.bytes b ∧ (c s).2 = s.withBytes b ∧
    ((c s).1.isOk ↔ Storable s.cpu.mem slots)

namespace Fills

variable {sp : BitVec 64}

theorem pure : Fills sp [] (Pure.pure () : Call Unit) := fun s _ =>
  ⟨s.cpu.mem.bytes, .refl _ _, rfl, ⟨fun _ _ he => (List.not_mem_nil he).elim, fun _ => rfl⟩⟩

theorem bind {slots slots' : List Slot} {c c' : Call Unit} (h : Fills sp slots c) (h' : Fills sp slots' c') :
    Fills sp (slots ++ slots') (c >>= fun _ => c') := by
  intro s hs
  have happend : Storable s.cpu.mem (slots ++ slots') ↔ Storable s.cpu.mem slots ∧ Storable s.cpu.mem slots' :=
    List.forall_mem_append
  obtain ⟨b, hb, hstate, hok⟩ := h s hs
  rcases hr : c s with ⟨errno | ⟨⟩, s₁⟩
  · rw [hr] at hstate hok
    rw [bind_of_error hr, happend]
    exact ⟨b, hb, hstate, ⟨fun hfalse => (Bool.false_ne_true hfalse).elim, fun hall => hok.2 hall.1⟩⟩
  · rw [hr] at hstate hok
    have hstate : s₁ = s.withBytes b := hstate
    subst hstate
    obtain ⟨b', hb', hstate', hok'⟩ := h' (s.withBytes b) hs
    rw [bind_of_ok hr, happend]
    refine ⟨b', hb.trans hb', hstate', hok'.trans ⟨fun hall => ⟨hok.1 rfl, hall⟩, fun hall => hall.2⟩⟩

theorem when {p : Prop} [Decidable p] {slots : List Slot} {c : Call Unit} (h : Fills sp slots c) :
    Fills sp (if p then slots else []) (Call.when p c) := by
  unfold Call.when
  by_cases hp : p
  · rw [if_pos hp, if_pos hp]
    exact h
  · rw [if_neg hp, if_neg hp]
    exact .pure

theorem outside_slot {e : Slot} (he : SlotIn sp e) {p : BitVec 64} (hp : ¬ InFrame sp p) :
    ¬ (p - e.1).toNat < e.2.toNat := by
  unfold InFrame at hp
  unfold SlotIn at he
  have hsize : signalFrameSize.toNat = 2048 := rfl
  rw [BitVec.lt_def, hsize] at hp
  rw [hsize] at he
  have hsplit : p - e.1 = (p - sp) - (e.1 - sp) := by bv_omega
  rw [hsplit, BitVec.toNat_sub]
  omega

theorem store {e : Slot} (he : SlotIn sp e) (errno v : BitVec 64) :
    Fills sp [e] (mem errno (store e.2 e.1 v)) := by
  intro s hs
  have hone : Storable s.cpu.mem [e] ↔ s.cpu.mem.accessFault e.1 e.2 .store = none := List.forall_mem_singleton
  rw [hone]
  unfold mem
  rw [store_noMmio hs]
  cases hfault : s.cpu.mem.accessFault e.1 e.2 .store with
  | some f => exact ⟨s.cpu.mem.bytes, .refl _ _, rfl, ⟨fun h => (Bool.false_ne_true h).elim, fun h => nomatch h⟩⟩
  | none =>
    refine ⟨_, fun p hp => ?_, rfl, ⟨fun _ => rfl, fun _ => rfl⟩⟩
    have hlt := ((s.cpu.mem.check_eq_zero_iff e.1 e.2).1
        ((s.cpu.mem.accessFault_eq_none_iff e.1 e.2 .store).1 hfault).2).2.1
    rw [hostPtr_of_lt hlt, Bytes.writeLe_apply, if_neg (outside_slot he hp)]

end Fills

/-! ## The frame -/

/-- what `storeJea9LinuxSignalInfo` stores to -/
def infoSlots (addr : BitVec 64) (info : SignalInfo) : List Slot :=
  [(addr, 4)] ++ ([(addr + 4, 4)] ++ ([(addr + 8, 4)] ++ ((if info.addr ≠ 0 then [(addr + 16, 8)] else []) ++
    ((if info.addr = 0 then [(addr + 16, 4)] ++ [(addr + 20, 4)] else []) ++ [(addr + 24, 8)]))))

def regSlots (base : BitVec 64) (regs : List (Fin 32)) :
    List Slot := regs.map fun i => (regSlot base (BitVec.ofFin i), 8)

/-- what a frame at `sp` is made of, behind the bytes that are only cleared -/
def frameSlots (sp : BitVec 64) (info : SignalInfo) : List Slot :=
  infoSlots (sp + signalFrameSiginfoOff) info ++ ([(sp + signalFrameUctxOff + ucontextSigmaskOff, 8)] ++
    regSlots (sp + signalFrameUctxOff + ucontextMContextOff) (List.finRange 32))

theorem storeSignalInfo_fills (sp : BitVec 64) (info : SignalInfo) :
    Fills sp (infoSlots (sp + signalFrameSiginfoOff) info) (storeSignalInfo (sp + signalFrameSiginfoOff) info) := by
  have hin (k w : BitVec 64) (hk : k.toNat + w.toNat ≤ 1920) : SlotIn sp (sp + signalFrameSiginfoOff + k, w) := by
    have hsub : sp + signalFrameSiginfoOff + k - sp = signalFrameSiginfoOff + k := by bv_omega
    have hoff : signalFrameSiginfoOff.toNat = 128 := rfl
    have hsize : signalFrameSize.toNat = 2048 := rfl
    show (sp + signalFrameSiginfoOff + k - sp).toNat + w.toNat ≤ signalFrameSize.toNat
    rw [hsub, BitVec.toNat_add]
    omega
  have hfirst : SlotIn sp (sp + signalFrameSiginfoOff, 4) := by
    have hzero : sp + signalFrameSiginfoOff + 0 = sp + signalFrameSiginfoOff := BitVec.add_zero _
    exact hzero ▸ hin 0 4 (by decide)
  exact (Fills.store hfirst _ _).bind <| (Fills.store (hin 4 4 (by decide)) _ _).bind <|
    (Fills.store (hin 8 4 (by decide)) _ _).bind <| (Fills.store (hin 16 8 (by decide)) _ _).when.bind <|
    ((Fills.store (hin 16 4 (by decide)) _ _).bind (Fills.store (hin 20 4 (by decide)) _ _)).when.bind <|
    Fills.store (hin 24 8 (by decide)) _ _

theorem storeSignalUContext_fills (sp : BitVec 64) (snap : CPUSnapshot) (mask : BitVec 64) :
    Fills sp ([(sp + signalFrameUctxOff + ucontextSigmaskOff, 8)] ++
        regSlots (sp + signalFrameUctxOff + ucontextMContextOff) (List.finRange 32))
      (storeSignalUContext (sp + signalFrameUctxOff) snap mask) := by
  have hsize : signalFrameSize.toNat = 2048 := rfl
  have hmask : SlotIn sp (sp + signalFrameUctxOff + ucontextSigmaskOff, 8) := by
    have hsub : sp + signalFrameUctxOff + ucontextSigmaskOff - sp = 296 := by
      unfold signalFrameUctxOff ucontextSigmaskOff
      bv_omega
    show (sp + signalFrameUctxOff + ucontextSigmaskOff - sp).toNat + (8 : BitVec 64).toNat ≤ signalFrameSize.toNat
    rw [hsub]
    decide
  have hreg (i : Fin 32) : SlotIn sp (regSlot (sp + signalFrameUctxOff + ucontextMContextOff) (BitVec.ofFin i), 8) := by
    have hsub : regSlot (sp + signalFrameUctxOff + ucontextMContextOff) (BitVec.ofFin i) - sp
        = 432 + (BitVec.ofFin i : BitVec 5).setWidth 64 * 8 := by
      unfold regSlot signalFrameUctxOff ucontextMContextOff
      bv_omega
    have hi : (BitVec.ofFin i : BitVec 5).toNat < 32 := (BitVec.ofFin i : BitVec 5).isLt
    have height : (8 : BitVec 64).toNat = 8 := rfl
    show (regSlot (sp + signalFrameUctxOff + ucontextMContextOff) (BitVec.ofFin i) - sp).toNat + (8 : BitVec 64).toNat
      ≤ signalFrameSize.toNat
    rw [hsub, BitVec.toNat_add, BitVec.toNat_mul, BitVec.toNat_setWidth, hsize, height]
    have h432 : (432 : BitVec 64).toNat = 432 := rfl
    omega
  refine (Fills.store hmask _ _).bind ?_
  unfold forRegs
  -- one word per register; the list of registers is what the induction is on
  generalize List.finRange 32 = regs
  induction regs with
  | nil => exact .pure
  | cons i regs ih =>
    have hword := (Fills.store (hreg i) errEFAULT (signalRegs snap (BitVec.ofFin i))).bind Fills.pure
    exact hword.bind ih

/-- the frame below the stack that the handler is to run on -/
def frameOf (s : Sys) (ctx : Context) (info : SignalInfo) : BitVec 64 :=
  frameBelow (frameStackTop s ctx (interruptedSnapshot s ctx) info.signo)

/-- there is room for the frame, it lies in memory, and its words can be stored -/
def FrameWritable (s : Sys) (ctx : Context) (info : SignalInfo) : Prop :=
  ¬ frameStackTop s ctx (interruptedSnapshot s ctx) info.signo < signalFrameSize ∧
    s.cpu.mem.guestRange (frameOf s ctx info) signalFrameSize = true ∧
    Storable s.cpu.mem (frameSlots (frameOf s ctx info) info)

theorem hostPtr_of_guestRange {m : GuestMemory} {addr length : BitVec 64} (hlen : length ≠ 0)
    (h : m.guestRange addr length = true) :
    m.hostPtr addr = addr := by
  have hrange : length = 0 ∨ (addr ≤ addr + length ∧ addr + length ≤ m.size) := of_decide_eq_true h
  obtain ⟨hle, hend⟩ := hrange.resolve_left hlen
  have hpos : 0 < length.toNat := Nat.pos_of_ne_zero fun hzero => hlen (BitVec.eq_of_toNat_eq hzero)
  have := m.size_le
  apply hostPtr_of_lt
  bv_omega

theorem mem_zero_run (errno : BitVec 64) {addr length : BitVec 64} (hlen : length ≠ 0) :
    mem errno (zero addr length) s =
      if s.cpu.mem.guestRange addr length then
        (.ok (), s.withBytes fun p => if p - addr < length then 0 else s.cpu.mem.bytes p)
      else (.error errno, s) := by
  unfold mem zero
  cases h : s.cpu.mem.guestRange addr length with
  | false => rfl
  | true =>
    rw [hostPtr_of_guestRange hlen h]
    rfl

/-- **Writing a frame.** It succeeds iff the frame is writable, and either way nothing but the frame's own bytes
changes. -/
theorem writeSignalFrame_fills (hs : s.cpu.mem.mmio = none) (ctx : Context) (info : SignalInfo) :
    ∃ b, SameOutside (frameOf s ctx info) s.cpu.mem.bytes b ∧
      (FrameWritable s ctx info →
        writeSignalFrame ctx (interruptedSnapshot s ctx) info s = (.ok (frameOf s ctx info), s.withBytes b)) ∧
      (¬ FrameWritable s ctx info →
        ∃ errno, writeSignalFrame ctx (interruptedSnapshot s ctx) info s = (.error errno, s.withBytes b)) := by
  have hlen : signalFrameSize ≠ 0 := by decide
  unfold writeSignalFrame FrameWritable
  rw [gets_bind_run]
  change ∃ b, _ ∧
    (_ → (failIf _ _ >>= fun _ => writeFrameAt (frameOf s ctx info) _ _ _ >>= fun _ => pure (frameOf s ctx info)) s =
    _) ∧
    (_ → ∃ errno,
      (failIf _ _ >>= fun _ => writeFrameAt (frameOf s ctx info) _ _ _ >>= fun _ => pure (frameOf s ctx info)) s = _)
  generalize frameOf s ctx info = sp
  unfold failIf Call.when
  by_cases htop : frameStackTop s ctx (interruptedSnapshot s ctx) info.signo < signalFrameSize
  · rw [if_pos htop]
    exact ⟨s.cpu.mem.bytes, .refl _ _, fun h => absurd htop h.1, fun _ => ⟨errEFAULT, rfl⟩⟩
  rw [if_neg htop]
  simp only [pure_bind_run]
  unfold writeFrameAt
  rw [bind_assoc]
  cases hrange : s.cpu.mem.guestRange sp signalFrameSize with
  | false =>
    have hzero := @mem_zero_run s errEFAULT sp _ hlen
    rw [hrange] at hzero
    refine ⟨s.cpu.mem.bytes, .refl _ _, fun h => absurd h.2.1 Bool.false_ne_true, fun _ => ⟨errEFAULT, ?_⟩⟩
    rw [bind_of_error hzero]
    rfl
  | true =>
    have hzero := @mem_zero_run s errEFAULT sp _ hlen
    rw [hrange] at hzero
    obtain ⟨b, hb, hstate, hok⟩ := (storeSignalInfo_fills sp info).bind
      (storeSignalUContext_fills sp (interruptedSnapshot s ctx) ctx.signalMask)
      (s.withBytes fun p => if p - sp < signalFrameSize then 0 else s.cpu.mem.bytes p) hs
    have hcleared : SameOutside sp s.cpu.mem.bytes fun p => if p - sp < signalFrameSize then 0 else s.cpu.mem.bytes p :=
      fun p hp => if_neg hp
    refine ⟨b, hcleared.trans hb, fun h => ?_, fun h => ?_⟩
    all_goals rw [bind_of_ok hzero]
    · have hok := hok.2 h.2.2
      generalize hr : (storeSignalInfo (sp + signalFrameSiginfoOff) info >>= fun _ =>
        storeSignalUContext (sp + signalFrameUctxOff) (interruptedSnapshot s ctx) ctx.signalMask)
          (s.withBytes fun p => if p - sp < signalFrameSize then 0 else s.cpu.mem.bytes p) = r at hstate hok
      rcases r with ⟨errno | ⟨⟩, s'⟩
      · exact absurd hok Bool.false_ne_true
      · have hstate : s' = s.withBytes b := hstate
        subst hstate
        exact bind_of_ok hr
    · have hok : ¬ _ := fun h' => h ⟨htop, rfl, hok.1 h'⟩
      generalize hr : (storeSignalInfo (sp + signalFrameSiginfoOff) info >>= fun _ =>
        storeSignalUContext (sp + signalFrameUctxOff) (interruptedSnapshot s ctx) ctx.signalMask)
          (s.withBytes fun p => if p - sp < signalFrameSize then 0 else s.cpu.mem.bytes p) = r at hstate hok
      rcases r with ⟨errno | ⟨⟩, s'⟩
      · have hstate : s' = s.withBytes b := hstate
        subst hstate
        exact ⟨errno, bind_of_error hr⟩
      · exact absurd rfl hok

/-! ## The page to return through -/

/-- the page that `allocRange` finds: it is not the first one, and it is unmapped -/
structure FreePage (vm : VM) (addr : BitVec 64) : Prop where
  aligned : Aligned addr
  inside : addr.toNat + 4096 ≤ vm.guestSize.toNat
  first : 4096 ≤ addr.toNat
  unmapped : ∀ state, vm.pages (addr / guestPageSize) = some state → state &&& pageMapped = 0

theorem allocRange_page {vm vm' : VM} {addr : BitVec 64} (h : vm.allocRange guestPageSize = (some addr, vm')) :
    FreePage vm addr ∧ vm' = { vm with mmapNext := addr + guestPageSize } := by
  have haligned : Aligned guestPageSize := rfl
  obtain ⟨-, hfirst, hfree, hvm⟩ := VM.allocRange_some haligned h
  have hinside := hfree.inside
  have hlimit := vm.searchLimit_le
  rw [toNat_guestPageSize] at hinside
  refine ⟨⟨hfree.aligned, by omega, hfirst, hfree.free addr (Nat.le_refl _) ?_⟩, hvm⟩
  rw [toNat_guestPageSize]
  omega

theorem checkGuestAccess_in_page {vm : VM} {addr k w : BitVec 64} {kind : FaultKind} (haligned : Aligned addr)
    (hinside : addr.toNat + 4096 ≤ vm.guestSize.toNat) (hw : 0 < w.toNat) (hk : k.toNat + w.toNat ≤ 4096) :
    vm.checkGuestAccess (addr + k) w kind = none ↔ protAllows (vm.protOf (addr / guestPageSize)) kind = true := by
  unfold Aligned at haligned
  have hsize := vm.guestSize.isLt
  have hstart : (addr + k).toNat = addr.toNat + k.toNat := by
    rw [BitVec.toNat_add]
    omega
  rw [VM.checkGuestAccess_none_iff hw (by omega), hstart]
  constructor
  · exact fun h => h _ (by rw [toNat_page]; omega) (by rw [toNat_page]; omega)
  · intro h page hlow hhigh
    have hpage : page = addr / guestPageSize := by
      apply BitVec.eq_of_toNat_eq
      rw [toNat_page]
      omega
    rw [hpage]
    exact h

/-- a free page can be written iff nobody has ever mapped it: one that was unmapped again refuses every access -/
theorem FreePage.writable_iff {vm : VM} {addr : BitVec 64} (h : FreePage vm addr) :
    protAllows (vm.protOf (addr / guestPageSize)) .store = true ↔ vm.pages (addr / guestPageSize) = none := by
  have hfirst : addr / guestPageSize ≠ 0 := by
    intro hzero
    have := congrArg BitVec.toNat hzero
    rw [toNat_page] at this
    have hpos := h.first
    change addr.toNat / 4096 = 0 at this
    omega
  unfold VM.protOf
  rw [if_neg hfirst]
  cases hstate : vm.pages (addr / guestPageSize) with
  | none => exact ⟨fun _ => rfl, fun _ => by decide⟩
  | some state =>
    dsimp only
    rw [if_pos (h.unmapped state hstate)]
    exact ⟨fun hfalse => absurd hfalse (by decide), fun hfalse => nomatch hfalse⟩

/-- the restorer is there, or the page found for it has never been mapped -/
def RestorerReady (s : Sys) : Prop :=
  s.jos.signalRestorer ≠ 0 ∨ ∃ addr, (s.jos.vm.allocRange guestPageSize).1 = some addr ∧
    s.cpu.mem.guestRange addr guestPageSize = true ∧ s.jos.vm.pages (addr / guestPageSize) = none

/-- the page that is tried for the restorer is cleared first -/
def clearedBytes (s : Sys) : Bytes :=
  match (s.jos.vm.allocRange guestPageSize).1 with
  | none => s.cpu.mem.bytes
  | some addr =>
    if s.cpu.mem.guestRange addr guestPageSize then fun p => if p - addr < guestPageSize then 0 else s.cpu.mem.bytes p
    else s.cpu.mem.bytes

theorem FreePage.storable_iff {vm : VM} {addr k : BitVec 64} (h : FreePage s.jos.vm addr)
    (hvm : vm = { s.jos.vm with mmapNext := addr + guestPageSize })
    (hrange : s.cpu.mem.guestRange addr guestPageSize = true)
    (hk : k = 0 ∨ k = 4) (b : Bytes) :
    ((s.setVM vm).withBytes b).cpu.mem.accessFault (addr + k) 4 .store = none
      ↔ s.jos.vm.pages (addr / guestPageSize) = none := by
  have hkle : k.toNat + (4 : BitVec 64).toNat ≤ 4096 := by
    rcases hk with hk | hk <;> (rw [hk]; decide)
  have hpage := h.writable_iff
  have hover : ((s.setVM vm).withBytes b).cpu.mem.checkAccessOverlay (addr + k) 4 .store = none
      ↔ protAllows (s.jos.vm.protOf (addr / guestPageSize)) .store = true := by
    have hpages : vm.pages = s.jos.vm.pages := by rw [hvm]
    have hprot : vm.protOf (addr / guestPageSize) = s.jos.vm.protOf (addr / guestPageSize) := by
      unfold VM.protOf
      rw [hpages]
    have hinside : addr.toNat + 4096 ≤ vm.guestSize.toNat := by
      rw [hvm]
      exact h.inside
    have hwidth : 0 < (4 : BitVec 64).toNat := by decide
    have hanswer := @checkGuestAccess_in_page vm addr k 4 .store h.aligned hinside hwidth hkle
    rw [hprot] at hanswer
    exact hanswer
  have hcheck : ((s.setVM vm).withBytes b).cpu.mem.check (addr + k) 4 = 0 := by
    have hin : guestPageSize = 0 ∨ (addr ≤ addr + guestPageSize ∧ addr + guestPageSize ≤ s.cpu.mem.size) :=
      of_decide_eq_true hrange
    obtain ⟨hle, hend⟩ := hin.resolve_left (by decide)
    have haligned := h.aligned
    unfold Aligned at haligned
    have hsize := s.cpu.mem.size_le
    have hpage : guestPageSize.toNat = 4096 := rfl
    rw [BitVec.le_def, BitVec.toNat_add, hpage] at hle hend
    rw [check_eq_zero_iff]
    show (addr + k) &&& 3 = 0 ∧ (addr + k).toNat < s.cpu.mem.size.toNat ∧
      (addr + k + 4 - 1).toNat < s.cpu.mem.size.toNat
    refine ⟨?_, ?_, ?_⟩
    · apply BitVec.eq_of_toNat_eq
      rw [BitVec.toNat_and]
      show (addr + k).toNat &&& (2 ^ 2 - 1) = 0
      rw [Nat.and_two_pow_sub_one_eq_mod, BitVec.toNat_add]
      rcases hk with hk | hk <;> subst hk
      · show (addr.toNat + 0) % 2 ^ 64 % 2 ^ 2 = 0
        omega
      · show (addr.toNat + 4) % 2 ^ 64 % 2 ^ 2 = 0
        omega
    · rcases hk with hk | hk <;> subst hk <;> bv_omega
    · rcases hk with hk | hk <;> subst hk <;> bv_omega
  rw [accessFault_eq_none_iff, hover, hpage]
  exact and_iff_left hcheck

theorem mem_store32_refused {errno addr : BitVec 64} {v : BitVec 32} (hs : s.cpu.mem.mmio = none)
    (h : s.cpu.mem.accessFault addr 4 .store ≠ none) :
    mem errno (GuestMemory.store32 addr v) s = (.error errno, s) := by
  obtain ⟨f, hf⟩ := Option.ne_none_iff_exists'.1 h
  unfold mem GuestMemory.store32
  rw [store_noMmio hs, hf]

theorem mem_store32_allowed {errno addr : BitVec 64} {v : BitVec 32} (hs : s.cpu.mem.mmio = none)
    (h : s.cpu.mem.accessFault addr 4 .store = none) :
    ∃ b, mem errno (GuestMemory.store32 addr v) s = (.ok (), s.withBytes b) := by
  unfold mem GuestMemory.store32
  rw [store_noMmio hs, h]
  exact ⟨_, rfl⟩

theorem setVM_guestRange (s : Sys) (vm : VM) (addr length : BitVec 64) :
    (s.setVM vm).cpu.mem.guestRange addr length = s.cpu.mem.guestRange addr length := rfl

theorem ensureSignalRestorer_ready (hs : s.cpu.mem.mmio = none) (h : RestorerReady s) :
    ∃ addr s', ensureSignalRestorer s = (.ok addr, s') := by
  unfold ensureSignalRestorer
  by_cases hhave : s.jos.signalRestorer ≠ 0
  · rw [if_pos hhave]
    exact ⟨_, _, rfl⟩
  rw [if_neg hhave]
  obtain ⟨addr, haddr, hrange, hfresh⟩ := h.resolve_left hhave
  rcases halloc : s.jos.vm.allocRange guestPageSize with ⟨found, vm⟩
  rw [halloc] at haddr
  cases haddr
  obtain ⟨hfree, hvm⟩ := allocRange_page halloc
  dsimp only
  have hzero := @mem_zero_run (s.setVM vm) errENOMEM addr guestPageSize (by decide)
  rw [setVM_guestRange, if_pos hrange] at hzero
  rw [bind_of_ok hzero]
  have hboard (b : Bytes) : ((s.setVM vm).withBytes b).cpu.mem.mmio = none := hs
  have hsame (s₁ : Sys) (b : Bytes) (v : BitVec 64 → BitVec 8) : (s₁.withBytes b).withBytes v = s₁.withBytes v := rfl
  have hstore (b : Bytes) := hfree.storable_iff hvm hrange (.inl rfl) b
  have hstore' (b : Bytes) := hfree.storable_iff hvm hrange (.inr rfl) b
  simp only [hfresh, iff_true] at hstore hstore'
  rw [show addr + 0 = addr from BitVec.add_zero addr] at hstore
  obtain ⟨b₁, hb₁⟩ := @mem_store32_allowed _ errENOMEM addr (encodeADDI 17 0 (sysRtSigreturnNum.setWidth 32))
    (hboard _) (hstore _)
  rw [bind_of_ok hb₁, hsame]
  obtain ⟨b₂, hb₂⟩ := @mem_store32_allowed _ errENOMEM (addr + 4) 0x00000073 (hboard b₁) (hstore' b₁)
  rw [bind_of_ok hb₂]
  exact ⟨_, _, rfl⟩

/-- **A restorer that cannot be made.** Nothing is mapped, but the page that was tried has been cleared. -/
theorem ensureSignalRestorer_tried (hs : s.cpu.mem.mmio = none) (h : ¬ RestorerReady s) :
    ∃ vm, vm.pages = s.jos.vm.pages ∧
      ensureSignalRestorer s = (.error errENOMEM, (s.setVM vm).withBytes (clearedBytes s)) := by
  obtain ⟨hhave, hnone⟩ := not_or.1 h
  unfold ensureSignalRestorer clearedBytes
  rw [if_neg hhave]
  rcases halloc : s.jos.vm.allocRange guestPageSize with ⟨_ | addr, vm⟩
  · have hvm : vm = s.jos.vm := by
      unfold VM.allocRange at halloc
      split_ifs at halloc with hsmall
      · exact (Prod.mk.inj halloc).2.symm
      · dsimp only at halloc
        split at halloc
        · exact (Prod.mk.inj halloc).2.symm
        · cases halloc
    exact ⟨vm, congrArg VM.pages hvm, rfl⟩
  · obtain ⟨hfree, hvm⟩ := allocRange_page halloc
    refine ⟨vm, by rw [hvm], ?_⟩
    dsimp only
    have hzero := @mem_zero_run (s.setVM vm) errENOMEM addr guestPageSize (by decide)
    rw [setVM_guestRange] at hzero
    by_cases hrange : s.cpu.mem.guestRange addr guestPageSize = true
    · rw [if_pos hrange]
      rw [if_pos hrange] at hzero
      have hmapped : s.jos.vm.pages (addr / guestPageSize) ≠ none := fun hfresh =>
        hnone ⟨addr, by rw [halloc], hrange, hfresh⟩
      have hboard (b : Bytes) : ((s.setVM vm).withBytes b).cpu.mem.mmio = none := hs
      have hrefused (b : Bytes) := (hfree.storable_iff hvm hrange (.inl rfl) b).not.2 hmapped
      rw [show addr + 0 = addr from BitVec.add_zero addr] at hrefused
      rw [bind_of_ok hzero, bind_of_error (mem_store32_refused (hboard _) (hrefused _))]
      rfl
    · rw [if_neg hrange]
      rw [if_neg hrange] at hzero
      rw [bind_of_error hzero]
      rfl

/-! ## Deliveries -/

/-- the handler has somewhere to return to -/
def HandlerReturns (s : Sys) (action : SignalAction) : Prop := action.restorer ≠ 0 ∨ RestorerReady s

/-- a failed delivery: the frame was not written, or it was noted and the restorer was missing -/
inductive Undelivered (s : Sys) (ctx : Context) (info : SignalInfo) (action : SignalAction) :
    Except (BitVec 64) Unit × Sys → Prop
  | noFrame {errno : BitVec 64} {b : Bytes} (writable : ¬ FrameWritable s ctx info)
      (same : SameOutside (frameOf s ctx info) s.cpu.mem.bytes b) :
      Undelivered s ctx info action (.error errno, s.withBytes b)
  | noRestorer {b : Bytes} {vm : VM} (writable : FrameWritable s ctx info) (missing : ¬ HandlerReturns s action)
      (same : SameOutside (frameOf s ctx info) s.cpu.mem.bytes b) (pages : vm.pages = s.jos.vm.pages) :
      Undelivered s ctx info action (.error errENOMEM,
        ((((s.withBytes b).saveFrame ctx.tid (frameOf s ctx info) (interruptedSnapshot s ctx) ctx.signalMask).setVM
          vm).withBytes
          (clearedBytes (s.withBytes b))))

theorem deliverSignal_outcome (hs : s.cpu.mem.mmio = none) (ctx : Context) (sig : BitVec 64) (info : SignalInfo)
    (action : SignalAction) :
    (FrameWritable s ctx info ∧ HandlerReturns s action → ∃ s', deliverSignal ctx sig info action s = (.ok (), s')) ∧
    (¬ (FrameWritable s ctx info ∧ HandlerReturns s action) →
      Undelivered s ctx info action (deliverSignal ctx sig info action s)) := by
  obtain ⟨b, hb, hok, herr⟩ := writeSignalFrame_fills hs ctx info
  unfold deliverSignal
  rw [gets_bind_run]
  by_cases hframe : FrameWritable s ctx info
  · rw [bind_of_ok (hok hframe), modify_bind_run]
    -- the state once the frame has been noted; the page map and the restorer are those of `s`
    change (_ → ∃ s', (restorerOf action >>= _) ((s.withBytes b).saveFrame ctx.tid (frameOf s ctx info)
      (interruptedSnapshot s ctx) ctx.signalMask) = _) ∧ (_ → Undelivered s ctx info action ((restorerOf action >>= _)
      ((s.withBytes b).saveFrame ctx.tid (frameOf s ctx info) (interruptedSnapshot s ctx) ctx.signalMask)))
    have hboard : ((s.withBytes b).saveFrame ctx.tid (frameOf s ctx info) (interruptedSnapshot s ctx)
      ctx.signalMask).cpu.mem.mmio = none := hs
    unfold restorerOf
    by_cases haction : action.restorer = 0
    · rw [if_pos haction]
      by_cases hready : RestorerReady s
      · obtain ⟨addr, s', hs'⟩ := ensureSignalRestorer_ready hboard hready
        rw [bind_of_ok hs']
        exact ⟨fun _ => ⟨_, rfl⟩, fun h => absurd ⟨hframe, .inr hready⟩ h⟩
      · have hmissing : ¬ HandlerReturns s action := not_or.2 ⟨not_not.2 haction, hready⟩
        obtain ⟨vm, hpages, hs'⟩ := ensureSignalRestorer_tried hboard hready
        rw [bind_of_error hs']
        exact ⟨fun h => absurd h.2 hmissing, fun _ => .noRestorer hframe hmissing hb hpages⟩
    · rw [if_neg haction]
      exact ⟨fun _ => ⟨_, rfl⟩, fun h => absurd ⟨hframe, .inl haction⟩ h⟩
  · obtain ⟨errno, hfail⟩ := herr hframe
    rw [bind_of_error hfail]
    exact ⟨fun h => absurd h.1 hframe, fun _ => .noFrame hframe hb⟩

/-- **When a handler is entered.** Of a signal that is not blocked and has a handler, as in `contextEffect`. -/
theorem deliverSignal_isOk_iff (hs : s.cpu.mem.mmio = none) (ctx : Context) (sig : BitVec 64) (info : SignalInfo)
    (action : SignalAction) :
    (deliverSignal ctx sig info action s).1.isOk = true ↔ FrameWritable s ctx info ∧ HandlerReturns s action := by
  obtain ⟨hok, herr⟩ := deliverSignal_outcome hs ctx sig info action
  by_cases hready : FrameWritable s ctx info ∧ HandlerReturns s action
  · obtain ⟨s', hs'⟩ := hok hready
    rw [hs']
    exact iff_of_true rfl hready
  · have hrun := herr hready
    generalize deliverSignal ctx sig info action s = r at hrun ⊢
    cases hrun with
    | noFrame => exact iff_of_false (fun h => nomatch h) hready
    | noRestorer => exact iff_of_false (fun h => nomatch h) hready

/-- the same of the pending signals, as in the effect of `rt_sigprocmask` -/
theorem deliverPendingSignals_isOk_iff (hs : s.cpu.mem.mmio = none) (ctx : Context) :
    (deliverPendingSignals ctx s).1.isOk = true ↔
      ∀ p, (pickPending s.jos.signalActions ctx.signalMask ctx.pendingSignals).2 = some p →
        FrameWritable s ctx p.info ∧ HandlerReturns s (s.jos.signalActions p.sig) := by
  unfold deliverPendingSignals
  rw [deliverPending_pick]
  rcases pickPending s.jos.signalActions ctx.signalMask ctx.pendingSignals with ⟨left, _ | p⟩
  · exact iff_of_true rfl fun _ h => nomatch h
  · dsimp only
    rw [(isOk_bind_pure _ true _).1]
    refine (@deliverSignal_isOk_iff (s.mapJos fun jos => jos.setPending ctx.tid ([] ++ left)) hs ctx p.sig
      p.info _).trans ?_
    constructor
    · intro h q hq
      cases hq
      exact h
    · intro h
      exact h p rfl

theorem pickPending_shorter {actions : BitVec 64 → SignalAction} {mask : BitVec 64} {l left : List PendingSignal}
    {p : PendingSignal}
    (h : pickPending actions mask l = (left, some p)) : left.length < l.length := by
  induction l generalizing left with
  | nil => cases h
  | cons q rest ih =>
    rw [pickPending] at h
    split_ifs at h with hblocked hhandler
    · rcases hr : pickPending actions mask rest with ⟨left', found⟩
      rw [hr] at h
      cases h
      exact Nat.succ_lt_succ (ih hr)
    · cases h
      exact Nat.lt_succ_self _
    · exact Nat.lt_succ_of_lt (ih h)

/-! ## What a failure leaves -/

/-- the frame that `signalFrames` has under the key -/
def Jea9Linux.frameAt (jos : Jea9Linux) (key : SignalFrameKey) : Option SignalFrame :=
  (jos.signalFrames.find? fun e => e.1 = key).map Prod.snd

theorem Jea9Linux.frameAt_setSignalFrame (jos : Jea9Linux) (key key' : SignalFrameKey) (frame : SignalFrame) :
    (jos.setSignalFrame key frame).frameAt key' = if key' = key then some frame else jos.frameAt key' := by
  unfold Jea9Linux.frameAt Jea9Linux.setSignalFrame
  by_cases h : key' = key
  · subst h
    rw [if_pos rfl, List.find?_cons_of_pos (by simp)]
    rfl
  · rw [if_neg h, List.find?_cons_of_neg (by simpa using fun heq => h heq.symm), List.find?_filter]
    congr 2
    funext e
    by_cases he : e.1 = key'
    · simp [he, h]
    · simp [he]

/-- registers, threads, noted frames, page map and trap are as before, and so is memory outside the frame -/
structure Untouched (frame : Option (BitVec 64)) (s s' : Sys) : Prop where
  registers : snapshotCPU s'.cpu = snapshotCPU s.cpu
  threads : s'.jos.contexts = s.jos.contexts
  frames : ∀ key, s'.jos.frameAt key = s.jos.frameAt key
  pages : s'.jos.vm.pages = s.jos.vm.pages
  trap : s'.jos.activeEcallTrap = s.jos.activeEcallTrap
  memory : ∀ p, (∀ sp, frame = some sp → ¬ InFrame sp p) → s'.cpu.mem.bytes p = s.cpu.mem.bytes p

/-- `signalFrames` already says of this frame what the delivery would note -/
def Noted (s : Sys) (ctx : Context) (info : SignalInfo) : Prop :=
  s.jos.frameAt { tid := ctx.tid, sp := frameOf s ctx info }
    = some { snapshot := interruptedSnapshot s ctx, signalMask := ctx.signalMask }

/-- the page that would be tried for the restorer holds nothing but zeros, the frame apart -/
def RestorerBlank (s : Sys) (frame : Option (BitVec 64)) : Prop :=
  ∀ addr, (s.jos.vm.allocRange guestPageSize).1 = some addr → s.cpu.mem.guestRange addr guestPageSize = true →
    ∀ p, p - addr < guestPageSize → (∀ sp, frame = some sp → ¬ InFrame sp p) → s.cpu.mem.bytes p = 0

/-- the ways into a delivery -/
inductive Attempt
  | deliverSignal (sig : BitVec 64) (info : SignalInfo) (action : SignalAction)
  | deliverPendingSignals
  | ensureSignalRestorer

namespace Attempt

variable (s : Sys) (ctx : Context)

def run : Attempt → Call Unit
  | .deliverSignal sig info action => Linux.deliverSignal ctx sig info action
  | .deliverPendingSignals => forget (Linux.deliverPendingSignals ctx)
  | .ensureSignalRestorer => forget Linux.ensureSignalRestorer

def picked : Option PendingSignal := (pickPending s.jos.signalActions ctx.signalMask ctx.pendingSignals).2

def frame : Attempt → Option (BitVec 64)
  | .deliverSignal _ info _ => some (frameOf s ctx info)
  | .deliverPendingSignals => (picked s ctx).map fun p => frameOf s ctx p.info
  | .ensureSignalRestorer => none

/-- a failure, if there is one, comes before anything has happened -/
def FailsEarly : Attempt → Prop
  | .deliverSignal _ info action => FrameWritable s ctx info →
      HandlerReturns s action ∨ Noted s ctx info ∧ RestorerBlank s (some (frameOf s ctx info))
  | .deliverPendingSignals => ∀ p, picked s ctx = some p →
      FrameWritable s ctx p.info ∧ HandlerReturns s (s.jos.signalActions p.sig)
  | .ensureSignalRestorer => RestorerReady s ∨ RestorerBlank s none

end Attempt

theorem clearedBytes_same_iff {b : Bytes} {frame : Option (BitVec 64)}
    (hb : ∀ p, (∀ sp, frame = some sp → ¬ InFrame sp p) → b p = s.cpu.mem.bytes p) :
    (∀ p, (∀ sp, frame = some sp → ¬ InFrame sp p) → clearedBytes (s.withBytes b) p = s.cpu.mem.bytes p)
      ↔ RestorerBlank s frame := by
  have hcleared : clearedBytes (s.withBytes b) = match (s.jos.vm.allocRange guestPageSize).1 with
      | none => b
      | some addr => if s.cpu.mem.guestRange addr guestPageSize then fun p =>
          if p - addr < guestPageSize then 0 else b p else b := rfl
  rw [hcleared]
  unfold RestorerBlank
  cases (s.jos.vm.allocRange guestPageSize).1 with
  | none => exact ⟨fun _ _ h => (nomatch h), fun _ => hb⟩
  | some addr =>
    dsimp only
    by_cases hrange : s.cpu.mem.guestRange addr guestPageSize = true
    · rw [if_pos hrange]
      constructor
      · intro hsame addr' haddr _ p hp hout
        cases haddr
        have hp' := hsame p hout
        rw [if_pos hp] at hp'
        exact hp'.symm
      · intro hblank p hout
        by_cases hp : p - addr < guestPageSize
        · rw [if_pos hp, hblank addr rfl hrange p hp hout]
        · rw [if_neg hp, hb p hout]
    · rw [if_neg hrange]
      refine ⟨fun _ addr' haddr hrange' => ?_, fun _ => hb⟩
      cases haddr
      exact absurd hrange' hrange

theorem untouched_withBytes {sp : BitVec 64} {b : Bytes} (h : SameOutside sp s.cpu.mem.bytes b) :
    Untouched (some sp) s (s.withBytes b) :=
  { registers := rfl, threads := rfl, frames := fun _ => rfl, pages := rfl, trap := rfl
    memory := fun p hp => h p (hp sp rfl) }

/-- once the frame is noted, a failure shows unless it was noted already and the page tried for the restorer is blank -/
theorem untouched_late_iff {ctx : Context} {info : SignalInfo} {b : Bytes} {vm : VM}
    (same : SameOutside (frameOf s ctx info) s.cpu.mem.bytes b) (pages : vm.pages = s.jos.vm.pages) :
    Untouched (some (frameOf s ctx info)) s
        ((((s.withBytes b).saveFrame ctx.tid (frameOf s ctx info) (interruptedSnapshot s ctx) ctx.signalMask).setVM
          vm).withBytes
          (clearedBytes (s.withBytes b)))
      ↔ Noted s ctx info ∧ RestorerBlank s (some (frameOf s ctx info)) := by
  have hb : ∀ p, (∀ sp, some (frameOf s ctx info) = some sp → ¬ InFrame sp p) → b p = s.cpu.mem.bytes p :=
    fun p hp => same p (hp _ rfl)
  have hframes (key : SignalFrameKey) := s.jos.frameAt_setSignalFrame { tid := ctx.tid, sp := frameOf s ctx info } key
    { snapshot := interruptedSnapshot s ctx, signalMask := ctx.signalMask }
  constructor
  · intro h
    refine ⟨?_, (clearedBytes_same_iff hb).1 h.memory⟩
    have hkey := (hframes _).symm.trans (h.frames { tid := ctx.tid, sp := frameOf s ctx info })
    rw [if_pos rfl] at hkey
    exact hkey.symm
  · rintro ⟨hnoted, hblank⟩
    refine { registers := rfl, threads := rfl, pages := pages, trap := rfl, frames := fun key => ?_,
             memory := (clearedBytes_same_iff hb).2 hblank }
    refine (hframes key).trans ?_
    by_cases hkey : key = { tid := ctx.tid, sp := frameOf s ctx info }
    · rw [if_pos hkey, hkey]
      exact hnoted.symm
    · rw [if_neg hkey]

theorem deliverSignal_untouched_iff (hs : s.cpu.mem.mmio = none) (ctx : Context) (sig : BitVec 64) (info : SignalInfo)
    (action : SignalAction) :
    (∀ errno s', deliverSignal ctx sig info action s = (.error errno, s') →
      Untouched (some (frameOf s ctx info)) s s') ↔
      (FrameWritable s ctx info →
        HandlerReturns s action ∨ Noted s ctx info ∧ RestorerBlank s (some (frameOf s ctx info))) := by
  obtain ⟨hok, herr⟩ := deliverSignal_outcome hs ctx sig info action
  by_cases hready : FrameWritable s ctx info ∧ HandlerReturns s action
  · obtain ⟨s₁, hs₁⟩ := hok hready
    rw [hs₁]
    exact ⟨fun _ _ => .inl hready.2, fun _ _ _ h => nomatch h⟩
  · have hrun := herr hready
    generalize deliverSignal ctx sig info action s = r at hrun
    cases hrun with
    | noFrame writable same =>
      refine ⟨fun _ h => absurd h writable, fun _ errno s' h => ?_⟩
      cases h
      exact untouched_withBytes same
    | noRestorer writable missing same pages =>
      constructor
      · intro h _
        exact .inr ((untouched_late_iff same pages).1 (h _ _ rfl))
      · intro h errno s' heq
        cases heq
        exact (untouched_late_iff same pages).2 ((h writable).resolve_left missing)

theorem ensureSignalRestorer_untouched_iff (hs : s.cpu.mem.mmio = none) :
    (∀ errno s', ensureSignalRestorer s = (.error errno, s') → Untouched none s s') ↔
      RestorerReady s ∨ RestorerBlank s none := by
  have hblank := @clearedBytes_same_iff s s.cpu.mem.bytes none fun _ _ => rfl
  by_cases hready : RestorerReady s
  · obtain ⟨addr, s₁, hs₁⟩ := ensureSignalRestorer_ready hs hready
    rw [hs₁]
    exact ⟨fun _ => .inl hready, fun _ _ _ h => nomatch h⟩
  · obtain ⟨vm, hpages, hs₁⟩ := ensureSignalRestorer_tried hs hready
    rw [hs₁]
    constructor
    · intro h
      exact .inr (hblank.1 (h _ _ rfl).memory)
    · intro h errno s' heq
      cases heq
      exact { registers := rfl, threads := rfl, pages := hpages, trap := rfl, frames := fun _ => rfl
              memory := hblank.2 (h.resolve_left hready) }

theorem deliverPendingSignals_untouched_iff {ctx : Context} (hs : s.cpu.mem.mmio = none)
    (hctx : s.jos.contexts ctx.tid = some ctx) (frame : Option (BitVec 64)) :
    (∀ errno s', deliverPendingSignals ctx s = (.error errno, s') → Untouched frame s s') ↔
      ∀ p, Attempt.picked s ctx = some p → FrameWritable s ctx p.info ∧
        HandlerReturns s (s.jos.signalActions p.sig) := by
  unfold deliverPendingSignals Attempt.picked
  rw [deliverPending_pick]
  rcases hpick : pickPending s.jos.signalActions ctx.signalMask ctx.pendingSignals with ⟨left, _ | p⟩
  · exact ⟨fun _ _ h => (nomatch h), fun _ _ _ h => (nomatch h)⟩
  dsimp only
  rw [List.nil_append]
  obtain ⟨hok, herr⟩ := @deliverSignal_outcome (s.mapJos fun jos => jos.setPending ctx.tid left) hs ctx p.sig p.info
    (s.jos.signalActions p.sig)
  constructor
  · intro h q hq
    cases hq
    by_contra hready
    have hrun := herr hready
    have hlost (s' : Sys) (hsame : s'.jos.contexts = (s.mapJos fun jos => jos.setPending ctx.tid left).jos.contexts) :
        s'.jos.contexts ≠ s.jos.contexts := by
      intro heq
      have hthread := congrFun (hsame.symm.trans heq) ctx.tid
      change update s.jos.contexts ctx.tid _ ctx.tid = _ at hthread
      rw [update_self, hctx] at hthread
      have hlist : left = ctx.pendingSignals := congrArg Context.pendingSignals (Option.some.inj hthread)
      exact absurd (pickPending_shorter hpick) (by rw [hlist]; exact lt_irrefl _)
    generalize hr : deliverSignal ctx p.sig p.info (s.jos.signalActions p.sig)
      (s.mapJos fun jos => jos.setPending ctx.tid left) = r at hrun
    cases hrun with
    | noFrame writable same => exact hlost _ rfl (h _ _ (bind_of_error hr)).threads
    | noRestorer writable missing same pages => exact hlost _ rfl (h _ _ (bind_of_error hr)).threads
  · intro h errno s' hfail
    obtain ⟨s₁, hs₁⟩ := hok (h p rfl)
    rw [bind_of_ok hs₁] at hfail
    cases hfail

/-- **Failed deliveries.** A delivery to a thread of the process, direct or from its pending signals, and the making of
the restorer leave everything but the attempted frame alone when they fail, iff they cannot fail late: the handler can
return or everything that a late failure would leave behind is there already; a signal that is pending must be
deliverable. -/
theorem failed_delivery_iff (s : Sys) (ctx : Context) (hs : s.cpu.mem.mmio = none)
    (hctx : s.jos.contexts ctx.tid = some ctx)
    (a : Attempt) :
    (∀ errno s', a.run ctx s = (.error errno, s') → Untouched (a.frame s ctx) s s') ↔ a.FailsEarly s ctx := by
  have hforget {α : Type} (m : Call α) (P : Sys → Prop) :
      (∀ errno s', forget m s = (.error errno, s') → P s') ↔ ∀ errno s', m s = (.error errno, s') → P s' := by
    rcases hm : m s with ⟨e | v, s₁⟩
    · rw [forget_of_error hm]
      exact ⟨fun h errno s' heq => by cases heq; exact h _ _ rfl, fun h errno s' heq => by cases heq; exact h _ _ rfl⟩
    · rw [forget_of_ok hm]
      exact ⟨fun _ _ _ h => (nomatch h), fun _ _ _ h => (nomatch h)⟩
  cases a with
  | deliverSignal sig info action => exact deliverSignal_untouched_iff hs ctx sig info action
  | deliverPendingSignals => exact (hforget _ _).trans (deliverPendingSignals_untouched_iff hs hctx _)
  | ensureSignalRestorer => exact (hforget _ _).trans (ensureSignalRestorer_untouched_iff hs)

/-- a signal with a handler is pending for the first thread, and the stack of the thread ends in the first page -/
def poorThread : Context :=
  { Context.new 1 (snapshotCPU smallBoot.cpu) with
    pendingSignals := [{ sig := 10, info := { signo := 10, code := 0, pid := 1, uid := 0, addr := 0 } }] }

def poorStack : Sys :=
  let s := smallBoot.mapJos fun jos =>
    { jos with currentTID := 1, contexts := update jos.contexts 1 (some poorThread),
               signalActions := update jos.signalActions 10
                 { handler := 0x2000, flags := 0, restorer := 0, mask := 0 } }
  s.setReg 2 0x1000

/-- the first free page was mapped once, and the stack is fine -/
def usedPage : Sys :=
  let s := poorStack.mapJos fun jos =>
    { jos with vm := { jos.vm with pages := update jos.vm.pages (alignUp jos.vm.mmapNext / guestPageSize) (some 0) } }
  (s.setVM s.jos.vm).setReg 2 0x100000

theorem failed_delivery_user_signal : Attempt.FailsEarly poorStack poorThread (.deliverSignal 10
      { signo := 10, code := 0, pid := 1, uid := 0, addr := 0 }
      { handler := 0x2000, flags := 0, restorer := 0x3000, mask := 0 }) ∧
    ∀ errno s', deliverSignal poorThread 10 { signo := 10, code := 0, pid := 1, uid := 0, addr := 0 }
        { handler := 0x2000, flags := 0, restorer := 0x3000, mask := 0 } poorStack = (.error errno, s') →
      Untouched (some (frameOf poorStack poorThread { signo := 10, code := 0, pid := 1, uid := 0, addr := 0 }))
        poorStack s' := by
  refine (fun hearly => ⟨hearly, (failed_delivery_iff poorStack poorThread rfl rfl (.deliverSignal _ _ _)).2 hearly⟩) ?_
  exact fun _ => .inl (.inl (by decide))

/-- the pending signal is gone although its frame could not be written; the frame is noted although the handler was not
entered -/
theorem failed_delivery_leaves :
    ((Attempt.deliverPendingSignals.run poorThread poorStack).1 = .error errEFAULT ∧
      (poorStack.jos.contexts 1).map Context.pendingSignals = some poorThread.pendingSignals ∧
      ((Attempt.deliverPendingSignals.run poorThread poorStack).2.jos.contexts 1).map Context.pendingSignals = some
        []) ∧
    (deliverSignal poorThread 10 { signo := 10, code := 0, pid := 1, uid := 0, addr := 0 }
        { handler := 0x2000, flags := 0, restorer := 0, mask := 0 } usedPage).1 = .error errENOMEM ∧
      usedPage.jos.signalFrames.length = 0 ∧
      (deliverSignal poorThread 10 { signo := 10, code := 0, pid := 1, uid := 0, addr := 0 }
        { handler := 0x2000, flags := 0, restorer := 0, mask := 0 } usedPage).2.jos.signalFrames.length = 1 := by
  decide +kernel

end RiscvEmu.Linux
