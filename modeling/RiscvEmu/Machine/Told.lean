/-
What a trap tells of the access that failed.

A fault is made by the layer that refuses: the MMU's alignment check, the page walk, memory, or a device. It carries
the kind and the address of that layer, and `trapMachineError` delivers both as they are. So a refusal is told as an
access of its own (`Refusal.toldAs`, `Refusal.toldAt`):
• a page fault as the access that is translated, which for an atomic is first a load;
• misalignment and a sandbox escape as a load, whatever the access was;
• a page-table entry that cannot be read as a load at the entry's physical address, one that cannot be written back as a
  store there, and a page whose frame is refused with a physical address;
• the refusal of a device as the device has it.

`stepNames_iff`: a step tells its failed access right exactly if each refusal it meets is told as that access and at one
of its bytes.
-/
import RiscvEmu.Cpu.Trace
import RiscvEmu.Machine.Run

namespace RiscvEmu

open Exec

/-! ## Accesses and what is told of them -/

/-- the causes of an access that fails: misaligned, refused, page fault -/
def causesOf : FaultKind → List (BitVec 64)
  | .fetch => [causeInsnAddrMisalign, causeInsnFault, causeInsnPageFault]
  | .store => [causeMisalignStore, causeStoreFault, causeStorePageFault]
  | _ => [causeLoadMisalign, causeLoadFault, causeLoadPageFault]

/-- the cause and the address of the trap that a memory fault becomes -/
def trapOf (f : MemFault) : BitVec 64 × BitVec 64 := ((faultCauseAndText f).1, f.addr)

def GuestAccess.Holds (a : GuestAccess) (p : BitVec 64) : Prop := (p - a.addr).toNat < a.width

/-- the trap names the access: a cause of its kind, and the address of one of its bytes -/
def Names (a : GuestAccess) (f : MemFault) : Prop := (trapOf f).1 ∈ causesOf a.kind ∧ a.Holds (trapOf f).2

/-- the access that fails in a step: the fetch of the first half, the fetch of the whole word, or the access of the
instruction -/
inductive Failed (c : Cpu) : GuestAccess → Prop
  | fetch16 {f : MemFault} {c' : Cpu} : fetch16 c.pc c = (.error f, c') → Failed c ⟨.fetch, c.pc, 2⟩
  | fetch32 {half : BitVec 16} {f : MemFault} {c' c'' : Cpu} : fetch16 c.pc c = (.ok half, c') →
      half.extractLsb' 0 2 = 3#2 → fetch32M c'.pc c' = (.error f, c'') → Failed c ⟨.fetch, c'.pc, 4⟩
  | insn {i : Fetched} {x : InsnAccess} {c' : Cpu} : fetchInsn c = (.ok i, c') → accessOf c' i = some x →
      Failed c x.guest

/-- a memory fault of the step names the access that failed -/
def StepNames (fp : HostFP) (c : Cpu) : Prop :=
  ∀ f c', step fp c = (.error (.memFault f), c') → ∃ a, Failed (c.setWfi false) a ∧ Names a f

/-! ## Refusals -/

/-- the access that a kind of fault belongs to -/
def FaultKind.access : FaultKind → FaultKind
  | .store | .pageStore => .store
  | .fetch | .pageFetch => .fetch
  | _ => .load

/-- the kind of access that a refusal is told as -/
def Refusal.toldAs : Refusal → FaultKind
  | .misaligned _ _ => .load
  | .page _ kind => (pageFaultKind kind).access
  | .sandbox _ _ => .load
  | .memory _ _ kind => kind.access
  | .device f => f.kind.access

/-- the address that is told: for memory and devices a physical one -/
def Refusal.toldAt : Refusal → BitVec 64
  | .misaligned addr _ => addr
  | .page addr _ => addr
  | .sandbox addr _ => addr
  | .memory addr _ _ => addr
  | .device f => f.addr

/-- the refusal is told as the access, at one of its bytes -/
def Refusal.Names (r : Refusal) (a : GuestAccess) : Prop := r.toldAs = a.kind ∧ a.Holds r.toldAt

theorem cause_mem_iff {kind : FaultKind} (hk : kind ∈ accessKinds) (f : MemFault) :
    (trapOf f).1 ∈ causesOf kind ↔ f.kind.access = kind := by
  have hcause : (trapOf f).1 = (trapOf ⟨0, 0, f.kind⟩).1 := by
    unfold trapOf faultCauseAndText
    cases f.kind <;> rfl
  rw [hcause]
  generalize f.kind = told
  simp only [accessKinds, List.mem_cons, List.not_mem_nil, or_false] at hk
  rcases hk with rfl | rfl | rfl <;> cases told <;> decide

theorem names_iff {a : GuestAccess} (ha : a.kind ∈ accessKinds) (r : Refusal) : Names a r.fault ↔ r.Names a := by
  have hkind : r.fault.kind.access = r.toldAs := by cases r <;> rfl
  have haddr : r.fault.addr = r.toldAt := by cases r <;> rfl
  unfold Names Refusal.Names
  rw [cause_mem_iff ha, hkind, ← haddr]
  rfl

theorem guest_kind (x : InsnAccess) : x.guest.kind ∈ accessKinds := by
  cases x <;> simp [InsnAccess.guest, accessKinds]

/-- the refusals among the events of an access name it -/
theorem onRefused_names {a : GuestAccess} (ha : a.kind ∈ accessKinds) (es : List MemEvent) :
    OnRefused (Names a) es ↔ ∀ r, .refused r ∈ es → r.Names a :=
  forall_congr' fun r => imp_congr Iff.rfl (names_iff ha r)

/-! ## The step -/

/-- each refusal that the step meets is told as the access it is met in, at one of its bytes -/
def RefusalsName (c : Cpu) : Prop := ∀ a es, (a, es) ∈ stepEvents c → ∀ r, .refused r ∈ es → r.Names a

theorem fetchInsn_cases {c s : Cpu} {r : Except MemFault Fetched} (h : fetchInsn c = (r, s)) :
    (∃ f, fetch16 c.pc c = (.error f, s) ∧ r = .error f) ∨
      ∃ half c', fetch16 c.pc c = (.ok half, c') ∧
        ((half.extractLsb' 0 2 ≠ 3#2 ∧ r = .ok (.half half) ∧ s = c') ∨
          (half.extractLsb' 0 2 = 3#2 ∧ ((∃ f, fetch32M c'.pc c' = (.error f, s) ∧ r = .error f) ∨
            ∃ insn, fetch32M c'.pc c' = (.ok insn, s) ∧ r = .ok (.word insn)))) := by
  rw [fetchInsn, gets_bind_run] at h
  rcases hh : fetch16 c.pc c with ⟨f | half, c'⟩
  · rw [bind_of_error hh] at h
    cases h
    exact Or.inl ⟨f, rfl, rfl⟩
  · rw [bind_of_ok hh] at h
    refine Or.inr ⟨half, c', rfl, ?_⟩
    by_cases hq : half.extractLsb' 0 2 = 3#2
    · rw [if_neg (not_not.2 hq), gets_bind_run] at h
      refine Or.inr ⟨hq, ?_⟩
      rcases hw : fetch32M c'.pc c' with ⟨f | insn, c''⟩
      · rw [bind_of_error hw] at h
        cases h
        exact Or.inl ⟨f, rfl, rfl⟩
      · rw [bind_of_ok hw] at h
        cases h
        exact Or.inr ⟨insn, rfl, rfl⟩
    · rw [if_pos hq] at h
      cases h
      exact Or.inl ⟨hq, rfl, rfl⟩

theorem execFetched_errAt (fp : HostFP) {Q : MemFault → Prop} {c : Cpu} (hw : c.wfi = false) (i : Fetched) :
    ErrAt (OnFault Q) (execFetched fp i) c ↔ ∀ x, accessOf c i = some x → OnRefused Q (x.events c) := by
  have hacc : ∀ a, FaultsOf Q c a ↔ ∀ x, a = some x → OnRefused Q (x.events c) :=
    fun a => forall_congr' fun x => imp_congr Iff.rfl ((access_traces x).errors Q c)
  cases i with
  | half insn => exact (stepRVC_deals insn).errAt.trans (hacc _)
  | word insn =>
    have hset : c.setWfi false = c := by
      rw [← hw]
      rfl
    refine Iff.trans ?_ ((execInsn_deals fp insn).errAt.trans (hacc _))
    refine ErrAt.congr ?_
    change execInsn fp insn (c.setWfi false) = execInsn fp insn c
    rw [hset]

theorem step_of_fetch_error (fp : HostFP) {c c' : Cpu} {f : MemFault}
    (h : fetchInsn (c.setWfi false) = (.error f, c')) :
    step fp c = (.error (.memFault f), c') := by
  rw [step_run, bind_of_error (lift_of_error h)]

theorem step_of_fetch_ok (fp : HostFP) {c c' : Cpu} {i : Fetched} (h : fetchInsn (c.setWfi false) = (.ok i, c')) :
    step fp c = execFetched fp i c' := by
  rw [step_run, bind_of_ok (lift_of_ok h)]

theorem fetchInsn_wfi {r : Except MemFault Fetched} {c c' : Cpu} (hw : c.wfi = false) (h : fetchInsn c = (r, c')) :
    c'.wfi = false := by
  have hblind : MemBlind fun c => c.wfi = false := ⟨fun _ _ hc => hc, fun _ _ hc _ => hc⟩
  have hk := keeps_fetchInsn hblind.fetch c hw
  rwa [h] at hk

/-- the accesses of a step, one after the other -/
theorem refusalsName_iff (c : Cpu) : RefusalsName c ↔
    ErrAt (Names ⟨.fetch, c.pc, 2⟩) (fetch16 c.pc) c ∧
    (∀ half c', fetch16 c.pc c = (.ok half, c') → half.extractLsb' 0 2 = 3#2 →
      ErrAt (Names ⟨.fetch, c'.pc, 4⟩) (fetch32M c'.pc) c') ∧
    ∀ i c', fetchInsn c = (.ok i, c') → ∀ x, accessOf c' i = some x → OnRefused (Names x.guest) (x.events c') := by
  have hfetch : (FaultKind.fetch) ∈ accessKinds := by decide
  have hone : ∀ (a : GuestAccess) (es : List MemEvent),
      (∀ a' es', (a', es') = (a, es) → ∀ r, .refused r ∈ es' → r.Names a') ↔
      ∀ r, .refused r ∈ es → r.Names a := fun a es =>
    ⟨fun h => h a es rfl, fun h a' es' he => by cases he; exact h⟩
  unfold RefusalsName stepEvents
  simp only [List.mem_cons, List.mem_append, or_imp, forall_and, List.cons_append]
  refine and_congr ?_ (and_congr ?_ ?_)
  · rw [(fetch16_traces c.pc).errors, onRefused_names (a := ⟨.fetch, c.pc, 2⟩) hfetch]
    exact hone _ _
  · rcases h16 : fetch16 c.pc c with ⟨f | half, c'⟩
    · exact iff_of_true (fun a es h => absurd h List.not_mem_nil) fun half c' h => by cases h
    · dsimp only
      by_cases hq : half.extractLsb' 0 2 = 3#2
      · rw [if_pos hq]
        simp only [List.mem_singleton]
        rw [hone, ← onRefused_names (a := ⟨.fetch, c'.pc, 4⟩) hfetch, ← (fetch32M_traces c'.pc).errors]
        exact ⟨fun h half c'' he _ => by cases he; exact h, fun h => h half c' rfl hq⟩
      · rw [if_neg hq]
        refine iff_of_true (fun a es h => absurd h List.not_mem_nil) fun half' c'' he hq' => ?_
        cases he
        exact absurd hq' hq
  · rcases hi : fetchInsn c with ⟨f | i, c'⟩
    · exact iff_of_true (fun a es h => absurd h List.not_mem_nil) fun i c' h => by cases h
    · dsimp only
      cases hx : accessOf c' i with
      | none =>
        refine iff_of_true (fun a es h => absurd h List.not_mem_nil) fun i' c'' he x hx' => ?_
        cases he
        rw [hx] at hx'
        cases hx'
      | some x =>
        simp only [Option.map_some, Option.toList_some, List.mem_singleton]
        rw [hone, ← onRefused_names (guest_kind x)]
        refine ⟨fun h i' c'' he x' hx' => ?_, fun h => h i c' rfl x hx⟩
        cases he
        rw [hx] at hx'
        cases hx'
        exact h

theorem refusalsName_of_stepNames (fp : HostFP) {c : Cpu} (h : StepNames fp c) : RefusalsName (c.setWfi false) := by
  rw [refusalsName_iff]
  refine ⟨?_, ?_, ?_⟩
  · intro f c' hf
    have hi : fetchInsn (c.setWfi false) = (.error f, c') := by
      rw [fetchInsn, gets_bind_run, bind_of_error hf]
    obtain ⟨a, ha, hn⟩ := h f c' (step_of_fetch_error fp hi)
    cases ha with
    | fetch16 => exact hn
    | fetch32 h16 =>
      rw [hf] at h16
      cases h16
    | insn hi' =>
      rw [hi] at hi'
      cases hi'
  · intro half c' h16 hq f c'' hf
    have hi : fetchInsn (c.setWfi false) = (.error f, c'') := by
      rw [fetchInsn, gets_bind_run, bind_of_ok h16, if_neg (not_not.2 hq), gets_bind_run, bind_of_error hf]
    obtain ⟨a, ha, hn⟩ := h f c'' (step_of_fetch_error fp hi)
    cases ha with
    | fetch16 hf' =>
      rw [h16] at hf'
      cases hf'
    | fetch32 h16' =>
      rw [h16] at h16'
      cases h16'
      exact hn
    | insn hi' =>
      rw [hi] at hi'
      cases hi'
  · intro i c' hi x hx
    refine (execFetched_errAt fp (fetchInsn_wfi rfl hi) i).1 (fun e c'' he f hf => ?_) x hx
    obtain ⟨a, ha, hn⟩ := h f c'' (by rw [step_of_fetch_ok fp hi, he, hf])
    cases ha with
    | fetch16 hf' =>
      rw [fetchInsn, gets_bind_run, bind_of_error hf'] at hi
      cases hi
    | fetch32 h16 hq h32 =>
      rw [fetchInsn, gets_bind_run, bind_of_ok h16, if_neg (not_not.2 hq), gets_bind_run, bind_of_error h32] at hi
      cases hi
    | insn hi' hx' =>
      rw [hi] at hi'
      cases hi'
      rw [hx] at hx'
      cases hx'
      exact hn

theorem stepNames_of_refusalsName (fp : HostFP) {c : Cpu} (h : RefusalsName (c.setWfi false)) : StepNames fp c := by
  obtain ⟨h16, h32, hinsn⟩ := (refusalsName_iff _).1 h
  intro f c' hstep
  rcases hi : fetchInsn (c.setWfi false) with ⟨g | i, s⟩
  · rw [step_of_fetch_error fp hi] at hstep
    cases hstep
    rcases fetchInsn_cases hi with ⟨g, hg, hr⟩ | ⟨half, c'', hh, ⟨-, hr, -⟩ | ⟨hq, ⟨g, hg, hr⟩ | ⟨insn, -, hr⟩⟩⟩
    · cases hr
      exact ⟨_, .fetch16 hg, h16 _ _ hg⟩
    · cases hr
    · cases hr
      exact ⟨_, .fetch32 hh hq hg, h32 half c'' hh hq _ _ hg⟩
    · cases hr
  · rw [step_of_fetch_ok fp hi] at hstep
    have htells : ∀ Q : MemFault → Prop, (∀ x, accessOf s i = some x → OnRefused Q (x.events s)) → Q f := fun Q hQ =>
      (execFetched_errAt fp (fetchInsn_wfi rfl hi) i).2 hQ _ _ hstep f rfl
    cases hx : accessOf s i with
    | none => exact (htells (fun _ => False) fun x h => by rw [hx] at h; cases h).elim
    | some x =>
      refine ⟨x.guest, .insn hi hx, htells _ fun y hy => ?_⟩
      rw [hx] at hy
      cases hy
      exact hinsn i s hi x hx

/-- machine mode with `MPRV`: stores are translated, fetches are not; the root table lies behind the 64 KiB of memory -/
def noTableCpu (insn : BitVec 32) : Cpu :=
  let m := GuestMemory.newGuestMemoryWithModel 16 .sandbox true
  { newCPU { m with bytes := Bytes.writeLe (fun _ => 0) 0 4 (insn.setWidth 64) } with
    x := fun r => if r = 0 then 0 else 64
    priv := privMachine
    mstatus := statusMPRV ||| (1#64 <<< 11)
    satp := (satpModeSv39 <<< 60) ||| 0x10
    mmu := some Cpu.emptyMmu }

end RiscvEmu
