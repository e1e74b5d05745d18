/-
The hart without an MMU: its memory helpers are those of guest memory.

`Direct hart mem` says that on a hart without an MMU `hart` is `mem` run on its memory; it is closed under the ways
the helpers are put together (`Direct.loadBytes`, `Direct.orMisaligned`), so the result for every helper is read off
its definition.
-/
import RiscvEmu.Cached.Access

namespace RiscvEmu

open GuestMemory Bytes

theorem mem_isLens : Exec.IsLens Cpu.mem Cpu.setMem := ⟨fun _ => rfl, fun _ _ => rfl, fun _ _ _ => rfl⟩

theorem onMem_run {α : Type} (a : Exec GuestMemory MemFault α) (c : Cpu) :
    onMem a c = ((a c.mem).1, Cpu.setMem (a c.mem).2 c) := rfl

theorem onMem_bind {α β : Type} (a : Exec GuestMemory MemFault α) (k : α → Exec GuestMemory MemFault β) :
    onMem (a >>= k) = onMem a >>= fun v => onMem (k v) :=
  Exec.zoom_bind mem_isLens a k

theorem onMem_pure {α : Type} (v : α) : onMem (pure v) = pure v := Exec.zoom_pure mem_isLens v

/-- on a hart without an MMU `hart` is `mem` on the hart's memory -/
def Direct {α : Type} (hart : MemOp α) (mem : Exec GuestMemory MemFault α) : Prop :=
  Exec.AgreesOn (fun c : Cpu => c.mmu = none) hart (onMem mem)

namespace Direct

variable {α : Type} {hart hart' : MemOp α} {mem mem' : Exec GuestMemory MemFault α}

theorem run (h : Direct hart mem) {c : Cpu} (hmmu : c.mmu = none) : hart c = onMem mem c := (h c hmmu).1

theorem bind_pure {β : Type} (h : Direct hart mem) (g : α → β) :
    Direct (hart >>= fun v => pure (g v)) (mem >>= fun v => pure (g v)) := by
  unfold Direct
  rw [onMem_bind]
  exact h.bind fun v => by rw [onMem_pure]; exact Exec.AgreesOn.pure _

theorem orMisaligned (h : Direct hart mem) (h' : Direct hart' mem') :
    Direct (orMisaligned hart hart') (orBytes mem mem') := by
  unfold Direct
  rw [onMem, orBytes, Exec.zoom_onError mem_isLens]
  exact h.onError h'

theorem loadVia (width addr : BitVec 64) : Direct (loadVia width addr) (load width addr) := by
  intro c hc
  simp [RiscvEmu.loadVia, hc, onMem_run, Cpu.setMem]

theorem storeVia (width addr v : BitVec 64) : Direct (storeVia width addr v) (store width addr v) := by
  intro c hc
  simp [RiscvEmu.storeVia, hc, onMem_run, Cpu.setMem]

variable (addr : BitVec 64)

theorem load8 : Direct (load8 addr) (GuestMemory.load8 addr) := (loadVia 1 addr).bind_pure _
theorem load16 : Direct (load16 addr) (GuestMemory.load16 addr) := (loadVia 2 addr).bind_pure _
theorem load32 : Direct (load32 addr) (GuestMemory.load32 addr) := (loadVia 4 addr).bind_pure _
theorem load64 : Direct (load64 addr) (GuestMemory.load64 addr) := loadVia 8 addr

theorem store8 (v : BitVec 8) : Direct (store8 addr v) (GuestMemory.store8 addr v) :=
  storeVia 1 addr _

theorem loadBytes (w : Nat) (addr : BitVec 64) (n : Nat) :
    Direct (loadBytes RiscvEmu.load8 w addr n) (loadBytes GuestMemory.load8 w addr n) := by
  unfold Direct
  rw [onMem, zoom_loadBytes mem_isLens]
  exact loadBytes_agrees w addr load8 n

theorem storeBytes {w : Nat} (v : BitVec w) (addr : BitVec 64) (n : Nat) :
    Direct (storeBytes RiscvEmu.store8 v addr n) (storeBytes GuestMemory.store8 v addr n) := by
  unfold Direct
  rw [onMem, zoom_storeBytes mem_isLens]
  exact storeBytes_agrees v addr store8 n

theorem load16M : Direct (load16M addr) (GuestMemory.load16M addr) :=
  (load16 addr).orMisaligned (loadBytes 16 addr 2)
theorem load32M : Direct (load32M addr) (GuestMemory.load32M addr) :=
  (load32 addr).orMisaligned (loadBytes 32 addr 4)
theorem load64M : Direct (load64M addr) (GuestMemory.load64M addr) :=
  (load64 addr).orMisaligned (loadBytes 64 addr 8)

theorem store16M (v : BitVec 16) : Direct (store16M addr v) (GuestMemory.store16M addr v) :=
  orMisaligned (storeVia 2 addr _) (storeBytes v addr 2)
theorem store32M (v : BitVec 32) : Direct (store32M addr v) (GuestMemory.store32M addr v) :=
  orMisaligned (storeVia 4 addr _) (storeBytes v addr 4)
theorem store64M (v : BitVec 64) : Direct (store64M addr v) (GuestMemory.store64M addr v) :=
  orMisaligned (storeVia 8 addr _) (storeBytes v addr 8)

end Direct

end RiscvEmu
