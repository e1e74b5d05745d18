/-
Which bytes an access touches.

`span` is the set of host addresses of a guest range, and `Changes W m m'` says that `m'` differs from `m` at most in
the bytes of `W`. What the device reads outside `W` is then the same in both.
-/
import Mathlib
import RiscvEmu.Board.Transmit

namespace RiscvEmu

namespace GuestMemory

/-- the host addresses of `n` bytes from a guest address on -/
def span (m : GuestMemory) (addr : BitVec 64) (n : Nat) : Set (BitVec 64) := { p | (p - m.hostPtr addr).toNat < n }

/-- `m'` is `m` but for bytes in `W` -/
structure Changes (W : Set (BitVec 64)) (m m' : GuestMemory) : Prop where
  config : m' = { m with bytes := m'.bytes }
  bytes : ∀ p, p ∉ W → m'.bytes p = m.bytes p

/-- a store of `n` bytes is let through -/
def Storable (m : GuestMemory) (addr : BitVec 64) (n : Nat) : Prop :=
  n = 0 ∨ m.bulkCheck addr (BitVec.ofNat 64 n) .store = none

variable {W W' : Set (BitVec 64)} {m m' m'' : GuestMemory} {addr : BitVec 64} {n : Nat}

theorem span_mono {n' : Nat} (h : n ≤ n') : m.span addr n ⊆ m.span addr n' := fun _ hp => Nat.lt_of_lt_of_le hp h

namespace Changes

theorem refl (W : Set (BitVec 64)) (m : GuestMemory) : Changes W m m := ⟨rfl, fun _ _ => rfl⟩

theorem trans (h : Changes W m m') (h' : Changes W m' m'') : Changes W m m'' := by
  refine ⟨?_, fun p hp => (h'.bytes p hp).trans (h.bytes p hp)⟩
  rw [h'.config, h.config]

theorem mono (h : Changes W m m') (hsub : W ⊆ W') : Changes W' m m' :=
  ⟨h.config, fun p hp => h.bytes p fun hmem => hp (hsub hmem)⟩

theorem hostPtr (h : Changes W m m') (addr : BitVec 64) : m'.hostPtr addr = m.hostPtr addr := by
  rw [h.config]
  rfl

theorem span (h : Changes W m m') (addr : BitVec 64) (n : Nat) : m'.span addr n = m.span addr n := by
  unfold GuestMemory.span
  rw [h.hostPtr]

theorem bulkCheck (h : Changes W m m') (addr n : BitVec 64) (k : FaultKind) :
    m'.bulkCheck addr n k = m.bulkCheck addr n k := by
  rw [h.config]
  rfl

theorem storable (h : Changes W m m') (addr : BitVec 64) (n : Nat) : m'.Storable addr n ↔ m.Storable addr n := by
  unfold Storable
  rw [h.bulkCheck]

theorem bytesAt (h : Changes W m m') (hdisj : Disjoint (m.span addr n) W) : m'.bytesAt addr n = m.bytesAt addr n := by
  unfold GuestMemory.bytesAt
  refine List.map_congr_left fun i hi => ?_
  rw [h.hostPtr]
  refine h.bytes _ (Set.disjoint_left.mp hdisj ?_)
  have hlt := List.mem_range.mp hi
  show (m.hostPtr addr + BitVec.ofNat 64 i - m.hostPtr addr).toNat < n
  rw [BitVec.add_comm, BitVec.add_sub_cancel, BitVec.toNat_ofNat]
  exact Nat.lt_of_le_of_lt (Nat.mod_le _ _) hlt

theorem readBytes (h : Changes W m m') (hdisj : Disjoint (m.span addr n) W) :
    GuestMemory.readBytes addr n m' = ((GuestMemory.readBytes addr n m).1, m') := by
  have hbytes := h.bytesAt hdisj
  unfold GuestMemory.bytesAt at hbytes
  unfold GuestMemory.readBytes
  rw [h.bulkCheck, hbytes]
  split_ifs
  · rfl
  · cases m.bulkCheck addr (BitVec.ofNat 64 n) .load <;> rfl

theorem readGuestU16 (h : Changes W m m') (hdisj : Disjoint (m.span addr 2) W) :
    RiscvEmu.readGuestU16 addr m' = ((RiscvEmu.readGuestU16 addr m).1, m') := by
  unfold RiscvEmu.readGuestU16
  rw [Exec.bind_run, Exec.bind_run, h.readBytes hdisj]
  rcases GuestMemory.readBytes addr 2 m with ⟨e | l, m₁⟩ <;> rfl

end Changes

/-- what a store of a list leaves -/
def put (m : GuestMemory) (addr : BitVec 64) (src : List (BitVec 8)) : GuestMemory :=
  { m with bytes := m.bytes.writeList (m.hostPtr addr) src }

theorem put_changes (m : GuestMemory) (addr : BitVec 64) (src : List (BitVec 8)) :
    Changes (m.span addr src.length) m (m.put addr src) := by
  refine ⟨rfl, fun p hp => ?_⟩
  have hout : src[(p - m.hostPtr addr).toNat]? = none := List.getElem?_eq_none (Nat.not_lt.mp hp)
  show (src[(p - m.hostPtr addr).toNat]?).getD (m.bytes p) = m.bytes p
  rw [hout]
  rfl

theorem bytesAt_put (m : GuestMemory) (addr : BitVec 64) (src : List (BitVec 8)) (hlen : src.length < 2 ^ 64) :
    (m.put addr src).bytesAt addr src.length = src := by
  refine List.ext_getElem (by simp [bytesAt]) fun i hi hi' => ?_
  simp only [bytesAt, List.getElem_map, List.getElem_range]
  exact Bytes.writeList_apply _ _ hi' hlen

theorem writeBytes_of_storable {src : List (BitVec 8)} (h : m.Storable addr src.length) :
    writeBytes addr src m = (.ok (), m.put addr src) := by
  unfold writeBytes
  split_ifs with hsrc
  · rw [hsrc]
    rfl
  · have hcheck := h.resolve_left fun hzero => hsrc (List.length_eq_zero_iff.mp hzero)
    rw [hcheck]
    rfl

theorem writeBytes_of_not_storable {src : List (BitVec 8)} (h : ¬ m.Storable addr src.length) :
    ∃ f, writeBytes addr src m = (.error f, m) := by
  unfold writeBytes
  split_ifs with hsrc
  · exact absurd (.inl (by rw [hsrc]; rfl)) h
  · cases hcheck : m.bulkCheck addr (BitVec.ofNat 64 src.length) .store with
    | none => exact absurd (.inr hcheck) h
    | some f => exact ⟨f, rfl⟩

end GuestMemory

end RiscvEmu
