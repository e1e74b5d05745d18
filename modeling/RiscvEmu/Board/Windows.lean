/-
Where the devices are.

`windows` lists the address ranges of the devices that a board has. An access is the board's exactly when its address
lies in one of them (`load_none_iff`, `store_none_iff`), whatever the devices have done; `mmioOverlaps` holds a range
against the same list (`mmioOverlaps_eq`).
-/
import RiscvEmu.Board.Mmio

namespace RiscvEmu

def rangesOverlap (a0 a1 b0 b1 : BitVec 64) : Bool := a0 < b1 ∧ b0 < a1

structure Window where
  base : BitVec 64
  size : BitVec 64
deriving DecidableEq, Repr

def Window.Holds (w : Window) (p : BitVec 64) : Prop :=
  w.base.toNat ≤ p.toNat ∧ p.toNat < w.base.toNat + w.size.toNat

namespace BoardState

variable (m : BoardState)

def mmioOverlaps (addr size : BitVec 64) : Bool :=
  rangesOverlap addr (addr + size) biosSysconBase (biosSysconBase + biosSysconSize) ||
    (rangesOverlap addr (addr + size) biosUARTBase (biosUARTBase + biosUARTSize) ||
      rangesOverlap addr (addr + size) biosUART1Base (biosUART1Base + biosUARTSize)) ||
    (m.hostio.isSome && rangesOverlap addr (addr + size) biosHostIOBase (biosHostIOBase + biosHostIOSize)) ||
    (m.virtioNet.isSome &&
      rangesOverlap addr (addr + size) biosVirtioNetBase (biosVirtioNetBase + biosVirtioNetSize)) ||
    rangesOverlap addr (addr + size) biosCLINTBase (biosCLINTBase + biosCLINTSize) ||
    rangesOverlap addr (addr + size) biosPLICBase (biosPLICBase + biosPLICSize)

def windows : List Window :=
  [⟨biosSysconBase, biosSysconSize⟩, ⟨biosUARTBase, biosUARTSize⟩, ⟨biosUART1Base, biosUARTSize⟩] ++
    (if m.hostio.isSome then [⟨biosHostIOBase, biosHostIOSize⟩] else []) ++
    (if m.virtioNet.isSome then [⟨biosVirtioNetBase, biosVirtioNetSize⟩] else []) ++
    [⟨biosCLINTBase, biosCLINTSize⟩, ⟨biosPLICBase, biosPLICSize⟩]

def InWindow (p : BitVec 64) : Prop := ∃ w ∈ m.windows, w.Holds p

theorem windows_bound : ∀ w ∈ m.windows, w.base.toNat + w.size.toNat ≤ 0x10009000 := by
  unfold windows
  cases m.hostio.isSome <;> cases m.virtioNet.isSome <;> decide

/-! ## The board's decoding -/

variable {m} {addr width : BitVec 64}

theorem mmioRangeTouches_iff {w : Window} (hw : w.base.toNat + w.size.toNat ≤ 0x10009000) (hwidth : width ≠ 0) :
    mmioRangeTouches addr width w.base w.size = true ↔ w.Holds addr := by
  unfold mmioRangeTouches Window.Holds
  simp only [hwidth, false_or, Bool.and_eq_true, Bool.not_eq_true', decide_eq_false_iff_not, decide_eq_true_eq]
  bv_omega

theorem touches_eq : m.touches addr width = m.windows.any fun w => mmioRangeTouches addr width w.base w.size := by
  unfold touches windows
  cases m.hostio.isSome <;> cases m.virtioNet.isSome <;> simp [Bool.or_assoc]

theorem touches_iff (hwidth : width ≠ 0) : m.touches addr width = true ↔ m.InWindow addr := by
  rw [touches_eq, List.any_eq_true]
  constructor
  · rintro ⟨w, hw, ht⟩
    exact ⟨w, hw, (mmioRangeTouches_iff (m.windows_bound w hw) hwidth).1 ht⟩
  · rintro ⟨w, hw, ht⟩
    exact ⟨w, hw, (mmioRangeTouches_iff (m.windows_bound w hw) hwidth).2 ht⟩

theorem mmioRangeTouches_of_offset {base size off : BitVec 64} (h : mmioRangeOffset addr width base size = some off) :
    mmioRangeTouches addr width base size = true := by
  unfold mmioRangeOffset at h
  unfold mmioRangeTouches
  split_ifs at h with h1 h2
  rw [not_or] at h2
  have hlt : addr - base < size := BitVec.not_le.1 h2.1
  rw [decide_eq_false h1, decide_eq_true hlt]
  rfl

theorem mmioRangeTouches_of_uart {index : Fin 2} {off : BitVec 64}
    (h : biosUARTRangeOffset addr width = some (index, off)) :
    mmioRangeTouches addr width biosUARTBase biosUARTSize = true ∨
      mmioRangeTouches addr width biosUART1Base biosUARTSize = true := by
  unfold biosUARTRangeOffset at h
  cases h0 : mmioRangeOffset addr width biosUARTBase biosUARTSize with
  | some _ => exact Or.inl (mmioRangeTouches_of_offset h0)
  | none =>
    cases h1 : mmioRangeOffset addr width biosUART1Base biosUARTSize with
    | some _ => exact Or.inr (mmioRangeTouches_of_offset h1)
    | none =>
      rw [h0, h1] at h
      cases h

theorem optionalOffset_some {α : Type} {d : Option α} {off : Option (BitVec 64)} {r : α × BitVec 64}
    (h : optionalOffset d off = some r) : d.isSome = true ∧ off = some r.2 := by
  unfold optionalOffset at h
  rcases d with _ | d <;> rcases off with _ | off <;> cases h
  exact ⟨rfl, rfl⟩

theorem touches_of_device {d : Device} (h : m.device addr width = some d) : m.touches addr width = true := by
  unfold device at h
  unfold touches
  split at h
  · rename_i off hoff
    simp [mmioRangeTouches_of_offset hoff]
  split at h
  · rename_i i off hoff
    rcases mmioRangeTouches_of_uart hoff with ht | ht <;> simp [ht]
  split at h
  · rename_i dev off hoff
    obtain ⟨hd, hoff⟩ := optionalOffset_some hoff
    simp [hd, mmioRangeTouches_of_offset hoff]
  split at h
  · rename_i dev off hoff
    obtain ⟨hd, hoff⟩ := optionalOffset_some hoff
    simp [hd, mmioRangeTouches_of_offset hoff]
  split at h
  · rename_i off hoff
    simp [mmioRangeTouches_of_offset hoff]
  · obtain ⟨off, hoff, -⟩ := Option.map_eq_some_iff.1 h
    simp [mmioRangeTouches_of_offset hoff]

/-- **Loads.**  The board leaves a load to memory exactly when its address is in no window. -/
theorem load_none_iff (hwidth : width ≠ 0) : (m.load addr width).1 = none ↔ ¬ m.InWindow addr := by
  rw [← touches_iff hwidth]
  unfold load
  cases hd : m.device addr width with
  | some d =>
    have ht := touches_of_device hd
    cases d <;> simp [ht]
  | none =>
    dsimp only
    by_cases ht : m.touches addr width = true
    · simp [ht]
    · simp [ht]

/-- **Stores.**  The same of a store. -/
theorem store_none_iff (hwidth : width ≠ 0) (value : BitVec 64) (mem : GuestMemory) :
    (m.store addr width value mem).1 = none ↔ ¬ m.InWindow addr := by
  rw [← touches_iff hwidth]
  unfold store
  cases hd : m.device addr width with
  | some d =>
    have ht := touches_of_device hd
    cases d <;> simp [ht]
  | none =>
    dsimp only
    by_cases ht : m.touches addr width = true
    · simp [ht]
    · simp [ht]

/-! ## Ranges of addresses -/

theorem mmioOverlaps_eq (addr size : BitVec 64) :
    m.mmioOverlaps addr size = m.windows.any fun w => rangesOverlap addr (addr + size) w.base (w.base + w.size) := by
  unfold mmioOverlaps windows
  cases m.hostio.isSome <;> cases m.virtioNet.isSome <;> simp [Bool.or_assoc]

theorem not_inWindow_of_range {base size p : BitVec 64} (hno : m.mmioOverlaps base size = false)
    (hlt : base.toNat + size.toNat < 2 ^ 64) (hlo : base.toNat ≤ p.toNat) (hhi : p.toNat < base.toNat + size.toNat) :
    ¬ m.InWindow p := by
  rintro ⟨w, hw, hp⟩
  have hb := m.windows_bound w hw
  have hover : rangesOverlap base (base + size) w.base (w.base + w.size) = true := by
    unfold rangesOverlap
    unfold Window.Holds at hp
    simp only [decide_eq_true_eq, BitVec.lt_def, BitVec.toNat_add]
    omega
  rw [mmioOverlaps_eq, List.any_eq_false] at hno
  exact hno w hw hover

end BoardState

end RiscvEmu
