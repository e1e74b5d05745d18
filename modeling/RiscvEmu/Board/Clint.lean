/-
The time register of the CLINT (`loadCLINT`, `storeCLINT`, `syncCLINTTime` in `bios.go`).

`mtime` is kept as a counter and as eight bytes of the register image, which follows the counter only when the CLINT
is loaded from. A load returns the bytes of the counter; a store takes the bytes that it does not cover from the
image, whatever the counter is by then. `clint_time_iff` says when a run treats the register as its current bytes all
the same.
-/
import RiscvEmu.Board.Claim

namespace RiscvEmu

open Bytes BitVec

def mtimeOff : Nat := 0xbff8

inductive ClintEvent
  | advance (delta : BitVec 64)
  | load (off width : BitVec 64)
  | store (off width value : BitVec 64)

namespace ClintEvent

/-- a naturally aligned access inside the CLINT -/
structure Natural (off width : BitVec 64) : Prop where
  size : width = 1 ∨ width = 2 ∨ width = 4 ∨ width = 8
  aligned : off.toNat % width.toNat = 0
  inside : off.toNat + width.toNat ≤ biosCLINTSize.toNat

def Aligned : ClintEvent → Prop
  | advance _ => True
  | load off width => Natural off width
  | store off width _ => Natural off width

/-- byte `k` of `mtime` is one of the bytes accessed -/
def Covers (off width : BitVec 64) (k : Nat) : Prop := off.toNat ≤ mtimeOff + k ∧ mtimeOff + k < off.toNat + width.toNat

instance (off width : BitVec 64) (k : Nat) : Decidable (Covers off width k) := inferInstanceAs (Decidable (_ ∧ _))

def run (m : BoardState) : ClintEvent → BoardState
  | advance delta => m.advanceMachineTimer delta
  | load off width => (m.loadCLINT off width).2
  | store off width value => m.storeCLINT off width value

/-- the event treats `mtime` as its current bytes -/
def Right (m : BoardState) : ClintEvent → Prop
  | advance delta => (m.advanceMachineTimer delta).mtime = m.mtime + delta
  | load off width => (m.loadCLINT off width).2.mtime = m.mtime ∧
      ∀ k < 8, Covers off width k → byteOf (m.loadCLINT off width).1 (mtimeOff + k - off.toNat) = byteOf m.mtime k
  | store off width value => ∀ k < 8, byteOf (m.storeCLINT off width value).mtime k =
      if Covers off width k then byteOf value (mtimeOff + k - off.toNat) else byteOf m.mtime k

/-- a store to a part of `mtime` finds the other bytes up to date in the image -/
def Current (m : BoardState) : ClintEvent → Prop
  | store off width _ => (∃ k < 8, Covers off width k) → ∀ k < 8, ¬ Covers off width k →
      m.clint (BitVec.ofNat 64 (mtimeOff + k)) = byteOf m.mtime k
  | _ => True

/-- every event of a run has the property in the state before it -/
def Along (p : BoardState → ClintEvent → Prop) : BoardState → List ClintEvent → Prop
  | _, [] => True
  | m, e :: events => p m e ∧ Along p (e.run m) events

/-! ## One event -/

variable {off width : BitVec 64}

theorem Natural.bounds (h : Natural off width) : 0 < width.toNat ∧ width.toNat ≤ 8 ∧ off.toNat ≤ 0x10000 := by
  have hin : off.toNat + width.toNat ≤ 0x10000 := h.inside
  rcases h.size with rfl | rfl | rfl | rfl <;> simp at hin ⊢ <;> omega

theorem covers_iff (h : Natural off width) {k : Nat} (hk : k < 8) :
    (BitVec.ofNat 64 (mtimeOff + k) - off).toNat < width.toNat ↔ Covers off width k := by
  obtain ⟨-, hwidth, hoff⟩ := h.bounds
  unfold Covers mtimeOff
  rw [toNat_sub, toNat_ofNat]
  omega

theorem toNat_sub_of_covers (h : Natural off width) {k : Nat} (hk : k < 8) (hc : Covers off width k) :
    (BitVec.ofNat 64 (mtimeOff + k) - off).toNat = mtimeOff + k - off.toNat := by
  obtain ⟨-, -, hoff⟩ := h.bounds
  unfold Covers mtimeOff at *
  rw [toNat_sub, toNat_ofNat]
  omega

/-- the store goes to `mtime` if it covers one of its bytes -/
theorem touches_iff (h : Natural off width) :
    mmioRangeTouches off width 0xbff8 8 = true ↔ ∃ k < 8, Covers off width k := by
  have hin : off.toNat + width.toNat ≤ 0x10000 := h.inside
  have haligned := h.aligned
  have htouch : mmioRangeTouches off width 0xbff8 8 = true ↔ 0xbff8 ≤ off.toNat ∧ off.toNat < 0xc000 := by
    obtain ⟨hpos, -, -⟩ := h.bounds
    have hne : width ≠ 0 := fun h0 => by rw [h0] at hpos; exact absurd hpos (by decide)
    simp only [mmioRangeTouches, hne, false_or, lt_def, toNat_sub, Bool.and_eq_true, Bool.not_eq_true',
      decide_eq_false_iff_not, decide_eq_true_eq]
    simp
    omega
  rw [htouch]
  unfold Covers mtimeOff
  constructor
  · rintro ⟨hge, hlt⟩
    obtain ⟨hpos, -, -⟩ := h.bounds
    exact ⟨off.toNat - 0xbff8, by omega, by omega, by omega⟩
  · rintro ⟨k, hk, hfrom, hto⟩
    rcases h.size with rfl | rfl | rfl | rfl <;> simp at haligned hto <;> omega

theorem load_right (m : BoardState) (h : Natural off width) : Right m (load off width) := by
  obtain ⟨-, hwidth, hoff⟩ := h.bounds
  refine ⟨rfl, fun k hk hc => ?_⟩
  have hpos : off + BitVec.ofNat 64 (mtimeOff + k - off.toNat) = BitVec.ofNat 64 (mtimeOff + k) := by
    unfold Covers mtimeOff at *
    apply eq_of_toNat_eq
    simp
    omega
  have hbyte : (BitVec.ofNat 64 (mtimeOff + k) - 0xbff8).toNat = k := by
    unfold mtimeOff
    rw [toNat_sub, toNat_ofNat]
    simp
    omega
  show byteOf (readLe (writeLe m.clint 0xbff8 8 m.mtime) off width.toNat) _ = _
  rw [byteOf_readLe _ _ hwidth (by unfold Covers at hc; omega), hpos, writeLe_apply, hbyte, if_pos hk]

theorem store_right_iff (m : BoardState) (h : Natural off width) (value : BitVec 64) :
    Right m (store off width value) ↔ Current m (store off width value) := by
  show (∀ k < 8, byteOf (m.storeCLINT off width value).mtime k = _) ↔ ((∃ k < 8, Covers off width k) → _)
  unfold BoardState.storeCLINT
  dsimp only
  by_cases htouch : ∃ k < 8, Covers off width k
  · -- byte `k` of the new counter is byte `k` of the image after the store
    have hbyte (k : Nat) (hk : k < 8) : byteOf (readLe (writeLe m.clint off width.toNat value) 0xbff8 8) k =
        if Covers off width k then byteOf value (mtimeOff + k - off.toNat) else m.clint
          (BitVec.ofNat 64 (mtimeOff + k)) := by
      have hpos : 0xbff8 + BitVec.ofNat 64 k = BitVec.ofNat 64 (mtimeOff + k) := (BitVec.ofNat_add _ _).symm
      rw [byteOf_readLe _ _ (Nat.le_refl 8) hk, hpos, writeLe_apply]
      by_cases hc : Covers off width k
      · rw [if_pos ((covers_iff h hk).2 hc), if_pos hc, toNat_sub_of_covers h hk hc]
      · rw [if_neg fun hlt => hc ((covers_iff h hk).1 hlt), if_neg hc]
    rw [if_pos ((touches_iff h).2 htouch)]
    refine ⟨fun hright _ k hk hc => ?_, fun hcurrent k hk => ?_⟩
    · have := hright k hk
      rwa [hbyte k hk, if_neg hc, if_neg hc] at this
    · rw [hbyte k hk]
      split_ifs with hc
      · rfl
      · exact hcurrent htouch k hk hc
  · rw [if_neg fun ht => htouch ((touches_iff h).1 ht)]
    refine iff_of_true (fun k hk => ?_) fun ht => absurd ht htouch
    rw [if_neg fun hc => htouch ⟨k, hk, hc⟩]

theorem right_iff (m : BoardState) {e : ClintEvent} (h : e.Aligned) : Right m e ↔ Current m e := by
  cases e with
  | advance delta => exact iff_of_true rfl trivial
  | load off width => exact iff_of_true (load_right m h) trivial
  | store off width value => exact store_right_iff m h value

/-- **The time register.** In a run of timer advances and aligned accesses every store changes just the bytes of `mtime`
that it covers, and every load returns the current ones, iff each store to a part of it finds the other bytes up to date
in the image. -/
theorem clint_time_iff (m : BoardState) (events : List ClintEvent) (haligned : ∀ e ∈ events, e.Aligned) :
    Along Right m events ↔ Along Current m events := by
  induction events generalizing m with
  | nil => exact Iff.rfl
  | cons e events ih =>
    rw [List.forall_mem_cons] at haligned
    exact and_congr (right_iff m haligned.1) (ih (e.run m) haligned.2)

/-- a store to all of `mtime` needs no other byte, and brings the image up to date for a store to the upper half -/
theorem clint_time_parts : Along Right (.newBiosMmio false false none none)
    [.advance 0x100, .store 0xbff8 8 7, .store 0xbffc 4 1, .load 0xbff8 8] := by
  refine (clint_time_iff _ _ ?_).2 ⟨trivial, fun _ k hk hc => absurd ?_ hc, fun _ k hk _ => ?_, trivial, trivial⟩
  · simp only [List.forall_mem_cons]
    exact ⟨trivial, ⟨by decide, by decide, by decide⟩, ⟨by decide, by decide, by decide⟩,
      ⟨by decide, by decide, by decide⟩, by simp⟩
  · unfold Covers mtimeOff
    simp
    omega
  · have hcurrent : ∀ k < 8,
        (run (run (.newBiosMmio false false none none) (.advance 0x100)) (.store 0xbff8 8 7)).clint
            (BitVec.ofNat 64 (mtimeOff + k)) =
          byteOf (run (run (.newBiosMmio false false none none) (.advance 0x100)) (.store 0xbff8 8 7)).mtime k := by
      decide
    exact hcurrent k hk

/-- after the timer has advanced, a store to the lowest byte sets the second one back -/
theorem clint_time_lost :
    byteOf (run (run (.newBiosMmio false false none none) (.advance 0x100)) (.store 0xbff8 1 0)).mtime 1 = 0 ∧
    byteOf (run (.newBiosMmio false false none none) (.advance 0x100)).mtime 1 = 1 := by
  decide

end ClintEvent

end RiscvEmu
