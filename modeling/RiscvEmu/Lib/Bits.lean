/-
Immediates put together from bit fields.

• `Within mask x`: `x` has no bit outside `mask`; it holds of a shifted field and is kept by `|||`, so it is read off
  the way an immediate is assembled.
• `or_and_disjoint`, `clear_and_disjoint`, `clear_and_within`: what setting or clearing bits leaves under a mask.
• `signExtend_setWidth`: widening in two stages is widening at once.
• `sext_shift`: shifting the sign bit up, widening and shifting back fills the high bits.
-/
import Mathlib.Tactic

namespace BitField

open BitVec

/-- `x` has no bit outside `mask` -/
def Within {w : Nat} (mask x : BitVec w) : Prop := x &&& mask = x

instance {w : Nat} (mask x : BitVec w) : Decidable (Within mask x) := inferInstanceAs (Decidable (_ = _))

variable {w : Nat} {mask x y : BitVec w}

theorem Within.or (hx : Within mask x) (hy : Within mask y) : Within mask (x ||| y) := by
  unfold Within at *
  rw [BitVec.and_comm, and_or_distrib_left, BitVec.and_comm mask x, BitVec.and_comm mask y, hx, hy]

theorem within_field (x m : BitVec w) (s : Nat) (h : Within mask (m <<< s)) : Within mask ((x &&& m) <<< s) := by
  unfold Within at *
  rw [shiftLeft_and_distrib, BitVec.and_assoc, h]

theorem Within.getLsbD (h : Within mask x) {i : Nat} (hi : mask.getLsbD i = false) : x.getLsbD i = false := by
  rw [← h, getLsbD_and, hi, Bool.and_false]

theorem within_and (x mask : BitVec w) : Within mask (x &&& mask) := by
  unfold Within
  rw [BitVec.and_assoc, BitVec.and_self]

theorem Within.and (hx : Within mask x) (y : BitVec w) : Within mask (x &&& y) := by
  unfold Within at *
  rw [BitVec.and_assoc, BitVec.and_comm y, ← BitVec.and_assoc, hx]

/-! ## Setting and clearing bits under a mask -/

section Masked

variable {a b m : BitVec w}

theorem or_and_disjoint (h : b &&& m = 0#w) : (a ||| b) &&& m = a &&& m := by
  rw [BitVec.and_comm, and_or_distrib_left, BitVec.and_comm m b, h, or_zero, BitVec.and_comm]

theorem clear_and_disjoint (h : b &&& m = 0#w) : (a &&& ~~~ b) &&& m = a &&& m := by
  have hm : ~~~ b &&& m = m := by
    apply eq_of_getLsbD_eq
    intro i hi
    have hbit : (b.getLsbD i && m.getLsbD i) = false := by
      rw [← getLsbD_and, h, getLsbD_zero]
    simp only [getLsbD_and, getLsbD_not, hi, decide_true, Bool.true_and]
    revert hbit
    cases b.getLsbD i <;> cases m.getLsbD i <;> simp
  rw [BitVec.and_assoc, hm]

theorem clear_and_within (h : Within b m) : (a &&& ~~~ b) &&& m = 0#w := by
  have hm : ~~~ b &&& m = 0#w := by
    unfold Within at h
    rw [← h, BitVec.and_comm m b, ← BitVec.and_assoc, BitVec.not_and_self]
    exact zero_and
  rw [BitVec.and_assoc, hm, and_zero]

end Masked

/-! ## One bit -/

theorem getLsbD_one_shift {k : Nat} (hk : k < w) (b : Nat) : (1#w <<< k).getLsbD b = decide (k = b) := by
  have h : 1#w <<< k = twoPow w k := rfl
  rw [h, getLsbD_twoPow, decide_eq_true hk, Bool.true_and]

theorem and_one_shift_eq_zero_iff (x : BitVec w) {k : Nat} (hk : k < w) :
    x &&& 1#w <<< k = 0#w ↔ x.getLsbD k = false := by
  constructor
  · intro h
    have hb := congrArg (getLsbD · k) h
    simpa only [getLsbD_and, getLsbD_one_shift hk, decide_true, Bool.and_true, getLsbD_zero] using hb
  · intro h
    apply eq_of_getLsbD_eq
    intro i _
    rw [getLsbD_and, getLsbD_one_shift hk, getLsbD_zero]
    by_cases hi : k = i
    · subst hi
      rw [h, Bool.false_and]
    · rw [decide_eq_false hi, Bool.and_false]

/-! ## Even values -/

theorem bit0_iff (x : BitVec w) : x.getLsbD 0 = false ↔ x.toNat % 2 = 0 := by
  rw [getLsbD, Nat.testBit_zero, decide_eq_false_iff_not]
  omega

theorem bit0_add {x y : BitVec 64} (hx : x.getLsbD 0 = false) (hy : y.getLsbD 0 = false) :
    (x + y).getLsbD 0 = false := by
  rw [bit0_iff] at *
  rw [toNat_add]
  omega

theorem shr_and_mask (x : BitVec w) (k n : Nat) :
    x >>> k &&& BitVec.ofNat w (2 ^ n - 1) = (x.extractLsb' k n).setWidth w := by
  apply eq_of_getLsbD_eq
  intro i hi
  simp only [getLsbD_and, getLsbD_ushiftRight, getLsbD_ofNat, Nat.testBit_two_pow_sub_one,
    getLsbD_setWidth, getLsbD_extractLsb']
  grind

/-! ## Widening -/

theorem signExtend_setWidth {u v : Nat} (x : BitVec w) (h : w < v) :
    (x.setWidth v).signExtend u = x.setWidth u := by
  have hmsb : (x.setWidth v).msb = false := by
    simp [msb_eq_getLsbD_last, getLsbD_of_ge x (v - 1) (by omega)]
  rw [signExtend_eq_setWidth_of_msb_false hmsb]
  apply eq_of_getLsbD_eq
  intro i hi
  by_cases hiv : i < v
  · simp [hiv]
  · simp [hiv, getLsbD_of_ge x i (by omega)]

/-- `x` is the sign extension of its low half -/
def Sext32 (x : BitVec 64) : Prop := (x.setWidth 32).signExtend 64 = x

theorem Sext32.or {x y : BitVec 64} (hx : Sext32 x) (hy : Sext32 y) : Sext32 (x ||| y) := by
  unfold Sext32 at *
  rw [setWidth_or, signExtend_or, hx, hy]

theorem Within.sext32 {x : BitVec 64} (h : Within 0x7FFFFFFF#64 x) : Sext32 x := by
  have hlt : x.toNat < 2 ^ 31 := by
    rw [← h, toNat_and]
    exact lt_of_le_of_lt Nat.and_le_right (by decide)
  have hmsb : (x.setWidth 32).msb = false := by
    rw [msb_eq_decide, toNat_setWidth]
    simp
    omega
  rw [Sext32, signExtend_eq_setWidth_of_msb_false hmsb]
  apply eq_of_toNat_eq
  simp
  omega

theorem setWidth_signExtend32 (x : BitVec 32) : (x.signExtend 64).setWidth 32 = x := by
  apply eq_of_getLsbD_eq
  intro i hi
  simp only [getLsbD_setWidth, getLsbD_signExtend, hi, show i < 64 by omega, decide_true, Bool.true_and,
    if_true]

theorem signExtend_injective : Function.Injective (signExtend 64 : BitVec 32 → BitVec 64) :=
  Function.LeftInverse.injective setWidth_signExtend32

theorem msb_signExtend32 (x : BitVec 32) : (x.signExtend 64).msb = x.msb := by
  simp [msb_signExtend]

theorem sshiftRight_signExtend (x : BitVec 32) (s : Nat) :
    (x.sshiftRight s).signExtend 64 = (x.signExtend 64).sshiftRight s := by
  apply eq_of_getLsbD_eq
  intro i hi
  simp only [getLsbD_sshiftRight, getLsbD_signExtend, msb_sshiftRight, msb_signExtend32]
  grind

/-- filling the bits above the sign bit `31 - s` is shifting it to the top, widening and
shifting back -/
theorem sext_shift {mask x : BitVec 32} {s : Nat} (hs : s < 32) (hx : Within mask x)
    (hmask : ∀ i < 32, mask.getLsbD i = decide (i < 32 - s)) :
    ((x <<< s).signExtend 64).sshiftRight s =
      (if x.getLsbD (31 - s) then x ||| ~~~mask else x).signExtend 64 := by
  have hz : ∀ i, 32 - s ≤ i → x.getLsbD i = false := by
    intro i hi
    by_cases hi' : i < 32
    · exact hx.getLsbD (by rw [hmask i hi']; simp; omega)
    · exact getLsbD_of_ge x i (by omega)
  have hmsb : (x <<< s).msb = x.getLsbD (31 - s) := by
    rw [msb_eq_getLsbD_last, getLsbD_shiftLeft]
    simp only [show 32 - 1 < 32 by omega, show ¬ 32 - 1 < s by omega, decide_true, decide_false, Bool.not_false,
      Bool.true_and]
  apply eq_of_getLsbD_eq
  intro i hi
  have hbit : (((x <<< s).signExtend 64).sshiftRight s).getLsbD i = x.getLsbD (min i (31 - s)) := by
    simp only [getLsbD_sshiftRight, getLsbD_signExtend, msb_signExtend32, hmsb,
      getLsbD_shiftLeft]
    grind
  rw [hbit]
  by_cases hb : x.getLsbD (31 - s) = true
  · simp only [hb, if_true, getLsbD_signExtend, getLsbD_or, getLsbD_not,
      msb_eq_getLsbD_last]
    grind
  · simp only [hb, getLsbD_signExtend, msb_eq_getLsbD_last]
    grind

end BitField
