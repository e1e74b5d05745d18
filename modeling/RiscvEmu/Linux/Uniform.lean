/-
The scheduler's random numbers (`schedN`, `drawSchedulerQuantum` in `jea9linux.go`) are uniform if the draws are.

`schedN n` throws away the draws from the largest multiple of `n` below 2⁶⁴ - 1 on and reduces the first that is left.
What one draw becomes is `schedResult`, and `sched_uniform` counts the values that become each number. A quantum is
such a number above the least quantum; neither the span nor the sum wraps.
-/
import Mathlib.Data.Int.CardIntervalMod
import RiscvEmu.Linux.Run

namespace RiscvEmu.Linux

open BitVec Jea9Linux

/-- what `schedN n` makes of a draw: `none` if it draws again -/
def schedResult (n v : BitVec 64) : Option (BitVec 64) := if v < schedLimit n then some (v % n) else none

/-- what `drawSchedulerQuantum` makes of a draw -/
def quantumResult (cfg : SchedulerConfig) (v : BitVec 64) : Option (BitVec 64) :=
  (schedResult (cfg.maxQuantumRetired - cfg.minQuantumRetired + 1) v).map (cfg.minQuantumRetired + ·)

/-- `r` is made of the first draw of the generator that is accepted -/
def Draws (jos : Jea9Linux) (result : BitVec 64 → Option (BitVec 64)) (r : BitVec 64) : Prop :=
  ∃ j, (∀ i < j, result (jos.schedRNG.draw (jos.schedDraws + i)) = none) ∧
    result (jos.schedRNG.draw (jos.schedDraws + j)) = some r

/-- how many of the 2⁶⁴ values of a draw have the property -/
def valueCount (p : BitVec 64 → Prop) [DecidablePred p] :
    Nat := ((Finset.range (2 ^ 64)).filter fun v => p (BitVec.ofNat 64 v)).card

/-- the results lie between `lo` and `hi`, each is made of equally many draws, and at least half of the draws are
accepted -/
structure Uniform (result : BitVec 64 → Option (BitVec 64)) (lo hi : BitVec 64) : Prop where
  inside : ∀ v r, result v = some r → lo ≤ r ∧ r ≤ hi
  equal : ∃ c, ∀ r, lo ≤ r → r ≤ hi → valueCount (fun v => result v = some r) = c
  half : 2 ^ 63 ≤ valueCount fun v => (result v).isSome

namespace Jea9Linux

/-! ## One draw -/

variable {n : BitVec 64}

theorem toNat_schedLimit (n : BitVec 64) : (schedLimit n).toNat = 2 ^ 64 - 1 - (2 ^ 64 - 1) % n.toNat := by
  have hle := Nat.mod_le (2 ^ 64 - 1) n.toNat
  unfold schedLimit
  rw [toNat_sub, toNat_umod, toNat_allOnes]
  omega

/-- the limit is a multiple of `n` -/
theorem schedLimit_eq_mul (n : BitVec 64) : (schedLimit n).toNat = n.toNat * ((2 ^ 64 - 1) / n.toNat) := by
  have hdiv := Nat.div_add_mod (2 ^ 64 - 1) n.toNat
  rw [toNat_schedLimit]
  omega

theorem schedResult_eq_some_iff {v : Nat} (hv : v < 2 ^ 64) {r : BitVec 64} :
    schedResult n (BitVec.ofNat 64 v) = some r ↔ v < (schedLimit n).toNat ∧ v % n.toNat = r.toNat := by
  have hnat : (BitVec.ofNat 64 v).toNat = v := by rw [toNat_ofNat, Nat.mod_eq_of_lt hv]
  unfold schedResult
  simp only [Option.ite_none_right_eq_some, Option.some.injEq, lt_def, hnat, ← toNat_inj, toNat_umod]

theorem valueCount_schedResult {r : BitVec 64} (hr : r < n) :
    valueCount (fun v => schedResult n v = some r) = (2 ^ 64 - 1) / n.toNat := by
  have hpos : 0 < n.toNat := Nat.lt_of_le_of_lt (Nat.zero_le _) (lt_def.1 hr)
  have hsame : ((Finset.range (2 ^ 64)).filter fun v => schedResult n (BitVec.ofNat 64 v) = some r) =
      (Finset.range (schedLimit n).toNat).filter (· ≡ r.toNat [MOD n.toNat]) := by
    ext v
    have hlimit := (schedLimit n).isLt
    simp only [Finset.mem_filter, Finset.mem_range, Nat.ModEq, Nat.mod_eq_of_lt (lt_def.1 hr)]
    constructor
    · rintro ⟨hv, hresult⟩
      exact (schedResult_eq_some_iff hv).1 hresult
    · rintro ⟨hv, hmod⟩
      exact ⟨by omega, (schedResult_eq_some_iff (by omega)).2 ⟨hv, hmod⟩⟩
  unfold valueCount
  rw [hsame, ← Nat.count_eq_card_filter_range, Nat.count_modEq_card _ hpos, schedLimit_eq_mul,
    Nat.mul_div_cancel_left _ hpos,
    Nat.mul_mod_right, if_neg (Nat.not_lt_zero _), Nat.add_zero]

theorem valueCount_accepted (hn : n ≠ 0) : 2 ^ 63 ≤ valueCount fun v => (schedResult n v).isSome := by
  have hsub : Finset.range (2 ^ 63) ⊆ (Finset.range (2 ^ 64)).filter fun v =>
      (schedResult n (BitVec.ofNat 64 v)).isSome := by
    intro v hv
    have hlarge : 2 ^ 63 ≤ (schedLimit n).toNat := le_def.1 (schedLimit_large hn)
    rw [Finset.mem_range] at hv
    rw [Finset.mem_filter, Finset.mem_range]
    refine ⟨by omega, ?_⟩
    have haccept : BitVec.ofNat 64 v < schedLimit n := by
      rw [lt_def, toNat_ofNat, Nat.mod_eq_of_lt (by omega)]
      omega
    rw [schedResult, if_pos haccept]
    rfl
  have hcard := Finset.card_le_card hsub
  rwa [Finset.card_range] at hcard

theorem schedResult_lt (hn : n ≠ 0) {v r : BitVec 64} (h : schedResult n v = some r) : r < n := by
  have hpos : 0 < n.toNat := Nat.pos_of_ne_zero fun h0 => hn (eq_of_toNat_eq h0)
  unfold schedResult at h
  rw [Option.ite_none_right_eq_some, Option.some.injEq] at h
  rw [← h.2, lt_def, toNat_umod]
  exact Nat.mod_lt _ hpos

/-! ## The loop -/

variable (jos : Jea9Linux)

theorem schedN_draws (hn : n ≠ 0) : Draws jos (schedResult n) (jos.schedN n).1 := by
  obtain ⟨j, hj⟩ := Option.isSome_iff_exists.1 (jos.schedSkip_isSome hn)
  have hfind := hj
  unfold schedSkip at hfind
  rw [List.find?_range_eq_some] at hfind
  obtain ⟨haccept, -, hreject⟩ := hfind
  refine ⟨j, fun i hi => ?_, ?_⟩
  · have := hreject i hi
    simpa [schedResult] using this
  · unfold schedN
    rw [if_neg hn, hj]
    exact if_pos (of_decide_eq_true haccept)

theorem schedN_uniform (hn : n ≠ 0) : Uniform (schedResult n) 0 (n - 1) := by
  have hpos : 0 < n.toNat := Nat.pos_of_ne_zero fun h0 => hn (eq_of_toNat_eq h0)
  have hlast : (n - 1).toNat = n.toNat - 1 := toNat_sub_of_le (by rw [le_def]; exact hpos)
  refine ⟨fun v r h => ⟨Nat.zero_le _, ?_⟩, ⟨_, fun r _ hr => valueCount_schedResult ?_⟩, valueCount_accepted hn⟩
  · have := lt_def.1 (schedResult_lt hn h)
    rw [le_def]
    omega
  · rw [le_def] at hr
    rw [lt_def]
    omega

end Jea9Linux

/-! ## Quanta -/

/-- a quantum is a number below the span, above the least quantum -/
theorem quantumResult_uniform {cfg : SchedulerConfig} (hmin : 1 ≤ cfg.minQuantumRetired)
    (hmax : cfg.minQuantumRetired ≤ cfg.maxQuantumRetired) :
    Uniform (quantumResult cfg) cfg.minQuantumRetired cfg.maxQuantumRetired := by
  unfold quantumResult
  generalize cfg.minQuantumRetired = lo at hmin hmax ⊢
  generalize cfg.maxQuantumRetired = hi at hmax ⊢
  have hspan : (hi - lo + 1).toNat = hi.toNat - lo.toNat + 1 := by bv_omega
  have hpos : hi - lo + 1 ≠ 0 := by bv_omega
  refine ⟨fun v r h => ?_, ⟨(2 ^ 64 - 1) / (hi - lo + 1).toNat, fun r hlo hhi => ?_⟩, ?_⟩
  · obtain ⟨q, hq, rfl⟩ := Option.map_eq_some_iff.1 h
    have hlt := schedResult_lt hpos hq
    bv_omega
  · have hsame (v : BitVec 64) :
        (schedResult (hi - lo + 1) v).map (lo + ·) = some r ↔ schedResult (hi - lo + 1) v = some (r - lo) := by
      rw [Option.map_eq_some_iff]
      refine ⟨fun ⟨q, hq, hr⟩ => ?_, fun h => ⟨r - lo, h, by bv_omega⟩⟩
      rw [hq, ← hr, show lo + q - lo = q by bv_omega]
    unfold valueCount
    simp only [hsame]
    exact valueCount_schedResult (by bv_omega)
  · simpa only [Option.isSome_map] using valueCount_accepted hpos

/-- **Uniform numbers.** `schedN n` makes its number of the first draw that it accepts, every number below `n` of
equally many values of a draw, and accepts at least half of these; and so for `drawSchedulerQuantum` and the quanta of
the configuration. -/
theorem sched_uniform (jos : Jea9Linux) (n : BitVec 64) (hn : n ≠ 0) (hmin : 1 ≤ jos.schedulerConfig.minQuantumRetired)
    (hmax : jos.schedulerConfig.minQuantumRetired ≤ jos.schedulerConfig.maxQuantumRetired)
    (hmode : jos.schedulerConfig.mode ≠ .roundRobin) :
    (Draws jos (schedResult n) (jos.schedN n).1 ∧ Uniform (schedResult n) 0 (n - 1)) ∧
      (if jos.schedulerConfig.minQuantumRetired = jos.schedulerConfig.maxQuantumRetired then
        jos.drawSchedulerQuantum = (jos.schedulerConfig.minQuantumRetired, jos)
      else Draws jos (quantumResult jos.schedulerConfig) jos.drawSchedulerQuantum.1) ∧
      Uniform (quantumResult jos.schedulerConfig) jos.schedulerConfig.minQuantumRetired
        jos.schedulerConfig.maxQuantumRetired := by
  refine ⟨⟨jos.schedN_draws hn, schedN_uniform hn⟩, ?_, quantumResult_uniform hmin hmax⟩
  have hclamp :
      ¬ jos.schedulerConfig.maxQuantumRetired < jos.schedulerConfig.minQuantumRetired := by rwa [BitVec.not_lt]
  simp only [drawSchedulerQuantum, if_neg hclamp, hmode, false_or]
  split_ifs with heq
  · rfl
  · obtain ⟨j, hreject, haccept⟩ := jos.schedN_draws
      (n := jos.schedulerConfig.maxQuantumRetired - jos.schedulerConfig.minQuantumRetired + 1) (by bv_omega)
    refine ⟨j, fun i hi => ?_, ?_⟩
    · rw [quantumResult, hreject i hi]
      rfl
    · rw [quantumResult, haccept]
      rfl

/-- quanta of up to 2⁶⁴ - 1 instructions, drawn by a scheduler that is not round-robin -/
def longQuanta : Jea9Linux :=
  { smallBoot.jos with
    schedulerConfig := {
      smallBoot.jos.schedulerConfig with mode := .dst, minQuantumRetired := 1, maxQuantumRetired := allOnes 64 } }

theorem longQuanta_uniform :
    Draws longQuanta (quantumResult longQuanta.schedulerConfig) longQuanta.drawSchedulerQuantum.1 ∧
    Uniform (quantumResult longQuanta.schedulerConfig) 1 (allOnes 64) := by
  obtain ⟨-, hdraws, huniform⟩ := sched_uniform longQuanta 1 (by decide) (by decide) (by decide) (by decide)
  rw [if_neg (by decide)] at hdraws
  exact ⟨hdraws, huniform⟩

end RiscvEmu.Linux
