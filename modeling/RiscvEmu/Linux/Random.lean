/-
The random bytes of the guest (`fillRandom`, `randomBlock` in `jea9linux.go`).

All of them come from one stream: the blocks that SHA-256 makes of the root seed and a counter. What a call leaves of
a block is kept for the next one, so the bytes handed out and the rest of the last block are the blocks made so far
(`Served`), however the calls divide them (`fillRandom_stream`).
-/
import RiscvEmu.Lib.Bytes

namespace RiscvEmu.Linux

abbrev RandomBlock := Vector (BitVec 8) 32

/-- the fields of `Jea9Linux` that `fillRandom` uses -/
structure RandomState where
  rootSeed : RandomBlock
  randomCounter : BitVec 64
  randomBuf : RandomBlock
  randomOff : Nat

/-- as `NewJea9Linux` sets them: the (zeroed) buffer counts as used up -/
def newRandomState (rootSeed : RandomBlock) : RandomState :=
  { rootSeed := rootSeed, randomCounter := 0, randomBuf := Vector.replicate 32 0, randomOff := 32 }

variable (sha256 : List (BitVec 8) → RandomBlock)

def randomBlock (rootSeed : RandomBlock) (label : String) (counter : BitVec 64) : RandomBlock :=
  sha256 (rootSeed.toList ++ label.toUTF8.data.toList.map UInt8.toBitVec ++ Bytes.toLe 8 counter)

namespace RandomState

/-- a block that is used up is replaced by the next one -/
def refill (jos : RandomState) : RandomState :=
  if jos.randomOff ≥ 32 then
    { jos with
      randomBuf := randomBlock sha256 jos.rootSeed "sys-random-v1" jos.randomCounter
      randomCounter := jos.randomCounter + 1
      randomOff := 0 }
  else jos

theorem refill_off (jos : RandomState) : (jos.refill sha256).randomOff < 32 := by
  unfold refill
  split_ifs with h
  · exact Nat.zero_lt_succ 31
  · exact Nat.lt_of_not_le h

/-- `fillRandom`: what it writes to `dst` -/
def fillRandom (jos : RandomState) (dst : List (BitVec 8)) : List (BitVec 8) × RandomState :=
  if dst = [] then ([], jos)
  else
    let jos' := jos.refill sha256
    let src := jos'.randomBuf.toList.drop jos'.randomOff
    let n := min dst.length src.length
    let r := fillRandom { jos' with randomOff := jos'.randomOff + n } (dst.drop n)
    (src.take n ++ r.1, r.2)
termination_by dst.length
decreasing_by
  have hoff := jos.refill_off sha256
  have hlen : 0 < dst.length := List.length_pos_iff.2 ‹_›
  simp only [List.length_drop, Vector.length_toList]
  omega

/-- the bytes of calls made one after the other -/
def fillEach (jos : RandomState) : List (List (BitVec 8)) → List (BitVec 8)
  | [] => []
  | dst :: dsts => (jos.fillRandom sha256 dst).1 ++ (jos.fillRandom sha256 dst).2.fillEach dsts

end RandomState

/-! ## The stream -/

/-- the first `n` blocks; the counter is a machine word -/
def randomBlocks (rootSeed : RandomBlock) (n : Nat) : List (BitVec 8) :=
  (List.range n).flatMap fun i => (randomBlock sha256 rootSeed "sys-random-v1" (BitVec.ofNat 64 i)).toList

theorem randomBlocks_add (rootSeed : RandomBlock) (n d : Nat) :
    ∃ more, randomBlocks sha256 rootSeed (n + d) = randomBlocks sha256 rootSeed n ++ more := by
  unfold randomBlocks
  rw [List.range_add, List.flatMap_append]
  exact ⟨_, rfl⟩

theorem length_randomBlocks (rootSeed : RandomBlock) (n : Nat) : (randomBlocks sha256 rootSeed n).length = 32 * n := by
  simp [randomBlocks, List.length_flatMap, Nat.mul_comm]

variable {sha256} {rootSeed : RandomBlock} {out : List (BitVec 8)} {jos : RandomState}

theorem take_randomBlocks {total n k : Nat} (hn : total ≤ 32 * n) (hk : total ≤ 32 * k) :
    (randomBlocks sha256 rootSeed n).take total = (randomBlocks sha256 rootSeed k).take total := by
  wlog h : n ≤ k generalizing n k
  · exact (this hk hn (Nat.le_of_not_le h)).symm
  obtain ⟨d, rfl⟩ := Nat.exists_eq_add_of_le h
  obtain ⟨more, hmore⟩ := randomBlocks_add sha256 rootSeed n d
  rw [hmore, List.take_append_of_le_length (by rw [length_randomBlocks]; exact hn)]

/-- the bytes handed out and the rest of the buffer are the blocks made so far -/
def Served (sha256 : List (BitVec 8) → RandomBlock) (rootSeed : RandomBlock) (out : List (BitVec 8))
    (jos : RandomState) : Prop :=
  jos.rootSeed = rootSeed ∧ ∃ n, jos.randomCounter = BitVec.ofNat 64 n ∧
    out ++ jos.randomBuf.toList.drop jos.randomOff = randomBlocks sha256 rootSeed n

namespace Served

theorem refill (h : Served sha256 rootSeed out jos) : Served sha256 rootSeed out (jos.refill sha256) := by
  obtain ⟨rfl, n, hcounter, hbytes⟩ := h
  unfold RandomState.refill
  split_ifs with hoff
  · have hrest : jos.randomBuf.toList.drop jos.randomOff = [] := List.drop_eq_nil_of_le (by simpa using hoff)
    refine ⟨rfl, n + 1, by simp [hcounter, BitVec.ofNat_add], ?_⟩
    rw [hrest, List.append_nil] at hbytes
    rw [hbytes, hcounter, List.drop_zero]
    simp [randomBlocks, List.range_succ]
  · exact ⟨rfl, n, hcounter, hbytes⟩

/-- a call hands out as many bytes as the buffer it fills has -/
theorem fillRandom (h : Served sha256 rootSeed out jos) (dst : List (BitVec 8)) :
    (jos.fillRandom sha256 dst).1.length = dst.length ∧
    Served sha256 rootSeed (out ++ (jos.fillRandom sha256 dst).1) (jos.fillRandom sha256 dst).2 := by
  fun_induction jos.fillRandom sha256 dst generalizing out with
  | case1 => exact ⟨rfl, by simpa using h⟩
  | case2 =>
    rename_i jos dst hnil jos' src n r ih
    obtain ⟨hseed, blocks, hcounter, hbytes⟩ := h.refill
    have hserved : Served sha256 rootSeed (out ++ src.take n) { jos' with randomOff := jos'.randomOff + n } := by
      refine ⟨hseed, blocks, hcounter, ?_⟩
      rw [← List.drop_drop, List.append_assoc, List.take_append_drop]
      exact hbytes
    obtain ⟨hlen, hserved'⟩ := ih hserved
    refine ⟨?_, by rw [← List.append_assoc]; exact hserved'⟩
    have hn : n ≤ dst.length ∧ n ≤ src.length := ⟨Nat.min_le_left _ _, Nat.min_le_right _ _⟩
    rw [List.length_append, hlen, List.length_take_of_le hn.2, List.length_drop, Nat.add_sub_cancel' hn.1]

theorem fillEach (h : Served sha256 rootSeed out jos) (dsts : List (List (BitVec 8))) :
    (jos.fillEach sha256 dsts).length = (dsts.map List.length).sum ∧
      ∃ jos', Served sha256 rootSeed (out ++ jos.fillEach sha256 dsts) jos' := by
  induction dsts generalizing out jos with
  | nil => exact ⟨rfl, jos, by simpa [RandomState.fillEach] using h⟩
  | cons dst dsts ih =>
    obtain ⟨hlen, hserved⟩ := h.fillRandom dst
    obtain ⟨hlens, jos', hserved'⟩ := ih hserved
    rw [RandomState.fillEach, List.length_append, hlen, hlens, ← List.append_assoc]
    exact ⟨rfl, jos', hserved'⟩

end Served

theorem fillEach_new (dsts : List (List (BitVec 8))) {k : Nat} (hk : (dsts.map List.length).sum ≤ 32 * k) :
    (newRandomState rootSeed).fillEach sha256 dsts = (randomBlocks sha256 rootSeed k).take
      (dsts.map List.length).sum := by
  have hnew : Served sha256 rootSeed [] (newRandomState rootSeed) := ⟨rfl, 0, rfl, rfl⟩
  obtain ⟨hlen, jos', -, n, -, hbytes⟩ := hnew.fillEach dsts
  have hn : (dsts.map List.length).sum ≤ 32 * n := by
    rw [← hlen, ← length_randomBlocks sha256 rootSeed n, ← hbytes]
    simp
  rw [take_randomBlocks hk hn, ← hbytes, List.nil_append, ← hlen, List.take_left]

/-- **One stream.** However many bytes each call asks for, the calls together read the blocks `0`, `1`, and so on up to
their total: two sequences of calls with the same total read the same bytes. -/
theorem fillRandom_stream (sha256 : List (BitVec 8) → RandomBlock) (rootSeed : RandomBlock)
    (dsts dsts' : List (List (BitVec 8))) (h : (dsts.map List.length).sum = (dsts'.map List.length).sum) :
    (newRandomState rootSeed).fillEach sha256 dsts = (newRandomState rootSeed).fillEach sha256 dsts' ∧
      ∀ k, (dsts.map List.length).sum ≤ 32 * k →
        (newRandomState rootSeed).fillEach sha256 dsts = (randomBlocks sha256 rootSeed k).take
          (dsts.map List.length).sum := by
  refine ⟨?_, fun k hk => fillEach_new dsts hk⟩
  have hk : (dsts.map List.length).sum ≤ 32 * (dsts.map List.length).sum := Nat.le_mul_of_pos_left _ (by decide)
  rw [fillEach_new dsts hk, fillEach_new dsts' (h ▸ hk), h]

/-- across the border of a block, with a hash that is the low byte of the counter -/
theorem fillRandom_stream_border :
    (newRandomState (Vector.replicate 32 7)).fillEach (fun bytes => Vector.replicate 32 (bytes.getD 45 0))
      [List.replicate 20 0, List.replicate 20 0] =
    (newRandomState (Vector.replicate 32 7)).fillEach (fun bytes => Vector.replicate 32 (bytes.getD 45 0))
    [List.replicate 40 0] :=
  (fillRandom_stream _ _ [List.replicate 20 0, List.replicate 20 0] [List.replicate 40 0] rfl).1

end RiscvEmu.Linux
