/-
What guest-memory accesses do when no device answers: their fault as a pure function of the checks (`accessFault`),
the loads and stores in its terms, and the byte loops against the wide access.

• `check_eq_zero_iff`: the one-expression check is "aligned and inside the slab".
• `load_noMmio`, `store_noMmio`: an access is its fault, or its bytes.
• `loadBytes_allowed`, `storeBytes_allowed`: byte by byte is the same as at once, when every byte is allowed;
  `loadBytes_refused`, `storeBytes_refused`: the first byte refused ends it.
-/
import RiscvEmu.GuestMemory

namespace RiscvEmu

variable {w n : Nat} {g : MemFault}

open Bytes Option

namespace GuestMemory

variable {m : GuestMemory} {addr width v : BitVec 64} {kind : FaultKind} {f : MemFault}

/-! ## Sizes and bounds -/

variable (m)

theorem size_toNat : m.size.toNat = 2 ^ m.logSize.val := by
  have h : m.logSize.val < 40 := m.logSize.isLt
  have hpow : 2 ^ m.logSize.val < 2 ^ 64 := Nat.pow_lt_pow_right (by omega) (by omega)
  simp only [size, BitVec.toNat_shiftLeft, BitVec.toNat_ofNat, Nat.shiftLeft_eq]
  rw [Nat.mod_eq_of_lt (a := 1) (by omega), one_mul, Nat.mod_eq_of_lt hpow]

theorem size_le : m.size.toNat ≤ 2 ^ 39 := by
  rw [size_toNat]
  exact Nat.pow_le_pow_right (by omega) (by omega)

theorem size_pos : 0 < m.size.toNat := by
  rw [size_toNat]
  exact Nat.two_pow_pos _

theorem mask_toNat : m.mask.toNat = 2 ^ m.logSize.val - 1 := by
  have h := m.size_toNat
  have hpos := m.size_pos
  have hle : (1 : BitVec 64) ≤ m.size := by
    rw [BitVec.le_def]
    exact hpos
  rw [mask, BitVec.toNat_sub_of_le hle, h]
  rfl

theorem and_mask_toNat (a : BitVec 64) : (a &&& m.mask).toNat = a.toNat % m.size.toNat := by
  rw [BitVec.toNat_and, mask_toNat, size_toNat, Nat.and_two_pow_sub_one_eq_mod]

theorem and_mask_of_lt {a : BitVec 64} (h : a.toNat < m.size.toNat) : a &&& m.mask = a := by
  apply BitVec.eq_of_toNat_eq
  rw [and_mask_toNat, Nat.mod_eq_of_lt h]

theorem and_not_mask_eq_zero_iff (a : BitVec 64) :
    a &&& ~~~ m.mask = 0 ↔ a.toNat < m.size.toNat := by
  constructor
  · intro h
    have hsplit : a = a &&& m.mask := by
      have : a = (a &&& m.mask) ||| (a &&& ~~~ m.mask) := by
        ext i hi
        simp only [BitVec.getElem_or, BitVec.getElem_and, BitVec.getElem_not]
        cases a[i] <;> cases m.mask[i] <;> rfl
      rw [h] at this
      simpa using this
    rw [hsplit, and_mask_toNat]
    exact Nat.mod_lt _ m.size_pos
  · intro h
    rw [← m.and_mask_of_lt h]
    ext i hi
    simp only [BitVec.getElem_and, BitVec.getElem_not]
    cases a[i] <;> cases m.mask[i] <;> simp

theorem check_eq_zero_iff (addr width : BitVec 64) :
    m.check addr width = 0 ↔
      addr &&& (width - 1) = 0 ∧ addr.toNat < m.size.toNat ∧ (addr + width - 1).toNat < m.size.toNat := by
  have hmask : (addr ||| (addr + width - 1)) &&& ~~~ m.mask = 0 ↔
      addr.toNat < m.size.toNat ∧ (addr + width - 1).toNat < m.size.toNat := by
    rw [BitVec.and_or_distrib_right, ← and_not_mask_eq_zero_iff, ← and_not_mask_eq_zero_iff]
    exact BitVec.or_eq_zero_iff
  exact BitVec.or_eq_zero_iff.trans (and_congr_right' hmask)

theorem check_one_eq_zero_iff (addr : BitVec 64) :
    m.check addr 1 = 0 ↔ addr.toNat < m.size.toNat := by
  rw [check_eq_zero_iff]
  have h1 : addr &&& (1 - 1) = 0 := by simp
  have h2 : addr + 1 - 1 = addr := by bv_omega
  rw [h2]
  tauto

variable {m}

theorem checkSandboxEscape_eq_none_of_lt (h : addr.toNat < m.size.toNat) :
    m.checkSandboxEscape addr width = none := by
  unfold checkSandboxEscape
  have := (m.and_not_mask_eq_zero_iff addr).2 h
  split_ifs with h1 h2
  · rfl
  · exact absurd this h2.2
  · rfl

theorem hostPtr_of_lt (h : addr.toNat < m.size.toNat) : m.hostPtr addr = addr := by
  unfold hostPtr
  split_ifs
  · apply BitVec.eq_of_toNat_eq
    rw [and_mask_toNat, Nat.mod_eq_of_lt h]
  · rfl

/-! ## The fault of an access -/

/-- the fault of an access that no device answers -/
def accessFault (m : GuestMemory) (addr width : BitVec 64) (kind : FaultKind) : Option MemFault :=
  match m.precheck addr width kind with
  | some f => some f
  | none => if m.check addr width ≠ 0 then some (fault addr width kind) else none

theorem mmioAccess_none (h : m.mmio = none) (a : MmioAccess) : m.mmioAccess a = none := by
  simp [mmioAccess, h]

theorem load_noMmio (h : m.mmio = none) :
    load width addr m = (match m.accessFault addr width .load with
      | some f => .error f
      | none => .ok (m.bytes.readLe (m.hostPtr addr) width.toNat), m) := by
  unfold load accessFault
  rw [mmioAccess_none h]
  cases m.precheck addr width .load with
  | some f => rfl
  | none => dsimp only; split_ifs <;> rfl

theorem store_noMmio (h : m.mmio = none) :
    store width addr v m = match m.accessFault addr width .store with
      | some f => (.error f, m)
      | none => (.ok (), { m with bytes := m.bytes.writeLe (m.hostPtr addr) width.toNat v }) := by
  unfold store accessFault
  rw [mmioAccess_none h]
  cases m.precheck addr width .store with
  | some f => rfl
  | none => dsimp only; split_ifs <;> rfl

@[simp] theorem accessFault_withBytes (m : GuestMemory) (b : Bytes) (addr width : BitVec 64) (kind : FaultKind) :
    ({ m with bytes := b } : GuestMemory).accessFault addr width kind = m.accessFault addr width kind := rfl

@[simp] theorem hostPtr_withBytes (m : GuestMemory) (b : Bytes) (addr : BitVec 64) :
    ({ m with bytes := b } : GuestMemory).hostPtr addr = m.hostPtr addr := rfl

theorem checkAccessOverlay_some (h : m.checkAccessOverlay addr width kind = some f) :
    f = { addr := addr, width := width, kind := kind } := by
  unfold checkAccessOverlay at h
  split at h
  · cases h
  · rename_i o _
    exact o.reports _ _ _ _ _ h

theorem checkSandboxEscape_some (h : m.checkSandboxEscape addr width = some f) :
    f = { addr := addr, width := width, kind := .sandboxEscape } ∧ m.size.toNat ≤ addr.toNat := by
  unfold checkSandboxEscape at h
  split_ifs at h with h1 h2
  refine ⟨by simpa using h.symm, ?_⟩
  by_contra hlt
  exact h2.2 ((m.and_not_mask_eq_zero_iff addr).2 (by omega))

theorem accessFault_some (h : m.accessFault addr width kind = some f) :
    f.addr = addr ∧
      f.kind = if (m.checkSandboxEscape addr width).isSome then .sandboxEscape
        else if (m.checkAccessOverlay addr width kind).isSome then kind
        else if addr &&& (width - 1) ≠ 0 then .misalign else kind := by
  unfold accessFault precheck at h
  cases he : m.checkSandboxEscape addr width with
  | some g =>
    obtain ⟨rfl, -⟩ := checkSandboxEscape_some he
    simp only [he, some.injEq] at h
    subst h
    simp
  | none =>
    cases ho : m.checkAccessOverlay addr width kind with
    | some g =>
      obtain rfl := checkAccessOverlay_some ho
      simp only [he, ho, some.injEq] at h
      subst h
      simp
    | none =>
      simp only [he, ho] at h
      split_ifs at h with hc
      obtain rfl := some.inj h
      simp [fault]

theorem checkSandboxEscape_isSome (m : GuestMemory) (addr width width' : BitVec 64) :
    (m.checkSandboxEscape addr width).isSome = (m.checkSandboxEscape addr width').isSome := by
  unfold checkSandboxEscape
  split_ifs <;> rfl

theorem accessFault_one_kind (h : m.accessFault addr 1 kind = some f) :
    f.kind = if (m.checkSandboxEscape addr 1).isSome then .sandboxEscape else kind := by
  rw [(accessFault_some h).2]
  split_ifs <;> simp_all

theorem accessFault_eq_none_iff (m : GuestMemory) (addr width : BitVec 64) (kind : FaultKind) :
    m.accessFault addr width kind = none ↔
      m.checkAccessOverlay addr width kind = none ∧ m.check addr width = 0 := by
  unfold accessFault precheck
  cases he : m.checkSandboxEscape addr width with
  | some g =>
    obtain ⟨-, hge⟩ := checkSandboxEscape_some he
    simp only [reduceCtorEq, false_iff, not_and]
    intro _ hc
    have := ((m.check_eq_zero_iff addr width).1 hc).2.1
    omega
  | none =>
    cases m.checkAccessOverlay addr width kind with
    | some g => simp
    | none => simp

/-! ## One byte -/

theorem load8_noMmio (h : m.mmio = none) :
    load8 addr m = (match m.accessFault addr 1 .load with
      | some f => .error f
      | none => .ok (m.bytes (m.hostPtr addr)), m) := by
  unfold load8
  rw [Exec.bind_run, load_noMmio h]
  cases m.accessFault addr 1 .load with
  | some f => rfl
  | none => simp [readLe]

theorem store8_noMmio (h : m.mmio = none) (b : BitVec 8) :
    store8 addr b m = match m.accessFault addr 1 .store with
      | some f => (.error f, m)
      | none => (.ok (), { m with bytes := fun p => if p = m.hostPtr addr then b else m.bytes p }) := by
  unfold store8
  rw [store_noMmio h]
  cases m.accessFault addr 1 .store with
  | some f => rfl
  | none => simp [writeLe_one]

theorem lt_size_of_accessFault_one (h : m.accessFault addr 1 kind = none) : addr.toNat < m.size.toNat :=
  (m.check_one_eq_zero_iff addr).1 ((m.accessFault_eq_none_iff addr 1 kind).1 h).2

/-! ## Byte by byte -/

theorem bytes_allowed_or_first (m : GuestMemory) (addr : BitVec 64) (kind : FaultKind) (n : Nat) :
    (∀ i < n, m.accessFault (addr + BitVec.ofNat 64 i) 1 kind = none) ∨
      ∃ k < n, ∃ g, m.accessFault (addr + BitVec.ofNat 64 k) 1 kind = some g ∧
        ∀ i < k, m.accessFault (addr + BitVec.ofNat 64 i) 1 kind = none := by
  induction n with
  | zero => exact .inl fun i hi => absurd hi (by omega)
  | succ n ih =>
    rcases ih with hall | ⟨k, hk, g, hg, hlt⟩
    · cases hn : m.accessFault (addr + BitVec.ofNat 64 n) 1 kind with
      | none =>
        refine .inl fun i hi => ?_
        rcases Nat.lt_succ_iff_lt_or_eq.1 hi with h | rfl
        · exact hall i h
        · exact hn
      | some g => exact .inr ⟨n, by omega, g, hn, hall⟩
    · exact .inr ⟨k, by omega, g, hg, hlt⟩

theorem loadBytes_allowed (h : m.mmio = none)
    (hall : ∀ i < n, m.accessFault (addr + BitVec.ofNat 64 i) 1 .load = none) :
    loadBytes load8 w addr n m =
      (.ok (assemble w (fun i => m.bytes (addr + BitVec.ofNat 64 i)) n), m) := by
  refine loadBytes_of_ok fun i hi => ?_
  rw [load8_noMmio h, hall i hi, hostPtr_of_lt (lt_size_of_accessFault_one (hall i hi))]

theorem loadBytes_refused (h : m.mmio = none) {k : Nat} (hk : k < n)
    (hlt : ∀ i < k, m.accessFault (addr + BitVec.ofNat 64 i) 1 .load = none)
    (hg : m.accessFault (addr + BitVec.ofNat 64 k) 1 .load = some g) :
    loadBytes load8 w addr n m = (.error g, m) := by
  refine loadBytes_of_fail hk (b := fun i => m.bytes (addr + BitVec.ofNat 64 i)) (fun i hi => ?_) ?_
  · rw [load8_noMmio h, hlt i hi, hostPtr_of_lt (lt_size_of_accessFault_one (hlt i hi))]
  · rw [load8_noMmio h, hg]

theorem byteOf_setWidth (hw : w ≤ 64) (v : BitVec w) (i : Nat) :
    (v >>> (8 * i)).setWidth 8 = byteOf (v.setWidth 64) i := by
  ext j hj
  simp only [byteOf, BitVec.getElem_setWidth, BitVec.getLsbD_ushiftRight, BitVec.getLsbD_setWidth]
  by_cases hlt : 8 * i + j < 64
  · simp [hlt]
  · simp only [hlt, decide_false, Bool.false_and]
    exact BitVec.getLsbD_of_ge v _ (by omega)

theorem store8_extends (h : m.mmio = none) {i : Nat} (hw : w ≤ 64) (v : BitVec w) (hi : i < 8)
    (hok : m.accessFault (addr + BitVec.ofNat 64 i) 1 .store = none) :
    store8 (addr + BitVec.ofNat 64 i) ((v >>> (8 * i)).setWidth 8)
        { m with bytes := m.bytes.writeLe addr i (v.setWidth 64) } =
      (.ok (), { m with bytes := m.bytes.writeLe addr (i + 1) (v.setWidth 64) }) := by
  rw [store8_noMmio (by exact h), accessFault_withBytes, hok]
  rw [hostPtr_withBytes, hostPtr_of_lt (lt_size_of_accessFault_one hok), byteOf_setWidth hw,
    writeLe_succ _ _ _ _ (by omega)]

theorem writeLe_zero (b : Bytes) (a v : BitVec 64) : b.writeLe a 0 v = b := by
  funext p
  simp [writeLe]

theorem storeBytes_allowed (h : m.mmio = none) (hw : w ≤ 64) (hn : n ≤ 8) (v : BitVec w)
    (hall : ∀ i < n, m.accessFault (addr + BitVec.ofNat 64 i) 1 .store = none) :
    storeBytes store8 v addr n m =
      (.ok (), { m with bytes := m.bytes.writeLe addr n (v.setWidth 64) }) := by
  have := storeBytes_of_ok (t := fun i => { m with bytes := m.bytes.writeLe addr i (v.setWidth 64) })
    (n := n) fun i hi => store8_extends h hw v (by omega) (hall i hi)
  simpa only [writeLe_zero] using this

theorem storeBytes_refused (h : m.mmio = none) {k : Nat} (hw : w ≤ 64) (hn : n ≤ 8)
    (hk : k < n) (v : BitVec w)
    (hlt : ∀ i < k, m.accessFault (addr + BitVec.ofNat 64 i) 1 .store = none)
    (hg : m.accessFault (addr + BitVec.ofNat 64 k) 1 .store = some g) :
    storeBytes store8 v addr n m =
      (.error g, { m with bytes := m.bytes.writeLe addr k (v.setWidth 64) }) := by
  have hfail : store8 (addr + BitVec.ofNat 64 k) ((v >>> (8 * k)).setWidth 8)
      { m with bytes := m.bytes.writeLe addr k (v.setWidth 64) } =
      (.error g, { m with bytes := m.bytes.writeLe addr k (v.setWidth 64) }) := by
    rw [store8_noMmio (by exact h), accessFault_withBytes, hg]
  have := storeBytes_of_fail (t := fun i => { m with bytes := m.bytes.writeLe addr i (v.setWidth 64) })
    hk (fun i hi => store8_extends h hw v (by omega) (hlt i hi)) hfail
  simpa only [writeLe_zero] using this

end GuestMemory

end RiscvEmu
