/-
The memory accesses of the decoder cache against those of the interpreter.

The cached doubleword arms go byte by byte (`load64U`, `store64U`) unless the access cannot fail; the interpreter does
so only when the 8-byte access is refused as misaligned. The cached compressed word arms never go byte by byte.

• `dwordAlike`: the checks of the access as a whole and of its bytes refuse alike; `SplitsAlike`: so do the answers of
  a device board.
• `loadDword_alike_iff`, `storeDword_alike_iff`: exactly then the two accesses look the same.
• `wordAlike`: the word access is not refused as misaligned.
-/
import RiscvEmu.Cached.Run
import RiscvEmu.GuestMemoryFacts

namespace RiscvEmu

variable {α : Type} {e f g : MemFault} {s s' m' : GuestMemory} {width : BitVec 64}

open Exec BitVec Bytes Option

/-- what two faults are compared by -/
def MemFault.view (f : MemFault) : FaultKind × BitVec 64 := (f.kind, f.addr)

/-- two accesses look the same: the same bytes behind, the same value or a fault of the same
kind and address -/
def MemAlike {α : Type} (r₁ r₂ : Except MemFault α × GuestMemory) : Prop :=
  r₁.1.mapError MemFault.view = r₂.1.mapError MemFault.view ∧ r₁.2.bytes = r₂.2.bytes

theorem not_memAlike_ok_error {a : α} :
    ¬ MemAlike (.ok a, s) (.error e, s') := fun h => by simpa [Except.mapError] using h.1

theorem not_memAlike_error_ok {a : α} :
    ¬ MemAlike (.error e, s) (.ok a, s') := fun h => by simpa [Except.mapError] using h.1

theorem memAlike_error_iff (e e' : MemFault) (s s' : GuestMemory) :
    MemAlike (α := α) (.error e, s) (.error e', s') ↔ e.view = e'.view ∧ s.bytes = s'.bytes := by
  simp [MemAlike, Except.mapError]

theorem MemAlike.refl (r : Except MemFault α × GuestMemory) : MemAlike r r := ⟨rfl, rfl⟩

namespace GuestMemory

variable {m : GuestMemory} {addr v : BitVec 64} {kind : FaultKind}

/-- an 8-byte access is refused as a whole exactly as it is refused by bytes -/
def dwordAlike (m : GuestMemory) (addr : BitVec 64) (kind : FaultKind) : Prop :=
  match m.accessFault addr 8 kind with
  | none => ∀ i < 8, m.accessFault (addr + BitVec.ofNat 64 i) 1 kind = none
  | some f => f.kind = .misalign ∨ (m.accessFault addr 1 kind).isSome

/-- the word access is answered by a device or not refused as misaligned -/
def wordAlike (m : GuestMemory) (addr : BitVec 64) (kind : FaultKind) (a : MmioAccess) : Prop :=
  (m.mmioAccess a).isSome ∨ (m.accessFault addr 4 kind).map MemFault.kind ≠ some .misalign

theorem fastDword_iff (m : GuestMemory) (addr : BitVec 64) :
    m.fastDword addr = true ↔ m.accessOverlay = none ∧ m.mmio = none ∧ m.check addr 8 = 0 := by
  have h7 : addr + 8 - 1 = addr + 7 := by bv_omega
  unfold fastDword check
  rw [h7]
  simp [andNot, isNone_iff_eq_none, BitVec.or_eq_zero_iff]

theorem dword_bytes_allowed (ho : m.accessOverlay = none) (hc : m.check addr 8 = 0) (kind : FaultKind) :
    ∀ i < 8, m.accessFault (addr + BitVec.ofNat 64 i) 1 kind = none := by
  intro i hi
  obtain ⟨-, hlo, hhi⟩ := (m.check_eq_zero_iff addr 8).1 hc
  have hsz := m.size_le
  rw [accessFault_eq_none_iff, check_one_eq_zero_iff]
  refine ⟨by simp [checkAccessOverlay, ho], ?_⟩
  bv_omega

theorem loadDword_eq (addr : BitVec 64) (m : GuestMemory) : loadDword addr m = load64U addr m := by
  unfold loadDword
  split_ifs with hf
  · obtain ⟨ho, hm, hc⟩ := (m.fastDword_iff addr).1 hf
    have hlt := ((m.check_eq_zero_iff addr 8).1 hc).2.1
    rw [load64U, loadBytes_allowed hm (dword_bytes_allowed ho hc .load), m.and_mask_of_lt hlt, readLe_eq_assemble]
  · rfl

theorem storeDword_eq (addr v : BitVec 64) (m : GuestMemory) : storeDword addr v m = store64U addr v m := by
  unfold storeDword
  split_ifs with hf
  · obtain ⟨ho, hm, hc⟩ := (m.fastDword_iff addr).1 hf
    have hlt := ((m.check_eq_zero_iff addr 8).1 hc).2.1
    rw [store64U, storeBytes_allowed hm le_rfl le_rfl v (dword_bytes_allowed ho hc .store),
      m.and_mask_of_lt hlt, setWidth_eq]
  · rfl

/-! ## The interpreter's accesses -/

/-- the interpreter's doubleword accesses: at once, byte by byte if refused as misaligned -/
def load64M (addr : BitVec 64) : Exec GuestMemory MemFault (BitVec 64) := orBytes (load64 addr) (load64U addr)
def store64M (addr v : BitVec 64) : Exec GuestMemory MemFault Unit := orBytes (store64 addr v) (store64U addr v)

theorem first_byte_view (hf : m.accessFault addr width kind = some f)
    (hg : m.accessFault addr 1 kind = some g) (hk : f.kind ≠ .misalign) : g.view = f.view := by
  obtain ⟨hfa, hfk⟩ := accessFault_some hf
  have hga := (accessFault_some hg).1
  have hgk := accessFault_one_kind hg
  rw [checkSandboxEscape_isSome m addr 1 width] at hgk
  simp only [MemFault.view, Prod.mk.injEq, hfa, hga, and_true]
  rw [hgk, hfk]
  rw [hfk] at hk
  split_ifs at hk ⊢ <;> simp_all

theorem later_byte_view {k : Nat} (hf : f.addr = addr) (hk8 : k < 8) (hk0 : k ≠ 0)
    (hg : m.accessFault (addr + BitVec.ofNat 64 k) 1 kind = some g) : g.view ≠ f.view := by
  intro h
  have ha : g.addr = f.addr := congrArg Prod.snd h
  rw [(accessFault_some hg).1, hf] at ha
  bv_omega

theorem load64M_run (h : m.mmio = none) :
    load64M addr m = match m.accessFault addr 8 .load with
      | none => (.ok (m.bytes.readLe (m.hostPtr addr) 8), m)
      | some f => if f.kind = .misalign then load64U addr m else (.error f, m) := by
  unfold load64M orBytes onError load64
  rw [load_noMmio h]
  cases m.accessFault addr 8 .load with
  | none => rfl
  | some f => simp

theorem store64M_run (h : m.mmio = none) :
    store64M addr v m = match m.accessFault addr 8 .store with
      | none => (.ok (), { m with bytes := m.bytes.writeLe (m.hostPtr addr) 8 v })
      | some f => if f.kind = .misalign then store64U addr v m else (.error f, m) := by
  unfold store64M orBytes onError store64
  rw [store_noMmio h]
  cases m.accessFault addr 8 .store with
  | none => rfl
  | some f => simp

theorem hostPtr_of_accessFault (h : m.accessFault addr width kind = none) :
    m.hostPtr addr = addr :=
  hostPtr_of_lt ((m.check_eq_zero_iff addr width).1 ((m.accessFault_eq_none_iff addr width kind).1 h).2).2.1

/-- a byte loop's result `b` against the interpreter's access, from what the loop does when every byte is allowed and
when byte `k` is the first refused -/
theorem dword_alike_iff {b : Except MemFault α × GuestMemory} {w : α × GuestMemory}
    (hall : (∀ i < 8, m.accessFault (addr + BitVec.ofNat 64 i) 1 kind = none) →
      ∃ a s, b = (.ok a, s) ∧ (m.accessFault addr 8 kind = none → MemAlike b (.ok w.1, w.2)))
    (hfirst : ∀ k < 8, ∀ g, (∀ i < k, m.accessFault (addr + BitVec.ofNat 64 i) 1 kind = none) →
      m.accessFault (addr + BitVec.ofNat 64 k) 1 kind = some g → ∃ s, b = (.error g, s) ∧ (k = 0 → s.bytes = m.bytes)) :
    MemAlike b (match m.accessFault addr 8 kind with
      | none => (.ok w.1, w.2)
      | some f => if f.kind = .misalign then b else (.error f, m)) ↔ m.dwordAlike addr kind := by
  rw [dwordAlike]
  cases hw : m.accessFault addr 8 kind with
  | none =>
    rcases m.bytes_allowed_or_first addr kind 8 with hb | ⟨k, hk, g, hg, hlt⟩
    · obtain ⟨a, s, -, hal⟩ := hall hb
      exact iff_of_true (hal hw) hb
    · obtain ⟨s, rfl, -⟩ := hfirst k hk g hlt hg
      refine iff_of_false not_memAlike_error_ok fun hb => ?_
      rw [hb k hk] at hg
      cases hg
  | some f =>
    by_cases hmis : f.kind = .misalign
    · simp [hmis, MemAlike.refl]
    · simp only [hmis, if_false, false_or]
      rcases m.bytes_allowed_or_first addr kind 8 with hb | ⟨k, hk, g, hg, hlt⟩
      · obtain ⟨a, s, rfl, -⟩ := hall hb
        have h0 := hb 0 (by omega)
        rw [BitVec.add_zero] at h0
        exact iff_of_false not_memAlike_ok_error (by rw [h0]; simp)
      · obtain ⟨s, rfl, hs⟩ := hfirst k hk g hlt hg
        rcases Nat.eq_zero_or_pos k with rfl | hpos
        · rw [BitVec.add_zero] at hg
          refine iff_of_true ((memAlike_error_iff ..).2 ⟨first_byte_view hw hg hmis, hs rfl⟩) (by rw [hg]; rfl)
        · have h0 := hlt 0 hpos
          rw [BitVec.add_zero] at h0
          refine iff_of_false (fun hc => ?_) (by rw [h0]; simp)
          exact later_byte_view (accessFault_some hw).1 hk (by omega) hg ((memAlike_error_iff ..).1 hc).1

/-- **Doubleword loads.**  Byte by byte and the interpreter's load look the same exactly when
the checks refuse alike. -/
theorem load64_alike_iff (h : m.mmio = none) :
    MemAlike (load64U addr m) (load64M addr m) ↔ m.dwordAlike addr .load := by
  rw [load64M_run h]
  refine dword_alike_iff (w := (_, m)) (fun hb => ?_) fun k hk g hlt hg => ?_
  · refine ⟨_, _, loadBytes_allowed h hb, fun hw => ?_⟩
    rw [load64U, loadBytes_allowed h hb, hostPtr_of_accessFault hw, readLe_eq_assemble]
    exact .refl _
  · exact ⟨m, loadBytes_refused h hk hlt hg, fun _ => rfl⟩

/-- **Doubleword stores.** -/
theorem store64_alike_iff (h : m.mmio = none) :
    MemAlike (store64U addr v m) (store64M addr v m) ↔ m.dwordAlike addr .store := by
  rw [store64M_run h]
  refine dword_alike_iff (w := ((), _)) (fun hb => ?_) fun k hk g hlt hg => ?_
  · refine ⟨_, _, storeBytes_allowed h le_rfl le_rfl v hb, fun hw => ?_⟩
    rw [store64U, storeBytes_allowed h le_rfl le_rfl v hb, hostPtr_of_accessFault hw, setWidth_eq]
    exact .refl _
  · refine ⟨_, storeBytes_refused h le_rfl le_rfl hk v hlt hg, ?_⟩
    rintro rfl
    exact writeLe_zero m.bytes addr (v.setWidth 64)

theorem load64_values (h : m.mmio = none) {v v' : BitVec 64}
    (hu : load64U addr m = (.ok v, s)) (hm : load64M addr m = (.ok v', s')) : v = v' := by
  rw [load64M_run h] at hm
  rcases m.bytes_allowed_or_first addr .load 8 with hb | ⟨k, hk, g, hg, hlt⟩
  · have hrun : load64U addr m = (.ok _, m) := loadBytes_allowed h hb
    cases hw : m.accessFault addr 8 .load with
    | none =>
      rw [hw, hostPtr_of_accessFault hw, readLe_eq_assemble] at hm
      rw [hrun] at hu
      cases hu
      cases hm
      rfl
    | some f =>
      rw [hw] at hm
      dsimp only at hm
      split_ifs at hm
      · rw [hm] at hu
        cases hu
        rfl
      · cases hm
  · have hrun : load64U addr m = (.error g, m) := loadBytes_refused h hk hlt hg
    rw [hrun] at hu
    cases hu

/-- a doubleword access that ends with `whole`, against its bytes `access 0 … access 7`, each made in the memory that
those before it leave. It is admitted, and so are its bytes, with the answers it splits into; it is refused as
misaligned; or it is refused and the first byte that is refused is so with the same kind and address. Guest memory is
the same behind -/
def SplitsAlike {α β : Type} (access : Nat → Exec GuestMemory MemFault α) (split : β → Nat → α) (m : GuestMemory)
    (whole : Except MemFault β × GuestMemory) : Prop :=
  match whole with
  | (.ok v, m') => ∃ s, Succeed access (split v) 8 m s ∧ s.bytes = m'.bytes
  | (.error f, m') => f.kind = .misalign ∨ ∃ g s, OneFails access 8 m g s ∧ g.view = f.view ∧ s.bytes = m'.bytes

/-- the load byte by byte looks the same as the interpreter's. Without a board: the checks refuse alike; with one:
checks and board answer the bytes as they answer the doubleword -/
def dwordLoadAlike (m : GuestMemory) (addr : BitVec 64) : Prop :=
  match m.mmio with
  | none => m.dwordAlike addr .load
  | some _ => SplitsAlike (fun i => load8 (addr + BitVec.ofNat 64 i)) byteOf m (load 8 addr m)

def dwordStoreAlike (m : GuestMemory) (addr v : BitVec 64) : Prop :=
  match m.mmio with
  | none => m.dwordAlike addr .store
  | some _ => SplitsAlike (fun i => store8 (addr + BitVec.ofNat 64 i) (byteOf v i)) (fun _ _ => ()) m (store 8 addr v m)

theorem mmioAccess_error {a : MmioAccess}
    (h : m.mmioAccess a = some (.error f, m')) : f.kind ≠ .misalign := by
  unfold mmioAccess at h
  split at h
  · cases h
  · rename_i d _
    dsimp only at h
    split at h
    · cases h
    · cases h
    · rename_i g b' hg
      obtain ⟨rfl, -⟩ : g = f ∧ _ := by simpa using h
      rcases d.fault_kind _ _ _ _ _ hg with hk | hk <;> simp [hk]

/-- a loop over the bytes and the interpreter's access, from what the loop does -/
theorem splits_alike_iff {β : Type} {access : Nat → Exec GuestMemory MemFault α} {split : β → Nat → α}
    {whole bytes : Exec GuestMemory MemFault β}
    (hmisaligned : ∀ f s, whole m = (.error f, s) → f.kind = .misalign → s = m)
    (hok : ∀ v s, bytes m = (.ok v, s) ↔ Succeed access (split v) 8 m s)
    (herror : ∀ g s, bytes m = (.error g, s) ↔ OneFails access 8 m g s) :
    MemAlike (bytes m) (orBytes whole bytes m) ↔ SplitsAlike access split m (whole m) := by
  unfold orBytes onError
  rcases hw : whole m with ⟨f | v, m'⟩
  · by_cases hmis : f.kind = .misalign
    · obtain rfl := hmisaligned f m' hw hmis
      simp [SplitsAlike, hmis, MemAlike.refl]
    · simp only [SplitsAlike, hmis, decide_false, Bool.false_eq_true, if_false, false_or]
      constructor
      · intro h
        rcases hb : bytes m with ⟨g | v, s⟩
        · rw [hb] at h
          obtain ⟨hview, hbytes⟩ := (memAlike_error_iff ..).1 h
          exact ⟨g, s, (herror g s).1 hb, hview, hbytes⟩
        · rw [hb] at h
          exact absurd h not_memAlike_ok_error
      · rintro ⟨g, s, hfails, hview, hbytes⟩
        rw [(herror g s).2 hfails]
        exact (memAlike_error_iff ..).2 ⟨hview, hbytes⟩
  · constructor
    · intro h
      rcases hb : bytes m with ⟨g | v', s⟩
      · rw [hb] at h
        exact absurd h not_memAlike_error_ok
      · rw [hb] at h
        obtain rfl : v' = v := Except.ok.inj h.1
        exact ⟨s, (hok v' s).1 hb, h.2⟩
    · rintro ⟨s, hs, hbytes⟩
      rw [(hok v s).2 hs]
      exact ⟨rfl, hbytes⟩

theorem load_misaligned {w : BitVec 64} (h : load w addr m = (.error f, s)) (hk : f.kind = .misalign) : s = m := by
  unfold load at h
  split at h
  · cases h
    rfl
  · split at h
    · rename_i r hr
      subst h
      exact absurd hk (mmioAccess_error hr)
    · split_ifs at h
      · cases h
        rfl
      · cases h

theorem store_misaligned {w : BitVec 64} (h : store w addr v m = (.error f, s)) (hk : f.kind = .misalign) : s = m := by
  unfold store at h
  split at h
  · cases h
    rfl
  · split at h
    · cases h
    · rename_i hr
      cases h
      exact absurd hk (mmioAccess_error hr)
    · split_ifs at h
      · cases h
        rfl
      · cases h

theorem loadDword_alike_iff (m : GuestMemory) (addr : BitVec 64) :
    MemAlike (loadDword addr m) (load64M addr m) ↔ m.dwordLoadAlike addr := by
  rw [loadDword_eq, dwordLoadAlike]
  cases hm : m.mmio with
  | none => exact load64_alike_iff hm
  | some d =>
    refine splits_alike_iff (fun f s => load_misaligned) (fun v s => ?_) fun g s => loadBytes_error_iff
    refine loadBytes_ok_iff.trans ⟨?_, fun h => ⟨byteOf v, h, ?_⟩⟩
    · rintro ⟨b, hb, rfl⟩
      exact hb.congr fun i hi => (byteOf_assemble b hi).symm
    · exact (assemble_byteOf v).symm

theorem storeDword_alike_iff (m : GuestMemory) (addr v : BitVec 64) :
    MemAlike (storeDword addr v m) (store64M addr v m) ↔ m.dwordStoreAlike addr v := by
  rw [storeDword_eq, dwordStoreAlike]
  cases hm : m.mmio with
  | none => exact store64_alike_iff hm
  | some d =>
    exact splits_alike_iff (fun f s => store_misaligned) (fun _ s => storeBytes_ok_iff) fun g s => storeBytes_error_iff

/-! ## Words -/

theorem precheck_kind (hk : kind ≠ .misalign)
    (h : m.precheck addr width kind = some f) : f.kind ≠ .misalign := by
  unfold precheck at h
  cases he : m.checkSandboxEscape addr width with
  | some g =>
    obtain ⟨rfl, -⟩ := checkSandboxEscape_some he
    simp only [he, some.injEq] at h
    subst h
    simp
  | none =>
    simp only [he] at h
    obtain rfl := checkAccessOverlay_some h
    exact hk

/-- an access is refused as misaligned exactly if no device answers it and its checks say so -/
theorem load_misalign_iff (m : GuestMemory) (addr width : BitVec 64) :
    (∃ f m', load width addr m = (.error f, m') ∧ f.kind = .misalign) ↔
      m.mmioAccess (.load addr width) = none ∧ (m.accessFault addr width .load).map MemFault.kind = some .misalign := by
  unfold load accessFault
  cases hp : m.precheck addr width .load with
  | some f => simp [precheck_kind (by simp) hp]
  | none =>
    rcases hm : m.mmioAccess (.load addr width) with _ | ⟨_ | _, m'⟩
    · by_cases hc : m.check addr width = 0#64 <;> simp [hc]
    · simp [mmioAccess_error hm]
    · simp

theorem store_misalign_iff (m : GuestMemory) (addr width v : BitVec 64) :
    (∃ f m', store width addr v m = (.error f, m') ∧ f.kind = .misalign) ↔
      m.mmioAccess (.store addr width v) = none ∧
        (m.accessFault addr width .store).map MemFault.kind = some .misalign := by
  unfold store accessFault
  cases hp : m.precheck addr width .store with
  | some f => simp [precheck_kind (by simp) hp]
  | none =>
    rcases hm : m.mmioAccess (.store addr width v) with _ | ⟨_ | _, m'⟩
    · by_cases hc : m.check addr width = 0#64 <;> simp [hc]
    · simp [mmioAccess_error hm]
    · simp

theorem load8_error (h : load8 addr m = (.error f, m')) : f.kind ≠ .misalign := by
  intro hk
  have hl : load 1 addr m = (.error f, m') := by
    unfold load8 at h
    rw [bind_run] at h
    rcases hr : load 1 addr m with ⟨_ | _, s⟩ <;> rw [hr] at h <;> simp_all
  obtain ⟨-, hmis⟩ := (load_misalign_iff m addr 1).1 ⟨f, m', hl, hk⟩
  obtain ⟨g, hg, hgk⟩ := map_eq_some_iff.1 hmis
  rw [accessFault_one_kind hg] at hgk
  split_ifs at hgk

theorem store8_error {b : BitVec 8} (h : store8 addr b m = (.error f, m')) :
    f.kind ≠ .misalign := by
  intro hk
  obtain ⟨-, hmis⟩ := (store_misalign_iff m addr 1 _).1 ⟨f, m', h, hk⟩
  obtain ⟨g, hg, hgk⟩ := map_eq_some_iff.1 hmis
  rw [accessFault_one_kind hg] at hgk
  split_ifs at hgk

theorem orBytes_alike_iff {acc bytewise : Exec GuestMemory MemFault α}
    (hb : ∀ s f s', bytewise s = (.error f, s') → f.kind ≠ .misalign) :
    MemAlike (acc m) (orBytes acc bytewise m) ↔ ¬ ∃ f m', acc m = (.error f, m') ∧ f.kind = .misalign := by
  unfold orBytes onError
  rcases ha : acc m with ⟨f | v, m'⟩
  · by_cases hk : f.kind = .misalign
    · refine iff_of_false ?_ (by simp [hk])
      simp only [hk, decide_true, if_true]
      rcases hr : bytewise m' with ⟨g | v, m''⟩
      · rw [memAlike_error_iff]
        intro hv
        exact hb _ _ _ hr ((congrArg Prod.fst hv.1).symm.trans hk)
      · exact not_memAlike_error_ok
    · exact iff_of_true (by simp [hk, MemAlike.refl]) (by simp [hk])
  · exact iff_of_true (.refl _) (by simp)

theorem load32_run_iff (m : GuestMemory) (addr : BitVec 64) :
    (∃ f m', load32 addr m = (.error f, m') ∧ f.kind = .misalign) ↔
      ∃ f m', load 4 addr m = (.error f, m') ∧ f.kind = .misalign := by
  unfold load32
  rw [bind_run]
  rcases load 4 addr m with ⟨_ | _, s⟩ <;> simp

/-- **Word loads.** -/
theorem load32_alike_iff (m : GuestMemory) (addr : BitVec 64) :
    MemAlike (load32 addr m) (load32M addr m) ↔ m.wordAlike addr .load (.load addr 4) := by
  rw [load32M, orBytes_alike_iff fun s f s' h => ?_, load32_run_iff, load_misalign_iff, wordAlike,
    ← isNone_iff_eq_none]
  · cases m.mmioAccess (.load addr 4) <;> simp
  · exact loadBytes_error_prop (fun a t e t' ht => load8_error ht) h

/-- **Word stores.** -/
theorem store32_alike_iff (m : GuestMemory) (addr : BitVec 64) (v : BitVec 32) :
    MemAlike (store32 addr v m) (store32M addr v m) ↔
      m.wordAlike addr .store (.store addr 4 (v.setWidth 64)) := by
  rw [store32M, orBytes_alike_iff fun s f s' h => ?_, store32, store_misalign_iff, wordAlike,
    ← isNone_iff_eq_none]
  · cases m.mmioAccess (.store addr 4 (v.setWidth 64)) <;> simp
  · exact storeBytes_error_prop (fun a b t e t' ht => store8_error ht) h

end GuestMemory

end RiscvEmu
