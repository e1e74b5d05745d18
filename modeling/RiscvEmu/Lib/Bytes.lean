/-
Byte-addressed memories over a 64-bit address space, read and written little-endian.

• `readLe b a n` is the number spelled by the `n` bytes of `b` from `a` on.
• `writeLe b a n v` stores the low `n` bytes of `v` from `a` on.
• `loadBytes`, `storeBytes`: the loops that go byte by byte through a one-byte access and stop at the first byte that
  fails.
• `writeList b a l` puts the bytes of a list from `a` on; `ofLe`, `toLe` turn lists of bytes into numbers and back.
  Addresses wrap modulo `2^64`; `writeLe_apply` says what a byte holds after a store.
-/
import RiscvEmu.Lib.Exec

/-- a total byte memory; what lies outside a slab is whatever it was -/
abbrev Bytes := BitVec 64 → BitVec 8

namespace Bytes

open Exec BitVec

/-- the `n` bytes from `a` on, little-endian, lowest byte first -/
def readLe (b : Bytes) (a : BitVec 64) : Nat → BitVec 64
  | 0 => 0
  | n + 1 => readLe b a n ||| ((b (a + BitVec.ofNat 64 n)).setWidth 64 <<< (8 * n))

theorem getLsbD_readLe {n : Nat} (b : Bytes) (a : BitVec 64) (hn : n ≤ 8) (t : Nat) :
    (readLe b a n).getLsbD t = (decide (t < 8 * n) && (b (a + BitVec.ofNat 64 (t / 8))).getLsbD (t % 8)) := by
  induction n with
  | zero => simp [readLe]
  | succ n ih =>
    rw [readLe, getLsbD_or, ih (by omega), getLsbD_shiftLeft, getLsbD_setWidth]
    rcases Nat.lt_or_ge t (8 * n) with hlt | hge
    · simp [hlt, show t < 8 * (n + 1) by omega]
    · have hnot : ¬ t < 8 * n := by omega
      rcases Nat.lt_or_ge t (8 * (n + 1)) with hlt' | hge'
      · rw [show t / 8 = n by omega, show t % 8 = t - 8 * n by omega]
        simp [hnot, hlt', show t < 64 by omega, show t - 8 * n < 64 by omega]
      · have hbit : (b (a + BitVec.ofNat 64 n)).getLsbD (t - 8 * n) = false := getLsbD_of_ge _ _ (by omega)
        simp [hnot, show ¬ t < 8 * (n + 1) by omega, hbit]

def byteOf (v : BitVec 64) (i : Nat) : BitVec 8 := (v >>> (8 * i)).setWidth 8

/-- store the low `n` bytes of `v` from `a` on -/
def writeLe (b : Bytes) (a : BitVec 64) (n : Nat) (v : BitVec 64) : Bytes := fun p =>
  if (p - a).toNat < n then byteOf v (p - a).toNat else b p

/-- put the bytes of `l` from `a` on -/
def writeList (b : Bytes) (a : BitVec 64) (l : List (BitVec 8)) : Bytes := fun p => l[(p - a).toNat]?.getD (b p)

theorem getLsbD_byteOf (v : BitVec 64) (i t : Nat) :
    (byteOf v i).getLsbD t = (decide (t < 8) && v.getLsbD (8 * i + t)) := by
  rw [byteOf, getLsbD_setWidth, getLsbD_ushiftRight]

theorem byteOf_readLe {n : Nat} (b : Bytes) (a : BitVec 64) {i : Nat} (hn : n ≤ 8) (hi : i < n) :
    byteOf (readLe b a n) i = b (a + BitVec.ofNat 64 i) := by
  apply eq_of_getLsbD_eq
  intro t ht
  rw [getLsbD_byteOf, getLsbD_readLe b a hn, show (8 * i + t) / 8 = i by omega, show (8 * i + t) % 8 = t by omega]
  simp [ht, show 8 * i + t < 8 * n by omega]

theorem writeLe_apply (b : Bytes) (a : BitVec 64) (n : Nat) (v p : BitVec 64) :
    writeLe b a n v p = if (p - a).toNat < n then byteOf v (p - a).toNat else b p := rfl

theorem writeLe_readLe {n : Nat} (b : Bytes) (a : BitVec 64) (hn : n ≤ 8) : b.writeLe a n (b.readLe a n) = b := by
  funext p
  rw [writeLe_apply]
  split_ifs with h
  · rw [byteOf_readLe b a hn h, ofNat_toNat, setWidth_eq, show a + (p - a) = p by bv_omega]
  · rfl

theorem writeLe_one (b : Bytes) (a v : BitVec 64) :
    writeLe b a 1 v = fun p => if p = a then v.setWidth 8 else b p := by
  funext p
  have hiff : (p - a).toNat < 1 ↔ p = a := by
    constructor
    · intro h
      have h0 : p - a = 0#64 := by bv_omega
      bv_omega
    · rintro rfl
      simp
  simp only [writeLe, hiff]
  split_ifs with h
  · subst h
    simp [byteOf]
  · rfl

theorem writeLe_succ (b : Bytes) (a v : BitVec 64) (n : Nat) (hn : n < 2 ^ 64) :
    writeLe b a (n + 1) v
      = fun p => if p = a + BitVec.ofNat 64 n then byteOf v n else writeLe b a n v p := by
  funext p
  have hiff : p = a + BitVec.ofNat 64 n ↔ (p - a).toNat = n := by
    constructor
    · rintro rfl
      have := a.isLt
      simp only [toNat_sub, toNat_add, toNat_ofNat]
      omega
    · intro h
      rw [← h, ofNat_toNat, setWidth_eq]
      bv_omega
  simp only [writeLe, hiff]
  by_cases h : (p - a).toNat = n
  · rw [if_pos h, if_pos (by omega), h]
  · have hlt : (p - a).toNat < n + 1 ↔ (p - a).toNat < n := by omega
    rw [if_neg h]
    simp only [hlt]

/-- load `n` bytes from `addr` on, one at a time, into a `w`-bit value -/
def loadBytes {σ ε : Type} (load8 : BitVec 64 → Exec σ ε (BitVec 8)) (w : Nat) (addr : BitVec 64) :
    Nat → Exec σ ε (BitVec w)
  | 0 => pure 0
  | n + 1 => do
    let v ← loadBytes load8 w addr n
    let b ← load8 (addr + BitVec.ofNat 64 n)
    pure (v ||| (b.setWidth w <<< (8 * n)))

/-- store the low `n` bytes of `v` from `addr` on, one at a time -/
def storeBytes {σ ε : Type} (store8 : BitVec 64 → BitVec 8 → Exec σ ε Unit) {w : Nat} (v : BitVec w)
    (addr : BitVec 64) : Nat → Exec σ ε Unit
  | 0 => pure ()
  | n + 1 => do
    storeBytes store8 v addr n
    store8 (addr + BitVec.ofNat 64 n) ((v >>> (8 * n)).setWidth 8)

/-! ## What the byte loops do -/

section Loops

variable {σ ε : Type}

theorem loadBytes_succ (load8 : BitVec 64 → Exec σ ε (BitVec 8)) (w : Nat) (addr : BitVec 64) (n : Nat) :
    loadBytes load8 w addr (n + 1) = loadBytes load8 w addr n >>= fun v =>
      load8 (addr + BitVec.ofNat 64 n) >>= fun b => pure (v ||| (b.setWidth w <<< (8 * n))) := rfl

theorem storeBytes_succ {w : Nat} (store8 : BitVec 64 → BitVec 8 → Exec σ ε Unit) (v : BitVec w)
    (addr : BitVec 64) (n : Nat) :
    storeBytes store8 v addr (n + 1) = storeBytes store8 v addr n >>= fun _ =>
      store8 (addr + BitVec.ofNat 64 n) ((v >>> (8 * n)).setWidth 8) := rfl

/-- the value a byte loop assembles from its bytes -/
def assemble (w : Nat) (b : Nat → BitVec 8) : Nat → BitVec w
  | 0 => 0
  | n + 1 => assemble w b n ||| ((b n).setWidth w <<< (8 * n))

theorem readLe_eq_assemble (b : Bytes) (a : BitVec 64) (n : Nat) :
    readLe b a n = assemble 64 (fun i => b (a + BitVec.ofNat 64 i)) n := by
  induction n with
  | zero => rfl
  | succ n ih => rw [readLe, ih, assemble]

theorem assemble_congr {n w : Nat} {b : Nat → BitVec 8} {b' : Nat → BitVec 8} (h : ∀ i < n, b i = b' i) :
    assemble w b n = assemble w b' n := by
  induction n with
  | zero => rfl
  | succ n ih => rw [assemble, assemble, ih fun i hi => h i (by omega), h n (by omega)]

theorem byteOf_assemble (b : Nat → BitVec 8) {i : Nat} (hi : i < 8) : byteOf (assemble 64 b 8) i = b i := by
  have hbytes : ∀ i < 8, b i = (fun p : BitVec 64 => b p.toNat) (0 + BitVec.ofNat 64 i) := by
    intro i hi
    have hnat : (BitVec.ofNat 64 i).toNat = i := by
      rw [toNat_ofNat]
      omega
    show b i = b (0#64 + BitVec.ofNat 64 i).toNat
    rw [BitVec.zero_add, hnat]
  have hread := readLe_eq_assemble (fun p : BitVec 64 => b p.toNat) 0 8
  rw [assemble_congr hbytes, ← hread, byteOf_readLe _ _ (Nat.le_refl 8) hi]
  exact (hbytes i hi).symm

theorem assemble_byteOf (v : BitVec 64) : assemble 64 (byteOf v) 8 = v := by
  apply eq_of_getLsbD_eq
  intro t ht
  have hbyte := congrArg (BitVec.getLsbD · (t % 8)) (byteOf_assemble (byteOf v) (show t / 8 < 8 by omega))
  simp only [getLsbD_byteOf, show t % 8 < 8 by omega, decide_true, Bool.true_and, Nat.div_add_mod] at hbyte
  exact hbyte

theorem loadBytes_of_ok {n w : Nat} {b : Nat → BitVec 8} {load8 : BitVec 64 → Exec σ ε (BitVec 8)}
    {addr : BitVec 64} {s : σ}
    (h : ∀ i < n, load8 (addr + BitVec.ofNat 64 i) s = (.ok (b i), s)) :
    loadBytes load8 w addr n s = (.ok (assemble w b n), s) := by
  induction n with
  | zero => rfl
  | succ n ih =>
    rw [loadBytes_succ, bind_of_ok (ih fun i hi => h i (by omega)), bind_of_ok (h n (by omega))]
    rfl

theorem loadBytes_error_succ {n w k : Nat} {load8 : BitVec 64 → Exec σ ε (BitVec 8)} {addr : BitVec 64}
    {s s' : σ} {e : ε}
    (hkn : k ≤ n) (h : loadBytes load8 w addr k s = (.error e, s')) :
    loadBytes load8 w addr n s = (.error e, s') := by
  induction n, hkn using Nat.le_induction with
  | base => exact h
  | succ n _ ih => rw [loadBytes_succ, bind_of_error ih]

theorem loadBytes_of_fail {n w k : Nat} {b : Nat → BitVec 8} {load8 : BitVec 64 → Exec σ ε (BitVec 8)}
    {addr : BitVec 64} {s s' : σ} {e : ε}
    (hkn : k < n)
    (h : ∀ i < k, load8 (addr + BitVec.ofNat 64 i) s = (.ok (b i), s))
    (hk : load8 (addr + BitVec.ofNat 64 k) s = (.error e, s')) :
    loadBytes load8 w addr n s = (.error e, s') := by
  refine loadBytes_error_succ hkn ?_
  rw [loadBytes_succ, bind_of_ok (loadBytes_of_ok h), bind_of_error hk]

theorem loadBytes_error_prop {P : ε → Prop} {load8 : BitVec 64 → Exec σ ε (BitVec 8)} {w : Nat} {addr : BitVec 64}
    (hP : ∀ a s e s', load8 a s = (.error e, s') → P e) {n : Nat} {s s' : σ} {e : ε}
    (h : loadBytes load8 w addr n s = (.error e, s')) : P e := by
  induction n generalizing s' with
  | zero => cases h
  | succ n ih =>
    rcases hr : loadBytes load8 w addr n s with ⟨e' | v, t⟩
    · rw [loadBytes_succ, bind_of_error hr] at h
      cases h
      exact ih hr
    · rw [loadBytes_succ, bind_of_ok hr] at h
      rcases hb : load8 (addr + BitVec.ofNat 64 n) t with ⟨e' | b, t'⟩
      · rw [bind_of_error hb] at h
        cases h
        exact hP _ _ _ _ hb
      · rw [bind_of_ok hb] at h
        cases h

theorem storeBytes_error_prop {P : ε → Prop} {store8 : BitVec 64 → BitVec 8 → Exec σ ε Unit} {w : Nat}
    {v : BitVec w} {addr : BitVec 64} (hP : ∀ a b s e s', store8 a b s = (.error e, s') → P e) {n : Nat}
    {s s' : σ} {e : ε} (h : storeBytes store8 v addr n s = (.error e, s')) : P e := by
  induction n generalizing s' with
  | zero => cases h
  | succ n ih =>
    rcases hr : storeBytes store8 v addr n s with ⟨e' | v, t⟩
    · rw [storeBytes_succ, bind_of_error hr] at h
      cases h
      exact ih hr
    · rw [storeBytes_succ, bind_of_ok hr] at h
      exact hP _ _ _ _ _ h

theorem storeBytes_of_ok {n w : Nat} {addr : BitVec 64} {store8 : BitVec 64 → BitVec 8 → Exec σ ε Unit} {t : Nat → σ}
    {v : BitVec w}
        (h : ∀ i < n, store8 (addr + BitVec.ofNat 64 i) ((v >>> (8 * i)).setWidth 8) (t i) = (.ok (), t (i + 1))) :
    storeBytes store8 v addr n (t 0) = (.ok (), t n) := by
  induction n with
  | zero => rfl
  | succ n ih =>
    rw [storeBytes_succ, bind_of_ok (ih fun i hi => h i (by omega)), h n (by omega)]

theorem storeBytes_error_succ {n w k : Nat} {addr : BitVec 64} {s s' : σ} {e : ε}
    {store8 : BitVec 64 → BitVec 8 → Exec σ ε Unit} {v : BitVec w}
    (hkn : k ≤ n)
    (h : storeBytes store8 v addr k s = (.error e, s')) : storeBytes store8 v addr n s = (.error e, s') := by
  induction n, hkn using Nat.le_induction with
  | base => exact h
  | succ n _ ih => rw [storeBytes_succ, bind_of_error ih]

/-- the store loop ends with the error of the first byte that fails, the bytes before it stored -/
theorem storeBytes_of_fail {n w k : Nat} {addr : BitVec 64} {s' : σ} {e : ε}
    {store8 : BitVec 64 → BitVec 8 → Exec σ ε Unit} {t : Nat → σ} {v : BitVec w}
    (hkn : k < n)
    (h : ∀ i < k, store8 (addr + BitVec.ofNat 64 i) ((v >>> (8 * i)).setWidth 8) (t i) = (.ok (), t (i + 1)))
    (hk : store8 (addr + BitVec.ofNat 64 k) ((v >>> (8 * k)).setWidth 8) (t k) = (.error e, s')) :
    storeBytes store8 v addr n (t 0) = (.error e, s') := by
  refine storeBytes_error_succ hkn ?_
  rw [storeBytes_succ, bind_of_ok (storeBytes_of_ok h), hk]

/-! The loops over computations that agree, or that run on a component of the state. -/

theorem loadBytes_agrees {P : σ → Prop} {l₁ l₂ : BitVec 64 → Exec σ ε (BitVec 8)} (w : Nat) (addr : BitVec 64)
    (h : ∀ a, Exec.AgreesOn P (l₁ a) (l₂ a)) (n : Nat) :
    Exec.AgreesOn P (loadBytes l₁ w addr n) (loadBytes l₂ w addr n) := by
  induction n with
  | zero => exact Exec.AgreesOn.pure _
  | succ n ih => exact ih.bind fun v => (h _).bind fun b => Exec.AgreesOn.pure _

theorem storeBytes_agrees {P : σ → Prop} {s₁ s₂ : BitVec 64 → BitVec 8 → Exec σ ε Unit} {w : Nat} (v : BitVec w)
    (addr : BitVec 64) (h : ∀ a b, Exec.AgreesOn P (s₁ a b) (s₂ a b)) (n : Nat) :
    Exec.AgreesOn P (storeBytes s₁ v addr n) (storeBytes s₂ v addr n) := by
  induction n with
  | zero => exact Exec.AgreesOn.pure _
  | succ n ih => exact ih.bind fun _ => h _ _

theorem loadBytes_keeps {l : BitVec 64 → Exec σ ε (BitVec 8)} {P : σ → Prop} (w : Nat) (addr : BitVec 64)
    (h : ∀ a, Exec.Keeps P (l a)) (n : Nat) : Exec.Keeps P (loadBytes l w addr n) := by
  induction n with
  | zero => exact .pure _
  | succ n ih => exact ih.bind fun v => (h _).bind fun b => .pure _

theorem storeBytes_keeps {w : Nat} {st : BitVec 64 → BitVec 8 → Exec σ ε Unit} {P : σ → Prop} (v : BitVec w)
    (addr : BitVec 64) (h : ∀ a b, Exec.Keeps P (st a b)) (n : Nat) : Exec.Keeps P (storeBytes st v addr n) := by
  induction n with
  | zero => exact .pure _
  | succ n ih => exact ih.bind fun _ => h _ _

/-- accesses made one after the other succeed, the `i`-th with `answer i`, and lead from the first state to the
second -/
def Succeed {σ ε α : Type} (access : Nat → Exec σ ε α) (answer : Nat → α) : Nat → σ → σ → Prop
  | 0, s, s' => s' = s
  | n + 1, s, s' => ∃ t, Succeed access answer n s t ∧ access n t = (.ok (answer n), s')

/-- one of the first `n` accesses fails with `e`, those before it having succeeded -/
def OneFails {σ ε α : Type} (access : Nat → Exec σ ε α) (n : Nat) (s : σ) (e : ε) (s' : σ) : Prop :=
  ∃ k < n, ∃ answer t, Succeed access answer k s t ∧ access k t = (.error e, s')

theorem Succeed.congr {α : Type} {access : Nat → Exec σ ε α} {answer answer' : Nat → α} {n : Nat} {s s' : σ}
    (h : Succeed access answer n s s') (heq : ∀ i < n, answer i = answer' i) : Succeed access answer' n s s' := by
  induction n generalizing s' with
  | zero => exact h
  | succ n ih =>
    obtain ⟨t, hbefore, hlast⟩ := h
    refine ⟨t, ih hbefore fun i hi => heq i (by omega), ?_⟩
    rw [hlast, heq n (by omega)]

theorem oneFails_succ_iff {α : Type} {access : Nat → Exec σ ε α} {n : Nat} {s s' : σ} {e : ε} :
    OneFails access (n + 1) s e s' ↔
      OneFails access n s e s' ∨ ∃ answer t, Succeed access answer n s t ∧ access n t = (.error e, s') := by
  constructor
  · rintro ⟨k, hk, hfails⟩
    rcases Nat.lt_succ_iff_lt_or_eq.1 hk with hlt | rfl
    · exact .inl ⟨k, hlt, hfails⟩
    · exact .inr hfails
  · rintro (⟨k, hk, hfails⟩ | hfails)
    · exact ⟨k, by omega, hfails⟩
    · exact ⟨n, by omega, hfails⟩

theorem loadBytes_ok_iff {load8 : BitVec 64 → Exec σ ε (BitVec 8)} {w : Nat} {addr : BitVec 64} {n : Nat} {s s' : σ}
    {v : BitVec w} : loadBytes load8 w addr n s = (.ok v, s') ↔
      ∃ b, Succeed (fun i => load8 (addr + BitVec.ofNat 64 i)) b n s s' ∧ v = assemble w b n := by
  induction n generalizing v s' with
  | zero =>
    constructor
    · intro h
      cases h
      exact ⟨fun _ => 0, rfl, rfl⟩
    · rintro ⟨b, rfl, rfl⟩
      rfl
  | succ n ih =>
    rw [loadBytes_succ, Exec.bind_ok_iff]
    constructor
    · rintro ⟨low, t, hlow, hlast⟩
      obtain ⟨x, t', hx, hpure⟩ := Exec.bind_ok_iff.1 hlast
      cases hpure
      obtain ⟨b, hb, rfl⟩ := ih.1 hlow
      have hsame : ∀ i < n, b i = Function.update b n x i := by
        intro i hi
        rw [Function.update_of_ne (by omega)]
      refine ⟨Function.update b n x, ⟨t, hb.congr hsame, ?_⟩, ?_⟩
      · rw [Function.update_self]
        exact hx
      rw [assemble, Function.update_self, assemble_congr hsame]
    · rintro ⟨b, ⟨t, hb, hlast⟩, rfl⟩
      exact ⟨_, t, ih.2 ⟨b, hb, rfl⟩, by rw [Exec.bind_of_ok hlast]; rfl⟩

theorem loadBytes_error_iff {load8 : BitVec 64 → Exec σ ε (BitVec 8)} {w : Nat} {addr : BitVec 64} {n : Nat} {s s' : σ}
    {e : ε} : loadBytes load8 w addr n s = (.error e, s') ↔
      OneFails (fun i => load8 (addr + BitVec.ofNat 64 i)) n s e s' := by
  induction n generalizing s' with
  | zero =>
    constructor
    · intro h
      cases h
    · rintro ⟨k, hk, -⟩
      omega
  | succ n ih =>
    rw [loadBytes_succ, oneFails_succ_iff, ← ih]
    rcases hlow : loadBytes load8 w addr n s with ⟨e' | v, t⟩
    · rw [Exec.bind_of_error hlow]
      refine ⟨.inl, fun h => h.resolve_right ?_⟩
      rintro ⟨b, t', hb, -⟩
      have hok := loadBytes_ok_iff (w := w).2 ⟨b, hb, rfl⟩
      rw [hlow] at hok
      cases hok
    · have htotal : ∀ b : BitVec 8, Total (pure (v ||| (b.setWidth w <<< (8 * n))) : Exec σ ε (BitVec w)) :=
        fun b t => ⟨_, t, rfl⟩
      rw [Exec.bind_of_ok hlow, Exec.bind_error_iff htotal]
      obtain ⟨b, hb, -⟩ := loadBytes_ok_iff.1 hlow
      constructor
      · exact fun h => .inr ⟨b, t, hb, h⟩
      · rintro (h | ⟨b', t', hb', h⟩)
        · cases h
        · have hok := loadBytes_ok_iff (w := w).2 ⟨b', hb', rfl⟩
          rw [hlow] at hok
          cases hok
          exact h

theorem storeBytes_ok_iff {store8 : BitVec 64 → BitVec 8 → Exec σ ε Unit} {w : Nat} {v : BitVec w} {addr : BitVec 64}
    {n : Nat} {s s' : σ} {answer : Nat → Unit} : storeBytes store8 v addr n s = (.ok (), s') ↔
      Succeed (fun i => store8 (addr + BitVec.ofNat 64 i) ((v >>> (8 * i)).setWidth 8)) answer n s s' := by
  induction n generalizing s' with
  | zero =>
    constructor
    · intro h
      cases h
      rfl
    · rintro rfl
      rfl
  | succ n ih =>
    rw [storeBytes_succ, Exec.bind_ok_iff]
    constructor
    · rintro ⟨_, t, hlow, hlast⟩
      exact ⟨t, ih.1 hlow, hlast⟩
    · rintro ⟨t, hlow, hlast⟩
      exact ⟨(), t, ih.2 hlow, hlast⟩

theorem storeBytes_error_iff {store8 : BitVec 64 → BitVec 8 → Exec σ ε Unit} {w : Nat} {v : BitVec w} {addr : BitVec 64}
    {n : Nat} {s s' : σ} {e : ε} : storeBytes store8 v addr n s = (.error e, s') ↔
      OneFails (fun i => store8 (addr + BitVec.ofNat 64 i) ((v >>> (8 * i)).setWidth 8)) n s e s' := by
  induction n generalizing s' with
  | zero =>
    constructor
    · intro h
      cases h
    · rintro ⟨k, hk, -⟩
      omega
  | succ n ih =>
    rw [storeBytes_succ, oneFails_succ_iff, ← ih]
    rcases hlow : storeBytes store8 v addr n s with ⟨e' | _, t⟩
    · rw [Exec.bind_of_error hlow]
      refine ⟨.inl, fun h => h.resolve_right ?_⟩
      rintro ⟨answer, t', hb, -⟩
      rw [storeBytes_ok_iff.2 hb] at hlow
      cases hlow
    · rw [Exec.bind_of_ok hlow]
      constructor
      · exact fun h => .inr ⟨fun _ => (), t, storeBytes_ok_iff.1 hlow, h⟩
      · rintro (h | ⟨answer, t', hb, h⟩)
        · cases h
        · rw [storeBytes_ok_iff.2 hb] at hlow
          cases hlow
          exact h

variable {τ : Type} {get : σ → τ} {set : τ → σ → σ}

theorem zoom_loadBytes (hl : Exec.IsLens get set) (l : BitVec 64 → Exec τ ε (BitVec 8)) (w : Nat)
    (addr : BitVec 64) (n : Nat) :
    zoom get set (loadBytes l w addr n) = loadBytes (fun a => zoom get set (l a)) w addr n := by
  induction n with
  | zero => exact zoom_pure hl _
  | succ n ih => simp only [loadBytes_succ, zoom_bind hl, ih, zoom_pure hl]

theorem zoom_storeBytes {w : Nat} (hl : Exec.IsLens get set) (st : BitVec 64 → BitVec 8 → Exec τ ε Unit)
    (v : BitVec w) (addr : BitVec 64) (n : Nat) :
    zoom get set (storeBytes st v addr n) = storeBytes (fun a b => zoom get set (st a b)) v addr n := by
  induction n with
  | zero => exact zoom_pure hl _
  | succ n ih => simp only [storeBytes_succ, zoom_bind hl, ih]

end Loops

/-! ## Lists of bytes -/

/-- the number spelled by a list of bytes, lowest byte first -/
def ofLe (w : Nat) (l : List (BitVec 8)) : BitVec w := assemble w (fun i => l.getD i 0) l.length

/-- the low `n` bytes of a value, lowest byte first -/
def toLe (n : Nat) (v : BitVec 64) : List (BitVec 8) := (List.range n).map (byteOf v)

end Bytes
