/-
Loading the segments.

`Verdict P B R m s` says how a step of the loader ends: with a value that satisfies `R` if `P`, with a panic, the end of
the process or a buffer that is longer than the file if `B`, and with an error otherwise. Steps in sequence compose
(`Verdict.bind`), so a chain of them goes wrong just if a step does that is reached.

• `loadPhdrs_verdict`: the program headers, each described by the conditions under which it is passed (`Passes`) and
  under which it goes wrong (`Derailed`): its file size is taken for a length although the file is shorter, or its bytes
  are copied over the page without rights.
-/
import RiscvEmu.Elf.Tables
import RiscvEmu.GuestMemoryFacts

namespace RiscvEmu.Elf

open GuestMemory Exec List

/-! ## How a step ends -/

/-- memory as `GuestMemory` made it but for its bytes, and no buffer longer than the file -/
structure Ready (data : List (BitVec 8)) (mem : GuestMemory) (s : Loader) : Prop where
  overlay : s.mem.accessOverlay = none
  size : s.mem.size = mem.size
  allocs : ∀ n ∈ s.allocs, n ≤ data.length

/-- a panic, the end of the process, a loop that goes on, or a buffer that is longer than the file -/
def GoesWrong {α : Type} (data : List (BitVec 8)) (r : Except Stop α × Loader) : Prop :=
  (∃ stop ∈ [Stop.panic, .killed, .rounds], r.1 = .error stop) ∨ ∃ n ∈ r.2.allocs, data.length < n

theorem Ready.not_goesWrong {data : List (BitVec 8)} {mem : GuestMemory} {s : Loader} {α : Type} (hs : Ready data mem s)
    (e : ElfError) : ¬ GoesWrong data ((.error (.error e), s) : Except Stop α × Loader) := by
  rintro (⟨stop, hstop, h⟩ | ⟨n, hn, hlong⟩)
  · cases h
    simp at hstop
  · exact Nat.not_le.mpr hlong (hs.allocs n hn)

def Verdict (data : List (BitVec 8)) (mem : GuestMemory) {α : Type} (P B : Prop) (R : α → Prop)
    (r : Except Stop α × Loader) : Prop :=
  (P ∧ ¬ B ∧ ∃ a s, r = (.ok a, s) ∧ Ready data mem s ∧ R a) ∨
  (¬ P ∧ ¬ B ∧ ∃ e s, r = (.error (.error e), s) ∧ Ready data mem s) ∨
  (¬ P ∧ B ∧ (∃ e s, r = (.error e, s)) ∧ GoesWrong data r)

variable {data : List (BitVec 8)} {mem : GuestMemory} {α β : Type} {P B P' B' Q C : Prop} {R R₁ : α → Prop}
    {R' : β → Prop}
variable {m : Load α} {k : α → Load β} {s : Loader} {r : Except Stop α × Loader}

namespace Verdict

theorem of_pure (hs : Ready data mem s) {a : α} (hp : P) (hb : ¬ B) (hr : R a) :
    Verdict data mem P B R ((pure a : Load α) s) := .inl ⟨hp, hb, a, s, rfl, hs, hr⟩

theorem of_fail (hs : Ready data mem s) {e : ElfError} (hp : ¬ P) (hb : ¬ B) :
    Verdict data mem P B R ((fail e : Load α) s) := .inr (.inl ⟨hp, hb, e, s, rfl, hs⟩)

theorem of_ok (hs : Ready data mem s) {x : Except Stop α} {a : α} (h : x = .ok a) (hp : P) (hb : ¬ B) (hr : R a) :
    Verdict data mem P B R (ofExcept x s) := by
  subst h
  exact of_pure hs hp hb hr

theorem panics (hp : ¬ P) (hb : B) : Verdict data mem P B R ((.error .panic, s) : Except Stop α × Loader) :=
  .inr (.inr ⟨hp, hb, ⟨.panic, s, rfl⟩, .inl ⟨.panic, by simp, rfl⟩⟩)

theorem of_panic {x : Except Stop α} (h : x = .error .panic) (hp : ¬ P) (hb : B) :
    Verdict data mem P B R (ofExcept x s) := by
  subst h
  exact panics hp hb

theorem congr (h : Verdict data mem P B R r) (hp : P ↔ P') (hb : B ↔ B') : Verdict data mem P' B' R r := by
  rw [propext hp, propext hb] at h
  exact h

theorem bind (h : Verdict data mem P B R (m s))
    (hk : P → ∀ a s', R a → Ready data mem s' → Verdict data mem Q C R' (k a s')) :
    Verdict data mem (P ∧ Q) (B ∨ (P ∧ C)) R' ((m >>= k) s) := by
  obtain ⟨hp, hb, a, s', hm, hs', hr⟩ | ⟨hp, hb, e, s', hm, hs'⟩ | ⟨hp, hb, ⟨e, s', hm⟩, hwrong⟩ := h
  · rw [bind_of_ok hm]
    refine (hk hp a s' hr hs').congr ?_ ?_
    · exact ⟨fun hq => ⟨hp, hq⟩, fun h => h.2⟩
    · exact ⟨fun hc => .inr ⟨hp, hc⟩, fun h => (h.resolve_left hb).2⟩
  · rw [bind_of_error hm]
    refine .inr (.inl ⟨fun h => hp h.1, ?_, e, s', rfl, hs'⟩)
    rintro (h | h)
    · exact hb h
    · exact hp h.1
  · rw [bind_of_error hm]
    refine .inr (.inr ⟨fun h => hp h.1, .inl hb, ⟨e, s', rfl⟩, ?_⟩)
    rw [hm] at hwrong
    obtain ⟨stop, hstop, h⟩ | h := hwrong
    · exact .inl ⟨stop, hstop, congrArg Except.error (Except.error.inj h)⟩
    · exact .inr h

theorem round (Pass Bad : Nat → Prop) {i n : Nat} (h : Verdict data mem (Pass i) (Bad i) R (m s))
    (hk : ∀ a s', R a → Ready data mem s' → Verdict data mem (∀ j < n, Pass (i + 1 + j))
      (∃ j < n, (∀ k < j, Pass (i + 1 + k)) ∧ Bad (i + 1 + j)) R' (k a s')) :
    Verdict data mem (∀ j < n + 1, Pass (i + j)) (∃ j < n + 1, (∀ k < j, Pass (i + k)) ∧ Bad (i + j)) R'
      ((m >>= k) s) := by
  have hshift : ∀ j, i + 1 + j = i + (j + 1) := fun j => by omega
  simp only [hshift] at hk
  refine (h.bind fun _ => hk).congr ?_ ?_
  · constructor
    · rintro ⟨hfirst, hrest⟩ j hj
      cases j with
      | zero => exact hfirst
      | succ j => exact hrest j (by omega)
    · exact fun h => ⟨h 0 (Nat.succ_pos n), fun j hj => h (j + 1) (by omega)⟩
  · constructor
    · rintro (hfirst | ⟨hfirst, j, hj, hbefore, hbad⟩)
      · exact ⟨0, Nat.succ_pos n, fun k hk => absurd hk (Nat.not_lt_zero k), hfirst⟩
      · refine ⟨j + 1, by omega, fun k hk => ?_, hbad⟩
        cases k with
        | zero => exact hfirst
        | succ k => exact hbefore k (by omega)
    · rintro ⟨j, hj, hbefore, hbad⟩
      cases j with
      | zero => exact .inl hbad
      | succ j => exact .inr ⟨hbefore 0 (Nat.succ_pos j), j, by omega, fun k hk => hbefore (k + 1) (by omega), hbad⟩

theorem goesWrong_iff (h : Verdict data mem P B R r) : GoesWrong data r ↔ B := by
  obtain ⟨-, hb, a, s, rfl, hs, -⟩ | ⟨-, hb, e, s, rfl, hs⟩ | ⟨-, hb, -, hwrong⟩ := h
  · refine iff_of_false ?_ hb
    rintro (⟨stop, -, h⟩ | ⟨n, hn, hlong⟩)
    · cases h
    · exact Nat.not_le.mpr hlong (hs.allocs n hn)
  · exact iff_of_false (hs.not_goesWrong e) hb
  · exact iff_of_true hwrong hb

end Verdict

/-! ## Guest memory -/

theorem guestRange_of_ready (hs : Ready data mem s) (addr length : BitVec 64) :
    s.mem.guestRange addr length = mem.guestRange addr length := by
  unfold guestRange
  rw [hs.size]

theorem addr_lt_of_guestRange {m : GuestMemory} {addr length : BitVec 64} (hpos : 0 < length.toNat)
    (h : m.guestRange addr length = true) : addr.toNat < m.size.toNat := by
  simp only [guestRange, decide_eq_true_eq, BitVec.le_def, BitVec.toNat_add] at h
  have haddr := addr.isLt
  have hlength := length.isLt
  obtain hzero | ⟨hfrom, hto⟩ := h
  · rw [hzero] at hpos
    exact absurd hpos (Nat.lt_irrefl 0)
  · omega

theorem access_verdict {error : MemFault → ElfError} {x : Exec GuestMemory MemFault Unit} (hs : Ready data mem s)
    (hok : P → ∃ b, x s.mem = (.ok (), { s.mem with bytes := b })) (herr : ¬ P → ∃ f, x s.mem = (.error f, s.mem)) :
    Verdict data mem P False (fun _ => True) (access error x s) := by
  by_cases hp : P
  · obtain ⟨b, hx⟩ := hok hp
    refine .inl ⟨hp, id, (), { s with mem := { s.mem with bytes := b } }, ?_, ⟨hs.overlay, hs.size, hs.allocs⟩, trivial⟩
    show ((mapErr (fun f => Stop.error (error f)) x s.mem).1,
      { s with mem := (mapErr (fun f => Stop.error (error f)) x s.mem).2 }) = _
    unfold mapErr
    rw [hx]
  · obtain ⟨f, hx⟩ := herr hp
    refine .inr (.inl ⟨hp, id, error f, s, ?_, hs⟩)
    show ((mapErr (fun f => Stop.error (error f)) x s.mem).1,
      { s with mem := (mapErr (fun f => Stop.error (error f)) x s.mem).2 }) = _
    unfold mapErr
    rw [hx]

theorem writeBytes_verdict {error : MemFault → ElfError} {addr : BitVec 64} {src : List (BitVec 8)} (length : BitVec 64)
    (hs : Ready data mem s) (hlen : src.length = length.toNat) (hne : length ≠ 0) :
    Verdict data mem (mem.guestRange addr length = true) False (fun _ => True)
    (access error (writeBytes addr src) s) := by
  have hsrc : src ≠ [] := fun h => by
    rw [h] at hlen
    exact hne (BitVec.eq_of_toNat_eq hlen.symm)
  have hword : BitVec.ofNat 64 src.length = length := by
    rw [hlen, BitVec.ofNat_toNat, BitVec.setWidth_eq]
  have hcheck : s.mem.bulkCheck addr length .store =
      if mem.guestRange addr length then none else some { addr := addr, width := length, kind := .store } := by
    unfold bulkCheck checkAccessOverlay
    rw [hs.overlay, guestRange_of_ready hs]
  refine access_verdict hs (fun hin => ?_) fun hout => ?_
  · unfold writeBytes
    rw [if_neg hsrc, hword, hcheck, if_pos hin]
    exact ⟨_, rfl⟩
  · unfold writeBytes
    rw [if_neg hsrc, hword, hcheck, if_neg hout]
    exact ⟨_, rfl⟩

theorem touchesGuard_of_ready (hs : Ready data mem s) (addr : BitVec 64) (n : Nat) :
    s.mem.touchesGuard addr n = mem.touchesGuard addr n := by
  unfold touchesGuard
  rw [hs.size]

/-- a range of memory, inside the slab, that meets the page without rights -/
def Strikes (mem : GuestMemory) (addr length : BitVec 64) : Prop :=
  mem.guestRange addr length = true ∧ mem.touchesGuard addr length.toNat = true

theorem copyOut_verdict {error : MemFault → ElfError} {addr : BitVec 64} {src : List (BitVec 8)} (length : BitVec 64)
    (hs : Ready data mem s)
    (hlen : src.length = length.toNat) (hne : length ≠ 0) :
    Verdict data mem (mem.guestRange addr length = true ∧ mem.touchesGuard addr length.toNat = false)
      (Strikes mem addr length) (fun _ => True) (copyOut error addr src s) := by
  refine ((writeBytes_verdict length hs hlen hne).bind (Q := mem.touchesGuard addr length.toNat = false)
    (C := mem.touchesGuard addr length.toNat = true) fun hin _ s' _ hs' => ?_).congr Iff.rfl ?_
  · have hpos : 0 < length.toNat := Nat.pos_of_ne_zero fun h => hne (BitVec.eq_of_toNat_eq h)
    have hptr : s'.mem.hostPtr addr = addr := hostPtr_of_lt (by rw [hs'.size]; exact addr_lt_of_guestRange hpos hin)
    have htouch := touchesGuard_of_ready hs' addr length.toNat
    unfold keepOffGuard
    rw [hptr, hlen, htouch]
    cases hguard : mem.touchesGuard addr length.toNat with
    | false => exact .inl ⟨rfl, by simp, (), s', rfl, hs', trivial⟩
    | true => exact .inr (.inr ⟨by simp, rfl, ⟨.killed, s', rfl⟩, .inl ⟨.killed, by simp, rfl⟩⟩)
  · exact ⟨fun h => h.resolve_left id, .inr⟩

theorem zeroRange_verdict {error : MemFault → ElfError} {addr : BitVec 64}
    {madvise : Bytes → BitVec 64 → BitVec 64 → Bytes}
    {length : BitVec 64} (hs : Ready data mem s) :
    Verdict data mem (mem.guestRange addr length = true) False (fun _ => True)
      (access error (zeroRange madvise addr length) s) := by
  refine access_verdict hs (fun hin => ?_) fun hout => ?_
  · unfold zeroRange
    rw [guestRange_of_ready hs, if_pos hin]
    exact ⟨_, rfl⟩
  · unfold zeroRange
    rw [guestRange_of_ready hs, if_neg hout]
    exact ⟨_, rfl⟩

/-! ## One segment -/

theorem seek_verdict (hs : Ready data mem s) (off : BitVec 64) (e : ElfError) :
    Verdict data mem (off.toNat < 2 ^ 63) False (fun rest => rest = data.drop off.toNat) (seek data off e s) := by
  have hneg : off.toInt < 0 ↔ ¬ off.toNat < 2 ^ 63 := by
    have hoff := off.isLt
    rw [BitVec.toInt_eq_toNat_cond]
    split_ifs
    · omega
    · omega
  unfold seek
  split_ifs with h
  · exact .of_fail hs (hneg.mp h) id
  · exact .of_pure hs (not_not.mp fun hn => h (hneg.mpr hn)) id rfl

/-- the file bytes of a segment lie in the file, and their place in memory, off the page without rights -/
def FileLoads (data : List (BitVec 8)) (mem : GuestMemory) (ph : Elf64Phdr) (segAddr : BitVec 64) : Prop :=
  ph.fileSz ≠ 0 → ph.offset.toNat + ph.fileSz.toNat ≤ data.length ∧ mem.guestRange segAddr ph.fileSz = true ∧
    mem.touchesGuard segAddr ph.fileSz.toNat = false

/-- a buffer is allocated for the file bytes of a segment that is longer than the file -/
def Oversized (data : List (BitVec 8)) (ph : Elf64Phdr) : Prop :=
  data.length < ph.fileSz.toNat ∧ ph.offset.toNat < 2 ^ 63

/-- the file bytes of a segment are copied over the page without rights -/
def CopyStrikes (data : List (BitVec 8)) (mem : GuestMemory) (ph : Elf64Phdr) (segAddr : BitVec 64) : Prop :=
  ph.fileSz ≠ 0 ∧ ph.offset.toNat + ph.fileSz.toNat ≤ data.length ∧ Strikes mem segAddr ph.fileSz

/-- the rest of a segment lies in memory -/
def BssLoads (mem : GuestMemory) (ph : Elf64Phdr) (segAddr : BitVec 64) : Prop :=
  ph.fileSz < ph.memSz → segAddr.toNat + ph.fileSz.toNat < 2 ^ 64 ∧
    mem.guestRange (segAddr + ph.fileSz) (ph.memSz - ph.fileSz) = true

/-- the end of an executable segment does not wrap -/
def ExecLoads (ph : Elf64Phdr) (segAddr : BitVec 64) : Prop :=
  ph.flags &&& pfX ≠ 0 → segAddr.toNat + ph.memSz.toNat < 2 ^ 64

theorem gt_allOnes_sub_iff (a b : BitVec 64) : a > BitVec.allOnes 64 - b ↔ ¬ a.toNat + b.toNat < 2 ^ 64 := by
  have ha := a.isLt
  have hb := b.isLt
  have hle : b ≤ BitVec.allOnes 64 := by
    rw [BitVec.le_def, BitVec.toNat_allOnes]
    omega
  rw [gt_iff_lt, BitVec.lt_def, BitVec.toNat_sub_of_le hle, BitVec.toNat_allOnes]
  omega

theorem copyBytes_verdict {segAddr : BitVec 64} {ph : Elf64Phdr} {i : Nat} (hs : Ready data mem s)
    (hmax : data.length ≤ maxAlloc) (hsz : ph.fileSz ≠ 0) :
    Verdict data mem (ph.offset.toNat + ph.fileSz.toNat ≤ data.length ∧ mem.guestRange segAddr ph.fileSz = true ∧
        mem.touchesGuard segAddr ph.fileSz.toNat = false)
      (data.length < ph.fileSz.toNat ∨ CopyStrikes data mem ph segAddr) (fun _ => True)
      ((makeBytes ph.fileSz >>= fun _ =>
        if (data.drop ph.offset.toNat).length < ph.fileSz.toNat then fail (.readSegment i)
        else copyOut (.writeSegment i segAddr) segAddr ((data.drop ph.offset.toNat).take ph.fileSz.toNat)) s) := by
  have hpos : 0 < ph.fileSz.toNat := Nat.pos_of_ne_zero fun h => hsz (BitVec.eq_of_toNat_eq h)
  have hrest : (data.drop ph.offset.toNat).length = data.length - ph.offset.toNat := length_drop
  by_cases hlong : data.length < ph.fileSz.toNat
  · -- the length is not one that the file can fill: the allocation panics, or the read fails after it
    refine .inr (.inr ⟨fun h => by omega, .inl hlong, ?_⟩)
    unfold makeBytes
    by_cases halloc : ph.fileSz.toNat ≤ maxAlloc
    · rw [if_pos halloc, modify_bind_run, if_pos (by omega)]
      exact ⟨⟨_, _, rfl⟩, .inr ⟨ph.fileSz.toNat, mem_append_right _ (mem_singleton.mpr rfl), hlong⟩⟩
    · rw [if_neg halloc, fail_bind_run]
      exact ⟨⟨_, _, rfl⟩, .inl ⟨.panic, by simp, rfl⟩⟩
  · have halloc : ph.fileSz.toNat ≤ maxAlloc := by omega
    have hs' : Ready data mem { s with allocs := s.allocs ++ [ph.fileSz.toNat] } := by
      refine ⟨hs.overlay, hs.size, fun n hn => ?_⟩
      obtain hn | hn := mem_append.mp hn
      · exact hs.allocs n hn
      · rw [mem_singleton.mp hn]
        omega
    unfold makeBytes
    rw [if_pos halloc, modify_bind_run]
    by_cases hshort : (data.drop ph.offset.toNat).length < ph.fileSz.toNat
    · rw [if_pos hshort]
      refine .of_fail hs' (fun h => by omega) ?_
      rintro (h | ⟨-, hin, -⟩)
      · exact hlong h
      · omega
    · rw [if_neg hshort]
      have hin : ph.offset.toNat + ph.fileSz.toNat ≤ data.length := by omega
      refine (copyOut_verdict ph.fileSz hs' (length_take_of_le (by omega)) hsz).congr ?_ ?_
      · exact ⟨fun h => ⟨hin, h⟩, fun h => h.2⟩
      · exact ⟨fun h => .inr ⟨hsz, hin, h⟩, fun h => (h.resolve_left hlong).2.2⟩

theorem copySegment_verdict {segAddr : BitVec 64} {ph : Elf64Phdr} {i : Nat} (hs : Ready data mem s)
    (hmax : data.length ≤ maxAlloc) :
    Verdict data mem (FileLoads data mem ph segAddr) (Oversized data ph ∨ CopyStrikes data mem ph segAddr)
    (fun _ => True)
      (copySegment data i ph segAddr s) := by
  unfold copySegment FileLoads
  by_cases hsz : ph.fileSz = 0
  · rw [if_pos hsz]
    refine .of_pure hs (fun h => absurd hsz h) ?_ trivial
    rintro (h | h)
    · have hpos := h.1
      rw [hsz] at hpos
      exact absurd hpos (Nat.not_lt_zero _)
    · exact h.1 hsz
  · rw [if_neg hsz]
    refine ((seek_verdict hs ph.offset (.seekSegment i)).bind
      (Q := ph.offset.toNat + ph.fileSz.toNat ≤ data.length ∧ mem.guestRange segAddr ph.fileSz = true ∧
        mem.touchesGuard segAddr ph.fileSz.toNat = false)
      (C := data.length < ph.fileSz.toNat ∨ CopyStrikes data mem ph segAddr) fun _ rest s' hrest hs' => ?_).congr ?_ ?_
    · rw [hrest]
      exact copyBytes_verdict hs' hmax hsz
    · unfold maxAlloc at hmax
      exact ⟨fun h _ => h.2, fun h => ⟨by have := (h hsz).1; omega, h hsz⟩⟩
    · unfold maxAlloc at hmax
      constructor
      · rintro (h | ⟨hseek, hlong | hstrikes⟩)
        · exact h.elim
        · exact .inl ⟨hlong, hseek⟩
        · exact .inr hstrikes
      · rintro (⟨hlong, hseek⟩ | hstrikes)
        · exact .inr ⟨hseek, .inl hlong⟩
        · have hin := hstrikes.2.1
          exact .inr ⟨by omega, .inr hstrikes⟩

theorem clearBss_verdict {segAddr : BitVec 64} {ph : Elf64Phdr} {madvise : Bytes → BitVec 64 → BitVec 64 → Bytes}
    {i : Nat}
    (hs : Ready data mem s) :
    Verdict data mem (BssLoads mem ph segAddr) False (fun _ => True) (clearBss madvise i ph segAddr s) := by
  unfold clearBss BssLoads
  by_cases hle : ph.memSz ≤ ph.fileSz
  · rw [if_pos hle]
    exact .of_pure hs (fun h => absurd hle (BitVec.not_le.mpr h)) id trivial
  · have hlt : ph.fileSz < ph.memSz := BitVec.not_le.mp hle
    rw [if_neg hle]
    split_ifs with hwrap
    · exact .of_fail hs (fun h => (gt_allOnes_sub_iff _ _).mp hwrap (h hlt).1) id
    · have hfits := not_not.mp fun h => hwrap ((gt_allOnes_sub_iff _ _).mpr h)
      exact (zeroRange_verdict hs).congr ⟨fun h _ => ⟨hfits, h⟩, fun h => (h hlt).2⟩ Iff.rfl

theorem recordExec_verdict {segAddr : BitVec 64} {ph : Elf64Phdr} {slack : Nat → Nat} {i : Nat}
    (hs : Ready data mem s) :
    Verdict data mem (ExecLoads ph segAddr) False (fun _ => True) (recordExec slack i ph segAddr s) := by
  unfold recordExec ExecLoads
  by_cases hx : ph.flags &&& pfX = 0
  · rw [if_pos hx]
    exact .of_pure hs (fun h => absurd hx h) id trivial
  · rw [if_neg hx]
    split_ifs with hwrap
    · exact .of_fail hs (fun h => (gt_allOnes_sub_iff _ _).mp hwrap (h hx)) id
    · exact .inl ⟨fun _ => not_not.mp fun h => hwrap ((gt_allOnes_sub_iff _ _).mpr h), id, (), _, rfl,
        ⟨hs.overlay, hs.size, hs.allocs⟩, trivial⟩

/-! ## The program headers -/

/-- the program header at an offset, if it lies in the file -/
def phdrIn (data : List (BitVec 8)) (off : BitVec 64) : Option Elf64Phdr :=
  if off.toNat + 56 ≤ data.length then some (Elf64Phdr.parse (data.drop off.toNat)) else none

def phdrAt (data : List (BitVec 8)) (hdr : Elf64Header) (i : Nat) : Option Elf64Phdr :=
  phdrIn data (tableOffset hdr.phOff hdr.phEntSize i)

def Elf64Phdr.Loadable (ph : Elf64Phdr) : Prop := ph.type = ptLoad ∧ ph.memSz ≠ 0

instance (ph : Elf64Phdr) : Decidable ph.Loadable := inferInstanceAs (Decidable (_ ∧ _))

def sizeAt (data : List (BitVec 8)) (hdr : Elf64Header) (i : Nat) : Nat :=
  match phdrAt data hdr i with
  | none => 0
  | some ph => if ph.Loadable then ph.memSz.toNat else 0

/-- the room that the segments before `i` take -/
def imageBefore (data : List (BitVec 8)) (hdr : Elf64Header) : Nat → Nat
  | 0 => 0
  | i + 1 => imageBefore data hdr i + sizeAt data hdr i

/-- the sums that are formed for segment `i` before its bytes are read do not wrap -/
structure Placed (data : List (BitVec 8)) (hdr : Elf64Header) (i : Nat) (ph : Elf64Phdr) : Prop where
  image : imageBefore data hdr i + ph.memSz.toNat < 2 ^ 64
  addr : ph.vaddr.toNat + hdr.loadBias.toNat < 2 ^ 64

structure Loads (data : List (BitVec 8)) (mem : GuestMemory) (hdr : Elf64Header) (i : Nat) (ph : Elf64Phdr) : Prop where
  placed : Placed data hdr i ph
  file : FileLoads data mem ph (ph.vaddr + hdr.loadBias)
  bss : BssLoads mem ph (ph.vaddr + hdr.loadBias)
  exec : ExecLoads ph (ph.vaddr + hdr.loadBias)

/-- program header `i` is read and passed -/
def Passes (data : List (BitVec 8)) (mem : GuestMemory) (hdr : Elf64Header) (i : Nat) : Prop :=
  ∃ ph, phdrAt data hdr i = some ph ∧ (ph.Loadable → Loads data mem hdr i ph)

/-- the file bytes of segment `i` go wrong -/
def Derailed (data : List (BitVec 8)) (mem : GuestMemory) (hdr : Elf64Header) (i : Nat) : Prop :=
  ∃ ph, phdrAt data hdr i = some ph ∧ ph.Loadable ∧ Placed data hdr i ph ∧
    (Oversized data ph ∨ CopyStrikes data mem ph (ph.vaddr + hdr.loadBias))

def LoadableAt (data : List (BitVec 8)) (hdr : Elf64Header) (i : Nat) :
    Prop := ∃ ph, phdrAt data hdr i = some ph ∧ ph.Loadable

/-- the counters when the program headers before `i` are passed -/
structure Counted (data : List (BitVec 8)) (hdr : Elf64Header) (i : Nat) (counters : Nat × BitVec 64) : Prop where
  image : counters.2.toNat = imageBefore data hdr i
  loaded : counters.1 = 0 ↔ ∀ j < i, ¬ LoadableAt data hdr j

variable {madvise : Bytes → BitVec 64 → BitVec 64 → Bytes} {slack : Nat → Nat} {hdr : Elf64Header} {i : Nat}
    {ph : Elf64Phdr}
variable {counters : Nat × BitVec 64}

theorem Counted.skip (h : Counted data hdr i counters) (hph : phdrAt data hdr i = some ph) (hskip : ¬ ph.Loadable) :
    Counted data hdr (i + 1) counters := by
  refine ⟨?_, ?_⟩
  · rw [imageBefore, sizeAt, hph]
    dsimp only
    rw [if_neg hskip, Nat.add_zero, h.image]
  · rw [h.loaded]
    constructor
    · intro hall j hj
      obtain hlt | rfl := Nat.lt_succ_iff_lt_or_eq.mp hj
      · exact hall j hlt
      · rintro ⟨ph', hph', hload⟩
        rw [Option.some.inj (hph.symm.trans hph')] at hskip
        exact hskip hload
    · exact fun hall j hj => hall j (by omega)

theorem Counted.load (h : Counted data hdr i counters) (hph : phdrAt data hdr i = some ph) (hload : ph.Loadable)
    (hplaced : Placed data hdr i ph) : Counted data hdr (i + 1) (counters.1 + 1, counters.2 + ph.memSz) := by
  refine ⟨?_, ?_⟩
  · have hfits := hplaced.image
    rw [imageBefore, sizeAt, hph]
    dsimp only
    rw [if_pos hload, BitVec.toNat_add, h.image, Nat.mod_eq_of_lt hfits]
  · exact iff_of_false (Nat.succ_ne_zero _) fun hall => hall i (Nat.lt_succ_self i) ⟨ph, hph, hload⟩

theorem loadSegment_verdict {a : α} (hs : Ready data mem s) (hmax : data.length ≤ maxAlloc) (hr : R a)
    (segAddr : BitVec 64) :
    Verdict data mem (FileLoads data mem ph segAddr ∧ BssLoads mem ph segAddr ∧ ExecLoads ph segAddr)
      (Oversized data ph ∨ CopyStrikes data mem ph segAddr) R
      ((copySegment data i ph segAddr >>= fun _ => clearBss madvise i ph segAddr >>= fun _ =>
        recordExec slack i ph segAddr >>= fun _ => pure a) s) := by
  have hrecord : ∀ s', Ready data mem s' →
      Verdict data mem (ExecLoads ph segAddr ∧ True) (False ∨ (ExecLoads ph segAddr ∧ False)) R
      ((recordExec slack i ph segAddr >>= fun _ => pure a) s') :=
    fun s' hs' => (recordExec_verdict hs').bind fun _ _ _ _ hs₃ => .of_pure hs₃ trivial id hr
  have hclear : ∀ s', Ready data mem s' → Verdict data mem (BssLoads mem ph segAddr ∧ ExecLoads ph segAddr ∧ True)
      (False ∨ (BssLoads mem ph segAddr ∧ (False ∨ (ExecLoads ph segAddr ∧ False)))) R
      ((clearBss madvise i ph segAddr >>= fun _ => recordExec slack i ph segAddr >>= fun _ => pure a) s') :=
    fun s' hs' => (clearBss_verdict hs').bind fun _ _ s₂ _ hs₂ => hrecord s₂ hs₂
  refine ((copySegment_verdict hs hmax).bind fun _ _ s₁ _ hs₁ => hclear s₁ hs₁).congr ?_ ?_
  · simp only [and_true]
  · simp only [and_false, or_false]

theorem passPhdr_verdict (hs : Ready data mem s) (hmax : data.length ≤ maxAlloc) (hc : Counted data hdr i counters)
    (hph : phdrAt data hdr i = some ph) :
    Verdict data mem (Passes data mem hdr i) (Derailed data mem hdr i) (Counted data hdr (i + 1))
      ((if ph.type ≠ ptLoad ∨ ph.memSz = 0 then pure counters
        else if counters.2 > BitVec.allOnes 64 - ph.memSz then fail .imageSizeOverflow
        else if ph.vaddr > BitVec.allOnes 64 - hdr.loadBias then fail (.addressOverflow i)
        else copySegment data i ph (ph.vaddr + hdr.loadBias) >>= fun _ =>
          clearBss madvise i ph (ph.vaddr + hdr.loadBias) >>= fun _ =>
          recordExec slack i ph (ph.vaddr + hdr.loadBias) >>= fun _ =>
          pure (counters.1 + 1, counters.2 + ph.memSz) : Load (Nat × BitVec 64)) s) := by
  have honly : ∀ ph', phdrAt data hdr i = some ph' → ph' = ph := fun ph' h => Option.some.inj (h.symm.trans hph)
  -- a wrapped sum: the segment is not placed
  have hunplaced : ph.Loadable → ¬ Placed data hdr i ph → ¬ Passes data mem hdr i ∧ ¬ Derailed data mem hdr i := by
    intro hload hnot
    refine ⟨fun ⟨ph', hph', hpass⟩ => ?_, fun ⟨ph', hph', _, hplaced, _⟩ => ?_⟩
    · rw [honly ph' hph'] at hpass
      exact hnot (hpass hload).placed
    · rw [honly ph' hph'] at hplaced
      exact hnot hplaced
  by_cases hskip : ph.type ≠ ptLoad ∨ ph.memSz = 0
  · have hnot : ¬ ph.Loadable := fun h => hskip.elim (fun ht => ht h.1) fun hz => h.2 hz
    rw [if_pos hskip]
    refine .of_pure hs ⟨ph, hph, fun h => absurd h hnot⟩ (fun ⟨ph', hph', hload, _⟩ => ?_) (hc.skip hph hnot)
    rw [honly ph' hph'] at hload
    exact hnot hload
  · rw [not_or, not_not] at hskip
    have hload : ph.Loadable := hskip
    rw [if_neg (not_or.mpr ⟨not_not.mpr hskip.1, hskip.2⟩)]
    by_cases himage : counters.2 > BitVec.allOnes 64 - ph.memSz
    · have hwrap := (gt_allOnes_sub_iff _ _).mp himage
      rw [hc.image] at hwrap
      obtain ⟨hpass, hover⟩ := hunplaced hload fun h => hwrap h.image
      rw [if_pos himage]
      exact .of_fail hs hpass hover
    · rw [if_neg himage]
      by_cases haddr : ph.vaddr > BitVec.allOnes 64 - hdr.loadBias
      · obtain ⟨hpass, hover⟩ := hunplaced hload fun h => (gt_allOnes_sub_iff _ _).mp haddr h.addr
        rw [if_pos haddr]
        exact .of_fail hs hpass hover
      · have hplaced : Placed data hdr i ph := by
          refine ⟨?_, not_not.mp fun h => haddr ((gt_allOnes_sub_iff _ _).mpr h)⟩
          rw [← hc.image]
          exact not_not.mp fun h => himage ((gt_allOnes_sub_iff _ _).mpr h)
        rw [if_neg haddr]
        refine (loadSegment_verdict hs hmax (hc.load hph hload hplaced) _).congr ?_ ?_
        · refine ⟨fun h => ⟨ph, hph, fun _ => ⟨hplaced, h.1, h.2.1, h.2.2⟩⟩, fun ⟨ph', hph', hpass⟩ => ?_⟩
          rw [honly ph' hph'] at hpass
          exact ⟨(hpass hload).file, (hpass hload).bss, (hpass hload).exec⟩
        · refine ⟨fun h => ⟨ph, hph, hload, hplaced, h⟩, fun ⟨ph', hph', _, _, h⟩ => ?_⟩
          rw [honly ph' hph'] at h
          exact h

theorem loadPhdr_verdict (hs : Ready data mem s) (hmax : data.length ≤ maxAlloc) (hc : Counted data hdr i counters) :
    Verdict data mem (Passes data mem hdr i) (Derailed data mem hdr i) (Counted data hdr (i + 1))
      (loadPhdr madvise slack data hdr hdr.loadBias i counters s) := by
  by_cases hin : (tableOffset hdr.phOff hdr.phEntSize i).toNat + 56 ≤ data.length
  · have hph : phdrAt data hdr i = some (Elf64Phdr.parse (data.drop (tableOffset hdr.phOff hdr.phEntSize i).toNat)) :=
        if_pos hin
    unfold loadPhdr
    refine ((seek_verdict hs (tableOffset hdr.phOff hdr.phEntSize i) (.seekPhdr i)).bind
      (Q := Passes data mem hdr i) (C := Derailed data mem hdr i) fun _ rest s' hrest hs' => ?_).congr ?_ ?_
    · rw [hrest, binaryRead_drop hin, phdr_parse_take]
      exact passPhdr_verdict hs' hmax hc hph
    · unfold maxAlloc at hmax
      exact ⟨fun h => h.2, fun h => ⟨by omega, h⟩⟩
    · unfold maxAlloc at hmax
      exact ⟨fun h => (h.resolve_left id).2, fun h => .inr ⟨by omega, h⟩⟩
  · -- the header is not in the file: the seek or the read fails
    have hnone : phdrAt data hdr i = none := if_neg hin
    have hpass : ¬ Passes data mem hdr i := fun ⟨ph, hph, _⟩ => by
      rw [hnone] at hph
      cases hph
    have hover : ¬ Derailed data mem hdr i := fun ⟨ph, hph, _⟩ => by
      rw [hnone] at hph
      cases hph
    unfold loadPhdr
    refine ((seek_verdict hs (tableOffset hdr.phOff hdr.phEntSize i) (.seekPhdr i)).bind
      (Q := False) (C := False) fun _ rest s' hrest hs' => ?_).congr ?_ ?_
    · have hshort : binaryRead 56 Elf64Phdr.parse (data.drop (tableOffset hdr.phOff hdr.phEntSize i).toNat) = none :=
        if_neg (by rw [length_drop]; omega)
      rw [hrest, hshort]
      exact .of_fail hs' id id
    · exact iff_of_false (fun h => h.2) hpass
    · exact iff_of_false (fun h => h.elim id fun h => h.2) hover

/-- **The segments.** They are loaded if every program header is passed; a buffer is too long, or a copy ends the
process, if it is for a segment that is reached. -/
theorem loadPhdrs_verdict {n : Nat} (hs : Ready data mem s) (hmax : data.length ≤ maxAlloc)
    (hc : Counted data hdr i counters) :
    Verdict data mem (∀ j < n, Passes data mem hdr (i + j))
      (∃ j < n, (∀ k < j, Passes data mem hdr (i + k)) ∧ Derailed data mem hdr (i + j)) (Counted data hdr (i + n))
      (loadPhdrs madvise slack data hdr hdr.loadBias n i counters s) := by
  induction n generalizing i counters s with
  | zero => exact .of_pure hs (fun j hj => absurd hj (Nat.not_lt_zero j)) (fun ⟨j, hj, _⟩ => absurd hj
      (Nat.not_lt_zero j)) hc
  | succ n ih =>
    rw [loadPhdrs]
    refine Verdict.round (Passes data mem hdr) (Derailed data mem hdr) (loadPhdr_verdict hs hmax hc) ?_
    intro c s' hc' hs'
    rw [show i + (n + 1) = i + 1 + n by omega]
    exact ih hs' hc'

end RiscvEmu.Elf
