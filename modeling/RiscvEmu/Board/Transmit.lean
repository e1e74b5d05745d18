/-
Transmitting.

A notification of the transmit queue should consume every available entry in order, with one used element for each,
hand over the frames whose bytes are those of the whole chain, and raise the interrupt if it added a used element
(`Transmitted`). The entries are described with memory as it is at their turn (`Served`), since the used ring may lie
over anything the device reads.

• `transmitted_iff`: when it does (`TransmitSound`).
• `truncated_frame_sent`: a chain of more than 65536 bytes whose first buffer is sent alone.
-/
import RiscvEmu.Board.Chain

namespace Bytes

theorem writeList_apply {l : List (BitVec 8)} {i : Nat} (b : Bytes) (a : BitVec 64) (hi : i < l.length)
    (hl : l.length < 2 ^ 64) : writeList b a l (a + BitVec.ofNat 64 i) = l[i] := by
  have hoff : (a + BitVec.ofNat 64 i - a).toNat = i := by
    rw [BitVec.add_comm, BitVec.add_sub_cancel, BitVec.toNat_ofNat, Nat.mod_eq_of_lt (by omega)]
  unfold writeList
  rw [hoff, List.getElem?_eq_getElem hi]
  rfl

theorem writeList_nil (b : Bytes) (a : BitVec 64) : writeList b a [] = b := rfl

theorem ofLe_toLe (v : BitVec 16) : ofLe 16 (toLe 2 (v.setWidth 64)) = v := by
  apply BitVec.eq_of_getLsbD_eq
  intro i hi
  show (0#16 ||| ((byteOf (v.setWidth 64) 0).setWidth 16 <<< 0) |||
    ((byteOf (v.setWidth 64) 1).setWidth 16 <<< 8)).getLsbD i = _
  simp only [BitVec.getLsbD_or, BitVec.getLsbD_shiftLeft, BitVec.getLsbD_setWidth, getLsbD_byteOf, BitVec.getLsbD_zero]
  by_cases h8 : i < 8
  · simp [h8, hi, show i < 64 by omega]
  · have hsum : 8 + (i - 8) = i := by omega
    simp [h8, hi, hsum, show i - 8 < 8 by omega, show i - 8 < 16 by omega, show i < 64 by omega]

end Bytes

namespace RiscvEmu

namespace GuestMemory

variable {m m' : GuestMemory}

theorem writeBytes_ok {addr : BitVec 64} {src : List (BitVec 8)} (h : writeBytes addr src m = (.ok (), m')) :
    m' = { m with bytes := m.bytes.writeList (m.hostPtr addr) src } := by
  unfold writeBytes at h
  split_ifs at h with hsrc
  · cases h
    rw [hsrc, Bytes.writeList_nil]
  · cases hcheck : m.bulkCheck addr (BitVec.ofNat 64 src.length) .store with
    | some f =>
      rw [hcheck] at h
      cases h
    | none =>
      rw [hcheck] at h
      cases h
      rfl

end GuestMemory

theorem readGuestU16_ok_iff {addr : BitVec 64} {v : BitVec 16} {m m' : GuestMemory} :
    readGuestU16 addr m = (.ok v, m') ↔
      m' = m ∧ m.bulkCheck addr 2 .load = none ∧ v = Bytes.ofLe 16 (m.bytesAt addr 2) := by
  rw [readGuestU16, Exec.bind_run, GuestMemory.readBytes, if_neg (by decide), show BitVec.ofNat 64 2 = 2 from rfl]
  cases m.bulkCheck addr 2 .load with
  | some f => simp
  | none =>
    simp only [Exec.pure_run, Prod.mk.injEq, Except.ok.injEq, true_and]
    exact ⟨fun h => ⟨h.2.symm, h.1.symm⟩, fun h => ⟨h.2.symm, h.1.symm⟩⟩

theorem readGuestU16_write {addr : BitVec 64} {v : BitVec 16} {m m' : GuestMemory}
    (hload : m.bulkCheck addr 2 .load = none) (h : writeGuestU16 addr v m = (.ok (), m')) :
    readGuestU16 addr m' = (.ok v, m') := by
  rw [GuestMemory.writeBytes_ok h]
  refine readGuestU16_ok_iff.mpr ⟨rfl, hload, ?_⟩
  have hbytes :
      GuestMemory.bytesAt { m with bytes := m.bytes.writeList (m.hostPtr addr) (Bytes.toLe 2 (v.setWidth 64)) } addr 2 =
      Bytes.toLe 2 (v.setWidth 64) := by
    refine List.ext_getElem (by simp [GuestMemory.bytesAt, Bytes.toLe]) fun i hi hi' => ?_
    simp only [GuestMemory.bytesAt, List.getElem_map, List.getElem_range]
    exact Bytes.writeList_apply _ _ hi' (by simp [Bytes.toLe])
  rw [hbytes, Bytes.ofLe_toLe]

namespace VirtioNetQueue

variable (q : VirtioNetQueue)

/-- the slot of the available entry `i`, counted without end -/
def availSlot (i : Nat) : BitVec 64 := q.avail + 4 + 2 * BitVec.ofNat 64 (i % q.num.toNat)

/-- the slot of the used element `u`, counted without end -/
def usedSlot (u : Nat) : BitVec 64 := q.used + 4 + 8 * BitVec.ofNat 64 (u % q.num.toNat)

/-- the used element `u` is added: its two words, then the index -/
structure UsedAdded (u : Nat) (m : GuestMemory) (id : BitVec 16) (length : BitVec 32) (m' : GuestMemory) : Prop where
  idx : readGuestU16 (q.used + 2) m = (.ok (BitVec.ofNat 16 u), m)
  element : ∃ m₁ m₂, writeGuestU32 (q.usedSlot u) (id.setWidth 32) m = (.ok (), m₁) ∧
    writeGuestU32 (q.usedSlot u + 4) length m₁ = (.ok (), m₂) ∧
    writeGuestU16 (q.used + 2) (BitVec.ofNat 16 (u + 1)) m₂ = (.ok (), m')

/-- the available entries from `i` on, each with memory when its turn comes and the head it names -/
inductive Served : Nat → Nat → GuestMemory → List (GuestMemory × BitVec 16) → GuestMemory → Prop
  | done {i u : Nat} {m : GuestMemory} : Served i u m [] m
  | entry {i u : Nat} {m m' m'' : GuestMemory} {head : BitVec 16} {rest : List (GuestMemory × BitVec 16)}
      (hhead : readGuestU16 (q.availSlot i) m = (.ok head, m)) (hused : q.UsedAdded u m head 0 m')
      (hrest : Served (i + 1) (u + 1) m' rest m'') : Served i u m ((m, head) :: rest) m''

/-- the chain ends and is not too long -/
def Sendable (m : GuestMemory) (head : BitVec 16) (payload : NetFrame) : Prop :=
  ∃ ids bufs, Chain q m head ids bufs ∧ payload = bufs.flatten ∧ payload.length ≤ virtioNetMaxFrameLen

/-- the frame of an entry: what follows the header in a whole chain, and nothing for a chain that is too long -/
def FrameOf (m : GuestMemory) (head : BitVec 16) (frames : List NetFrame) : Prop :=
  (∃ payload, q.Sendable m head payload ∧ frames = TxLoop.frameOf payload) ∨
    ((¬ ∃ payload, q.Sendable m head payload) ∧ frames = [])

variable {q}
variable {i u u' : Nat} {m m' m'' : GuestMemory} {id : BitVec 16} {length : BitVec 32}

theorem slot_eq (hnum : q.num.toNat ∣ 2 ^ 16) (i : Nat) :
    (BitVec.ofNat 16 i % q.num).setWidth 64 = BitVec.ofNat 64 (i % q.num.toNat) := by
  apply BitVec.eq_of_toNat_eq
  rw [BitVec.toNat_setWidth, BitVec.toNat_umod, BitVec.toNat_ofNat, BitVec.toNat_ofNat, Nat.mod_mod_of_dvd _ hnum]

theorem ofNat_succ (u : Nat) : BitVec.ofNat 16 u + 1 = BitVec.ofNat 16 (u + 1) := by
  apply BitVec.eq_of_toNat_eq
  simp

theorem addUsedLocked_ok (hnum : q.num.toNat ∣ 2 ^ 16)
    (hidx : readGuestU16 (q.used + 2) m = (.ok (BitVec.ofNat 16 u), m))
    (h : q.addUsedLocked id length m = (.ok (), m')) : q.UsedAdded u m id length m' := by
  have hslot : q.used + 4 + 8 * BitVec.ofNat 64 (u % q.num.toNat) = q.usedSlot u := rfl
  unfold addUsedLocked at h
  rw [Exec.bind_of_ok hidx, slot_eq hnum, ofNat_succ, hslot] at h
  obtain ⟨_, m₁, hfirst, h⟩ := Exec.bind_ok_iff.1 h
  obtain ⟨_, m₂, hsecond, h⟩ := Exec.bind_ok_iff.1 h
  exact ⟨hidx, m₁, m₂, hfirst, hsecond, h⟩

theorem UsedAdded.next_idx (h : q.UsedAdded u m id length m') :
    readGuestU16 (q.used + 2) m' = (.ok (BitVec.ofNat 16 (u + 1)), m') := by
  obtain ⟨m₁, m₂, hfirst, hsecond, hlast⟩ := h.element
  have hload := (readGuestU16_ok_iff.mp h.idx).2.1
  refine readGuestU16_write ?_ hlast
  rw [GuestMemory.writeBytes_ok hsecond, GuestMemory.writeBytes_ok hfirst]
  exact hload

theorem ofNat_idx (h : readGuestU16 (q.used + 2) m = (.ok (BitVec.ofNat 16 u), m))
    (h' : readGuestU16 (q.used + 2) m = (.ok (BitVec.ofNat 16 u'), m)) : u % 2 ^ 16 = u' % 2 ^ 16 := by
  have hsame := (readGuestU16_ok_iff.mp h).2.2.trans (readGuestU16_ok_iff.mp h').2.2.symm
  have hnat := congrArg BitVec.toNat hsame
  rwa [BitVec.toNat_ofNat, BitVec.toNat_ofNat] at hnat

theorem UsedAdded.unique (hnum : q.num.toNat ∣ 2 ^ 16) (h : q.UsedAdded u m id length m')
    (h' : q.UsedAdded u' m id length m'') : m' = m'' := by
  have hmod := ofNat_idx h.idx h'.idx
  have hslot : q.usedSlot u = q.usedSlot u' := by
    unfold usedSlot
    rw [← Nat.mod_mod_of_dvd u hnum, hmod, Nat.mod_mod_of_dvd u' hnum]
  have hnext : BitVec.ofNat 16 (u + 1) = BitVec.ofNat 16 (u' + 1) := by
    apply BitVec.eq_of_toNat_eq
    rw [BitVec.toNat_ofNat, BitVec.toNat_ofNat]
    omega
  obtain ⟨m₁, m₂, hfirst, hsecond, hlast⟩ := h.element
  obtain ⟨m₁', m₂', hfirst', hsecond', hlast'⟩ := h'.element
  rw [← hslot, hfirst] at hfirst'
  cases hfirst'
  rw [← hslot, hsecond] at hsecond'
  cases hsecond'
  rw [← hnext, hlast] at hlast'
  cases hlast'
  rfl

theorem Served.unique (hnum : q.num.toNat ∣ 2 ^ 16) {l l' : List (GuestMemory × BitVec 16)} (h : q.Served i u m l m')
    (h' : q.Served i u' m l' m'') (hlen : l.length = l'.length) : l = l' ∧ m' = m'' := by
  induction h generalizing u' l' m'' with
  | done =>
    cases h' with
    | done => exact ⟨rfl, rfl⟩
    | entry hhead' hused' hrest' => exact absurd hlen (by simp)
  | entry hhead hused hrest ih =>
    cases h' with
    | done => exact absurd hlen (by simp)
    | entry hhead' hused' hrest' =>
      rw [hhead] at hhead'
      cases hhead'
      cases hused.unique hnum hused'
      obtain ⟨rfl, rfl⟩ := ih hrest' (by simpa using hlen)
      exact ⟨rfl, rfl⟩

end VirtioNetQueue

/-! ## The loop -/

namespace TxLoop

variable {q : VirtioNetQueue} {s s' : TxLoop} {i u : Nat}

theorem onMem_run {α : Type} (c : Exec GuestMemory MemFault α) (s : TxLoop) :
    onMem c s = ((c s.mem).1, { s with mem := (c s.mem).2 }) := rfl

theorem onMem_of_ok {α : Type} {c : Exec GuestMemory MemFault α} {a : α} {m' : GuestMemory}
    (h : c s.mem = (.ok a, m')) :
    onMem c s = (.ok a, { s with mem := m' }) := by
  rw [onMem_run, h]

theorem onMem_of_error {α : Type} {c : Exec GuestMemory MemFault α} {f : MemFault} {m' : GuestMemory}
    (h : c s.mem = (.error f, m')) : onMem c s = (.error f, { s with mem := m' }) := by
  rw [onMem_run, h]

theorem readHead_mem (q : VirtioNetQueue) (lastAvail : BitVec 16) (m : GuestMemory) : (q.readHead lastAvail m).2 = m :=
  readGuestU16_mem _ _

theorem entry_ok (h : entry q s = (.ok (), s')) : ∃ head m', q.readHead s.lastAvail s.mem = (.ok head, s.mem) ∧
    q.addUsedLocked head 0 s.mem = (.ok (), m') ∧
    s' = { mem := m', lastAvail := s.lastAvail + 1,
           frames := s.frames ++ frameOf (q.fitting s.mem q.num.toNat head 0) } := by
  unfold entry at h
  rw [Exec.gets_bind_run] at h
  rcases hhead : q.readHead s.lastAvail s.mem with ⟨e | head, m₁⟩
  · rw [Exec.bind_of_error (onMem_of_error hhead)] at h
    cases h
  · have hmem := readHead_mem q s.lastAvail s.mem
    rw [hhead] at hmem
    cases hmem
    rw [Exec.bind_of_ok (onMem_of_ok hhead)] at h
    rcases hchain : q.readDescriptorChainLocked head false s.mem with ⟨e | payload, m₂⟩
    · rw [Exec.bind_of_error (onMem_of_error hchain)] at h
      cases h
    · obtain ⟨rfl, rfl⟩ := VirtioNetQueue.readDescriptorChainLocked_ok hchain
      rw [Exec.bind_of_ok (onMem_of_ok hchain), Exec.modify_bind_run] at h
      dsimp only at h
      generalize hlater : s.frames ++ frameOf (q.fitting s.mem q.num.toNat head 0) = frames at h
      rcases hused : q.addUsedLocked head 0 s.mem with ⟨e | _, m₃⟩
      · rw [Exec.bind_of_error (onMem_of_error (s := ⟨s.mem, s.lastAvail, frames⟩) hused)] at h
        cases h
      · rw [Exec.bind_of_ok (onMem_of_ok (s := ⟨s.mem, s.lastAvail, frames⟩) hused)] at h
        cases h
        exact ⟨head, m₃, rfl, hused, by rw [hlater]⟩

/-- the frames that the device finds in entries -/
def framesOf (q : VirtioNetQueue) (entries : List (GuestMemory × BitVec 16)) : List NetFrame :=
  entries.flatMap fun e => frameOf (q.fitting e.1 q.num.toNat e.2 0)

theorem run_succ (q : VirtioNetQueue) (availIdx : BitVec 16) (fuel : Nat) (s : TxLoop) : run q availIdx (fuel + 1) s =
    if s.lastAvail = availIdx then (.ok (), s) else (entry q >>= fun _ => run q availIdx fuel) s := by
  rw [run, Exec.gets_bind_run]
  split_ifs <;> rfl

theorem framesOf_cons (q : VirtioNetQueue) (e : GuestMemory × BitVec 16) (entries : List (GuestMemory × BitVec 16)) :
    framesOf q (e :: entries) = frameOf (q.fitting e.1 q.num.toNat e.2 0) ++ framesOf q entries := List.flatMap_cons

theorem run_ok {availIdx : BitVec 16} {fuel : Nat} (hnum : q.num.toNat ∣ 2 ^ 16) (hi : s.lastAvail = BitVec.ofNat 16 i)
    (hidx : s.lastAvail ≠ availIdx → readGuestU16 (q.used + 2) s.mem = (.ok (BitVec.ofNat 16 u), s.mem))
    (hfuel : (availIdx - s.lastAvail).toNat ≤ fuel) (h : run q availIdx fuel s = (.ok (), s')) :
    ∃ entries, q.Served i u s.mem entries s'.mem ∧ entries.length = (availIdx - s.lastAvail).toNat ∧
      s'.lastAvail = availIdx ∧ s'.frames = s.frames ++ framesOf q entries := by
  induction fuel generalizing s i u with
  | zero =>
    have heq : s.lastAvail = availIdx := by bv_omega
    cases h
    exact ⟨[], .done, by rw [heq, BitVec.sub_self]; rfl, heq, (List.append_nil _).symm⟩
  | succ fuel ih =>
    rw [run_succ] at h
    split_ifs at h with hend
    · cases h
      exact ⟨[], .done, by rw [hend, BitVec.sub_self]; rfl, hend, (List.append_nil _).symm⟩
    · obtain ⟨_, t, hentry, h⟩ := Exec.bind_ok_iff.1 h
      obtain ⟨head, m', hhead, hused, rfl⟩ := entry_ok hentry
      have hadded := VirtioNetQueue.addUsedLocked_ok hnum (hidx hend) hused
      have hcount : (availIdx - (s.lastAvail + 1)).toNat + 1 = (availIdx - s.lastAvail).toNat := by bv_omega
      have hless : (availIdx - (s.lastAvail + 1)).toNat ≤ fuel := by omega
      have hnext : s.lastAvail + 1 = BitVec.ofNat 16 (i + 1) := by rw [hi, VirtioNetQueue.ofNat_succ]
      obtain ⟨entries, hserved, hlen, hlast, hframes⟩ := ih
        (s := ⟨m', s.lastAvail + 1, s.frames ++ frameOf (q.fitting s.mem q.num.toNat head 0)⟩) (i := i + 1) (u := u + 1)
        hnext (fun _ => hadded.next_idx) hless h
      dsimp only at hserved hlen hframes
      refine ⟨(s.mem, head) :: entries, .entry ?_ hadded hserved, by rw [List.length_cons, hlen, hcount], hlast, ?_⟩
      · have hslot : q.availSlot i = q.avail + 4 + 2 * (s.lastAvail % q.num).setWidth 64 := by
          rw [hi, VirtioNetQueue.slot_eq hnum]
          rfl
        rw [hslot]
        exact hhead
      · rw [hframes, framesOf_cons, ← List.append_assoc]

theorem frameOf_eq_nil_iff {payload : NetFrame} : frameOf payload = [] ↔ payload.length ≤ virtioNetHeaderSize := by
  unfold frameOf
  split_ifs with h
  · refine iff_of_false (by simp) fun hle => h.2 (List.drop_eq_nil_of_le hle)
  · refine iff_of_true rfl ?_
    by_contra hgt
    exact h ⟨by omega, fun hnil => hgt (List.drop_eq_nil_iff.mp hnil)⟩

/-- the entry is sent as it should be: its chain ends and is not too long, or what is read of it is no frame -/
def Sound (q : VirtioNetQueue) (e : GuestMemory × BitVec 16) : Prop :=
  (∃ payload, q.Sendable e.1 e.2 payload) ∨ (q.fitting e.1 q.num.toNat e.2 0).length ≤ virtioNetHeaderSize

theorem fitting_of_sendable {payload : NetFrame} {m : GuestMemory} {head : BitVec 16} (h : q.Sendable m head payload) :
    q.fitting m q.num.toNat head 0 = payload := by
  obtain ⟨ids, bufs, hchain, rfl, hlen⟩ := h
  exact hchain.fitting_of_le hchain.length_le (by omega)

theorem frameOf_sound {e : GuestMemory × BitVec 16} (h : Sound q e) :
    q.FrameOf e.1 e.2 (frameOf (q.fitting e.1 q.num.toNat e.2 0)) := by
  by_cases hsend : ∃ payload, q.Sendable e.1 e.2 payload
  · obtain ⟨payload, hpayload⟩ := hsend
    exact .inl ⟨payload, hpayload, by rw [fitting_of_sendable hpayload]⟩
  · exact .inr ⟨hsend, frameOf_eq_nil_iff.mpr (h.resolve_left hsend)⟩

theorem length_frameOf_le {e : GuestMemory × BitVec 16} {frames : List NetFrame} (h : q.FrameOf e.1 e.2 frames) :
    frames.length ≤ (frameOf (q.fitting e.1 q.num.toNat e.2 0)).length ∧
      ((frameOf (q.fitting e.1 q.num.toNat e.2 0)).length ≤ frames.length → Sound q e) := by
  obtain ⟨payload, hpayload, rfl⟩ | ⟨hnone, rfl⟩ := h
  · rw [fitting_of_sendable hpayload]
    exact ⟨Nat.le_refl _, fun _ => .inl ⟨payload, hpayload⟩⟩
  · refine ⟨Nat.zero_le _, fun hle => .inr (frameOf_eq_nil_iff.mp (List.eq_nil_of_length_eq_zero ?_))⟩
    simpa using hle

theorem framesOf_iff (entries : List (GuestMemory × BitVec 16)) :
    (∃ frames, List.Forall₂ (fun e f => q.FrameOf e.1 e.2 f) entries frames ∧ framesOf q entries = frames.flatten) ↔
      ∀ e ∈ entries, Sound q e := by
  constructor
  · rintro ⟨frames, hall, heq⟩
    -- no entry sends less than it should, so with the same total none sends more
    have hcount : frames.flatten.length ≤ (framesOf q entries).length ∧
        ((framesOf q entries).length ≤ frames.flatten.length → ∀ e ∈ entries, Sound q e) := by
      clear heq
      induction hall with
      | nil => exact ⟨Nat.le_refl _, fun _ e he => absurd he List.not_mem_nil⟩
      | @cons e f entries frames hhead htail ih =>
        obtain ⟨hle, hsound⟩ := length_frameOf_le hhead
        rw [framesOf_cons, List.flatten_cons, List.length_append, List.length_append]
        refine ⟨by omega, fun htotal e' he' => ?_⟩
        obtain rfl | he' := List.mem_cons.mp he'
        · exact hsound (by omega)
        · exact ih.2 (by omega) e' he'
    exact hcount.2 (by rw [heq])
  · intro hsound
    refine ⟨entries.map fun e => frameOf (q.fitting e.1 q.num.toNat e.2 0), ?_, ?_⟩
    · exact List.forall₂_map_right_iff.mpr (List.forall₂_same.mpr fun e he => frameOf_sound (hsound e he))
    · rw [framesOf, List.flatMap_def]

theorem framesOf_ne_nil_iff {entries : List (GuestMemory × BitVec 16)} (hsound : ∀ e ∈ entries, Sound q e) :
    framesOf q entries ≠ [] ↔ ∃ e ∈ entries, ∃ payload, q.Sendable e.1 e.2 payload ∧
      virtioNetHeaderSize < payload.length := by
  rw [framesOf, Ne, List.flatMap_eq_nil_iff]
  push Not
  refine exists_congr fun e => and_congr_right fun he => ?_
  rw [Ne, frameOf_eq_nil_iff, Nat.not_le]
  constructor
  · intro hgt
    obtain ⟨payload, hpayload⟩ := (hsound e he).resolve_right (Nat.not_le.mpr hgt)
    exact ⟨payload, hpayload, by rwa [fitting_of_sendable hpayload] at hgt⟩
  · rintro ⟨payload, hpayload, hgt⟩
    rwa [fitting_of_sendable hpayload]

end TxLoop

/-! ## A notification -/

/-- what a notification of the transmit queue should do, and leave, when there is no fault -/
def Transmitted (d : VirtioNet) (m : GuestMemory) (r : (List NetFrame × Option MemFault) × VirtioNet × GuestMemory) :
    Prop :=
  let q := d.queues 1
  if q.ready then
    ∃ availIdx u entries, readGuestU16 (q.avail + 2) m = (.ok availIdx, m) ∧
      entries.length = (availIdx - q.lastAvail).toNat ∧ q.Served q.lastAvail.toNat u m entries r.2.2 ∧
      (r.2.1.queues 1).lastAvail = availIdx ∧
      (∃ frames, List.Forall₂ (fun e f => q.FrameOf e.1 e.2 f) entries frames ∧ r.1.1 = frames.flatten) ∧
      (entries ≠ [] → r.2.1.interruptStatus &&& virtioMMIOIntVring ≠ 0)
  else r = (([], none), d, m)

/-- every chain ends and is not too long, or is cut within its header; and the interrupt has been raised before, or
some chain holds a frame -/
def TransmitSound (d : VirtioNet) (m : GuestMemory) : Prop :=
  let q := d.queues 1
  q.ready = true → ∀ availIdx u entries m', readGuestU16 (q.avail + 2) m = (.ok availIdx, m) →
    entries.length = (availIdx - q.lastAvail).toNat → q.Served q.lastAvail.toNat u m entries m' →
    (∀ e ∈ entries, TxLoop.Sound q e) ∧
      (entries = [] ∨ d.interruptStatus &&& virtioMMIOIntVring ≠ 0 ∨
        ∃ e ∈ entries, ∃ payload, q.Sendable e.1 e.2 payload ∧ virtioNetHeaderSize < payload.length)

namespace VirtioNet

variable {d : VirtioNet} {m : GuestMemory}

theorem drainTXLocked_ok (hready : (d.queues 1).ready = true) (hnum : (d.queues 1).num ≠ 0)
    (hok : (d.drainTXLocked m).1.2 = none) : ∃ availIdx s, readGuestU16 ((d.queues 1).avail + 2) m = (.ok availIdx, m) ∧
      TxLoop.run (d.queues 1) availIdx (2 ^ 16) ⟨m, (d.queues 1).lastAvail, []⟩ = (.ok (), s) ∧
      d.drainTXLocked m = ((s.frames, none), (if s.frames ≠ [] then
        (d.setQueue 1 fun q => { q with lastAvail := s.lastAvail }).raiseVringInterruptLocked
        else d.setQueue 1 fun q => { q with lastAvail := s.lastAvail }), s.mem) := by
  have hgo : ¬ (!(d.queues 1).ready ∨ (d.queues 1).num = 0) := by
    rintro (h | h)
    · rw [hready] at h
      exact absurd h (by decide)
    · exact hnum h
  unfold drainTXLocked at hok ⊢
  dsimp only at hok ⊢
  rw [if_neg hgo] at hok ⊢
  rcases hidx : readGuestU16 ((d.queues 1).avail + 2) m with ⟨f | availIdx, m'⟩
  · rw [hidx] at hok
    cases hok
  · obtain rfl : m = m' := by rw [← readGuestU16_mem ((d.queues 1).avail + 2) m, hidx]
    rw [hidx] at hok
    dsimp only at hok ⊢
    rcases hrun : TxLoop.run (d.queues 1) availIdx (2 ^ 16) ⟨m, (d.queues 1).lastAvail, []⟩ with ⟨f | _, s⟩
    · rw [hrun] at hok
      cases hok
    · exact ⟨availIdx, s, rfl, hrun, rfl⟩

theorem raiseVringInterruptLocked_vring (d : VirtioNet) :
    d.raiseVringInterruptLocked.interruptStatus &&& virtioMMIOIntVring ≠ 0 := by
  unfold raiseVringInterruptLocked virtioMMIOIntVring
  intro h
  have hbit : ((d.interruptStatus ||| 1#32) &&& 1#32).getLsbD 0 = true := by simp
  have h : (d.interruptStatus ||| 1#32) &&& 1#32 = 0 := h
  rw [h] at hbit
  exact absurd hbit (by decide)

end VirtioNet

theorem TxLoop.run_idx {availIdx : BitVec 16} {fuel : Nat} {q : VirtioNetQueue} {s s' : TxLoop}
    (h : run q availIdx (fuel + 1) s = (.ok (), s')) (hne : s.lastAvail ≠ availIdx) :
    ∃ u, readGuestU16 (q.used + 2) s.mem = (.ok (BitVec.ofNat 16 u), s.mem) := by
  rw [run_succ, if_neg hne] at h
  rcases hentry : entry q s with ⟨e | _, t⟩
  · rw [Exec.bind_of_error hentry] at h
    cases h
  · obtain ⟨head, m', -, hused, -⟩ := entry_ok hentry
    unfold VirtioNetQueue.addUsedLocked at hused
    rcases hidx : readGuestU16 (q.used + 2) s.mem with ⟨e | v, m₁⟩
    · rw [Exec.bind_of_error hidx] at hused
      cases hused
    · have hmem := readGuestU16_mem (q.used + 2) s.mem
      rw [hidx] at hmem
      cases hmem
      exact ⟨v.toNat, by rw [BitVec.ofNat_toNat, BitVec.setWidth_eq]⟩

/-- **When transmitting is right.**  For a queue whose size is a power of two up to 256, a notification that returns
no fault does what it should just if the chains it meets are sound. -/
theorem transmitted_iff (d : VirtioNet) (m : GuestMemory) (hnum : ∃ k ≤ 8, (d.queues 1).num.toNat = 2 ^ k)
    (hok : (d.store 0x050 1 m).1.2 = none) : Transmitted d m (d.store 0x050 1 m) ↔ TransmitSound d m := by
  obtain ⟨k, hk, hnum⟩ := hnum
  have hdvd : (d.queues 1).num.toNat ∣ 2 ^ 16 := hnum ▸ Nat.pow_dvd_pow 2 (by omega)
  have hzero : (d.queues 1).num ≠ 0 := by
    intro h
    rw [h] at hnum
    exact absurd hnum.symm (Nat.pow_pos (by decide : 0 < 2)).ne'
  have hstore : d.store 0x050 1 m = d.drainTXLocked m := rfl
  rw [hstore] at hok ⊢
  unfold Transmitted TransmitSound
  dsimp only
  cases hready : (d.queues 1).ready with
  | false =>
    refine iff_of_true ?_ fun h => absurd h (by decide)
    unfold VirtioNet.drainTXLocked
    simp [hready]
  | true =>
    obtain ⟨availIdx, s, hidx, hrun, hresult⟩ := VirtioNet.drainTXLocked_ok hready hzero hok
    obtain ⟨u, hu⟩ : ∃ u, (d.queues 1).lastAvail ≠ availIdx →
        readGuestU16 ((d.queues 1).used + 2) m = (.ok (BitVec.ofNat 16 u), m) := by
      by_cases hne : (d.queues 1).lastAvail = availIdx
      · exact ⟨0, fun h => absurd hne h⟩
      · obtain ⟨u, hu⟩ := TxLoop.run_idx hrun hne
        exact ⟨u, fun _ => hu⟩
    have hlast : (d.queues 1).lastAvail = BitVec.ofNat 16 (d.queues 1).lastAvail.toNat := by
      rw [BitVec.ofNat_toNat, BitVec.setWidth_eq]
    obtain ⟨entries, hserved, hlen, havail, hframes⟩ := TxLoop.run_ok hdvd hlast hu
      (Nat.le_of_lt (BitVec.isLt _)) hrun
    rw [List.nil_append] at hframes
    have hqueue :
        ((if s.frames ≠ [] then (d.setQueue 1 fun q => { q with lastAvail := s.lastAvail }).raiseVringInterruptLocked
        else d.setQueue 1 fun q => { q with lastAvail := s.lastAvail }).queues 1).lastAvail = availIdx := by
      split_ifs
      · exact (congrArg VirtioNetQueue.lastAvail (Function.update_self 1 _ d.queues)).trans havail
      · exact (congrArg VirtioNetQueue.lastAvail (Function.update_self 1 _ d.queues)).trans havail
    have hinterrupt :
        (if s.frames ≠ [] then (d.setQueue 1 fun q => { q with lastAvail := s.lastAvail }).raiseVringInterruptLocked
        else d.setQueue 1 fun q => { q with lastAvail := s.lastAvail }).interruptStatus &&& virtioMMIOIntVring ≠ 0 ↔
        TxLoop.framesOf (d.queues 1) entries ≠ [] ∨ d.interruptStatus &&& virtioMMIOIntVring ≠ 0 := by
      rw [hframes]
      split_ifs with hsome
      · exact iff_of_true (VirtioNet.raiseVringInterruptLocked_vring _) (.inl hsome)
      · exact (or_iff_right hsome).symm
    rw [if_pos rfl, hresult]
    dsimp only
    rw [hframes]
    constructor
    · rintro ⟨availIdx', u', entries', hidx', hlen', hserved', -, hsent, hraised⟩ - availIdx'' u'' entries'' m''
        hidx'' hlen'' hserved''
      cases hidx.symm.trans hidx'
      cases hidx.symm.trans hidx''
      obtain ⟨rfl, -⟩ := hserved.unique hdvd hserved' (hlen.trans hlen'.symm)
      obtain ⟨rfl, -⟩ := hserved.unique hdvd hserved'' (hlen.trans hlen''.symm)
      have hsound := (TxLoop.framesOf_iff entries).mp hsent
      refine ⟨hsound, ?_⟩
      by_cases hnone : entries = []
      · exact .inl hnone
      · rw [hframes] at hinterrupt
        obtain hsome | hbefore := hinterrupt.mp (hraised hnone)
        · exact .inr (.inr ((TxLoop.framesOf_ne_nil_iff hsound).mp hsome))
        · exact .inr (.inl hbefore)
    · intro hall
      obtain ⟨hsound, hraise⟩ := hall rfl availIdx u entries s.mem hidx hlen hserved
      rw [hframes] at hinterrupt hqueue
      refine ⟨availIdx, u, entries, hidx, hlen, hserved, hqueue, (TxLoop.framesOf_iff entries).mpr hsound,
        fun hne => ?_⟩
      obtain hnone | hbefore | hsome := hraise
      · exact absurd hnone hne
      · exact hinterrupt.mpr (.inr hbefore)
      · exact hinterrupt.mpr (.inl ((TxLoop.framesOf_ne_nil_iff hsound).mpr hsome))

/-! ## A frame that is sent in part -/

/-- a device whose transmit queue has two descriptors, at 0x1000, with the rings at 0x2000 and 0x3000 -/
def smallQueue : VirtioNet :=
  { VirtioNet.newVirtioNetDevice (Vector.replicate 6 0) with
    queues := fun _ =>
      { num := 2, numMax := 256, ready := true, desc := 0x1000, avail := 0x2000, used := 0x3000, lastAvail := 0 } }

/-- one entry is available, whose chain starts at descriptor 0; the bytes of the descriptors are given -/
def oneEntry (descs : List (BitVec 8)) : GuestMemory :=
  { GuestMemory.newGuestMemoryWithModel 20 .sandbox true with
    bytes := Bytes.writeList (Bytes.writeList (fun _ => 0) 0x1000 descs) 0x2002 [1] }

def shortChain : List (BitVec 8) := [0, 0x40, 0, 0, 0, 0, 0, 0, 13, 0, 0, 0, 0, 0, 0, 0]

/-- 13 bytes in a first buffer and 65536 in a second one -/
def longChain : List (BitVec 8) :=
  [0, 0x40, 0, 0, 0, 0, 0, 0, 13, 0, 0, 0, 1, 0, 1, 0, 0, 0x50, 0, 0, 0, 0, 0, 0, 0, 0, 1, 0, 0, 0, 0, 0]

theorem transmitted_short : (smallQueue.store 0x050 1 (oneEntry shortChain)).1 = ([[0]], none) ∧
    (Transmitted smallQueue (oneEntry shortChain) (smallQueue.store 0x050 1 (oneEntry shortChain)) ↔
      TransmitSound smallQueue (oneEntry shortChain)) :=
  ⟨by decide +kernel, transmitted_iff _ _ ⟨1, by decide, rfl⟩ (by decide +kernel)⟩

theorem longChain_not_sendable : ¬ ∃ payload, (smallQueue.queues 1).Sendable (oneEntry longChain) 0 payload := by
  have hfirst : (smallQueue.queues 1).descAt (oneEntry longChain) 0 = some
      { addr := 0x4000, len := 13, flags := 1, next := 1 } := by
    decide +kernel
  have hsecond : (smallQueue.queues 1).descAt (oneEntry longChain) 1 =
      some { addr := 0x5000, len := 65536, flags := 0, next := 0 } := by decide +kernel
  rintro ⟨payload, ids, bufs, hchain, rfl, hlen⟩
  cases hchain with
  | last hd hend =>
    cases hfirst.symm.trans hd
    exact absurd hend (by decide)
  | next hd hnext hrest =>
    cases hfirst.symm.trans hd
    cases hrest with
    | last hd' hend' =>
      cases hsecond.symm.trans hd'
      rw [List.flatten_cons, List.flatten_cons, List.length_append, List.length_append,
        VirtioNetQueue.readable_length, VirtioNetQueue.readable_length] at hlen
      exact absurd hlen (by decide)
    | next hd' hnext' hrest' =>
      cases hsecond.symm.trans hd'
      exact absurd rfl hnext'

/-- a chain of 65549 bytes: the first byte after the header is sent as a frame -/
theorem truncated_frame_sent : (smallQueue.store 0x050 1 (oneEntry longChain)).1 = ([[0]], none) ∧
    ¬ Transmitted smallQueue (oneEntry longChain) (smallQueue.store 0x050 1 (oneEntry longChain)) := by
  have hsent : (smallQueue.store 0x050 1 (oneEntry longChain)).1 = ([[0]], none) := by decide +kernel
  refine ⟨hsent, fun h => ?_⟩
  have hidx : readGuestU16 0x2002 (oneEntry longChain) = (.ok 1, oneEntry longChain) := by
    refine readGuestU16_ok_iff.mpr ⟨rfl, rfl, by decide +kernel⟩
  have hhead : readGuestU16 ((smallQueue.queues 1).availSlot 0) (oneEntry longChain) = (.ok 0, oneEntry longChain) := by
    refine readGuestU16_ok_iff.mpr ⟨rfl, rfl, by decide +kernel⟩
  have hnot := longChain_not_sendable
  generalize smallQueue.store 0x050 1 (oneEntry longChain) = r at h hsent
  generalize oneEntry longChain = m at h hidx hhead hnot
  obtain ⟨availIdx, u, entries, hidx', hlen, hserved, -, ⟨frames, hall, hframes⟩, -⟩ := h
  cases hidx.symm.trans hidx'
  generalize r.2.2 = m' at hserved
  cases hserved with
  | done => exact absurd hlen (by decide)
  | entry hhead' hused hrest =>
    cases hhead.symm.trans hhead'
    cases hrest with
    | entry => exact absurd hlen (by simp [smallQueue])
    | done =>
      obtain ⟨f, rest, hf, hnil, rfl⟩ := List.forall₂_cons_left_iff.mp hall
      cases hnil
      rw [hsent] at hframes
      obtain ⟨payload, hpayload, -⟩ | ⟨-, rfl⟩ := hf
      · exact hnot ⟨payload, hpayload⟩
      · exact absurd hframes (by decide)

end RiscvEmu
