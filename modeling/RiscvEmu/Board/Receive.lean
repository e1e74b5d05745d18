/-
The receive loop of the network device, from the driver's side.

The driver sees the used ring: its index, and for each element the chain it names, the length, and the bytes that the
buffers of the chain now hold (`found`). `Layout` is what it keeps: rings, descriptor table and buffers lie apart.
`Takes` says that a chain has room for a packet, or is refused before a byte is written.

• `delivered_of_room`: one entry; the used ring gains one element, and what it names holds the packet.
• `RxLoop.run_pumped`: all entries; the elements are the frames in their order, and what was there before stays.
-/
import RiscvEmu.Board.Fill
import RiscvEmu.GuestMemoryFacts

namespace Bytes

theorem ofLe_toLe32 (v : BitVec 32) : ofLe 32 (toLe 4 (v.setWidth 64)) = v := by
  apply BitVec.eq_of_getLsbD_eq
  intro i hi
  show (0#32 ||| ((byteOf (v.setWidth 64) 0).setWidth 32 <<< 0) ||| ((byteOf (v.setWidth 64) 1).setWidth 32 <<< 8) |||
    ((byteOf (v.setWidth 64) 2).setWidth 32 <<< 16) ||| ((byteOf (v.setWidth 64) 3).setWidth 32 <<< 24)).getLsbD i = _
  simp only [BitVec.getLsbD_or, BitVec.getLsbD_shiftLeft, BitVec.getLsbD_setWidth, getLsbD_byteOf, BitVec.getLsbD_zero]
  by_cases h8 : i < 8
  · simp [h8, hi, show i < 64 by omega, show i < 16 by omega, show i < 24 by omega]
  · by_cases h16 : i < 16
    · simp [h8, h16, hi, show 8 + (i - 8) = i by omega, show i - 8 < 8 by omega, show i - 8 < 32 by omega,
        show i < 64 by omega, show i < 24 by omega]
    · by_cases h24 : i < 24
      · simp [h8, h16, h24, hi, show 16 + (i - 16) = i by omega, show i - 16 < 8 by omega, show i - 16 < 32 by omega,
          show ¬ i - 8 < 8 by omega, show i < 64 by omega]
      · simp [h8, h16, h24, hi, show 24 + (i - 24) = i by omega, show i - 24 < 8 by omega, show i - 24 < 32 by omega,
          show ¬ i - 8 < 8 by omega, show ¬ i - 16 < 8 by omega, show i < 64 by omega]

end Bytes

namespace RiscvEmu

namespace GuestMemory

variable {m : GuestMemory} {a b : BitVec 64} {n k : Nat}

theorem hostPtr_of_bulkCheck {addr length : BitVec 64} {kind : FaultKind} (h : m.bulkCheck addr length kind = none)
    (hlen : length ≠ 0) : m.hostPtr addr = addr := by
  have hrange : m.guestRange addr length = true := by
    unfold bulkCheck at h
    cases hoverlay : m.checkAccessOverlay addr length kind with
    | some f =>
      rw [hoverlay] at h
      cases h
    | none =>
      rw [hoverlay] at h
      by_contra hout
      dsimp only at h
      rw [if_neg hout] at h
      cases h
  unfold guestRange at hrange
  obtain hzero | ⟨hwrap, hsize⟩ := of_decide_eq_true hrange
  · exact absurd hzero hlen
  · refine hostPtr_of_lt ?_
    bv_omega

theorem disjoint_span (ha : m.hostPtr a = a) (hb : m.hostPtr b = b) (hab : n ≤ (b - a).toNat)
    (hba : k ≤ (a - b).toNat) :
    Disjoint (m.span a n) (m.span b k) := by
  refine Set.disjoint_left.mpr fun p hp hp' => ?_
  unfold span at hp hp'
  rw [Set.mem_ofPred_eq, ha] at hp
  rw [Set.mem_ofPred_eq, hb] at hp'
  bv_omega

theorem span_subset (ha : m.hostPtr a = a) (hb : m.hostPtr b = b) (hsub : (b - a).toNat + k ≤ n) :
    m.span b k ⊆ m.span a n := by
  intro p hp
  unfold span at hp ⊢
  rw [Set.mem_ofPred_eq, hb] at hp
  rw [Set.mem_ofPred_eq, ha]
  bv_omega

end GuestMemory

section

variable {m : GuestMemory} {addr : BitVec 64}

theorem readGuestU16_of_load (h : m.bulkCheck addr 2 .load = none) :
    readGuestU16 addr m = (.ok (Bytes.ofLe 16 (m.bytesAt addr 2)), m) := readGuestU16_ok_iff.mpr ⟨rfl, h, rfl⟩

theorem writeGuestU16_of_store (h : m.bulkCheck addr 2 .store = none) (v : BitVec 16) :
    ∃ m', writeGuestU16 addr v m = (.ok (), m') ∧ m.Changes (m.span addr 2) m' ∧
      Bytes.ofLe 16 (m'.bytesAt addr 2) = v := by
  generalize hsrc : Bytes.toLe 2 (v.setWidth 64) = src
  have hlen : src.length = 2 := by rw [← hsrc]; rfl
  have hbytes := m.bytesAt_put addr src (by omega)
  have hchanges := m.put_changes addr src
  have hstore : m.Storable addr src.length := .inr (by rw [hlen]; exact h)
  have hvalue : Bytes.ofLe 16 src = v := by rw [← hsrc, Bytes.ofLe_toLe]
  rw [hlen] at hbytes hchanges
  refine ⟨m.put addr src, ?_, hchanges, by rw [hbytes, hvalue]⟩
  unfold writeGuestU16
  rw [hsrc, GuestMemory.writeBytes_of_storable hstore]

theorem writeGuestU32_of_store (h : m.bulkCheck addr 4 .store = none) (v : BitVec 32) :
    ∃ m', writeGuestU32 addr v m = (.ok (), m') ∧ m.Changes (m.span addr 4) m' ∧
      Bytes.ofLe 32 (m'.bytesAt addr 4) = v := by
  generalize hsrc : Bytes.toLe 4 (v.setWidth 64) = src
  have hlen : src.length = 4 := by rw [← hsrc]; rfl
  have hbytes := m.bytesAt_put addr src (by omega)
  have hchanges := m.put_changes addr src
  have hstore : m.Storable addr src.length := .inr (by rw [hlen]; exact h)
  have hvalue : Bytes.ofLe 32 src = v := by rw [← hsrc, Bytes.ofLe_toLe32]
  rw [hlen] at hbytes hchanges
  refine ⟨m.put addr src, ?_, hchanges, by rw [hbytes, hvalue]⟩
  unfold writeGuestU32
  rw [hsrc, GuestMemory.writeBytes_of_storable hstore]

end

namespace VirtioNetQueue

variable (q : VirtioNetQueue) (m : GuestMemory)

/-- the bytes of the available ring: its index and its entries -/
def availSpan : Set (BitVec 64) := m.span (q.avail + 2) 2 ∪ { p | ∃ i, p ∈ m.span (q.availSlot i) 2 }

/-- the bytes of the used ring: its index and its elements -/
def usedSpan : Set (BitVec 64) := m.span (q.used + 2) 2 ∪ { p | ∃ u, p ∈ m.span (q.usedSlot u) 8 }

/-- the head that the available entry `i` names -/
def headAt (i : Nat) : Option (BitVec 16) := (readGuestU16 (q.availSlot i) m).1.toOption

def availIdx : BitVec 16 := Bytes.ofLe 16 (m.bytesAt (q.avail + 2) 2)

def usedIdx : BitVec 16 := Bytes.ofLe 16 (m.bytesAt (q.used + 2) 2)

def usedId (u : Nat) : BitVec 32 := Bytes.ofLe 32 (m.bytesAt (q.usedSlot u) 4)

def usedLen (u : Nat) : BitVec 32 := Bytes.ofLe 32 (m.bytesAt (q.usedSlot u + 4) 4)

/-- what the guest finds in the used element `u`: the length, and that many bytes of the buffers -/
def found (u : Nat) : BitVec 32 × NetFrame :=
  (q.usedLen m u, q.readBack m q.num.toNat ((q.usedId m u).setWidth 16) (q.usedLen m u).toNat)

/-- the used ring lies in memory that the device may write -/
structure UsedWritable : Prop where
  idxLoad : m.bulkCheck (q.used + 2) 2 .load = none
  idxStore : m.bulkCheck (q.used + 2) 2 .store = none
  element : ∀ u, m.bulkCheck (q.usedSlot u) 4 .store = none ∧ m.bulkCheck (q.usedSlot u + 4) 4 .store = none

variable {q m} {m' : GuestMemory} {W : Set (BitVec 64)} {u u' : Nat}

theorem UsedWritable.changes (h : q.UsedWritable m) (hc : m.Changes W m') : q.UsedWritable m' := by
  refine ⟨?_, ?_, fun u => ⟨?_, ?_⟩⟩
  · rw [hc.bulkCheck]
    exact h.idxLoad
  · rw [hc.bulkCheck]
    exact h.idxStore
  · rw [hc.bulkCheck]
    exact (h.element u).1
  · rw [hc.bulkCheck]
    exact (h.element u).2

section

variable (hw : q.UsedWritable m)

include hw

theorem UsedWritable.idx_apart (hnum : 0 < q.num.toNat) (u : Nat) :
    Disjoint (m.span (q.used + 2) 2) (m.span (q.usedSlot u) 8) := by
  have hlt := Nat.mod_lt u hnum
  have hsmall := q.num.isLt
  refine GuestMemory.disjoint_span (GuestMemory.hostPtr_of_bulkCheck hw.idxStore (by decide))
    (GuestMemory.hostPtr_of_bulkCheck (hw.element u).1 (by decide)) ?_ ?_
  · unfold usedSlot
    generalize u % q.num.toNat = r at hlt
    bv_omega
  · unfold usedSlot
    generalize u % q.num.toNat = r at hlt
    bv_omega

theorem UsedWritable.slot_apart (hnum : 0 < q.num.toNat) (hne : u % q.num.toNat ≠ u' % q.num.toNat) :
    Disjoint (m.span (q.usedSlot u) 8) (m.span (q.usedSlot u') 8) := by
  have hlt := Nat.mod_lt u hnum
  have hlt' := Nat.mod_lt u' hnum
  have hsmall := q.num.isLt
  refine GuestMemory.disjoint_span (GuestMemory.hostPtr_of_bulkCheck (hw.element u).1 (by decide))
    (GuestMemory.hostPtr_of_bulkCheck (hw.element u').1 (by decide)) ?_ ?_
  · unfold usedSlot
    generalize u % q.num.toNat = r at hlt hne
    generalize u' % q.num.toNat = r' at hlt' hne
    bv_omega
  · unfold usedSlot
    generalize u % q.num.toNat = r at hlt hne
    generalize u' % q.num.toNat = r' at hlt' hne
    bv_omega

theorem UsedWritable.halves (u : Nat) : m.span (q.usedSlot u) 4 ⊆ m.span (q.usedSlot u) 8 ∧
    m.span (q.usedSlot u + 4) 4 ⊆ m.span (q.usedSlot u) 8 ∧ Disjoint (m.span (q.usedSlot u) 4)
    (m.span (q.usedSlot u + 4) 4) := by
  have hfirst := GuestMemory.hostPtr_of_bulkCheck (hw.element u).1 (by decide)
  have hsecond := GuestMemory.hostPtr_of_bulkCheck (hw.element u).2 (by decide)
  refine ⟨GuestMemory.span_mono (by omega), GuestMemory.span_subset hfirst hsecond ?_,
    GuestMemory.disjoint_span hfirst hsecond ?_ ?_⟩
  · bv_omega
  · bv_omega
  · bv_omega

end

/-- the bytes that the used element `u` and the index take -/
def elementSpan (q : VirtioNetQueue) (m : GuestMemory) (u : Nat) : Set (BitVec 64) :=
  m.span (q.used + 2) 2 ∪ m.span (q.usedSlot u) 8

theorem addUsedLocked_of_writable (hnum : q.num.toNat ∣ 2 ^ 16) (hw : q.UsedWritable m)
    (hidx : q.usedIdx m = BitVec.ofNat 16 u)
    (id : BitVec 16) (length : BitVec 32) :
    ∃ m', q.addUsedLocked id length m = (.ok (), m') ∧ m.Changes (q.elementSpan m u) m' ∧
      q.usedIdx m' = BitVec.ofNat 16 (u + 1) ∧ q.usedId m' u = id.setWidth 32 ∧ q.usedLen m' u = length := by
  have hpos : 0 < q.num.toNat := Nat.pos_of_dvd_of_pos hnum (by decide)
  obtain ⟨hfirst, hsecond, hhalves⟩ := hw.halves u
  have hapart := hw.idx_apart hpos u
  have hslot : q.used + 4 + 8 * BitVec.ofNat 64 (u % q.num.toNat) = q.usedSlot u := rfl
  obtain ⟨m₁, hrun₁, h₁, hword₁⟩ := writeGuestU32_of_store (hw.element u).1 (id.setWidth 32)
  obtain ⟨m₂, hrun₂, h₂, hword₂⟩ := writeGuestU32_of_store ((hw.changes h₁).element u).2 length
  obtain ⟨m₃, hrun₃, h₃, hword₃⟩ := writeGuestU16_of_store ((hw.changes h₁).changes h₂).idxStore
    (BitVec.ofNat 16 (u + 1))
  rw [h₁.span] at h₂
  rw [h₂.span, h₁.span] at h₃
  refine ⟨m₃, ?_, ?_, hword₃, ?_, ?_⟩
  · have hread : readGuestU16 (q.used + 2) m = (.ok (BitVec.ofNat 16 u), m) := by
      rw [readGuestU16_of_load hw.idxLoad]
      exact congrArg (fun v => (Except.ok v, m)) hidx
    unfold addUsedLocked
    rw [Exec.bind_of_ok hread, slot_eq hnum, ofNat_succ, hslot, Exec.bind_of_ok hrun₁, Exec.bind_of_ok hrun₂]
    exact hrun₃
  · have hwords := (h₁.mono hfirst).trans (h₂.mono hsecond)
    exact (hwords.mono Set.subset_union_right).trans (h₃.mono Set.subset_union_left)
  · unfold usedId
    rw [h₃.bytesAt, h₂.bytesAt, hword₁]
    · rw [h₁.span]
      exact hhalves
    · rw [h₂.span, h₁.span]
      exact (hapart.mono_right hfirst).symm
  · unfold usedLen
    rw [h₃.bytesAt, hword₂]
    rw [h₂.span, h₁.span]
    exact (hapart.mono_right hsecond).symm

/-! ## The guest keeps its rings, its table and the buffers apart -/

variable (q m)

/-- the rings, the table and the buffers of the `n` entries from `i` on do not overlap -/
structure Layout (i n : Nat) : Prop where
  pow : q.num.toNat ∣ 2 ^ 16
  count : n ≤ q.num.toNat
  used : q.UsedWritable m
  rings : Disjoint (q.usedSpan m) (q.availSpan m ∪ q.tableSpan m)
  buffers : ∀ j < n, ∀ head, q.headAt m (i + j) = some head →
    Disjoint (q.bufferSpan m q.num.toNat head) (q.usedSpan m ∪ (q.availSpan m ∪ q.tableSpan m))
  apart : ∀ j < n, ∀ k < n, j ≠ k → ∀ head head', q.headAt m (i + j) = some head → q.headAt m (i + k) = some head' →
    Disjoint (q.bufferSpan m q.num.toNat head) (q.bufferSpan m q.num.toNat head')

/-- a chain takes a frame as a whole, or the device stops at it before it writes a byte -/
def Takes (head : BitVec 16) (frame : NetFrame) : Prop :=
  Refused q m (virtioNetHeaderSize + frame.length) q.num.toNat head ∨
    ∃ pieces, Room q m q.num.toNat head (virtioNetHeaderSize + frame.length) pieces ∧
      pieces.Pairwise fun c c' => Disjoint (m.span c.1 c.2) (m.span c'.1 c'.2)

/-- so do the chains of the `n` entries from `i` on, each with the frame that is its turn -/
def AllTake (i n : Nat) (frames : List NetFrame) : Prop :=
  ∀ j < n, ∀ head, q.headAt m (i + j) = some head → ∀ frame, frames[j]? = some frame → q.Takes m head frame

variable {q m} {i n : Nat} {frames : List NetFrame} {frame : NetFrame}

theorem availSpan_changes (h : m.Changes W m') : q.availSpan m' = q.availSpan m := by
  unfold availSpan
  simp only [h.span]

theorem usedSpan_changes (h : m.Changes W m') : q.usedSpan m' = q.usedSpan m := by
  unfold usedSpan
  simp only [h.span]

theorem availSlot_subset (i : Nat) : m.span (q.availSlot i) 2 ⊆ q.availSpan m := fun _ hp => .inr ⟨i, hp⟩

theorem headAt_changes (h : m.Changes W m') (hdisj : Disjoint (q.availSpan m) W) (i : Nat) :
    q.headAt m' i = q.headAt m i := by
  unfold headAt
  rw [h.readGuestU16 (hdisj.mono_left (availSlot_subset i))]

theorem elementSpan_subset (u : Nat) : q.elementSpan m u ⊆ q.usedSpan m :=
  Set.union_subset_union_right _ fun _ hp => ⟨u, hp⟩

theorem Layout.next (h : q.Layout m i (n + 1)) (hc : m.Changes W m')
    (hdisj : Disjoint (q.availSpan m ∪ q.tableSpan m) W) :
    q.Layout m' (i + 1) n := by
  have havail := hdisj.mono_left Set.subset_union_left
  have htable := hdisj.mono_left Set.subset_union_right
  have hshift : ∀ j, i + 1 + j = i + (j + 1) := fun j => by omega
  refine ⟨h.pow, Nat.le_of_succ_le h.count, h.used.changes hc, ?_, ?_, ?_⟩
  · rw [usedSpan_changes hc, availSpan_changes hc, tableSpan_changes hc]
    exact h.rings
  · intro j hj head hhead
    rw [headAt_changes hc havail, hshift] at hhead
    rw [bufferSpan_changes hc htable, usedSpan_changes hc, availSpan_changes hc, tableSpan_changes hc]
    exact h.buffers (j + 1) (by omega) head hhead
  · intro j hj k hk hne head head' hhead hhead'
    rw [headAt_changes hc havail, hshift] at hhead hhead'
    rw [bufferSpan_changes hc htable, bufferSpan_changes hc htable]
    exact h.apart (j + 1) (by omega) (k + 1) (by omega) (by omega) head head' hhead hhead'

theorem Takes.changes {head : BitVec 16} (h : q.Takes m head frame) (hc : m.Changes W m')
    (htable : Disjoint (q.tableSpan m) W) : q.Takes m' head frame := by
  obtain hrefused | ⟨pieces, hroom, hapart⟩ := h
  · exact .inl (hrefused.changes hc htable)
  · exact .inr ⟨pieces, hroom.changes hc htable, by simpa only [hc.span] using hapart⟩

theorem AllTake.next (h : q.AllTake m i (n + 1) (frame :: frames)) (hc : m.Changes W m')
    (hdisj : Disjoint (q.availSpan m ∪ q.tableSpan m) W) : q.AllTake m' (i + 1) n frames := by
  intro j hj head hhead f hf
  rw [headAt_changes hc (hdisj.mono_left Set.subset_union_left), show i + 1 + j = i + (j + 1) by omega] at hhead
  exact (h (j + 1) (by omega) head hhead f hf).changes hc (hdisj.mono_left Set.subset_union_right)

/-! ## One entry -/

/-- a frame behind its header -/
def packetOf (frame : NetFrame) : NetFrame := List.replicate virtioNetHeaderSize 0 ++ frame

/-- what the guest should find in the used element of a frame -/
def expected (frame : NetFrame) : BitVec 32 × NetFrame :=
  (BitVec.ofNat 32 (virtioNetHeaderSize + frame.length), packetOf frame)

theorem packetOf_length (frame : NetFrame) : (packetOf frame).length = virtioNetHeaderSize + frame.length := by
  simp [packetOf]

theorem packetOf_ne_nil (frame : NetFrame) : packetOf frame ≠ [] := by
  intro hnil
  have hlen := packetOf_length frame
  rw [hnil, List.length_nil, virtioNetHeaderSize] at hlen
  omega

theorem setWidth_head (head : BitVec 16) : (head.setWidth 32).setWidth 16 = head := by
  apply BitVec.eq_of_toNat_eq
  have hlt := head.isLt
  simp only [BitVec.toNat_setWidth]
  omega

/-- the frame is delivered in the chain of `head` -/
structure Delivered (q : VirtioNetQueue) (m : GuestMemory) (u : Nat) (head : BitVec 16) (frame : NetFrame)
    (m' : GuestMemory) : Prop where
  changes : m.Changes (q.bufferSpan m q.num.toNat head ∪ q.elementSpan m u) m'
  idx : q.usedIdx m' = BitVec.ofNat 16 (u + 1)
  id : q.usedId m' u = head.setWidth 32
  found : q.found m' u = expected frame
  room : ∃ pieces, Room q m' q.num.toNat head (q.usedLen m' u).toNat pieces

theorem Layout.keeps (h : q.Layout m i (n + 1)) {head : BitVec 16} (hhead : q.headAt m i = some head) (u : Nat) :
    Disjoint (q.availSpan m ∪ q.tableSpan m) (q.bufferSpan m q.num.toNat head ∪ q.elementSpan m u) := by
  have hbuffer := h.buffers 0 (Nat.succ_pos n) head hhead
  refine Set.disjoint_union_right.mpr ⟨?_, ?_⟩
  · exact (hbuffer.mono_right Set.subset_union_right).symm
  · exact (h.rings.mono_left (elementSpan_subset u)).symm

theorem delivered_of_room (hlayout : q.Layout m i (n + 1)) {head : BitVec 16} (hhead : q.headAt m i = some head)
    (hu : q.usedIdx m = BitVec.ofNat 16 u) (hlen : frame.length ≤ virtioNetMaxFrameLen)
    {pieces : List (BitVec 64 × Nat)} (hroom : Room q m q.num.toNat head (virtioNetHeaderSize + frame.length) pieces)
    (hapart : pieces.Pairwise fun c c' => Disjoint (m.span c.1 c.2) (m.span c'.1 c'.2)) :
    ∃ m₁ m', q.writeDescriptorChainLocked head (packetOf frame) m = (.ok true, m₁) ∧
      q.addUsedLocked head (BitVec.ofNat 32 (packetOf frame).length) m₁ = (.ok (), m') ∧
        q.Delivered m u head frame m' := by
  have hsub := hroom.piecesSpan_subset
  have hbuffer := hlayout.buffers 0 (Nat.succ_pos n) head hhead
  have htable : Disjoint (q.tableSpan m) (q.bufferSpan m q.num.toNat head) :=
    (hbuffer.mono_right (Set.subset_union_right.trans Set.subset_union_right)).symm
  have hused := hbuffer.mono_right Set.subset_union_left
  rw [← packetOf_length] at hroom
  rw [virtioNetMaxFrameLen] at hlen
  have hsmall : (packetOf frame).length < 2 ^ 32 := by
    rw [packetOf_length, virtioNetHeaderSize]
    omega
  obtain ⟨m₁, hwritten, hchanges, hback⟩ := writeChain_of_room hroom (by omega) hapart (htable.mono_right hsub)
  replace hchanges := hchanges.mono hsub
  have hidx : q.usedIdx m₁ = BitVec.ofNat 16 u := by
    rw [← hu]
    unfold usedIdx
    rw [hchanges.bytesAt (hused.mono_right Set.subset_union_left).symm]
  obtain ⟨m', hadded, hchanges', hidx', hid, hlen'⟩ :=
    addUsedLocked_of_writable hlayout.pow (hlayout.used.changes hchanges)
    hidx head (BitVec.ofNat 32 (packetOf frame).length)
  have hspan : q.elementSpan m₁ u = q.elementSpan m u := by
    unfold elementSpan
    rw [hchanges.span, hchanges.span]
  rw [hspan] at hchanges'
  have htable' : Disjoint (q.tableSpan m₁) (q.elementSpan m u) := by
    rw [tableSpan_changes hchanges]
    exact (hlayout.keeps hhead u).mono Set.subset_union_right Set.subset_union_right
  have hroom₁ := hroom.changes hchanges htable
  have hword : (q.usedLen m' u).toNat = (packetOf frame).length := by
    rw [hlen', BitVec.toNat_ofNat, Nat.mod_eq_of_lt hsmall]
  refine ⟨m₁, m', hwritten, hadded, ?_, hidx', hid, ?_, ⟨pieces, ?_⟩⟩
  · exact (hchanges.mono Set.subset_union_left).trans (hchanges'.mono Set.subset_union_right)
  · have hkeep : Disjoint (q.bufferSpan m₁ q.num.toNat head) (q.elementSpan m u) := by
      rw [bufferSpan_changes hchanges htable]
      exact hused.mono_right (elementSpan_subset u)
    unfold VirtioNetQueue.found expected
    rw [hword, hid, setWidth_head, readBack_changes hchanges' htable' hkeep hroom₁, hback, hlen', packetOf_length]
  · rw [hword]
    exact hroom₁.changes hchanges' htable'

end VirtioNetQueue

namespace RxLoop

open VirtioNetQueue

variable {q : VirtioNetQueue} {m m' : GuestMemory} {i n u : Nat} {frame : NetFrame} {frames : List NetFrame}

theorem readHead_eq (hpow : q.num.toNat ∣ 2 ^ 16) (i : Nat) (m : GuestMemory) :
    q.readHead (BitVec.ofNat 16 i) m = readGuestU16 (q.availSlot i) m := by
  unfold readHead availSlot
  rw [slot_eq hpow]

/-- **A round of the loop.** It stops with memory as it was, or it delivers the frame. -/
theorem entry_cases (hlayout : q.Layout m i (n + 1)) (htakes : ∀ head, q.headAt m i = some head → q.Takes m head frame)
    (havail : m.bulkCheck (q.avail + 2) 2 .load = none) (hne : BitVec.ofNat 16 i ≠ q.availIdx m)
    (hu : q.usedIdx m = BitVec.ofNat 16 u) (hlen : frame.length ≤ virtioNetMaxFrameLen) :
    (∃ r, entry q (BitVec.ofNat 16 i) frame m = (r, m) ∧ r ≠ .ok true) ∨
      ∃ head m', q.headAt m i = some head ∧ entry q (BitVec.ofNat 16 i) frame m = (.ok true, m') ∧
        q.Delivered m u head frame m' := by
  have hidx : readGuestU16 (q.avail + 2) m = (.ok (q.availIdx m), m) := readGuestU16_of_load havail
  have hmem := readGuestU16_mem (q.availSlot i) m
  unfold entry
  rw [Exec.bind_of_ok hidx, if_neg hne]
  rcases hr : readGuestU16 (q.availSlot i) m with ⟨e | head, m₁⟩
  · rw [hr] at hmem
    cases hmem
    exact .inl ⟨.error e, by rw [Exec.bind_of_error ((readHead_eq hlayout.pow i m₁).trans hr)], by simp⟩
  · rw [hr] at hmem
    cases hmem
    have hhead : q.headAt m₁ i = some head := by
      unfold headAt
      rw [hr]
      rfl
    rw [Exec.bind_of_ok ((readHead_eq hlayout.pow i m₁).trans hr)]
    obtain hrefused | ⟨pieces, hroom, hapart⟩ := htakes head hhead
    · rw [← packetOf_length] at hrefused
      obtain ⟨r, hwritten, hfalse⟩ := writeChain_of_refused hrefused (packetOf_ne_nil frame)
      refine .inl ?_
      rcases r with e | ok
      · exact ⟨.error e, Exec.bind_of_error hwritten, by simp⟩
      · have hok : ok = false := by
          cases ok
          · rfl
          · exact absurd rfl hfalse
        subst hok
        exact ⟨.ok false, Exec.bind_of_ok hwritten, by simp⟩
    · obtain ⟨m₂, m', hwritten, hadded, hdelivered⟩ := delivered_of_room hlayout hhead hu hlen hroom hapart
      refine .inr ⟨head, m', hhead, ?_, hdelivered⟩
      refine (Exec.bind_of_ok hwritten).trans ?_
      exact Exec.bind_of_ok hadded

/-- the bytes that a pump may change if it delivers `k` frames -/
def touched (q : VirtioNetQueue) (m : GuestMemory) (i u k : Nat) : Set (BitVec 64) :=
  { p | p ∈ m.span (q.used + 2) 2 ∨ ∃ j < k, p ∈ m.span (q.usedSlot (u + j)) 8 ∨
    ∃ head, q.headAt m (i + j) = some head ∧ p ∈ q.bufferSpan m q.num.toNat head }

/-- a pump delivers the first `k` frames, each in its entry -/
structure Pumped (q : VirtioNetQueue) (m : GuestMemory) (i u k : Nat) (frames : List NetFrame)
    (r : List NetFrame × RxLoop) : Prop where
  le : k ≤ frames.length
  left : r.1 = frames.drop k
  last : r.2.lastAvail = BitVec.ofNat 16 (i + k)
  idx : q.usedIdx r.2.mem = BitVec.ofNat 16 (u + k)
  changes : m.Changes (touched q m i u k) r.2.mem
  id : ∀ j < k, ∀ head, q.headAt m (i + j) = some head → q.usedId r.2.mem (u + j) = head.setWidth 32
  found : ∀ j < k, ∀ f, frames[j]? = some f → q.found r.2.mem (u + j) = expected f

theorem Pumped.none (hu : q.usedIdx m = BitVec.ofNat 16 u) (delivered : Bool) :
    Pumped q m i u 0 frames (frames, ⟨m, BitVec.ofNat 16 i, delivered⟩) :=
  ⟨Nat.zero_le _, rfl, rfl, hu, .refl _ _, fun j hj => absurd hj (Nat.not_lt_zero j),
    fun j hj => absurd hj (Nat.not_lt_zero j)⟩

section

variable {head : BitVec 16} {k : Nat} {r : List NetFrame × RxLoop}
variable (hlayout : q.Layout m i (n + 1)) (hhead : q.headAt m i = some head) (hd : q.Delivered m u head frame m')
    (hk : k ≤ n)

include hlayout hhead hd

theorem touched_next : touched q m' (i + 1) (u + 1) k =
    { p | p ∈ m.span (q.used + 2) 2 ∨ ∃ j < k, p ∈ m.span (q.usedSlot (u + (j + 1))) 8 ∨
      ∃ head, q.headAt m (i + (j + 1)) = some head ∧ p ∈ q.bufferSpan m q.num.toNat head } := by
  have hkeep := hlayout.keeps hhead u
  have hshift : ∀ a j, a + 1 + j = a + (j + 1) := fun a j => by omega
  unfold touched
  simp only [hd.changes.span, headAt_changes hd.changes (hkeep.mono_left Set.subset_union_left),
    bufferSpan_changes hd.changes (hkeep.mono_left Set.subset_union_right), hshift]

include hk

theorem touched_apart : Disjoint (m'.span (q.usedSlot u) 8) (touched q m' (i + 1) (u + 1) k) ∧
    Disjoint (q.tableSpan m') (touched q m' (i + 1) (u + 1) k) ∧
    Disjoint (q.bufferSpan m' q.num.toNat head) (touched q m' (i + 1) (u + 1) k) := by
  have hkeep := hlayout.keeps hhead u
  have hcount := hlayout.count
  have hpos : 0 < q.num.toNat := by omega
  have hown := hlayout.buffers 0 (Nat.succ_pos n) head hhead
  rw [touched_next hlayout hhead hd, hd.changes.span, tableSpan_changes hd.changes,
    bufferSpan_changes hd.changes (hkeep.mono_left Set.subset_union_right)]
  refine ⟨Set.disjoint_left.mpr ?_, Set.disjoint_left.mpr ?_, Set.disjoint_left.mpr ?_⟩
  · rintro p hp (hidx | ⟨j, hj, hslot | ⟨head', hhead', hbuf⟩⟩)
    · exact Set.disjoint_left.mp (hlayout.used.idx_apart hpos u) hidx hp
    · have hne : u % q.num.toNat ≠ (u + (j + 1)) % q.num.toNat := fun hmod => by
        have hdvd := (Nat.modEq_iff_dvd' (Nat.le_add_right u (j + 1))).mp hmod
        rw [Nat.add_sub_cancel_left] at hdvd
        exact absurd (Nat.le_of_dvd (Nat.succ_pos j) hdvd) (by omega)
      exact Set.disjoint_left.mp (hlayout.used.slot_apart hpos hne) hp hslot
    · have hother := hlayout.buffers (j + 1) (by omega) head' hhead'
      exact Set.disjoint_left.mp hother hbuf (.inl (.inr ⟨u, hp⟩))
  · rintro p hp (hidx | ⟨j, hj, hslot | ⟨head', hhead', hbuf⟩⟩)
    · exact Set.disjoint_left.mp hlayout.rings (.inl hidx) (.inr hp)
    · exact Set.disjoint_left.mp hlayout.rings (.inr ⟨_, hslot⟩) (.inr hp)
    · have hother := hlayout.buffers (j + 1) (by omega) head' hhead'
      exact Set.disjoint_left.mp hother hbuf (.inr (.inr hp))
  · rintro p hp (hidx | ⟨j, hj, hslot | ⟨head', hhead', hbuf⟩⟩)
    · exact Set.disjoint_left.mp hown hp (.inl (.inl hidx))
    · exact Set.disjoint_left.mp hown hp (.inl (.inr ⟨_, hslot⟩))
    · have hother := hlayout.apart 0 (Nat.succ_pos n) (j + 1) (by omega) (by omega) head head' hhead hhead'
      exact Set.disjoint_left.mp hother hp hbuf

theorem Pumped.cons (hrest : Pumped q m' (i + 1) (u + 1) k frames r) : Pumped q m i u (k + 1) (frame :: frames) r := by
  have hkeep := hlayout.keeps hhead u
  have hshift : ∀ a j, a + 1 + j = a + (j + 1) := fun a j => by omega
  obtain ⟨hslot, htable, hbuf⟩ := touched_apart hlayout hhead hd hk
  obtain ⟨hfirst, hsecond, -⟩ := (hlayout.used.changes hd.changes).halves u
  have hid : q.usedId r.2.mem u = q.usedId m' u := by
    unfold usedId
    rw [hrest.changes.bytesAt (hslot.mono_left hfirst)]
  have hlen : q.usedLen r.2.mem u = q.usedLen m' u := by
    unfold usedLen
    rw [hrest.changes.bytesAt (hslot.mono_left hsecond)]
  refine ⟨by simpa using hrest.le, by simpa using hrest.left, ?_, ?_, ?_, ?_, ?_⟩
  · rw [hrest.last, hshift]
  · rw [hrest.idx, hshift]
  · refine (hd.changes.mono ?_).trans (hrest.changes.mono ?_)
    · rintro p (hp | hp | hp)
      · exact .inr ⟨0, Nat.succ_pos k, .inr ⟨head, hhead, hp⟩⟩
      · exact .inl hp
      · exact .inr ⟨0, Nat.succ_pos k, .inl hp⟩
    · rw [touched_next hlayout hhead hd]
      rintro p (hp | ⟨j, hj, hp⟩)
      · exact .inl hp
      · exact .inr ⟨j + 1, by omega, hp⟩
  · intro j hj head' hhead'
    cases j with
    | zero =>
      obtain rfl : head = head' := Option.some.inj (hhead.symm.trans hhead')
      exact hid.trans hd.id
    | succ j =>
      have hsame := headAt_changes hd.changes (hkeep.mono_left Set.subset_union_left) (i + (j + 1))
      rw [← hshift u j]
      exact hrest.id j (by omega) head' (by rw [hshift, hsame]; exact hhead')
  · intro j hj f hf
    cases j with
    | zero =>
      cases hf
      obtain ⟨pieces, hroom⟩ := hd.room
      have hback := readBack_changes hrest.changes htable hbuf hroom
      rw [Nat.add_zero, ← hd.found]
      unfold VirtioNetQueue.found
      rw [hid, hlen, hd.id, setWidth_head, hback]
    | succ j =>
      rw [← hshift u j]
      exact hrest.found j (by omega) f hf

end

theorem run_of_stop {r : Except MemFault Bool} {s : RxLoop} (h : entry q s.lastAvail frame s.mem = (r, s.mem))
    (hr : r ≠ .ok true) :
    run q (frame :: frames) s = (frame :: frames, s) := by
  rw [run, h]
  rcases r with e | _ | _
  · rfl
  · rfl
  · exact absurd rfl hr

theorem run_of_delivered {s : RxLoop} (h : entry q s.lastAvail frame s.mem = (.ok true, m')) :
    run q (frame :: frames) s = run q frames ⟨m', s.lastAvail + 1, true⟩ := by
  rw [run, h]

/-- **A pump.** With the buffers apart and no chain filled in part, it delivers the first frames in the first entries.
-/
theorem run_pumped (hlayout : q.Layout m i n) (htake : q.AllTake m i n frames)
    (havail : m.bulkCheck (q.avail + 2) 2 .load = none) (hn : n = (q.availIdx m - BitVec.ofNat 16 i).toNat)
    (hu : q.usedIdx m = BitVec.ofNat 16 u) (hlen : ∀ f ∈ frames, f.length ≤ virtioNetMaxFrameLen) (delivered : Bool) :
    ∃ k ≤ n, Pumped q m i u k frames (run q frames ⟨m, BitVec.ofNat 16 i, delivered⟩) := by
  induction frames generalizing m i n u delivered with
  | nil => exact ⟨0, Nat.zero_le _, .none hu delivered⟩
  | cons frame frames ih =>
    cases n with
    | zero =>
      have hend : BitVec.ofNat 16 i = q.availIdx m := by bv_omega
      have hidx : readGuestU16 (q.avail + 2) m = (.ok (q.availIdx m), m) := readGuestU16_of_load havail
      have hstop : entry q (BitVec.ofNat 16 i) frame m = (.ok false, m) := by
        unfold entry
        rw [Exec.bind_of_ok hidx, if_pos hend]
        rfl
      rw [run_of_stop (s := ⟨m, BitVec.ofNat 16 i, delivered⟩) hstop (by simp)]
      exact ⟨0, Nat.le_refl _, .none hu delivered⟩
    | succ n =>
      have hne : BitVec.ofNat 16 i ≠ q.availIdx m := fun heq => by
        rw [heq, BitVec.sub_self] at hn
        exact absurd hn (by simp)
      obtain ⟨r, hstop, hr⟩ | ⟨head, m', hhead, hentry, hd⟩ := entry_cases hlayout
        (fun head hhead => htake 0 (Nat.succ_pos n) head hhead frame rfl) havail hne hu (hlen frame List.mem_cons_self)
      · rw [run_of_stop (s := ⟨m, BitVec.ofNat 16 i, delivered⟩) hstop hr]
        exact ⟨0, Nat.zero_le _, .none hu delivered⟩
      · have hkeep := hlayout.keeps hhead u
        have hidx : q.availIdx m' = q.availIdx m := by
          unfold availIdx
          rw [hd.changes.bytesAt (hkeep.mono_left (Set.subset_union_left.trans Set.subset_union_left))]
        have hcount : n = (q.availIdx m' - BitVec.ofNat 16 (i + 1)).toNat := by
          rw [hidx, ← ofNat_succ]
          bv_omega
        obtain ⟨k, hk, hrest⟩ := ih (hlayout.next hd.changes hkeep) (htake.next hd.changes hkeep)
          (by rw [hd.changes.bulkCheck]; exact havail) hcount hd.idx
            (fun f hf => hlen f (List.mem_cons_of_mem _ hf)) true
        rw [run_of_delivered (s := ⟨m, BitVec.ofNat 16 i, delivered⟩) hentry, ofNat_succ]
        exact ⟨k + 1, Nat.succ_le_succ hk, hrest.cons hlayout hhead hd hk⟩

theorem run_of_no_avail (havail : m.bulkCheck (q.avail + 2) 2 .load ≠ none) (frames : List NetFrame)
    (lastAvail : BitVec 16)
    (delivered : Bool) : run q frames ⟨m, lastAvail, delivered⟩ = (frames, ⟨m, lastAvail, delivered⟩) := by
  cases frames with
  | nil => rfl
  | cons frame frames =>
    have hmem := readGuestU16_mem (q.avail + 2) m
    rcases hr : readGuestU16 (q.avail + 2) m with ⟨e | v, m₁⟩
    · rw [hr] at hmem
      cases hmem
      exact run_of_stop (s := ⟨m₁, lastAvail, delivered⟩) (Exec.bind_of_error hr) (by simp)
    · exact absurd (readGuestU16_ok_iff.mp hr).2.1 havail

end RxLoop

end RiscvEmu
