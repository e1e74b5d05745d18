/-
Filling a descriptor chain.

A chain has room for a packet if its first descriptors are writable, lie in memory and are long enough together
(`Room`, with the pieces that are filled). It refuses a packet if the device stops before a byte is written
(`Refused`). Between the two lie the chains that are filled in part.

• `writeChain_of_room`: a chain with room is filled, only the pieces change, and the guest reads the packet back
  (`readBack`).
• `writeChain_of_refused`: a chain that refuses a packet is left as it is.
-/
import RiscvEmu.Board.Footprint

namespace RiscvEmu

variable {d : VirtqDesc} {packet : NetFrame}

open GuestMemory Exec List

namespace VirtioNetQueue

variable (q : VirtioNetQueue) (m : GuestMemory)

def tableSpan : Set (BitVec 64) := { p | ∃ id : BitVec 16, id < q.num ∧ p ∈ m.span (q.desc + id.setWidth 64 * 16) 16 }

/-- the bytes of the writable buffers among the first `n` of a chain -/
def bufferSpan : Nat → BitVec 16 → Set (BitVec 64)
  | 0, _ => ∅
  | n + 1, id =>
    match q.descAt m id with
    | none => ∅
    | some d => (if d.flags &&& virtqDescFWrite = 0 then ∅ else m.span d.addr d.len.toNat) ∪
        (if d.flags &&& virtqDescFNext = 0 then ∅ else bufferSpan n d.next)

/-- the first `n` descriptors of a chain have room for `len` bytes, in these pieces -/
inductive Room : Nat → BitVec 16 → Nat → List (BitVec 64 × Nat) → Prop
  | last {n : Nat} {id : BitVec 16} {len : Nat} {d : VirtqDesc} (hd : q.descAt m id = some d)
      (hwrite : d.flags &&& virtqDescFWrite ≠ 0) (hfit : len ≤ d.len.toNat) (hstore : m.Storable d.addr len) :
      Room (n + 1) id len [(d.addr, len)]
  | next {n : Nat} {id : BitVec 16} {len : Nat} {d : VirtqDesc} {rest : List (BitVec 64 × Nat)}
      (hd : q.descAt m id = some d) (hwrite : d.flags &&& virtqDescFWrite ≠ 0) (hshort : d.len.toNat < len)
      (hstore : m.Storable d.addr d.len.toNat) (hnext : d.flags &&& virtqDescFNext ≠ 0)
      (hrest : Room n d.next (len - d.len.toNat) rest) : Room (n + 1) id len ((d.addr, d.len.toNat) :: rest)

/-- the device stops at the chain before it writes a byte -/
inductive Refused (len : Nat) : Nat → BitVec 16 → Prop
  | rounds {id : BitVec 16} : Refused len 0 id
  | unreadable {n : Nat} {id : BitVec 16} (hd : q.descAt m id = none) : Refused len (n + 1) id
  | readOnly {n : Nat} {id : BitVec 16} {d : VirtqDesc} (hd : q.descAt m id = some d)
      (hwrite : d.flags &&& virtqDescFWrite = 0) : Refused len (n + 1) id
  | outside {n : Nat} {id : BitVec 16} {d : VirtqDesc} (hd : q.descAt m id = some d)
      (hwrite : d.flags &&& virtqDescFWrite ≠ 0) (hstore : ¬ m.Storable d.addr (min d.len.toNat len)) :
      Refused len (n + 1) id
  | empty {n : Nat} {id : BitVec 16} {d : VirtqDesc} (hd : q.descAt m id = some d)
      (hwrite : d.flags &&& virtqDescFWrite ≠ 0) (hlen : d.len = 0)
      (hrest : d.flags &&& virtqDescFNext ≠ 0 → Refused len n d.next) : Refused len (n + 1) id

/-- the first `len` bytes of the writable buffers of a chain, as the guest reads them -/
def readBack : Nat → BitVec 16 → Nat → NetFrame
  | 0, _, _ => []
  | n + 1, id, len =>
    match q.descAt m id with
    | none => []
    | some d =>
      if d.flags &&& virtqDescFWrite = 0 then []
      else if len ≤ d.len.toNat then m.bytesAt d.addr len
      else m.bytesAt d.addr d.len.toNat ++ readBack n d.next (len - d.len.toNat)

def piecesSpan (pieces : List (BitVec 64 × Nat)) : Set (BitVec 64) := { p | ∃ c ∈ pieces, p ∈ m.span c.1 c.2 }

variable {q m} {m' : GuestMemory} {W : Set (BitVec 64)}
variable {n : Nat} {id : BitVec 16} {len : Nat} {pieces : List (BitVec 64 × Nat)}

/-! ## What stays the same when other bytes change -/

theorem tableSpan_changes (h : m.Changes W m') : q.tableSpan m' = q.tableSpan m := by
  unfold tableSpan
  simp only [h.span]

theorem piecesSpan_changes (h : m.Changes W m') (pieces : List (BitVec 64 × Nat)) :
    piecesSpan m' pieces = piecesSpan m pieces := by
  unfold piecesSpan
  simp only [h.span]

theorem readDescLocked_changes (h : m.Changes W m') (hdisj : Disjoint (q.tableSpan m) W) (id : BitVec 16) :
    q.readDescLocked id m' = ((q.readDescLocked id m).1, m') := by
  unfold readDescLocked
  split_ifs with hout
  · rfl
  · have hlt : id < q.num := BitVec.not_le.mp fun hge => hout (.inr hge)
    have hsub : m.span (q.desc + id.setWidth 64 * 16) 16 ⊆ q.tableSpan m := fun p hp => ⟨id, hlt, hp⟩
    rw [bind_run, bind_run, h.readBytes (hdisj.mono_left hsub)]
    rcases readBytes (q.desc + id.setWidth 64 * 16) 16 m with ⟨e | l, m₁⟩ <;> rfl

theorem descAt_changes (h : m.Changes W m') (hdisj : Disjoint (q.tableSpan m) W) (id : BitVec 16) :
    q.descAt m' id = q.descAt m id := by
  unfold descAt
  rw [readDescLocked_changes h hdisj]

theorem bufferSpan_changes (h : m.Changes W m') (hdisj : Disjoint (q.tableSpan m) W) (n : Nat) (id : BitVec 16) :
    q.bufferSpan m' n id = q.bufferSpan m n id := by
  induction n generalizing id with
  | zero => rfl
  | succ n ih =>
    unfold bufferSpan
    rw [descAt_changes h hdisj]
    simp only [h.span, ih]

theorem Room.changes (hroom : Room q m n id len pieces) (h : m.Changes W m') (hdisj : Disjoint (q.tableSpan m) W) :
    Room q m' n id len pieces := by
  induction hroom with
  | last hd hwrite hfit hstore =>
    rw [← descAt_changes h hdisj] at hd
    exact .last hd hwrite hfit ((h.storable _ _).mpr hstore)
  | next hd hwrite hshort hstore hnext hrest ih =>
    rw [← descAt_changes h hdisj] at hd
    exact .next hd hwrite hshort ((h.storable _ _).mpr hstore) hnext ih

theorem Refused.changes (hrefused : Refused q m len n id) (h : m.Changes W m') (hdisj : Disjoint (q.tableSpan m) W) :
    Refused q m' len n id := by
  induction hrefused with
  | rounds => exact .rounds
  | unreadable hd =>
    rw [← descAt_changes h hdisj] at hd
    exact .unreadable hd
  | readOnly hd hwrite =>
    rw [← descAt_changes h hdisj] at hd
    exact .readOnly hd hwrite
  | outside hd hwrite hstore =>
    rw [← descAt_changes h hdisj] at hd
    exact .outside hd hwrite fun hs => hstore ((h.storable _ _).mp hs)
  | empty hd hwrite hlen hrest ih =>
    rw [← descAt_changes h hdisj] at hd
    exact .empty hd hwrite hlen ih

theorem readBack_changes (h : m.Changes W m') (hdisj : Disjoint (q.tableSpan m) W)
    (hbuf : Disjoint (q.bufferSpan m n id) W) (hroom : Room q m n id len pieces) :
    q.readBack m' n id len = q.readBack m n id len := by
  induction hroom with
  | @last n id len d hd hwrite hfit hstore =>
    have hspan : m.span d.addr len ⊆ q.bufferSpan m (n + 1) id := by
      intro p hp
      rw [bufferSpan, hd]
      exact .inl (by rw [if_neg hwrite]; exact span_mono hfit hp)
    unfold readBack
    rw [descAt_changes h hdisj, hd]
    dsimp only
    rw [if_neg hwrite, if_neg hwrite, if_pos hfit, if_pos hfit, h.bytesAt (hbuf.mono_left hspan)]
  | @next n id len d rest hd hwrite hshort hstore hnext hrest ih =>
    have hsplit : q.bufferSpan m (n + 1) id = m.span d.addr d.len.toNat ∪ q.bufferSpan m n d.next := by
      rw [bufferSpan, hd]
      dsimp only
      rw [if_neg hwrite, if_neg hnext]
    rw [hsplit] at hbuf
    unfold readBack
    rw [descAt_changes h hdisj, hd]
    dsimp only
    rw [if_neg hwrite, if_neg hwrite, if_neg (by omega), if_neg (by omega),
      h.bytesAt (hbuf.mono_left Set.subset_union_left), ih (hbuf.mono_left Set.subset_union_right)]

/-! ## The chain is filled -/

theorem Room.piecesSpan_subset (h : Room q m n id len pieces) : piecesSpan m pieces ⊆ q.bufferSpan m n id := by
  induction h with
  | @last n id len d hd hwrite hfit hstore =>
    rintro p ⟨c, hc, hp⟩
    rw [mem_singleton.mp hc] at hp
    rw [bufferSpan, hd]
    exact .inl (by rw [if_neg hwrite]; exact span_mono hfit hp)
  | @next n id len d rest hd hwrite hshort hstore hnext hrest ih =>
    rintro p ⟨c, hc, hp⟩
    rw [bufferSpan, hd]
    obtain rfl | hc := mem_cons.mp hc
    · exact .inl (by rw [if_neg hwrite]; exact hp)
    · exact .inr (by rw [if_neg hnext]; exact ih ⟨c, hc, hp⟩)

theorem readDescLocked_of_descAt (h : q.descAt m id = some d) : q.readDescLocked id m = (.ok d, m) := by
  have hmem := q.readDescLocked_mem m id
  unfold descAt at h
  rcases hr : q.readDescLocked id m with ⟨e | d', m₁⟩
  · rw [hr] at h
    cases h
  · rw [hr] at h hmem
    cases h
    exact congrArg _ hmem

theorem readDescLocked_of_none (h : q.descAt m id = none) : ∃ f, q.readDescLocked id m = (.error f, m) := by
  have hmem := q.readDescLocked_mem m id
  unfold descAt at h
  rcases hr : q.readDescLocked id m with ⟨e | d, m₁⟩
  · rw [hr] at hmem
    exact ⟨e, congrArg _ hmem⟩
  · rw [hr] at h
    cases h

theorem writeChain_succ (hd : q.descAt m id = some d)
    (hwrite : d.flags &&& virtqDescFWrite ≠ 0) (hstore : m.Storable d.addr (packet.take d.len.toNat).length) :
    q.writeChain (n + 1) id packet m =
      if packet.drop d.len.toNat = [] then (.ok true, m.put d.addr (packet.take d.len.toNat))
      else if d.flags &&& virtqDescFNext = 0 then (.ok false, m.put d.addr (packet.take d.len.toNat))
      else q.writeChain n d.next (packet.drop d.len.toNat) (m.put d.addr (packet.take d.len.toNat)) := by
  rw [writeChain, bind_of_ok (readDescLocked_of_descAt hd), if_neg hwrite,
    bind_of_ok (writeBytes_of_storable hstore)]
  split_ifs <;> rfl

/-- **A chain with room takes the packet.** Only the pieces change, and the packet is read back from them. -/
theorem writeChain_of_room (hroom : Room q m n id packet.length pieces) (hlen : packet.length < 2 ^ 64)
    (hapart : pieces.Pairwise fun c c' => Disjoint (m.span c.1 c.2) (m.span c'.1 c'.2))
    (htable : Disjoint (q.tableSpan m) (piecesSpan m pieces)) :
    ∃ m', q.writeChain n id packet m = (.ok true, m') ∧ m.Changes (piecesSpan m pieces) m' ∧
      q.readBack m' n id packet.length = packet := by
  induction n generalizing m id packet pieces with
  | zero => cases hroom
  | succ n ih =>
    cases hroom with
    | @last _ _ _ d hd hwrite hfit hstore =>
      have htake : packet.take d.len.toNat = packet := take_of_length_le hfit
      have hput := m.put_changes d.addr packet
      have hpiece : m.Changes (piecesSpan m [(d.addr, packet.length)]) (m.put d.addr packet) :=
        hput.mono fun p hp => ⟨_, mem_singleton.mpr rfl, hp⟩
      refine ⟨m.put d.addr packet, ?_, hpiece, ?_⟩
      · rw [writeChain_succ hd hwrite (by rwa [htake]), htake, if_pos (drop_eq_nil_of_le hfit)]
      · rw [readBack, descAt_changes hpiece htable, hd]
        dsimp only
        rw [if_neg hwrite, if_pos hfit, m.bytesAt_put d.addr packet hlen]
    | @next _ _ _ d rest hd hwrite hshort hstore hnext hrest =>
      have hlength : (packet.take d.len.toNat).length = d.len.toNat := length_take_of_le (Nat.le_of_lt hshort)
      have hput : m.Changes (m.span d.addr d.len.toNat) (m.put d.addr (packet.take d.len.toNat)) := by
        have hput := m.put_changes d.addr (packet.take d.len.toNat)
        rwa [hlength] at hput
      generalize hm₁ : m.put d.addr (packet.take d.len.toNat) = m₁ at hput
      have hfirst : m.span d.addr d.len.toNat ⊆ piecesSpan m ((d.addr, d.len.toNat) :: rest) :=
        fun p hp => ⟨_, mem_cons_self, hp⟩
      have hothers : piecesSpan m rest ⊆ piecesSpan m ((d.addr, d.len.toNat) :: rest) :=
        fun p ⟨c, hc, hp⟩ => ⟨c, mem_cons_of_mem _ hc, hp⟩
      have hkeep := htable.mono_right hfirst
      obtain ⟨happ, hrestApart⟩ := pairwise_cons.mp hapart
      have hdrop : (packet.drop d.len.toNat).length = packet.length - d.len.toNat := length_drop
      -- the rest of the chain is read and filled in the memory that the first piece leaves
      have hroom₁ : Room q m₁ n d.next (packet.drop d.len.toNat).length rest := by
        rw [hdrop]
        exact hrest.changes hput hkeep
      obtain ⟨m₂, hwritten, hchanges, hback⟩ := ih hroom₁ (by omega) (by simpa only [hput.span] using hrestApart)
        (by rw [tableSpan_changes hput, piecesSpan_changes hput]; exact htable.mono_right hothers)
      rw [piecesSpan_changes hput] at hchanges
      have hall := (hput.mono hfirst).trans (hchanges.mono hothers)
      refine ⟨m₂, ?_, hall, ?_⟩
      · have hmore : packet.drop d.len.toNat ≠ [] := fun hnil => by
          rw [hnil] at hdrop
          exact absurd hdrop (by simp; omega)
        rw [writeChain_succ hd hwrite (by rwa [hlength]), if_neg hmore, if_neg hnext, hm₁, hwritten]
      · have hpiece : Disjoint (m₁.span d.addr d.len.toNat) (piecesSpan m rest) := by
          rw [hput.span]
          refine Set.disjoint_left.mpr fun p hp hp' => ?_
          obtain ⟨c, hc, hpc⟩ := hp'
          exact Set.disjoint_left.mp (happ c hc) hp hpc
        have hbytes : m₂.bytesAt d.addr d.len.toNat = packet.take d.len.toNat := by
          have hsame := m.bytesAt_put d.addr (packet.take d.len.toNat) (by rw [hlength]; omega)
          rw [hm₁, hlength] at hsame
          rw [hchanges.bytesAt hpiece, hsame]
        rw [hdrop] at hback
        rw [readBack, descAt_changes hall htable, hd]
        dsimp only
        rw [if_neg hwrite, if_neg (by omega), hbytes, hback, take_append_drop]

theorem writeChain_of_refused (hrefused : Refused q m packet.length n id) (hpacket : packet ≠ []) :
    ∃ r, q.writeChain n id packet m = (r, m) ∧ r ≠ .ok true := by
  induction hrefused with
  | rounds => exact ⟨.ok false, rfl, by simp⟩
  | unreadable hd =>
    obtain ⟨f, hread⟩ := readDescLocked_of_none hd
    exact ⟨.error f, by rw [writeChain, bind_of_error hread], by simp⟩
  | readOnly hd hwrite =>
    refine ⟨.ok false, ?_, by simp⟩
    rw [writeChain, bind_of_ok (readDescLocked_of_descAt hd), if_pos hwrite]
    rfl
  | outside hd hwrite hstore =>
    rw [← length_take] at hstore
    obtain ⟨f, hfault⟩ := writeBytes_of_not_storable hstore
    refine ⟨.error f, ?_, by simp⟩
    rw [writeChain, bind_of_ok (readDescLocked_of_descAt hd), if_neg hwrite, bind_of_error hfault]
  | @empty n id d hd hwrite hlen hrest ih =>
    have hnone : packet.take d.len.toNat = [] := by rw [hlen]; rfl
    have hsame : packet.drop d.len.toNat = packet := by rw [hlen]; rfl
    have hput : m.put d.addr [] = m := rfl
    rw [writeChain_succ hd hwrite (.inl (by rw [hnone]; rfl)), hsame, hnone, hput, if_neg hpacket]
    split_ifs with hend
    · exact ⟨.ok false, rfl, by simp⟩
    · exact ih hend

end VirtioNetQueue

end RiscvEmu
