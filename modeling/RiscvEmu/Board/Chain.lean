/-
Descriptor chains, and what the device reads from them.

`Chain` follows the `next` links of a chain to its end; a chain that loops has none. One that ends visits no
descriptor twice, so it has at most one descriptor more than the table, past it and empty (`Chain.length_le`), and the
bound on the rounds of `readDescriptorChainLocked` never cuts it.

• `readDescriptorChainLocked_ok`: the bytes collected are those of the first buffers that fit (`fitting`).
• `Chain.fitting_of_le`: for a chain that ends and is not too long these are all its bytes.
-/
import RiscvEmu.Board.Virtio

namespace RiscvEmu

variable {n : Nat} {x : BitVec 16} {d : VirtqDesc}

open GuestMemory Exec List Option

namespace GuestMemory

variable {m m' : GuestMemory}

@[simp] theorem readBytes_mem (addr : BitVec 64) (n : Nat) (m : GuestMemory) : (readBytes addr n m).2 = m := by
  unfold readBytes
  split_ifs
  · rfl
  · cases m.bulkCheck addr (BitVec.ofNat 64 n) .load <;> rfl

/-- the bytes from an address on -/
def bytesAt (m : GuestMemory) (addr : BitVec 64) (n : Nat) : List (BitVec 8) :=
  (range n).map fun i => m.bytes (m.hostPtr addr + BitVec.ofNat 64 i)

theorem readBytes_ok {addr : BitVec 64} {l : List (BitVec 8)} (h : readBytes addr n m = (.ok l, m')) :
    m' = m ∧ l = m.bytesAt addr n := by
  unfold readBytes at h
  split_ifs at h with hn
  · cases h
    exact ⟨rfl, by simp [bytesAt, hn]⟩
  · cases hcheck : m.bulkCheck addr (BitVec.ofNat 64 n) .load with
    | some f =>
      rw [hcheck] at h
      cases h
    | none =>
      rw [hcheck] at h
      cases h
      exact ⟨rfl, rfl⟩

end GuestMemory

@[simp] theorem readGuestU16_mem (addr : BitVec 64) (m : GuestMemory) : (readGuestU16 addr m).2 = m := by
  have hmem := readBytes_mem addr 2 m
  unfold readGuestU16
  rw [bind_run]
  rcases hr : readBytes addr 2 m with ⟨e | l, m'⟩
  · rw [hr] at hmem
    exact hmem
  · rw [hr] at hmem
    exact hmem

namespace VirtioNetQueue

variable (q : VirtioNetQueue) (m : GuestMemory)

@[simp] theorem readDescLocked_mem (id : BitVec 16) : (q.readDescLocked id m).2 = m := by
  have hmem := readBytes_mem (q.desc + id.setWidth 64 * 16) 16 m
  unfold readDescLocked
  split_ifs
  · rfl
  · rw [bind_run]
    rcases hr : readBytes (q.desc + id.setWidth 64 * 16) 16 m with ⟨e | l, m'⟩
    · rw [hr] at hmem
      exact hmem
    · rw [hr] at hmem
      exact hmem

def descAt (id : BitVec 16) : Option VirtqDesc := (q.readDescLocked id m).1.toOption

/-- the bytes of a buffer that the device may read -/
def readable (d : VirtqDesc) : NetFrame :=
  if d.flags &&& virtqDescFWrite = 0 then m.bytesAt d.addr d.len.toNat else []

/-- the descriptors from `id` on to the end of the chain, and the buffers that the device may read -/
inductive Chain : BitVec 16 → List (BitVec 16) → List NetFrame → Prop
  | last {id : BitVec 16} {d : VirtqDesc} (hd : q.descAt m id = some d) (hend : d.flags &&& virtqDescFNext = 0) :
      Chain id [id] [readable m d]
  | next {id : BitVec 16} {d : VirtqDesc} {ids : List (BitVec 16)} {bufs : List NetFrame} (hd : q.descAt m id = some d)
      (hnext : d.flags &&& virtqDescFNext ≠ 0) (hrest : Chain d.next ids bufs) :
        Chain id (id :: ids) (readable m d :: bufs)

variable {q m}
variable {id : BitVec 16} {ids ids' : List (BitVec 16)} {bufs bufs' : List NetFrame}

theorem Chain.unique (h : Chain q m id ids bufs) (h' : Chain q m id ids' bufs') : ids = ids' ∧ bufs = bufs' := by
  induction h generalizing ids' bufs' with
  | last hd hend =>
    cases h' with
    | last hd' hend' =>
      rw [some.inj (hd.symm.trans hd')]
      exact ⟨rfl, rfl⟩
    | next hd' hnext' hrest' =>
      rw [some.inj (hd.symm.trans hd')] at hend
      exact absurd hend hnext'
  | next hd hnext hrest ih =>
    cases h' with
    | last hd' hend' =>
      rw [some.inj (hd.symm.trans hd')] at hnext
      exact absurd hend' hnext
    | next hd' hnext' hrest' =>
      cases some.inj (hd.symm.trans hd')
      obtain ⟨rfl, rfl⟩ := ih hrest'
      exact ⟨rfl, rfl⟩

theorem Chain.from_mem (h : Chain q m id ids bufs) (hx : x ∈ ids) :
    ∃ ids' bufs', Chain q m x ids' bufs' ∧ ids'.length ≤ ids.length := by
  induction h with
  | @last id d hd hend =>
    rw [mem_singleton.mp hx]
    exact ⟨_, _, .last hd hend, Nat.le_refl _⟩
  | @next id d ids bufs hd hnext hrest ih =>
    obtain rfl | hx := mem_cons.mp hx
    · exact ⟨_, _, .next hd hnext hrest, Nat.le_refl _⟩
    · obtain ⟨ids', bufs', hchain, hle⟩ := ih hx
      exact ⟨ids', bufs', hchain, Nat.le_succ_of_le hle⟩

theorem Chain.nodup (h : Chain q m id ids bufs) : ids.Nodup := by
  induction h with
  | last hd hend => exact nodup_singleton _
  | @next id d ids bufs hd hnext hrest ih =>
    refine nodup_cons.mpr ⟨fun hmem => ?_, ih⟩
    obtain ⟨ids', bufs', hchain, hle⟩ := hrest.from_mem hmem
    have hsame := (hchain.unique (.next hd hnext hrest)).1
    rw [hsame] at hle
    exact absurd hle (Nat.not_succ_le_self _)

theorem descAt_of_ge (h : ¬ id < q.num) : q.descAt m id = some { addr := 0, len := 0, flags := 0, next := 0 } := by
  unfold descAt readDescLocked
  rw [if_pos (.inr (BitVec.not_lt.mp h))]
  rfl

theorem lt_of_next (hd : q.descAt m id = some d) (hnext : d.flags &&& virtqDescFNext ≠ 0) : id < q.num := by
  by_contra hge
  rw [some.inj (hd.symm.trans (descAt_of_ge hge))] at hnext
  exact hnext rfl

theorem Chain.dropLast_lt (h : Chain q m id ids bufs) : ∀ x ∈ ids.dropLast, x < q.num := by
  induction h with
  | last hd hend => exact fun x hx => absurd hx (by simp)
  | @next id d ids bufs hd hnext hrest ih =>
    intro x hx
    have hne : ids ≠ [] := by
      cases hrest <;> simp
    rw [dropLast_cons_of_ne_nil hne] at hx
    obtain rfl | hx := mem_cons.mp hx
    · exact lt_of_next hd hnext
    · exact ih x hx

theorem length_le_of_nodup {l : List (BitVec 16)} (hnodup : l.Nodup) (hlt : ∀ x ∈ l, x < q.num) :
    l.length ≤ q.num.toNat := by
  have hsub : l.map BitVec.toNat ⊆ range q.num.toNat := by
    intro n hn
    obtain ⟨x, hx, rfl⟩ := mem_map.mp hn
    exact mem_range.mpr (hlt x hx)
  have hle := ((hnodup.map fun _ _ => BitVec.eq_of_toNat_eq).subperm hsub).length_le
  rwa [length_map, length_range] at hle

theorem Chain.ne_nil (h : Chain q m id ids bufs) : ids ≠ [] ∧ bufs ≠ [] := by
  cases h <;> simp

theorem Chain.getLast_of_ge (h : Chain q m id ids bufs) (hx : x ∈ ids) (hge : ¬ x < q.num) :
    bufs.getLast? = some [] := by
  induction h with
  | @last id d hd hend =>
    rw [mem_singleton.mp hx] at hge
    have hzero : d = { addr := 0, len := 0, flags := 0, next := 0 } := some.inj (hd.symm.trans (descAt_of_ge hge))
    rw [hzero]
    rfl
  | @next id d ids bufs hd hnext hrest ih =>
    obtain rfl | hx := mem_cons.mp hx
    · exact absurd (lt_of_next hd hnext) hge
    · rw [getLast?_cons_of_ne_nil hrest.ne_nil.2]
      exact ih hx

/-- a chain that ends has at most one descriptor more than the table, and then the last one is empty -/
theorem Chain.length_le (h : Chain q m id ids bufs) :
    ids.length ≤ q.num.toNat ∨ (ids.length = q.num.toNat + 1 ∧ bufs.getLast? = some []) := by
  have hdrop := length_le_of_nodup (h.nodup.sublist (dropLast_sublist ids)) h.dropLast_lt
  rw [length_dropLast] at hdrop
  by_cases hall : ∀ x ∈ ids, x < q.num
  · exact .inl (length_le_of_nodup h.nodup hall)
  · push Not at hall
    obtain ⟨x, hx, hge⟩ := hall
    by_cases hle : ids.length ≤ q.num.toNat
    · exact .inl hle
    · exact .inr ⟨by omega, h.getLast_of_ge hx hge⟩

/-! ## What is collected -/

variable (q m)

/-- the bytes of the first buffers that fit, of at most `n` descriptors, after `used` bytes -/
def fitting : Nat → BitVec 16 → Nat → NetFrame
  | 0, _, _ => []
  | n + 1, id, used =>
    match q.descAt m id with
    | none => []
    | some d =>
      if used + (readable m d).length > virtioNetMaxFrameLen then []
      else readable m d ++
        (if d.flags &&& virtqDescFNext = 0 then [] else fitting n d.next (used + (readable m d).length))

variable {q m}

theorem readable_length (d : VirtqDesc) :
    (readable m d).length = if d.flags &&& virtqDescFWrite = 0 then d.len.toNat else 0 := by
  unfold readable
  split_ifs
  · simp [bytesAt]
  · rfl

theorem descAt_of_ok {m' : GuestMemory} (h : q.readDescLocked id m = (.ok d, m')) :
    m' = m ∧ q.descAt m id = some d := by
  have hmem := q.readDescLocked_mem m id
  rw [h] at hmem
  exact ⟨hmem, by rw [descAt, h]; rfl⟩

theorem readChain_ok {out p : NetFrame} {m' : GuestMemory} (hout : out.length ≤ virtioNetMaxFrameLen)
    (h : q.readChain false n id out m = (.ok p, m')) : m' = m ∧ p = out ++ fitting q m n id out.length := by
  induction n generalizing id out with
  | zero =>
    cases h
    exact ⟨rfl, (append_nil _).symm⟩
  | succ n ih =>
    unfold readChain at h
    rcases hr : q.readDescLocked id m with ⟨e | d, m₁⟩
    · rw [bind_of_error hr] at h
      cases h
    · obtain ⟨rfl, hd⟩ := descAt_of_ok hr
      rw [bind_of_ok hr] at h
      unfold fitting
      rw [hd]
      dsimp only
      by_cases hread : d.flags &&& virtqDescFWrite = 0 ∧ d.len ≠ 0
      · have hbuf : readable m₁ d = m₁.bytesAt d.addr d.len.toNat := if_pos hread.1
        have hlength : (readable m₁ d).length = d.len.toNat := by rw [readable_length, if_pos hread.1]
        rw [if_neg (by simp), if_pos ⟨rfl, hread⟩] at h
        rw [hlength]
        by_cases hlimit : out.length + d.len.toNat > virtioNetMaxFrameLen
        · rw [if_pos hlimit] at h ⊢
          cases h
          exact ⟨rfl, (append_nil _).symm⟩
        · rw [if_neg hlimit] at h ⊢
          rcases hb : readBytes d.addr d.len.toNat m₁ with ⟨e | buf, m₂⟩
          · rw [bind_of_error hb] at h
            cases h
          · obtain ⟨rfl, rfl⟩ := readBytes_ok hb
            rw [bind_of_ok hb, ← hbuf] at h
            split_ifs at h ⊢ with hend
            · cases h
              exact ⟨rfl, by rw [append_nil]⟩
            · have hih := ih (by rw [length_append, hlength]; omega) h
              rw [length_append, hlength, append_assoc] at hih
              exact hih
      · have hnone : readable m₁ d = [] := by
          unfold readable
          split_ifs with hw
          · have hlen : d.len = 0 := by
              by_contra hne
              exact hread ⟨hw, hne⟩
            rw [hlen]
            rfl
          · rfl
        rw [if_neg (by simp), if_neg fun hc => hread hc.2] at h
        rw [hnone, length_nil, Nat.add_zero, nil_append, if_neg (by omega)]
        split_ifs at h ⊢ with hend
        · cases h
          exact ⟨rfl, by rw [append_nil]⟩
        · exact ih hout h

theorem readDescriptorChainLocked_ok {head : BitVec 16} {p : NetFrame} {m' : GuestMemory}
    (h : q.readDescriptorChainLocked head false m = (.ok p, m')) : m' = m ∧ p = fitting q m q.num.toNat head 0 :=
  readChain_ok (Nat.zero_le _) h

theorem Chain.fitting_of_le {used : Nat} (h : Chain q m id ids bufs)
    (hn : ids.length ≤ n ∨ (ids.length = n + 1 ∧ bufs.getLast? = some []))
    (hlen : used + bufs.flatten.length ≤ virtioNetMaxFrameLen) : fitting q m n id used = bufs.flatten := by
  induction h generalizing n used with
  | @last id d hd hend =>
    cases n with
    | zero =>
      obtain hn | ⟨-, hlast⟩ := hn
      · exact absurd hn (by simp)
      · rw [getLast?_singleton, some.injEq] at hlast
        rw [hlast]
        rfl
    | succ n =>
      rw [flatten_cons, flatten_nil, append_nil] at hlen ⊢
      unfold fitting
      rw [hd]
      dsimp only
      rw [if_neg (by omega), if_pos hend, append_nil]
  | @next id d ids bufs hd hnext hrest ih =>
    have hpos := length_pos_of_ne_nil hrest.ne_nil.1
    rw [length_cons, getLast?_cons_of_ne_nil hrest.ne_nil.2] at hn
    obtain ⟨n, rfl⟩ : ∃ k, n = k + 1 := ⟨n - 1, by omega⟩
    rw [flatten_cons, length_append] at hlen
    have hrest' : fitting q m n d.next (used + (readable m d).length) = bufs.flatten :=
      ih (hn.imp (by omega) fun h => ⟨by omega, h.2⟩) (by omega)
    unfold fitting
    rw [hd]
    dsimp only
    rw [if_neg (by omega), if_neg hnext, hrest', flatten_cons]

end VirtioNetQueue

end RiscvEmu
