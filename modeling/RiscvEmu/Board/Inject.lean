/-
Receiving over a whole run.

Between two resets frames are injected, the guest stores to the registers and to its memory, and the device pumps
frames into the receive queue. After each pump the guest reads the new elements of the used ring (`news`). They should
be the first of the injected frames, each behind its header, and a pump should leave the buffers that it does not
return as they were (`Kept`).

• `received_in_order`: this holds if all pumps find (`Sound`) rings, table and buffers apart and in memory, and no
  available chain that is too short for its frame or has a buffer past the first that cannot be written.
• `short_chain_overwritten`: a chain that is too short is filled as far as it goes, and not returned.
-/
import RiscvEmu.Board.Receive

namespace RiscvEmu

variable {off value p : BitVec 64}

/-- what happens to the device: a frame comes in, the guest stores to a register, or to its memory -/
inductive RxEvent where
  | inject (frame : NetFrame)
  | store (off value : BitVec 64)
  | guest (bytes : Bytes)

namespace RxEvent

/-- `InjectGuestFrame` takes the frame -/
def accepted (frame : NetFrame) : Prop := ¬ (frame.length = 0 ∨ frame.length > virtioNetMaxFrameLen)

instance (frame : NetFrame) : Decidable (accepted frame) := inferInstanceAs (Decidable (¬ _))

/-- the device pumps frames into the receive queue -/
def Pumps : RxEvent → Prop
  | .inject frame => accepted frame
  | .store off value => off = 0x050 ∧ value.setWidth 16 = virtioNetQueueRX
  | .guest _ => False

instance (e : RxEvent) : Decidable e.Pumps :=
  match e with
  | .inject frame => inferInstanceAs (Decidable (accepted frame))
  | .store off value => inferInstanceAs (Decidable (off = 0x050 ∧ value.setWidth 16 = virtioNetQueueRX))
  | .guest _ => inferInstanceAs (Decidable False)

def IsReset : RxEvent → Prop
  | .store off value => off = 0x070 ∧ value = 0
  | _ => False

end RxEvent

namespace VirtioNetQueue

variable (q : VirtioNetQueue)

/-- the elements that are new in the used ring, as the guest finds them -/
def news (m m' : GuestMemory) : List (BitVec 32 × NetFrame) :=
  (List.range (q.usedIdx m' - q.usedIdx m).toNat).map fun j => q.found m' ((q.usedIdx m).toNat + j)

/-- the available chains that are not returned have kept the bytes of their buffers -/
def KeptBuffers (m m' : GuestMemory) : Prop :=
  ∀ j < (q.availIdx m - q.lastAvail).toNat, ∀ head, q.headAt m (q.lastAvail.toNat + j) = some head →
    (∀ t < (q.usedIdx m' - q.usedIdx m).toNat, q.usedId m' ((q.usedIdx m).toNat + t) ≠ head.setWidth 32) →
    ∀ p ∈ q.bufferSpan m q.num.toNat head, m'.bytes p = m.bytes p

/-- the condition on a pump of some frames -/
def PumpSound (m : GuestMemory) (frames : List NetFrame) : Prop :=
  q.ready = true → q.num ≠ 0 → frames ≠ [] →
    q.Layout m q.lastAvail.toNat (q.availIdx m - q.lastAvail).toNat ∧
      q.AllTake m q.lastAvail.toNat (q.availIdx m - q.lastAvail).toNat frames

end VirtioNetQueue

/-- the device in its memory, the frames it took, and what the guest has found -/
structure RxTrace where
  dev : VirtioNet
  mem : GuestMemory
  injected : List NetFrame
  found : List (BitVec 32 × NetFrame)

namespace RxTrace

variable (s : RxTrace)

/-- after a reset -/
def start (d : VirtioNet) (m : GuestMemory) : RxTrace := { dev := d.resetLocked, mem := m, injected := [], found := [] }

def step : RxEvent → RxTrace
  | .inject frame =>
    let r := s.dev.injectGuestFrame frame s.mem
    { dev := r.2.1, mem := r.2.2, injected := s.injected ++ if RxEvent.accepted frame then [frame] else []
      found := s.found ++ if (RxEvent.inject frame).Pumps then (s.dev.queues 0).news s.mem r.2.2 else [] }
  | .store off value =>
    let r := s.dev.store off value s.mem
    { dev := r.2.1, mem := r.2.2, injected := s.injected
      found := s.found ++ if (RxEvent.store off value).Pumps then (s.dev.queues 0).news s.mem r.2.2 else [] }
  | .guest bytes => { s with mem := { s.mem with bytes := bytes } }

def run (events : List RxEvent) : RxTrace := events.foldl step s

/-- the condition on an event -/
def Sound : RxEvent → Prop
  | .inject frame => RxEvent.accepted frame → (s.dev.queues 0).PumpSound s.mem (s.dev.pendingRX ++ [frame])
  | .store off value => (RxEvent.store off value).Pumps → (s.dev.queues 0).PumpSound s.mem s.dev.pendingRX
  | .guest _ => True

/-- a pump leaves the buffers that it does not return as they were -/
def Kept (e : RxEvent) : Prop := e.Pumps → (s.dev.queues 0).KeptBuffers s.mem (s.step e).mem

/-- `P` holds of every event of a run, in the state in which it happens -/
def Along (P : RxTrace → RxEvent → Prop) : RxTrace → List RxEvent → Prop
  | _, [] => True
  | s, e :: events => P s e ∧ Along P (s.step e) events

/-- the frames that were found are the first of those that were taken, and the rest is queued -/
structure Inv : Prop where
  queue : ∃ delivered, s.injected = delivered ++ s.dev.pendingRX ∧ s.found = delivered.map VirtioNetQueue.expected
  short : ∀ f ∈ s.dev.pendingRX, f.length ≤ virtioNetMaxFrameLen

end RxTrace

/-! ## A pump -/

namespace RxLoop

open VirtioNetQueue

variable {q : VirtioNetQueue} {m : GuestMemory} {i u k n : Nat} {frames : List NetFrame} {r : List NetFrame × RxLoop}

theorem Pumped.news_eq (h : Pumped q m i (q.usedIdx m).toNat k frames r) (hk : k < 2 ^ 16) :
    q.news m r.2.mem = (frames.take k).map expected := by
  have hcount : (q.usedIdx r.2.mem - q.usedIdx m).toNat = k := by
    rw [h.idx]
    generalize q.usedIdx m = v
    bv_omega
  have hlen := h.le
  unfold news
  rw [hcount]
  refine List.ext_getElem (by simp [hlen]) fun j hj hj' => ?_
  rw [List.length_map, List.length_range] at hj
  simp only [List.getElem_map, List.getElem_range, List.getElem_take]
  exact h.found j hj _ (List.getElem?_eq_getElem (by omega))

theorem Pumped.kept (h : Pumped q m q.lastAvail.toNat (q.usedIdx m).toNat k frames r)
    (hlayout : q.Layout m q.lastAvail.toNat (q.availIdx m - q.lastAvail).toNat)
    (hk : k ≤ (q.availIdx m - q.lastAvail).toNat) : q.KeptBuffers m r.2.mem := by
  intro j hj head hhead hnot p hp
  have hle : k ≤ j := by
    by_contra hlt
    have hcount : (q.usedIdx r.2.mem - q.usedIdx m).toNat = k := by
      rw [h.idx]
      generalize q.usedIdx m = v
      bv_omega
    exact hnot j (by omega) (h.id j (by omega) head hhead)
  refine h.changes.bytes p ?_
  have hown := hlayout.buffers j hj head hhead
  rintro (hidx | ⟨j', hj', hslot | ⟨head', hhead', hbuf⟩⟩)
  · exact Set.disjoint_left.mp hown hp (.inl (.inl hidx))
  · exact Set.disjoint_left.mp hown hp (.inl (.inr ⟨_, hslot⟩))
  · have hapart := hlayout.apart j hj j' (by omega) (by omega) head head' hhead hhead'
    exact Set.disjoint_left.mp hapart hp hbuf

end RxLoop

namespace VirtioNet

variable {d : VirtioNet} {m : GuestMemory}

theorem news_self (q : VirtioNetQueue) (m : GuestMemory) : q.news m m = [] := by
  unfold VirtioNetQueue.news
  rw [BitVec.sub_self]
  rfl

theorem kept_self (q : VirtioNetQueue) (m : GuestMemory) : q.KeptBuffers m m := fun _ _ _ _ _ _ _ => rfl

theorem ite_pendingRX {c : Prop} [Decidable c] {a b : VirtioNet} {frames : List NetFrame}
    (ha : c → a.pendingRX = frames)
    (hb : b.pendingRX = frames) : (if c then a else b).pendingRX = frames := by
  split_ifs with hc
  · exact ha hc
  · exact hb

theorem run_spec {q : VirtioNetQueue} {frames : List NetFrame} (hready : q.ready = true) (hnum : q.num ≠ 0)
    (hsound : q.PumpSound m frames) (hshort : ∀ f ∈ frames, f.length ≤ virtioNetMaxFrameLen) :
    ∃ k, (RxLoop.run q frames ⟨m, q.lastAvail, false⟩).1 = frames.drop k ∧
      q.news m (RxLoop.run q frames ⟨m, q.lastAvail, false⟩).2.mem = (frames.take k).map VirtioNetQueue.expected ∧
      q.KeptBuffers m (RxLoop.run q frames ⟨m, q.lastAvail, false⟩).2.mem := by
  by_cases hnil : frames = []
  · subst hnil
    exact ⟨0, rfl, news_self q m, kept_self q m⟩
  · by_cases havail : m.bulkCheck (q.avail + 2) 2 .load = none
    · obtain ⟨hlayout, htake⟩ := hsound hready hnum hnil
      obtain ⟨k, hk, hpumped⟩ := RxLoop.run_pumped (u := (q.usedIdx m).toNat) hlayout htake havail
        (by rw [BitVec.ofNat_toNat, BitVec.setWidth_eq]) (by rw [BitVec.ofNat_toNat, BitVec.setWidth_eq]) hshort false
      rw [BitVec.ofNat_toNat, BitVec.setWidth_eq] at hpumped
      have hsmall := (q.availIdx m - q.lastAvail).isLt
      exact ⟨k, hpumped.left, hpumped.news_eq (by omega), hpumped.kept hlayout hk⟩
    · rw [RxLoop.run_of_no_avail havail]
      exact ⟨0, rfl, news_self q m, kept_self q m⟩

theorem pumpRXLocked_spec (hsound : (d.queues 0).PumpSound m d.pendingRX)
    (hshort : ∀ f ∈ d.pendingRX, f.length ≤ virtioNetMaxFrameLen) :
    ∃ k, (d.pumpRXLocked m).2.1.pendingRX = d.pendingRX.drop k ∧
      (d.queues 0).news m (d.pumpRXLocked m).2.2 = (d.pendingRX.take k).map VirtioNetQueue.expected ∧
      (d.queues 0).KeptBuffers m (d.pumpRXLocked m).2.2 := by
  by_cases hidle : !(d.queues 0).ready ∨ (d.queues 0).num = 0
  · have hpump : d.pumpRXLocked m = (false, d, m) := if_pos hidle
    rw [hpump]
    exact ⟨0, rfl, news_self _ m, kept_self _ m⟩
  · rw [not_or] at hidle
    obtain ⟨k, hleft, hnews, hkept⟩ := run_spec (by simpa using hidle.1) hidle.2 hsound hshort
    have hpump : (d.pumpRXLocked m).2.2 =
        (RxLoop.run (d.queues 0) d.pendingRX ⟨m, (d.queues 0).lastAvail, false⟩).2.mem ∧
        (d.pumpRXLocked m).2.1.pendingRX =
          (RxLoop.run (d.queues 0) d.pendingRX ⟨m, (d.queues 0).lastAvail, false⟩).1 := by
      unfold pumpRXLocked
      dsimp only
      rw [if_neg (not_or.mpr hidle)]
      refine ⟨rfl, ?_⟩
      dsimp only
      split_ifs <;> rfl
    rw [hpump.1, hpump.2]
    exact ⟨k, hleft, hnews, hkept⟩

/-! ## The other stores keep the queued frames -/

theorem setSelected_pendingRX (f : VirtioNetQueue → VirtioNetQueue) : (d.setSelected f).pendingRX = d.pendingRX := by
  unfold setSelected
  split_ifs <;> rfl

theorem storeRegister_pendingRX (h : ¬ (off = 0x070 ∧ value = 0)) :
    (d.storeRegister off value).pendingRX = d.pendingRX := by
  have hsel : ∀ f, (d.setSelected f).pendingRX = d.pendingRX := setSelected_pendingRX
  have hstatus : off = 0x070 → (if value = 0 then { d with status := value.setWidth 32 }.resetLocked
      else { d with status := value.setWidth 32 }).pendingRX = d.pendingRX :=
    fun hoff => ite_pendingRX (fun hzero => absurd ⟨hoff, hzero⟩ h) rfl
  refine ite_pendingRX (fun _ => rfl) <| ite_pendingRX (fun _ => rfl) <| ite_pendingRX (fun _ => rfl) <|
    ite_pendingRX (fun _ => rfl) <| ite_pendingRX (fun _ => hsel _) <| ite_pendingRX (fun _ => hsel _) <|
    ite_pendingRX (fun _ => hsel _) <| ite_pendingRX (fun _ => hsel _) <| ite_pendingRX (fun _ => hsel _) <|
    ite_pendingRX (fun _ => hsel _) <| ite_pendingRX (fun _ => hsel _) <| ite_pendingRX (fun _ => hsel _) <|
    ite_pendingRX (fun _ => rfl) <| ite_pendingRX hstatus rfl

theorem drainTXLocked_pendingRX (m : GuestMemory) : (d.drainTXLocked m).2.1.pendingRX = d.pendingRX := by
  unfold drainTXLocked
  dsimp only
  split_ifs
  · rfl
  · rcases readGuestU16 ((d.queues 1).avail + 2) m with ⟨e | availIdx, m₁⟩
    · rfl
    · dsimp only
      rcases TxLoop.run (d.queues 1) availIdx (2 ^ 16) ⟨m₁, (d.queues 1).lastAvail, []⟩ with ⟨e | _, s⟩
      · rfl
      · dsimp only
        split_ifs <;> rfl

theorem store_pendingRX (hreset : ¬ (RxEvent.store off value).IsReset)
    (hpump : ¬ (RxEvent.store off value).Pumps) : (d.store off value m).2.1.pendingRX = d.pendingRX := by
  unfold store
  split_ifs with hoff
  · unfold notifyQueueLocked
    split_ifs with htx hrx
    · exact drainTXLocked_pendingRX m
    · exact absurd ⟨hoff, hrx⟩ hpump
    · rfl
  · exact storeRegister_pendingRX hreset

theorem store_of_pumps (h : (RxEvent.store off value).Pumps) :
    (d.store off value m).2 = (d.pumpRXLocked m).2 := by
  obtain ⟨rfl, hvalue⟩ := h
  unfold store notifyQueueLocked
  rw [if_pos rfl, hvalue, if_neg (by decide), if_pos rfl]

end VirtioNet

/-! ## The run -/

namespace RxTrace

variable {s : RxTrace}

theorem start_inv (d : VirtioNet) (m : GuestMemory) : (start d m).Inv :=
  ⟨⟨[], rfl, rfl⟩, fun _ hf => absurd hf List.not_mem_nil⟩

theorem Inv.of_pump {t : RxTrace} {pending delivered : List NetFrame} {k : Nat}
    (hinjected : t.injected = delivered ++ pending) (hleft : t.dev.pendingRX = pending.drop k)
    (hfound : t.found = delivered.map VirtioNetQueue.expected ++ (pending.take k).map VirtioNetQueue.expected)
    (hshort : ∀ f ∈ pending, f.length ≤ virtioNetMaxFrameLen) : t.Inv := by
  refine ⟨⟨delivered ++ pending.take k, ?_, ?_⟩, ?_⟩
  · rw [hinjected, hleft, List.append_assoc, List.take_append_drop]
  · rw [hfound, List.map_append]
  · intro f hf
    rw [hleft] at hf
    exact hshort f (List.mem_of_mem_drop hf)

theorem step_inv {e : RxEvent} (hinv : s.Inv) (hreset : ¬ e.IsReset) (hsound : s.Sound e) :
    (s.step e).Inv ∧ s.Kept e := by
  obtain ⟨⟨delivered, hinjected, hfound⟩, hshort⟩ := hinv
  cases e with
  | guest bytes => exact ⟨⟨⟨delivered, hinjected, hfound⟩, hshort⟩, fun h => h.elim⟩
  | inject frame =>
    by_cases hacc : RxEvent.accepted frame
    · have hlen : frame.length ≤ virtioNetMaxFrameLen := Nat.not_lt.mp fun hlt => hacc (.inr hlt)
      have hshort' : ∀ f ∈ s.dev.pendingRX ++ [frame], f.length ≤ virtioNetMaxFrameLen := by
        intro f hf
        obtain hf | hf := List.mem_append.mp hf
        · exact hshort f hf
        · rw [List.mem_singleton.mp hf]
          exact hlen
      have hpump : s.dev.injectGuestFrame frame s.mem =
          ({ s.dev with pendingRX := s.dev.pendingRX ++ [frame] }).pumpRXLocked s.mem :=
        if_neg hacc
      obtain ⟨k, hleft, hnews, hkept⟩ := VirtioNet.pumpRXLocked_spec
        (d := { s.dev with pendingRX := s.dev.pendingRX ++ [frame] }) (hsound hacc) hshort'
      rw [← hpump] at hleft hnews hkept
      have htaken :
          s.injected ++ (if RxEvent.accepted frame then [frame] else []) =
          delivered ++ (s.dev.pendingRX ++ [frame]) := by
        rw [if_pos hacc, hinjected, List.append_assoc]
      refine ⟨Inv.of_pump htaken hleft ?_ hshort', fun _ => hkept⟩
      · show s.found ++ (if RxEvent.accepted frame then _ else []) = _
        rw [if_pos hacc, hfound]
        exact congrArg _ hnews
    · have hsame : s.dev.injectGuestFrame frame s.mem = (false, s.dev, s.mem) := if_pos (not_not.mp hacc)
      have hstep : s.step (.inject frame) = s := by
        unfold step
        simp only [hsame, RxEvent.Pumps, if_neg hacc, List.append_nil]
      rw [hstep]
      exact ⟨⟨⟨delivered, hinjected, hfound⟩, hshort⟩, fun h => absurd h hacc⟩
  | store off value =>
    by_cases hpumps : (RxEvent.store off value).Pumps
    · have hpump := VirtioNet.store_of_pumps (d := s.dev) (m := s.mem) hpumps
      obtain ⟨k, hleft, hnews, hkept⟩ := VirtioNet.pumpRXLocked_spec (hsound hpumps) hshort
      rw [← hpump] at hleft hnews hkept
      refine ⟨Inv.of_pump hinjected hleft ?_ hshort, fun _ => hkept⟩
      show s.found ++ (if (RxEvent.store off value).Pumps then _ else []) = _
      rw [if_pos hpumps, hfound]
      exact congrArg _ hnews
    · have hsame := VirtioNet.store_pendingRX (d := s.dev) (m := s.mem) hreset hpumps
      refine ⟨⟨⟨delivered, ?_, ?_⟩, ?_⟩, fun h => absurd h hpumps⟩
      · exact hinjected.trans (congrArg _ hsame.symm)
      · show s.found ++ (if (RxEvent.store off value).Pumps then _ else []) = _
        rw [if_neg hpumps, List.append_nil, hfound]
      · intro f hf
        exact hshort f (hsame ▸ hf)

theorem run_inv {events : List RxEvent} (hinv : s.Inv) (hreset : ∀ e ∈ events, ¬ e.IsReset)
    (hsound : Along Sound s events) :
    (s.run events).Inv ∧ Along Kept s events := by
  induction events generalizing s with
  | nil => exact ⟨hinv, trivial⟩
  | cons e events ih =>
    obtain ⟨hnext, hkept⟩ := step_inv hinv (hreset e List.mem_cons_self) hsound.1
    obtain ⟨hlast, hrest⟩ := ih hnext (fun e he => hreset e (List.mem_cons_of_mem _ he)) hsound.2
    exact ⟨hlast, hkept, hrest⟩

/-- **Frames are received in order.** Between two resets, if every pump meets its condition, the guest has found the
first of the frames that were taken, each once and behind its header, and no pump has touched a buffer that it did not
return. -/
theorem received_in_order (d : VirtioNet) (m : GuestMemory) (events : List RxEvent) (hreset : ∀ e ∈ events, ¬ e.IsReset)
    (hsound : Along Sound (start d m) events) :
    ((start d m).run events).found <+: ((start d m).run events).injected.map VirtioNetQueue.expected ∧
      Along Kept (start d m) events := by
  obtain ⟨⟨⟨delivered, hinjected, hfound⟩, -⟩, hkept⟩ := run_inv (start_inv d m) hreset hsound
  refine ⟨?_, hkept⟩
  rw [hinjected, hfound, List.map_append]
  exact List.prefix_append _ _

/-! ## A receive queue with two buffers -/

/-- two descriptors at 0x1000, the rings at 0x2000 and 0x3000, and `count` entries whose only buffers are the `len`
bytes at 0x4000 and those at 0x5000 -/
def setUp (len count : BitVec 8) : List RxEvent :=
  [.store 0x038 2, .store 0x080 0x1000, .store 0x090 0x2000, .store 0x0a0 0x3000, .store 0x044 1,
    .guest (Bytes.writeList (Bytes.writeList (Bytes.writeList (fun _ => 0) 0x1000
      [0, 0x40, 0, 0, 0, 0, 0, 0, len, 0, 0, 0, 2, 0, 0, 0, 0, 0x50, 0, 0, 0, 0, 0, 0, len, 0, 0, 0, 2, 0, 0, 0])
      0x2002 [count, 0, 0, 0, 1]) 0x4000 [0xff])]

def freshDevice : RxTrace :=
  start (VirtioNet.newVirtioNetDevice (Vector.replicate 6 0)) (GuestMemory.newGuestMemoryWithModel 20 .linear true)

/-- two frames come in before the queue is set up, and wait -/
def twoFrames : List RxEvent := [.inject [0xaa], .inject [0xbb]] ++ setUp 64 2

theorem setUp_no_reset {len count : BitVec 8} {e : RxEvent} (he : e ∈ setUp len count) : ¬ e.IsReset := by
  simp only [setUp, List.mem_cons, List.not_mem_nil, or_false] at he
  rcases he with rfl | rfl | rfl | rfl | rfl | rfl <;> simp [RxEvent.IsReset]

def waiting : RxTrace := freshDevice.run twoFrames

theorem waiting_queue : waiting.dev.queues 0 =
    { num := 2, numMax := 256, ready := true, desc := 0x1000, avail := 0x2000, used := 0x3000, lastAvail := 0 } := rfl

theorem waiting_hostPtr (a : BitVec 64) : waiting.mem.hostPtr a = a := if_neg (by decide)

theorem waiting_span {a : BitVec 64} {n : Nat} (hp : p ∈ waiting.mem.span a n)
    (hfit : a.toNat + n ≤ 2 ^ 64) : a.toNat ≤ p.toNat ∧ p.toNat < a.toNat + n := by
  have hlt : (p - waiting.mem.hostPtr a).toNat < n := hp
  rw [waiting_hostPtr] at hlt
  constructor
  · bv_omega
  · bv_omega

theorem waiting_slots (u : Nat) :
    ((waiting.dev.queues 0).availSlot u = 0x2004 ∨ (waiting.dev.queues 0).availSlot u = 0x2006) ∧
      ((waiting.dev.queues 0).usedSlot u = 0x3004 ∨ (waiting.dev.queues 0).usedSlot u = 0x300c) := by
  rw [waiting_queue]
  unfold VirtioNetQueue.availSlot VirtioNetQueue.usedSlot
  have htwo : BitVec.toNat (2 : BitVec 16) = 2 := rfl
  dsimp only
  rw [htwo]
  obtain h | h := Nat.mod_two_eq_zero_or_one u
  · rw [h]
    exact ⟨.inl rfl, .inl rfl⟩
  · rw [h]
    exact ⟨.inr rfl, .inr rfl⟩

theorem waiting_used (hp : p ∈ (waiting.dev.queues 0).usedSpan waiting.mem) :
    0x3002 ≤ p.toNat ∧ p.toNat < 0x3014 := by
  obtain hp | ⟨u, hp⟩ := hp
  · have hb := waiting_span hp (by decide)
    exact ⟨hb.1, Nat.lt_trans hb.2 (by decide)⟩
  · obtain h | h := (waiting_slots u).2
    · rw [h] at hp
      have hb := waiting_span hp (by decide)
      exact ⟨Nat.le_trans (by decide) hb.1, Nat.lt_trans hb.2 (by decide)⟩
    · rw [h] at hp
      have hb := waiting_span hp (by decide)
      exact ⟨Nat.le_trans (by decide) hb.1, hb.2⟩

theorem waiting_read (hp : p ∈ (waiting.dev.queues 0).availSpan waiting.mem ∪
    (waiting.dev.queues 0).tableSpan waiting.mem) : p.toNat < 0x2008 := by
  obtain (hp | ⟨u, hp⟩) | ⟨id, hid, hp⟩ := hp
  · exact Nat.lt_trans (waiting_span hp (by decide)).2 (by decide)
  · obtain h | h := (waiting_slots u).1
    · rw [h] at hp
      exact Nat.lt_trans (waiting_span hp (by decide)).2 (by decide)
    · rw [h] at hp
      exact (waiting_span hp (by decide)).2
  · rw [waiting_queue] at hid hp
    obtain rfl | rfl : id = 0 ∨ id = 1 := by bv_omega
    · exact Nat.lt_trans (waiting_span hp (by decide)).2 (by decide)
    · exact Nat.lt_trans (waiting_span hp (by decide)).2 (by decide)

theorem waiting_desc :
    (waiting.dev.queues 0).descAt waiting.mem 0 = some { addr := 0x4000, len := 64, flags := 2, next := 0 } ∧
    (waiting.dev.queues 0).descAt waiting.mem 1 = some { addr := 0x5000, len := 64, flags := 2, next := 0 } := by
  decide +kernel

theorem waiting_buffer {head : BitVec 16} (hhead : head = 0 ∨ head = 1)
    (hp : p ∈ (waiting.dev.queues 0).bufferSpan waiting.mem 2 head) :
    0x4000 + 0x1000 * head.toNat ≤ p.toNat ∧ p.toNat < 0x4040 + 0x1000 * head.toNat := by
  obtain rfl | rfl := hhead
  · rw [VirtioNetQueue.bufferSpan, waiting_desc.1] at hp
    obtain hp | hp := hp
    · exact waiting_span hp (by decide)
    · exact hp.elim
  · rw [VirtioNetQueue.bufferSpan, waiting_desc.2] at hp
    obtain hp | hp := hp
    · exact waiting_span hp (by decide)
    · exact hp.elim

theorem waiting_head {j : Nat} (hj : j < 2) {head : BitVec 16}
    (h : (waiting.dev.queues 0).headAt waiting.mem ((waiting.dev.queues 0).lastAvail.toNat + j) = some head) :
    head = BitVec.ofNat 16 j ∧ (head = 0 ∨ head = 1) ∧ head.toNat = j := by
  have hheads : ∀ j < 2, (waiting.dev.queues 0).headAt waiting.mem ((waiting.dev.queues 0).lastAvail.toNat + j) =
      some (BitVec.ofNat 16 j) := by
    decide +kernel
  obtain rfl := Option.some.inj ((hheads j hj).symm.trans h)
  obtain rfl | rfl : j = 0 ∨ j = 1 := by omega
  · exact ⟨rfl, .inl rfl, rfl⟩
  · exact ⟨rfl, .inr rfl, rfl⟩

theorem waiting_sound : waiting.Sound (.store 0x050 0) := by
  intro _ _ _ _
  have hentries : ((waiting.dev.queues 0).availIdx waiting.mem - (waiting.dev.queues 0).lastAvail).toNat = 2 := by
    decide +kernel
  have hcheck : ∀ a n kind, (n = 0 ∨ (a ≤ a + n ∧ a + n ≤ 0x100000)) → waiting.mem.bulkCheck a n kind = none :=
    fun a n kind h => if_pos (decide_eq_true h)
  rw [hentries]
  refine ⟨⟨?_, ?_, ⟨?_, ?_, ?_⟩, ?_, ?_, ?_⟩, ?_⟩
  · exact ⟨2 ^ 15, rfl⟩
  · exact Nat.le_refl 2
  · exact hcheck _ _ _ (.inr (by decide))
  · exact hcheck _ _ _ (.inr (by decide))
  · intro u
    obtain h | h := (waiting_slots u).2
    · rw [h]
      exact ⟨hcheck _ _ _ (.inr (by decide)), hcheck _ _ _ (.inr (by decide))⟩
    · rw [h]
      exact ⟨hcheck _ _ _ (.inr (by decide)), hcheck _ _ _ (.inr (by decide))⟩
  · refine Set.disjoint_left.mpr fun p hp hp' => ?_
    have hused := waiting_used hp
    have hread := waiting_read hp'
    omega
  · intro j hj head hhead
    refine Set.disjoint_left.mpr fun p hp hp' => ?_
    have hbuffer := waiting_buffer (waiting_head hj hhead).2.1 hp
    obtain hp' | hp' := hp'
    · have hused := waiting_used hp'
      omega
    · have hread := waiting_read hp'
      omega
  · intro j hj k hk hne head head' hhead hhead'
    obtain ⟨-, hone, hj⟩ := waiting_head hj hhead
    obtain ⟨-, hone', hk⟩ := waiting_head hk hhead'
    refine Set.disjoint_left.mpr fun p hp hp' => ?_
    have hbuffer := waiting_buffer hone hp
    have hbuffer' := waiting_buffer hone' hp'
    omega
  · intro j hj head hhead frame hframe
    obtain ⟨rfl, -, -⟩ := waiting_head hj hhead
    obtain rfl | rfl : j = 0 ∨ j = 1 := by omega
    · obtain rfl : [0xaa#8] = frame := Option.some.inj hframe
      refine .inr ⟨[(0x4000, 13)], ?_, List.pairwise_singleton _ _⟩
      exact .last waiting_desc.1 (by decide) (by decide) (.inr (hcheck _ _ _ (.inr (by decide))))
    · obtain rfl : [0xbb#8] = frame := Option.some.inj hframe
      refine .inr ⟨[(0x5000, 13)], ?_, List.pairwise_singleton _ _⟩
      exact .last waiting_desc.2 (by decide) (by decide) (.inr (hcheck _ _ _ (.inr (by decide))))

/-- when the driver tells the device of the buffers, the two frames that wait are received in their order -/
theorem received_two :
    (freshDevice.run (twoFrames ++ [.store 0x050 0])).found =
      [(13, List.replicate 12 0 ++ [0xaa]), (13, List.replicate 12 0 ++ [0xbb])] ∧
    (freshDevice.run (twoFrames ++ [.store 0x050 0])).found <+:
      (freshDevice.run (twoFrames ++ [.store 0x050 0])).injected.map VirtioNetQueue.expected ∧
    Along Kept freshDevice (twoFrames ++ [.store 0x050 0]) := by
  have hreset : ∀ e ∈ twoFrames ++ [.store 0x050 0], ¬ e.IsReset := by
    intro e he
    simp only [twoFrames, List.mem_append, List.mem_cons, List.not_mem_nil, or_false] at he
    obtain ((rfl | rfl) | he) | rfl := he
    · simp [RxEvent.IsReset]
    · simp [RxEvent.IsReset]
    · exact setUp_no_reset he
    · simp [RxEvent.IsReset]
  have hstore : ∀ (s : RxTrace) off value, off ≠ 0x050 → s.Sound (.store off value) :=
      fun s off value h hp => absurd hp.1 h
  have hinject : ∀ (s : RxTrace) frame, (s.dev.queues 0).ready = false → s.Sound (.inject frame) :=
    fun s frame h _ hready => absurd hready (by rw [h]; decide)
  have hsound : Along Sound freshDevice (twoFrames ++ [.store 0x050 0]) :=
    ⟨hinject _ _ rfl, hinject _ _ rfl, hstore _ _ _ (by decide), hstore _ _ _ (by decide), hstore _ _ _ (by decide),
      hstore _ _ _ (by decide), hstore _ _ _ (by decide), trivial, waiting_sound, trivial⟩
  exact ⟨by decide +kernel, received_in_order _ _ _ hreset hsound⟩

/-- a chain that is too short for the frame is filled as far as it goes, and not returned -/
theorem short_chain_overwritten : (∀ e ∈ setUp 4 1 ++ [.inject [0xaa]], ¬ e.IsReset) ∧
    ¬ Along Kept freshDevice (setUp 4 1 ++ [.inject [0xaa]]) := by
  constructor
  · intro e he
    obtain he | he := List.mem_append.mp he
    · exact setUp_no_reset he
    · rw [List.mem_singleton.mp he]
      simp [RxEvent.IsReset]
  intro h
  have hkept : (freshDevice.run (setUp 4 1)).Kept (.inject [0xaa]) := h.2.2.2.2.2.2.1
  generalize hs : freshDevice.run (setUp 4 1) = s at hkept
  have hdesc : (s.dev.queues 0).descAt s.mem 0 = some { addr := 0x4000, len := 4, flags := 2, next := 0 } := by
    rw [← hs]
    decide +kernel
  have hbuffer : 0x4000#64 ∈ (s.dev.queues 0).bufferSpan s.mem 2 0 := by
    rw [VirtioNetQueue.bufferSpan, hdesc]
    refine .inl ?_
    rw [if_neg (by decide)]
    show (0x4000#64 - s.mem.hostPtr 0x4000).toNat < 4
    rw [← hs]
    decide +kernel
  subst hs
  have hsame := hkept (by decide) 0 (by decide +kernel) 0 (by decide +kernel) (by decide +kernel) 0x4000 hbuffer
  exact absurd hsame (by decide +kernel)

end RxTrace

end RiscvEmu
