/-
Pipes (`sysPipe2`, `sysPipeRead`, `sysPipeWrite` in `jea9linux.go`) are bounded lossless queues.

A run of a pipe (`PipeRun`) starts with the `pipe2` that makes it and goes on with `read` and `write` on its
descriptors, in any order, by any threads and with any buffers, and with anything else that leaves the buffer of the
pipe alone. What a call has moved stands in guest memory: after a `read`, the bytes at its buffer; before a `write`,
as many as the call accepts.

`pipe_fifo`: the pipe is a bounded queue. The capacity is that of a Go slice, so the slice is followed along
(`goBuffer`): it never loses its array.
-/
import RiscvEmu.Lib.Queue
import RiscvEmu.Linux.Queues
import RiscvEmu.Board.Transmit

namespace RiscvEmu.Linux

variable {α : Type} {errno addr pipefdAddr : BitVec 64} {m m' : GuestMemory} {src : List (BitVec 8)}

open GuestMemory Exec Function Call List

/-! ## Waking -/

namespace Sys

variable (env : Env) (s : Sys)

theorem wakeIfReady_pipes (tid : Tid) (ctx : Context) : (s.wakeIfReady env tid ctx).jos.pipes = s.jos.pipes := by
  have hwake : ∀ (j : Jea9Linux) retval, (j.markRunnable tid retval).pipes = j.pipes := fun j retval =>
    Jea9Linux.markRunnable_induct (P := fun j' => j'.pipes = j.pipes) tid retval rfl fun _ _ _ _ => rfl
  obtain ⟨e, he, -⟩ := epollCollectReady_onlyEpolls env ctx.waitFD ctx.waitEventAddr ctx.waitMaxEvents s
  have hcollect := congrArg Jea9Linux.pipes he
  unfold wakeIfReady
  generalize epollCollectReady env ctx.waitFD ctx.waitEventAddr ctx.waitMaxEvents s = r at hcollect ⊢
  rcases r with ⟨errno | n, s'⟩
  · exact (hwake s'.jos errno).trans hcollect
  · dsimp only
    split
    · exact (hwake s'.jos _).trans hcollect
    · exact hcollect

theorem wakeEpollWaitersForFD_pipes (fd : Fd) : (s.wakeEpollWaitersForFD env fd).jos.pipes = s.jos.pipes := by
  unfold wakeEpollWaitersForFD
  generalize env.order s.jos = tids
  induction tids generalizing s with
  | nil => rfl
  | cons tid rest ih =>
    refine (ih _).trans ?_
    dsimp only
    cases s.jos.epollWaiter tid with
    | none => rfl
    | some ctx =>
      dsimp only
      split
      · exact s.wakeIfReady_pipes env tid ctx
      · rfl

end Sys

/-! ## One call -/

theorem Call.mem_of_ok {x : Exec GuestMemory MemFault α} {s : Sys} {a : α}
    (h : x s.cpu.mem = (.ok a, m)) : mem errno x s = (.ok a, { s with cpu.mem := m }) := by
  unfold mem
  rw [h]

theorem Call.mem_of_error {x : Exec GuestMemory MemFault α} {s : Sys} {f : MemFault}
    (h : x s.cpu.mem = (.error f, m)) : mem errno x s = (.error errno, { s with cpu.mem := m }) := by
  unfold mem
  rw [h]

/-- nothing has moved: the pipe and guest memory are as they were -/
structure Unmoved (p : Nat) (s s' : Sys) : Prop where
  buf : (s'.jos.pipes p).buf = (s.jos.pipes p).buf
  mem : s'.cpu.mem = s.cpu.mem

/-- what a `read` from a pipe may come to -/
inductive Reads (p : Nat) (bufAddr : BitVec 64) (s : Sys) : Except (BitVec 64) (BitVec 64) × Sys → Prop
  | refused {errno : BitVec 64} {s' : Sys} (still : Unmoved p s s')
    (again : errno = errEAGAIN → (s.jos.pipes p).buf = []) :
    Reads p bufAddr s (.error errno, s')
  | took {count : Nat} {s' : Sys} (le : count ≤ (s.jos.pipes p).buf.length)
      (rest : (s'.jos.pipes p).buf = (s.jos.pipes p).buf.drop count)
    (bytes : s'.cpu.mem.bytesAt bufAddr count = (s.jos.pipes p).buf.take count) :
      Reads p bufAddr s (.ok (BitVec.ofNat 64 count), s')

/-- what a `write` to a pipe may come to -/
inductive Writes (p : Nat) (bufAddr : BitVec 64) (s : Sys) : Except (BitVec 64) (BitVec 64) × Sys → Prop
  | refused {errno : BitVec 64} {s' : Sys} (still : Unmoved p s s')
    (again : errno = errEAGAIN → pipeCapacity ≤ (s.jos.pipes p).buf.length) : Writes p bufAddr s (.error errno, s')
  | put {count : Nat} {s' : Sys} (room : count ≤ pipeCapacity - (s.jos.pipes p).buf.length)
    (rest : (s'.jos.pipes p).buf = (s.jos.pipes p).buf ++ s.cpu.mem.bytesAt bufAddr count) :
    Writes p bufAddr s (.ok (BitVec.ofNat 64 count), s')

theorem length_bytesAt (m : GuestMemory) (addr : BitVec 64) (n : Nat) : (m.bytesAt addr n).length = n := by
  simp [bytesAt]

theorem bytesAt_writeBytes (hlen : src.length < 2 ^ 64)
    (h : writeBytes addr src m = (.ok (), m')) : m'.bytesAt addr src.length = src := by
  have hm := GuestMemory.writeBytes_ok h
  apply ext_getElem
  · exact length_bytesAt m' addr src.length
  intro i hi hi'
  subst hm
  simp only [bytesAt, getElem_map, getElem_range]
  exact Bytes.writeList_apply m.bytes _ hi' hlen

theorem writeBytes_error {f : MemFault}
    (h : writeBytes addr src m = (.error f, m')) : m' = m := by
  unfold writeBytes at h
  by_cases hsrc : src = []
  · rw [if_pos hsrc] at h
    cases h
  rw [if_neg hsrc] at h
  cases hcheck : m.bulkCheck addr (BitVec.ofNat 64 src.length) .store with
  | none =>
    rw [hcheck] at h
    cases h
  | some f =>
    rw [hcheck] at h
    cases h
    rfl

theorem setPipeBuf_buf (p : Nat) (buf : List (BitVec 8)) (jos : Jea9Linux) :
    ((update jos.pipes p { jos.pipes p with buf := buf }) p).buf = buf := by
  rw [update_self]

section Calls

variable {env : Env} {sv : Services} {p : Nat} {fd : Fd} {f : FD} {bufAddr n : BitVec 64} {s : Sys}

theorem sysPipeRead_reads (hp : f.pipe = some p) (hsmall : (s.jos.pipes p).buf.length < 2 ^ 64) :
    Reads p bufAddr s (sysPipeRead fd f bufAddr n s) := by
  unfold sysPipeRead
  rw [hp]
  dsimp only
  rw [gets_bind_run]
  by_cases hempty : (s.jos.pipes p).buf.length = 0
  · unfold when
    rw [if_pos hempty]
    exact .refused ⟨rfl, rfl⟩ fun _ => length_eq_zero_iff.1 hempty
  · unfold when
    rw [if_neg hempty, pure_bind_run]
    generalize hcount : min n.toNat (s.jos.pipes p).buf.length = count
    have hle : count ≤ (s.jos.pipes p).buf.length := by omega
    have hlen : ((s.jos.pipes p).buf.take count).length = count := by
      rw [length_take]
      omega
    rcases hw : writeBytes bufAddr ((s.jos.pipes p).buf.take count) s.cpu.mem with ⟨flt | ⟨⟩, m⟩
    · rw [bind_of_error (mem_of_error hw)]
      exact .refused ⟨rfl, writeBytes_error hw⟩ fun h => absurd h (by decide)
    · have hbytes := bytesAt_writeBytes (by omega) hw
      rw [hlen] at hbytes
      rw [bind_of_ok (mem_of_ok hw)]
      unfold setPipeBuf
      rw [modify_bind_run]
      split
      · exact .took hle (setPipeBuf_buf p _ s.jos) hbytes
      · exact .took hle (setPipeBuf_buf p _ s.jos) hbytes

theorem sysPipeWrite_writes (hp : f.pipe = some p) : Writes p bufAddr s (sysPipeWrite env f bufAddr n s) := by
  unfold sysPipeWrite
  rw [hp]
  dsimp only
  rw [gets_bind_run]
  unfold failIf when
  by_cases hfull : pipeCapacity - (s.jos.pipes p).buf.length = 0
  · rw [if_pos hfull, fail_bind_run]
    exact .refused ⟨rfl, rfl⟩ fun _ => Nat.le_of_sub_eq_zero hfull
  · rw [if_neg hfull, pure_bind_run]
    generalize hcount : min n.toNat (pipeCapacity - (s.jos.pipes p).buf.length) = count
    rcases hr : readBytes bufAddr count s.cpu.mem with ⟨flt | data, m⟩
    · have hsame := readBytes_mem bufAddr count s.cpu.mem
      rw [hr] at hsame
      rw [bind_of_error (mem_of_error hr)]
      exact .refused ⟨rfl, hsame⟩ fun h => absurd h (by decide)
    · obtain ⟨hsame, hdata⟩ := readBytes_ok hr
      rw [bind_of_ok (mem_of_ok hr)]
      unfold setPipeBuf
      rw [modify_bind_run, modify_bind_run]
      refine .put (by omega) ?_
      rw [Sys.wakeEpollWaitersForFD_pipes, ← hdata]
      exact setPipeBuf_buf p _ s.jos

structure EndOf (p : Nat) (s : Sys) (fd : Fd) (f : FD) : Prop where
  entry : s.jos.fds fd = some f
  pipe : f.pipe = some p
  kind : f.kind = .pipeRead ∨ f.kind = .pipeWrite

theorem sysRead_reads (hend : EndOf p s fd f) (hsmall : (s.jos.pipes p).buf.length < 2 ^ 64) :
    Reads p bufAddr s (sysRead env sv fd bufAddr n s) := by
  unfold sysRead
  rw [hend.entry]
  dsimp only
  split_ifs with hzero hlarge
  · show Reads p bufAddr s (.ok (BitVec.ofNat 64 0), s)
    exact .took (Nat.zero_le _) rfl rfl
  · exact .refused ⟨rfl, rfl⟩ fun h => absurd h (by decide)
  · rcases hend.kind with hkind | hkind
    · rw [hkind]
      exact sysPipeRead_reads hend.pipe hsmall
    · rw [hkind]
      exact .refused ⟨rfl, rfl⟩ fun h => absurd h (by decide)

theorem sysWrite_writes (hend : EndOf p s fd f) : Writes p bufAddr s (sysWrite env sv fd bufAddr n s) := by
  unfold sysWrite
  rw [hend.entry]
  dsimp only
  split_ifs with hzero hlarge
  · show Writes p bufAddr s (.ok (BitVec.ofNat 64 0), s)
    exact .put (Nat.zero_le _) (append_nil _).symm
  · exact .refused ⟨rfl, rfl⟩ fun h => absurd h (by decide)
  · -- the whole buffer is read once before it is known where it goes
    have hsame := readBytes_mem bufAddr n.toNat s.cpu.mem
    rcases hr : readBytes bufAddr n.toNat s.cpu.mem with ⟨flt | data, m⟩
    · rw [hr] at hsame
      rw [bind_of_error (mem_of_error hr)]
      exact .refused ⟨rfl, hsame⟩ fun h => absurd h (by decide)
    · rw [hr] at hsame
      change m = s.cpu.mem at hsame
      subst hsame
      rw [bind_of_ok (mem_of_ok hr)]
      rcases hend.kind with hkind | hkind
      · rw [hkind]
        exact .refused ⟨rfl, rfl⟩ fun h => absurd h (by decide)
      · rw [hkind]
        exact sysPipeWrite_writes hend.pipe

end Calls

/-! ## Runs -/

/-- what a call on the pipe has moved -/
inductive PipeEvent where
  | took (bytes : List (BitVec 8))
  | put (bytes : List (BitVec 8))

/-- the bytes that a call moved between the pipe and its buffer in `m`: as many as it returned -/
def movedBytes (m : GuestMemory) (bufAddr : BitVec 64) : Except (BitVec 64) (BitVec 64) → List (BitVec 8)
  | .ok count => m.bytesAt bufAddr count.toNat
  | .error _ => []

/-- the runs of pipe `p`: what the calls on it have moved so far, and the state -/
inductive PipeRun (env : Env) (sv : Services) (p : Nat) : List PipeEvent → Sys → Prop
  | created {pipefdAddr flags v : BitVec 64} {s₀ s : Sys} (new : s₀.jos.nextPipe = p)
    (h : sysPipe2 pipefdAddr flags s₀ = (.ok v, s)) :
    PipeRun env sv p [] s
  | read {events : List PipeEvent} {s s' : Sys} {fd : Fd} {f : FD} {bufAddr n : BitVec 64}
      {r : Except (BitVec 64) (BitVec 64)}
    (before : PipeRun env sv p events s) (hend : EndOf p s fd f) (h : sysRead env sv fd bufAddr n s = (r, s')) :
    PipeRun env sv p (events ++ [.took (movedBytes s'.cpu.mem bufAddr r)]) s'
  | write {events : List PipeEvent} {s s' : Sys} {fd : Fd} {f : FD} {bufAddr n : BitVec 64}
      {r : Except (BitVec 64) (BitVec 64)}
    (before : PipeRun env sv p events s) (hend : EndOf p s fd f) (h : sysWrite env sv fd bufAddr n s = (r, s')) :
    PipeRun env sv p (events ++ [.put (movedBytes s.cpu.mem bufAddr r)]) s'
  | other {events : List PipeEvent} {s s' : Sys} (before : PipeRun env sv p events s)
    (h : (s'.jos.pipes p).buf = (s.jos.pipes p).buf) : PipeRun env sv p events s'

def returned (events : List PipeEvent) : List (BitVec 8) :=
  events.flatMap fun
    | .took bytes => bytes
    | .put _ => []

def accepted (events : List PipeEvent) : List (BitVec 8) :=
  events.flatMap fun
    | .took _ => []
    | .put bytes => bytes

/-- the Go slice `pipe.buf` after these calls; `room` is what `append` adds if it has to move the array -/
def goBuffer (room : Nat) (events : List PipeEvent) : Slice (BitVec 8) :=
  events.foldl (fun s event =>
    match event with
    | .took bytes => s.shift bytes.length
    | .put bytes => s.extend 0 room bytes) (Slice.empty 0 pipeCapacity)

variable (events : List PipeEvent) (bytes : List (BitVec 8))

@[simp] theorem returned_took :
    returned (events ++ [.took bytes]) = returned events ++ bytes := by simp [returned]

@[simp] theorem returned_put : returned (events ++ [.put bytes]) = returned events := by
  simp [returned]

@[simp] theorem accepted_took : accepted (events ++ [.took bytes]) = accepted events := by
  simp [accepted]

@[simp] theorem accepted_put :
    accepted (events ++ [.put bytes]) = accepted events ++ bytes := by simp [accepted]

@[simp] theorem goBuffer_took (room : Nat) (events : List PipeEvent) (bytes : List (BitVec 8)) :
    goBuffer room (events ++ [.took bytes]) = (goBuffer room events).shift bytes.length := by simp [goBuffer]

@[simp] theorem goBuffer_put (room : Nat) (events : List PipeEvent) (bytes : List (BitVec 8)) :
    goBuffer room (events ++ [.put bytes]) = (goBuffer room events).extend 0 room bytes := by simp [goBuffer]

/-- what holds between calls: the buffer is what has been accepted and not yet returned, and it is the Go slice -/
structure Queued (room : Nat) (events : List PipeEvent) (buf : List (BitVec 8)) : Prop where
  split : accepted events = returned events ++ buf
  bound : buf.length ≤ pipeCapacity
  slice : (goBuffer room events).elems = buf
  cap : (goBuffer room events).cap = pipeCapacity

namespace Queued

variable {room : Nat} {events : List PipeEvent} {buf : List (BitVec 8)}

theorem start (room : Nat) : Queued room [] [] := ⟨rfl, Nat.zero_le _, Slice.empty_elems 0 _, Slice.empty_cap 0 _⟩

theorem took (h : Queued room events buf) {count : Nat} (hle : count ≤ buf.length) :
    Queued room (events ++ [.took (buf.take count)]) (buf.drop count) := by
  have hlen : (buf.take count).length = count := by
    rw [length_take]
    omega
  refine ⟨?_, ?_, ?_, ?_⟩
  · rw [accepted_took, returned_took, h.split, append_assoc, take_append_drop]
  · have := h.bound
    rw [length_drop]
    omega
  · rw [goBuffer_took, hlen, Slice.shift_elems, h.slice]
  · rw [goBuffer_took, Slice.shift_cap, h.cap]

theorem put (h : Queued room events buf) {bytes : List (BitVec 8)} (hle : bytes.length ≤ pipeCapacity - buf.length) :
    Queued room (events ++ [.put bytes]) (buf ++ bytes) := by
  have hbound := h.bound
  refine ⟨?_, ?_, ?_, ?_⟩
  · rw [accepted_put, returned_put, h.split, append_assoc]
  · rw [length_append]
    omega
  · rw [goBuffer_put, Slice.extend_elems, h.slice]
  · have hlen : (goBuffer room events).len = buf.length := by rw [← h.slice, Slice.length_elems]
    rw [goBuffer_put, Slice.extend_cap _ _ _ (by rw [hlen, h.cap]; omega), h.cap]

variable {p : Nat} {bufAddr : BitVec 64} {s s' : Sys} {r : Except (BitVec 64) (BitVec 64)}

theorem reads (h : Queued room events (s.jos.pipes p).buf) (hr : Reads p bufAddr s (r, s')) :
    Queued room (events ++ [.took (movedBytes s'.cpu.mem bufAddr r)]) (s'.jos.pipes p).buf := by
  cases hr with
  | refused still again =>
    rw [still.buf]
    exact h.took (Nat.zero_le _)
  | @took count _ le rest bytes =>
    have hbound := h.bound
    have hcap : pipeCapacity = 65536 := rfl
    have hcount : (BitVec.ofNat 64 count).toNat = count := by
      rw [BitVec.toNat_ofNat]
      omega
    show Queued room (events ++ [.took (s'.cpu.mem.bytesAt bufAddr (BitVec.ofNat 64 count).toNat)]) _
    rw [hcount, bytes, rest]
    exact h.took le

theorem writes (h : Queued room events (s.jos.pipes p).buf) (hw : Writes p bufAddr s (r, s')) :
    Queued room (events ++ [.put (movedBytes s.cpu.mem bufAddr r)]) (s'.jos.pipes p).buf := by
  cases hw with
  | refused still again =>
    have hnone := h.put (show ([] : List (BitVec 8)).length ≤ _ from Nat.zero_le _)
    rw [append_nil] at hnone
    rw [still.buf]
    exact hnone
  | @put count _ le rest =>
    have hcap : pipeCapacity = 65536 := rfl
    have hcount : (BitVec.ofNat 64 count).toNat = count := by
      rw [BitVec.toNat_ofNat]
      omega
    show Queued room (events ++ [.put (s.cpu.mem.bytesAt bufAddr (BitVec.ofNat 64 count).toNat)]) _
    rw [hcount, rest]
    exact h.put (by rw [length_bytesAt]; exact le)

end Queued

theorem storePipeFDs_ok {readFD writeFD : Fd} {s s' : Sys}
    (h : storePipeFDs pipefdAddr readFD writeFD s = (.ok (), s')) : s'.jos = s.jos := by
  have hstores : ((mem errEFAULT (GuestMemory.store32 pipefdAddr (readFD.setWidth 32)) >>= fun _ =>
      mem errEFAULT (GuestMemory.store32 (pipefdAddr + 4) (writeFD.setWidth 32)) : Call Unit) s).2.jos = s.jos :=
    Call.Leaves.bind (.mem _ _) (fun _ => .mem _ _) s
  unfold storePipeFDs at h
  generalize (mem errEFAULT (GuestMemory.store32 pipefdAddr (readFD.setWidth 32)) >>= fun _ =>
    mem errEFAULT (GuestMemory.store32 (pipefdAddr + 4) (writeFD.setWidth 32)) : Call Unit) s = r at h hstores
  rcases r with ⟨errno | ⟨⟩, s₁⟩
  · cases h
  · cases h
    exact hstores

theorem sysPipe2_empty {flags v : BitVec 64} {s₀ s : Sys} (h : sysPipe2 pipefdAddr flags s₀ = (.ok v, s)) :
    (s.jos.pipes s₀.jos.nextPipe).buf = [] := by
  unfold sysPipe2 failIf when at h
  by_cases hflags : andNot flags (fdNonblock ||| fdCloexec) ≠ 0
  · rw [if_pos hflags, fail_bind_run] at h
    cases h
  rw [if_neg hflags, pure_bind_run, gets_bind_run, gets_bind_run, modify_bind_run, bind_ok_iff] at h
  obtain ⟨⟨⟩, s₁, hstore, hlast⟩ := h
  cases hlast
  rw [storePipeFDs_ok hstore]
  show ((update s₀.jos.pipes s₀.jos.nextPipe _) s₀.jos.nextPipe).buf = []
  rw [update_self]

theorem PipeRun.queued {env : Env} {sv : Services} {p : Nat} {events : List PipeEvent} {s : Sys}
    (h : PipeRun env sv p events s)
    (room : Nat) : Queued room events (s.jos.pipes p).buf := by
  have hcap : pipeCapacity = 65536 := rfl
  induction h with
  | created new h =>
    rw [← new, sysPipe2_empty h]
    exact .start room
  | read before hend h ih =>
    have hbound := ih.bound
    exact ih.reads (h ▸ sysRead_reads hend (by omega))
  | write before hend h ih => exact ih.writes (h ▸ sysWrite_writes hend)
  | other before h ih =>
    rw [h]
    exact ih

/-- **Pipes.** At every point of every run: what reads have returned is a prefix of what writes have accepted, and at
most 65536 bytes are missing; the slice that the code keeps them in still has its array; and of the calls that may come
next, one that returns an error moves nothing, with `EAGAIN` only for a `read` from the empty pipe and a `write` to the
full one. -/
theorem pipe_fifo {env : Env} {sv : Services} {p : Nat} {events : List PipeEvent} {s : Sys}
    (h : PipeRun env sv p events s) (room : Nat) :
    (returned events <+: accepted events ∧ (accepted events).length ≤ (returned events).length + 65536) ∧
    ((goBuffer room events).elems = (s.jos.pipes p).buf ∧ (goBuffer room events).cap = 65536) ∧
    ∀ (fd : Fd) (f : FD) (bufAddr n errno : BitVec 64) (s' : Sys), EndOf p s fd f →
      (sysRead env sv fd bufAddr n s = (.error errno, s') →
        Unmoved p s s' ∧ (errno = errEAGAIN → (s.jos.pipes p).buf = [])) ∧
      (sysWrite env sv fd bufAddr n s = (.error errno, s') →
        Unmoved p s s' ∧ (errno = errEAGAIN → (s.jos.pipes p).buf.length = 65536)) := by
  have hcap : pipeCapacity = 65536 := rfl
  have hqueue := h.queued room
  have hbound := hqueue.bound
  refine ⟨⟨⟨_, hqueue.split.symm⟩, ?_⟩, ⟨hqueue.slice, hqueue.cap⟩,
    fun fd f bufAddr n errno s' hend => ⟨fun hr => ?_, fun hw => ?_⟩⟩
  · rw [hqueue.split, length_append]
    omega
  · have hreads : Reads p bufAddr s (.error errno, s') := hr ▸ sysRead_reads hend (by omega)
    cases hreads with
    | refused still again => exact ⟨still, again⟩
  · have hwrites : Writes p bufAddr s (.error errno, s') := hw ▸ sysWrite_writes hend
    cases hwrites with
    | refused still again => exact ⟨still, fun herrno => Nat.le_antisymm hbound (again herrno)⟩

/-- a pipe, its two numbers written to it as eight bytes, and three of these read back -/
def pipeCreated : Sys := (sysPipe2 0x5000 0 smallBoot).2

def pipeWritten : Sys := (sysWrite quietEnv noServices 4 0x5000 8 pipeCreated).2

def pipeRead : Sys := (sysRead quietEnv noServices 3 0x6000 3 pipeWritten).2

theorem pipe_fifo_eight :
    let events := [.put [3, 0, 0, 0, 4, 0, 0, 0], .took [3, 0, 0]]
    PipeRun quietEnv noServices 0 events pipeRead ∧ returned events <+: accepted events ∧
    (goBuffer 0 events).elems = [0, 4, 0, 0, 0] ∧ (pipeRead.jos.pipes 0).buf = [0, 4, 0, 0, 0] := by
  obtain ⟨hnew, hcreated, hwriteEnd, hwritten, hreadEnd, hread⟩ : smallBoot.jos.nextPipe = 0 ∧
      (sysPipe2 0x5000 0 smallBoot).1 = .ok 0 ∧
      pipeCreated.jos.fds 4 =
        some { kind := .pipeWrite, flags := 0, eventfdCounter := 0, epoll := none, pipe := some 0 } ∧
      (sysWrite quietEnv noServices 4 0x5000 8 pipeCreated).1 = .ok 8 ∧
      pipeWritten.jos.fds 3 =
        some { kind := .pipeRead, flags := 0, eventfdCounter := 0, epoll := none, pipe := some 0 } ∧
      (sysRead quietEnv noServices 3 0x6000 3 pipeWritten).1 = .ok 3 := by
    decide +kernel
  have hput : movedBytes pipeCreated.cpu.mem 0x5000 (.ok 8) = [3, 0, 0, 0, 4, 0, 0, 0] := by decide +kernel
  have htook : movedBytes pipeRead.cpu.mem 0x6000 (.ok 3) = [3, 0, 0] := by decide +kernel
  have hstart : PipeRun quietEnv noServices 0 [] pipeCreated := .created hnew (Prod.ext hcreated rfl)
  have hwrite : PipeRun quietEnv noServices 0 [.put [3, 0, 0, 0, 4, 0, 0, 0]] pipeWritten :=
    hput ▸ .write hstart ⟨hwriteEnd, rfl, .inr rfl⟩ (Prod.ext hwritten rfl)
  have hrun : PipeRun quietEnv noServices 0 [.put [3, 0, 0, 0, 4, 0, 0, 0], .took [3, 0, 0]] pipeRead :=
    htook ▸ .read hwrite ⟨hreadEnd, rfl, .inl rfl⟩ (Prod.ext hread rfl)
  have hbuf : (pipeRead.jos.pipes 0).buf = [0, 4, 0, 0, 0] := by decide +kernel
  have hfifo := pipe_fifo hrun 0
  exact ⟨hrun, hfifo.1.1, hfifo.2.1.1.trans hbuf, hbuf⟩

end RiscvEmu.Linux
