/-
The system calls keep the wait queues and counters right.

`Call.Advances`: run by a thread that can run, a handler advances the personality. Blocking calls end with another
thread loaded or with nothing loaded (`Settled`).
-/
import RiscvEmu.Linux.Waiters

namespace RiscvEmu.Linux

open Exec Function Call List Option

/-! ## Looking at descriptors -/

/-- the events that a registration asks for -/
def Jea9Linux.asked (jos : Jea9Linux) (ep : Nat) (fd : Fd) : Option (BitVec 32) :=
  ((jos.epolls ep).registrations fd).map EpollRegistration.events

/-- the personality is as it was but for what edge-triggered registrations remember -/
def OnlyEpolls (s s' : Sys) : Prop := ∃ e, s'.jos = { s.jos with epolls := e } ∧ s'.jos.asked = s.jos.asked

namespace OnlyEpolls

variable {s s' s'' : Sys}

theorem refl (s : Sys) : OnlyEpolls s s := ⟨s.jos.epolls, rfl, rfl⟩

theorem trans (h : OnlyEpolls s s') (h' : OnlyEpolls s' s'') : OnlyEpolls s s'' := by
  obtain ⟨e, he, hasked⟩ := h
  obtain ⟨e', he', hasked'⟩ := h'
  exact ⟨e', by rw [he', he], hasked'.trans hasked⟩

theorem of_jos (h : OnlyEpolls s s') (hjos : s''.jos = s'.jos) : OnlyEpolls s s'' := by
  unfold OnlyEpolls
  rw [hjos]
  exact h

theorem same (h : OnlyEpolls s s') : SameWaits s.jos s'.jos := by
  obtain ⟨e, he, -⟩ := h
  rw [he]
  exact .of_eq rfl rfl

theorem contexts (h : OnlyEpolls s s') : s'.jos.contexts = s.jos.contexts := by
  obtain ⟨e, he, -⟩ := h
  rw [he]

theorem fds (h : OnlyEpolls s s') : s'.jos.fds = s.jos.fds := by
  obtain ⟨e, he, -⟩ := h
  rw [he]

end OnlyEpolls

theorem Call.mem_jos {α : Type} (errno : BitVec 64) (m : Exec GuestMemory MemFault α) (s : Sys) :
    (mem errno m s).2.jos = s.jos := by
  unfold mem
  rcases m s.cpu.mem with ⟨_ | _, _⟩ <;> rfl

theorem Call.bind_cases {α β : Type} {m : Call α} {k : α → Call β} {s : Sys} {P : Sys → Prop}
    (herr : ∀ e s', m s = (.error e, s') → P s') (hok : ∀ a s', m s = (.ok a, s') → P (k a s').2) :
    P ((m >>= k) s).2 := by
  rcases hr : m s with ⟨e | a, s'⟩
  · rw [bind_of_error hr]
    exact herr e s' hr
  · rw [bind_of_ok hr]
    exact hok a s' hr

/-- the call reads and writes guest memory and leaves the personality alone -/
def Call.Leaves {α : Type} (m : Call α) : Prop := ∀ s, (m s).2.jos = s.jos

namespace Call.Leaves

variable {α β : Type}

theorem pure (a : α) : Call.Leaves (Pure.pure a : Call α) := fun _ => rfl

theorem fail (e : BitVec 64) : Call.Leaves (Exec.fail e : Call α) := fun _ => rfl

theorem gets (f : Sys → α) : Call.Leaves (gets f : Call α) := fun _ => rfl

theorem mem (errno : BitVec 64) (m : Exec GuestMemory MemFault α) : Call.Leaves (mem errno m) := mem_jos errno m

theorem bind {m : Call α} {k : α → Call β} (hm : Call.Leaves m) (hk : ∀ a, Call.Leaves (k a)) :
    Call.Leaves (m >>= k) := by
  intro s
  have hstep := hm s
  refine bind_cases (P := fun s' => s'.jos = s.jos) (fun e s' h => ?_) fun a s' h => ?_
  · rw [h] at hstep
    exact hstep
  · rw [h] at hstep
    exact (hk a s').trans hstep

theorem ite {p : Prop} [Decidable p] {m m' : Call α} (h : Call.Leaves m) (h' : Call.Leaves m') :
    Call.Leaves (if p then m else m') := by
  split_ifs
  · exact h
  · exact h'

theorem when {p : Prop} [Decidable p] {m : Call Unit} (h : Call.Leaves m) : Call.Leaves (when p m) := ite h (pure _)

theorem failIf (p : Prop) [Decidable p] (e : BitVec 64) : Call.Leaves (failIf p e) := when (fail e)

end Call.Leaves

theorem storeEpollEvent_leaves (addr : BitVec 64) (events : BitVec 32) (data : BitVec 64) :
    Call.Leaves (storeEpollEvent addr events data) :=
  .bind (.mem _ _) fun _ => .bind (.mem _ _) fun _ => .mem _ _

variable (jos : Jea9Linux) (env : Env) (epfd : Fd)

theorem setRegistration_asked {ep : Nat} {fd : Fd} {reg reg' : EpollRegistration}
    (hreg : (jos.epolls ep).registrations fd = some reg) (hevents : reg'.events = reg.events) :
    (jos.setRegistration ep fd (some reg')).asked = jos.asked := by
  funext ep' fd'
  unfold Jea9Linux.asked Jea9Linux.setRegistration Jea9Linux.setEpoll Epoll.withRegistration
  dsimp only
  by_cases hep : ep' = ep
  · subst hep
    rw [update_self]
    by_cases hfd : fd' = fd
    · subst hfd
      simp only [update_self, hreg, Option.map_some, hevents]
    · simp only [update_of_ne hfd]
  · rw [update_of_ne hep]

theorem epollReadyForRegistration_onlyEpolls {ep : Nat} {fd : Fd} {reg : EpollRegistration} {s : Sys}
    (hep : s.jos.epollOf epfd = some ep) (hreg : (s.jos.epolls ep).registrations fd = some reg) :
    OnlyEpolls s { s with jos := (s.jos.epollReadyForRegistration env epfd fd reg).2 } := by
  unfold OnlyEpolls Jea9Linux.epollReadyForRegistration
  dsimp only
  split
  · exact ⟨s.jos.epolls, rfl, rfl⟩
  · rw [hep]
    exact ⟨_, rfl, setRegistration_asked s.jos hreg rfl⟩

theorem collectReady_onlyEpolls {ep : Nat} (eventsAddr maxEvents : BitVec 64) (l : List Fd)
    (count : Nat) {s : Sys} (hep : s.jos.epollOf epfd = some ep) :
    OnlyEpolls s (collectReady env epfd ep eventsAddr maxEvents l count s).2 := by
  have hstays {s s' : Sys} (hep : s.jos.epollOf epfd = some ep) (h : OnlyEpolls s s') :
      s'.jos.epollOf epfd = some ep := by
    unfold Jea9Linux.epollOf
    rw [h.fds]
    exact hep
  induction l generalizing count s with
  | nil => exact .refl s
  | cons fd rest ih =>
    unfold collectReady
    split
    · exact .refl s
    · cases hreg : (s.jos.epolls ep).registrations fd with
      | none => exact ih count hep
      | some reg =>
        dsimp only
        have hs := epollReadyForRegistration_onlyEpolls env epfd hep hreg
        generalize s.jos.epollReadyForRegistration env epfd fd reg = r at hs
        split
        · exact hs.trans (ih count (hstays hep hs))
        · have hstore := storeEpollEvent_leaves (eventsAddr + BitVec.ofNat 64 count * epollEventSize) r.1 reg.data
            { s with jos := r.2 }
          refine bind_cases (P := OnlyEpolls s) (fun err s' h => ?_) fun _ s' h => ?_
          · rw [h] at hstore
            exact hs.of_jos hstore
          · rw [h] at hstore
            have hs' := hs.of_jos hstore
            exact hs'.trans (ih (count + 1) (hstays hep hs'))

theorem epollCollectReady_onlyEpolls (eventsAddr maxEvents : BitVec 64) (s : Sys) :
    OnlyEpolls s (epollCollectReady env epfd eventsAddr maxEvents s).2 := by
  unfold epollCollectReady
  split
  · exact .refl s
  · cases hep : s.jos.epollOf epfd with
    | none => exact .refl s
    | some ep => exact collectReady_onlyEpolls env epfd _ _ _ _ hep

/-! ## Waking waiters of descriptors -/

theorem foldl_advances {α : Type} {f : Sys → α → Sys} (hf : ∀ s a, Advances s.jos (f s a).jos) (l : List α) (s : Sys) :
    Advances s.jos (l.foldl f s).jos := by
  induction l generalizing s with
  | nil => exact .refl s.jos
  | cons a l ih => exact (hf s a).trans (ih (f s a))

theorem exists_of_epollWaiter {tid : Tid} {ctx : Context} {jos : Jea9Linux} (h : jos.epollWaiter tid = some ctx) :
    jos.contexts tid = some ctx ∧ ctx.state = .waiting ∧ ctx.waitKind = .epoll := by
  unfold Jea9Linux.epollWaiter at h
  cases hc : jos.contexts tid with
  | none => rw [hc] at h; cases h
  | some c =>
    rw [hc] at h
    dsimp only at h
    split_ifs at h with hw
    obtain rfl := some.inj h
    exact ⟨rfl, hw⟩

namespace Sys

variable (env : Env) (s : Sys)

theorem wakeIfReady_advances {tid : Tid} {ctx : Context} (h : s.jos.epollWaiter tid = some ctx) :
    Advances s.jos (s.wakeIfReady env tid ctx).jos := by
  obtain ⟨hc, hw, hk⟩ := exists_of_epollWaiter h
  have hcollect := epollCollectReady_onlyEpolls env ctx.waitFD ctx.waitEventAddr ctx.waitMaxEvents s
  have hwake : ∀ (s' : Sys) retval, OnlyEpolls s s' → Advances s.jos (s'.jos.markRunnable tid retval) := by
    intro s' retval hs
    refine hs.same.advances.trans (s'.jos.markRunnable_advances (hs.contexts ▸ hc) ?_ ?_ retval)
    · rw [hw]
      decide
    · rw [hk]
      decide
  unfold wakeIfReady
  rcases hr : epollCollectReady env ctx.waitFD ctx.waitEventAddr ctx.waitMaxEvents s with ⟨errno | n, s'⟩
  · rw [hr] at hcollect
    exact hwake s' errno hcollect
  · rw [hr] at hcollect
    dsimp only
    split
    · exact hwake s' _ hcollect
    · exact hcollect.same.advances

theorem wakeEpollWaitersForFD_advances (fd : Fd) : Advances s.jos (s.wakeEpollWaitersForFD env fd).jos := by
  refine foldl_advances (fun s tid => ?_) _ s
  cases h : s.jos.epollWaiter tid with
  | none => exact .refl s.jos
  | some ctx =>
    dsimp only
    split
    · exact s.wakeIfReady_advances env h
    · exact .refl s.jos

theorem refreshEpollReadiness_advances : Advances s.jos (s.refreshEpollReadiness env).jos := by
  refine foldl_advances (fun s tid => ?_) _ s
  cases h : s.jos.epollWaiter tid with
  | none => exact .refl s.jos
  | some ctx => exact s.wakeIfReady_advances env h

theorem clearEpollReadyBitsForFD_same (jos : Jea9Linux) (fd : Fd) (bits : BitVec 32) :
    SameWaits jos (jos.clearEpollReadyBitsForFD fd bits) := .of_eq rfl rfl

theorem drainExternalEvents_advances : Advances s.jos (s.drainExternalEvents env).jos := by
  unfold drainExternalEvents
  cases s.jos.timeMode with
  | hermitTime => exact .refl s.jos
  | realTime =>
    refine foldl_advances (fun s e => ?_) _ s
    cases e with
    | dropped => exact .refl s.jos
    | accepted fd =>
      exact (clearEpollReadyBitsForFD_same s.jos fd epollIn).advances.trans
        (wakeEpollWaitersForFD_advances env (s.mapJos fun jos => jos.clearEpollReadyBitsForFD fd epollIn) fd)
    | arrived fd => exact s.wakeEpollWaitersForFD_advances env fd

end Sys

/-! ## Handlers -/

/-- run by a thread that can run, the handler advances the personality -/
def Call.Advances {α : Type} (m : Call α) : Prop :=
  ∀ s : Sys, s.jos.isRunnable s.jos.currentTID → Linux.Advances s.jos (m s).2.jos

namespace Call.Advances

variable {α β : Type}

theorem of_same {m : Call α} (h : ∀ s, SameWaits s.jos (m s).2.jos) : Call.Advances m := fun s _ => (h s).advances

theorem of_leaves {m : Call α} (h : Call.Leaves m) : Call.Advances m := fun s _ => by
  rw [h s]
  exact .refl s.jos

theorem pure (a : α) : Call.Advances (Pure.pure a : Call α) := .of_leaves (.pure a)

theorem fail (e : BitVec 64) : Call.Advances (Exec.fail e : Call α) := .of_leaves (.fail e)

theorem gets (f : Sys → α) : Call.Advances (gets f : Call α) := .of_leaves (.gets f)

theorem mem (errno : BitVec 64) (m : Exec GuestMemory MemFault α) :
    Call.Advances (mem errno m) := .of_leaves (.mem errno m)

theorem modify {f : Sys → Sys} (h : ∀ s, s.jos.isRunnable s.jos.currentTID → Linux.Advances s.jos (f s).jos) :
    Call.Advances (Exec.modify f : Call Unit) := h

theorem bind {m : Call α} {k : α → Call β} (hm : Call.Advances m) (hk : ∀ a, Call.Advances (k a)) :
    Call.Advances (m >>= k) := by
  intro s hs
  have hstep := hm s hs
  refine bind_cases (P := fun s' => Linux.Advances s.jos s'.jos) (fun e s' h => ?_) fun a s' h => ?_
  · rw [h] at hstep
    exact hstep
  · rw [h] at hstep
    refine hstep.trans (hk a s' ?_)
    rw [hstep.current]
    exact hstep.runnable _ hs

theorem ite {p : Prop} [Decidable p] {m m' : Call α} (h : Call.Advances m) (h' : Call.Advances m') :
    Call.Advances (if p then m else m') := by
  split_ifs
  · exact h
  · exact h'

theorem when {p : Prop} [Decidable p] {m : Call Unit} (h : Call.Advances m) : Call.Advances (when p m) :=
  ite h (pure _)

theorem failIf (p : Prop) [Decidable p] (e : BitVec 64) : Call.Advances (failIf p e) := when (fail e)

end Call.Advances

theorem Sys.SameThreads.same {s s' : Sys} (h : s.SameThreads s') : SameWaits s.jos s'.jos := by
  obtain ⟨hj, hclock⟩ := h.1
  have hsettings : SameSettings s.jos s'.jos := by
    rw [hj]
    exact ⟨rfl, rfl, rfl, rfl, fun _ hc => hc, rfl⟩
  have htimed : s'.jos.timed = s.jos.timed := by
    rw [hj]
    rfl
  exact ⟨by rw [hj], by rw [hj], htimed, by rw [hj], fun _ => by rw [hj], ⟨hsettings, hclock⟩⟩

section Handlers

variable (env : Env) (sv : Services)

theorem serve_advances (r : Request) : Call.Advances (serve env sv r) := by
  intro s _
  refine (sv.answer_keeps r s).same.advances.trans ?_
  exact foldl_advances (fun s fd => s.wakeEpollWaitersForFD_advances env fd) _ _

variable (fd : Fd)

theorem clearReady_advances : Call.Advances (clearReady fd) :=
  .of_same fun s => Sys.clearEpollReadyBitsForFD_same s.jos fd epollIn

theorem setFD_advances (f : Option FD) : Call.Advances (setFD fd f) :=
  .of_same fun _ => .of_eq rfl rfl

theorem setPipeBuf_advances (p : Nat) (buf : List (BitVec 8)) : Call.Advances (setPipeBuf p buf) :=
  .of_same fun _ => .of_eq rfl rfl

theorem sysEventfd2_advances (init flags : BitVec 64) : Call.Advances (sysEventfd2 init flags) := by
  refine .of_same fun s => ?_
  unfold sysEventfd2
  split_ifs
  · exact .refl s.jos
  · exact .of_eq rfl rfl

theorem sysEpollCreate1_advances (flags : BitVec 64) : Call.Advances (sysEpollCreate1 flags) := by
  refine .of_same fun s => ?_
  unfold sysEpollCreate1
  split_ifs
  · exact .refl s.jos
  · exact .of_eq rfl rfl

theorem loadEpollEvent_leaves (addr : BitVec 64) : Call.Leaves (loadEpollEvent addr) :=
  .bind (.mem _ _) fun _ => .bind (.mem _ _) fun _ => .pure _

theorem changeRegistration_advances (ep : Nat) (op : BitVec 64) (fd : Fd) (eventAddr : BitVec 64) :
    Call.Advances (changeRegistration ep op fd eventAddr) := by
  have hset : ∀ f : Jea9Linux → Jea9Linux, (∀ j, SameWaits j (f j)) →
      Call.Advances (Exec.modify (fun s : Sys => s.mapJos f) : Call Unit) := fun f hf => .of_same fun s => hf s.jos
  refine .bind (.gets _) fun e => .ite ?_ (.ite ?_ (.ite ?_ (.fail _)))
  · exact .bind (.failIf _ _) fun _ => .bind (.of_leaves (loadEpollEvent_leaves _)) fun _ =>
      .bind (hset _ fun _ => .of_eq rfl rfl) fun _ => .pure _
  · exact .bind (.failIf _ _) fun _ => .bind (.of_leaves (loadEpollEvent_leaves _)) fun _ =>
      .bind (hset _ fun _ => .of_eq rfl rfl) fun _ => .pure _
  · exact .bind (.failIf _ _) fun _ => .bind (hset _ fun _ => .of_eq rfl rfl) fun _ => .pure _

theorem sysEpollCtl_advances (epfd op fd eventAddr : BitVec 64) : Call.Advances (sysEpollCtl epfd op fd eventAddr) := by
  intro s hs
  unfold sysEpollCtl
  cases s.jos.epollOf epfd with
  | none => exact .refl s.jos
  | some ep =>
    cases s.jos.fds fd with
    | none => exact .refl s.jos
    | some _ => exact changeRegistration_advances ep op fd eventAddr s hs

theorem sysEventfdRead_advances (f : FD) (bufAddr n : BitVec 64) :
    Call.Advances (sysEventfdRead fd f bufAddr n) :=
  .bind (.failIf _ _) fun _ => .bind (.when (.bind (clearReady_advances fd) fun _ => .fail _)) fun _ =>
    .bind (.mem _ _) fun _ => .bind (setFD_advances fd _) fun _ =>
      .bind (.when (clearReady_advances fd)) fun _ => .pure _

theorem wake_advances (fd : Sys → Fd) :
    Call.Advances (Exec.modify (fun s : Sys => s.wakeEpollWaitersForFD env (fd s)) : Call Unit) :=
  .modify fun s _ => s.wakeEpollWaitersForFD_advances env (fd s)

theorem sysEventfdWrite_advances (f : FD) (bufAddr n : BitVec 64) :
    Call.Advances (sysEventfdWrite env fd f bufAddr n) :=
  .bind (.failIf _ _) fun _ => .bind (.mem _ _) fun _ => .bind (.failIf _ _) fun _ => .bind
    (setFD_advances fd _) fun _ =>
    .bind (wake_advances env fun _ => fd) fun _ => .pure _

theorem sysPipeRead_advances (f : FD) (bufAddr n : BitVec 64) : Call.Advances (sysPipeRead fd f bufAddr n) := by
  unfold sysPipeRead
  cases f.pipe with
  | none => exact .fail _
  | some p =>
    exact .bind (.gets _) fun _ => .bind (.when (.bind (clearReady_advances fd) fun _ => .fail _)) fun _ =>
      .bind (.mem _ _) fun _ => .bind (setPipeBuf_advances p _) fun _ =>
        .bind (.when (clearReady_advances fd)) fun _ => .pure _

theorem sysPipeWrite_advances (f : FD) (bufAddr n : BitVec 64) : Call.Advances (sysPipeWrite env f bufAddr n) := by
  unfold sysPipeWrite
  cases f.pipe with
  | none => exact .fail _
  | some p =>
    exact .bind (.gets _) fun _ => .bind (.failIf _ _) fun _ => .bind (.mem _ _) fun _ =>
      .bind (setPipeBuf_advances p _) fun _ => .bind (wake_advances env fun s => (s.jos.pipes p).readFD) fun _ =>
        .pure _

theorem sysClose_advances : Call.Advances (sysClose fd) := by
  intro s hs
  unfold sysClose
  cases s.jos.fds fd with
  | none => exact .refl s.jos
  | some _ => exact Call.Advances.bind (setFD_advances fd none) (fun _ => .pure _) s hs

theorem storePipeFDs_advances (addr : BitVec 64) (readFD writeFD : Fd) :
    Call.Advances (storePipeFDs addr readFD writeFD) := by
  intro s hs
  have hstore : Call.Advances (do
      mem errEFAULT (GuestMemory.store32 addr (readFD.setWidth 32))
      mem errEFAULT (GuestMemory.store32 (addr + 4) (writeFD.setWidth 32)) : Call Unit) :=
    .bind (.mem _ _) fun _ => .mem _ _
  have hclose : ∀ errno, Call.Advances (do
      setFD readFD none
      setFD writeFD none
      Exec.fail errno : Call Unit) := fun _ =>
    .bind (setFD_advances readFD none) fun _ => .bind (setFD_advances writeFD none) fun _ => .fail _
  have hstep := hstore s hs
  unfold storePipeFDs
  rcases hr : (do
      mem errEFAULT (GuestMemory.store32 addr (readFD.setWidth 32))
      mem errEFAULT (GuestMemory.store32 (addr + 4) (writeFD.setWidth 32)) : Call Unit) s with ⟨errno | u, s'⟩
  · rw [hr] at hstep
    refine hstep.trans (hclose errno s' ?_)
    rw [hstep.current]
    exact hstep.runnable _ hs
  · rw [hr] at hstep
    exact hstep

theorem allocPipe_same (jos : Jea9Linux) (f f' : FD) (p : Nat) (pipes : Nat → Pipe) :
    SameWaits jos { ((jos.allocFD f).2.allocFD f').2 with nextPipe := p, pipes := pipes } :=
  .of_eq rfl rfl

theorem sysPipe2_advances (pipefdAddr flags : BitVec 64) : Call.Advances (sysPipe2 pipefdAddr flags) :=
  .bind (.failIf _ _) fun _ => .bind (.gets _) fun _ => .bind (.gets _) fun _ =>
    .bind (.of_same fun s => allocPipe_same s.jos _ _ _ _) fun _ =>
      .bind (storePipeFDs_advances _ _ _) fun _ => .pure _

theorem sysRead_advances (bufAddr n : BitVec 64) : Call.Advances (sysRead env sv fd bufAddr n) := by
  intro s hs
  unfold sysRead
  cases s.jos.fds fd with
  | none => exact .refl s.jos
  | some f =>
    dsimp only
    split
    · exact .refl s.jos
    · split
      · exact .refl s.jos
      · cases f.kind
        case eventfd => exact sysEventfdRead_advances fd f bufAddr n s hs
        case pipeRead => exact sysPipeRead_advances fd f bufAddr n s hs
        case stdin | random | file | hostFile | socket => exact serve_advances env sv _ s hs
        case dir | stdout | stderr | epoll | pipeWrite => exact .refl s.jos

theorem sysWrite_advances (bufAddr n : BitVec 64) : Call.Advances (sysWrite env sv fd bufAddr n) := by
  intro s hs
  unfold sysWrite
  cases s.jos.fds fd with
  | none => exact .refl s.jos
  | some f =>
    dsimp only
    split
    · exact .refl s.jos
    · split
      · exact .refl s.jos
      · refine Call.Advances.bind (.mem _ _) (fun _ => ?_) s hs
        cases f.kind
        case eventfd => exact sysEventfdWrite_advances env fd f bufAddr n
        case pipeWrite => exact sysPipeWrite_advances env f bufAddr n
        case stdout | stderr | hostFile | socket => exact serve_advances env sv _
        case stdin | random | file | epoll | pipeRead | dir => exact .fail _

theorem loadIovecs_leaves (addr : BitVec 64) (l : List Nat) : Call.Leaves (loadIovecs addr l) := by
  induction l with
  | nil => exact .pure _
  | cons i l ih =>
    exact .bind (.mem _ _) fun _ => .bind (.mem _ _) fun _ => .bind (.failIf _ _) fun _ => .bind ih fun _ => .pure _

theorem result_snd {c : Call (BitVec 64)} (s : Sys) : (c.result s).2 = (c s).2 := by
  unfold result
  rcases c s with ⟨_ | _, _⟩ <;> rfl

theorem transferIovecs_advances {transfer : BitVec 64 → BitVec 64 → Call (BitVec 64)}
    (h : ∀ base length, Call.Advances (transfer base length)) (l : List (BitVec 64 × BitVec 64)) (total : BitVec 64) :
    Call.Advances (transferIovecs transfer l total) := by
  induction l generalizing total with
  | nil => exact .pure _
  | cons iov l ih =>
    obtain ⟨base, length⟩ := iov
    intro s hs
    have hstep := h base length s hs
    have hresult : ((transfer base length).result s).2 = (transfer base length s).2 := result_snd s
    unfold transferIovecs
    dsimp only
    split
    · exact ih total s hs
    · rw [hresult]
      split
      · exact hstep
      · split
        · exact hstep
        · refine hstep.trans (ih _ _ ?_)
          rw [hstep.current]
          exact hstep.runnable _ hs

theorem vectored_advances {transfer : BitVec 64 → BitVec 64 → Call (BitVec 64)}
    (h : ∀ base length, Call.Advances (transfer base length)) (iovAddr iovcnt : BitVec 64) :
    Call.Advances (vectored transfer iovAddr iovcnt) :=
  .bind (.failIf _ _) fun _ => .bind (.of_leaves (loadIovecs_leaves _ _)) fun iovs => transferIovecs_advances h iovs 0

end Handlers

/-! ## The current context -/

namespace Jea9Linux

variable {jos : Jea9Linux}

theorem exists_of_isRunnable {tid : Tid} (h : jos.isRunnable tid) :
    ∃ c, jos.contexts tid = some c ∧ c.state = .runnable := by
  unfold isRunnable at h
  cases hc : jos.contexts tid with
  | none => rw [hc] at h; cases h
  | some c =>
    rw [hc] at h
    exact ⟨c, rfl, of_decide_eq_true h⟩

theorem attachActiveEcallTrap_same (tid : Tid) : SameWaits jos (jos.attachActiveEcallTrap tid) :=
  .ite (.refl jos) (.modifyContext jos tid fun _ => rfl)

theorem ensureScheduler_same (h : (jos.contexts jos.currentTID).isSome) (c : Cpu) :
    SameWaits jos (jos.ensureScheduler c) := by
  obtain ⟨ctx, hctx⟩ := isSome_iff_exists.mp h
  have hnext : SameWaits jos
      (if jos.nextTID ≤ jos.currentTID then { jos with nextTID := jos.currentTID + 1 } else jos) :=
    .ite (.of_eq rfl rfl) (.refl jos)
  unfold ensureScheduler
  rw [hctx]
  exact hnext.trans (attachActiveEcallTrap_same _)

theorem modify_runnable_same {tid : Tid} {f : Context → Context} (h : jos.isRunnable tid)
    (hf : ∀ c : Context, c.state = .runnable → (f c).waitData = c.waitData) :
    SameWaits jos (jos.modifyContext tid f) := by
  obtain ⟨c, hc, hs⟩ := exists_of_isRunnable h
  rw [modifyContext_eq hc]
  refine ⟨rfl, rfl, rfl, rfl, fun t => ?_, .of_eq rfl⟩
  show (Function.update jos.contexts tid _ t).map Context.waitData = _
  by_cases ht : t = tid
  · subst ht
    rw [update_self, hc]
    exact congrArg some (hf c hs)
  · rw [update_of_ne ht]

theorem modifyContext_none {tid : Tid} (h : jos.contexts tid = none) (f : Context → Context) :
    jos.modifyContext tid f = jos := by
  have hupdate : Function.update jos.contexts tid ((jos.contexts tid).map f) = jos.contexts := by
    rw [h, map_none, ← h, update_eq_self]
  rw [modifyContext, hupdate]

end Jea9Linux

namespace Sys

variable (s : Sys)

theorem saveCurrent_same : SameWaits s.jos s.saveCurrent.jos := .modifyContext s.jos s.jos.currentTID fun _ => rfl

variable {s}

theorem ensureScheduler_same (h : s.jos.isRunnable s.jos.currentTID) : SameWaits s.jos s.ensureScheduler.jos := by
  obtain ⟨c, hc, -⟩ := Jea9Linux.exists_of_isRunnable h
  exact Jea9Linux.ensureScheduler_same (by rw [hc]; rfl) s.cpu

theorem keepRunning_same (h : s.jos.isRunnable s.jos.currentTID) : SameWaits s.jos s.keepRunning.jos := by
  refine Jea9Linux.modify_runnable_same h fun c hc => ?_
  rw [Context.waitData, Context.waitData, hc]

end Sys

/-! ## Signals -/

theorem enterHandler_advances (tid : Tid) (snap : CPUSnapshot) (signals : BitVec 64) (s : Sys) :
    Advances s.jos (enterHandler tid snap signals s).jos := by
  have hmask : SameWaits s.jos (s.jos.modifyContext tid fun c => { c with signalMask := c.signalMask ||| signals }) :=
    .modifyContext s.jos tid fun _ => rfl
  refine hmask.advances.trans ?_
  show Advances _ ((Jea9Linux.cancelContextWait _ tid).modifyContext tid _)
  generalize s.jos.modifyContext tid (fun c => { c with signalMask := c.signalMask ||| signals }) = jos
  cases hc : jos.contexts tid with
  | none =>
    have hcancel : jos.cancelContextWait tid = jos := by rw [Jea9Linux.cancelContextWait, hc]
    rw [hcancel, Jea9Linux.modifyContext_none hc]
    exact .refl jos
  | some c =>
    rw [Jea9Linux.cancelContextWait_eq hc, Jea9Linux.modifyContext_eq (update_self ..)]
    simp only [update_idem]
    refine @Advances.wake _ _ tid c
      { c.clearWait with state := .runnable, syscallTrap := .idle, snapshot := snap } hc rfl rfl
      (fun _ => ⟨rfl, rfl⟩) rfl (Jea9Linux.detach_contextOrder tid c) rfl rfl (Jea9Linux.detach_currentTID tid c)
      ((Jea9Linux.detach_kept tid c).withContexts _)

theorem Call.modifyContext_advances {f : Context → Context} (tid : Tid) (hf : ∀ c, (f c).waitData = c.waitData) :
    Call.Advances (modifyContext tid f) := .of_same fun s => .modifyContext s.jos tid hf

theorem forRegs_leaves {α : Type} {f : BitVec 5 → Call α} (hf : ∀ i, Call.Leaves (f i)) : Call.Leaves (forRegs f) := by
  unfold forRegs
  generalize finRange 32 = l
  induction l with
  | nil => exact .pure _
  | cons i l ih => exact .bind (.bind (hf _) fun _ => .pure _) fun _ => ih

theorem storeSignalUContext_leaves (addr : BitVec 64) (snap : CPUSnapshot) (mask : BitVec 64) :
    Call.Leaves (storeSignalUContext addr snap mask) :=
  .bind (.mem _ _) fun _ => forRegs_leaves fun _ => .mem _ _

theorem storeSignalInfo_leaves (addr : BitVec 64) (info : SignalInfo) : Call.Leaves (storeSignalInfo addr info) :=
  .bind (.mem _ _) fun _ => .bind (.mem _ _) fun _ => .bind (.mem _ _) fun _ => .bind (.when (.mem _ _)) fun _ =>
    .bind (.when (.bind (.mem _ _) fun _ => .mem _ _)) fun _ => .mem _ _

theorem writeFrameAt_leaves (frameSP mask : BitVec 64) (snap : CPUSnapshot) (info : SignalInfo) :
    Call.Leaves (writeFrameAt frameSP mask snap info) :=
  .bind (.mem _ _) fun _ => .bind (storeSignalInfo_leaves _ _) fun _ => storeSignalUContext_leaves _ _ _

theorem writeSignalFrame_leaves (ctx : Context) (snap : CPUSnapshot) (info : SignalInfo) :
    Call.Leaves (writeSignalFrame ctx snap info) :=
  .bind (.gets _) fun _ => .bind (.failIf _ _) fun _ => .bind (writeFrameAt_leaves _ _ _ _) fun _ => .pure _

/-- the personality is as it was but for the page map and the restorer -/
def OnlyRestorer (jos jos' : Jea9Linux) :
    Prop := ∃ vm restorer, jos' = { jos with vm := vm, signalRestorer := restorer }

theorem OnlyRestorer.same {jos jos' : Jea9Linux} (h : OnlyRestorer jos jos') : SameWaits jos jos' := by
  obtain ⟨vm, restorer, rfl⟩ := h
  exact .of_eq rfl rfl

theorem ensureSignalRestorer_onlyRestorer (s : Sys) : OnlyRestorer s.jos (ensureSignalRestorer s).2.jos := by
  have hrefl (jos : Jea9Linux) : OnlyRestorer jos jos := ⟨jos.vm, jos.signalRestorer, rfl⟩
  have hstore (errno : BitVec 64) (m : Exec GuestMemory MemFault Unit) :
      Keeps (fun s' : Sys => OnlyRestorer s.jos s'.jos) (mem errno m) := fun s' hs' => by
    obtain ⟨vm, restorer, hjos⟩ := hs'
    exact ⟨vm, restorer, (mem_jos errno m s').trans hjos⟩
  have hset (f : Sys → Sys) (hf : ∀ s', OnlyRestorer s.jos s'.jos → OnlyRestorer s.jos (f s').jos) :
      Keeps (fun s' : Sys => OnlyRestorer s.jos s'.jos) (Exec.modify f : Call Unit) := .modify hf
  unfold ensureSignalRestorer
  split
  · exact hrefl s.jos
  · rcases s.jos.vm.allocRange guestPageSize with ⟨_ | addr, vm⟩
    · exact ⟨vm, s.jos.signalRestorer, rfl⟩
    · refine Keeps.bind (hstore _ _) (fun _ => .bind (hstore _ _) fun _ => .bind (hstore _ _) fun _ =>
        .bind (hset _ fun s' hs' => ?_) fun _ => .bind (hset _ fun s' hs' => ?_) fun _ => .pure _) (s.setVM vm)
        ⟨vm, s.jos.signalRestorer, rfl⟩
      · obtain ⟨vm', restorer, hjos⟩ := hs'
        exact ⟨s'.jos.vm.mapRange addr guestPageSize (protRead ||| protExec), restorer, by rw [Sys.setVM, hjos]⟩
      · obtain ⟨vm', restorer, hjos⟩ := hs'
        exact ⟨vm', addr, by rw [Sys.mapJos, hjos]⟩

theorem restorerOf_onlyRestorer (action : SignalAction) (s : Sys) : OnlyRestorer s.jos (restorerOf action s).2.jos := by
  unfold restorerOf
  split_ifs
  · exact ensureSignalRestorer_onlyRestorer s
  · exact ⟨s.jos.vm, s.jos.signalRestorer, rfl⟩

theorem setPending_same (tid : Tid) (signals : List PendingSignal) :
    SameWaits jos (jos.setPending tid signals) := .modifyContext jos tid fun _ => rfl

theorem deliverSignal_advances (ctx : Context) (sig : BitVec 64) (info : SignalInfo) (action : SignalAction) :
    Call.Advances (deliverSignal ctx sig info action) :=
  .bind (.gets _) fun _ => .bind (.of_leaves (writeSignalFrame_leaves _ _ _)) fun _ =>
    .bind (.of_same fun _ => .of_eq rfl rfl) fun _ =>
      .bind (.of_same fun s => (restorerOf_onlyRestorer action s).same) fun _ => .modify fun s _ =>
        enterHandler_advances _ _ _ s

theorem signalContext_advances (ctx : Context) (sig : BitVec 64) (info : SignalInfo) :
    Call.Advances (signalContext ctx sig info) := by
  intro s hs
  unfold signalContext
  split
  · exact .refl s.jos
  · split
    · exact (setPending_same s.jos ctx.tid _).advances
    · split
      · exact .refl s.jos
      · exact Call.Advances.bind (deliverSignal_advances _ _ _ _) (fun _ => .pure _) s hs

theorem deliverPending_advances (ctx : Context) (kept l : List PendingSignal) :
    Call.Advances (deliverPending ctx kept l) := by
  induction l generalizing kept with
  | nil => exact .of_same fun s => setPending_same s.jos ctx.tid kept
  | cons p rest ih =>
    intro s hs
    unfold deliverPending
    split
    · exact ih _ s hs
    · split
      · exact ih _ s hs
      · have hset := (setPending_same s.jos ctx.tid (kept ++ rest)).advances
        have hdeliver : Call.Advances (do
            deliverSignal ctx p.sig p.info (s.jos.signalActions p.sig)
            pure true : Call Bool) := .bind (deliverSignal_advances _ _ _ _) fun _ => .pure _
        exact hset.trans (hdeliver (s.mapJos fun jos => jos.setPending ctx.tid (kept ++ rest)) (hset.runnable _ hs))

theorem onCurrent_advances {α : Type} {f : Context → Call α} (hf : ∀ ctx, Call.Advances (f ctx)) :
    Call.Advances (onCurrent f) := by
  intro s hs
  unfold onCurrent
  cases s.jos.current with
  | none => exact .refl s.jos
  | some ctx => exact hf ctx s hs

theorem loadSignalAction_leaves (addr : BitVec 64) : Call.Leaves (loadSignalAction addr) :=
  .bind (.mem _ _) fun _ => .bind (.mem _ _) fun _ => .bind (.mem _ _) fun _ => .bind (.mem _ _) fun _ =>
    .ite (.pure _) (.pure _)

theorem storeSignalAction_leaves (addr : BitVec 64) (action : SignalAction) :
    Call.Leaves (storeSignalAction addr action) :=
  .bind (.mem _ _) fun _ => .bind (.mem _ _) fun _ => .bind (.mem _ _) fun _ => .mem _ _

theorem sysRtSigaction_advances (sig actAddr oldAddr sigsetSize : BitVec 64) :
    Call.Advances (sysRtSigaction sig actAddr oldAddr sigsetSize) :=
  .bind (.failIf _ _) fun _ => .bind (.gets _) fun _ => .bind
    (.of_leaves (.when (storeSignalAction_leaves _ _))) fun _ =>
    .bind (.when (.bind (.of_leaves (loadSignalAction_leaves _)) fun _ =>
      .of_same fun _ => .of_eq rfl rfl)) fun _ => .pure _

theorem changeSignalMask_advances (how setAddr : BitVec 64) : Call.Advances (changeSignalMask how setAddr) := by
  refine .when (.bind (.mem _ _) fun mask => .bind (.gets _) fun next => ?_)
  cases next with
  | none => exact .fail _
  | some next => exact .of_same fun s => .modifyContext s.jos _ fun _ => rfl

theorem prepareSigprocmask_advances (how setAddr oldAddr sigsetSize : BitVec 64) :
    Call.Advances (prepareSigprocmask how setAddr oldAddr sigsetSize) :=
  .bind (.failIf _ _) fun _ => .bind (.when (onCurrent_advances fun _ => .mem _ _)) fun _ =>
    changeSignalMask_advances _ _

theorem storeSigaltstack_leaves (addr sp flags size : BitVec 64) : Call.Leaves (storeSigaltstack addr sp flags size) :=
  .bind (.mem _ _) fun _ => .bind (.mem _ _) fun _ => .bind (.mem _ _) fun _ => .mem _ _

theorem sysSigaltstack_advances (newAddr oldAddr : BitVec 64) : Call.Advances (sysSigaltstack newAddr oldAddr) :=
  .bind (.when (onCurrent_advances fun _ => .of_leaves (storeSigaltstack_leaves _ _ _ _))) fun _ =>
    .bind (.when (.bind (.mem _ _) fun _ => .bind (.mem _ _) fun _ => .bind (.mem _ _) fun _ =>
      .bind (.failIf _ _) fun _ => onCurrent_advances fun _ => modifyContext_advances _ fun _ => rfl)) fun _ =>
        .bind (.of_same fun s => s.saveCurrent_same) fun _ => .pure _

/-! ## Futexes and new threads -/

namespace Jea9Linux

variable {jos : Jea9Linux}

theorem markRunnable_isRunnable {tid t : Tid} (retval : BitVec 64) (h : jos.isRunnable t) :
    (jos.markRunnable tid retval).isRunnable t := by
  cases hc : jos.contexts tid with
  | none => rwa [markRunnable, hc]
  | some c =>
    by_cases hs : c.state = .exited
    · rw [markRunnable, hc]
      dsimp only
      rwa [if_pos hs]
    · rw [markRunnable_eq hc hs, isRunnable_eq_any]
      show (Function.update jos.contexts tid _ t).any _ = true
      by_cases ht : t = tid
      · subst ht
        rw [update_self]
        simp [c.woken_state]
      · rw [update_of_ne ht, ← isRunnable_eq_any]
        exact h

theorem markRunnable_kept (jos : Jea9Linux) (tid : Tid) (retval : BitVec 64) : Kept jos (jos.markRunnable tid retval) :=
  markRunnable_induct tid retval (.refl jos) fun _ _ _ _ => .of_eq rfl

theorem markRunnable_currentTID (tid : Tid) (retval : BitVec 64) :
    (jos.markRunnable tid retval).currentTID = jos.currentTID :=
  markRunnable_induct (P := fun j => j.currentTID = jos.currentTID) tid retval rfl fun _ _ _ _ => rfl

theorem markRunnable_futexWaiters (tid : Tid) (retval : BitVec 64) :
    (jos.markRunnable tid retval).futexWaiters = jos.futexWaiters :=
  markRunnable_induct (P := fun j => j.futexWaiters = jos.futexWaiters) tid retval rfl fun _ _ _ _ => rfl

end Jea9Linux

theorem Tidy.wakeHead {q : BitVec 64 → List Tid} {addr : BitVec 64} {rest : List Tid} {jos : Jea9Linux}
    (h : Tidy jos (Function.update q addr (tid :: rest))) (retval : BitVec 64) :
    Tidy (jos.markRunnable tid retval) (Function.update q addr rest) := by
  have hcount := h.queued addr tid
  rw [update_self, count_cons_self] at hcount
  have hwaits : jos.waitsAt addr tid := by
    by_contra hnot
    rw [if_neg hnot] at hcount
    omega
  rw [if_pos hwaits] at hcount
  rw [Jea9Linux.waitsAt] at hwaits
  cases hc : jos.contexts tid with
  | none => rw [hc] at hwaits; cases hwaits
  | some c =>
    rw [hc] at hwaits
    obtain ⟨hw, hk, ha⟩ : c.state = .waiting ∧ c.waitKind = .futex ∧ c.waitAddr = addr := of_decide_eq_true hwaits
    have hs : c.state ≠ .exited := by rw [hw]; decide
    have hstate := c.woken_state retval
    refine h.replace hc ((c.woken_tid retval).trans (h.own tid c hc)) (c.woken_idle retval)
      (by rw [Jea9Linux.markRunnable_eq hc hs])
      (by rw [Jea9Linux.markRunnable_eq hc hs]; exact jos.dropDeadline_contextOrder c)
        (fun a t => ?_) fun kind hkind => ?_
    · rw [if_neg (show ¬ (c.woken retval).waitsAt a by simp [Context.waitsAt, hstate])]
      have hqa := h.queued a tid
      rw [Tidy.waitsAt_eq hc] at hqa
      by_cases haddr : a = addr
      · subst haddr
        rw [update_self, update_self]
        by_cases ht : t = tid
        · subst ht
          rw [if_pos rfl]
          omega
        · rw [if_neg ht, count_cons_of_ne (Ne.symm ht)]
      · rw [update_of_ne haddr] at hqa ⊢
        rw [update_of_ne haddr]
        by_cases ht : t = tid
        · subst ht
          rw [if_pos rfl, hqa, if_neg (by simp [Context.waitsAt, ha, Ne.symm haddr])]
        · rw [if_neg ht]
    · rw [if_neg (show ¬ (c.woken retval).timedFor kind by simp [Context.timedFor, hstate]),
        Jea9Linux.markRunnable_eq hc hs]
      exact h.dropDeadline_timed hc hkind

theorem Tidy.wakeAll {q : BitVec 64 → List Tid} {addr : BitVec 64} {rest : List Tid} (l : List Tid) {jos : Jea9Linux}
    (h : Tidy jos (Function.update q addr (l ++ rest))) :
    Tidy (l.foldl (fun jos tid => jos.markRunnable tid 0) jos) (Function.update q addr rest) := by
  induction l generalizing jos with
  | nil => exact h
  | cons tid l ih => exact ih (Tidy.wakeHead h 0)

theorem wakeAll_rest (l : List Tid) (jos : Jea9Linux) :
    (l.foldl (fun (jos : Jea9Linux) tid => jos.markRunnable tid 0) jos).currentTID = jos.currentTID ∧
    (l.foldl (fun (jos : Jea9Linux) tid => jos.markRunnable tid 0) jos).futexWaiters = jos.futexWaiters ∧
    (∀ t, jos.isRunnable t → (l.foldl (fun (jos : Jea9Linux) tid => jos.markRunnable tid 0) jos).isRunnable t) ∧
    Kept jos (l.foldl (fun (jos : Jea9Linux) tid => jos.markRunnable tid 0) jos) := by
  induction l generalizing jos with
  | nil => exact ⟨rfl, rfl, fun _ h => h, .refl jos⟩
  | cons tid l ih =>
    obtain ⟨hcur, hq, hrun, hkept⟩ := ih (jos.markRunnable tid 0)
    exact ⟨hcur.trans (Jea9Linux.markRunnable_currentTID tid 0), hq.trans (Jea9Linux.markRunnable_futexWaiters tid 0),
      fun t h => hrun t (Jea9Linux.markRunnable_isRunnable 0 h), (jos.markRunnable_kept tid 0).trans hkept⟩

theorem wakeFutex_advances (addr : BitVec 64) (limit : Int) :
    Advances jos (jos.wakeFutex addr limit).2 := by
  obtain ⟨hcur, hq, hrun, hkept⟩ := wakeAll_rest ((jos.futexWaiters addr).take limit.toNat) jos
  have hshorten : Advances jos { (((jos.futexWaiters addr).take limit.toNat).foldl
      (fun (jos : Jea9Linux) tid => jos.markRunnable tid 0) jos) with
        futexWaiters := Function.update (((jos.futexWaiters addr).take limit.toNat).foldl
          (fun (jos : Jea9Linux) tid => jos.markRunnable tid 0) jos).futexWaiters addr
            ((jos.futexWaiters addr).drop limit.toNat) } := by
    refine ⟨⟨fun h => ?_, hcur, hrun,
      ⟨hkept.timeMode, hkept.clockMode, hkept.clockPolicy, hkept.pid, hkept.calm, hkept.config⟩⟩,
      hkept.clock⟩
    have hsplit : Function.update jos.futexWaiters addr
        ((jos.futexWaiters addr).take limit.toNat ++ (jos.futexWaiters addr).drop limit.toNat) = jos.futexWaiters := by
      rw [take_append_drop, update_eq_self]
    have hwoken := Tidy.wakeAll ((jos.futexWaiters addr).take limit.toNat) (hsplit.symm ▸ h)
    rw [hq]
    exact ⟨hwoken.nodup, hwoken.keys, hwoken.own, hwoken.idle, hwoken.queued, hwoken.timed⟩
  exact hshorten.trans (.ite (Jea9Linux.unblock_same _).advances (.refl _))

theorem Tidy.extend {tid : Tid} {q : BitVec 64 → List Tid} {jos jos' : Jea9Linux} {c : Context} (h : Tidy jos q)
    (hfree : jos.contexts tid = none) (hown : c.tid = tid) (hstate : c.state ≠ .waiting) (hidle : c.Idle)
    (hctx : jos'.contexts = Function.update jos.contexts tid (some c))
    (horder : jos'.contextOrder = jos.contextOrder ++ [tid]) (htimed : jos'.timed = jos.timed) : Tidy jos' q := by
  have hself : jos'.contexts tid = some c := by rw [hctx, update_self]
  have hother : ∀ t, t ≠ tid → jos'.contexts t = jos.contexts t := fun t hne => by
    rw [hctx, update_of_ne hne]
  have hnew : tid ∉ jos.contextOrder := fun hmem => by
    have := (h.keys tid).mp hmem
    rw [hfree] at this
    cases this
  have hne : ∀ t ∈ jos.contextOrder, t ≠ tid := fun t ht heq => hnew (heq ▸ ht)
  refine ⟨?_, fun t => ?_, fun t ctx hc => ?_, fun t ctx hc => ?_, fun addr t => ?_, fun kind hk => ?_⟩
  · rw [horder]
    exact nodup_append.mpr ⟨h.nodup, by simp, by simpa using hne⟩
  · rw [horder, mem_append, mem_singleton, h.keys t]
    by_cases ht : t = tid
    · subst ht
      simp [hself]
    · rw [hother t ht]
      simp [ht]
  · by_cases ht : t = tid
    · subst ht
      rw [hself] at hc
      exact some.inj hc ▸ hown
    · exact h.own t ctx (hother t ht ▸ hc)
  · by_cases ht : t = tid
    · subst ht
      rw [hself] at hc
      exact some.inj hc ▸ hidle
    · exact h.idle t ctx (hother t ht ▸ hc)
  · rw [h.queued addr t]
    by_cases ht : t = tid
    · subst ht
      rw [Jea9Linux.waitsAt, Jea9Linux.waitsAt, hself, hfree]
      simp [Context.waitsAt, hstate]
    · rw [Jea9Linux.waitsAt, Jea9Linux.waitsAt, hother t ht]
  · have hzero : jos'.timedFor kind tid = false := by
      rw [Jea9Linux.timedFor, hself]
      simp [Context.timedFor, hstate]
    rw [htimed, h.timed kind hk, horder, countP_append, countP_singleton, hzero]
    simp only [Bool.false_eq_true, if_false, Nat.add_zero]
    refine List.countP_congr fun t ht => ?_
    rw [Jea9Linux.timedFor, Jea9Linux.timedFor, hother t (hne t ht)]

theorem freeTID_free {tid t : Tid} {jos : Jea9Linux} {fuel : Nat} (h : jos.freeTID fuel tid = some t) :
    jos.contexts t = none := by
  induction fuel generalizing tid with
  | zero => cases h
  | succ fuel ih =>
    rw [Jea9Linux.freeTID] at h
    split_ifs at h with hused
    · exact ih h
    · obtain rfl := some.inj h
      simpa using (not_or.mp hused).2

theorem startThread_advances {tid : Tid} (flags childStack tls childTIDAddr : BitVec 64) {s : Sys}
    (hfree : s.jos.contexts tid = none) (hs : s.jos.isRunnable s.jos.currentTID) :
    Advances s.jos (startThread tid flags childStack tls childTIDAddr s).jos := by
  have hadd : Advances s.jos { s.jos.setContext (cloneChild s tid flags childStack tls childTIDAddr) with
      contextOrder := s.jos.contextOrder ++ [tid] } := by
    refine ⟨⟨fun h => h.extend hfree rfl (c := cloneChild s tid flags childStack tls childTIDAddr)
      (show ContextState.runnable ≠ .waiting by decide) (fun _ => ⟨rfl, rfl⟩) rfl rfl rfl, rfl, fun t ht => ?_,
      ⟨rfl, rfl, rfl, rfl, fun _ h => h, rfl⟩⟩, fun _ => rfl⟩
    rw [Jea9Linux.isRunnable_eq_any] at ht ⊢
    show (Function.update s.jos.contexts tid _ t).any _ = true
    by_cases hne : t = tid
    · subst hne
      rw [hfree] at ht
      cases ht
    · rwa [update_of_ne hne]
  refine hadd.trans (Jea9Linux.modify_runnable_same (hadd.runnable _ hs) fun c hc => ?_).advances
  rw [Context.waitData, Context.waitData, hc]

theorem storeTID_leaves (addr : BitVec 64) (tid : Tid) : Call.Leaves (storeTID addr tid) :=
  .bind (.failIf _ _) fun _ => .mem _ _

theorem sysClone_advances (flags childStack parentTIDAddr tls childTIDAddr : BitVec 64) :
    Call.Advances (sysClone flags childStack parentTIDAddr tls childTIDAddr) := by
  refine .bind (.failIf _ _) fun _ => ?_
  intro s hs
  rw [gets_bind_run]
  cases hfree : s.jos.freeTID (2 ^ 64) s.jos.nextTID with
  | none => exact .refl s.jos
  | some tid =>
    have hctx := freeTID_free hfree
    have hnext : Advances s.jos { s.jos with nextTID := tid + 1 } :=
      SameWaits.advances (.of_eq rfl rfl)
    -- the two stores change guest memory only, so that the number is still free behind them
    have hstart : ∀ s' : Sys, s'.jos = { s.jos with nextTID := tid + 1 } →
        Advances s.jos (startThread tid flags childStack tls childTIDAddr s').jos := fun s' hj => by
      refine (hj ▸ hnext).trans (startThread_advances flags childStack tls childTIDAddr ?_ ?_)
      · rw [hj]
        exact hctx
      · rw [hj]
        exact hs
    have hjos : ∀ s' : Sys, s'.jos = { s.jos with nextTID := tid + 1 } →
        Advances s.jos s'.jos := fun s' hj => hj ▸ hnext
    have hparent := (storeTID_leaves parentTIDAddr tid).when (p := flags &&& cloneParentSetTID ≠ 0)
    have hchild := (storeTID_leaves childTIDAddr tid).when (p := flags &&& cloneChildSetTID ≠ 0)
    dsimp only
    rw [modify_bind_run]
    refine bind_cases (P := fun s' => Advances s.jos s'.jos) (fun _ s₁ h₁ => ?_) fun _ s₁ h₁ => ?_
    · have := hparent (s.mapJos fun jos => { jos with nextTID := tid + 1 })
      rw [h₁] at this
      exact hjos s₁ this
    · have hs₁ := hparent (s.mapJos fun jos => { jos with nextTID := tid + 1 })
      rw [h₁] at hs₁
      refine bind_cases (P := fun s' => Advances s.jos s'.jos) (fun _ s₂ h₂ => ?_) fun _ s₂ h₂ => ?_
      · have := hchild s₁
        rw [h₂] at this
        exact hjos s₂ (this.trans hs₁)
      · have hs₂ := hchild s₁
        rw [h₂] at hs₂
        exact hstart s₂ (hs₂.trans hs₁)

end RiscvEmu.Linux
