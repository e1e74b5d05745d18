/-
Every call leaves the threads tidy, and a thread to run.

A call that blocks, yields or ends its thread gives the hart to another context. `Settled` is what such a call owes:
queues and counters agree with the contexts, and if the guest goes on, the current context can run. From the calls it
carries over to the scheduler's own steps, and so to every state that is reached (`Reached.tidy`).
-/
import RiscvEmu.Linux.Queues

namespace RiscvEmu.Linux

open Function Call List

variable {s s' : Sys}

/-! ## Switching, blocking and ending -/

/-- queues and counters are right, and only a chaotic personality has chaos windows -/
structure Orderly (jos : Jea9Linux) : Prop where
  queues : Tidy jos jos.futexWaiters
  calm : jos.clockPolicy ≠ .chaos → jos.chaosActive = false

def Sys.Tidy (s : Sys) : Prop := Orderly s.jos

/-- queues and counters are right, and the current thread can run -/
structure Sys.Running (s : Sys) : Prop where
  tidy : s.Tidy
  runnable : s.jos.isRunnable s.jos.currentTID

theorem SameSettings.orderly {jos jos' : Jea9Linux} (h : SameSettings jos jos') (hjos : Orderly jos)
    (hqueues : Tidy jos' jos'.futexWaiters) : Orderly jos' := by
  refine ⟨hqueues, fun hp => ?_⟩
  rw [h.clockPolicy] at hp
  exact h.calm hp (hjos.calm hp)

theorem Moves.keeps (h : Moves s.jos s'.jos) (hs : s.Tidy) : s'.Tidy :=
  h.settings.orderly hs (h.tidy hs.queues)

theorem Advances.keeps (h : Advances s.jos s'.jos) (hs : s.Tidy) : s'.Tidy := h.toMoves.keeps hs

theorem Moves.running (h : Moves s.jos s'.jos) (hs : s.Running) : s'.Running :=
  ⟨h.keeps hs.tidy, h.current ▸ h.runnable _ hs.runnable⟩

theorem Advances.running (h : Advances s.jos s'.jos) (hs : s.Running) : s'.Running := h.toMoves.running hs

theorem loadContext_running {tid : Tid} (h : s.Tidy) (hr : s.jos.isRunnable tid) : (s.loadContext tid).Running := by
  obtain ⟨c, hc, hs⟩ := Jea9Linux.exists_of_isRunnable hr
  have hsame : SameWaits s.jos (s.jos.modifyContext tid completeContextEcallTrap) :=
    .modifyContext s.jos tid completeContextEcallTrap_waitData
  have htidy := hsame.tidy h.queues
  have hload : s.loadContext tid
      = { jos := { s.jos.modifyContext tid completeContextEcallTrap with currentTID := tid, tid := tid }
          cpu := (restoreCPU s.cpu (completeContextEcallTrap c).snapshot).clearReservation } := by
    unfold Sys.loadContext
    rw [hc]
    dsimp only
    rw [if_neg (not_not.mpr hs)]
  rw [hload]
  refine ⟨⟨⟨htidy.nodup, htidy.keys, htidy.own, htidy.idle, htidy.queued, htidy.timed⟩, h.calm⟩, ?_⟩
  show Jea9Linux.isRunnable _ tid
  rw [Jea9Linux.isRunnable_eq_any, ← Jea9Linux.isRunnable_eq_any, ← hr, ← hsame.isRunnable_eq tid,
    Jea9Linux.isRunnable_eq_any, Jea9Linux.isRunnable_eq_any]

theorem selectable_isRunnable {jos : Jea9Linux} {tid : Tid} (h : jos.selectable tid) : jos.isRunnable tid := by
  unfold Jea9Linux.selectable at h
  unfold Jea9Linux.isRunnable
  cases hc : jos.contexts tid with
  | none => rw [hc] at h; cases h
  | some c =>
    rw [hc] at h
    exact decide_eq_true (of_decide_eq_true h).1

/-- what a search for a context returns: a personality that differs in its chaos window, and a thread
that can run -/
structure Found (jos : Jea9Linux) (r : Option Tid × Jea9Linux) : Prop where
  same : SameWaits jos r.2
  runnable : ∀ tid, r.1 = some tid → r.2.isRunnable tid

variable (jos : Jea9Linux)

theorem nextRunnable_found : Found jos jos.nextRunnableByPolicyAfterCurrent := by
  refine ⟨jos.refreshChaosWindow_same, fun tid h => ?_⟩
  have := find?_some h
  exact selectable_isRunnable (of_decide_eq_true this).2

theorem firstRunnable_found : Found jos jos.firstRunnableByPolicy :=
  ⟨jos.refreshChaosWindow_same, fun _ h => selectable_isRunnable (find?_some h)⟩

/-- what a call leaves: queues and counters are right, and if the guest goes on, a thread that can run
is loaded -/
structure Settled (r : NoteDisposition × Sys) : Prop where
  tidy : r.2.Tidy
  runnable : r.1 = .handled → r.2.jos.isRunnable r.2.jos.currentTID

theorem Sys.Running.settled (h : s.Running) (d : NoteDisposition) : Settled (d, s) := ⟨h.tidy, fun _ => h.runnable⟩

namespace Sys

variable {s : Sys}

/-- what a search for a thread to load leaves -/
structure Loaded (r : Bool × Sys) : Prop where
  tidy : r.2.Tidy
  running : r.1 = true → r.2.Running

theorem loadIfFound_loaded {r : Option Tid × Jea9Linux} (h : s.Tidy) (hr : Found s.jos r) :
    Loaded (s.loadIfFound r) := by
  obtain ⟨_ | tid, jos⟩ := r
  · exact ⟨hr.same.advances.keeps h, fun hfalse => by cases hfalse⟩
  · have hrun := loadContext_running (s := { s with jos := jos }) (hr.same.advances.keeps h) (hr.runnable tid rfl)
    exact ⟨hrun.tidy, fun _ => hrun⟩

theorem loadUnblocked_loaded {r : Option Tid × Jea9Linux} (h : s.Tidy) (hr : Found s.jos r) :
    Loaded (s.loadUnblocked r) := by
  obtain ⟨_ | tid, jos⟩ := r
  · exact ⟨hr.same.advances.keeps h, fun hfalse => by cases hfalse⟩
  · have hrun := loadContext_running (s := { s with jos := jos }) (hr.same.advances.keeps h) (hr.runnable tid rfl)
    have hunblock : ((loadContext { s with jos := jos } tid).mapJos Jea9Linux.unblock).Running :=
      (Jea9Linux.unblock_same _).advances.running hrun
    exact ⟨hunblock.tidy, fun _ => hunblock⟩

theorem goOnOr_settled {r : Bool × Sys} {k : Sys → NoteDisposition × Sys} (hr : Loaded r)
    (hk : r.2.Tidy → Settled (k r.2)) : Settled (goOnOr r k) := by
  unfold goOnOr
  by_cases h : r.1
  · rw [if_pos h]
    exact (hr.running h).settled .handled
  · rw [if_neg h]
    exact hk hr.tidy

theorem reportBlocked_settled (h : s.Tidy) : Settled s.reportBlocked := by
  refine ⟨?_, fun hd => by cases hd⟩
  have hsame : SameWaits s.jos s.reportBlocked.2.jos :=
    .of_eq rfl rfl
  exact hsame.advances.keeps h

variable (env : Env)

theorem loadFirstRunnable_loaded (h : s.Tidy) : Loaded s.loadFirstRunnableAfterBlocked :=
  loadUnblocked_loaded h (firstRunnable_found s.jos)

theorem scheduleAtDeadline_settled (h : s.Tidy) : Settled (s.scheduleAtDeadline env) := by
  have hclock := s.jos.advanceVirtualClockWhenNoRunnableCandidate_moves env
  unfold scheduleAtDeadline
  split
  · exact goOnOr_settled (loadFirstRunnable_loaded (hclock.keeps h)) reportBlocked_settled
  · exact reportBlocked_settled h

theorem scheduleNext_settled (h : s.Tidy) : Settled (s.scheduleNext env) :=
  goOnOr_settled (loadUnblocked_loaded h (nextRunnable_found s.jos)) (scheduleAtDeadline_settled env)

theorem scheduleAfterCurrentBlocked_settled (h : s.Tidy) : Settled (s.scheduleAfterCurrentBlocked env) := by
  unfold scheduleAfterCurrentBlocked
  cases s.jos.timeMode with
  | hermitTime => exact scheduleNext_settled env h
  | realTime =>
    have hwake :=
        (s.drainExternalEvents_advances env).trans ((s.drainExternalEvents env).jos.refreshBlocked_advances env)
    exact goOnOr_settled (loadFirstRunnable_loaded (hwake.keeps h)) (scheduleNext_settled env)

end Sys

/-! ## Beginning to wait -/

namespace Jea9Linux

variable (jos : Jea9Linux) (kind : WaitKind)

theorem addTimed_timed (k : WaitKind) (hk : k ≠ .none) :
    (jos.addTimed kind).timed k = if k = kind then jos.timed k + 1 else jos.timed k := by
  cases kind <;> cases k <;> first | rfl | exact absurd rfl hk

@[simp] theorem addTimed_contexts : (jos.addTimed kind).contexts = jos.contexts := by cases kind <;> rfl
@[simp] theorem addTimed_contextOrder : (jos.addTimed kind).contextOrder = jos.contextOrder := by
  cases kind <;> rfl
@[simp] theorem addTimed_futexWaiters : (jos.addTimed kind).futexWaiters = jos.futexWaiters := by
  cases kind <;> rfl

/-- the counters with the deadline of a new wait -/
def addDeadline (w : Wait) : Jea9Linux := if w.deadline.isSome then jos.addTimed w.kind else jos

variable (w : Wait)

@[simp] theorem addDeadline_contexts : (jos.addDeadline w).contexts = jos.contexts := by
  unfold addDeadline
  split_ifs <;> simp
@[simp] theorem addDeadline_contextOrder : (jos.addDeadline w).contextOrder = jos.contextOrder := by
  unfold addDeadline
  split_ifs <;> simp
@[simp] theorem addDeadline_futexWaiters : (jos.addDeadline w).futexWaiters = jos.futexWaiters := by
  unfold addDeadline
  split_ifs <;> simp

@[simp] theorem addDeadline_currentTID : (jos.addDeadline w).currentTID = jos.currentTID := by
  unfold addDeadline
  split_ifs
  · cases w.kind <;> rfl
  · rfl

theorem addDeadline_timed (k : WaitKind) (hk : k ≠ .none) :
    (jos.addDeadline w).timed k = jos.timed k + (if k = w.kind ∧ w.deadline.isSome then 1 else 0) := by
  unfold addDeadline
  by_cases hd : w.deadline.isSome
  · rw [if_pos hd, addTimed_timed _ _ _ hk]
    by_cases hkind : k = w.kind <;> simp [hkind, hd]
  · rw [if_neg hd]
    simp [hd]

variable (tid : Tid)

theorem enqueue_count (w : Wait) (addr : BitVec 64) (t : Tid) :
    ((jos.enqueue tid w).futexWaiters addr).count t
      = (jos.futexWaiters addr).count t + (if w.kind = .futex ∧ addr = w.addr ∧ t = tid then 1 else 0) := by
  unfold enqueue
  by_cases hk : w.kind = .futex
  · rw [if_pos hk]
    show (update jos.futexWaiters w.addr _ addr).count t = _
    by_cases ha : addr = w.addr
    · subst ha
      rw [update_self, count_append, count_singleton]
      by_cases ht : t = tid
      · subst ht
        simp [hk]
      · simp [hk, ht, Ne.symm ht]
    · rw [update_of_ne ha]
      simp [ha]
  · rw [if_neg hk]
    simp [hk]

/-- the context of the thread once it waits for `w` -/
def parked (c : Context) (w : Wait) : Context := ({ c with state := .waiting } : Context).clearWait.waitFor w

@[simp] theorem enqueue_contexts (w : Wait) : (jos.enqueue tid w).contexts = jos.contexts := by
  unfold enqueue
  split_ifs <;> rfl
@[simp] theorem enqueue_contextOrder (w : Wait) : (jos.enqueue tid w).contextOrder = jos.contextOrder := by
  unfold enqueue
  split_ifs <;> rfl
@[simp] theorem enqueue_currentTID (w : Wait) : (jos.enqueue tid w).currentTID = jos.currentTID := by
  unfold enqueue
  split_ifs <;> rfl
@[simp] theorem enqueue_timed (w : Wait) : (jos.enqueue tid w).timed = jos.timed := by
  unfold enqueue
  split_ifs <;> rfl

variable {jos} {tid : Tid} {c : Context}

theorem park_tidy (h : Tidy jos jos.futexWaiters) (hc : jos.contexts tid = some c) (hs : c.state = .runnable)
    (w : Wait) :
    let jos' : Jea9Linux := { jos with contexts := update jos.contexts tid (some (parked c w)) }
    Tidy ((jos'.enqueue tid w).addDeadline w) ((jos'.enqueue tid w).addDeadline w).futexWaiters := by
  intro jos'
  refine h.replace hc (show (parked c w).tid = tid from h.own _ c hc) (fun hnot => absurd rfl hnot) ?_ ?_
    (fun addr t => ?_) fun kind hk => ?_
  · rw [addDeadline_contexts, enqueue_contexts]
  · rw [addDeadline_contextOrder, enqueue_contextOrder]
  · rw [addDeadline_futexWaiters, enqueue_count]
    show (jos.futexWaiters addr).count t + _ = _
    by_cases ht : t = tid
    · subst ht
      have hidle : c.waitsAt addr = false := by simp [Context.waitsAt, hs]
      rw [if_pos rfl, h.queued addr t, Tidy.waitsAt_eq hc, hidle]
      by_cases hk : w.kind = .futex
      · by_cases ha : addr = w.addr
        · simp [parked, Context.waitsAt, Context.waitFor, Context.clearWait, hk, ha]
        · simp [parked, Context.waitsAt, Context.waitFor, Context.clearWait, ha, Ne.symm ha]
      · simp [parked, Context.waitsAt, Context.waitFor, Context.clearWait, hk]
    · rw [if_neg ht]
      simp [ht]
  · rw [addDeadline_timed _ _ _ hk, enqueue_timed, if_neg (show ¬ c.timedFor kind by simp [Context.timedFor, hs])]
    show jos.timed kind + _ + 0 = _
    by_cases hkind : kind = w.kind
    · subst hkind
      simp [parked, Context.timedFor, Context.waitFor, Context.clearWait]
    · simp [parked, Context.timedFor, Context.waitFor, Context.clearWait, hkind, Ne.symm hkind]

theorem addDeadline_kept (jos : Jea9Linux) (w : Wait) : Kept jos (jos.addDeadline w) := by
  unfold addDeadline
  split_ifs
  · cases w.kind <;> exact .of_eq rfl
  · exact .refl jos

theorem enqueue_kept (jos : Jea9Linux) (tid : Tid) (w : Wait) : Kept jos (jos.enqueue tid w) := by
  unfold enqueue
  split_ifs
  · exact .of_eq rfl
  · exact .refl jos

theorem park_kept (jos : Jea9Linux) (contexts : Tid → Option Context) (w : Wait) :
    Kept jos ((({ jos with contexts := contexts } : Jea9Linux).enqueue jos.currentTID w).addDeadline w) :=
  (((Kept.refl jos).withContexts contexts).trans (enqueue_kept _ _ w)).trans (addDeadline_kept _ w)

/-- the wait fields of a thread that can run are empty, so that no counter goes down when it begins to wait -/
theorem beginWait_eq (h : Tidy jos jos.futexWaiters) (hc : jos.contexts jos.currentTID = some c)
    (hs : c.state = .runnable) (w : Wait) :
    jos.beginWait w = (({ jos with contexts := update jos.contexts jos.currentTID (some (parked c w)) } :
      Jea9Linux).enqueue jos.currentTID w).addDeadline w := by
  obtain ⟨-, hdl⟩ := h.idle _ c hc (by rw [hs]; decide)
  have hclear :
      (jos.modifyContext jos.currentTID fun c => { c with state := .waiting }).clearContextWaitFields jos.currentTID
      = { jos with
          contexts := update jos.contexts jos.currentTID
            (some ({ c with state := .waiting } : Context).clearWait) } := by
    rw [modifyContext_eq hc, clearContextWaitFields_eq (update_self ..), dropDeadline,
      if_neg (show ¬ (c.waitHasDeadline = true) by rw [hdl]; decide)]
    simp only [update_idem]
  unfold beginWait
  dsimp only
  rw [hclear, modifyContext_eq (update_self ..)]
  simp only [update_idem]
  rfl

end Jea9Linux

theorem Sys.beginWait_tidy (h : s.Running) (w : Wait) : (s.beginWait w).Tidy := by
  have hsave := s.saveCurrent_same.advances.running h
  obtain ⟨c, hc, hs⟩ := Jea9Linux.exists_of_isRunnable hsave.runnable
  show Orderly (s.saveCurrent.jos.beginWait w)
  rw [Jea9Linux.beginWait_eq hsave.tidy.queues hc hs]
  exact (Jea9Linux.park_kept _ _ w).toSameSettings.orderly hsave.tidy (Jea9Linux.park_tidy hsave.tidy.queues hc hs w)

/-! ## The calls that return -/

section Settle

variable {s : Sys}

theorem Call.Advances.running {α : Type} {m : Call α} (h : Call.Advances m) (hs : s.Running) : (m s).2.Running :=
  Linux.Advances.running (h s hs.runnable) hs

theorem SameWaits.running {s' : Sys} (h : SameWaits s.jos s'.jos) (hs : s.Running) : s'.Running := h.advances.running hs

theorem Sys.Running.ensureScheduler (h : s.Running) : s.ensureScheduler.Running :=
  (Sys.ensureScheduler_same h.runnable).running h

theorem Sys.Running.ensureScheduler_advances (h : s.Running) : Advances s.jos s.ensureScheduler.jos :=
  (Sys.ensureScheduler_same h.runnable).advances

theorem Sys.Running.saveCurrent (h : s.Running) : s.saveCurrent.Running := s.saveCurrent_same.running h

theorem Sys.Running.setReg (h : s.Running) (r : BitVec 5) (v : BitVec 64) :
    (s.setReg r v).Running := ⟨h.tidy, h.runnable⟩

theorem Advances.settled {r : NoteDisposition × Sys} (h : Advances s.jos r.2.jos) (hs : s.Running) : Settled r :=
  (h.running hs).settled r.1

theorem return_advances (s : Sys) (v : BitVec 64) : Advances s.jos (s.return v).2.jos := .refl s.jos

theorem returnSaved_advances (s : Sys) (v : BitVec 64) : Advances s.jos (s.returnSaved v).2.jos :=
  (s.setReg 10 v).saveCurrent_same.advances

theorem return_settled (h : s.Running) (v : BitVec 64) : Settled (s.return v) := (return_advances s v).settled h

theorem returnSaved_settled (h : s.Running) (v : BitVec 64) : Settled (s.returnSaved v) :=
  (returnSaved_advances s v).settled h

theorem answer_advances {c : Call (BitVec 64)} (hc : Call.Advances c) (h : s.Running) :
    Advances s.jos (s.answer c).2.jos := by
  have hrun := hc s h.runnable
  rw [← result_snd] at hrun
  exact hrun

/-! ## The calls that wait -/

/-- run by a thread that can run, the handler makes the thread wait, or fails and lets it run -/
def Call.Blocks {α : Type} (m : Call α) : Prop :=
  ∀ s : Sys, s.Running → (∀ a, (m s).1 = .ok a → (m s).2.Tidy) ∧ ∀ e, (m s).1 = .error e → (m s).2.Running

theorem Call.Blocks.bind_running {α β : Type} {m : Call α} {k : α → Call β}
    (hm : ∀ s : Sys, s.Running → (m s).2.Running)
    (hk : ∀ a, Call.Blocks (k a)) : Call.Blocks (m >>= k) := by
  intro s hs
  have hrun := hm s hs
  cases hms : m s with
  | mk r s' =>
    rw [hms] at hrun
    cases r with
    | error e =>
      rw [Exec.bind_of_error hms]
      exact ⟨fun a ha => (nomatch ha), fun _ _ => hrun⟩
    | ok a =>
      rw [Exec.bind_of_ok hms]
      exact hk a s' hrun

theorem Call.Blocks.bind {α β : Type} {m : Call α} {k : α → Call β} (hm : Call.Advances m)
    (hk : ∀ a, Call.Blocks (k a)) :
    Call.Blocks (m >>= k) := .bind_running (fun _ hs => hm.running hs) hk

theorem beginWait_blocks (w : Wait) : Call.Blocks (Exec.modify (Sys.beginWait w) : Call Unit) :=
  fun _ hs => ⟨fun _ _ => Sys.beginWait_tidy hs w, fun _ he => (nomatch he)⟩

variable (env : Env) (sv : Services)

theorem syncRealClock_callAdvances :
    Call.Advances (Exec.modify fun s : Sys => s.mapJos fun jos => jos.syncRealClock env : Call Unit) :=
  .modify fun s _ => (s.jos.syncRealClock_same env).advances

variable (timeoutAddr : BitVec 64)

theorem timespecDeadline_advances : Call.Advances (timespecDeadline env timeoutAddr) :=
  .bind (syncRealClock_callAdvances env) fun _ => .bind (.mem _ _) fun _ => .bind (.mem _ _) fun _ =>
    .bind (.failIf _ _) fun _ => .bind (.gets _) fun _ => .pure _

theorem futexDeadline_advances : Call.Advances (futexDeadline env timeoutAddr) :=
  .ite (.pure _) (.bind (timespecDeadline_advances env timeoutAddr) fun _ => .pure _)

theorem advanceIfAlone_moves (jos : Jea9Linux) (deadline : Int) : Moves jos (jos.advanceIfAlone env deadline).2 := by
  have hfound := (nextRunnable_found jos).same.advances.toMoves
  unfold Jea9Linux.advanceIfAlone
  generalize jos.nextRunnableByPolicyAfterCurrent = r at hfound
  obtain ⟨_ | tid, jos'⟩ := r
  · exact hfound.trans (jos'.advanceVirtualClockTowardDeadline_moves env deadline)
  · exact hfound

theorem advanceToDeadline_moves (jos : Jea9Linux) (deadline : Option Int) :
    Moves jos (jos.advanceToDeadline env deadline).2 := by
  cases deadline with
  | none => exact (Advances.refl jos).toMoves
  | some d => exact advanceIfAlone_moves env jos d

variable (addr : BitVec 64)

theorem futexWait_blocks (expected : BitVec 32) (timeoutAddr : BitVec 64) :
    Call.Blocks (futexWait env addr expected timeoutAddr) :=
  .bind (.failIf _ _) fun _ => .bind (.mem _ _) fun _ => .bind (.failIf _ _) fun _ =>
    .bind (futexDeadline_advances env timeoutAddr) fun deadline => .bind (.gets _) fun _ => .bind (.failIf _ _) fun _ =>
    .bind_running (fun s hs => (advanceToDeadline_moves env s.jos deadline).running hs) fun _ => .bind
      (.failIf _ _) fun _ =>
    beginWait_blocks _

theorem sysFutex_settled (h : s.Running) (addr op val timeoutAddr : BitVec 64) :
    Settled (sysFutex env addr op val timeoutAddr s) := by
  have hs := h.ensureScheduler
  unfold sysFutex
  dsimp only
  split_ifs with hwait hwake
  · have hblock := futexWait_blocks env addr (val.setWidth 32) timeoutAddr _ hs
    generalize futexWait env addr (val.setWidth 32) timeoutAddr s.ensureScheduler = r at hblock
    obtain ⟨errno | _, s'⟩ := r
    · exact returnSaved_settled (hblock.2 errno rfl) errno
    · exact Sys.scheduleAfterCurrentBlocked_settled env (hblock.1 () rfl)
  · exact returnSaved_settled (s := { s.ensureScheduler with jos := _ })
      ((wakeFutex_advances _ addr val.toInt).running hs) _
  · exact returnSaved_settled hs _

theorem block_settled (h : s.Running) (w : Wait) : Settled ((s.beginWait w).scheduleAfterCurrentBlocked env) :=
  Sys.scheduleAfterCurrentBlocked_settled env (Sys.beginWait_tidy h w)

theorem sysEpollPwait_settled (h : s.Running) (epfd eventsAddr maxEvents timeoutRaw : BitVec 64) :
    Settled (sysEpollPwait env epfd eventsAddr maxEvents timeoutRaw s) := by
  have hs : (s.drainExternalEvents env).ensureScheduler.Running :=
    ((s.drainExternalEvents_advances env).running h).ensureScheduler
  have hcollect :=
      (epollCollectReady_onlyEpolls env epfd eventsAddr maxEvents (s.drainExternalEvents env).ensureScheduler).same
  unfold sysEpollPwait
  generalize epollCollectReady env epfd eventsAddr maxEvents (s.drainExternalEvents env).ensureScheduler = r at hcollect
  obtain ⟨errno | n, s'⟩ := r
  · exact returnSaved_settled (hcollect.running hs) errno
  · have hs' : s'.Running := hcollect.running hs
    have hclock : Moves s'.jos ((s'.jos.epollDeadline env timeoutRaw).2.advanceToDeadline env
        (s'.jos.epollDeadline env timeoutRaw).1).2 :=
      (s'.jos.syncRealClock_same env).advances.toMoves.trans (advanceToDeadline_moves env _ _)
    dsimp only
    split_ifs with hready hreached
    · exact returnSaved_settled hs' _
    · exact returnSaved_settled (hclock.running hs') 0
    · exact block_settled env (hclock.running hs') _

theorem sysPselect6_settled (h : s.Running) (timeoutAddr : BitVec 64) : Settled (sysPselect6 env timeoutAddr s) := by
  have hdeadline := (timespecDeadline_advances env timeoutAddr).running h
  unfold sysPselect6
  split_ifs with hzero
  · exact return_settled h 0
  · generalize timespecDeadline env timeoutAddr s = r at hdeadline
    obtain ⟨errno | deadline, s'⟩ := r
    · exact return_settled hdeadline errno
    · have hs' := hdeadline.ensureScheduler
      have hclock := @Moves.running _ { s'.ensureScheduler with jos := _ }
        (advanceIfAlone_moves env s'.ensureScheduler.jos deadline) hs'
      dsimp only
      split_ifs with hpast hreached
      · exact return_settled hdeadline 0
      · exact returnSaved_settled hclock 0
      · exact block_settled env hclock _

theorem sleepTime_advances (reqAddr : BitVec 64) : Call.Advances (sleepTime env reqAddr) :=
  .bind (syncRealClock_callAdvances env) fun _ => .bind (.mem _ _) fun _ => .bind (.mem _ _) fun _ =>
    .bind (.failIf _ _) fun _ => .bind (.gets _) fun jos => by
      cases jos.nanosleepMode <;> exact .pure _

theorem sysNanosleep_settled (h : s.Running) (reqAddr : BitVec 64) : Settled (sysNanosleep env reqAddr s) := by
  have hsleep := (sleepTime_advances env reqAddr).running h
  unfold sysNanosleep
  generalize sleepTime env reqAddr s = r at hsleep
  obtain ⟨errno | advance, s'⟩ := r
  · exact return_settled hsleep errno
  · dsimp only
    split_ifs with hnone
    · exact return_settled hsleep 0
    · exact block_settled env hsleep.ensureScheduler _

/-! ## Yielding and ending -/

theorem Sys.Running.keepRunning (h : s.Running) : s.keepRunning.Running := (Sys.keepRunning_same h.runnable).running h

theorem Sys.loadIfFound_running {r : Option Tid × Jea9Linux} (h : s.Running) (hr : Found s.jos r) :
    (s.loadIfFound r).2.Running := by
  obtain ⟨_ | tid, jos⟩ := r
  · exact @SameWaits.running s { s with jos := jos } hr.same h
  · exact (Sys.loadIfFound_loaded h.tidy hr).running rfl

theorem sysSchedYield_settled (h : s.Running) : Settled (sysSchedYield env s) := by
  have hs : (s.ensureScheduler.setReg 10 0).keepRunning.saveCurrent.Running :=
    (h.ensureScheduler.setReg 10 0).keepRunning.saveCurrent
  have hclock := @Moves.running _
    (Sys.mapJos (s.ensureScheduler.setReg 10 0).keepRunning.saveCurrent fun jos =>
      jos.advanceIdleClockToNextDeadline env)
    (Jea9Linux.advanceIdleClock_moves (s.ensureScheduler.setReg 10 0).keepRunning.saveCurrent.jos env) hs
  exact (Sys.loadIfFound_running hclock (nextRunnable_found _)).settled .handled

theorem sysSetTidAddress_advances (h : s.Running) (addr : BitVec 64) :
    Advances s.jos (sysSetTidAddress addr s).2.jos := by
  have hset : SameWaits s.ensureScheduler.jos (s.ensureScheduler.mapJos fun jos =>
      jos.modifyContext jos.currentTID fun c => { c with clearChildTID := addr }).jos :=
    .modifyContext s.ensureScheduler.jos _ fun _ => rfl
  exact h.ensureScheduler_advances.trans (hset.trans (Sys.saveCurrent_same _)).advances

/-- a context of which the thread has ended -/
def Context.ended (c : Context) : Context := { c with state := .exited }

theorem Tidy.exit {jos : Jea9Linux} {tid : Tid} (h : Linux.Tidy jos jos.futexWaiters) :
    let jos' := (jos.cancelContextWait tid).modifyContext tid Context.ended
    Linux.Tidy jos' jos'.futexWaiters := by
  intro jos'
  cases hc : jos.contexts tid with
  | none =>
    have hjos : jos' = jos := by
      have hcancel : jos.cancelContextWait tid = jos := by rw [Jea9Linux.cancelContextWait, hc]
      show (jos.cancelContextWait tid).modifyContext tid Context.ended = jos
      rw [hcancel, Jea9Linux.modifyContext_none hc]
    rw [hjos]
    exact h
  | some c =>
    have hjos : jos' = { jos.detach tid c with
        contexts := update jos.contexts tid (some c.clearWait.ended) } := by
      show (jos.cancelContextWait tid).modifyContext tid Context.ended = _
      rw [Jea9Linux.cancelContextWait_eq hc, Jea9Linux.modifyContext_eq (update_self ..)]
      simp only [update_idem]
    rw [hjos]
    exact h.detach hc (show c.clearWait.ended.tid = tid from h.own _ c hc)
      (show ContextState.exited ≠ .waiting by decide)
      (fun _ => ⟨rfl, rfl⟩) rfl (Jea9Linux.detach_contextOrder tid c) rfl rfl

theorem exited_orderly {jos : Jea9Linux} (h : Orderly jos) :
    Orderly ((jos.cancelContextWait jos.currentTID).modifyContext jos.currentTID Context.ended) := by
  have hkept : Kept jos (jos.cancelContextWait jos.currentTID) := by
    cases hc : jos.contexts jos.currentTID with
    | none =>
      rw [Jea9Linux.cancelContextWait, hc]
      exact .refl jos
    | some c =>
      rw [Jea9Linux.cancelContextWait_eq hc]
      exact (Jea9Linux.detach_kept _ c).withContexts _
  have hended : Kept (jos.cancelContextWait jos.currentTID)
      ((jos.cancelContextWait jos.currentTID).modifyContext jos.currentTID Context.ended) :=
    .of_eq rfl
  exact (hkept.trans hended).toSameSettings.orderly h (Tidy.exit h.queues)

theorem clearChildTID_tidy (h : s.Tidy) (addr : BitVec 64) : (clearChildTID addr s).Tidy := by
  have hmem := mem_jos errEFAULT (GuestMemory.store32 addr 0) s
  unfold clearChildTID
  split_ifs with hzero
  · exact h
  · generalize mem errEFAULT (GuestMemory.store32 addr 0) s = r at hmem
    have hs' : r.2.Tidy := by
      unfold Sys.Tidy
      rw [hmem]
      exact h
    obtain ⟨errno | _, s'⟩ := r
    · exact hs'
    · exact (wakeFutex_advances s'.jos addr 1).keeps hs'

theorem exitCurrentThread_tidy (h : s.Running) : (exitCurrentThread s).Tidy := by
  have hended : (s.ensureScheduler.saveCurrent.mapJos fun jos =>
      (jos.cancelContextWait jos.currentTID).modifyContext jos.currentTID Context.ended).Tidy :=
    exited_orderly h.ensureScheduler.saveCurrent.tidy
  exact clearChildTID_tidy hended _

theorem exitProcess_settled (h : s.Tidy) (code : BitVec 64) : Settled (s.exitProcess code) := by
  have hsame : SameWaits s.jos (s.exitProcess code).2.jos := .of_eq rfl rfl
  exact ⟨hsame.advances.keeps h, fun hd => (nomatch hd)⟩

theorem sysExit_settled (h : s.Running) (code : BitVec 64) (exitGroup : Bool) : Settled (sysExit code exitGroup s) := by
  unfold sysExit
  dsimp only
  split_ifs with hgroup
  · exact exitProcess_settled h.ensureScheduler.tidy code
  · exact Sys.goOnOr_settled (Sys.loadIfFound_loaded (exitCurrentThread_tidy h.ensureScheduler) (nextRunnable_found _))
      fun htidy => exitProcess_settled htidy code

/-! ## Signal calls -/

theorem sysRtSigprocmask_advances (h : s.Running) (how setAddr oldAddr sigsetSize : BitVec 64) :
    Advances s.jos (sysRtSigprocmask how setAddr oldAddr sigsetSize s).2.jos := by
  have hprepare := prepareSigprocmask_advances how setAddr oldAddr sigsetSize _ h.ensureScheduler.runnable
  refine h.ensureScheduler_advances.trans ?_
  have hrun := hprepare.running h.ensureScheduler
  unfold sysRtSigprocmask
  generalize prepareSigprocmask how setAddr oldAddr sigsetSize s.ensureScheduler = r at hprepare hrun
  obtain ⟨errno | _, s'⟩ := r
  · exact hprepare
  · have hdeliver := onCurrent_advances (fun ctx => deliverPending_advances ctx [] ctx.pendingSignals) (s'.setReg 10 0)
      (hrun.setReg 10 0).runnable
    refine hprepare.trans ?_
    dsimp only
    unfold deliverPendingSignals
    generalize onCurrent (fun ctx => deliverPending ctx [] ctx.pendingSignals) (s'.setReg 10 0) = r at hdeliver
    obtain ⟨errno | _ | _, s''⟩ := r
    · exact hdeliver.trans (returnSaved_advances s'' errno)
    · exact hdeliver.trans s''.saveCurrent_same.advances
    · exact hdeliver

theorem signalTIDSyscall_advances (h : s.Running) (tid sig : BitVec 64) :
    Advances s.jos (signalTIDSyscall tid sig s).2.jos := by
  have hs := h.ensureScheduler_advances
  unfold signalTIDSyscall
  split
  · exact return_advances s errEINVAL
  · dsimp only
    split
    · exact hs
    · rename_i ctx hctx
      split
      · exact hs
      · have hsignal := signalContext_advances ctx sig
          { signo := sig, code := 0, pid := s.ensureScheduler.jos.pid, uid := 0, addr := 0 }
            _ h.ensureScheduler.runnable
        refine hs.trans ?_
        generalize signalContext ctx sig _ s.ensureScheduler = r at hsignal
        obtain ⟨errno | delivered, s'⟩ := r
        · exact hsignal
        · dsimp only
          split_ifs
          · exact hsignal
          · exact hsignal.trans (returnSaved_advances s' 0)

theorem sysKill_advances (h : s.Running) (pid sig : BitVec 64) : Advances s.jos (sysKill pid sig s).2.jos := by
  unfold sysKill
  split_ifs
  · exact return_advances s 0
  · exact return_advances s errESRCH
  · exact signalTIDSyscall_advances h _ sig

theorem sysTkill_advances (h : s.Running) (tid sig : BitVec 64) : Advances s.jos (sysTkill tid sig s).2.jos := by
  unfold sysTkill
  split_ifs
  · exact return_advances s 0
  · exact signalTIDSyscall_advances h tid sig

theorem sysTgkill_advances (h : s.Running) (pid tid sig : BitVec 64) :
    Advances s.jos (sysTgkill pid tid sig s).2.jos := by
  unfold sysTgkill
  split_ifs
  · exact return_advances s 0
  · exact return_advances s errESRCH
  · exact signalTIDSyscall_advances h tid sig

theorem restoreFrame_same (key : SignalFrameKey) (snap : CPUSnapshot) (mask : BitVec 64) (s : Sys) :
    SameWaits s.jos (restoreFrame key snap mask s).jos := by
  have hframe : SameWaits s.jos (s.jos.deleteSignalFrame key) := .of_eq rfl rfl
  have hmask : SameWaits s.jos ((s.jos.deleteSignalFrame key).modifyContext s.jos.currentTID fun c =>
      { c with signalMask := mask, syscallTrap := .idle }) := hframe.trans (.modifyContext _ _ fun _ => rfl)
  exact hmask.trans
    (Sys.saveCurrent_same { (s.mapJos fun jos => (jos.deleteSignalFrame key).modifyContext jos.currentTID
    fun c => { c with signalMask := mask, syscallTrap := .idle }) with cpu := restoreCPU s.cpu snap })

theorem loadRegs_leaves (base : BitVec 64) (l : List (Fin 32)) (regs : BitVec 5 → BitVec 64) :
    Call.Leaves (loadRegs base l regs) := by
  induction l generalizing regs with
  | nil => exact .pure regs
  | cons i l ih => exact .bind (.mem _ _) fun v => ih _

theorem loadSignalUContext_leaves (addr : BitVec 64) (base : CPUSnapshot) :
    Call.Leaves (loadSignalUContext addr base) :=
  .bind (.mem _ _) fun _ => .bind (loadRegs_leaves _ _ _) fun _ => .pure _

theorem sysRtSigreturn_advances (h : s.Running) : Advances s.jos (sysRtSigreturn s).2.jos := by
  have hs := h.ensureScheduler_advances
  unfold sysRtSigreturn
  dsimp only
  split
  · exact hs
  · rename_i key frame hfind
    have hload := Call.Advances.of_leaves (loadSignalUContext_leaves (key.sp + signalFrameUctxOff) frame.snapshot) _
      h.ensureScheduler.runnable
    refine hs.trans ?_
    generalize loadSignalUContext (key.sp + signalFrameUctxOff) frame.snapshot s.ensureScheduler = r at hload
    obtain ⟨errno | ⟨snap, mask⟩, s'⟩ := r
    · exact hload
    · exact hload.trans (restoreFrame_same key snap mask s').advances

theorem handleFaultSignal_advances (h : s.Running) (n : Note) : Advances s.jos (handleFaultSignal n s).2.jos := by
  unfold handleFaultSignal
  split
  · exact .refl s.jos
  · dsimp only
    have hsignal := onCurrent_advances (fun ctx => signalContext_advances ctx sigSEGV
      { signo := sigSEGV, code := 1, pid := s.ensureScheduler.jos.pid, uid := 0, addr := n.tval })
        _ h.ensureScheduler.runnable
    refine h.ensureScheduler_advances.trans ?_
    generalize onCurrent _ s.ensureScheduler = r at hsignal
    obtain ⟨errno | _ | _, s'⟩ := r
    · exact hsignal
    · exact hsignal
    · exact hsignal

/-! ## Every call, and the steps of the scheduler -/

/-- the calls that may give the hart to another thread -/
def Syscall.switches : Syscall → Bool
  | .futex | .epollPwait | .pselect6 | .nanosleep | .schedYield | .exit | .exitGroup => true
  | _ => false

theorem dispatch_advances (h : s.Running) (a : SyscallArgs) (hstays : (Syscall.ofNum a.num).switches = false) :
    Advances s.jos (dispatch env sv a s).2.jos := by
  have hensure := h.ensureScheduler_advances
  unfold dispatch
  cases hnum : Syscall.ofNum a.num with
  | eventfd2 => exact answer_advances (sysEventfd2_advances _ _) h
  | epollCreate1 => exact answer_advances (sysEpollCreate1_advances _) h
  | epollCtl => exact answer_advances (sysEpollCtl_advances _ _ _ _) h
  | close => exact answer_advances (sysClose_advances _) h
  | pipe2 => exact answer_advances (sysPipe2_advances _ _) h
  | read => exact answer_advances (sysRead_advances env sv _ _ _) h
  | write => exact answer_advances (sysWrite_advances env sv _ _ _) h
  | readv => exact answer_advances (vectored_advances (fun _ _ => sysRead_advances env sv _ _ _) _ _) h
  | writev => exact answer_advances (vectored_advances (fun _ _ => sysWrite_advances env sv _ _ _) _ _) h
  | setTidAddress => exact sysSetTidAddress_advances h _
  | kill => exact sysKill_advances h _ _
  | tkill => exact sysTkill_advances h _ _
  | tgkill => exact sysTgkill_advances h _ _ _
  | sigaltstack => exact hensure.trans (answer_advances (sysSigaltstack_advances _ _) h.ensureScheduler)
  | rtSigaction => exact answer_advances (sysRtSigaction_advances _ _ _ _) h
  | rtSigprocmask => exact sysRtSigprocmask_advances h _ _ _ _
  | rtSigreturn => exact sysRtSigreturn_advances h
  | setRobustList => exact hensure.trans (Sys.saveCurrent_same _).advances
  | gettid => exact hensure
  | clone => exact hensure.trans (answer_advances (sysClone_advances _ _ _ _ _) h.ensureScheduler)
  | other => exact answer_advances (serve_advances env sv _) h
  | epollPwait | pselect6 | futex | exit | exitGroup | schedYield | nanosleep =>
    rw [hnum] at hstays
    cases hstays

theorem dispatch_settled (h : s.Running) (a : SyscallArgs) : Settled (dispatch env sv a s) := by
  cases hswitches : (Syscall.ofNum a.num).switches with
  | false => exact (dispatch_advances env sv h a hswitches).settled h
  | true =>
    unfold dispatch
    cases hnum : Syscall.ofNum a.num with
    | epollPwait => exact sysEpollPwait_settled env h _ _ _ _
    | pselect6 => exact sysPselect6_settled env h _
    | futex => exact sysFutex_settled env h _ _ _ _
    | exit => exact sysExit_settled h _ false
    | exitGroup => exact sysExit_settled h _ true
    | schedYield => exact sysSchedYield_settled env h
    | nanosleep => exact sysNanosleep_settled env h _
    | _ =>
      rw [hnum] at hswitches
      cases hswitches

theorem finishHandledEcall_same (startTID : Tid) (trap : EcallTrapFrame) (r : NoteDisposition × Sys) :
    SameWaits r.2.jos (finishHandledEcall startTID trap r).jos := by
  unfold finishHandledEcall
  dsimp only
  split_ifs
  · exact .refl _
  · split
    · exact .refl _
    · exact .ite (.modifyContext _ _ completeContextEcallTrap_waitData) (.refl _)

theorem SameWaits.settled {r : NoteDisposition × Sys} {s' : Sys} (h : SameWaits r.2.jos s'.jos) (hr : Settled r) :
    Settled (r.1, s') := by
  refine ⟨h.advances.keeps hr.tidy, fun hd => ?_⟩
  show s'.jos.isRunnable s'.jos.currentTID
  rw [h.advances.current]
  exact h.advances.runnable _ (hr.runnable hd)

theorem setActiveTrap_same (s : Sys) (trap : EcallTrapFrame) : SameWaits s.jos (s.setActiveTrap trap).jos :=
  .of_eq rfl rfl

/-- **Every note settles.** Queues and counters stay right, and if the guest goes on, it does with a thread that can
run. -/
theorem handle_settled (h : s.Running) (n : Note) : Settled (handle env sv n s) := by
  unfold handle
  split
  · split
    · exact (handleFaultSignal_advances h n).settled h
    · exact h.settled .forward
  · dsimp only
    split
    · exact dispatch_settled env sv ((s.drainExternalEvents_advances env).running h) _
    · have htrap := (setActiveTrap_same s (ecallTrapFromNote n)).running h
      have hcall := dispatch_settled env sv ((Sys.drainExternalEvents_advances env _).running htrap) (syscallArgs s.cpu)
      refine SameWaits.settled (.trans ?_ (setActiveTrap_same _ _)) hcall
      split
      · exact .refl _
      · exact finishHandledEcall_same _ _ _

theorem prepareQuantum_running (h : s.Running) : (prepareQuantum s).Running := by
  have hs := h.ensureScheduler.keepRunning.saveCurrent
  have hchaos := (Jea9Linux.maybeReshuffle_same s.ensureScheduler.keepRunning.saveCurrent.jos
    s.ensureScheduler.keepRunning.saveCurrent.cpu.riscvInstrRetired).trans (Jea9Linux.maybeStartChaosWindow_same _)
  exact hchaos.running hs

theorem switchAfterQuantum_running (h : s.Running) : (switchAfterQuantum env s).Running := by
  have hload := Sys.loadIfFound_running h (nextRunnable_found s.jos)
  unfold switchAfterQuantum
  generalize s.loadIfFound s.jos.nextRunnableByPolicyAfterCurrent = r at hload
  obtain ⟨_ | _, s'⟩ := r
  · have hclock := s'.jos.advanceVirtualClockWhenNoRunnableCandidate_moves env
    dsimp only
    generalize s'.jos.advanceVirtualClockWhenNoRunnableCandidate env = r at hclock
    obtain ⟨⟨at', _ | _⟩, jos⟩ := r
    · exact @Moves.running s' { s' with jos := jos } hclock hload
    · exact Sys.loadIfFound_running (@Moves.running s' { s' with jos := jos } hclock hload) (nextRunnable_found jos)
  · exact hload

theorem expireSchedulerQuantum_running (h : s.Running) : (expireSchedulerQuantum env s).Running :=
  (Jea9Linux.installNextSchedulerQuantum_same _ _).running (switchAfterQuantum_running env (prepareQuantum_running h))

theorem expireBudget_running (h : s.Running) : (expireBudget s).Running := h.ensureScheduler.keepRunning.saveCurrent

theorem schedulerRemainingRetired_same (s : Sys) : SameWaits s.jos (schedulerRemainingRetired s).2.jos := by
  unfold schedulerRemainingRetired
  split
  · exact .refl s.jos
  · dsimp only
    split
    · exact Jea9Linux.installNextSchedulerQuantum_same _ _
    · exact .refl s.jos

theorem Moves.loaded {r : Bool} (h : Moves s.jos s'.jos) (hs : Sys.Loaded (r, s)) : Sys.Loaded (r, s') :=
  ⟨h.keeps hs.tidy, fun hr => h.running (hs.running hr)⟩

theorem betweenSlices_advances (s : Sys) :
    Advances s.jos
      (((s.drainExternalEvents env).refreshEpollReadiness env).mapJos fun jos => jos.refreshBlocked env).jos :=
  ((s.drainExternalEvents_advances env).trans (Sys.refreshEpollReadiness_advances env _)).trans
    (Jea9Linux.refreshBlocked_advances _ env)

theorem loadFirstRunnable_advances_of_not (h : s.loadFirstRunnableAfterBlocked.1 = false) :
    Advances s.jos s.loadFirstRunnableAfterBlocked.2.jos := by
  have hfound := firstRunnable_found s.jos
  unfold Sys.loadFirstRunnableAfterBlocked at h ⊢
  generalize s.jos.firstRunnableByPolicy = r at hfound h
  obtain ⟨_ | tid, jos⟩ := r
  · exact hfound.same.advances
  · cases h

theorem boundary_loaded {r : Bool} (h : Sys.Loaded (r, s)) :
    Sys.Loaded (decide ((boundary env s).1 = .again ∨ (r = true ∧ (boundary env s).1 = .goOn)),
      (boundary env s).2) := by
  have hbetween := (betweenSlices_advances env s).toMoves.loaded h
  unfold boundary
  dsimp only
  generalize (((s.drainExternalEvents env).refreshEpollReadiness env).mapJos fun jos => jos.refreshBlocked env) =
    s' at hbetween
  by_cases hb : s.jos.blocked
  · rw [if_pos hb]
    have hload := Sys.loadFirstRunnable_loaded hbetween.tidy
    have hnot := loadFirstRunnable_advances_of_not (s := s')
    generalize s'.loadFirstRunnableAfterBlocked = l at hload hnot
    obtain ⟨_ | _, s''⟩ := l
    · have hstay := (hnot rfl).toMoves.loaded hbetween
      refine ⟨hstay.tidy, fun hr => ?_⟩
      obtain hagain | ⟨hr, -⟩ := of_decide_eq_true hr
      · cases hbl : s''.jos.blocked <;> simp [hbl] at hagain
      · exact hstay.running hr
    · exact ⟨hload.tidy, fun _ => hload.running rfl⟩
  · rw [if_neg hb]
    refine ⟨hbetween.tidy, fun hr => ?_⟩
    obtain hagain | ⟨hr, -⟩ := of_decide_eq_true hr
    · cases hbl : s'.jos.blocked <;> simp [hbl] at hagain
    · exact hbetween.running hr

theorem waitRealTimeBlocked_loaded (h : s.Tidy) : Sys.Loaded (waitRealTimeBlocked env s) := by
  have hwake := (s.drainExternalEvents_advances env).trans ((s.drainExternalEvents env).jos.refreshBlocked_advances env)
  exact Sys.loadFirstRunnable_loaded (hwake.keeps h)

theorem boot_contexts (o : Options) (c : Cpu) (tid : Tid) :
    (boot o c).jos.contexts tid = if tid = o.startTID then some (Context.new o.startTID (snapshotCPU c)) else none := by
  show update (fun _ => none) o.startTID (some (Context.new o.startTID (snapshotCPU c))) tid = _
  rw [update_apply]

theorem boot_running (o : Options) (c : Cpu) : (boot o c).Running := by
  have honly : ∀ tid ctx, (boot o c).jos.contexts tid = some ctx →
      tid = o.startTID ∧ ctx = Context.new o.startTID (snapshotCPU c) := by
    intro tid ctx hctx
    rw [boot_contexts] at hctx
    split_ifs at hctx with htid
    exact ⟨htid, (Option.some.inj hctx).symm⟩
  have hidle : ∀ {p : Context → Bool}, p (Context.new o.startTID (snapshotCPU c)) = false →
      ∀ tid, ((boot o c).jos.contexts tid).any p = false := by
    intro p hp tid
    rw [boot_contexts]
    split_ifs
    · exact hp
    · rfl
  refine ⟨⟨⟨nodup_singleton _, fun tid => ?_, fun tid ctx hctx => ?_, fun tid ctx hctx => ?_, fun addr tid => ?_,
    fun kind hk => ?_⟩, fun _ => rfl⟩, ?_⟩
  · show tid ∈ [o.startTID] ↔ _
    rw [mem_singleton, boot_contexts]
    split_ifs with htid <;> simp [htid]
  · obtain ⟨rfl, rfl⟩ := honly tid ctx hctx
    rfl
  · obtain ⟨rfl, rfl⟩ := honly tid ctx hctx
    exact fun _ => ⟨rfl, rfl⟩
  · rw [Jea9Linux.waitsAt, hidle rfl]
    rfl
  · have hnone : (boot o c).jos.timedFor kind = fun _ => false := funext fun tid => hidle rfl tid
    rw [hnone, countP_false]
    cases kind <;> rfl
  · show (boot o c).jos.isRunnable o.startTID
    rw [Jea9Linux.isRunnable_eq_any, boot_contexts, if_pos rfl]
    rfl

/-- **Every state that is reached is tidy**, and where guest code runs the current thread can run. -/
theorem Reached.loaded {o : Options} {r : Bool} (h : Reached o r s) : Sys.Loaded (r, s) := by
  induction h with
  | boot c => exact ⟨(boot_running o c).tidy, fun _ => boot_running o c⟩
  | guest c _ ih =>
    have hrun := ih.running rfl
    exact ⟨hrun.tidy, fun _ => ⟨hrun.tidy, hrun.runnable⟩⟩
  | handle env sv n _ ih =>
    have hsettled := handle_settled env sv (ih.running rfl) n
    exact ⟨hsettled.tidy, fun hr => ⟨hsettled.tidy, hsettled.runnable (of_decide_eq_true hr)⟩⟩
  | quantum env _ ih =>
    have hrun := expireSchedulerQuantum_running env (ih.running rfl)
    exact ⟨hrun.tidy, fun _ => hrun⟩
  | budget _ ih =>
    have hrun := expireBudget_running (ih.running rfl)
    exact ⟨hrun.tidy, fun _ => hrun⟩
  | remaining _ ih => exact (schedulerRemainingRetired_same _).advances.toMoves.loaded ih
  | account attempts _ ih => exact (Jea9Linux.accountInsAttempts_moves _ attempts).loaded ih
  | boundary env _ ih => exact boundary_loaded env ih
  | wait env _ _ _ ih => exact waitRealTimeBlocked_loaded env ih.tidy
  | setMonotonicNS env ns _ ih => exact (Jea9Linux.setMonotonicNS_moves _ env ns).loaded ih

theorem Tidy.timed_eq_ncard (h : Tidy s.jos s.jos.futexWaiters) {kind : WaitKind} (hk : kind ≠ .none) :
    s.jos.timed kind = {tid | ∃ ctx, s.jos.contexts tid = some ctx ∧ ctx.state = .waiting ∧ ctx.waitKind = kind ∧
      ctx.waitHasDeadline = true}.ncard := by
  have hset : {tid | ∃ ctx, s.jos.contexts tid = some ctx ∧ ctx.state = .waiting ∧ ctx.waitKind = kind ∧
      ctx.waitHasDeadline = true} = ((s.jos.contextOrder.filter (s.jos.timedFor kind)).toFinset : Set Tid) := by
    ext tid
    simp only [Set.mem_ofPred_eq, List.coe_toFinset, List.mem_filter, h.keys tid, Jea9Linux.timedFor, Context.timedFor]
    cases s.jos.contexts tid <;> simp
  calc s.jos.timed kind = s.jos.contextOrder.countP (s.jos.timedFor kind) := h.timed kind hk
    _ = (s.jos.contextOrder.filter (s.jos.timedFor kind)).length := countP_eq_length_filter
    _ = (s.jos.contextOrder.filter (s.jos.timedFor kind)).toFinset.card :=
      (toFinset_card_of_nodup (h.nodup.filter _)).symm
    _ = _ := by rw [hset, Set.ncard_coe_finset]

end Settle

/-- **Queues and counters.**  In every state that is reached, a thread is in the queue of an address once if
it waits for the futex there, and in no other queue; and the three counters count the threads of their kind
that wait with a deadline. -/
theorem waiters_tidy {o : Options} {r : Bool} {s : Sys} (h : Reached o r s) :
    (∀ addr tid,
      ((∃ ctx, s.jos.contexts tid = some ctx ∧ ctx.state = .waiting ∧ ctx.waitKind = .futex ∧ ctx.waitAddr = addr) →
        (s.jos.futexWaiters addr).count tid = 1) ∧
      ((¬ ∃ ctx, s.jos.contexts tid = some ctx ∧ ctx.state = .waiting ∧ ctx.waitKind = .futex ∧ ctx.waitAddr = addr) →
        tid ∉ s.jos.futexWaiters addr)) ∧
    s.jos.timedFutexWaiters = {tid | ∃ ctx, s.jos.contexts tid = some ctx ∧ ctx.state = .waiting ∧
      ctx.waitKind = .futex ∧ ctx.waitHasDeadline = true}.ncard ∧
    s.jos.timedEpollWaiters = {tid | ∃ ctx, s.jos.contexts tid = some ctx ∧ ctx.state = .waiting ∧
      ctx.waitKind = .epoll ∧ ctx.waitHasDeadline = true}.ncard ∧
    s.jos.timedNanosleepWaiters = {tid | ∃ ctx, s.jos.contexts tid = some ctx ∧ ctx.state = .waiting ∧
      ctx.waitKind = .nanosleep ∧ ctx.waitHasDeadline = true}.ncard := by
  have htidy : Tidy s.jos s.jos.futexWaiters := h.loaded.tidy.queues
  refine ⟨fun addr tid => ?_, htidy.timed_eq_ncard (show WaitKind.futex ≠ .none by decide),
    htidy.timed_eq_ncard (show WaitKind.epoll ≠ .none by decide),
    htidy.timed_eq_ncard (show WaitKind.nanosleep ≠ .none by decide)⟩
  have hcount := htidy.queued addr tid
  have hwaits : s.jos.waitsAt addr tid = true ↔
      ∃ ctx, s.jos.contexts tid = some ctx ∧ ctx.state = .waiting ∧ ctx.waitKind = .futex ∧ ctx.waitAddr = addr := by
    simp only [Jea9Linux.waitsAt, Context.waitsAt]
    cases s.jos.contexts tid <;> simp
  refine ⟨fun hw => ?_, fun hw => ?_⟩
  · rw [hcount, if_pos (hwaits.mpr hw)]
  · rw [if_neg (mt hwaits.mp hw)] at hcount
    exact count_eq_zero.mp hcount

/-- two threads, of which the first waits at a futex with a timeout -/
def futexSleeper : Sys := (runActs (spawn :: timespec 0x2000 100 ++ [ask 98 0x4000 0 0 0x2000]) smallBoot).2

/-- it is in the queue of its futex, and is the one waiter with a deadline -/
theorem waiters_tidy_futexSleeper :
    futexSleeper.jos.currentTID = 2 ∧ (futexSleeper.jos.futexWaiters 0x4000).count 1 = 1 ∧
    2 ∉ futexSleeper.jos.futexWaiters 0x4000 ∧
    1 = {tid | ∃ ctx, futexSleeper.jos.contexts tid = some ctx ∧ ctx.state = .waiting ∧
      ctx.waitKind = .futex ∧ ctx.waitHasDeadline = true}.ncard := by
  obtain ⟨hqueue, htimed, -⟩ := waiters_tidy
    (runActs_reached (spawn :: timespec 0x2000 100 ++ [ask 98 0x4000 0 0 0x2000]) smallBoot_reached)
  refine ⟨by decide, (hqueue 0x4000 1).1 ⟨_, rfl, by decide⟩, (hqueue 0x4000 2).2 ?_, htimed⟩
  rintro ⟨ctx, hctx, hstate, -⟩
  obtain rfl := Option.some.inj hctx
  exact absurd hstate (by decide)

end RiscvEmu.Linux
