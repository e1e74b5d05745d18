/-
The end of a thread (`sysExit`).

A worker that ends hands the hart to another context. The search for one (`nextRunnableByPolicyAfterCurrent`) sees
neither threads that wait nor threads that a chaos window holds back; if it finds nothing the whole process ends with
the worker's code. `exit_alone_iff` says when that does not happen to a process that still has threads.
-/
import RiscvEmu.Linux.Settled

namespace RiscvEmu.Linux

variable {tid : Tid} {s : Sys} {jos : Jea9Linux}

open Function Option

/-! ## Who can be chosen -/

namespace Jea9Linux

variable (jos : Jea9Linux)

/-- a chaos window is active and has not ended -/
def windowOpen : Bool := jos.chaosActive ∧ jos.monotonicNS < jos.chaosUntilNS

theorem refreshChaosWindow_chaosActive : jos.refreshChaosWindow.chaosActive = jos.windowOpen := by
  unfold refreshChaosWindow windowOpen
  cases hactive : jos.chaosActive <;> by_cases htime : jos.monotonicNS < jos.chaosUntilNS <;> simp [hactive, htime]

theorem refreshChaosWindow_contexts : jos.refreshChaosWindow.contexts = jos.contexts := by
  unfold refreshChaosWindow
  split_ifs <;> rfl

theorem refreshChaosWindow_order : jos.refreshChaosWindow.contextOrder = jos.contextOrder :=
  jos.refreshChaosWindow_same.order

end Jea9Linux

/-- the context can run, and no chaos window holds it back -/
def Context.MayRun (window : Bool) (ctx : Context) : Prop :=
  ctx.state = .runnable ∧ ¬ (window = true ∧ ctx.schedPriority = .low)

theorem selectable_refresh_iff (jos : Jea9Linux) (tid : Tid) :
    jos.refreshChaosWindow.selectable tid ↔ ∃ ctx, jos.contexts tid = some ctx ∧ ctx.MayRun jos.windowOpen := by
  unfold Jea9Linux.selectable
  rw [jos.refreshChaosWindow_contexts, jos.refreshChaosWindow_chaosActive]
  cases jos.contexts tid <;> cases jos.windowOpen <;> simp [Context.MayRun]

/-- **The search sees who may run.**  Another context is found if and only if one may run. -/
theorem nextRunnable_isSome_iff (h : Tidy jos jos.futexWaiters) :
    jos.nextRunnableByPolicyAfterCurrent.1.isSome ↔
      ∃ tid ctx, tid ≠ jos.currentTID ∧ jos.contexts tid = some ctx ∧ ctx.MayRun jos.windowOpen := by
  have hcurrent : jos.refreshChaosWindow.currentTID = jos.currentTID := jos.refreshChaosWindow_same.current
  unfold Jea9Linux.nextRunnableByPolicyAfterCurrent
  dsimp only
  rw [List.find?_isSome]
  constructor
  · rintro ⟨tid, -, hfound⟩
    obtain ⟨hne, hsel⟩ := of_decide_eq_true hfound
    obtain ⟨ctx, hctx, hmay⟩ := (selectable_refresh_iff jos tid).mp hsel
    exact ⟨tid, ctx, hcurrent ▸ hne, hctx, hmay⟩
  · rintro ⟨tid, ctx, hne, hctx, hmay⟩
    refine ⟨tid, ?_, decide_eq_true ⟨hcurrent.symm ▸ hne, (selectable_refresh_iff jos tid).mpr ⟨ctx, hctx, hmay⟩⟩⟩
    unfold Jea9Linux.afterCurrent
    rw [List.mem_rotate, jos.refreshChaosWindow_order, h.keys, hctx]
    rfl

theorem firstRunnable_isSome_iff (h : Tidy jos jos.futexWaiters) :
    jos.firstRunnableByPolicy.1.isSome ↔ ∃ tid ctx, jos.contexts tid = some ctx ∧ ctx.MayRun jos.windowOpen := by
  unfold Jea9Linux.firstRunnableByPolicy
  dsimp only
  rw [List.find?_isSome, jos.refreshChaosWindow_order]
  constructor
  · rintro ⟨tid, -, hsel⟩
    obtain ⟨ctx, hctx, hmay⟩ := (selectable_refresh_iff jos tid).mp hsel
    exact ⟨tid, ctx, hctx, hmay⟩
  · rintro ⟨tid, ctx, hctx, hmay⟩
    refine ⟨tid, ?_, (selectable_refresh_iff jos tid).mpr ⟨ctx, hctx, hmay⟩⟩
    rw [h.keys, hctx]
    rfl

theorem nextRunnable_some (h : jos.nextRunnableByPolicyAfterCurrent.1 = some tid) :
    tid ≠ jos.currentTID ∧ ∃ ctx, jos.contexts tid = some ctx ∧ ctx.MayRun jos.windowOpen := by
  have hfound := List.find?_some h
  obtain ⟨hne, hsel⟩ := of_decide_eq_true hfound
  rw [jos.refreshChaosWindow_same.current] at hne
  exact ⟨hne, (selectable_refresh_iff jos tid).mp hsel⟩

/-! ## Changes of the current context -/

/-- the context with the system call that is being handled -/
def Jea9Linux.attached (jos : Jea9Linux) (c : Context) : Context :=
  if jos.activeEcallTrap.active then { c with syscallTrap := jos.activeEcallTrap } else c

theorem ensureScheduler_eq (h : s.Running) :
    s.ensureScheduler.jos = { s.jos.modifyContext s.jos.currentTID s.jos.attached with
      nextTID := if s.jos.nextTID ≤ s.jos.currentTID then s.jos.currentTID + 1 else s.jos.nextTID } := by
  obtain ⟨ctx, hctx, -⟩ := Jea9Linux.exists_of_isRunnable h.runnable
  have hattached : s.jos.attached = fun c => if s.jos.activeEcallTrap.active then
      { c with syscallTrap := s.jos.activeEcallTrap } else c := rfl
  have hid : s.jos.activeEcallTrap.active = false → s.jos.modifyContext s.jos.currentTID s.jos.attached = s.jos := by
    intro htrap
    have hupdate :
        Function.update s.jos.contexts s.jos.currentTID ((s.jos.contexts s.jos.currentTID).map s.jos.attached)
        = s.jos.contexts := by
      rw [hattached, htrap, hctx]
      exact update_eq_self_iff.mpr hctx.symm
    rw [Jea9Linux.modifyContext, hupdate]
  show s.jos.ensureScheduler s.cpu = _
  unfold Jea9Linux.ensureScheduler Jea9Linux.attachActiveEcallTrap
  rw [hctx]
  dsimp only
  cases htrap : s.jos.activeEcallTrap.active with
  | false =>
    rw [hid htrap]
    split_ifs <;> simp_all
  | true =>
    rw [hattached, htrap]
    split_ifs <;> simp_all [Jea9Linux.modifyContext]

/-- the contexts of the other threads, the order of the threads, the clock and the chaos window are as they were -/
structure OnlyCurrent (jos jos' : Jea9Linux) : Prop where
  others : ∀ tid, tid ≠ jos.currentTID → jos'.contexts tid = jos.contexts tid
  current : jos'.currentTID = jos.currentTID
  window : jos'.windowOpen = jos.windowOpen

namespace OnlyCurrent

variable {jos jos' jos'' : Jea9Linux}

theorem trans (h : OnlyCurrent jos jos') (h' : OnlyCurrent jos' jos'') : OnlyCurrent jos jos'' :=
  ⟨fun tid hne => (h'.others tid (h.current.symm ▸ hne)).trans (h.others tid hne), h'.current.trans h.current,
    h'.window.trans h.window⟩

theorem modifyContext (jos : Jea9Linux) (f : Context → Context) :
    OnlyCurrent jos (jos.modifyContext jos.currentTID f) :=
  ⟨fun _ hne => update_of_ne hne _ _, rfl, rfl⟩

theorem ensureScheduler (h : s.Running) : OnlyCurrent s.jos s.ensureScheduler.jos := by
  rw [ensureScheduler_eq h]
  exact ⟨fun _ hne => update_of_ne hne _ _, rfl, rfl⟩

theorem saveCurrent (s : Sys) : OnlyCurrent s.jos s.saveCurrent.jos := modifyContext s.jos _

end OnlyCurrent

/-! ## The end of a thread -/

/-- the first thread that waits at the word, if the word can be cleared -/
def firstWaiter (addr : BitVec 64) (s : Sys) : Option Tid :=
  if addr = 0 then none
  else
    match (GuestMemory.store32 addr 0 s.cpu.mem).1 with
    | .ok _ => (s.jos.futexWaiters addr).head?
    | .error _ => none

/-- the thread that is woken by the end of the current one: the first one at its `clear_child_tid` word -/
def wokenByExit (s : Sys) : Option Tid := firstWaiter ((s.jos.current.map Context.clearChildTID).getD 0) s

/-- another thread to which the hart can go when the current one ends -/
def TakesOver (s : Sys) (tid : Tid) : Prop :=
  tid ≠ s.jos.currentTID ∧ ∃ ctx, s.jos.contexts tid = some ctx ∧ (ctx.state = .runnable ∨ wokenByExit s = some tid) ∧
    ¬ (s.jos.windowOpen = true ∧ ctx.schedPriority = .low)

theorem cancelContextWait_runnable {c : Context} (hc : jos.contexts tid = some c)
    (hidle : c.waitKind = .none ∧ c.waitHasDeadline = false) :
    jos.cancelContextWait tid = { jos with contexts := Function.update jos.contexts tid (some c.clearWait) } := by
  have hdetach : jos.detach tid c = jos := by
    rw [Jea9Linux.detach, if_neg (by rw [hidle.1]; decide), Jea9Linux.dropDeadline, if_neg (by rw [hidle.2]; decide)]
  rw [Jea9Linux.cancelContextWait_eq hc, hdetach]

def endCurrent (s : Sys) : Sys :=
  s.mapJos fun jos => (jos.cancelContextWait jos.currentTID).modifyContext jos.currentTID Context.ended

theorem endCurrent_eq (h : s.Running) : ∃ c, s.jos.contexts s.jos.currentTID = some c ∧
    (endCurrent s).jos =
      { s.jos with contexts := Function.update s.jos.contexts s.jos.currentTID (some c.clearWait.ended) } := by
  obtain ⟨c, hc, hs⟩ := Jea9Linux.exists_of_isRunnable h.runnable
  refine ⟨c, hc, ?_⟩
  show (s.jos.cancelContextWait s.jos.currentTID).modifyContext s.jos.currentTID Context.ended = _
  rw [cancelContextWait_runnable hc (h.tidy.queues.idle _ c hc (by rw [hs]; decide)),
    Jea9Linux.modifyContext_eq (Function.update_self ..)]
  simp only [update_idem]

theorem markRunnable_windowOpen (jos : Jea9Linux) (tid : Tid) (retval : BitVec 64) :
    (jos.markRunnable tid retval).windowOpen = jos.windowOpen :=
  Jea9Linux.markRunnable_induct (P := fun j => j.windowOpen = jos.windowOpen) tid retval rfl fun _ _ _ _ => rfl

theorem Tidy.waiting_of_head {addr : BitVec 64} (h : Tidy jos jos.futexWaiters)
    (hhead : (jos.futexWaiters addr).head? = some tid) : ∃ c, jos.contexts tid = some c ∧ c.state = .waiting := by
  have hmem : tid ∈ jos.futexWaiters addr := List.mem_of_mem_head? hhead
  have hcount := h.queued addr tid
  have hwaits : jos.waitsAt addr tid := by
    by_contra hnot
    rw [if_neg hnot] at hcount
    exact List.count_eq_zero.mp hcount hmem
  rw [Jea9Linux.waitsAt] at hwaits
  cases hc : jos.contexts tid with
  | none => rw [hc] at hwaits; cases hwaits
  | some c =>
    rw [hc] at hwaits
    exact ⟨c, rfl, (of_decide_eq_true hwaits).1⟩

theorem wakeFutex_one_contexts (h : Tidy jos jos.futexWaiters) (addr : BitVec 64) (tid : Tid) :
    (jos.wakeFutex addr 1).2.contexts tid =
      if (jos.futexWaiters addr).head? = some tid then (jos.contexts tid).map fun c =>
        c.woken 0 else jos.contexts tid := by
  have hwake : (jos.wakeFutex addr 1).2.contexts
      = (((jos.futexWaiters addr).take 1).foldl
        (fun (jos : Jea9Linux) tid => jos.markRunnable tid 0) jos).contexts := by
    unfold Jea9Linux.wakeFutex
    dsimp only
    split_ifs <;> rfl
  rw [hwake]
  cases hq : jos.futexWaiters addr with
  | nil => rfl
  | cons first rest =>
    obtain ⟨c, hc, hw⟩ := h.waiting_of_head (show (jos.futexWaiters addr).head? = some first by rw [hq]; rfl)
    show (jos.markRunnable first 0).contexts tid = _
    rw [Jea9Linux.markRunnable_eq hc (by rw [hw]; decide)]
    show Function.update jos.contexts first (some (c.woken 0)) tid = _
    by_cases ht : tid = first
    · subst ht
      rw [Function.update_self, if_pos (show (tid :: rest).head? = some tid from rfl), hc]
      rfl
    · rw [update_of_ne ht, if_neg]
      intro heq
      exact ht (Option.some.inj heq).symm

theorem wakeFutex_one_windowOpen (jos : Jea9Linux) (addr : BitVec 64) :
    (jos.wakeFutex addr 1).2.windowOpen = jos.windowOpen := by
  have hwake : (jos.wakeFutex addr 1).2.windowOpen
      = (((jos.futexWaiters addr).take 1).foldl
        (fun (jos : Jea9Linux) tid => jos.markRunnable tid 0) jos).windowOpen := by
    unfold Jea9Linux.wakeFutex
    dsimp only
    split_ifs <;> rfl
  rw [hwake]
  cases jos.futexWaiters addr with
  | nil => rfl
  | cons first rest => exact markRunnable_windowOpen jos first 0

theorem clearChildTID_spec (h : s.Tidy) (addr : BitVec 64) :
    (∀ tid, (clearChildTID addr s).jos.contexts tid =
      if firstWaiter addr s = some tid then (s.jos.contexts tid).map fun c => c.woken 0 else s.jos.contexts tid) ∧
    (clearChildTID addr s).jos.currentTID = s.jos.currentTID ∧
    (clearChildTID addr s).jos.windowOpen = s.jos.windowOpen ∧
    (clearChildTID addr s).cpu.exitCode = s.cpu.exitCode := by
  unfold clearChildTID firstWaiter
  by_cases hzero : addr = 0
  · rw [if_pos hzero, if_pos hzero]
    exact ⟨fun _ => rfl, rfl, rfl, rfl⟩
  · rw [if_neg hzero, if_neg hzero]
    unfold Call.mem
    rcases GuestMemory.store32 addr 0 s.cpu.mem with ⟨_ | _, mem⟩
    · exact ⟨fun _ => rfl, rfl, rfl, rfl⟩
    · exact ⟨fun tid => wakeFutex_one_contexts h.queues addr tid, (wakeFutex_advances s.jos addr 1).current,
        wakeFutex_one_windowOpen s.jos addr, rfl⟩

def LastThread (s : Sys) : Prop :=
  ∀ tid ctx, tid ≠ s.jos.currentTID → s.jos.contexts tid = some ctx → ctx.state = .exited

/-- what the end of a thread owes to the others: one of them goes on, or the personality is blocked, and there is no
exit code yet -/
def ExitsAlone (s : Sys) : Prop :=
  ∀ code, ¬ LastThread s →
    ((∃ ctx, (sysExit code false s).1 = .handled ∧ (sysExit code false s).2.jos.currentTID ≠ s.jos.currentTID ∧
        s.jos.contexts (sysExit code false s).2.jos.currentTID = some ctx ∧ ctx.state ≠ .exited) ∨
      ((sysExit code false s).1 = .exit ∧ (sysExit code false s).2.jos.blocked = true)) ∧
    (sysExit code false s).2.cpu.exitCode = s.cpu.exitCode

theorem ensureScheduler_keeps (h : s.Running) :
    s.ensureScheduler.jos.current.map Context.clearChildTID = s.jos.current.map Context.clearChildTID ∧
    s.ensureScheduler.jos.futexWaiters = s.jos.futexWaiters := by
  obtain ⟨c, hc, -⟩ := Jea9Linux.exists_of_isRunnable h.runnable
  rw [ensureScheduler_eq h]
  refine ⟨?_, rfl⟩
  show (Function.update s.jos.contexts s.jos.currentTID ((s.jos.contexts s.jos.currentTID).map s.jos.attached)
    s.jos.currentTID).map Context.clearChildTID = _
  rw [Function.update_self, Jea9Linux.current, hc]
  show some (s.jos.attached c).clearChildTID = some c.clearChildTID
  unfold Jea9Linux.attached
  split_ifs <;> rfl

theorem saveCurrent_clearChildTID (s : Sys) :
    s.saveCurrent.jos.current.map Context.clearChildTID = s.jos.current.map Context.clearChildTID := by
  show (Function.update s.jos.contexts s.jos.currentTID ((s.jos.contexts s.jos.currentTID).map fun c =>
    { c with snapshot := snapshotCPU s.cpu }) s.jos.currentTID).map Context.clearChildTID = _
  rw [Function.update_self, Option.map_map]
  rfl

/-- **The other threads after the end of one.**  One of them may have been woken; the rest is as it was. -/
theorem exitCurrentThread_spec (h : s.Running) :
    (∀ tid, tid ≠ s.jos.currentTID → (exitCurrentThread s.ensureScheduler).jos.contexts tid =
      if wokenByExit s = some tid then (s.jos.contexts tid).map fun c => c.woken 0 else s.jos.contexts tid) ∧
    (exitCurrentThread s.ensureScheduler).jos.currentTID = s.jos.currentTID ∧
    (exitCurrentThread s.ensureScheduler).jos.windowOpen = s.jos.windowOpen ∧
    (exitCurrentThread s.ensureScheduler).cpu.exitCode = s.cpu.exitCode := by
  have hrun : s.ensureScheduler.ensureScheduler.saveCurrent.Running := h.ensureScheduler.ensureScheduler.saveCurrent
  have honly : OnlyCurrent s.jos s.ensureScheduler.ensureScheduler.saveCurrent.jos :=
    ((OnlyCurrent.ensureScheduler h).trans (.ensureScheduler h.ensureScheduler)).trans (.saveCurrent _)
  have hkeeps := ensureScheduler_keeps h
  have hkeeps' := ensureScheduler_keeps h.ensureScheduler
  obtain ⟨c, hc, hend⟩ := endCurrent_eq hrun
  have htidy : (endCurrent s.ensureScheduler.ensureScheduler.saveCurrent).Tidy := exited_orderly hrun.tidy
  have haddr : ((endCurrent s.ensureScheduler.ensureScheduler.saveCurrent).jos.current.map Context.clearChildTID).getD 0
      = (s.jos.current.map Context.clearChildTID).getD 0 := by
    rw [← hkeeps.1, ← hkeeps'.1, ← saveCurrent_clearChildTID s.ensureScheduler.ensureScheduler, Jea9Linux.current, hend]
    dsimp only
    rw [Function.update_self, Jea9Linux.current, hc]
    rfl
  obtain ⟨hcontexts, hcurrent, hwindow, hcode⟩ := clearChildTID_spec htidy
    ((s.jos.current.map Context.clearChildTID).getD 0)
  have hexit : exitCurrentThread s.ensureScheduler = clearChildTID ((s.jos.current.map Context.clearChildTID).getD 0)
      (endCurrent s.ensureScheduler.ensureScheduler.saveCurrent) := by
    rw [← haddr]
    rfl
  have hwoken : firstWaiter ((s.jos.current.map Context.clearChildTID).getD 0)
      (endCurrent s.ensureScheduler.ensureScheduler.saveCurrent) = wokenByExit s := by
    have hqueues :
        (endCurrent s.ensureScheduler.ensureScheduler.saveCurrent).jos.futexWaiters = s.jos.futexWaiters := by
      rw [hend, ← hkeeps.2, ← hkeeps'.2]
      rfl
    unfold wokenByExit firstWaiter
    rw [hqueues]
    rfl
  rw [hexit]
  refine ⟨fun tid hne => ?_, ?_, ?_, hcode⟩
  · have hne' : tid ≠ s.ensureScheduler.ensureScheduler.saveCurrent.jos.currentTID := honly.current.symm ▸ hne
    rw [hcontexts tid, hwoken, hend]
    dsimp only
    rw [update_of_ne hne', honly.others tid hne]
  · rw [hcurrent, hend]
    exact honly.current
  · rw [hwindow, hend]
    exact honly.window

theorem sysExit_worker (h : s.Running) (hworker : s.jos.currentTID ≠ s.jos.pid) (code : BitVec 64) :
    sysExit code false s = Sys.goOnOr ((exitCurrentThread s.ensureScheduler).loadIfFound
      (exitCurrentThread s.ensureScheduler).jos.nextRunnableByPolicyAfterCurrent) fun s => s.exitProcess code := by
  have hsame := h.ensureScheduler_advances
  unfold sysExit
  dsimp only
  rw [if_neg]
  rintro (hgroup | hleader)
  · cases hgroup
  · rw [hsame.current, hsame.settings.pid] at hleader
    exact hworker hleader

theorem wokenByExit_waiting (h : s.Tidy) (hwoken : wokenByExit s = some tid) :
    ∃ c, s.jos.contexts tid = some c ∧ c.state = .waiting := by
  unfold wokenByExit firstWaiter at hwoken
  split_ifs at hwoken
  split at hwoken
  · exact h.queues.waiting_of_head hwoken
  · cases hwoken

theorem exit_search_iff (h : s.Running) :
    (exitCurrentThread s.ensureScheduler).jos.nextRunnableByPolicyAfterCurrent.1.isSome ↔ ∃ tid, TakesOver s tid := by
  obtain ⟨hothers, hcurrent, hwindow, -⟩ := exitCurrentThread_spec h
  rw [nextRunnable_isSome_iff (exitCurrentThread_tidy h.ensureScheduler).queues, hcurrent, hwindow]
  constructor
  · rintro ⟨tid, ctx, hne, hctx, hrun, hwin⟩
    rw [hothers tid hne] at hctx
    refine ⟨tid, hne, ?_⟩
    split_ifs at hctx with hwoken
    · obtain ⟨c, hc, rfl⟩ := map_eq_some_iff.mp hctx
      rw [c.woken_schedPriority] at hwin
      exact ⟨c, hc, .inr hwoken, hwin⟩
    · exact ⟨ctx, hctx, .inl hrun, hwin⟩
  · rintro ⟨tid, hne, ctx, hctx, hrun, hwin⟩
    by_cases hwoken : wokenByExit s = some tid
    · refine ⟨tid, ctx.woken 0, hne, ?_, ctx.woken_state 0, by rwa [ctx.woken_schedPriority]⟩
      rw [hothers tid hne, if_pos hwoken, hctx]
      rfl
    · refine ⟨tid, ctx, hne, ?_, hrun.resolve_right hwoken, hwin⟩
      rw [hothers tid hne, if_neg hwoken, hctx]

theorem loadContext_runnable {ctx : Context} (hctx : s.jos.contexts tid = some ctx)
    (hrun : ctx.state = .runnable) :
    (s.loadContext tid).jos.currentTID = tid ∧ (s.loadContext tid).cpu.exitCode = s.cpu.exitCode := by
  unfold Sys.loadContext
  rw [hctx]
  dsimp only
  rw [if_neg (not_not.mpr hrun)]
  exact ⟨rfl, rfl⟩

/-- **When a worker may end.**  Its end leaves the process alone if and only if another thread can run, is not held
back by a chaos window, or is woken to it by this end, or if there is no other thread any more.  Otherwise the
process ends with the worker's code, whoever is still waiting. -/
theorem exit_alone_iff {s : Sys} (h : s.Running) (hworker : s.jos.currentTID ≠ s.jos.pid) :
    ExitsAlone s ↔ (∃ tid, TakesOver s tid) ∨ LastThread s := by
  obtain ⟨hothers, hcurrent, hwindow, hcode⟩ := exitCurrentThread_spec h
  have hsearch := exit_search_iff h
  unfold ExitsAlone
  simp only [sysExit_worker h hworker]
  generalize hfound : (exitCurrentThread s.ensureScheduler).jos.nextRunnableByPolicyAfterCurrent = r at hsearch
  obtain ⟨_ | tid, jos⟩ := r
  · -- nobody is found: the exit code is the worker's
    have hnone : ¬ ∃ tid, TakesOver s tid := fun htakes => absurd (hsearch.mpr htakes) (by simp)
    refine ⟨fun hspec => .inr ?_, fun hlast code hnot => absurd (hlast.resolve_left hnone) hnot⟩
    by_contra hlast
    have hzero : (0 : BitVec 64) = s.cpu.exitCode := (hspec 0 hlast).2
    have hone : (1 : BitVec 64) = s.cpu.exitCode := (hspec 1 hlast).2
    exact absurd (hzero.trans hone.symm) (by decide)
  · refine ⟨fun _ => .inl (hsearch.mp rfl), fun _ code _ => ?_⟩
    obtain ⟨hne, ctx, hctx, hrun, -⟩ := nextRunnable_some (congrArg Prod.fst hfound)
    have hjos : jos.contexts = (exitCurrentThread s.ensureScheduler).jos.contexts := by
      rw [← (exitCurrentThread s.ensureScheduler).jos.refreshChaosWindow_contexts]
      exact congrArg (fun r => r.2.contexts) hfound.symm
    have hctx' : jos.contexts tid = some ctx := by rw [hjos, hctx]
    obtain ⟨hload, hexit⟩ :=
      loadContext_runnable (s := { exitCurrentThread s.ensureScheduler with jos := jos }) hctx' hrun
    rw [hcurrent] at hne
    refine ⟨.inl ?_, hexit.trans hcode⟩
    rw [hothers tid hne] at hctx
    -- whoever was found had not ended before: it could run, or it was waiting
    obtain ⟨c, hc, hstate⟩ : ∃ c, s.jos.contexts tid = some c ∧ c.state ≠ .exited := by
      split_ifs at hctx with hwoken
      · obtain ⟨c, hc, hw⟩ := wokenByExit_waiting h.tidy hwoken
        exact ⟨c, hc, by rw [hw]; decide⟩
      · exact ⟨ctx, hctx, by rw [hrun]; decide⟩
    refine ⟨c, rfl, ?_, ?_, hstate⟩
    · exact hload.symm ▸ hne
    · show s.jos.contexts (Sys.loadContext _ tid).jos.currentTID = some c
      rw [hload]
      exact hc

/-- the leader yields to a worker -/
def workerRuns : List Act := [spawn, ask 124]

/-- the leader can go on when the worker ends … -/
theorem exit_alone_yielded : ExitsAlone (runActs workerRuns smallBoot).2 := by
  obtain ⟨hgoes, hcurrent, hpid, hleader⟩ : (runActs workerRuns smallBoot).1 = true ∧
      (runActs workerRuns smallBoot).2.jos.currentTID = 2 ∧ (runActs workerRuns smallBoot).2.jos.pid = 1 ∧
      ((runActs workerRuns smallBoot).2.jos.contexts 1).map (fun c => (c.state, c.schedPriority))
        = some (.runnable, .high) := by
    decide +kernel
  have hrun := (runActs_reached workerRuns smallBoot_reached).loaded.running hgoes
  obtain ⟨ctx, hctx, hdata⟩ := map_eq_some_iff.mp hleader
  obtain ⟨hstate, hpriority⟩ := Prod.mk.inj hdata
  refine (exit_alone_iff hrun (by rw [hcurrent, hpid]; decide)).mpr
    (.inl ⟨1, by rw [hcurrent]; decide, ctx, hctx, .inl hstate, fun hlow => ?_⟩)
  rw [hpriority] at hlow
  cases hlow.2

/-- the leader waits at a futex while a worker runs -/
def leaderWaits : List Act := [spawn, ask 98 0x4000]

/-- … but when the leader waits, the worker takes the process with it -/
theorem exit_ends_waiting_leader :
    Reached smallOptions true (runActs leaderWaits smallBoot).2 ∧
    (runActs leaderWaits smallBoot).2.jos.currentTID = 2 ∧ (runActs leaderWaits smallBoot).2.jos.pid = 1 ∧
    ((runActs leaderWaits smallBoot).2.jos.contexts 1).map Context.state = some .waiting ∧
    (runActs (leaderWaits ++ [ask 93 7]) smallBoot).1 = false ∧
    (runActs (leaderWaits ++ [ask 93 7]) smallBoot).2.jos.blocked = false ∧
    (runActs (leaderWaits ++ [ask 93 7]) smallBoot).2.cpu.exitCode = 7 ∧
    ¬ ExitsAlone (runActs leaderWaits smallBoot).2 := by
  obtain ⟨hgoes, hset⟩ : (runActs leaderWaits smallBoot).1 = true ∧
      (sysExit 7 false (runActs leaderWaits smallBoot).2).2.cpu.exitCode ≠
        (runActs leaderWaits smallBoot).2.cpu.exitCode := by
    decide +kernel
  have hreached := runActs_reached leaderWaits smallBoot_reached
  rw [hgoes] at hreached
  refine ⟨hreached, ?_⟩
  simp only [← and_assoc]
  refine (fun hfacts => ⟨hfacts, fun hspec => ?_⟩) (by decide +kernel)
  obtain ⟨⟨⟨⟨⟨hcurrent, -⟩, hleader⟩, -⟩, -⟩, -⟩ := hfacts
  obtain ⟨ctx, hctx, hstate⟩ := map_eq_some_iff.mp hleader
  have hlast : ¬ LastThread (runActs leaderWaits smallBoot).2 := by
    intro hlast
    have hexited := hlast 1 ctx (by rw [hcurrent]; decide) hctx
    rw [hstate] at hexited
    cases hexited
  exact hset (hspec 7 hlast).2

end RiscvEmu.Linux
