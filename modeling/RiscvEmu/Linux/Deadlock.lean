/-
When the personality reports that nothing can run (`scheduleAfterCurrentBlocked`).

The current thread has begun to wait. If no other context may be chosen and somebody waits with a deadline, the clock
goes on and the contexts that are due become runnable; whoever may run then is loaded, and if nobody may, the
personality is blocked. `blocked_only_if_stuck_iff` says when this report is right: made only when no context can run
and no deadline is pending.
-/
import RiscvEmu.Linux.Exit

namespace RiscvEmu.Linux

open Function

/-! ## What timeouts do to the contexts -/

namespace Context

variable (ctx : Context)

/-- the context waits for something of this kind, and its time is up -/
def dueFor (kind : WaitKind) (now : Int) : Bool :=
  ctx.state = .waiting ∧ ctx.waitKind = kind ∧ ctx.waitHasDeadline ∧ ctx.waitDeadlineNS ≤ now

/-- the context waits with a deadline, and its time is up -/
def Due (now : Int) : Prop :=
  ctx.state = .waiting ∧ ctx.waitKind ≠ .none ∧ ctx.waitHasDeadline = true ∧ ctx.waitDeadlineNS ≤ now

/-- the context after a look at the timeouts of one kind -/
def timeout (kind : WaitKind) (now : Int) (retval : BitVec 64) : Context :=
  if ctx.dueFor kind now then ctx.woken retval else ctx

/-- the context after a look at all timeouts -/
def expire (now : Int) : Context :=
  ((ctx.timeout .futex now errETIMEDOUT).timeout .epoll now 0).timeout .nanosleep now 0

theorem timeout_of_not {kind : WaitKind} {now : Int} (h : ctx.dueFor kind now = false) (retval : BitVec 64) :
    ctx.timeout kind now retval = ctx := by
  rw [timeout, if_neg (by rw [h]; decide)]

theorem timeout_of_due {kind : WaitKind} {now : Int} (h : ctx.dueFor kind now = true) (retval : BitVec 64) :
    ctx.timeout kind now retval = ctx.woken retval := by
  rw [timeout, if_pos h]

theorem dueFor_woken (kind : WaitKind) (now : Int) (retval : BitVec 64) :
    (ctx.woken retval).dueFor kind now = false := by
  simp [dueFor, ctx.woken_state retval]

theorem timeout_idem (kind : WaitKind) (now : Int) (retval : BitVec 64) :
    (ctx.timeout kind now retval).timeout kind now retval = ctx.timeout kind now retval := by
  cases h : ctx.dueFor kind now with
  | false => rw [ctx.timeout_of_not h, ctx.timeout_of_not h]
  | true => rw [ctx.timeout_of_due h, timeout_of_not _ (ctx.dueFor_woken kind now retval)]

theorem timeout_schedPriority (kind : WaitKind) (now : Int) (retval : BitVec 64) :
    (ctx.timeout kind now retval).schedPriority = ctx.schedPriority := by
  unfold timeout
  split_ifs
  · exact ctx.woken_schedPriority retval
  · rfl

theorem expire_schedPriority (now : Int) : (ctx.expire now).schedPriority = ctx.schedPriority := by
  rw [expire, timeout_schedPriority, timeout_schedPriority, timeout_schedPriority]

theorem timeout_runnable_iff (kind : WaitKind) (now : Int) (retval : BitVec 64) :
    (ctx.timeout kind now retval).state = .runnable ↔ ctx.state = .runnable ∨ ctx.dueFor kind now := by
  unfold timeout
  split_ifs with h
  · simp [ctx.woken_state retval, h]
  · simp [h]

theorem timeout_dueFor {kind : WaitKind} (kind' : WaitKind) (now : Int) (retval : BitVec 64) (h : kind' ≠ kind) :
    (ctx.timeout kind now retval).dueFor kind' now = ctx.dueFor kind' now := by
  cases hdue : ctx.dueFor kind now with
  | false => rw [ctx.timeout_of_not hdue]
  | true =>
    rw [ctx.timeout_of_due hdue, ctx.dueFor_woken]
    have hkind : ctx.waitKind = kind := (of_decide_eq_true hdue).2.1
    simp [dueFor, hkind, Ne.symm h]

theorem expire_runnable_iff (now : Int) : (ctx.expire now).state = .runnable ↔ ctx.state = .runnable ∨ ctx.Due now := by
  have hdue : ctx.Due now ↔ ctx.dueFor .futex now ∨ ctx.dueFor .epoll now ∨ ctx.dueFor .nanosleep now := by
    simp only [Due, dueFor, decide_eq_true_eq]
    cases ctx.waitKind <;> simp
  rw [expire, timeout_runnable_iff, timeout_runnable_iff, timeout_runnable_iff, timeout_dueFor _ _ _ _ (by decide),
    timeout_dueFor _ _ _ _ (by decide), timeout_dueFor _ _ _ _ (by decide), hdue]
  tauto

end Context

variable (jos : Jea9Linux)

theorem timedOut_eq (kind : WaitKind) (tid : Tid) :
    jos.timedOut kind tid = (jos.contexts tid).any fun c => c.dueFor kind jos.monotonicNS := by
  unfold Jea9Linux.timedOut
  cases jos.contexts tid <;> rfl

/-- a step that looks at the timeout of one thread -/
structure LooksAt (kind : WaitKind) (retval : BitVec 64) (f : Jea9Linux → Tid → Jea9Linux) : Prop where
  contexts : ∀ jos tid t, (f jos tid).contexts t =
    if t = tid then (jos.contexts t).map fun c => c.timeout kind jos.monotonicNS retval else jos.contexts t
  clock : ∀ jos tid, (f jos tid).monotonicNS = jos.monotonicNS
  window : ∀ jos tid, (f jos tid).windowOpen = jos.windowOpen

/-- **A look at many.**  One thread after the other: it does not matter if a thread is looked at twice. -/
theorem LooksAt.foldl {kind : WaitKind} {retval : BitVec 64} {f : Jea9Linux → Tid → Jea9Linux}
    (h : LooksAt kind retval f)
    (l : List Tid) (jos : Jea9Linux) :
    (l.foldl f jos).monotonicNS = jos.monotonicNS ∧ (l.foldl f jos).windowOpen = jos.windowOpen ∧
    ∀ t, (l.foldl f jos).contexts t =
      if t ∈ l then (jos.contexts t).map fun c => c.timeout kind jos.monotonicNS retval else jos.contexts t := by
  induction l generalizing jos with
  | nil => exact ⟨rfl, rfl, fun t => by simp⟩
  | cons tid l ih =>
    obtain ⟨hclock, hwindow, hcontexts⟩ := ih (f jos tid)
    refine ⟨hclock.trans (h.clock jos tid), hwindow.trans (h.window jos tid), fun t => ?_⟩
    rw [List.foldl_cons, hcontexts t, h.contexts, h.clock]
    by_cases ht : t = tid
    · subst ht
      rw [if_pos rfl, if_pos List.mem_cons_self]
      split_ifs
      · rw [Option.map_map]
        congr 1
        funext c
        exact c.timeout_idem kind jos.monotonicNS retval
      · rfl
    · rw [if_neg ht]
      by_cases hl : t ∈ l
      · rw [if_pos hl, if_pos (List.mem_cons_of_mem _ hl)]
      · rw [if_neg hl, if_neg (by simp [ht, hl])]

theorem markRunnable_contexts {jos : Jea9Linux} {tid : Tid} {c : Context} (hc : jos.contexts tid = some c)
    (hs : c.state ≠ .exited) (retval : BitVec 64) :
    (jos.markRunnable tid retval).contexts = update jos.contexts tid (some (c.woken retval)) := by
  rw [Jea9Linux.markRunnable_eq hc hs]

theorem markRunnable_clock (tid : Tid) (retval : BitVec 64) :
    (jos.markRunnable tid retval).monotonicNS = jos.monotonicNS :=
  Jea9Linux.markRunnable_induct (P := fun j => j.monotonicNS = jos.monotonicNS) tid retval rfl fun _ _ _ _ => rfl

theorem looksAt_of {kind : WaitKind} {retval : BitVec 64} (g : Jea9Linux → Tid → Jea9Linux)
    (hg : ∀ jos tid, (g jos tid).contexts = jos.contexts ∧ (g jos tid).monotonicNS = jos.monotonicNS ∧
      (g jos tid).windowOpen = jos.windowOpen) :
    LooksAt kind retval fun jos tid => if jos.timedOut kind tid then (g jos tid).markRunnable tid retval else jos := by
  refine ⟨fun jos tid t => ?_, fun jos tid => ?_, fun jos tid => ?_⟩
  · by_cases hout : jos.timedOut kind tid
    · obtain ⟨c, hc, hw, -⟩ := Jea9Linux.exists_of_timedOut hout
      have hdue : c.dueFor kind jos.monotonicNS = true := by
        rw [timedOut_eq, hc] at hout
        exact hout
      have hc' : (g jos tid).contexts tid = some c := by rw [(hg jos tid).1, hc]
      rw [if_pos hout, markRunnable_contexts hc' (by rw [hw]; decide), (hg jos tid).1]
      by_cases ht : t = tid
      · subst ht
        rw [update_self, if_pos rfl, hc, Option.map_some, c.timeout_of_due hdue]
      · rw [update_of_ne ht, if_neg ht]
    · rw [if_neg hout]
      split_ifs with ht
      · subst ht
        rw [timedOut_eq] at hout
        cases hc : jos.contexts t with
        | none => rfl
        | some c =>
          rw [hc] at hout
          rw [Option.map_some, c.timeout_of_not (Bool.eq_false_iff.mpr hout)]
      · rfl
  · split_ifs
    · rw [markRunnable_clock, (hg jos tid).2.1]
    · rfl
  · split_ifs
    · rw [markRunnable_windowOpen, (hg jos tid).2.2]
    · rfl

/-- the timeouts of one kind are looked at only if somebody waits for one; that makes no difference -/
theorem LooksAt.guarded {kind : WaitKind} {retval : BitVec 64} {f : Jea9Linux → Tid → Jea9Linux}
    (h : LooksAt kind retval f)
    (env : Env) {jos : Jea9Linux} (htidy : Tidy jos jos.futexWaiters) (hkind : kind ≠ .none) :
    (if jos.timed kind > 0 then (env.order jos).foldl f jos else jos).monotonicNS = jos.monotonicNS ∧
    (if jos.timed kind > 0 then (env.order jos).foldl f jos else jos).windowOpen = jos.windowOpen ∧
    ∀ t, (if jos.timed kind > 0 then (env.order jos).foldl f jos else jos).contexts t =
      (jos.contexts t).map fun c => c.timeout kind jos.monotonicNS retval := by
  split_ifs with hsome
  · obtain ⟨hclock, hwindow, hcontexts⟩ := h.foldl (env.order jos) jos
    refine ⟨hclock, hwindow, fun t => ?_⟩
    rw [hcontexts t]
    split_ifs with hmem
    · rfl
    · rw [(env.order_perm jos).mem_iff, htidy.keys, Option.not_isSome_iff_eq_none] at hmem
      rw [hmem, Option.map_none]
  · refine ⟨rfl, rfl, fun t => ?_⟩
    have hzero : jos.contextOrder.countP (jos.timedFor kind) = 0 := by
      rw [← htidy.timed kind hkind]
      omega
    cases hc : jos.contexts t with
    | none => rfl
    | some c =>
      have hmem : t ∈ jos.contextOrder := (htidy.keys t).mpr (by rw [hc]; rfl)
      have hnot := List.countP_eq_zero.mp hzero t hmem
      rw [Jea9Linux.timedFor, hc] at hnot
      have hdue : c.dueFor kind jos.monotonicNS = false := by
        simp only [Option.any_some, Context.timedFor, decide_eq_true_eq] at hnot
        simp only [Context.dueFor, decide_eq_false_iff_not]
        tauto
      rw [Option.map_some, c.timeout_of_not hdue]

variable (env : Env)

/-- **Timeouts.**  In virtual time a look at the timeouts makes runnable who is due, and nothing else. -/
theorem refreshBlocked_spec {jos : Jea9Linux} (h : Tidy jos jos.futexWaiters)
    (hhermit : jos.timeMode = .hermitTime) :
    (jos.refreshBlocked env).monotonicNS = jos.monotonicNS ∧ (jos.refreshBlocked env).windowOpen = jos.windowOpen ∧
    ∀ t, (jos.refreshBlocked env).contexts t = (jos.contexts t).map fun c => c.expire jos.monotonicNS := by
  have hsync : jos.syncRealClock env = jos := by rw [Jea9Linux.syncRealClock, hhermit]
  let j₁ := if jos.timedFutexWaiters > 0 then jos.refreshFutexTimeouts env else jos
  let j₂ := if j₁.timedEpollWaiters > 0 then j₁.refreshEpollTimeouts env else j₁
  let j₃ := if j₂.timedNanosleepWaiters > 0 then j₂.refreshNanosleepTimeouts env else j₂
  have hadv₁ : Advances jos j₁ := .ite (jos.refreshFutexTimeouts_advances env) (.refl jos)
  have hadv₂ : Advances j₁ j₂ := .ite (j₁.refreshTimeouts_advances (by decide) _) (.refl j₁)
  have htidy₁ := hadv₁.tidy h
  have htidy₂ := hadv₂.tidy htidy₁
  have hfutex : LooksAt .futex errETIMEDOUT fun jos tid => if jos.timedOut .futex tid then
      (jos.removeFutexWaiter (jos.waitAddrOf tid) tid).markRunnable tid errETIMEDOUT else jos :=
    looksAt_of (fun jos tid => jos.removeFutexWaiter (jos.waitAddrOf tid) tid) fun _ _ => ⟨rfl, rfl, rfl⟩
  have hplain : ∀ kind, LooksAt kind 0 fun jos tid => if jos.timedOut kind tid then jos.markRunnable tid 0 else jos :=
    fun kind => looksAt_of (fun jos _ => jos) fun _ _ => ⟨rfl, rfl, rfl⟩
  obtain ⟨hclock₁, hwindow₁, hcontexts₁⟩ := hfutex.guarded env h (by decide)
  obtain ⟨hclock₂, hwindow₂, hcontexts₂⟩ := (hplain .epoll).guarded env htidy₁ (by decide)
  obtain ⟨hclock₃, hwindow₃, hcontexts₃⟩ := (hplain .nanosleep).guarded env htidy₂ (by decide)
  have hend : (jos.refreshBlocked env).monotonicNS = j₃.monotonicNS ∧
      (jos.refreshBlocked env).windowOpen = j₃.windowOpen ∧
      (jos.refreshBlocked env).contexts = j₃.contexts := by
    have hlast : jos.refreshBlocked env = if j₃.blocked ∧ j₃.hasRunnableContext then j₃.unblock
        else if j₃.blocked ∧ j₃.blockedHasDeadline ∧ j₃.monotonicNS ≥ j₃.blockedUntil then j₃.unblock else j₃ := by
      unfold Jea9Linux.refreshBlocked
      rw [hsync]
    rw [hlast]
    generalize j₃ = j
    split_ifs <;> exact ⟨rfl, rfl, rfl⟩
  obtain ⟨hclock, hwindow, hcontexts⟩ := hend
  have hnow₁ : j₁.monotonicNS = jos.monotonicNS := hclock₁
  have hnow₂ : j₂.monotonicNS = jos.monotonicNS := (show j₂.monotonicNS = j₁.monotonicNS from hclock₂).trans hnow₁
  refine ⟨?_, ?_, fun t => ?_⟩
  · exact hclock.trans ((show j₃.monotonicNS = j₂.monotonicNS from hclock₃).trans hnow₂)
  · exact hwindow.trans ((show j₃.windowOpen = j₂.windowOpen from hwindow₃).trans
      ((show j₂.windowOpen = j₁.windowOpen from hwindow₂).trans hwindow₁))
  · have h₁ : j₁.contexts t = (jos.contexts t).map fun c => c.timeout .futex jos.monotonicNS errETIMEDOUT :=
        hcontexts₁ t
    have h₂ : j₂.contexts t = (j₁.contexts t).map fun c => c.timeout .epoll j₁.monotonicNS 0 := hcontexts₂ t
    have h₃ : j₃.contexts t = (j₂.contexts t).map fun c => c.timeout .nanosleep j₂.monotonicNS 0 := hcontexts₃ t
    rw [hcontexts, h₃, h₂, h₁, hnow₁, hnow₂, Option.map_map, Option.map_map]
    rfl

/-! ## The clock when nothing can run -/

namespace Jea9Linux

variable (jos : Jea9Linux)

/-- where the clock goes when nothing can run: towards the next deadline or the end of the chaos window, as far as the
policy takes it; `none` if it stays -/
def idleTarget : Option Int :=
  match jos.nextClockEvent with
  | none => none
  | some event => if event ≤ jos.monotonicNS then none else (jos.stepToward event).1

theorem refreshChaosWindow_windowOpen : jos.refreshChaosWindow.windowOpen = jos.windowOpen := by
  by_cases h : !jos.chaosActive ∨ jos.monotonicNS < jos.chaosUntilNS
  · rw [refreshChaosWindow, if_pos h]
  · have hclosed : jos.windowOpen = false := by
      simp only [not_or] at h
      simp [windowOpen, h.2]
    rw [hclosed, refreshChaosWindow, if_neg h]
    rfl

theorem refreshChaosWindow_of_open (h : jos.windowOpen = true) : jos.refreshChaosWindow = jos := by
  rw [refreshChaosWindow, if_pos (.inr (of_decide_eq_true h).2)]

/-- the personality after some draws of the generator -/
def withDraws (k : Nat) : Jea9Linux := { jos with schedDraws := k }

theorem stepToward_snd (target : Int) : ∃ k, (jos.stepToward target).2 = jos.withDraws k := by
  unfold stepToward
  split
  · exact ⟨jos.schedDraws, rfl⟩
  · exact ⟨jos.schedDraws, rfl⟩
  · exact jos.schedN_snd _
  · exact ⟨jos.schedDraws, rfl⟩

theorem nextClockEvent_isSome (h : jos.nextWaitDeadline.isSome) : jos.nextClockEvent.isSome := by
  obtain ⟨d, hd⟩ := Option.isSome_iff_exists.mp h
  unfold nextClockEvent
  rw [hd]
  dsimp only
  split <;> first | rfl | simp_all

theorem nextClockEvent_le {event : Int} (h : jos.nextClockEvent = some event) (hactive : jos.chaosActive = true)
    (hopen : jos.chaosUntilNS > jos.monotonicNS) : event ≤ jos.chaosUntilNS := by
  unfold nextClockEvent at h
  rw [if_pos ⟨hactive, hopen⟩] at h
  cases hd : jos.nextWaitDeadline with
  | none =>
    rw [hd] at h
    exact (Option.some.inj h).ge
  | some d =>
    rw [hd] at h
    have hevent := Option.some.inj h
    split_ifs at hevent <;> omega

end Jea9Linux

/-- **The clock when nothing can run.** If it moves, whoever is due by then becomes runnable, and the chaos window stays
open unless it has ended. -/
theorem advanceIdle_spec {jos : Jea9Linux} (h : Tidy jos jos.futexWaiters) (hhermit : jos.timeMode = .hermitTime)
    (hdeadline : jos.nextWaitDeadline.isSome) :
    match jos.idleTarget with
    | none =>
      (jos.advanceVirtualClockWhenNoRunnableCandidate env).2.contexts = jos.contexts ∧
      (jos.advanceVirtualClockWhenNoRunnableCandidate env).2.windowOpen = jos.windowOpen
    | some now =>
      (∀ t, (jos.advanceVirtualClockWhenNoRunnableCandidate env).2.contexts t = (jos.contexts t).map fun c =>
        c.expire now) ∧
      (jos.advanceVirtualClockWhenNoRunnableCandidate env).2.windowOpen = decide
        (jos.chaosActive = true ∧ now < jos.chaosUntilNS) := by
  obtain ⟨event, hevent⟩ := Option.isSome_iff_exists.mp (jos.nextClockEvent_isSome hdeadline)
  have hadvance : (jos.advanceVirtualClockWhenNoRunnableCandidate env).2
      = (jos.advanceVirtualClockTowardDeadline env event).2 := by
    unfold Jea9Linux.advanceVirtualClockWhenNoRunnableCandidate
    rw [hhermit]
    dsimp only
    rw [hevent]
    dsimp only
    split_ifs <;> rfl
  rw [hadvance]
  have htarget :
      (if jos.chaosActive ∧ jos.chaosUntilNS > jos.monotonicNS ∧ jos.chaosUntilNS < event then jos.chaosUntilNS
      else event) = event := by
    rw [if_neg]
    rintro ⟨hactive, hopen, hlt⟩
    exact absurd (jos.nextClockEvent_le hevent hactive hopen) (by omega)
  obtain ⟨k, hk⟩ := jos.stepToward_snd event
  unfold Jea9Linux.idleTarget Jea9Linux.advanceVirtualClockTowardDeadline
  rw [hhermit, hevent]
  dsimp only
  by_cases hpast : event ≤ jos.monotonicNS
  · rw [if_pos hpast, if_pos hpast]
    exact ⟨rfl, rfl⟩
  · rw [if_neg hpast, if_neg hpast, htarget]
    generalize jos.stepToward event = r at hk
    obtain ⟨_ | now, jos'⟩ := r
    · obtain rfl : jos' = jos.withDraws k := hk
      exact ⟨rfl, rfl⟩
    · obtain rfl : jos' = jos.withDraws k := hk
      have hmoves : Moves jos ((jos.withDraws k).setClock now) :=
        Jea9Linux.moves_of_eq rfl rfl rfl rfl rfl ⟨rfl, rfl, rfl, rfl, fun _ hc => hc, rfl⟩
      have hrefresh := ((jos.withDraws k).setClock now).refreshChaosWindow_same
      obtain ⟨-, hwindow, hcontexts⟩ := refreshBlocked_spec env (hrefresh.advances.tidy (hmoves.tidy h))
        (hrefresh.kept.timeMode.trans hhermit)
      have hnow : ((jos.withDraws k).setClock now).refreshChaosWindow.monotonicNS = now := hrefresh.kept.clock hhermit
      refine ⟨fun t => ?_, ?_⟩
      · rw [hcontexts t, hnow, Jea9Linux.refreshChaosWindow_contexts]
        rfl
      · rw [hwindow, Jea9Linux.refreshChaosWindow_windowOpen]
        rfl

/-! ## The report -/

/-- some context can be chosen now -/
def SomebodyMayRun (s : Sys) : Prop := ∃ tid ctx, s.jos.contexts tid = some ctx ∧ ctx.MayRun s.jos.windowOpen

/-- some context waits with a deadline -/
def DeadlinePending (s : Sys) : Prop :=
  ∃ tid ctx, s.jos.contexts tid = some ctx ∧ ctx.state = .waiting ∧ ctx.waitHasDeadline = true

/-- no context can run, and none waits with a deadline -/
def Stuck (s : Sys) : Prop := (∀ tid ctx, s.jos.contexts tid = some ctx → ctx.state ≠ .runnable) ∧ ¬ DeadlinePending s

/-- the clock goes to a time at which some context is runnable or due and not held back -/
def WakesInTime (s : Sys) : Prop :=
  ∃ now, s.jos.refreshChaosWindow.idleTarget = some now ∧ ∃ tid ctx, s.jos.contexts tid = some ctx ∧
    (ctx.state = .runnable ∨ ctx.Due now) ∧
    ¬ (s.jos.windowOpen = true ∧ now < s.jos.chaosUntilNS ∧ ctx.schedPriority = .low)

/-- the personality reports that it is blocked only if it is stuck -/
def BlockedOnlyIfStuck (env : Env) (s : Sys) : Prop :=
  (s.scheduleAfterCurrentBlocked env).1 = .exit → (s.scheduleAfterCurrentBlocked env).2.jos.blocked = true → Stuck s

theorem nextWaitDeadline_isSome_iff {s : Sys} (h : s.Tidy) : s.jos.nextWaitDeadline.isSome ↔ DeadlinePending s := by
  have hof : ∀ tid, (s.jos.deadlineOf tid).isSome ↔ ∃ ctx, s.jos.contexts tid = some ctx ∧ ctx.state = .waiting ∧
      ctx.waitHasDeadline = true := by
    intro tid
    unfold Jea9Linux.deadlineOf
    cases s.jos.contexts tid with
    | none => simp
    | some ctx =>
      dsimp only
      split_ifs with hw <;> simp [hw]
  unfold Jea9Linux.nextWaitDeadline
  rw [List.isSome_min?_iff, ne_eq, List.filterMap_eq_nil_iff]
  constructor
  · intro hnot
    obtain ⟨tid, -, hsome⟩ := not_forall₂.mp hnot
    obtain ⟨ctx, hctx⟩ := (hof tid).mp (Option.isSome_iff_ne_none.mpr hsome)
    exact ⟨tid, ctx, hctx⟩
  · rintro ⟨tid, ctx, hctx, hw⟩ hall
    have hmem : tid ∈ s.jos.contextOrder := (h.queues.keys tid).mpr (by rw [hctx]; rfl)
    have hsome := (hof tid).mpr ⟨ctx, hctx, hw⟩
    rw [hall tid hmem] at hsome
    cases hsome

namespace Sys

theorem goOnOr_exit_iff {r : Bool × Sys} {k : Sys → NoteDisposition × Sys} :
    (goOnOr r k).1 = .exit ↔ r.1 = false ∧ (k r.2).1 = .exit := by
  unfold goOnOr
  cases r.1 <;> simp

theorem loadUnblocked_fst (s : Sys) (r : Option Tid × Jea9Linux) : (s.loadUnblocked r).1 = r.1.isSome := by
  obtain ⟨_ | tid, jos⟩ := r <;> rfl

theorem loadUnblocked_none {s : Sys} {r : Option Tid × Jea9Linux} (h : r.1 = none) :
    (s.loadUnblocked r).2 = { s with jos := r.2 } := by
  obtain ⟨_ | tid, jos⟩ := r
  · rfl
  · cases h

/-- once nobody was found at once: the clock goes on if there is a deadline, and nobody is found then either -/
theorem scheduleAtDeadline_exit_iff (env : Env) (s : Sys) :
    (s.scheduleAtDeadline env).1 = .exit ↔ s.jos.nextWaitDeadline.isSome = true →
      (s.jos.advanceVirtualClockWhenNoRunnableCandidate env).2.firstRunnableByPolicy.1.isSome = false := by
  unfold scheduleAtDeadline
  split_ifs with h
  · rw [goOnOr_exit_iff, loadFirstRunnableAfterBlocked, loadUnblocked_fst]
    exact ⟨fun hexit _ => hexit.1, fun hexit => ⟨hexit h, rfl⟩⟩
  · exact ⟨fun _ hsome => absurd hsome h, fun _ => rfl⟩

theorem scheduleNext_exit_iff (env : Env) (s : Sys) :
    (s.scheduleNext env).1 = .exit ↔ s.jos.nextRunnableByPolicyAfterCurrent.1.isSome = false ∧
      (scheduleAtDeadline env { s with jos := s.jos.refreshChaosWindow }).1 = .exit := by
  unfold scheduleNext
  rw [goOnOr_exit_iff, loadUnblocked_fst]
  refine and_congr_right fun hnone => ?_
  rw [loadUnblocked_none (Option.not_isSome_iff_eq_none.mp (by rw [hnone]; decide))]
  rfl

end Sys

theorem scheduleNext_blocked {s : Sys} (h : (s.scheduleNext env).1 = .exit) :
    (s.scheduleNext env).2.jos.blocked = true := by
  have hreport :
      ∀ {r : Bool × Sys} {k : Sys → NoteDisposition × Sys}, (∀ s, (k s).1 = .exit → (k s).2.jos.blocked = true) →
      (Sys.goOnOr r k).1 = .exit → (Sys.goOnOr r k).2.jos.blocked = true := by
    intro r k hk hexit
    unfold Sys.goOnOr at hexit ⊢
    split_ifs at hexit ⊢ with hr
    exact hk _ hexit
  refine hreport (fun s hexit => ?_) h
  unfold Sys.scheduleAtDeadline at hexit ⊢
  split_ifs at hexit ⊢
  · exact hreport (fun _ _ => rfl) hexit
  · rfl

theorem mayRun_afterIdle_iff {jos : Jea9Linux} (h : Tidy jos jos.futexWaiters)
    (hhermit : jos.timeMode = .hermitTime) (hdeadline : jos.nextWaitDeadline.isSome) :
    (jos.advanceVirtualClockWhenNoRunnableCandidate env).2.firstRunnableByPolicy.1.isSome = true ↔
      match jos.idleTarget with
      | none => ∃ tid ctx, jos.contexts tid = some ctx ∧ ctx.MayRun jos.windowOpen
      | some now => ∃ tid ctx, jos.contexts tid = some ctx ∧ (ctx.state = .runnable ∨ ctx.Due now) ∧
          ¬ (jos.chaosActive = true ∧ now < jos.chaosUntilNS ∧ ctx.schedPriority = .low) := by
  have hspec := advanceIdle_spec env h hhermit hdeadline
  rw [firstRunnable_isSome_iff ((jos.advanceVirtualClockWhenNoRunnableCandidate_moves env).tidy h)]
  cases htarget : jos.idleTarget with
  | none =>
    rw [htarget] at hspec
    rw [hspec.1, hspec.2]
  | some now =>
    rw [htarget] at hspec
    obtain ⟨hcontexts, hwindow⟩ := hspec
    rw [hwindow]
    refine exists_congr fun tid => ?_
    rw [hcontexts tid]
    cases jos.contexts tid with
    | none => simp
    | some c =>
      simp only [Option.map_some, Option.some.injEq, exists_eq_left', Context.MayRun, c.expire_runnable_iff,
        c.expire_schedPriority, decide_eq_true_eq, and_assoc]

/-- **When the personality reports that it is blocked.** Nobody may be chosen, nor after the clock has gone on, if a
deadline is pending. -/
theorem scheduleAfterCurrentBlocked_exit_iff {s : Sys} (h : s.Tidy) (hhermit : s.jos.timeMode = .hermitTime)
    (hwaits : ¬ s.jos.isRunnable s.jos.currentTID) :
    (s.scheduleAfterCurrentBlocked env).1 = .exit ↔ ¬ SomebodyMayRun s ∧ (DeadlinePending s → ¬ WakesInTime s) := by
  have hrefresh := s.jos.refreshChaosWindow_same
  have hnext : s.jos.nextRunnableByPolicyAfterCurrent.1.isSome = true ↔ SomebodyMayRun s := by
    rw [nextRunnable_isSome_iff h.queues]
    refine exists_congr fun tid => exists_congr fun ctx => and_iff_right_of_imp ?_
    rintro ⟨hctx, hrun, -⟩ rfl
    rw [Jea9Linux.isRunnable_eq_any, hctx] at hwaits
    exact hwaits (decide_eq_true hrun)
  have hpending : s.jos.refreshChaosWindow.nextWaitDeadline.isSome = true ↔ DeadlinePending s := by
    rw [nextWaitDeadline_isSome_iff (s := { s with jos := s.jos.refreshChaosWindow }) (hrefresh.advances.keeps h)]
    unfold DeadlinePending
    rw [s.jos.refreshChaosWindow_contexts]
  have hschedule : s.scheduleAfterCurrentBlocked env = s.scheduleNext env := by
    rw [Sys.scheduleAfterCurrentBlocked, hhermit]
  rw [hschedule, Sys.scheduleNext_exit_iff, Sys.scheduleAtDeadline_exit_iff, ← Bool.not_eq_true, hnext]
  refine and_congr_right fun hnobody => ?_
  dsimp only
  rw [hpending]
  refine imp_congr_right fun hdeadline => ?_
  rw [← Bool.not_eq_true, mayRun_afterIdle_iff env (hrefresh.advances.tidy h.queues)
    (hrefresh.kept.timeMode.trans hhermit)
    (hpending.mpr hdeadline)]
  refine not_congr ?_
  unfold WakesInTime
  cases htarget : s.jos.refreshChaosWindow.idleTarget with
  | none =>
    rw [s.jos.refreshChaosWindow_contexts, s.jos.refreshChaosWindow_windowOpen]
    exact ⟨fun hmay => absurd hmay hnobody, fun ⟨_, hsome, _⟩ => (nomatch hsome)⟩
  | some now =>
    -- an open window is untouched, and a closed one holds nobody back
    have hwindow : ∀ ctx : Context, (s.jos.refreshChaosWindow.chaosActive = true ∧
        now < s.jos.refreshChaosWindow.chaosUntilNS ∧ ctx.schedPriority = .low) ↔
        (s.jos.windowOpen = true ∧ now < s.jos.chaosUntilNS ∧ ctx.schedPriority = .low) := by
      intro ctx
      rw [s.jos.refreshChaosWindow_chaosActive]
      refine and_congr_right fun hopen => ?_
      rw [s.jos.refreshChaosWindow_of_open hopen]
    dsimp only
    simp only [Option.some.injEq, exists_eq_left', s.jos.refreshChaosWindow_contexts, hwindow]

theorem beginWait_contexts {s : Sys} (h : s.Running) (w : Wait) : ∃ c, s.jos.contexts s.jos.currentTID = some c ∧
    (s.beginWait w).jos.contexts = update s.jos.contexts s.jos.currentTID
      (some (Jea9Linux.parked { c with snapshot := snapshotCPU s.cpu } w)) := by
  obtain ⟨c, hc, hs⟩ := Jea9Linux.exists_of_isRunnable h.runnable
  have hsave : s.saveCurrent.jos = { s.jos with
      contexts := update s.jos.contexts s.jos.currentTID (some { c with snapshot := snapshotCPU s.cpu }) } :=
    Jea9Linux.modifyContext_eq hc _
  have hc' : s.saveCurrent.jos.contexts s.saveCurrent.jos.currentTID = some
      { c with snapshot := snapshotCPU s.cpu } := by
    rw [hsave]
    exact update_self ..
  refine ⟨c, hc, ?_⟩
  show (s.saveCurrent.jos.beginWait w).contexts = _
  rw [Jea9Linux.beginWait_eq h.saveCurrent.tidy.queues hc' hs, Jea9Linux.addDeadline_contexts,
    Jea9Linux.enqueue_contexts, hsave]
  simp only [update_idem]

theorem beginWait_kept {s : Sys} (h : s.Running) (w : Wait) : Kept s.jos (s.beginWait w).jos := by
  obtain ⟨c, hc, hs⟩ := Jea9Linux.exists_of_isRunnable h.saveCurrent.runnable
  show Kept s.jos (s.saveCurrent.jos.beginWait w)
  rw [Jea9Linux.beginWait_eq h.saveCurrent.tidy.queues hc hs]
  exact s.saveCurrent_same.kept.trans (Jea9Linux.park_kept _ _ w)

theorem beginWait_currentTID {s : Sys} (h : s.Running) (w : Wait) :
    (s.beginWait w).jos.currentTID = s.jos.currentTID := by
  obtain ⟨c, hc, hs⟩ := Jea9Linux.exists_of_isRunnable h.saveCurrent.runnable
  show (s.saveCurrent.jos.beginWait w).currentTID = _
  rw [Jea9Linux.beginWait_eq h.saveCurrent.tidy.queues hc hs, Jea9Linux.addDeadline_currentTID,
    Jea9Linux.enqueue_currentTID]
  rfl

theorem beginWait_waits {s : Sys} (h : s.Running) (w : Wait) :
    ¬ (s.beginWait w).jos.isRunnable (s.beginWait w).jos.currentTID := by
  obtain ⟨c, -, hcontexts⟩ := beginWait_contexts h w
  rw [beginWait_currentTID h, Jea9Linux.isRunnable_eq_any, hcontexts, update_self]
  exact Bool.false_ne_true

/-- **When the report is right.**  A thread begins to wait.  The personality then reports that it is blocked only if
it is stuck, if and only if somebody may be chosen at once, or it is stuck, or a deadline is pending and somebody may
be chosen once the clock has gone on. -/
theorem blocked_only_if_stuck_iff (env : Env) {s : Sys} (h : s.Running) (hhermit : s.jos.timeMode = .hermitTime)
    (w : Wait) :
    BlockedOnlyIfStuck env (s.beginWait w) ↔ SomebodyMayRun (s.beginWait w) ∨ Stuck (s.beginWait w) ∨
      (DeadlinePending (s.beginWait w) ∧ WakesInTime (s.beginWait w)) := by
  have hmode : (s.beginWait w).jos.timeMode = .hermitTime := (beginWait_kept h w).timeMode.trans hhermit
  have hexit := scheduleAfterCurrentBlocked_exit_iff env (Sys.beginWait_tidy h w) hmode (beginWait_waits h w)
  have hblocked : ((s.beginWait w).scheduleAfterCurrentBlocked env).1 = .exit →
      ((s.beginWait w).scheduleAfterCurrentBlocked env).2.jos.blocked = true := by
    rw [Sys.scheduleAfterCurrentBlocked, hmode]
    exact scheduleNext_blocked env
  constructor
  · intro honly
    by_contra hnot
    push Not at hnot
    obtain ⟨hnobody, hstuck, hwakes⟩ := hnot
    have hout := hexit.mpr ⟨hnobody, hwakes⟩
    exact hstuck (honly hout (hblocked hout))
  · rintro (hmay | hstuck | ⟨hpending, hwakes⟩) hout _
    · exact absurd hmay (hexit.mp hout).1
    · exact hstuck
    · exact absurd hwakes ((hexit.mp hout).2 hpending)

/-- one thread sleeps for 100 ns: the clock goes to its deadline, and there is no report … -/
theorem blocked_only_if_stuck_sleeper :
    BlockedOnlyIfStuck quietEnv (smallBoot.beginWait { kind := .nanosleep, deadline := some 100 }) := by
  obtain ⟨hctx, htarget⟩ : ((smallBoot.beginWait { kind := .nanosleep, deadline := some 100 }).jos.contexts 1).map
        (fun c => (c.state, c.waitKind, c.waitHasDeadline, c.waitDeadlineNS)) = some (.waiting, .nanosleep, true, 100) ∧
      (smallBoot.beginWait { kind := .nanosleep, deadline := some 100 }).jos.refreshChaosWindow.idleTarget = some 100 ∧
      (smallBoot.beginWait { kind := .nanosleep, deadline := some 100 }).jos.windowOpen = false := by
    decide +kernel
  obtain ⟨ctx, hctx, hdata⟩ := Option.map_eq_some_iff.mp hctx
  obtain ⟨hstate, hkind, hhas, hdeadline⟩ :
      ctx.state = .waiting ∧ ctx.waitKind = .nanosleep ∧ ctx.waitHasDeadline = true ∧
    ctx.waitDeadlineNS = 100 := by simpa using hdata
  refine (blocked_only_if_stuck_iff quietEnv (smallBoot_reached.loaded.running rfl) rfl _).mpr (.inr (.inr ⟨?_, ?_⟩))
  · exact ⟨1, ctx, hctx, hstate, hhas⟩
  · refine ⟨100, htarget.1, 1, ctx, hctx, .inr ⟨hstate, by rw [hkind]; decide, hhas, hdeadline.le⟩, ?_⟩
    rw [htarget.2]
    exact fun hopen => Bool.false_ne_true hopen.1

/-- the draws of a generator that makes the first of two threads a low priority and opens a chaos window of 100 ns -/
def starvingRng : SchedRng :=
  { draw := fun k => if k = 1 then 5 else if k = 4 then 99 else 0, within := fun _ => 0
    small := fun k => ⟨0, by rfl, by split_ifs <;> decide⟩ }

/-- one thread in ten gets a low priority, and one quantum in a hundred opens a chaos window -/
def chaosOptions : Options :=
  { smallOptions with
    clockPolicy := .chaos, monotonicStartNS := 1000, schedRNG := starvingRng
    scheduler := { smallOptions.scheduler with
      mode := .chaos, lowPriorityNumerator := 1, chaosWindowProbNumerator := 1, chaosWindowMaxNS := 1000 } }

def chaosBoot : Sys := boot chaosOptions (newCPU (GuestMemory.newGuestMemoryWithModel 24 .linear false))

theorem chaosBoot_reached : Reached chaosOptions true chaosBoot := .boot _

/-- a quantum of the first of two threads ends -/
def starved : List Act := [spawn, .quantum]

def futexForever : Wait := { kind := .futex, addr := 0x4000, deadline := none }

/-- … but inside the window the second thread waits at a futex, and the first one, which could run, is reported as
a deadlock; `Run` then takes the report back without loading anyone, and returns as if the guest had ended -/
theorem blocked_report_starves :
    Reached chaosOptions true (runActs starved chaosBoot).2 ∧ (runActs starved chaosBoot).2.jos.currentTID = 2 ∧
    (runActs (starved ++ [ask 98 0x4000]) chaosBoot).1 = false ∧
    (runActs (starved ++ [ask 98 0x4000]) chaosBoot).2.jos.blocked = true ∧
    ((runActs (starved ++ [ask 98 0x4000]) chaosBoot).2.jos.contexts 1).map Context.state = some .runnable ∧
    (boundary quietEnv (runActs (starved ++ [ask 98 0x4000]) chaosBoot).2).1 = .goOn ∧
    ¬ BlockedOnlyIfStuck quietEnv ((runActs starved chaosBoot).2.beginWait futexForever) := by
  obtain ⟨hgoes, hexit, hreport, hfirst⟩ : (runActs starved chaosBoot).1 = true ∧
      (((runActs starved chaosBoot).2.beginWait futexForever).scheduleAfterCurrentBlocked quietEnv).1 = .exit ∧
      (((runActs starved chaosBoot).2.beginWait futexForever).scheduleAfterCurrentBlocked quietEnv).2.jos.blocked =
        true ∧
      (((runActs starved chaosBoot).2.beginWait futexForever).jos.contexts 1).map Context.state = some .runnable := by
    decide +kernel
  have hreached := runActs_reached starved chaosBoot_reached
  rw [hgoes] at hreached
  refine ⟨hreached, ?_⟩
  simp only [← and_assoc]
  refine ⟨by decide +kernel, fun honly => ?_⟩
  obtain ⟨ctx, hctx, hrun⟩ := Option.map_eq_some_iff.mp hfirst
  exact (honly hexit hreport).1 1 ctx hctx hrun

end RiscvEmu.Linux
