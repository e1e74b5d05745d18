/-
When virtual time goes on, under the policy that moves the clock only when nothing else can be done.

A call means one of three things for the clock (`Intent`): it does not wait; it goes to its own deadline by itself if
it is alone; or it waits, and the scheduler goes to the next deadline if nobody can run. The end of a quantum is like
a wait without a deadline. `Event.run_clock` says what the clock shows after each.

`deadlines_kept_iff` says when the clock does not jump past a deadline somebody waits for, and `time_stands_iff` when
it does not move while something could still be done; `moment_of_increase`, that nothing of this changes in an event
before it comes to the clock.
-/
import RiscvEmu.Linux.Deadlock

namespace RiscvEmu.Linux

open Jea9Linux Function Call

/-! ## Deadlines -/

theorem min?_congr {l l' : List Int} (h : ∀ a, a ∈ l ↔ a ∈ l') : l.min? = l'.min? := by
  cases hl : l.min? with
  | none =>
    have hnil : l = [] := List.min?_eq_none_iff.mp hl
    have hnil' : l' = [] := List.eq_nil_iff_forall_not_mem.mpr fun a ha => by
      have := (h a).mpr ha
      rw [hnil] at this
      cases this
    rw [hnil']
    rfl
  | some a =>
    obtain ⟨hmem, hmin⟩ := List.min?_eq_some_iff.mp hl
    exact (List.min?_eq_some_iff.mpr ⟨(h a).mp hmem, fun b hb => hmin b ((h b).mpr hb)⟩).symm

namespace Jea9Linux

variable (jos : Jea9Linux)

/-- the deadlines that somebody waits for -/
def waitDeadlines : List Int := jos.contextOrder.filterMap jos.deadlineOf

theorem nextWaitDeadline_eq : jos.nextWaitDeadline = jos.waitDeadlines.min? := rfl

/-- nobody but the current thread can run -/
def alone : Bool := jos.contextOrder.all fun tid => tid = jos.currentTID ∨ !jos.isRunnable tid

theorem deadlineOf_eq_some_iff (tid : Tid) (d : Int) : jos.deadlineOf tid = some d ↔
    ∃ ctx, jos.contexts tid = some ctx ∧ ctx.state = .waiting ∧ ctx.waitHasDeadline = true ∧
      ctx.waitDeadlineNS = d := by
  unfold deadlineOf
  cases jos.contexts tid with
  | none => simp
  | some ctx =>
    dsimp only
    split_ifs with h
    · simp [h]
    · simp only [Option.some.injEq, exists_eq_left', false_iff]
      exact fun hw => h ⟨hw.1, hw.2.1⟩

variable {jos}

theorem mem_waitDeadlines_iff (h : Tidy jos jos.futexWaiters) (d : Int) : d ∈ jos.waitDeadlines ↔
    ∃ tid ctx, jos.contexts tid = some ctx ∧ ctx.state = .waiting ∧ ctx.waitHasDeadline = true ∧
      ctx.waitDeadlineNS = d := by
  unfold waitDeadlines
  rw [List.mem_filterMap]
  constructor
  · rintro ⟨tid, -, hd⟩
    exact ⟨tid, (jos.deadlineOf_eq_some_iff tid d).mp hd⟩
  · rintro ⟨tid, ctx, hctx, hw⟩
    exact ⟨tid, (h.keys tid).mpr (by rw [hctx]; rfl), (jos.deadlineOf_eq_some_iff tid d).mpr ⟨ctx, hctx, hw⟩⟩

theorem alone_iff (h : Tidy jos jos.futexWaiters) : jos.alone = true ↔
    ∀ tid ctx, jos.contexts tid = some ctx → tid ≠ jos.currentTID → ctx.state ≠ .runnable := by
  unfold alone
  rw [List.all_eq_true]
  constructor
  · intro hall tid ctx hctx hne hrun
    have hmem : tid ∈ jos.contextOrder := (h.keys tid).mpr (by rw [hctx]; rfl)
    obtain heq | hidle := of_decide_eq_true (hall tid hmem)
    · exact hne heq
    · rw [isRunnable_eq_any, hctx] at hidle
      simp [hrun] at hidle
  · intro hall tid _
    refine decide_eq_true (or_iff_not_imp_left.mpr fun hne => ?_)
    rw [isRunnable_eq_any]
    cases hctx : jos.contexts tid with
    | none => rfl
    | some ctx => simp [hall tid ctx hctx hne]

end Jea9Linux

/-- what a thread waits for -/
def Context.waitsFor (ctx : Context) : ContextState × WaitKind × Fd × Bool × Int :=
  (ctx.state, ctx.waitKind, ctx.waitFD, ctx.waitHasDeadline, ctx.waitDeadlineNS)

/-- the threads, and what decides which level-triggered registrations are ready -/
def Jea9Linux.seen (jos : Jea9Linux) :
    (Tid → Option Context) × (Fd → Option FD) × (Nat → Pipe) × (Nat → Fd → Option (BitVec 32)) :=
  (jos.contexts, jos.fds, jos.pipes, jos.asked)

theorem OnlyEpolls.seen {s s' : Sys} (h : OnlyEpolls s s') : s'.jos.seen = s.jos.seen := by
  obtain ⟨e, he, hasked⟩ := h
  unfold Jea9Linux.seen
  rw [hasked, he]

/-- the waits of threads, the descriptors and what is asked of them, and in virtual time the clock, are as they were -/
structure Still (jos jos' : Jea9Linux) : Prop extends SameWaits jos jos' where
  waits : ∀ tid, (jos'.contexts tid).map Context.waitsFor = (jos.contexts tid).map Context.waitsFor
  watched : jos'.seen.2 = jos.seen.2

namespace Still

variable {jos jos' jos'' : Jea9Linux}

theorem refl (jos : Jea9Linux) : Still jos jos := ⟨.refl jos, fun _ => rfl, rfl⟩

theorem trans (h : Still jos jos') (h' : Still jos' jos'') : Still jos jos'' :=
  ⟨h.toSameWaits.trans h'.toSameWaits, fun tid => (h'.waits tid).trans (h.waits tid), h'.watched.trans h.watched⟩

theorem of_seen (h : SameWaits jos jos') (hseen : jos'.seen = jos.seen) : Still jos jos' :=
  ⟨h, fun tid => congrArg (fun p => (p.1 tid).map Context.waitsFor) hseen, congrArg Prod.snd hseen⟩

theorem modifyContext {tid : Tid} {f : Context → Context} (h : SameWaits jos (jos.modifyContext tid f))
    (hf : ∀ c, jos.contexts tid = some c → (f c).waitsFor = c.waitsFor) : Still jos (jos.modifyContext tid f) := by
  refine ⟨h, fun t => ?_, rfl⟩
  unfold Jea9Linux.modifyContext
  dsimp only
  by_cases ht : t = tid
  · subst ht
    rw [update_self]
    cases hc : jos.contexts t with
    | none => rfl
    | some c => exact congrArg some (hf c hc)
  · rw [update_of_ne ht]

theorem deadlines (h : Still jos jos') : jos'.deadlineOf = jos.deadlineOf := by
  funext tid
  have hwaits := h.waits tid
  unfold Jea9Linux.deadlineOf
  cases hctx : jos.contexts tid with
  | none =>
    rw [hctx] at hwaits
    rw [Option.map_eq_none_iff.mp hwaits]
  | some ctx =>
    rw [hctx] at hwaits
    obtain ⟨ctx', hctx', hfields⟩ := Option.map_eq_some_iff.mp hwaits
    simp only [Context.waitsFor, Prod.mk.injEq] at hfields
    simp only [hctx', hfields]

theorem waitDeadlines (h : Still jos jos') : jos'.waitDeadlines = jos.waitDeadlines := by
  unfold Jea9Linux.waitDeadlines
  rw [h.order, h.deadlines]

theorem alone (h : Still jos jos') : jos'.alone = jos.alone := by
  unfold Jea9Linux.alone
  rw [h.order, h.current, funext h.isRunnable_eq]

end Still

/-! ## The clock of one step -/

/-- what a call means for the clock -/
inductive Intent
  /-- the thread does not wait -/
  | returns
  /-- if it is alone, the thread takes the clock to its deadline by itself -/
  | reaches (deadline : Int)
  /-- the thread waits, for this deadline if there is one -/
  | waits (own : Option Int)
deriving DecidableEq, Repr

/-- a call with a timeout takes the clock there by itself, one without has to wait -/
def Intent.ofDeadline : Option Int → Intent
  | none => .waits none
  | some deadline => .reaches deadline

/-- the time to which the clock goes when nobody else can run -/
def Intent.target (jos : Jea9Linux) : Intent → Option Int
  | .returns => none
  | .reaches deadline => some deadline
  | .waits own => (own.toList ++ jos.waitDeadlines).min?

/-- the clock never goes back -/
def Jea9Linux.clockTo (jos : Jea9Linux) (target : Option Int) : Int := max (target.getD jos.monotonicNS) jos.monotonicNS

/-- what the clock shows after a step -/
def Jea9Linux.clockAfter (jos : Jea9Linux) (i : Intent) : Int :=
  if jos.alone then jos.clockTo (i.target jos) else jos.monotonicNS

theorem Still.clockAfter {jos jos' : Jea9Linux} (h : Still jos jos') (hhermit : jos.timeMode = .hermitTime)
    (i : Intent) :
    jos'.clockAfter i = jos.clockAfter i := by
  have htarget : i.target jos' = i.target jos := by
    cases i with
    | returns => rfl
    | reaches deadline => rfl
    | waits own => rw [Intent.target, Intent.target, h.waitDeadlines]
  unfold Jea9Linux.clockAfter Jea9Linux.clockTo
  rw [h.alone, htarget, h.kept.clock hhermit]

/-- virtual time, moved only when nothing else can be done, and no chaos window -/
structure Jea9Linux.Patient (jos : Jea9Linux) : Prop where
  orderly : Orderly jos
  hermit : jos.timeMode = .hermitTime
  policy : jos.clockPolicy = .onlyDeadlockAdvances

namespace Jea9Linux.Patient

variable {jos jos' : Jea9Linux}

theorem calm (h : jos.Patient) : jos.chaosActive = false := h.orderly.calm (by rw [h.policy]; decide)

theorem windowOpen (h : jos.Patient) : jos.windowOpen = false := by simp [Jea9Linux.windowOpen, h.calm]

theorem moves (h : jos.Patient) (hm : Moves jos jos') : jos'.Patient :=
  ⟨hm.settings.orderly h.orderly (hm.tidy h.orderly.queues), hm.settings.timeMode.trans h.hermit,
    hm.settings.clockPolicy.trans h.policy⟩

theorem still (h : jos.Patient) (hs : Still jos jos') : jos'.Patient := h.moves hs.advances.toMoves

theorem refreshChaosWindow (h : jos.Patient) : jos.refreshChaosWindow = jos := by
  rw [Jea9Linux.refreshChaosWindow, if_pos (.inl (by rw [h.calm]; rfl))]

theorem nextRunnable (h : jos.Patient) : jos.nextRunnableByPolicyAfterCurrent.1.isSome = !jos.alone := by
  rw [Bool.eq_iff_iff, nextRunnable_isSome_iff h.orderly.queues, Bool.not_eq_true', ← Bool.not_eq_true,
    alone_iff h.orderly.queues, h.windowOpen]
  simp only [Context.MayRun, Bool.false_eq_true, false_and, not_false_eq_true, and_true, not_forall]
  constructor
  · rintro ⟨tid, ctx, hne, hctx, hrun⟩
    exact ⟨tid, ctx, hctx, hne, not_not.mpr hrun⟩
  · rintro ⟨tid, ctx, hctx, hne, hrun⟩
    exact ⟨tid, ctx, hne, hctx, not_not.mp hrun⟩

theorem nextRunnable_snd (h : jos.Patient) : jos.nextRunnableByPolicyAfterCurrent.2 = jos := h.refreshChaosWindow

theorem next_of_alone (h : jos.Patient) (halone : jos.alone = true) :
    jos.nextRunnableByPolicyAfterCurrent = (none, jos) := by
  have hsome := h.nextRunnable
  rw [halone] at hsome
  exact Prod.ext (Option.not_isSome_iff_eq_none.mp (by rw [hsome]; decide)) h.nextRunnable_snd

theorem next_of_not_alone (h : jos.Patient) (halone : jos.alone = false) :
    ∃ tid, jos.nextRunnableByPolicyAfterCurrent = (some tid, jos) := by
  have hsome := h.nextRunnable
  rw [halone] at hsome
  obtain ⟨tid, htid⟩ := Option.isSome_iff_exists.mp hsome
  exact ⟨tid, Prod.ext htid h.nextRunnable_snd⟩

variable (env : Env)

theorem toward (h : jos.Patient) (deadline : Int) :
    (jos.advanceVirtualClockTowardDeadline env deadline).1.2 = true ∧
    (jos.advanceVirtualClockTowardDeadline env deadline).2.monotonicNS = jos.clockTo (some deadline) := by
  have hstep : jos.stepToward deadline = (some deadline, jos) := by
    rw [stepToward, h.policy]
  unfold advanceVirtualClockTowardDeadline Jea9Linux.clockTo
  rw [h.hermit]
  dsimp only
  by_cases hpast : deadline ≤ jos.monotonicNS
  · rw [if_pos hpast]
    exact ⟨rfl, (max_eq_right hpast).symm⟩
  · rw [if_neg hpast, if_neg (show ¬ (jos.chaosActive = true ∧ _) from fun hc => by rw [h.calm] at hc; cases hc.1),
      hstep]
    have hset : (jos.setClock deadline).Patient := h.moves (jos.setClock_moves deadline)
    obtain ⟨hclock, -⟩ := refreshBlocked_spec env hset.orderly.queues hset.hermit
    have hnow : (jos.setClock deadline).monotonicNS = deadline := rfl
    dsimp only
    rw [hset.refreshChaosWindow, hclock, hnow]
    exact ⟨decide_eq_true le_rfl, (max_eq_left (by omega)).symm⟩

theorem whenIdle (h : jos.Patient) :
    (jos.advanceVirtualClockWhenNoRunnableCandidate env).2.monotonicNS = jos.clockTo jos.nextWaitDeadline := by
  have hevent : jos.nextClockEvent = jos.nextWaitDeadline := by
    unfold nextClockEvent
    rw [h.calm]
    cases jos.nextWaitDeadline <;> rfl
  unfold advanceVirtualClockWhenNoRunnableCandidate
  rw [h.hermit, hevent]
  dsimp only
  cases jos.nextWaitDeadline with
  | none =>
    rw [h.policy]
    exact (max_self _).symm
  | some deadline =>
    have htoward := (h.toward env deadline).2
    dsimp only
    split_ifs <;> exact htoward

theorem ifAlone (h : jos.Patient) (halone : jos.alone = true) (deadline : Int) :
    (jos.advanceIfAlone env deadline).1 = true ∧
    (jos.advanceIfAlone env deadline).2.monotonicNS = jos.clockTo (some deadline) := by
  unfold advanceIfAlone
  rw [h.next_of_alone halone]
  exact h.toward env deadline

theorem ifNotAlone (h : jos.Patient) (halone : jos.alone = false) (deadline : Int) :
    jos.advanceIfAlone env deadline = (false, jos) := by
  obtain ⟨tid, htid⟩ := h.next_of_not_alone halone
  unfold advanceIfAlone
  rw [htid]

end Jea9Linux.Patient

namespace Sys

variable (s : Sys) (env : Env)

theorem loadContext_clock (tid : Tid) : (s.loadContext tid).jos.monotonicNS = s.jos.monotonicNS := by
  unfold loadContext
  cases s.jos.contexts tid with
  | none => rfl
  | some ctx =>
    dsimp only
    split_ifs <;> rfl

variable (r : Option Tid × Jea9Linux)

theorem loadUnblocked_clock : (s.loadUnblocked r).2.jos.monotonicNS = r.2.monotonicNS := by
  obtain ⟨_ | tid, jos⟩ := r
  · rfl
  · exact loadContext_clock { s with jos := jos } tid

theorem loadIfFound_clock : (s.loadIfFound r).2.jos.monotonicNS = r.2.monotonicNS := by
  obtain ⟨_ | tid, jos⟩ := r
  · rfl
  · exact loadContext_clock { s with jos := jos } tid

variable {s}

theorem goOnOr_clock {r : Bool × Sys} {k : Sys → NoteDisposition × Sys} {ns : Int} (hr : r.2.jos.monotonicNS = ns)
    (hk : (k r.2).2.jos.monotonicNS = ns) : (goOnOr r k).2.jos.monotonicNS = ns := by
  unfold goOnOr
  split_ifs
  · exact hr
  · exact hk

theorem scheduleAtDeadline_clock (h : s.jos.Patient) :
    (s.scheduleAtDeadline env).2.jos.monotonicNS = s.jos.clockTo s.jos.nextWaitDeadline := by
  unfold scheduleAtDeadline
  split_ifs with hsome
  · have hclock := h.whenIdle env
    have hidle := h.moves (s.jos.advanceVirtualClockWhenNoRunnableCandidate_moves env)
    refine goOnOr_clock ?_ ?_
    · rw [loadFirstRunnableAfterBlocked, loadUnblocked_clock]
      show (s.jos.advanceVirtualClockWhenNoRunnableCandidate env).2.refreshChaosWindow.monotonicNS = _
      rw [hidle.refreshChaosWindow, hclock]
    · show (loadFirstRunnableAfterBlocked _).2.jos.monotonicNS = _
      rw [loadFirstRunnableAfterBlocked, loadUnblocked_clock]
      show (s.jos.advanceVirtualClockWhenNoRunnableCandidate env).2.refreshChaosWindow.monotonicNS = _
      rw [hidle.refreshChaosWindow, hclock]
  · rw [Option.not_isSome_iff_eq_none.mp hsome]
    exact (max_self _).symm

theorem scheduleAfterCurrentBlocked_clock (h : s.jos.Patient) : (s.scheduleAfterCurrentBlocked env).2.jos.monotonicNS =
    if s.jos.alone then s.jos.clockTo s.jos.nextWaitDeadline else s.jos.monotonicNS := by
  have hschedule : s.scheduleAfterCurrentBlocked env = s.scheduleNext env := by
    rw [scheduleAfterCurrentBlocked, h.hermit]
  rw [hschedule, scheduleNext]
  cases halone : s.jos.alone with
  | true =>
    rw [h.next_of_alone halone]
    exact scheduleAtDeadline_clock env h
  | false =>
    obtain ⟨tid, htid⟩ := h.next_of_not_alone halone
    rw [htid]
    exact loadContext_clock s tid

/-! ## A thread that waits -/

theorem beginWait_patient (h : s.Running) (hp : s.jos.Patient) (w : Wait) : (s.beginWait w).jos.Patient :=
  ⟨beginWait_tidy h w, (beginWait_kept h w).timeMode.trans hp.hermit, (beginWait_kept h w).clockPolicy.trans hp.policy⟩

theorem beginWait_alone (h : s.Running) (w : Wait) : (s.beginWait w).jos.alone = s.jos.alone := by
  obtain ⟨c, -, hcontexts⟩ := beginWait_contexts h w
  rw [Bool.eq_iff_iff, Jea9Linux.alone_iff (beginWait_tidy h w).queues, Jea9Linux.alone_iff h.tidy.queues,
    beginWait_currentTID h, hcontexts]
  refine forall_congr' fun tid => forall_congr' fun ctx => ?_
  by_cases ht : tid = s.jos.currentTID
  · simp [ht]
  · rw [update_of_ne ht]

theorem beginWait_deadlines (h : s.Running) (w : Wait) (d : Int) :
    d ∈ (s.beginWait w).jos.waitDeadlines ↔ d ∈ w.deadline.toList ++ s.jos.waitDeadlines := by
  obtain ⟨c, hc, hcontexts⟩ := beginWait_contexts h w
  have hrun : c.state = .runnable := by
    have hr := h.runnable
    rw [isRunnable_eq_any, hc] at hr
    exact of_decide_eq_true hr
  rw [mem_waitDeadlines_iff (beginWait_tidy h w).queues, List.mem_append,
    mem_waitDeadlines_iff h.tidy.queues, Option.mem_toList, hcontexts]
  constructor
  · rintro ⟨tid, ctx, hctx, hw, hd, hn⟩
    by_cases ht : tid = s.jos.currentTID
    · subst ht
      rw [update_self] at hctx
      obtain rfl := Option.some.inj hctx
      left
      obtain ⟨own, hown⟩ := Option.isSome_iff_exists.mp (show w.deadline.isSome = true from hd)
      have hn' : w.deadline.getD 0 = d := hn
      rw [hown] at hn' ⊢
      exact congrArg some hn'
    · rw [update_of_ne ht] at hctx
      exact .inr ⟨tid, ctx, hctx, hw, hd, hn⟩
  · rintro (hown | ⟨tid, ctx, hctx, hw, hd, hn⟩)
    · refine ⟨s.jos.currentTID, _, update_self .., rfl, ?_, ?_⟩
      · show w.deadline.isSome = true
        rw [hown]
        rfl
      · show w.deadline.getD 0 = d
        rw [hown]
        rfl
    · have ht : tid ≠ s.jos.currentTID := by
        rintro rfl
        rw [hc] at hctx
        obtain rfl := Option.some.inj hctx
        rw [hrun] at hw
        cases hw
      exact ⟨tid, ctx, by rw [update_of_ne ht, hctx], hw, hd, hn⟩

/-- **A thread waits.**  If it is alone, the clock goes to the next deadline, its own included. -/
theorem block_clock (h : s.Running) (hp : s.jos.Patient) (w : Wait) :
    ((s.beginWait w).scheduleAfterCurrentBlocked env).2.jos.monotonicNS = s.jos.clockAfter (.waits w.deadline) := by
  rw [scheduleAfterCurrentBlocked_clock env (beginWait_patient h hp w), beginWait_alone h, Jea9Linux.clockAfter,
    Intent.target, nextWaitDeadline_eq, min?_congr (beginWait_deadlines h w), Jea9Linux.clockTo, Jea9Linux.clockTo,
    (beginWait_kept h w).clock hp.hermit]

/-- the clock goes towards the deadline; if it does not get there, the thread waits -/
def reach (w : Wait) (v : BitVec 64) (s : Sys) : NoteDisposition × Sys :=
  if (s.jos.advanceToDeadline env w.deadline).1 then
    Sys.returnSaved { s with jos := (s.jos.advanceToDeadline env w.deadline).2 } v
  else Sys.scheduleAfterCurrentBlocked env
    (Sys.beginWait w { s with jos := (s.jos.advanceToDeadline env w.deadline).2 })

/-- **A thread waits if it must.** If it is alone, it takes the clock to its deadline, if it has one; otherwise it
waits. -/
theorem reach_clock (h : s.Running) (hp : s.jos.Patient) (w : Wait) (v : BitVec 64) :
    (s.reach env w v).2.jos.monotonicNS = s.jos.clockAfter (.ofDeadline w.deadline) := by
  have hblock := block_clock env h hp w
  unfold reach
  cases hw : w.deadline with
  | none =>
    rw [hw] at hblock
    exact hblock
  | some deadline =>
    rw [hw] at hblock
    show (if (s.jos.advanceIfAlone env deadline).1 then Sys.returnSaved
      { s with jos := (s.jos.advanceIfAlone env deadline).2 } v
      else Sys.scheduleAfterCurrentBlocked env
        (Sys.beginWait w { s with jos := (s.jos.advanceIfAlone env deadline).2 })).2.jos.monotonicNS = _
    cases halone : s.jos.alone with
    | true =>
      obtain ⟨hreached, hclock⟩ := hp.ifAlone env halone deadline
      rw [if_pos hreached, Intent.ofDeadline, Jea9Linux.clockAfter, if_pos halone]
      exact hclock
    | false =>
      have hnot : ¬ s.jos.alone = true := by rw [halone]; decide
      rw [Jea9Linux.clockAfter, if_neg hnot] at hblock
      rw [Intent.ofDeadline, Jea9Linux.clockAfter, if_neg hnot, ← hblock, hp.ifNotAlone env halone deadline]
      rfl

end Sys

/-! ## What the calls mean for the clock -/

section Calls

variable (env : Env)

/-- the part of `futexWait` before the clock is touched: the deadline, or an errno -/
def futexPrepare (addr : BitVec 64) (expected : BitVec 32) (timeoutAddr : BitVec 64) : Call (Option Int) := do
  failIf (addr % 4 ≠ 0) errEINVAL
  let got ← mem errEFAULT (GuestMemory.load32 addr)
  failIf (got ≠ expected) errEAGAIN
  let deadline ← futexDeadline env timeoutAddr
  let now ← Exec.gets fun s => s.jos.monotonicNS
  failIf (deadline.isSome ∧ deadline.getD 0 ≤ now) errETIMEDOUT
  pure deadline

def futexIntent (addr op val timeoutAddr : BitVec 64) (s : Sys) : Intent :=
  if op &&& 0xf = 0 ∨ op &&& 0xf = 9 then
    match (futexPrepare env addr (val.setWidth 32) timeoutAddr s).1 with
    | .ok deadline => .ofDeadline deadline
    | .error _ => .returns
  else .returns

def epollIntent (epfd eventsAddr maxEvents timeoutRaw : BitVec 64) (s : Sys) : Intent :=
  match (epollCollectReady env epfd eventsAddr maxEvents s).1 with
  | .ok 0 => if timeoutRaw = 0 then .returns else .ofDeadline (s.jos.epollDeadline env timeoutRaw).1
  | _ => .returns

def pselect6Intent (timeoutAddr : BitVec 64) (s : Sys) : Intent :=
  match (timespecDeadline env timeoutAddr s).1 with
  | .ok deadline => if timeoutAddr = 0 then .returns else .reaches deadline
  | .error _ => .returns

def nanosleepIntent (reqAddr : BitVec 64) (s : Sys) : Intent :=
  match (sleepTime env reqAddr s).1 with
  | .ok advance => if advance ≤ 0 then .returns else .waits (some (int64 (s.jos.monotonicNS + advance)))
  | .error _ => .returns

/-- what a system call means for the clock, from the state it starts in -/
def callIntent (a : SyscallArgs) (s : Sys) : Intent :=
  match Syscall.ofNum a.num with
  | .futex => futexIntent env a.a0 a.a1 a.a2 a.a3 s.ensureScheduler
  | .epollPwait => epollIntent env a.a0 a.a1 a.a2 a.a3 s.ensureScheduler
  | .pselect6 => pselect6Intent env a.a4 s
  | .nanosleep => nanosleepIntent env a.a0 s
  | _ => .returns

/-- in virtual time these only read guest memory -/
def LeavesJos {α : Type} (m : Call α) : Prop :=
  ∀ jos : Jea9Linux, jos.timeMode = .hermitTime → Exec.Keeps (fun s : Sys => s.jos = jos) m

theorem LeavesJos.jos {α : Type} {m : Call α} (h : LeavesJos m) {s : Sys} (hhermit : s.jos.timeMode = .hermitTime) :
    (m s).2.jos = s.jos := h s.jos hhermit s rfl

theorem LeavesJos.of_leaves {α : Type} {m : Call α} (h : Call.Leaves m) : LeavesJos m :=
  fun _ _ s hs => (h s).trans hs

theorem syncRealClock_leavesJos :
    LeavesJos (Exec.modify fun s : Sys => s.mapJos fun jos => jos.syncRealClock env : Call Unit) := by
  intro jos hhermit
  refine .modify fun s hs => ?_
  show s.jos.syncRealClock env = jos
  rw [hs, syncRealClock, hhermit]

theorem timespecDeadline_leavesJos (timeoutAddr : BitVec 64) : LeavesJos (timespecDeadline env timeoutAddr) :=
  fun jos hh => .bind (syncRealClock_leavesJos env jos hh) fun _ => LeavesJos.of_leaves (.bind (.mem _ _) fun _ =>
    .bind (.mem _ _) fun _ => .bind (.failIf _ _) fun _ => .bind (.gets _) fun _ => .pure _) jos hh

variable (addr : BitVec 64)

theorem futexPrepare_leavesJos (expected : BitVec 32) (timeoutAddr : BitVec 64) :
    LeavesJos (futexPrepare env addr expected timeoutAddr) := by
  intro jos hh
  have hdeadline : Exec.Keeps (fun s : Sys => s.jos = jos) (futexDeadline env timeoutAddr) :=
    .ite (.pure _) (.bind (timespecDeadline_leavesJos env timeoutAddr jos hh) fun _ => .pure _)
  have hleaves {α : Type} {m : Call α} (h : Call.Leaves m) : Exec.Keeps (fun s : Sys => s.jos = jos) m :=
    LeavesJos.of_leaves h jos hh
  exact .bind (hleaves (.failIf _ _)) fun _ => .bind (hleaves (.mem _ _)) fun _ => .bind
    (hleaves (.failIf _ _)) fun _ =>
    .bind hdeadline fun _ => .bind (.gets _) fun _ => .bind (hleaves (.failIf _ _)) fun _ => .pure _

theorem sleepTime_leavesJos (reqAddr : BitVec 64) : LeavesJos (sleepTime env reqAddr) :=
  fun jos hh => .bind (syncRealClock_leavesJos env jos hh) fun _ => LeavesJos.of_leaves (.bind (.mem _ _) fun _ =>
    .bind (.mem _ _) fun _ => .bind (.failIf _ _) fun _ => .bind (.gets _) fun j => by
      cases j.nanosleepMode <;> exact .pure _) jos hh

/-- the rest of `futexWait`: the clock is touched, and the thread waits unless the deadline was reached -/
def futexPark (addr : BitVec 64) (deadline : Option Int) : Call Unit := do
  let reached ← (fun s =>
    let r := s.jos.advanceToDeadline env deadline
    (.ok r.1, { s with jos := r.2 }) : Call Bool)
  failIf reached errETIMEDOUT
  Exec.modify (Sys.beginWait { kind := .futex, addr := addr, deadline := deadline })

theorem futexPark_run (deadline : Option Int) (s : Sys) : futexPark env addr deadline s =
    if (s.jos.advanceToDeadline env deadline).1 then
      (.error errETIMEDOUT, { s with jos := (s.jos.advanceToDeadline env deadline).2 })
    else (.ok (), Sys.beginWait { kind := .futex, addr := addr, deadline := deadline }
      { s with jos := (s.jos.advanceToDeadline env deadline).2 }) := by
  show (failIf ((s.jos.advanceToDeadline env deadline).1 = true) errETIMEDOUT >>= fun _ => _) _ = _
  unfold failIf when
  split_ifs <;> rfl

theorem sysFutex_wait {addr op val timeoutAddr : BitVec 64} (hop : op &&& 0xf = 0 ∨ op &&& 0xf = 9) (s : Sys) :
    sysFutex env addr op val timeoutAddr s =
      match futexPrepare env addr (val.setWidth 32) timeoutAddr s.ensureScheduler with
      | (.error errno, s) => s.returnSaved errno
      | (.ok deadline, s) => s.reach env { kind := .futex, addr := addr, deadline := deadline } errETIMEDOUT := by
  have hwait : futexWait env addr (val.setWidth 32) timeoutAddr =
      futexPrepare env addr (val.setWidth 32) timeoutAddr >>= futexPark env addr := by
    simp only [futexWait, futexPrepare, Exec.bind_assoc]
    rfl
  unfold sysFutex
  dsimp only
  rw [if_pos hop, hwait, Exec.bind_run]
  rcases futexPrepare env addr (val.setWidth 32) timeoutAddr s.ensureScheduler with ⟨errno | deadline, s'⟩
  · rfl
  · dsimp only
    rw [futexPark_run, Sys.reach]
    split_ifs <;> rfl

variable {s : Sys}

theorem ensureScheduler_still (h : s.Running) : Still s.jos s.ensureScheduler.jos := by
  have hattach : Still s.jos (s.jos.modifyContext s.jos.currentTID s.jos.attached) := by
    refine .modifyContext (.modifyContext _ _ fun c => ?_) fun c _ => ?_
    · unfold attached
      split_ifs <;> rfl
    · unfold attached
      split_ifs <;> rfl
  have hjos := ensureScheduler_eq h
  exact ⟨Sys.ensureScheduler_same h.runnable, hjos ▸ hattach.waits, hjos ▸ hattach.watched⟩

theorem running_of_jos {s' : Sys} (h : s.Running) (hjos : s'.jos = s.jos) : s'.Running := by
  have hadv : Advances s.jos s'.jos := by
    rw [hjos]
    exact .refl s.jos
  exact hadv.running h

/-! ## The calls that may wait -/

/-- what a computation returns, if it returns, satisfies `Q` -/
def Yields {α : Type} (Q : α → Prop) (m : Call α) : Prop := ∀ s a s', m s = (.ok a, s') → Q a

namespace Yields

variable {α β : Type} {Q : β → Prop}

theorem pure {b : β} (h : Q b) : Yields Q (Pure.pure b : Call β) := by
  intro s a s' heq
  cases heq
  exact h

theorem bind_yields {P : α → Prop} {m : Call α} {k : α → Call β} (hm : Yields P m) (hk : ∀ a, P a → Yields Q (k a)) :
    Yields Q (m >>= k) := by
  intro s b s' heq
  obtain ⟨a, s₁, hr, heq⟩ := Exec.bind_ok_iff.1 heq
  exact hk a (hm s a s₁ hr) s₁ b s' heq

theorem bind {m : Call α} {k : α → Call β} (hk : ∀ a, Yields Q (k a)) : Yields Q (m >>= k) :=
  bind_yields (P := fun _ => True) (fun _ _ _ _ => trivial) fun a _ => hk a

end Yields

/-- a deadline is a value of the clock -/
def OnClock (deadline : Option Int) : Prop := ∀ d, deadline = some d → ∃ x, d = int64 x

theorem onClock_some (x : Int) : OnClock (some (int64 x)) := fun _ hd => ⟨x, (Option.some.inj hd).symm⟩

theorem timespecDeadline_yields (timeoutAddr : BitVec 64) :
    Yields (fun d => ∃ x, d = int64 x) (timespecDeadline env timeoutAddr) :=
  .bind fun _ => .bind fun _ => .bind fun _ => .bind fun _ => .bind fun _ => .pure ⟨_, rfl⟩

theorem futexPrepare_yields (addr : BitVec 64) (expected : BitVec 32) (timeoutAddr : BitVec 64) :
    Yields OnClock (futexPrepare env addr expected timeoutAddr) := by
  have hdeadline : Yields OnClock (futexDeadline env timeoutAddr) := by
    unfold futexDeadline
    split_ifs
    · exact .pure fun _ h => nomatch h
    · refine .bind_yields (timespecDeadline_yields env timeoutAddr) fun a ha => .pure ?_
      obtain ⟨x, rfl⟩ := ha
      exact onClock_some x
  exact .bind fun _ => .bind fun _ => .bind fun _ => .bind_yields hdeadline fun _ h => .bind fun _ =>
    .bind fun _ => .pure h

/-- a call's meaning for the clock, and its result. Until it waits or yields, threads, descriptors and clock are as they
were. -/
inductive Pauses (jos : Jea9Linux) : Intent → NoteDisposition × Sys → Prop
  | returns {i : Intent} {r : NoteDisposition × Sys} (hi : jos.clockAfter i = jos.monotonicNS)
    (hr : r.2.jos.monotonicNS = jos.monotonicNS) : Pauses jos i r
  | reaches {s : Sys} (w : Wait) (v : BitVec 64) (hs : s.Running) (h : Still jos s.jos) (hw : OnClock w.deadline) :
    Pauses jos (.ofDeadline w.deadline) (s.reach env w v)
  | waits {s : Sys} (w : Wait) (hs : s.Running) (h : Still jos s.jos) (hw : OnClock w.deadline) :
    Pauses jos (.waits w.deadline) ((s.beginWait w).scheduleAfterCurrentBlocked env)
  | yields {s : Sys} {r : NoteDisposition × Sys} (hs : s.Running) (h : Still jos s.jos)
    (hr : r.2.jos.monotonicNS = (s.jos.advanceIdleClockToNextDeadline env).monotonicNS) : Pauses jos .returns r

theorem clockAfter_returns (jos : Jea9Linux) : jos.clockAfter .returns = jos.monotonicNS := by
  unfold Jea9Linux.clockAfter Jea9Linux.clockTo Intent.target
  split_ifs
  · exact max_self _
  · rfl

theorem advanceIdleClock_of_runnable {jos : Jea9Linux} (hp : jos.Patient) (hr : jos.isRunnable jos.currentTID) :
    jos.advanceIdleClockToNextDeadline env = jos := by
  have hsome : jos.hasRunnableContext = true := by
    obtain ⟨c, hc, -⟩ := exists_of_isRunnable hr
    exact List.any_eq_true.mpr ⟨jos.currentTID, (hp.orderly.queues.keys _).mpr (by rw [hc]; rfl), hr⟩
  have hcandidate : jos.hasRunnableClockCandidate = (true, jos) := by
    rw [hasRunnableClockCandidate, if_pos (by rw [hp.policy]; decide), hsome]
  unfold advanceIdleClockToNextDeadline advanceVirtualClockForSchedulerEvent jumpIfIdle
  rw [hp.hermit, hp.policy, hcandidate]
  cases jos.clockMode <;> rfl

namespace Pauses

variable {env} {jos jos' : Jea9Linux} {i : Intent} {r : NoteDisposition × Sys}

theorem stays (h : r.2.jos.monotonicNS = jos.monotonicNS) : Pauses env jos .returns r :=
  .returns (clockAfter_returns jos) h

theorem of_still (hstill : Still jos jos') (hhermit : jos.timeMode = .hermitTime) (h : Pauses env jos' i r) :
    Pauses env jos i r := by
  cases h with
  | returns hi hr =>
    rw [hstill.clockAfter hhermit, hstill.kept.clock hhermit] at hi
    exact .returns hi (hr.trans (hstill.kept.clock hhermit))
  | reaches w v hs h hw => exact .reaches w v hs (hstill.trans h) hw
  | waits w hs h hw => exact .waits w hs (hstill.trans h) hw
  | yields hs h hr => exact .yields hs (hstill.trans h) hr

theorem clock (h : Pauses env jos i r) (hp : jos.Patient) : r.2.jos.monotonicNS = jos.clockAfter i := by
  cases h with
  | returns hi hr => exact hr.trans hi.symm
  | reaches w v hs h _ => exact (Sys.reach_clock env hs (hp.still h) w v).trans (h.clockAfter hp.hermit _)
  | waits w hs h _ => exact (Sys.block_clock env hs (hp.still h) w).trans (h.clockAfter hp.hermit _)
  | yields hs h hr =>
    rw [hr, advanceIdleClock_of_runnable env (hp.still h) hs.runnable, h.kept.clock hp.hermit, clockAfter_returns]

end Pauses

theorem saveCurrent_still (s : Sys) : Still s.jos s.saveCurrent.jos :=
  .modifyContext s.saveCurrent_same fun _ _ => rfl

theorem keepRunning_still (h : s.Running) : Still s.jos s.keepRunning.jos := by
  refine .modifyContext (Sys.keepRunning_same h.runnable) fun c hc => ?_
  have hr := h.runnable
  rw [isRunnable_eq_any, hc] at hr
  exact congrArg (·, _) (of_decide_eq_true hr).symm

section Hermit

variable (h : s.Running) (hh : s.jos.timeMode = .hermitTime)

include h hh

theorem sysFutex_pauses (addr op val timeoutAddr : BitVec 64) :
    Pauses env s.jos (futexIntent env addr op val timeoutAddr s.ensureScheduler)
      (sysFutex env addr op val timeoutAddr s) := by
  have hstill := ensureScheduler_still h
  have hh' := hstill.kept.timeMode.trans hh
  refine .of_still hstill hh ?_
  by_cases hop : op &&& 0xf = 0 ∨ op &&& 0xf = 9
  · have hjos := (futexPrepare_leavesJos env addr (val.setWidth 32) timeoutAddr).jos hh'
    have hyields := futexPrepare_yields env addr (val.setWidth 32) timeoutAddr s.ensureScheduler
    rw [sysFutex_wait env hop, futexIntent, if_pos hop]
    generalize futexPrepare env addr (val.setWidth 32) timeoutAddr s.ensureScheduler = r at hjos hyields
    obtain ⟨errno | deadline, s'⟩ := r
    · exact .stays (show s'.jos.monotonicNS = _ from congrArg monotonicNS hjos)
    · have hjos' : s'.jos = s.ensureScheduler.jos := hjos
      exact .reaches { kind := .futex, addr := addr, deadline := deadline } errETIMEDOUT
        (running_of_jos h.ensureScheduler hjos') (hjos' ▸ .refl _) (hyields deadline s' rfl)
  · rw [futexIntent, if_neg hop]
    unfold sysFutex
    dsimp only
    rw [if_neg hop]
    split_ifs
    · exact .stays ((wakeFutex_advances s.ensureScheduler.jos addr val.toInt).clock hh')
    · exact .stays rfl

theorem sysEpollPwait_pauses (epfd eventsAddr maxEvents timeoutRaw : BitVec 64) :
    Pauses env s.jos (epollIntent env epfd eventsAddr maxEvents timeoutRaw s.ensureScheduler)
      (sysEpollPwait env epfd eventsAddr maxEvents timeoutRaw s) := by
  have hdrain : s.drainExternalEvents env = s := by rw [Sys.drainExternalEvents, hh]
  have hstill := ensureScheduler_still h
  have hh' := hstill.kept.timeMode.trans hh
  have hcollect := epollCollectReady_onlyEpolls env epfd eventsAddr maxEvents s.ensureScheduler
  have hstill' : Still s.ensureScheduler.jos _ := .of_seen hcollect.same hcollect.seen
  have hs' := hcollect.same.running h.ensureScheduler
  have hsync {jos : Jea9Linux} (hh : jos.timeMode = .hermitTime) : jos.syncRealClock env = jos := by
    rw [syncRealClock, hh]
  unfold sysEpollPwait epollIntent
  rw [hdrain]
  refine .of_still hstill hh (.of_still hstill' hh' ?_)
  have hclock := hcollect.same.kept.clock hh'
  have hh'' := hcollect.same.kept.timeMode.trans hh'
  generalize epollCollectReady env epfd eventsAddr maxEvents s.ensureScheduler = r at hs' hclock hh''
  obtain ⟨errno | n, s'⟩ := r
  · exact .stays rfl
  · cases n with
    | succ n => exact .stays rfl
    | zero =>
      dsimp only
      by_cases hzero : timeoutRaw = 0
      · rw [if_pos hzero, if_pos (Or.inr hzero)]
        exact .stays rfl
      · have hdeadline :
            (s.ensureScheduler.jos.epollDeadline env timeoutRaw).1 = (s'.jos.epollDeadline env timeoutRaw).1 := by
          unfold epollDeadline
          rw [hsync hh', hsync hh'']
          dsimp only
          rw [hclock]
        have hown : OnClock (s'.jos.epollDeadline env timeoutRaw).1 := by
          unfold epollDeadline
          dsimp only
          split_ifs
          · intro _ hd
            cases hd
          · exact onClock_some _
        have hjos : (s'.jos.epollDeadline env timeoutRaw).2 = s'.jos := hsync hh''
        rw [if_neg (not_or.mpr ⟨Nat.lt_irrefl 0, hzero⟩), if_neg hzero, hdeadline, hjos]
        exact .reaches { kind := .epoll, deadline := (s'.jos.epollDeadline env timeoutRaw).1, fd := epfd
                         eventAddr := eventsAddr, maxEvents := maxEvents } 0 hs' (.refl _) hown

theorem sysPselect6_pauses (timeoutAddr : BitVec 64) :
    Pauses env s.jos (pselect6Intent env timeoutAddr s) (sysPselect6 env timeoutAddr s) := by
  have hjos := (timespecDeadline_leavesJos env timeoutAddr).jos hh
  have hyields := timespecDeadline_yields env timeoutAddr s
  unfold sysPselect6 pselect6Intent
  generalize timespecDeadline env timeoutAddr s = r at hjos hyields
  obtain ⟨errno | deadline, s'⟩ := r
  · split_ifs
    · exact .stays rfl
    · exact .stays (congrArg monotonicNS hjos)
  · have hjos' : s'.jos = s.jos := hjos
    dsimp only
    by_cases hzero : timeoutAddr = 0
    · rw [if_pos hzero, if_pos hzero]
      exact .stays rfl
    rw [if_neg hzero, if_neg hzero]
    by_cases hpast : deadline ≤ s'.jos.monotonicNS
    · rw [if_pos hpast]
      rw [hjos'] at hpast
      refine .returns ?_ (congrArg monotonicNS hjos')
      unfold Jea9Linux.clockAfter Jea9Linux.clockTo Intent.target
      split_ifs
      · exact max_eq_right hpast
      · rfl
    · obtain ⟨x, rfl⟩ := hyields deadline s' rfl
      have hs' := running_of_jos h hjos'
      rw [if_neg hpast]
      exact .reaches { kind := .nanosleep, deadline := some (int64 x) } 0 hs'.ensureScheduler
        (hjos' ▸ ensureScheduler_still hs') (onClock_some x)

theorem sysNanosleep_pauses (reqAddr : BitVec 64) :
    Pauses env s.jos (nanosleepIntent env reqAddr s) (sysNanosleep env reqAddr s) := by
  have hjos := (sleepTime_leavesJos env reqAddr).jos hh
  unfold sysNanosleep nanosleepIntent
  generalize sleepTime env reqAddr s = r at hjos
  obtain ⟨errno | advance, s'⟩ := r
  · exact .stays (congrArg monotonicNS hjos)
  · have hjos' : s'.jos = s.jos := hjos
    have hs' := running_of_jos h hjos'
    have hstill := ensureScheduler_still hs'
    dsimp only
    split_ifs
    · exact .stays (congrArg monotonicNS hjos)
    · rw [← hjos', ← hstill.kept.clock (hjos' ▸ hh)]
      exact .waits { kind := .nanosleep, deadline := _ } hs'.ensureScheduler hstill (onClock_some _)

theorem sysSchedYield_pauses : Pauses env s.jos .returns (sysSchedYield env s) := by
  have hrun := (h.ensureScheduler.setReg 10 0).keepRunning.saveCurrent
  have hensure : Still s.jos (s.ensureScheduler.setReg 10 0).jos := ensureScheduler_still h
  have hstill := (hensure.trans (keepRunning_still (h.ensureScheduler.setReg 10 0))).trans (saveCurrent_still _)
  have hmode :=
      (advanceIdleClock_moves (s.ensureScheduler.setReg 10 0).keepRunning.saveCurrent.jos env).settings.timeMode
  have hsearch := (refreshChaosWindow_same ((s.ensureScheduler.setReg 10 0).keepRunning.saveCurrent.jos
    |>.advanceIdleClockToNextDeadline env)).kept.clock (hmode.trans (hstill.kept.timeMode.trans hh))
  exact .yields hrun hstill ((Sys.loadIfFound_clock _ _).trans hsearch)

end Hermit

theorem Advances.kept {jos jos' : Jea9Linux} (h : Advances jos jos') : Kept jos jos' := ⟨h.settings, h.clock⟩

theorem clearChildTID_kept (s : Sys) : Kept s.jos (clearChildTID addr s).jos := by
  have hmem := mem_jos errEFAULT (GuestMemory.store32 addr 0) s
  unfold clearChildTID
  split_ifs
  · exact .refl s.jos
  · generalize mem errEFAULT (GuestMemory.store32 addr 0) s = r at hmem
    obtain ⟨errno | _, s'⟩ := r
    · rw [← show s'.jos = s.jos from hmem]
      exact .refl s'.jos
    · rw [← show s'.jos = s.jos from hmem]
      exact (wakeFutex_advances s'.jos addr 1).kept

theorem exitCurrentThread_kept (h : s.Running) : Kept s.jos (exitCurrentThread s).jos := by
  have hsave : Kept s.jos s.ensureScheduler.saveCurrent.jos :=
    ((Sys.ensureScheduler_same h.runnable).trans (Sys.saveCurrent_same _)).kept
  obtain ⟨c, hc, -⟩ := exists_of_isRunnable h.ensureScheduler.saveCurrent.runnable
  have hcancel : Kept s.ensureScheduler.saveCurrent.jos
      (s.ensureScheduler.saveCurrent.jos.cancelContextWait s.ensureScheduler.saveCurrent.jos.currentTID) := by
    rw [cancelContextWait_eq hc]
    exact (detach_kept _ c).withContexts _
  have hended : Kept s.jos (s.ensureScheduler.saveCurrent.mapJos fun jos =>
      (jos.cancelContextWait jos.currentTID).modifyContext jos.currentTID Context.ended).jos :=
    (hsave.trans hcancel).trans (.of_eq rfl)
  exact hended.trans (clearChildTID_kept _ _)

theorem exitProcess_clock (s : Sys) (code : BitVec 64) :
    (s.exitProcess code).2.jos.monotonicNS = s.jos.monotonicNS := rfl

theorem sysExit_clock (h : s.Running) (hhermit : s.jos.timeMode = .hermitTime) (code : BitVec 64) (exitGroup : Bool) :
    (sysExit code exitGroup s).2.jos.monotonicNS = s.jos.monotonicNS := by
  have hensure := (Sys.ensureScheduler_same h.runnable).kept
  unfold sysExit
  dsimp only
  split_ifs
  · exact hensure.clock hhermit
  · have hexit := hensure.trans (exitCurrentThread_kept h.ensureScheduler)
    have hsearch := (hexit.trans (nextRunnable_found (exitCurrentThread s.ensureScheduler).jos).same.kept).clock hhermit
    have hload := (Sys.loadIfFound_clock (exitCurrentThread s.ensureScheduler) _).trans hsearch
    exact Sys.goOnOr_clock hload ((exitProcess_clock _ code).trans hload)

variable (sv : Services)

theorem callIntent_returns {a : SyscallArgs} (h : (Syscall.ofNum a.num).switches = false) (s : Sys) :
    callIntent env a s = .returns := by
  unfold callIntent
  cases hnum : Syscall.ofNum a.num with
  | futex | epollPwait | pselect6 | nanosleep =>
    rw [hnum] at h
    cases h
  | _ => rfl

theorem dispatch_pauses (h : s.Running) (hh : s.jos.timeMode = .hermitTime) (a : SyscallArgs) :
    Pauses env s.jos (callIntent env a s) (dispatch env sv a s) := by
  cases hswitches : (Syscall.ofNum a.num).switches with
  | false =>
    rw [callIntent_returns env hswitches]
    exact .stays ((dispatch_advances env sv h a hswitches).clock hh)
  | true =>
    unfold dispatch callIntent
    cases hnum : Syscall.ofNum a.num with
    | futex => exact sysFutex_pauses env h hh _ _ _ _
    | epollPwait => exact sysEpollPwait_pauses env h hh _ _ _ _
    | pselect6 => exact sysPselect6_pauses env h hh _
    | nanosleep => exact sysNanosleep_pauses env h hh _
    | exit => exact .stays (sysExit_clock h hh _ false)
    | exitGroup => exact .stays (sysExit_clock h hh _ true)
    | schedYield => exact sysSchedYield_pauses env h hh
    | _ =>
      rw [hnum] at hswitches
      cases hswitches

/-- what a note means for the clock -/
def noteIntent (n : Note) (s : Sys) : Intent :=
  if !isEcall n then .returns
  else if !(ecallTrapFromNote n).active then callIntent env (syscallArgs s.cpu) s
  else callIntent env (syscallArgs s.cpu) (s.setActiveTrap (ecallTrapFromNote n))

theorem finishHandledEcall_clock (startTID : Tid) (trap : EcallTrapFrame) (r : NoteDisposition × Sys) :
    (finishHandledEcall startTID trap r).jos.monotonicNS = r.2.jos.monotonicNS := by
  unfold finishHandledEcall
  dsimp only
  split_ifs
  · rfl
  · split
    · rfl
    · dsimp only
      split_ifs <;> rfl

/-- what is left of a note when the result of its call is there -/
def noteEnd (n : Note) (s : Sys) (r : NoteDisposition × Sys) : NoteDisposition × Sys :=
  if !isEcall n || !(ecallTrapFromNote n).active then r
  else
    let s' := if Syscall.ofNum (syscallArgs s.cpu).num = .rtSigreturn then r.2
      else finishHandledEcall s.jos.currentTID (ecallTrapFromNote n) r
    (r.1, s'.setActiveTrap s.jos.activeEcallTrap)

theorem noteEnd_clock (n : Note) (s : Sys) (r : NoteDisposition × Sys) :
    (noteEnd n s r).2.jos.monotonicNS = r.2.jos.monotonicNS := by
  unfold noteEnd
  split
  · rfl
  · show (Sys.jos (if _ then _ else _)).monotonicNS = _
    split_ifs
    · rfl
    · exact finishHandledEcall_clock _ _ _

theorem handle_pauses (h : s.Running) (hh : s.jos.timeMode = .hermitTime) (n : Note) :
    ∃ r, handle env sv n s = noteEnd n s r ∧ Pauses env s.jos (noteIntent env n s) r := by
  have hdrain : ∀ s : Sys, s.jos.timeMode = .hermitTime → s.drainExternalEvents env = s := fun s hs => by
    rw [Sys.drainExternalEvents, hs]
  unfold handle noteIntent noteEnd
  dsimp only
  cases isEcall n with
  | false =>
    refine ⟨_, rfl, ?_⟩
    show Pauses env s.jos .returns (if _ then _ else _)
    split_ifs
    · exact .stays ((handleFaultSignal_advances h n).clock hh)
    · exact .stays rfl
  | true =>
    cases (ecallTrapFromNote n).active with
    | false =>
      refine ⟨_, rfl, ?_⟩
      rw [hdrain s hh]
      exact dispatch_pauses env sv h hh _
    | true =>
      have htrap : Still s.jos (s.setActiveTrap (ecallTrapFromNote n)).jos := .of_seen (setActiveTrap_same s _) rfl
      have hh' := htrap.kept.timeMode.trans hh
      refine ⟨_, rfl, .of_still htrap hh ?_⟩
      rw [hdrain _ hh']
      exact dispatch_pauses env sv (htrap.toSameWaits.running h) hh' (syscallArgs s.cpu)

end Calls

/-! ## The end of a quantum -/

section Quantum

variable (env : Env) (jos : Jea9Linux)

theorem schedN_seen (n : BitVec 64) : (jos.schedN n).2.seen = jos.seen := by
  obtain ⟨k, hk⟩ := jos.schedN_snd n
  rw [hk]
  rfl

theorem refreshChaosWindow_seen : jos.refreshChaosWindow.seen = jos.seen := by
  unfold refreshChaosWindow
  split_ifs <;> rfl

theorem drawSchedulerPriority_still : Still jos jos.drawSchedulerPriority.2 := by
  refine .of_seen jos.drawSchedulerPriority_same ?_
  unfold drawSchedulerPriority
  dsimp only
  by_cases hnone : jos.schedulerConfig.lowPriorityNumerator = 0
  · rw [if_pos hnone]
  · rw [if_neg hnone]
    exact schedN_seen jos _

theorem reshufflePriority_still (tid : Tid) : Still jos (jos.reshufflePriority tid) := by
  unfold reshufflePriority
  cases jos.contexts tid with
  | none => exact .refl jos
  | some ctx =>
    dsimp only
    split_ifs
    · exact .refl jos
    · exact (drawSchedulerPriority_still jos).trans
        (.modifyContext (.modifyContext _ tid fun _ => rfl) fun _ _ => rfl)

variable (retired : BitVec 64)

theorem maybeReshuffle_still : Still jos (jos.maybeReshuffleSchedulerPriorities retired) := by
  have hfold : ∀ (l : List Tid) (j : Jea9Linux), Still j (l.foldl reshufflePriority j) := by
    intro l
    induction l with
    | nil => exact .refl
    | cons tid l ih => exact fun j => (reshufflePriority_still j tid).trans (ih _)
  unfold maybeReshuffleSchedulerPriorities reshuffleSchedulerPriorities
  split_ifs
  · exact .refl jos
  · obtain ⟨k, hk⟩ := (jos.contextOrder.foldl reshufflePriority jos).schedN_snd
      ((jos.contextOrder.foldl reshufflePriority jos).schedulerConfig.priorityShuffleMaxRetired -
        (jos.contextOrder.foldl reshufflePriority jos).schedulerConfig.priorityShuffleMinRetired + 1)
    dsimp only
    rw [hk]
    exact (hfold jos.contextOrder jos).trans (.of_seen (.of_eq rfl rfl) rfl)
  · exact .refl jos

theorem startChaosWindow_seen (durationNS : Int) : (jos.startChaosWindow durationNS).seen = jos.seen := by
  unfold startChaosWindow
  dsimp only
  split_ifs
  · rfl
  · exact refreshChaosWindow_seen jos
  · exact refreshChaosWindow_seen jos
  · exact refreshChaosWindow_seen jos

theorem maybeStartChaosWindow_still : Still jos jos.maybeStartChaosWindow := by
  refine .of_seen jos.maybeStartChaosWindow_same ?_
  rw [← refreshChaosWindow_seen jos]
  unfold maybeStartChaosWindow
  generalize jos.refreshChaosWindow = j
  dsimp only
  generalize (if j.schedulerConfig.chaosWindowProbDenominator = 0 then 100
    else j.schedulerConfig.chaosWindowProbDenominator : BitVec 64) = denom
  split_ifs
  · rfl
  · rfl
  · exact schedN_seen j denom
  · rw [startChaosWindow_seen, schedN_seen, schedN_seen]
  · rw [startChaosWindow_seen, schedN_seen, schedN_seen]

variable {s : Sys}

theorem prepareQuantum_still (h : s.Running) : Still s.jos (prepareQuantum s).jos := by
  have hsave : Still s.jos s.ensureScheduler.keepRunning.saveCurrent.jos :=
    ((ensureScheduler_still h).trans (keepRunning_still h.ensureScheduler)).trans (saveCurrent_still _)
  exact (hsave.trans (maybeReshuffle_still _ _)).trans (maybeStartChaosWindow_still _)

theorem switchAfterQuantum_clock (hp : s.jos.Patient) :
    (switchAfterQuantum env s).jos.monotonicNS = s.jos.clockAfter (.waits none) := by
  unfold switchAfterQuantum Jea9Linux.clockAfter
  cases halone : s.jos.alone with
  | true =>
    have hclock := hp.whenIdle env
    have hp' := hp.moves (s.jos.advanceVirtualClockWhenNoRunnableCandidate_moves env)
    have hnone : s.loadIfFound (none, s.jos) = (false, s) := rfl
    rw [hp.next_of_alone halone, hnone]
    dsimp only
    generalize s.jos.advanceVirtualClockWhenNoRunnableCandidate env = r at hclock hp'
    obtain ⟨⟨d, _ | _⟩, jos'⟩ := r
    · exact hclock
    · dsimp only
      rw [Sys.loadIfFound_clock, hp'.nextRunnable_snd]
      exact hclock
  | false =>
    obtain ⟨tid, htid⟩ := hp.next_of_not_alone halone
    rw [htid]
    exact Sys.loadContext_clock s tid

theorem drawSchedulerQuantum_snd : ∃ k, jos.drawSchedulerQuantum.2 = jos.withDraws k := by
  unfold drawSchedulerQuantum
  dsimp only
  generalize (if jos.schedulerConfig.maxQuantumRetired < jos.schedulerConfig.minQuantumRetired then
    jos.schedulerConfig.minQuantumRetired else jos.schedulerConfig.maxQuantumRetired) = maxQ
  split_ifs
  · exact ⟨jos.schedDraws, rfl⟩
  · exact jos.schedN_snd _

theorem installNextSchedulerQuantum_clock :
    (jos.installNextSchedulerQuantum retired).monotonicNS = jos.monotonicNS := by
  obtain ⟨k, hk⟩ := drawSchedulerQuantum_snd jos
  unfold installNextSchedulerQuantum
  dsimp only
  rw [hk]
  rfl

theorem expireSchedulerQuantum_clock (h : s.Running) (hp : s.jos.Patient) :
    (expireSchedulerQuantum env s).jos.monotonicNS = s.jos.clockAfter (.waits none) := by
  have hstill := prepareQuantum_still h
  have hswitch := switchAfterQuantum_clock env (hp.still hstill)
  rw [← hstill.clockAfter hp.hermit, ← hswitch]
  exact installNextSchedulerQuantum_clock _ _

end Quantum

/-! ## Events -/

/-- what happens to the personality while guest code runs: a note is handled, or a quantum ends -/
inductive Event
  | note (n : Note)
  | quantum

namespace Event

variable (env : Env) (sv : Services)

def run : Event → Sys → Sys
  | .note n, s => (handle env sv n s).2
  | .quantum, s => expireSchedulerQuantum env s

def intent : Event → Sys → Intent
  | .note n, s => noteIntent env n s
  | .quantum, _ => .waits none

/-- **The clock after an event**, from the state before it. -/
theorem run_clock {s : Sys} (h : s.Running) (hp : s.jos.Patient) (e : Event) :
    (e.run env sv s).jos.monotonicNS = s.jos.clockAfter (e.intent env s) := by
  cases e with
  | note n =>
    obtain ⟨r, hr, hpauses⟩ := handle_pauses env sv h hp.hermit n
    rw [run, hr, noteEnd_clock]
    exact hpauses.clock hp
  | quantum => exact expireSchedulerQuantum_clock env h hp

end Event

theorem clockAfter_gt_iff (jos : Jea9Linux) (i : Intent) : jos.monotonicNS < jos.clockAfter i ↔
    jos.alone = true ∧ ∃ target, i.target jos = some target ∧ jos.monotonicNS < target := by
  unfold Jea9Linux.clockAfter Jea9Linux.clockTo
  cases jos.alone with
  | false => simp
  | true => cases i.target jos <;> simp

/-! ## Deadlines are not jumped over -/

/-- the clock does not go past a deadline that somebody waited for -/
def KeepsDeadlines (s s' : Sys) : Prop :=
  s.jos.monotonicNS < s'.jos.monotonicNS → ∀ tid ctx, s.jos.contexts tid = some ctx → ctx.state = .waiting →
    ctx.waitHasDeadline = true → s'.jos.monotonicNS ≤ ctx.waitDeadlineNS

/-- **When deadlines are kept.**  They are, unless a call with a timeout is made by the only thread that can run
while another thread waits for an earlier deadline. -/
theorem deadlines_kept_iff (env : Env) (sv : Services) {s : Sys} (h : s.Running)
    (hhermit : s.jos.timeMode = .hermitTime)
    (hpolicy : s.jos.clockPolicy = .onlyDeadlockAdvances) (e : Event) :
    KeepsDeadlines s (e.run env sv s) ↔
      ¬ ∃ deadline, e.intent env s = .reaches deadline ∧ s.jos.alone = true ∧ s.jos.monotonicNS < deadline ∧
        ∃ tid ctx, s.jos.contexts tid = some ctx ∧ ctx.state = .waiting ∧ ctx.waitHasDeadline = true ∧
          ctx.waitDeadlineNS < deadline := by
  have hclock := e.run_clock env sv h ⟨h.tidy, hhermit, hpolicy⟩
  have hmem := mem_waitDeadlines_iff h.tidy.queues
  unfold KeepsDeadlines
  rw [hclock, clockAfter_gt_iff]
  constructor
  · rintro hkeeps ⟨deadline, hintent, halone, hahead, tid, ctx, hctx, hw, hd, hearlier⟩
    have hle := hkeeps ⟨halone, deadline, by rw [hintent]; rfl, hahead⟩ tid ctx hctx hw hd
    rw [hintent, Jea9Linux.clockAfter, if_pos halone, Intent.target, Jea9Linux.clockTo, Option.getD_some,
      max_eq_left hahead.le] at hle
    omega
  · rintro hnot ⟨halone, target, htarget, hahead⟩ tid ctx hctx hw hd
    rw [Jea9Linux.clockAfter, if_pos halone, htarget, Jea9Linux.clockTo, Option.getD_some, max_eq_left hahead.le]
    cases hintent : e.intent env s with
    | returns =>
      rw [hintent] at htarget
      cases htarget
    | reaches deadline =>
      rw [hintent] at htarget
      obtain rfl := Option.some.inj htarget
      by_contra hlater
      exact hnot ⟨deadline, hintent, halone, hahead, tid, ctx, hctx, hw, hd, by omega⟩
    | waits own =>
      -- the scheduler takes the smallest of all deadlines
      rw [hintent] at htarget
      exact (List.min?_eq_some_iff.mp htarget).2 _
        (List.mem_append_right _ ((hmem _).mpr ⟨tid, ctx, hctx, hw, hd, rfl⟩))

/-- two threads, of which the first sleeps until 100; the second is about to make a call -/
def sleeperCalls (a : SyscallArgs) : Sys :=
  let s := (runActs (spawn :: timespec 0x2000 100 ++ [ask 101 0x2000] ++ timespec 0x3000 300) smallBoot).2
  { s with cpu := calling a s.cpu }

/-- the call that the thread is about to make -/
def ecallOf (s : Sys) : Event := .note (ecallAt s.cpu.pc)

def sleep300 : SyscallArgs := { num := 101, a0 := 0x3000, a1 := 0, a2 := 0, a3 := 0, a4 := 0, a5 := 0 }
def futex300 : SyscallArgs := { num := 98, a0 := 0x4000, a1 := 0, a2 := 0, a3 := 0x3000, a4 := 0, a5 := 0 }

theorem sleeperCalls_reached (a : SyscallArgs) : Reached smallOptions true (sleeperCalls a) := by
  have hgoes : (runActs (spawn :: timespec 0x2000 100 ++ [ask 101 0x2000] ++ timespec 0x3000 300) smallBoot).1 =
      true := by
    decide +kernel
  have hreached :=
      runActs_reached (spawn :: timespec 0x2000 100 ++ [ask 101 0x2000] ++ timespec 0x3000 300) smallBoot_reached
  rw [hgoes] at hreached
  exact .guest _ hreached

/-- it sleeps until 300: the clock goes to 100, and the first thread is woken in time … -/
theorem deadlines_kept_nanosleep :
    ((ecallOf (sleeperCalls sleep300)).run quietEnv noServices (sleeperCalls sleep300)).jos.monotonicNS = 100 ∧
    KeepsDeadlines (sleeperCalls sleep300)
    ((ecallOf (sleeperCalls sleep300)).run quietEnv noServices (sleeperCalls sleep300)) := by
  obtain ⟨hhermit, hpolicy, hintent⟩ : (sleeperCalls sleep300).jos.timeMode = .hermitTime ∧
      (sleeperCalls sleep300).jos.clockPolicy = .onlyDeadlockAdvances ∧
      (ecallOf (sleeperCalls sleep300)).intent quietEnv (sleeperCalls sleep300) = .waits (some 300) := by
    decide +kernel
  refine ⟨by decide +kernel,
    (deadlines_kept_iff quietEnv noServices ((sleeperCalls_reached sleep300).loaded.running rfl)
    hhermit hpolicy _).mpr ?_⟩
  rintro ⟨deadline, hreaches, -⟩
  rw [hintent] at hreaches
  cases hreaches

/-- … but if it waits at a futex until 300, it takes the clock there by itself, past the deadline of the first thread -/
theorem deadline_jumped_over :
    Reached smallOptions true (sleeperCalls futex300) ∧ (sleeperCalls futex300).jos.monotonicNS = 0 ∧
    ((sleeperCalls futex300).jos.contexts 1).map (fun c => (c.state, c.waitHasDeadline, c.waitDeadlineNS))
      = some (.waiting, true, 100) ∧
    ((ecallOf (sleeperCalls futex300)).run quietEnv noServices (sleeperCalls futex300)).jos.monotonicNS = 300 ∧
    ¬ KeepsDeadlines (sleeperCalls futex300)
      ((ecallOf (sleeperCalls futex300)).run quietEnv noServices (sleeperCalls futex300)) := by
  refine ⟨sleeperCalls_reached futex300, ?_⟩
  simp only [← and_assoc]
  refine (fun hfacts => ⟨hfacts, fun hkeeps => ?_⟩) (by decide +kernel)
  obtain ⟨⟨hbefore, hctx⟩, hafter⟩ := hfacts
  obtain ⟨ctx, hctx, hdata⟩ := Option.map_eq_some_iff.mp hctx
  obtain ⟨hw, hd, hn⟩ :
      ctx.state = .waiting ∧ ctx.waitHasDeadline = true ∧ ctx.waitDeadlineNS = 100 := by simpa using hdata
  have hle := hkeeps (by rw [hbefore, hafter]; decide) 1 ctx hctx hw hd
  rw [hafter, hn] at hle
  exact absurd hle (by decide)

/-! ## Time stands while something can be done -/

/-- a thread waits in `epoll_pwait` although a level-triggered registration of its instance is ready -/
def LevelReady (env : Env) (s : Sys) : Prop :=
  ∃ tid ctx ep fd reg, s.jos.contexts tid = some ctx ∧ ctx.state = .waiting ∧ ctx.waitKind = .epoll ∧
    s.jos.epollOf ctx.waitFD = some ep ∧ (s.jos.epolls ep).registrations fd = some reg ∧
    reg.events &&& epollET = 0 ∧ s.jos.fdReadyEvents env fd &&& reg.events ≠ 0

/-- the thread is about to block in the call that it makes; at the end of a quantum there is none -/
def Event.aboutToBlock (s : Sys) (tid : Tid) : Event → Prop
  | .note _ => tid = s.jos.currentTID
  | .quantum => False

/-- the rest of an event from the state `m`, in which it comes to the clock -/
inductive Resumes (env : Env) (s m : Sys) : Event → Sys → Prop
  | reaches (n : Note) (w : Wait) (v : BitVec 64) : Resumes env s m (.note n) (noteEnd n s (m.reach env w v)).2
  | waits (n : Note) (w : Wait) :
    Resumes env s m (.note n) (noteEnd n s ((m.beginWait w).scheduleAfterCurrentBlocked env)).2
  | quantum : Resumes env s m .quantum ((switchAfterQuantum env m).mapJos fun jos =>
      jos.installNextSchedulerQuantum (switchAfterQuantum env m).cpu.riscvInstrRetired)

theorem Event.run_resumes (env : Env) (sv : Services) {s : Sys} (h : s.Running) (hp : s.jos.Patient) (e : Event)
    (hmoves : s.jos.monotonicNS < (e.run env sv s).jos.monotonicNS) :
    ∃ m, Still s.jos m.jos ∧ Resumes env s m e (e.run env sv s) := by
  cases e with
  | quantum => exact ⟨prepareQuantum s, prepareQuantum_still h, .quantum⟩
  | note n =>
    obtain ⟨r, hr, hpauses⟩ := handle_pauses env sv h hp.hermit n
    rw [run, hr] at hmoves ⊢
    rw [noteEnd_clock] at hmoves
    generalize noteIntent env n s = i at hpauses
    have hclock := hpauses.clock hp
    cases hpauses with
    | returns _ hr => exact absurd hr hmoves.ne'
    | reaches w v _ hstill _ => exact ⟨_, hstill, .reaches n w v⟩
    | waits w _ hstill _ => exact ⟨_, hstill, .waits n w⟩
    | yields => exact absurd (hclock.trans (clockAfter_returns _)) hmoves.ne'

theorem LevelReady.congr {env : Env} {s m : Sys}
    (hwaits : ∀ tid, (m.jos.contexts tid).map Context.waitsFor = (s.jos.contexts tid).map Context.waitsFor)
    (hseen : m.jos.seen.2 = s.jos.seen.2) (hsockets : env.socketReady m.jos = env.socketReady s.jos)
    (h : LevelReady env s) : LevelReady env m := by
  obtain ⟨tid, ctx, ep, fd, reg, hctx, hw, hk, hep, hreg, hlevel, hready⟩ := h
  obtain ⟨hfds, hpipes, hasked⟩ : m.jos.fds = s.jos.fds ∧ m.jos.pipes = s.jos.pipes ∧ m.jos.asked = s.jos.asked := by
    simpa [Jea9Linux.seen] using hseen
  have hwaits := hwaits tid
  rw [hctx] at hwaits
  obtain ⟨ctx', hctx', hwaits⟩ := Option.map_eq_some_iff.mp hwaits
  simp only [Context.waitsFor, Prod.mk.injEq] at hwaits
  obtain ⟨hstate, hkind, hfd, -⟩ := hwaits
  have hasked := congrFun (congrFun hasked ep) fd
  unfold Jea9Linux.asked at hasked
  rw [hreg] at hasked
  obtain ⟨reg', hreg', hevents⟩ := Option.map_eq_some_iff.mp hasked
  refine ⟨tid, ctx', ep, fd, reg', hctx', hstate.trans hw, hkind.trans hk, ?_, hreg', hevents ▸ hlevel, ?_⟩
  · unfold epollOf
    rw [hfd, hfds]
    exact hep
  · unfold fdReadyEvents pipeBuf
    rw [hfds, hpipes, hsockets, hevents]
    exact hready

/-- **The moment of an increase.**  When an event comes to the clock, the threads that can run are those of the state
before it, and so are the registrations that are ready, if a poll of the sockets answers the same. -/
theorem moment_of_increase (env : Env) (sv : Services) {s : Sys} (h : s.Running) (hp : s.jos.Patient) (e : Event)
    (hmoves : s.jos.monotonicNS < (e.run env sv s).jos.monotonicNS) :
    ∃ m, Resumes env s m e (e.run env sv s) ∧ (∀ tid, m.jos.isRunnable tid = s.jos.isRunnable tid) ∧
      (env.socketReady m.jos = env.socketReady s.jos → (LevelReady env m ↔ LevelReady env s)) := by
  obtain ⟨m, hstill, hresumes⟩ := e.run_resumes env sv h hp hmoves
  exact ⟨m, hresumes, hstill.isRunnable_eq, fun hsockets =>
    ⟨.congr (fun tid => (hstill.waits tid).symm) hstill.watched.symm hsockets.symm,
      .congr hstill.waits hstill.watched hsockets⟩⟩

/-- the clock goes on only if no thread can run, but for one that is about to block, and nothing is ready. It is said of
the state before the event: `moment_of_increase`. -/
def TimeStands (env : Env) (sv : Services) (e : Event) (s : Sys) : Prop :=
  s.jos.monotonicNS < (e.run env sv s).jos.monotonicNS →
    (∀ tid ctx, s.jos.contexts tid = some ctx → ¬ e.aboutToBlock s tid → ctx.state ≠ .runnable) ∧ ¬ LevelReady env s

/-- the clock is going to move: nobody but the current thread can run, and the target lies ahead -/
def ClockDue (env : Env) (e : Event) (s : Sys) : Prop :=
  s.jos.alone = true ∧ ∃ target, (e.intent env s).target s.jos = some target ∧ s.jos.monotonicNS < target

/-- **When time stands as it should.**  If the clock is going to move, the event has to be a call, and no thread may
wait for what is ready. -/
theorem time_stands_iff (env : Env) (sv : Services) {s : Sys} (h : s.Running) (hhermit : s.jos.timeMode = .hermitTime)
    (hpolicy : s.jos.clockPolicy = .onlyDeadlockAdvances) (e : Event) :
    TimeStands env sv e s ↔ (ClockDue env e s → (∃ n, e = .note n) ∧ ¬ LevelReady env s) := by
  unfold TimeStands ClockDue
  rw [e.run_clock env sv h ⟨h.tidy, hhermit, hpolicy⟩, clockAfter_gt_iff]
  refine imp_congr_right fun ⟨halone, _⟩ => and_congr_left fun _ => ?_
  have hothers := (Jea9Linux.alone_iff h.tidy.queues).mp halone
  cases e with
  | note n => exact ⟨fun _ => ⟨n, rfl⟩, fun _ tid ctx hctx hne => hothers tid ctx hctx hne⟩
  | quantum =>
    -- the thread whose quantum has ended can run
    obtain ⟨c, hc, hrun⟩ := exists_of_isRunnable h.runnable
    exact ⟨fun hnobody => absurd hrun (hnobody _ c hc id), fun ⟨n, hn⟩ => nomatch hn⟩

/-- one thread is about to sleep for 300 ns -/
def loneSleeper : Sys :=
  let s := (runActs (timespec 0x3000 300) smallBoot).2
  { s with cpu := calling sleep300 s.cpu }

/-- the clock goes to 300 while nobody can do anything … -/
theorem time_stands_loneSleeper :
    ((ecallOf loneSleeper).run quietEnv noServices loneSleeper).jos.monotonicNS = 300 ∧
    TimeStands quietEnv noServices (ecallOf loneSleeper) loneSleeper := by
  have hclock : ((ecallOf loneSleeper).run quietEnv noServices loneSleeper).jos.monotonicNS = 300 := by decide +kernel
  have hrun : loneSleeper.Running := running_of_jos (smallBoot_reached.loaded.running rfl) rfl
  refine ⟨hclock, (time_stands_iff quietEnv noServices hrun rfl rfl _).mpr fun _ => ⟨⟨_, rfl⟩, ?_⟩⟩
  rintro ⟨tid, ctx, ep, fd, reg, hctx, hw, -⟩
  have hboot := boot_contexts smallOptions (newCPU (GuestMemory.newGuestMemoryWithModel 24 .linear false)) tid
  rw [show (boot smallOptions _).jos.contexts tid = some ctx from hctx] at hboot
  split_ifs at hboot
  rw [Option.some.inj hboot] at hw
  cases hw

/-- the first thread waits in `epoll_pwait`; the second registers a writable eventfd, and is about to sleep for 300 ns
-/
def watchedEventfd : Sys :=
  let s := (runActs
      ([spawn, ask 20, ask 19, ask 22 3 0x5000 1 (-1), .store 0x6000 4, .store 0x6008 0, ask 21 3 1 4 0x6000] ++
    timespec 0x3000 300) smallBoot).2
  { s with cpu := calling sleep300 s.cpu }

theorem watchedEventfd_reached : Reached smallOptions true watchedEventfd := by
  have hgoes : (runActs ([spawn, ask 20, ask 19, ask 22 3 0x5000 1 (-1), .store 0x6000 4, .store 0x6008 0,
      ask 21 3 1 4 0x6000] ++ timespec 0x3000 300) smallBoot).1 = true := by
    decide +kernel
  have hreached := runActs_reached ([spawn, ask 20, ask 19, ask 22 3 0x5000 1 (-1), .store 0x6000 4, .store 0x6008 0,
    ask 21 3 1 4 0x6000] ++ timespec 0x3000 300) smallBoot_reached
  rw [hgoes] at hreached
  exact .guest _ hreached

/-- … but it also goes to 100 at the end of a quantum of a thread that could run on, and to 300 while a thread waits
for an event that is ready -/
theorem time_moves_too_early :
    Reached smallOptions true (sleeperCalls sleep300) ∧
    (Event.quantum.run quietEnv noServices (sleeperCalls sleep300)).jos.monotonicNS = 100 ∧
    ¬ TimeStands quietEnv noServices .quantum (sleeperCalls sleep300) ∧
    Reached smallOptions true watchedEventfd ∧
    ((ecallOf watchedEventfd).run quietEnv noServices watchedEventfd).jos.monotonicNS = 300 ∧
    ¬ TimeStands quietEnv noServices (ecallOf watchedEventfd) watchedEventfd := by
  obtain ⟨hstart, hquantum, hrun, hstart', hclock, hfirst, hreg, hready⟩ :
      (sleeperCalls sleep300).jos.monotonicNS = 0 ∧
      (Event.quantum.run quietEnv noServices (sleeperCalls sleep300)).jos.monotonicNS = 100 ∧
      ((sleeperCalls sleep300).jos.contexts 2).map Context.state = some .runnable ∧
      watchedEventfd.jos.monotonicNS = 0 ∧
      ((ecallOf watchedEventfd).run quietEnv noServices watchedEventfd).jos.monotonicNS = 300 ∧
      (watchedEventfd.jos.contexts 1).map (fun c => (c.state, c.waitKind, watchedEventfd.jos.epollOf c.waitFD))
        = some (.waiting, .epoll, some 0) ∧
      ((watchedEventfd.jos.epolls 0).registrations 4) = some { events := 4, data := 0, lastReady := 0 } ∧
      watchedEventfd.jos.fdReadyEvents quietEnv 4 = 4 := by
    decide +kernel
  refine ⟨sleeperCalls_reached sleep300, hquantum, fun hstands => ?_, watchedEventfd_reached, hclock, fun hstands => ?_⟩
  · obtain ⟨ctx, hctx, hstate⟩ := Option.map_eq_some_iff.mp hrun
    exact (hstands (by rw [hstart, hquantum]; decide)).1 2 ctx hctx id hstate
  · obtain ⟨ctx, hctx, hdata⟩ := Option.map_eq_some_iff.mp hfirst
    obtain ⟨hw, hk, hep⟩ :
        ctx.state = .waiting ∧ ctx.waitKind = .epoll ∧ watchedEventfd.jos.epollOf ctx.waitFD = some 0 := by
      simpa using hdata
    refine (hstands (by rw [hstart', hclock]; decide)).2 ⟨1, ctx, 0, 4, _, hctx, hw, hk, hep, hreg, by decide, ?_⟩
    rw [hready]
    decide

end RiscvEmu.Linux
