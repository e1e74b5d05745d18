/-
The wait queues and the counters of timed waiters.

`Tidy jos q`: with `q` for the queues, a thread is in the queue of an address once if it waits for the futex there and
in no queue otherwise, and the three counters count the threads that wait with a deadline. `q` is `futexWaiters`,
except inside `FUTEX_WAKE`, which wakes threads first and shortens the queue afterwards.

`Advances jos jos'`: a tidy personality stays tidy, the same thread is running, no thread that can run stops, and
virtual time stands still. Everything besides blocking, exiting and switching does no more, except for the clock
(`Moves`).

`waiters_tidy`: every reachable state is tidy.
-/
import RiscvEmu.Lib.Counts
import RiscvEmu.Linux.Run

namespace RiscvEmu.Linux

variable {p : Prop} {α : Type} {kind : WaitKind}

open Function Option

namespace Context

variable (ctx : Context)

/-- the thread belongs into the queue of the futex at `addr` -/
def waitsAt (addr : BitVec 64) : Bool := ctx.state = .waiting ∧ ctx.waitKind = .futex ∧ ctx.waitAddr = addr

/-- the thread waits for something of the kind, with a deadline -/
def timedFor (kind : WaitKind) : Bool := ctx.state = .waiting ∧ ctx.waitKind = kind ∧ ctx.waitHasDeadline

/-- what queues and counters depend on -/
def waitData : Tid × ContextState × WaitKind × BitVec 64 × Bool :=
  (ctx.tid, ctx.state, ctx.waitKind, ctx.waitAddr, ctx.waitHasDeadline)

/-- a thread that does not wait has no wait fields -/
def Idle : Prop := ctx.state ≠ .waiting → ctx.waitKind = .none ∧ ctx.waitHasDeadline = false

end Context

namespace Jea9Linux

variable (jos : Jea9Linux)

def waitsAt (addr : BitVec 64) (tid : Tid) : Bool := (jos.contexts tid).any fun c => c.waitsAt addr

def timedFor (kind : WaitKind) (tid : Tid) : Bool := (jos.contexts tid).any fun c => c.timedFor kind

def timed : WaitKind → Nat
  | .none => 0
  | .futex => jos.timedFutexWaiters
  | .epoll => jos.timedEpollWaiters
  | .nanosleep => jos.timedNanosleepWaiters

theorem isRunnable_eq_any (tid : Tid) : jos.isRunnable tid = (jos.contexts tid).any fun c => c.state = .runnable := by
  unfold isRunnable
  cases jos.contexts tid <;> rfl

end Jea9Linux

structure Tidy (jos : Jea9Linux) (q : BitVec 64 → List Tid) : Prop where
  nodup : jos.contextOrder.Nodup
  keys : ∀ tid, tid ∈ jos.contextOrder ↔ (jos.contexts tid).isSome
  own : ∀ tid ctx, jos.contexts tid = some ctx → ctx.tid = tid
  idle : ∀ tid ctx, jos.contexts tid = some ctx → ctx.Idle
  queued : ∀ addr tid, (q addr).count tid = if jos.waitsAt addr tid then 1 else 0
  timed : ∀ kind, kind ≠ .none → jos.timed kind = jos.contextOrder.countP (jos.timedFor kind)

section Replace

variable {jos jos' : Jea9Linux} {q q' : BitVec 64 → List Tid} {tid : Tid} {c c' : Context}

theorem Tidy.replace (h : Tidy jos q) (hc : jos.contexts tid = some c) (hown : c'.tid = tid) (hidle : c'.Idle)
    (hctx : jos'.contexts = update jos.contexts tid (some c'))
    (horder : jos'.contextOrder = jos.contextOrder)
    (hq : ∀ addr t, (q' addr).count t = if t = tid then (if c'.waitsAt addr then 1 else 0) else (q addr).count t)
    (ht : ∀ kind, kind ≠ .none → jos'.timed kind + (if c.timedFor kind then 1 else 0)
      = jos.timed kind + (if c'.timedFor kind then 1 else 0)) : Tidy jos' q' := by
  have hself : jos'.contexts tid = some c' := by rw [hctx, update_self]
  have hother : ∀ t, t ≠ tid → jos'.contexts t = jos.contexts t := fun t hne => by
    rw [hctx, update_of_ne hne]
  have hmem : tid ∈ jos.contextOrder := (h.keys tid).mpr (by rw [hc]; rfl)
  refine ⟨horder ▸ h.nodup, fun t => ?_, fun t ctx hctx' => ?_, fun t ctx hctx' => ?_, fun addr t => ?_,
    fun kind hkind => ?_⟩
  · rw [horder, h.keys t]
    by_cases hne : t = tid
    · subst hne
      rw [hself, hc]
      rfl
    · rw [hother t hne]
  · by_cases hne : t = tid
    · subst hne
      rw [hself] at hctx'
      exact Option.some.inj hctx' ▸ hown
    · exact h.own t ctx (hother t hne ▸ hctx')
  · by_cases hne : t = tid
    · subst hne
      rw [hself] at hctx'
      exact Option.some.inj hctx' ▸ hidle
    · exact h.idle t ctx (hother t hne ▸ hctx')
  · rw [hq addr t]
    by_cases hne : t = tid
    · subst hne
      rw [if_pos rfl, Jea9Linux.waitsAt, hself]
      rfl
    · rw [if_neg hne, h.queued addr t, Jea9Linux.waitsAt, Jea9Linux.waitsAt, hother t hne]
  · have hcount := @Counts.countP_replace _ (jos.timedFor kind) (jos'.timedFor kind) _ _ h.nodup hmem fun t hne => by
      rw [Jea9Linux.timedFor, Jea9Linux.timedFor, hother t hne]
    have hp : jos.timedFor kind tid = c.timedFor kind := by rw [Jea9Linux.timedFor, hc]; rfl
    have hp' : jos'.timedFor kind tid = c'.timedFor kind := by rw [Jea9Linux.timedFor, hself]; rfl
    rw [hp, hp'] at hcount
    have htimed := ht kind hkind
    rw [h.timed kind hkind] at htimed
    rw [horder]
    omega

end Replace

/-! ## Changes that queues and counters do not see -/

def Jea9Linux.clockConfig (jos : Jea9Linux) : Int × Int × Int :=
  (jos.clockFixedAdvanceNS, jos.clockPRNGMinNS, jos.clockPRNGMaxNS)

/-- the settings are as they were, and no chaos window has opened that the policy does not allow -/
structure SameSettings (jos jos' : Jea9Linux) : Prop where
  timeMode : jos'.timeMode = jos.timeMode
  clockMode : jos'.clockMode = jos.clockMode
  clockPolicy : jos'.clockPolicy = jos.clockPolicy
  pid : jos'.pid = jos.pid
  calm : jos.clockPolicy ≠ .chaos → jos.chaosActive = false → jos'.chaosActive = false
  config : jos'.clockConfig = jos.clockConfig

/-- the settings are as they were, and virtual time stands still -/
structure Kept (jos jos' : Jea9Linux) : Prop extends SameSettings jos jos' where
  clock : jos.timeMode = .hermitTime → jos'.monotonicNS = jos.monotonicNS

section Kept

variable {jos jos' jos'' : Jea9Linux}

theorem SameSettings.refl (jos : Jea9Linux) : SameSettings jos jos := ⟨rfl, rfl, rfl, rfl, fun _ h => h, rfl⟩

theorem SameSettings.trans (h : SameSettings jos jos') (h' : SameSettings jos' jos'') : SameSettings jos jos'' :=
  ⟨h'.timeMode.trans h.timeMode, h'.clockMode.trans h.clockMode, h'.clockPolicy.trans h.clockPolicy, h'.pid.trans h.pid,
    fun hp hc => h'.calm (h.clockPolicy ▸ hp) (h.calm hp hc), h'.config.trans h.config⟩

theorem Kept.refl (jos : Jea9Linux) : Kept jos jos := ⟨.refl jos, fun _ => rfl⟩

theorem Kept.trans (h : Kept jos jos') (h' : Kept jos' jos'') : Kept jos jos'' :=
  ⟨h.toSameSettings.trans h'.toSameSettings, fun ht => (h'.clock (h.timeMode.trans ht)).trans (h.clock ht)⟩

/-- the fields that virtual time depends on -/
def Jea9Linux.pace (jos : Jea9Linux) :=
  (jos.timeMode, jos.clockMode, jos.clockPolicy, jos.pid, jos.chaosActive, jos.monotonicNS, jos.clockConfig)

theorem Kept.of_eq (h : jos'.pace = jos.pace) : Kept jos jos' := by
  simp only [Jea9Linux.pace, Prod.mk.injEq] at h
  obtain ⟨htime, hmode, hpolicy, hpid, hchaos, hclock, hconfig⟩ := h
  exact ⟨⟨htime, hmode, hpolicy, hpid, fun _ h => hchaos.trans h, hconfig⟩, fun _ => hclock⟩

theorem Kept.withContexts (h : Kept jos jos') (contexts : Tid → Option Context) :
    Kept jos { jos' with contexts := contexts } :=
  ⟨⟨h.timeMode, h.clockMode, h.clockPolicy, h.pid, h.calm, h.config⟩, h.clock⟩

end Kept

/-- the wait fields, the queues and the counters are as they were -/
structure SameWaits (jos jos' : Jea9Linux) : Prop where
  current : jos'.currentTID = jos.currentTID
  order : jos'.contextOrder = jos.contextOrder
  timed : jos'.timed = jos.timed
  queues : jos'.futexWaiters = jos.futexWaiters
  contexts : ∀ tid, (jos'.contexts tid).map Context.waitData = (jos.contexts tid).map Context.waitData
  kept : Kept jos jos'

namespace SameWaits

variable {jos jos' jos'' : Jea9Linux}

theorem refl (jos : Jea9Linux) : SameWaits jos jos := ⟨rfl, rfl, rfl, rfl, fun _ => rfl, .refl jos⟩

/-- a change of other fields than those of threads, queues and time -/
theorem of_eq (h : (jos'.currentTID, jos'.contextOrder, jos'.timed, jos'.futexWaiters, jos'.contexts) =
    (jos.currentTID, jos.contextOrder, jos.timed, jos.futexWaiters, jos.contexts)) (hpace : jos'.pace = jos.pace) :
    SameWaits jos jos' := by
  simp only [Prod.mk.injEq] at h
  obtain ⟨hcurrent, horder, htimed, hqueues, hcontexts⟩ := h
  exact ⟨hcurrent, horder, htimed, hqueues, fun _ => by rw [hcontexts], .of_eq hpace⟩

theorem trans (h : SameWaits jos jos') (h' : SameWaits jos' jos'') : SameWaits jos jos'' :=
  ⟨h'.current.trans h.current, h'.order.trans h.order, h'.timed.trans h.timed, h'.queues.trans h.queues,
    fun tid => (h'.contexts tid).trans (h.contexts tid), h.kept.trans h'.kept⟩

theorem ite [Decidable p] (h : SameWaits jos jos') (h' : SameWaits jos jos'') :
    SameWaits jos (if p then jos' else jos'') := by
  split_ifs
  · exact h
  · exact h'

theorem ite_snd [Decidable p] {r r' : α × Jea9Linux} (h : SameWaits jos r.2)
    (h' : SameWaits jos r'.2) : SameWaits jos (if p then r else r').2 := by
  split_ifs
  · exact h
  · exact h'

theorem any_eq (h : SameWaits jos jos') (tid : Tid) {p : Context → Bool}
    (hp : ∀ c c' : Context, c.waitData = c'.waitData → p c = p c') :
    (jos'.contexts tid).any p = (jos.contexts tid).any p := by
  have hmap := h.contexts tid
  generalize jos.contexts tid = o at hmap ⊢
  generalize jos'.contexts tid = o' at hmap ⊢
  match o, o', hmap with
  | none, none, _ => rfl
  | some _, some _, hmap => exact hp _ _ (Option.some.inj hmap)

theorem isSome_eq (h : SameWaits jos jos') (tid : Tid) : (jos'.contexts tid).isSome = (jos.contexts tid).isSome := by
  simpa using congrArg isSome (h.contexts tid)

theorem exists_old (h : SameWaits jos jos') {tid : Tid} {c' : Context} (hc' : jos'.contexts tid = some c') :
    ∃ c, jos.contexts tid = some c ∧ c.waitData = c'.waitData := by
  have hmap := h.contexts tid
  rw [hc'] at hmap
  obtain ⟨c, hc, hcc⟩ := map_eq_some_iff.mp hmap.symm
  exact ⟨c, hc, hcc⟩

theorem tidy (h : SameWaits jos jos') {q : BitVec 64 → List Tid} (ht : Tidy jos q) : Tidy jos' q := by
  have hwait : ∀ c c' : Context, c.waitData = c'.waitData →
      c.tid = c'.tid ∧ c.state = c'.state ∧ c.waitKind = c'.waitKind ∧ c.waitAddr = c'.waitAddr ∧
        c.waitHasDeadline = c'.waitHasDeadline := by
    intro c c' hcc
    simpa [Context.waitData] using hcc
  refine ⟨h.order ▸ ht.nodup, fun tid => ?_, fun tid c' hc' => ?_, fun tid c' hc' => ?_, fun addr tid => ?_,
    fun kind hkind => ?_⟩
  · rw [h.order, ht.keys, h.isSome_eq]
  · obtain ⟨c, hc, hcc⟩ := h.exists_old hc'
    exact (hwait c c' hcc).1 ▸ ht.own tid c hc
  · obtain ⟨c, hc, hcc⟩ := h.exists_old hc'
    obtain ⟨-, hs, hk, -, hd⟩ := hwait c c' hcc
    intro hnot
    rw [← hk, ← hd]
    exact ht.idle tid c hc (hs ▸ hnot)
  · rw [ht.queued, Jea9Linux.waitsAt, Jea9Linux.waitsAt, h.any_eq tid]
    intro c c' hcc
    obtain ⟨-, hs, hk, ha, -⟩ := hwait c c' hcc
    rw [Context.waitsAt, Context.waitsAt, hs, hk, ha]
  · rw [h.timed, ht.timed kind hkind, h.order]
    refine List.countP_congr fun tid _ => ?_
    rw [Jea9Linux.timedFor, Jea9Linux.timedFor, h.any_eq tid]
    intro c c' hcc
    obtain ⟨-, hs, hk, -, hd⟩ := hwait c c' hcc
    rw [Context.timedFor, Context.timedFor, hs, hk, hd]

theorem isRunnable_eq (h : SameWaits jos jos') (tid : Tid) : jos'.isRunnable tid = jos.isRunnable tid := by
  rw [Jea9Linux.isRunnable_eq_any, Jea9Linux.isRunnable_eq_any]
  refine h.any_eq tid fun c c' hcc => ?_
  have hs : c.state = c'.state := congrArg (fun d => d.2.1) hcc
  rw [hs]

theorem modifyContext (jos : Jea9Linux) (tid : Tid) {f : Context → Context}
    (hf : ∀ c, (f c).waitData = c.waitData) : SameWaits jos (jos.modifyContext tid f) := by
  refine ⟨rfl, rfl, by funext kind; cases kind <;> rfl, rfl, fun t => ?_, .of_eq rfl⟩
  show (update jos.contexts tid _ t).map Context.waitData = _
  by_cases h : t = tid
  · subst h
    rw [update_self, map_map]
    congr 1
    funext c
    exact hf c
  · rw [update_of_ne h]

end SameWaits

/-! ## Waking one thread -/

variable (c : Context)

theorem completeContextEcallTrap_waitData : (completeContextEcallTrap c).waitData = c.waitData := by
  unfold completeContextEcallTrap
  split_ifs <;> rfl

/-- the context after it was woken with a return value -/
def Context.woken (c : Context) (retval : BitVec 64) : Context :=
  (completeContextEcallTrap { c with state := .runnable, snapshot := c.snapshot.setX 10 retval }).clearWait

variable (retval : BitVec 64)

theorem Context.woken_waitData :
    (c.woken retval).waitData = (c.tid, .runnable, .none, 0, false) := by
  have h := completeContextEcallTrap_waitData { c with state := .runnable, snapshot := c.snapshot.setX 10 retval }
  have ht := congrArg (fun d => d.1) h
  have hs := congrArg (fun d => d.2.1) h
  exact Prod.ext ht (Prod.ext hs rfl)

namespace Jea9Linux

variable (jos : Jea9Linux)

@[simp] theorem dropTimed_contexts (kind : WaitKind) :
    (jos.dropTimed kind).contexts = jos.contexts := by cases kind <;> rfl
@[simp] theorem dropTimed_contextOrder (kind : WaitKind) : (jos.dropTimed kind).contextOrder = jos.contextOrder := by
  cases kind <;> rfl
@[simp] theorem dropTimed_currentTID (kind : WaitKind) : (jos.dropTimed kind).currentTID = jos.currentTID := by
  cases kind <;> rfl
@[simp] theorem dropTimed_futexWaiters (kind : WaitKind) : (jos.dropTimed kind).futexWaiters = jos.futexWaiters := by
  cases kind <;> rfl

theorem dropTimed_timed (kind k : WaitKind) :
    (jos.dropTimed kind).timed k = if k = kind then jos.timed k - 1 else jos.timed k := by
  cases kind <;> cases k <;> rfl

/-- the counters once the deadline of `c` does not count any more -/
def dropDeadline (c : Context) : Jea9Linux := if c.waitHasDeadline then jos.dropTimed c.waitKind else jos

@[simp] theorem dropDeadline_contexts (c : Context) : (jos.dropDeadline c).contexts = jos.contexts := by
  unfold dropDeadline
  split_ifs <;> simp
@[simp] theorem dropDeadline_contextOrder (c : Context) : (jos.dropDeadline c).contextOrder = jos.contextOrder := by
  unfold dropDeadline
  split_ifs <;> simp
@[simp] theorem dropDeadline_currentTID (c : Context) : (jos.dropDeadline c).currentTID = jos.currentTID := by
  unfold dropDeadline
  split_ifs <;> simp
@[simp] theorem dropDeadline_futexWaiters (c : Context) : (jos.dropDeadline c).futexWaiters = jos.futexWaiters := by
  unfold dropDeadline
  split_ifs <;> simp

theorem dropDeadline_kept (c : Context) : Kept jos (jos.dropDeadline c) := by
  unfold dropDeadline
  split_ifs
  · cases c.waitKind <;> exact .of_eq rfl
  · exact .refl jos

theorem dropDeadline_withContexts (contexts : Tid → Option Context) {c c' : Context} (h : c'.waitData = c.waitData) :
    ({ jos with contexts := contexts } : Jea9Linux).dropDeadline c' =
      { jos.dropDeadline c with contexts := contexts } := by
  have hk : c'.waitKind = c.waitKind := congrArg (fun d => d.2.2.1) h
  have hd : c'.waitHasDeadline = c.waitHasDeadline := congrArg (fun d => d.2.2.2.2) h
  unfold dropDeadline
  rw [hk, hd]
  split_ifs
  · cases c.waitKind <;> rfl
  · rfl

variable {jos}

theorem clearContextWaitFields_eq {tid : Tid} {c : Context} (hc : jos.contexts tid = some c) :
    jos.clearContextWaitFields tid
      = { jos.dropDeadline c with contexts := update jos.contexts tid (some c.clearWait) } := by
  unfold clearContextWaitFields
  rw [hc]
  show (jos.dropDeadline c).modifyContext tid Context.clearWait = _
  rw [modifyContext, dropDeadline_contexts, hc]
  rfl

theorem modifyContext_eq {tid : Tid} {c : Context} (hc : jos.contexts tid = some c) (f : Context → Context) :
    jos.modifyContext tid f = { jos with contexts := update jos.contexts tid (some (f c)) } := by
  rw [modifyContext, hc]
  rfl

theorem markRunnable_eq {tid : Tid} {c : Context} (hc : jos.contexts tid = some c) (hs : c.state ≠ .exited)
    (retval : BitVec 64) :
    jos.markRunnable tid retval
      = { jos.dropDeadline c with contexts := update jos.contexts tid (some (c.woken retval)) } := by
  unfold markRunnable
  rw [hc]
  show (if c.state = .exited then jos else _) = _
  have hrun : ({ jos with contexts := update jos.contexts tid (some (completeContextEcallTrap
      { c with state := .runnable, snapshot := c.snapshot.setX 10 retval })) } : Jea9Linux).dropDeadline
        (completeContextEcallTrap { c with state := .runnable, snapshot := c.snapshot.setX 10 retval })
      = { jos.dropDeadline { c with state := .runnable, snapshot := c.snapshot.setX 10 retval } with
          contexts := update jos.contexts tid (some (completeContextEcallTrap
            { c with state := .runnable, snapshot := c.snapshot.setX 10 retval })) } :=
    jos.dropDeadline_withContexts _ (completeContextEcallTrap_waitData _)
  rw [if_neg hs, modifyContext_eq hc, clearContextWaitFields_eq (update_self ..), hrun]
  simp only [update_idem]
  rfl

variable (tid : Tid)

theorem markRunnable_induct {P : Jea9Linux → Prop} (retval : BitVec 64) (hsame : P jos)
    (hwoken : ∀ contexts futex epoll sleep, P { jos with
      contexts := contexts
      timedFutexWaiters := futex
      timedEpollWaiters := epoll
      timedNanosleepWaiters := sleep }) : P (jos.markRunnable tid retval) := by
  cases hc : jos.contexts tid with
  | none => rwa [markRunnable, hc]
  | some c =>
    by_cases hs : c.state = .exited
    · rw [markRunnable, hc]
      dsimp only
      rwa [if_pos hs]
    · rw [markRunnable_eq hc hs]
      unfold dropDeadline
      split_ifs
      · cases c.waitKind <;> exact hwoken _ _ _ _
      · exact hwoken _ _ _ _

/-- queues and counters without the thread whose context is `c` -/
def detach (jos : Jea9Linux) (tid : Tid) (c : Context) : Jea9Linux :=
  (if c.waitKind = .futex then jos.removeFutexWaiter c.waitAddr tid else jos).dropDeadline c

@[simp] theorem detach_contextOrder (c : Context) : (jos.detach tid c).contextOrder = jos.contextOrder := by
  unfold detach
  split_ifs <;> simp [removeFutexWaiter]
@[simp] theorem detach_currentTID (c : Context) : (jos.detach tid c).currentTID = jos.currentTID := by
  unfold detach
  split_ifs <;> simp [removeFutexWaiter]

theorem detach_timed (c : Context) : (jos.detach tid c).timed = (jos.dropDeadline c).timed := by
  unfold detach dropDeadline
  split_ifs
  · cases c.waitKind <;> rfl
  · rfl
  · funext k
    cases k <;> rfl
  · rfl

theorem removeFutexWaiter_kept (addr : BitVec 64) (tid : Tid) : Kept jos (jos.removeFutexWaiter addr tid) :=
  .of_eq rfl

theorem detach_kept (c : Context) : Kept jos (jos.detach tid c) := by
  unfold detach
  split_ifs
  · exact (jos.removeFutexWaiter_kept c.waitAddr tid).trans (dropDeadline_kept _ c)
  · exact jos.dropDeadline_kept c

theorem cancelContextWait_eq {tid : Tid} {c : Context} (hc : jos.contexts tid = some c) :
    jos.cancelContextWait tid
      = { jos.detach tid c with contexts := update jos.contexts tid (some c.clearWait) } := by
  unfold cancelContextWait
  rw [hc]
  show (if c.waitKind = .futex then jos.removeFutexWaiter c.waitAddr tid else jos).clearContextWaitFields tid = _
  have hc' : (if c.waitKind = .futex then jos.removeFutexWaiter c.waitAddr tid else jos).contexts tid = some c := by
    split_ifs <;> exact hc
  rw [clearContextWaitFields_eq hc']
  split_ifs with hk
  · rw [detach, if_pos hk]
    rfl
  · rw [detach, if_neg hk]

end Jea9Linux

namespace Tidy

variable {jos jos' : Jea9Linux} {q : BitVec 64 → List Tid} {tid : Tid} {c c' : Context}

theorem waitsAt_eq (hc : jos.contexts tid = some c) (addr : BitVec 64) : jos.waitsAt addr tid = c.waitsAt addr := by
  rw [Jea9Linux.waitsAt, hc]
  rfl

theorem timed_pos (h : Tidy jos q) (hc : jos.contexts tid = some c) (hk : kind ≠ .none)
    (ht : c.timedFor kind) : 1 ≤ jos.timed kind := by
  rw [h.timed kind hk]
  refine List.countP_pos_iff.mpr ⟨tid, (h.keys tid).mpr (by rw [hc]; rfl), ?_⟩
  rw [Jea9Linux.timedFor, hc]
  exact ht

theorem dropDeadline_timed (h : Tidy jos q) (hc : jos.contexts tid = some c) (hk : kind ≠ .none) :
    (jos.dropDeadline c).timed kind + (if c.timedFor kind then 1 else 0) = jos.timed kind := by
  unfold Jea9Linux.dropDeadline
  by_cases hd : c.waitHasDeadline
  · have hw : c.state = .waiting := by
      by_contra hnot
      exact absurd (h.idle tid c hc hnot).2 (by rw [hd]; decide)
    rw [if_pos hd, Jea9Linux.dropTimed_timed]
    by_cases hkind : kind = c.waitKind
    · have ht : c.timedFor kind := by simp [Context.timedFor, hw, hd, hkind]
      have hpos := h.timed_pos hc hk ht
      rw [if_pos hkind, if_pos ht]
      omega
    · rw [if_neg hkind, if_neg (by simp [Context.timedFor, Ne.symm hkind])]
      rfl
  · rw [if_neg hd, if_neg (by simp [Context.timedFor, hd])]
    rfl

theorem detach_queue (h : Tidy jos jos.futexWaiters) (hc : jos.contexts tid = some c) (addr : BitVec 64) (t : Tid) :
    ((jos.detach tid c).futexWaiters addr).count t = if t = tid then 0 else (jos.futexWaiters addr).count t := by
  have hcount := h.queued addr tid
  rw [waitsAt_eq hc addr] at hcount
  unfold Jea9Linux.detach
  rw [Jea9Linux.dropDeadline_futexWaiters]
  by_cases hk : c.waitKind = .futex
  · have hw : c.state = .waiting := by
      by_contra hnot
      exact absurd (h.idle tid c hc hnot).1 (by rw [hk]; decide)
    rw [if_pos hk]
    show (update jos.futexWaiters c.waitAddr _ addr).count t = _
    by_cases ha : addr = c.waitAddr
    · subst ha
      rw [update_self, Counts.count_erase_eq]
      by_cases ht : t = tid
      · subst ht
        rw [if_pos rfl, if_pos rfl, hcount, if_pos (by simp [Context.waitsAt, hw, hk])]
      · rw [if_neg ht, if_neg ht]
    · rw [update_of_ne ha]
      by_cases ht : t = tid
      · subst ht
        rw [if_pos rfl, hcount, if_neg (by simp [Context.waitsAt, Ne.symm ha])]
      · rw [if_neg ht]
  · rw [if_neg hk]
    by_cases ht : t = tid
    · subst ht
      rw [if_pos rfl, hcount, if_neg (by simp [Context.waitsAt, hk])]
    · rw [if_neg ht]

/-- **Detaching.** A thread that stops waiting leaves queues and counters tidy. -/
theorem detach (h : Tidy jos jos.futexWaiters) (hc : jos.contexts tid = some c) (hown : c'.tid = tid)
    (hstate : c'.state ≠ .waiting) (hidle : c'.Idle)
    (hctx : jos'.contexts = update jos.contexts tid (some c'))
    (horder : jos'.contextOrder = jos.contextOrder) (htimed : jos'.timed = (jos.detach tid c).timed)
    (hqueues : jos'.futexWaiters = (jos.detach tid c).futexWaiters) : Tidy jos' jos'.futexWaiters := by
  refine h.replace hc hown hidle hctx horder (fun addr t => ?_) fun kind hk => ?_
  · rw [hqueues, h.detach_queue hc, if_neg (show ¬ c'.waitsAt addr by simp [Context.waitsAt, hstate])]
  · rw [htimed, Jea9Linux.detach_timed, h.dropDeadline_timed hc hk,
      if_neg (show ¬ c'.timedFor kind by simp [Context.timedFor, hstate])]
    rfl

end Tidy

/-! ## Going on -/

/-- a tidy personality stays tidy, the same thread is current, and who can run can still run -/
structure Moves (jos jos' : Jea9Linux) : Prop where
  tidy : Tidy jos jos.futexWaiters → Tidy jos' jos'.futexWaiters
  current : jos'.currentTID = jos.currentTID
  runnable : ∀ tid, jos.isRunnable tid → jos'.isRunnable tid
  settings : SameSettings jos jos'

/-- the same, and virtual time stands still -/
structure Advances (jos jos' : Jea9Linux) : Prop extends Moves jos jos' where
  clock : jos.timeMode = .hermitTime → jos'.monotonicNS = jos.monotonicNS

theorem Moves.trans {jos jos' jos'' : Jea9Linux} (h : Moves jos jos') (h' : Moves jos' jos'') : Moves jos jos'' :=
  ⟨fun ht => h'.tidy (h.tidy ht), h'.current.trans h.current, fun tid hr => h'.runnable tid (h.runnable tid hr),
    h.settings.trans h'.settings⟩

theorem SameWaits.advances {jos jos' : Jea9Linux} (h : SameWaits jos jos') : Advances jos jos' :=
  ⟨⟨fun ht => h.queues ▸ h.tidy ht, h.current, fun tid hr => h.isRunnable_eq tid ▸ hr, h.kept.toSameSettings⟩,
    h.kept.clock⟩

namespace Advances

variable {jos jos' jos'' : Jea9Linux}

theorem refl (jos : Jea9Linux) : Advances jos jos := (SameWaits.refl jos).advances

theorem trans (h : Advances jos jos') (h' : Advances jos' jos'') : Advances jos jos'' :=
  ⟨h.toMoves.trans h'.toMoves, fun ht => (h'.clock (h.settings.timeMode.trans ht)).trans (h.clock ht)⟩

theorem ite [Decidable p] (h : Advances jos jos') (h' : Advances jos jos'') :
    Advances jos (if p then jos' else jos'') := by
  split_ifs
  · exact h
  · exact h'

theorem foldl {f : Jea9Linux → α → Jea9Linux} (hf : ∀ j a, Advances j (f j a)) (l : List α)
    (jos : Jea9Linux) : Advances jos (l.foldl f jos) := by
  induction l generalizing jos with
  | nil => exact refl jos
  | cons a l ih => exact (hf jos a).trans (ih (f jos a))

theorem wake {tid : Tid} {c c' : Context} (hc : jos.contexts tid = some c) (htid : c'.tid = c.tid)
    (hstate : c'.state = .runnable) (hidle : c'.Idle)
    (hctx : jos'.contexts = update jos.contexts tid (some c'))
    (horder : jos'.contextOrder = jos.contextOrder) (htimed : jos'.timed = (jos.detach tid c).timed)
    (hqueues : jos'.futexWaiters = (jos.detach tid c).futexWaiters) (hcurrent : jos'.currentTID = jos.currentTID)
    (hkept : Kept jos jos') : Advances jos jos' := by
  refine ⟨⟨fun ht => ?_, hcurrent, fun t hr => ?_, hkept.toSameSettings⟩, hkept.clock⟩
  · exact ht.detach hc (htid.trans (ht.own tid c hc)) (by rw [hstate]; decide) hidle hctx horder htimed hqueues
  · rw [Jea9Linux.isRunnable_eq_any] at hr ⊢
    rw [hctx]
    by_cases h : t = tid
    · subst h
      rw [update_self]
      simp [hstate]
    · rwa [update_of_ne h]

end Advances

theorem Context.woken_tid : (c.woken retval).tid = c.tid :=
  congrArg (fun d => d.1) (c.woken_waitData retval)

theorem Context.woken_state : (c.woken retval).state = .runnable :=
  congrArg (fun d => d.2.1) (c.woken_waitData retval)

theorem Context.woken_schedPriority : (c.woken retval).schedPriority = c.schedPriority := by
  unfold Context.woken completeContextEcallTrap
  dsimp only
  split_ifs <;> rfl

theorem Context.woken_idle : (c.woken retval).Idle := fun _ =>
  ⟨congrArg (fun d => d.2.2.1) (c.woken_waitData retval), congrArg (fun d => d.2.2.2.2) (c.woken_waitData retval)⟩

namespace Jea9Linux

variable (jos : Jea9Linux) (env : Env)

theorem markRunnable_advances {tid : Tid} {c : Context} (hc : jos.contexts tid = some c) (hs : c.state ≠ .exited)
    (hk : c.waitKind ≠ .futex) (retval : BitVec 64) : Advances jos (jos.markRunnable tid retval) := by
  rw [markRunnable_eq hc hs]
  refine .wake hc (c.woken_tid retval) (c.woken_state retval) (c.woken_idle retval) rfl
    (dropDeadline_contextOrder ..) ?_ ?_ (dropDeadline_currentTID ..) ((jos.dropDeadline_kept c).withContexts _)
  · rw [detach_timed]
    rfl
  · rw [detach, if_neg hk]

theorem timeoutFutex_advances {tid : Tid} {c : Context} (hc : jos.contexts tid = some c) (hs : c.state ≠ .exited)
    (hk : c.waitKind = .futex) (retval : BitVec 64) :
    Advances jos ((jos.removeFutexWaiter c.waitAddr tid).markRunnable tid retval) := by
  have hc' : (jos.removeFutexWaiter c.waitAddr tid).contexts tid = some c := hc
  rw [markRunnable_eq hc' hs]
  refine .wake hc (c.woken_tid retval) (c.woken_state retval) (c.woken_idle retval) rfl
    (dropDeadline_contextOrder ..) ?_ ?_ (dropDeadline_currentTID ..)
    (((jos.removeFutexWaiter_kept c.waitAddr tid).trans (dropDeadline_kept _ c)).withContexts _)
  · rw [detach, if_pos hk]
    rfl
  · rw [detach, if_pos hk]

theorem exists_of_timedOut {jos : Jea9Linux} {tid : Tid} (h : jos.timedOut kind tid) :
    ∃ c, jos.contexts tid = some c ∧ c.state = .waiting ∧ c.waitKind = kind ∧ c.waitHasDeadline ∧
      c.waitDeadlineNS ≤ jos.monotonicNS := by
  unfold timedOut at h
  cases hc : jos.contexts tid with
  | none => rw [hc] at h; cases h
  | some c =>
    rw [hc] at h
    exact ⟨c, rfl, of_decide_eq_true h⟩

theorem refreshFutexTimeouts_advances : Advances jos (jos.refreshFutexTimeouts env) := by
  refine .foldl (fun j tid => ?_) _ jos
  by_cases h : j.timedOut .futex tid
  · obtain ⟨c, hc, hw, hk, -⟩ := exists_of_timedOut h
    rw [if_pos h, show j.waitAddrOf tid = c.waitAddr by rw [waitAddrOf, hc]]
    exact j.timeoutFutex_advances hc (by rw [hw]; decide) hk _
  · rw [if_neg h]
    exact .refl j

theorem refreshTimeouts_advances (hkind : kind ≠ .futex) (l : List Tid) :
    Advances jos (l.foldl (fun jos tid => if jos.timedOut kind tid then jos.markRunnable tid 0 else jos) jos) := by
  refine .foldl (fun j tid => ?_) l jos
  by_cases h : j.timedOut kind tid
  · obtain ⟨c, hc, hw, hk, -⟩ := exists_of_timedOut h
    rw [if_pos h]
    exact j.markRunnable_advances hc (by rw [hw]; decide) (hk ▸ hkind) 0
  · rw [if_neg h]
    exact .refl j

theorem syncRealClock_same : SameWaits jos (jos.syncRealClock env) := by
  unfold syncRealClock
  split
  · exact .refl jos
  · rename_i hreal
    exact ⟨rfl, rfl, rfl, rfl, fun _ => rfl,
      ⟨⟨rfl, rfl, rfl, rfl, fun _ h => h, rfl⟩, fun ht => by rw [hreal] at ht; cases ht⟩⟩

theorem unblock_same : SameWaits jos jos.unblock := .of_eq rfl rfl

theorem refreshBlocked_advances : Advances jos (jos.refreshBlocked env) := by
  have hsync := (jos.syncRealClock_same env).advances
  have hfutex : ∀ j : Jea9Linux, Advances j (if j.timedFutexWaiters > 0 then j.refreshFutexTimeouts env else j) :=
    fun j => .ite (j.refreshFutexTimeouts_advances env) (.refl j)
  have hepoll : ∀ j : Jea9Linux, Advances j (if j.timedEpollWaiters > 0 then j.refreshEpollTimeouts env else j) :=
    fun j => .ite (j.refreshTimeouts_advances (by decide) _) (.refl j)
  have hsleep :
      ∀ j : Jea9Linux, Advances j (if j.timedNanosleepWaiters > 0 then j.refreshNanosleepTimeouts env else j) :=
    fun j => .ite (j.refreshTimeouts_advances (by decide) _) (.refl j)
  have hend : ∀ j : Jea9Linux, Advances j (if j.blocked ∧ j.hasRunnableContext then j.unblock
      else if j.blocked ∧ j.blockedHasDeadline ∧ j.monotonicNS ≥ j.blockedUntil then j.unblock else j) :=
    fun j => .ite j.unblock_same.advances (.ite j.unblock_same.advances (.refl j))
  exact (((hsync.trans (hfutex _)).trans (hepoll _)).trans (hsleep _)).trans (hend _)

/-! ## The scheduler and the clock -/

variable (n : BitVec 64)

theorem schedN_snd : ∃ k, (jos.schedN n).2 = { jos with schedDraws := k } := by
  unfold schedN
  split_ifs
  · exact ⟨jos.schedDraws, rfl⟩
  · exact ⟨_, rfl⟩

theorem schedN_same : SameWaits jos (jos.schedN n).2 := by
  obtain ⟨k, hk⟩ := jos.schedN_snd n
  rw [hk]
  exact .of_eq rfl rfl

theorem drawSchedulerQuantum_same : SameWaits jos jos.drawSchedulerQuantum.2 :=
  .ite_snd (.refl jos) (jos.schedN_same _)

variable (retired : BitVec 64)

theorem installNextSchedulerQuantum_same :
    SameWaits jos (jos.installNextSchedulerQuantum retired) :=
  jos.drawSchedulerQuantum_same.trans (.of_eq rfl rfl)

theorem drawSchedulerPriority_same : SameWaits jos jos.drawSchedulerPriority.2 :=
  .ite_snd (.refl jos) (jos.schedN_same _)

theorem reshufflePriority_same (tid : Tid) : SameWaits jos (jos.reshufflePriority tid) := by
  unfold reshufflePriority
  cases jos.contexts tid with
  | none => exact .refl jos
  | some ctx =>
    show SameWaits jos (if ctx.state = .exited then jos else _)
    split_ifs
    · exact .refl jos
    · exact jos.drawSchedulerPriority_same.trans (.modifyContext _ tid fun _ => rfl)

theorem foldl_reshufflePriority_same (l : List Tid) : SameWaits jos (l.foldl reshufflePriority jos) := by
  induction l generalizing jos with
  | nil => exact .refl jos
  | cons tid l ih => exact (jos.reshufflePriority_same tid).trans (ih _)

theorem reshuffle_same : SameWaits jos (jos.reshuffleSchedulerPriorities retired) := by
  have hset : ∀ (j : Jea9Linux) v, SameWaits j { j with nextPriorityShuffleRetired := v } := fun _ _ =>
    .of_eq rfl rfl
  exact ((jos.foldl_reshufflePriority_same jos.contextOrder).trans (schedN_same _ _)).trans (hset _ _)

theorem maybeReshuffle_same : SameWaits jos (jos.maybeReshuffleSchedulerPriorities retired) :=
  .ite (.refl jos) (.ite (jos.reshuffle_same retired) (.refl jos))

theorem refreshChaosWindow_same : SameWaits jos jos.refreshChaosWindow :=
  .ite (.refl jos) ⟨rfl, rfl, rfl, rfl, fun _ => rfl, ⟨⟨rfl, rfl, rfl, rfl, fun _ _ => rfl, rfl⟩, fun _ => rfl⟩⟩

theorem startChaosWindow_same (durationNS : Int) : SameWaits jos (jos.startChaosWindow durationNS) := by
  have hrefresh := jos.refreshChaosWindow_same
  unfold startChaosWindow
  split_ifs with hoff
  · exact .refl jos
  · have hchaos : jos.refreshChaosWindow.clockPolicy = .chaos := by
      rw [hrefresh.kept.clockPolicy]
      by_contra hp
      exact hoff (.inr (.inr hp))
    refine .ite hrefresh (.ite hrefresh (hrefresh.trans ⟨rfl, rfl, rfl, rfl, fun _ => rfl, ?_⟩))
    exact ⟨⟨rfl, rfl, rfl, rfl, fun hp => absurd hchaos hp, rfl⟩, fun _ => rfl⟩

theorem maybeStartChaosWindow_same : SameWaits jos jos.maybeStartChaosWindow := by
  have hrefresh := jos.refreshChaosWindow_same
  exact .ite hrefresh (.ite hrefresh (.ite (hrefresh.trans (schedN_same _ _))
    (((hrefresh.trans (schedN_same _ _)).trans (schedN_same _ _)).trans (startChaosWindow_same _ _))))

theorem hasRunnableClockCandidate_same : SameWaits jos jos.hasRunnableClockCandidate.2 :=
  .ite_snd (.refl jos) jos.refreshChaosWindow_same

theorem clockPRNGStep_same : SameWaits jos jos.clockPRNGStep.2 := jos.schedN_same _

theorem moves_of_eq {jos jos' : Jea9Linux} (hctx : jos'.contexts = jos.contexts)
    (horder : jos'.contextOrder = jos.contextOrder)
    (hcurrent : jos'.currentTID = jos.currentTID) (hqueues : jos'.futexWaiters = jos.futexWaiters)
    (htimed : jos'.timed = jos.timed) (hsettings : SameSettings jos jos') : Moves jos jos' := by
  refine ⟨fun h => ?_, hcurrent, fun tid hr => ?_, hsettings⟩
  · refine ⟨horder ▸ h.nodup, fun tid => ?_, fun tid ctx hc => h.own tid ctx (hctx ▸ hc),
      fun tid ctx hc => h.idle tid ctx (hctx ▸ hc), fun addr tid => ?_, fun kind hk => ?_⟩
    · rw [horder, hctx]
      exact h.keys tid
    · rw [hqueues, waitsAt, hctx]
      exact h.queued addr tid
    · rw [htimed, horder, show jos'.timedFor kind = jos.timedFor kind by unfold timedFor; rw [hctx]]
      exact h.timed kind hk
  · rw [isRunnable_eq_any, hctx, ← isRunnable_eq_any]
    exact hr

variable (ns : Int)

theorem setClock_moves : Moves jos (jos.setClock ns) :=
  moves_of_eq rfl rfl rfl rfl rfl ⟨rfl, rfl, rfl, rfl, fun _ h => h, rfl⟩

theorem setClock_refresh_moves : Moves jos ((jos.setClock ns).refreshBlocked env) :=
  (jos.setClock_moves ns).trans (refreshBlocked_advances _ env).toMoves

theorem jumpIfIdle_moves : Moves jos (jos.jumpIfIdle env).2 := by
  have hsame := jos.hasRunnableClockCandidate_same.advances.toMoves
  unfold jumpIfIdle
  dsimp only
  split
  · exact hsame
  · cases jos.hasRunnableClockCandidate.2.nextWaitDeadline with
    | none => exact hsame
    | some deadline => exact hsame.trans (setClock_refresh_moves _ env _)

theorem advanceVirtualClockForSchedulerEvent_moves : Moves jos (jos.advanceVirtualClockForSchedulerEvent env).2 := by
  unfold advanceVirtualClockForSchedulerEvent
  cases jos.timeMode
  · cases jos.clockPolicy
    · exact jos.jumpIfIdle_moves env
    · exact jos.clockPRNGStep_same.advances.toMoves.trans (setClock_refresh_moves _ env _)
    · exact jos.setClock_refresh_moves env _
    · exact jos.jumpIfIdle_moves env
  · exact ((jos.syncRealClock_same env).advances.trans (refreshBlocked_advances _ env)).toMoves

theorem stepToward_same (target : Int) : SameWaits jos (jos.stepToward target).2 := by
  unfold stepToward
  cases jos.clockPolicy
  · exact .refl jos
  · exact jos.clockPRNGStep_same
  · exact .refl jos
  · exact .refl jos

theorem advanceVirtualClockTowardDeadline_moves (deadline : Int) :
    Moves jos (jos.advanceVirtualClockTowardDeadline env deadline).2 := by
  have hset : ∀ (j : Jea9Linux) ns, Moves j ((j.setClock ns).refreshChaosWindow.refreshBlocked env) := fun j ns =>
    (j.setClock_moves ns).trans ((refreshChaosWindow_same _).advances.trans (refreshBlocked_advances _ env)).toMoves
  unfold advanceVirtualClockTowardDeadline
  cases jos.timeMode
  · dsimp only
    split
    · exact (Advances.refl jos).toMoves
    · generalize (if jos.chaosActive ∧ jos.chaosUntilNS > jos.monotonicNS ∧ jos.chaosUntilNS < deadline then
        jos.chaosUntilNS else deadline) = target
      have hstep := (jos.stepToward_same target).advances.toMoves
      rcases hr : jos.stepToward target with ⟨_ | ns, j⟩
      · rw [hr] at hstep
        exact hstep
      · rw [hr] at hstep
        exact hstep.trans (hset j ns)
  · exact ((jos.syncRealClock_same env).advances.trans (refreshBlocked_advances _ env)).toMoves

theorem advanceVirtualClockWhenNoRunnableCandidate_moves :
    Moves jos (jos.advanceVirtualClockWhenNoRunnableCandidate env).2 := by
  unfold advanceVirtualClockWhenNoRunnableCandidate
  cases jos.timeMode
  · dsimp only
    cases jos.nextClockEvent with
    | none =>
      cases jos.clockPolicy
      · exact (Advances.refl jos).toMoves
      · exact jos.advanceVirtualClockForSchedulerEvent_moves env
      · exact jos.advanceVirtualClockForSchedulerEvent_moves env
      · exact (Advances.refl jos).toMoves
    | some deadline =>
      dsimp only
      split
      · exact jos.advanceVirtualClockTowardDeadline_moves env deadline
      · exact jos.advanceVirtualClockTowardDeadline_moves env deadline
  · exact ((jos.syncRealClock_same env).advances.trans (refreshBlocked_advances _ env)).toMoves

theorem advanceIdleClock_moves : Moves jos (jos.advanceIdleClockToNextDeadline env) := by
  unfold advanceIdleClockToNextDeadline
  cases jos.clockMode
  · exact jos.advanceVirtualClockForSchedulerEvent_moves env
  · exact (Advances.refl jos).toMoves

theorem setMonotonicNS_moves : Moves jos (jos.setMonotonicNS env ns) := by
  have hrestart : ∀ j : Jea9Linux, Moves j (j.restartRealClock env ns) := fun _ =>
    moves_of_eq rfl rfl rfl rfl rfl ⟨rfl, rfl, rfl, rfl, fun _ h => h, rfl⟩
  unfold setMonotonicNS
  cases jos.timeMode
  · exact jos.setClock_refresh_moves env ns
  · exact ((jos.setClock_moves ns).trans (hrestart _)).trans (refreshBlocked_advances _ env).toMoves

theorem accountInsAttempts_moves (attempts : BitVec 64) : Moves jos (jos.accountInsAttempts attempts) := by
  unfold accountInsAttempts
  split
  · exact jos.setClock_moves _
  · exact (Advances.refl jos).toMoves

end Jea9Linux

end RiscvEmu.Linux
