/-
Pending signals: which of them are left behind.

`SignalView` is what matters here: the mask and the pending signals of each thread, and the actions. A call on signals
has one of six effects on it (`SignalEffect`), read off the state before the call (`SignalCall.effect`,
`SignalCall.run_signals`).

A signal is stranded if it is pending, not blocked, and there is a handler for it. A call should leave none behind,
but for those that became deliverable while it enters a handler. `nothing_stranded_iff` says when it does not;
`sigreturn_strands` is a return from a handler that unblocks a pending signal and does not deliver it.
-/
import RiscvEmu.Linux.Exit

namespace RiscvEmu.Linux

open Jea9Linux Function Call

/-! ## The signals of the threads -/

/-- the mask and the pending signals of each thread, and the actions -/
structure SignalView where
  threads : Tid → Option (BitVec 64 × List PendingSignal)
  actions : BitVec 64 → SignalAction

/-- the mask keeps the signal from being delivered -/
def PendingSignal.blockedBy (p : PendingSignal) (mask : BitVec 64) : Bool := mask &&& signalBit p.sig ≠ 0

/-- the first pending signal that is not blocked and has a handler, and the signals that stay pending; unblocked ones
without a handler are dropped on the way -/
def pickPending (actions : BitVec 64 → SignalAction) (mask : BitVec 64) :
    List PendingSignal → List PendingSignal × Option PendingSignal
  | [] => ([], none)
  | p :: rest =>
    if p.blockedBy mask then
      let r := pickPending actions mask rest
      (p :: r.1, r.2)
    else if (actions p.sig).hasHandler then (rest, some p)
    else pickPending actions mask rest

/-- mask and pending signals after a new mask and the delivery of a pending signal, if possible; `fits`: its frame could
be written -/
def settlePending (actions : BitVec 64 → SignalAction) (mask : BitVec 64) (fits : Bool) (pending : List PendingSignal) :
    BitVec 64 × List PendingSignal :=
  match pickPending actions mask pending with
  | (left, none) => (mask, left)
  | (left, some p) => (if fits then mask ||| ((actions p.sig).mask ||| signalBit p.sig) else mask, left)

namespace SignalView

variable (v : SignalView)

/-- change mask and pending signals of one thread -/
def change (tid : Tid) (f : BitVec 64 × List PendingSignal → BitVec 64 × List PendingSignal) : SignalView :=
  { v with threads := update v.threads tid ((v.threads tid).map f) }

/-- the signal is pending, not blocked, and there is a handler for it -/
def Stranded (tid : Tid) (p : PendingSignal) : Prop :=
  ∃ mask pending, v.threads tid = some (mask, pending) ∧ p ∈ pending ∧ p.blockedBy mask = false ∧
    (v.actions p.sig).hasHandler = true

end SignalView

/-- what a call does to the signals of the threads -/
inductive SignalEffect
  | nothing
  /-- a blocked signal waits for the thread -/
  | queue (tid : Tid) (p : PendingSignal)
  /-- the thread enters a handler, which blocks these signals -/
  | enter (tid : Tid) (blocked : BitVec 64)
  /-- the thread has a new mask, and a pending signal is delivered if possible -/
  | settle (tid : Tid) (mask : BitVec 64) (fits : Bool)
  | install (sig : BitVec 64) (action : SignalAction)
  /-- the thread has the mask back that it had before a handler was entered -/
  | restore (tid : Tid) (mask : BitVec 64)

namespace SignalEffect

def apply (v : SignalView) : SignalEffect → SignalView
  | .nothing => v
  | .queue tid p => v.change tid fun t => (t.1, t.2 ++ [p])
  | .enter tid blocked => v.change tid fun t => (t.1 ||| blocked, t.2)
  | .settle tid mask fits => v.change tid fun t => settlePending v.actions mask fits t.2
  | .install sig action => { v with actions := update v.actions sig action }
  | .restore tid mask => v.change tid fun t => (mask, t.2)

def enters (v : SignalView) : SignalEffect → Option Tid
  | .enter tid _ => some tid
  | .settle tid mask fits =>
    if fits ∧ (pickPending v.actions mask (((v.threads tid).map Prod.snd).getD [])).2.isSome then some tid else none
  | _ => none

/-- the conditions under which a call strands no signal -/
def Safe (v : SignalView) : SignalEffect → Prop
  | .nothing | .queue _ _ => ∀ t p, ¬ v.Stranded t p
  | .enter tid blocked => ∀ t p, v.Stranded t p → t = tid ∧ p.blockedBy blocked = true
  | .settle tid mask fits =>
    (∀ t p, t ≠ tid → ¬ v.Stranded t p) ∧ ∀ old pending, v.threads tid = some (old, pending) →
      match pickPending v.actions mask pending with
      | (_, none) => True
      | (left, some q) =>
        if fits then ∀ p ∈ left, p.blockedBy (mask ||| ((v.actions q.sig).mask ||| signalBit q.sig)) = false →
          (v.actions p.sig).hasHandler = true → p.blockedBy old = true
        else ∀ p ∈ left, p.blockedBy mask = false → (v.actions p.sig).hasHandler = false
  | .install sig action => ∀ t p mask pending, v.threads t = some (mask, pending) → p ∈ pending →
      p.blockedBy mask = false → (update v.actions sig action p.sig).hasHandler = false
  | .restore tid mask =>
    (∀ t p, t ≠ tid → ¬ v.Stranded t p) ∧ ∀ old pending, v.threads tid = some (old, pending) →
      ∀ p ∈ pending, p.blockedBy mask = false → (v.actions p.sig).hasHandler = false

/-- a signal is queued only if it is blocked -/
def Sound (v : SignalView) : SignalEffect → Prop
  | .queue tid p => ∀ mask pending, v.threads tid = some (mask, pending) → p.blockedBy mask = true
  | _ => True

end SignalEffect

/-! ## What an effect leaves behind -/

namespace SignalView

variable {v : SignalView} {tid t : Tid} {p : PendingSignal}
  {f : BitVec 64 × List PendingSignal → BitVec 64 × List PendingSignal}

theorem stranded_change_of_ne (h : t ≠ tid) : (v.change tid f).Stranded t p ↔ v.Stranded t p := by
  unfold Stranded change
  dsimp only
  rw [update_of_ne h]

theorem stranded_change_self : (v.change tid f).Stranded tid p ↔ ∃ old pending, v.threads tid = some (old, pending) ∧
    p ∈ (f (old, pending)).2 ∧ p.blockedBy (f (old, pending)).1 = false ∧ (v.actions p.sig).hasHandler = true := by
  unfold Stranded change
  dsimp only
  rw [Function.update_self]
  cases v.threads tid with
  | none => simp
  | some t =>
    constructor
    · rintro ⟨mask, pending, hf, hmem, hblocked, hhandler⟩
      have hf' : f t = (mask, pending) := Option.some.inj hf
      exact ⟨t.1, t.2, rfl, by rw [Prod.mk.eta, hf']; exact hmem, by rw [Prod.mk.eta, hf']; exact hblocked, hhandler⟩
    · rintro ⟨old, pending, ht, hmem, hblocked, hhandler⟩
      obtain rfl := Option.some.inj ht
      exact ⟨_, _, rfl, hmem, hblocked, hhandler⟩

theorem forall_stranded_change {X : Tid → PendingSignal → Prop} :
    (∀ t p, (v.change tid f).Stranded t p → X t p) ↔ (∀ t p, t ≠ tid → v.Stranded t p → X t p) ∧
      ∀ old pending, v.threads tid = some (old, pending) → ∀ p ∈ (f (old, pending)).2,
        p.blockedBy (f (old, pending)).1 = false → (v.actions p.sig).hasHandler = true → X tid p := by
  constructor
  · intro hall
    refine ⟨fun t p ht hstranded => hall t p ((stranded_change_of_ne ht).mpr hstranded), ?_⟩
    intro old pending hthread p hmem hblocked hhandler
    exact hall tid p (stranded_change_self.mpr ⟨old, pending, hthread, hmem, hblocked, hhandler⟩)
  · rintro ⟨hothers, hself⟩ t p hstranded
    by_cases ht : t = tid
    · subst ht
      obtain ⟨old, pending, hthread, hmem, hblocked, hhandler⟩ := stranded_change_self.mp hstranded
      exact hself old pending hthread p hmem hblocked hhandler
    · exact hothers t p ht ((stranded_change_of_ne ht).mp hstranded)

theorem stranded_iff {pending : List PendingSignal} {mask : BitVec 64} (h : v.threads tid = some (mask, pending)) :
    v.Stranded tid p ↔ p ∈ pending ∧ p.blockedBy mask = false ∧ (v.actions p.sig).hasHandler = true := by
  constructor
  · rintro ⟨_, _, hthread, hrest⟩
    rw [h] at hthread
    cases hthread
    exact hrest
  · exact fun hrest => ⟨mask, pending, h, hrest⟩

theorem forall_not_stranded : (∀ t p, ¬ v.Stranded t p) ↔ (∀ t p, t ≠ tid → ¬ v.Stranded t p) ∧
    ∀ old pending, v.threads tid = some (old, pending) → ∀ p ∈ pending, p.blockedBy old = false →
      (v.actions p.sig).hasHandler = true → False := by
  constructor
  · intro hnone
    refine ⟨fun t p _ => hnone t p, fun old pending hthread p hmem hblocked hhandler => ?_⟩
    exact hnone tid p ((stranded_iff hthread).mpr ⟨hmem, hblocked, hhandler⟩)
  · rintro ⟨hothers, hself⟩ t p hstranded
    by_cases ht : t = tid
    · subst ht
      obtain ⟨old, pending, hthread, hmem, hblocked, hhandler⟩ := hstranded
      exact hself old pending hthread p hmem hblocked hhandler
    · exact hothers t p ht hstranded

end SignalView

theorem PendingSignal.blockedBy_or (p : PendingSignal) (mask mask' : BitVec 64) :
    p.blockedBy (mask ||| mask') = (p.blockedBy mask || p.blockedBy mask') := by
  have hsplit : (mask ||| mask') &&& signalBit p.sig = (mask &&& signalBit p.sig) ||| (mask' &&& signalBit p.sig) := by
    ext i hi
    simp only [BitVec.getElem_and, BitVec.getElem_or]
    cases mask[i] <;> cases mask'[i] <;> cases (signalBit p.sig)[i] <;> rfl
  unfold blockedBy
  rw [hsplit, Bool.eq_iff_iff, Bool.or_eq_true, decide_eq_true_eq, decide_eq_true_eq, decide_eq_true_eq]
  exact BitVec.or_eq_zero_iff.not.trans not_and_or

theorem pickPending_none {actions : BitVec 64 → SignalAction} {mask : BitVec 64} {l left : List PendingSignal}
    (h : pickPending actions mask l = (left, none)) : ∀ p ∈ left, p.blockedBy mask = true := by
  induction l generalizing left with
  | nil =>
    obtain rfl : [] = left := congrArg Prod.fst h
    exact fun p hp => absurd hp List.not_mem_nil
  | cons q rest ih =>
    unfold pickPending at h
    dsimp only at h
    split_ifs at h with hblocked hhandler
    · obtain ⟨rfl, hnone⟩ := Prod.mk.injEq .. ▸ h
      have hrest : pickPending actions mask rest = ((pickPending actions mask rest).1, none) := Prod.ext rfl hnone
      intro p hp
      obtain rfl | hp := List.mem_cons.mp hp
      · exact hblocked
      · exact ih hrest p hp
    · cases congrArg Prod.snd h
    · exact ih h

theorem pickPending_subset (actions : BitVec 64 → SignalAction) (mask : BitVec 64) (l : List PendingSignal) :
    (pickPending actions mask l).1 ⊆ l := by
  induction l with
  | nil => exact List.Subset.refl _
  | cons q rest ih =>
    unfold pickPending
    dsimp only
    split_ifs
    · exact List.cons_subset_cons q ih
    · exact List.subset_cons_self q rest
    · exact List.subset_cons_of_subset q ih

namespace SignalEffect

variable {v : SignalView}

/-- after the effect a signal is stranded only if the thread enters a handler and the signal became deliverable -/
def Leaves (v : SignalView) (e : SignalEffect) : Prop :=
  ∀ t p, (e.apply v).Stranded t p → e.enters v = some t ∧ ¬ v.Stranded t p

theorem leaves_of_none {e : SignalEffect} (h : e.enters v = none) :
    e.Leaves v ↔ ∀ t p, (e.apply v).Stranded t p → False := by
  unfold Leaves
  rw [h]
  refine forall_congr' fun t => forall_congr' fun p => imp_congr_right fun _ => ?_
  constructor
  · rintro ⟨hnone, -⟩
    cases hnone
  · exact False.elim

theorem leaves_queue_iff {tid : Tid} {q : PendingSignal} (h : (queue tid q).Sound v) :
    (queue tid q).Leaves v ↔ (queue tid q).Safe v := by
  rw [leaves_of_none rfl]
  refine SignalView.forall_stranded_change.trans (.trans ?_ (@SignalView.forall_not_stranded v tid).symm)
  refine and_congr .rfl (forall_congr' fun old => forall_congr' fun pending => imp_congr_right fun hthread => ?_)
  constructor
  · exact fun hself p hmem => hself p (List.mem_append_left _ hmem)
  · intro hself p hmem hblocked
    obtain hmem | hmem := List.mem_append.mp hmem
    · exact hself p hmem hblocked
    · rw [List.mem_singleton.mp hmem, h old pending hthread] at hblocked
      cases hblocked

variable (tid : Tid)

theorem leaves_enter_iff (blocked : BitVec 64) : (enter tid blocked).Leaves v ↔ (enter tid blocked).Safe v := by
  refine SignalView.forall_stranded_change.trans ?_
  constructor
  · rintro ⟨hothers, hself⟩ t p hstranded
    by_cases ht : t = tid
    · subst ht
      obtain ⟨old, pending, hthread, hmem, hblocked, hhandler⟩ := hstranded
      refine ⟨rfl, ?_⟩
      by_contra hfree
      have hafter : p.blockedBy (old ||| blocked) = false := by
        rw [PendingSignal.blockedBy_or, hblocked, Bool.false_or]
        simpa using hfree
      exact (hself old pending hthread p hmem hafter hhandler).2 ⟨old, pending, hthread, hmem, hblocked, hhandler⟩
    · exact absurd hstranded (hothers t p ht hstranded).2
  · intro hsafe
    refine ⟨fun t p ht hstranded => absurd (hsafe t p hstranded).1 ht, ?_⟩
    intro old pending hthread p hmem hafter hhandler
    rw [PendingSignal.blockedBy_or, Bool.or_eq_false_iff] at hafter
    have hstranded : v.Stranded tid p := ⟨old, pending, hthread, hmem, hafter.1, hhandler⟩
    rw [(hsafe tid p hstranded).2] at hafter
    cases hafter.2

variable (mask : BitVec 64)

theorem leaves_restore_iff : (restore tid mask).Leaves v ↔ (restore tid mask).Safe v := by
  rw [leaves_of_none rfl]
  refine SignalView.forall_stranded_change.trans (and_congr .rfl ?_)
  simp only [← Bool.not_eq_true]

theorem leaves_install_iff (sig : BitVec 64) (action : SignalAction) :
    (install sig action).Leaves v ↔ (install sig action).Safe v := by
  rw [leaves_of_none rfl]
  constructor
  · intro hnone t p mask pending hthread hmem hblocked
    by_contra hhandler
    exact hnone t p ⟨mask, pending, hthread, hmem, hblocked, Bool.eq_true_of_not_eq_false hhandler⟩
  · rintro hsafe t p ⟨mask, pending, hthread, hmem, hblocked, hhandler⟩
    have hfree : (update v.actions sig action p.sig).hasHandler = false :=
      hsafe t p mask pending hthread hmem hblocked
    rw [show (update v.actions sig action p.sig).hasHandler = true from hhandler] at hfree
    cases hfree

theorem leaves_settle_self {pending : List PendingSignal} (fits : Bool) {old : BitVec 64}
    (hthread : v.threads tid = some (old, pending)) :
    (∀ p ∈ (settlePending v.actions mask fits pending).2,
      p.blockedBy (settlePending v.actions mask fits pending).1 = false → (v.actions p.sig).hasHandler = true →
        (settle tid mask fits).enters v = some tid ∧ ¬ v.Stranded tid p) ↔
    match pickPending v.actions mask pending with
      | (_, none) => True
      | (left, some q) =>
        if fits then ∀ p ∈ left, p.blockedBy (mask ||| ((v.actions q.sig).mask ||| signalBit q.sig)) = false →
          (v.actions p.sig).hasHandler = true → p.blockedBy old = true
        else ∀ p ∈ left, p.blockedBy mask = false → (v.actions p.sig).hasHandler = false := by
  have henters : (settle tid mask fits).enters v
      = if fits ∧ (pickPending v.actions mask pending).2.isSome then some tid else none := by
    show (if fits ∧ (pickPending v.actions mask (((v.threads tid).map Prod.snd).getD [])).2.isSome then some tid
      else none) = _
    rw [hthread]
    rfl
  have hsubset := pickPending_subset v.actions mask pending
  rw [henters]
  unfold settlePending
  rcases hpick : pickPending v.actions mask pending with ⟨left, _ | q⟩
  · simp only [iff_true]
    intro p hmem hblocked
    rw [pickPending_none hpick p hmem] at hblocked
    cases hblocked
  · rw [hpick] at hsubset
    cases fits with
    | false => simp
    | true =>
      simp only [if_true, Option.isSome_some, and_self, true_and]
      refine forall_congr' fun p => forall_congr' fun hmem => imp_congr_right fun _ =>
        imp_congr_right fun hhandler => ?_
      rw [SignalView.stranded_iff hthread]
      simp [hsubset hmem, hhandler]

theorem leaves_settle_iff (fits : Bool) :
    (settle tid mask fits).Leaves v ↔ (settle tid mask fits).Safe v := by
  refine SignalView.forall_stranded_change.trans (and_congr ?_ ?_)
  · refine forall_congr' fun t => forall_congr' fun p => imp_congr_right fun ht => ?_
    exact ⟨fun h hstranded => (h hstranded).2 hstranded, fun h hstranded => absurd hstranded h⟩
  · exact forall_congr' fun old => forall_congr' fun pending => imp_congr_right fun hthread =>
      leaves_settle_self tid mask fits hthread

/-- **What an effect strands.** It is safe just if that became deliverable in the thread that enters a handler. -/
theorem leaves_iff {e : SignalEffect} (h : e.Sound v) : e.Leaves v ↔ e.Safe v := by
  cases e with
  | nothing => exact leaves_of_none rfl
  | queue tid p => exact leaves_queue_iff h
  | enter tid blocked => exact leaves_enter_iff tid blocked
  | settle tid mask fits => exact leaves_settle_iff tid mask fits
  | install sig action => exact leaves_install_iff sig action
  | restore tid mask => exact leaves_restore_iff tid mask

end SignalEffect

/-! ## The signals of the personality -/

def Context.signals (c : Context) : BitVec 64 × List PendingSignal := (c.signalMask, c.pendingSignals)

def Jea9Linux.signals (jos : Jea9Linux) : SignalView where
  threads tid := (jos.contexts tid).map Context.signals
  actions := jos.signalActions

namespace SignalView

variable (v : SignalView) (tid : Tid)

theorem threads_change_self (f : BitVec 64 × List PendingSignal → BitVec 64 × List PendingSignal) :
    (v.change tid f).threads tid = (v.threads tid).map f := Function.update_self ..

theorem change_change (f g : BitVec 64 × List PendingSignal → BitVec 64 × List PendingSignal) :
    (v.change tid f).change tid g = v.change tid fun t => g (f t) := by
  unfold change
  simp only [Function.update_self, Function.update_idem, Option.map_map]
  rfl

variable {v tid}

theorem change_congr {f g : BitVec 64 × List PendingSignal → BitVec 64 × List PendingSignal}
    {t : BitVec 64 × List PendingSignal} (ht : v.threads tid = some t) (hfg : f t = g t) :
    v.change tid f = v.change tid g := by
  unfold change
  rw [ht, Option.map_some, Option.map_some, hfg]

theorem change_id {f : BitVec 64 × List PendingSignal → BitVec 64 × List PendingSignal} (hf : ∀ t, f t = t) :
    v.change tid f = v := by
  have hid : (v.threads tid).map f = v.threads tid := by
    rw [show f = id from funext hf, Option.map_id_fun, id]
  unfold change
  rw [hid, update_eq_self]

end SignalView

namespace Jea9Linux

variable {jos : Jea9Linux} {tid : Tid}

theorem signals_modifyContext {f : Context → Context}
    {g : BitVec 64 × List PendingSignal → BitVec 64 × List PendingSignal}
    (hf : ∀ c, (f c).signals = g c.signals) : (jos.modifyContext tid f).signals = jos.signals.change tid g := by
  have hthreads : (jos.modifyContext tid f).signals.threads = (jos.signals.change tid g).threads := by
    funext t
    show (update jos.contexts tid ((jos.contexts tid).map f) t).map Context.signals
      = update jos.signals.threads tid ((jos.signals.threads tid).map g) t
    by_cases ht : t = tid
    · subst ht
      rw [Function.update_self, Function.update_self]
      show ((jos.contexts t).map f).map Context.signals = ((jos.contexts t).map Context.signals).map g
      rw [Option.map_map, Option.map_map]
      exact congrArg (fun h => (jos.contexts t).map h) (funext hf)
    · rw [update_of_ne ht, update_of_ne ht]
      rfl
  exact congrArg (SignalView.mk · jos.signalActions) hthreads

theorem signals_modifyContext_same {f : Context → Context} (hf : ∀ c, (f c).signals = c.signals) :
    (jos.modifyContext tid f).signals = jos.signals :=
  (signals_modifyContext (g := id) hf).trans (SignalView.change_id fun _ => rfl)

theorem clearContextWaitFields_signals (jos : Jea9Linux) (tid : Tid) :
    (jos.clearContextWaitFields tid).signals = jos.signals := by
  unfold clearContextWaitFields
  split
  · rfl
  · rename_i ctx _
    refine (signals_modifyContext_same (f := Context.clearWait) fun _ => rfl).trans ?_
    split_ifs
    · cases ctx.waitKind <;> rfl
    · rfl

theorem cancelContextWait_signals (jos : Jea9Linux) (tid : Tid) :
    (jos.cancelContextWait tid).signals = jos.signals := by
  unfold cancelContextWait
  split
  · rfl
  · rw [clearContextWaitFields_signals]
    split_ifs <;> rfl

end Jea9Linux

theorem Sys.saveCurrent_signals (s : Sys) : s.saveCurrent.jos.signals = s.jos.signals :=
  signals_modifyContext_same fun _ => rfl

theorem Sys.Running.ensureScheduler_signals {s : Sys} (h : s.Running) :
    s.ensureScheduler.jos.signals = s.jos.signals := by
  rw [ensureScheduler_eq h]
  refine .trans ?_ (@Jea9Linux.signals_modifyContext_same s.jos s.jos.currentTID s.jos.attached fun c => ?_)
  · rfl
  · unfold attached
    split_ifs <;> rfl

/-! ## Delivery -/

variable (ctx : Context)

theorem enterHandler_signals (tid : Tid) (snap : CPUSnapshot) (blocked : BitVec 64) (s : Sys) :
    (enterHandler tid snap blocked s).jos.signals = s.jos.signals.change tid fun t => (t.1 ||| blocked, t.2) := by
  have henter (jos : Jea9Linux) : (jos.modifyContext tid fun c =>
      { c with state := .runnable, syscallTrap := .idle, snapshot := snap }).signals = jos.signals :=
    signals_modifyContext_same fun _ => rfl
  have hmask : (s.jos.modifyContext tid fun c => { c with signalMask := c.signalMask ||| blocked }).signals
      = s.jos.signals.change tid fun t => (t.1 ||| blocked, t.2) := signals_modifyContext fun _ => rfl
  exact (henter _).trans ((cancelContextWait_signals _ _).trans hmask)

/-- the frame is noted for the return from the handler -/
def Sys.saveFrame (s : Sys) (tid : Tid) (sp : BitVec 64) (snap : CPUSnapshot) (mask : BitVec 64) : Sys :=
  s.mapJos fun jos => jos.setSignalFrame { tid := tid, sp := sp } { snapshot := snap, signalMask := mask }

/-- how a delivery can end -/
inductive Delivery (ctx : Context) (sig : BitVec 64) (info : SignalInfo) (action : SignalAction) (s : Sys) :
    Except (BitVec 64) Unit × Sys → Prop
  | noFrame {errno : BitVec 64} {s₁ : Sys}
      (frame : writeSignalFrame ctx (interruptedSnapshot s ctx) info s = (.error errno, s₁)) :
      Delivery ctx sig info action s (.error errno, s₁)
  | noRestorer {sp errno : BitVec 64} {s₁ s₂ : Sys}
      (frame : writeSignalFrame ctx (interruptedSnapshot s ctx) info s = (.ok sp, s₁))
      (restores : restorerOf action (s₁.saveFrame ctx.tid sp (interruptedSnapshot s ctx) ctx.signalMask) =
        (.error errno, s₂)) :
      Delivery ctx sig info action s (.error errno, s₂)
  | entered {sp restorer : BitVec 64} {s₁ s₂ : Sys}
      (frame : writeSignalFrame ctx (interruptedSnapshot s ctx) info s = (.ok sp, s₁))
      (restores : restorerOf action (s₁.saveFrame ctx.tid sp (interruptedSnapshot s ctx) ctx.signalMask) =
        (.ok restorer, s₂)) :
      Delivery ctx sig info action s (.ok (), enterHandler ctx.tid
        (handlerSnapshot (interruptedSnapshot s ctx) sig sp restorer action.handler) (action.mask ||| signalBit sig) s₂)

theorem deliverSignal_delivery (sig : BitVec 64) (info : SignalInfo) (action : SignalAction) (s : Sys) :
    Delivery ctx sig info action s (deliverSignal ctx sig info action s) := by
  unfold deliverSignal
  rw [Exec.gets_bind_run]
  rcases hframe : writeSignalFrame ctx (interruptedSnapshot s ctx) info s with ⟨errno | sp, s₁⟩
  · rw [Exec.bind_of_error hframe]
    exact .noFrame hframe
  · rw [Exec.bind_of_ok hframe, Exec.modify_bind_run]
    rcases hrestores : restorerOf action (s₁.saveFrame ctx.tid sp (interruptedSnapshot s ctx) ctx.signalMask) with
      ⟨errno | restorer, s₂⟩
    · exact (Exec.bind_of_error hrestores).symm ▸ .noRestorer hframe hrestores
    · exact (Exec.bind_of_ok hrestores).symm ▸ .entered hframe hrestores

theorem deliverSignal_signals (sig : BitVec 64) (info : SignalInfo) (action : SignalAction) (s : Sys) :
    (deliverSignal ctx sig info action s).2.jos.signals =
      if (deliverSignal ctx sig info action s).1.isOk then
        s.jos.signals.change ctx.tid fun t => (t.1 ||| (action.mask ||| signalBit sig), t.2)
      else s.jos.signals := by
  have hframe : (writeSignalFrame ctx (interruptedSnapshot s ctx) info s).2.jos.signals = s.jos.signals :=
    congrArg Jea9Linux.signals (writeSignalFrame_leaves ctx (interruptedSnapshot s ctx) info s)
  have hrestorer (s : Sys) : (restorerOf action s).2.jos.signals = s.jos.signals := by
    obtain ⟨vm, restorer, hjos⟩ := restorerOf_onlyRestorer action s
    rw [hjos]
    rfl
  have hrun := deliverSignal_delivery ctx sig info action s
  generalize deliverSignal ctx sig info action s = r at hrun ⊢
  cases hrun with
  | noFrame frame =>
    rw [frame] at hframe
    exact hframe
  | @noRestorer sp errno s₁ s₂ frame restores =>
    have hsaved := hrestorer (s₁.saveFrame ctx.tid sp (interruptedSnapshot s ctx) ctx.signalMask)
    rw [restores] at hsaved
    rw [frame] at hframe
    exact hsaved.trans hframe
  | @entered sp restorer s₁ s₂ frame restores =>
    have hsaved := hrestorer (s₁.saveFrame ctx.tid sp (interruptedSnapshot s ctx) ctx.signalMask)
    rw [restores] at hsaved
    rw [frame] at hframe
    exact (enterHandler_signals _ _ _ s₂).trans (congrArg (SignalView.change · ctx.tid _) (hsaved.trans hframe))

theorem isOk_bind_pure {α β : Type} (m : Call α) (b : β) (s : Sys) :
    ((m >>= fun _ => pure b) s).1.isOk = (m s).1.isOk ∧ ((m >>= fun _ => pure b) s).2 = (m s).2 := by
  rcases hr : m s with ⟨errno | a, s'⟩
  · rw [Exec.bind_of_error hr]
    exact ⟨rfl, rfl⟩
  · rw [Exec.bind_of_ok hr]
    exact ⟨rfl, rfl⟩

/-- the loop over the pending signals takes the first one that can be delivered off the list and delivers it -/
theorem deliverPending_pick (kept l : List PendingSignal) (s : Sys) :
    deliverPending ctx kept l s =
      match pickPending s.jos.signalActions ctx.signalMask l with
      | (left, none) => (.ok false, s.mapJos fun jos => jos.setPending ctx.tid (kept ++ left))
      | (left, some p) => (do
          deliverSignal ctx p.sig p.info (s.jos.signalActions p.sig)
          pure true : Call Bool) (s.mapJos fun jos => jos.setPending ctx.tid (kept ++ left)) := by
  induction l generalizing kept with
  | nil =>
    show (_, s.mapJos fun jos => jos.setPending ctx.tid kept) =
      (_, s.mapJos fun jos => jos.setPending ctx.tid (kept ++ []))
    rw [List.append_nil]
  | cons p rest ih =>
    rw [deliverPending, pickPending]
    dsimp only
    by_cases hblocked : ctx.signalMask &&& signalBit p.sig ≠ 0
    · have hblocked' : p.blockedBy ctx.signalMask = true := decide_eq_true hblocked
      rw [if_pos hblocked, if_pos hblocked', ih]
      rcases pickPending s.jos.signalActions ctx.signalMask rest with ⟨left, _ | q⟩ <;>
        · dsimp only
          rw [List.append_assoc]
          rfl
    · have hblocked' : ¬ p.blockedBy ctx.signalMask = true := fun h => hblocked (of_decide_eq_true h)
      rw [if_neg hblocked, if_neg hblocked']
      cases hhandler : (s.jos.signalActions p.sig).hasHandler with
      | true => rfl
      | false => exact ih kept

/-- it does what `settlePending` says; `kept` are the blocked signals it has seen -/
theorem deliverPending_signals {s : Sys} (kept l : List PendingSignal) {t : BitVec 64 × List PendingSignal}
    (ht : s.jos.signals.threads ctx.tid = some t) (hmask : t.1 = ctx.signalMask) :
    (deliverPending ctx kept l s).2.jos.signals = s.jos.signals.change ctx.tid fun _ =>
      ((settlePending s.jos.signalActions ctx.signalMask (deliverPending ctx kept l s).1.isOk l).1,
        kept ++ (settlePending s.jos.signalActions ctx.signalMask (deliverPending ctx kept l s).1.isOk l).2) := by
  have hset (left : List PendingSignal) : (s.mapJos fun jos => jos.setPending ctx.tid (kept ++ left)).jos.signals =
      s.jos.signals.change ctx.tid fun t => (t.1, kept ++ left) := signals_modifyContext fun _ => rfl
  rw [deliverPending_pick]
  unfold settlePending
  rcases pickPending s.jos.signalActions ctx.signalMask l with ⟨left, _ | p⟩
  · exact (hset left).trans (SignalView.change_congr ht (by rw [hmask]))
  · dsimp only
    obtain ⟨hok, hstate⟩ := isOk_bind_pure (deliverSignal ctx p.sig p.info (s.jos.signalActions p.sig)) true
      (s.mapJos fun jos => jos.setPending ctx.tid (kept ++ left))
    have hdeliver := deliverSignal_signals ctx p.sig p.info (s.jos.signalActions p.sig)
      (s.mapJos fun jos => jos.setPending ctx.tid (kept ++ left))
    rw [← hok, ← hstate, hset left] at hdeliver
    refine hdeliver.trans ?_
    split_ifs
    · rw [SignalView.change_change]
      exact SignalView.change_congr ht (by rw [hmask])
    · exact SignalView.change_congr ht (by rw [hmask])

/-! ## The calls -/

/-- the system calls on signals, with their arguments -/
inductive SignalCall
  | kill (pid sig : BitVec 64)
  | tkill (tid sig : BitVec 64)
  | tgkill (pid tid sig : BitVec 64)
  | procmask (how setAddr oldAddr sigsetSize : BitVec 64)
  | sigaction (sig actAddr oldAddr sigsetSize : BitVec 64)
  | sigreturn

/-- the call, as `dispatch` makes it -/
def SignalCall.run (s : Sys) : SignalCall → Sys
  | .kill pid sig => (sysKill pid sig s).2
  | .tkill tid sig => (sysTkill tid sig s).2
  | .tgkill pid tid sig => (sysTgkill pid tid sig s).2
  | .procmask how setAddr oldAddr sigsetSize => (sysRtSigprocmask how setAddr oldAddr sigsetSize s).2
  | .sigaction sig actAddr oldAddr sigsetSize => (s.answer (sysRtSigaction sig actAddr oldAddr sigsetSize)).2
  | .sigreturn => (sysRtSigreturn s).2

/-- `signalContext`: the signal is queued if it is blocked, dropped if it has no handler, and else the handler is
entered if there is room for its frame and it can return (`deliverSignal_isOk_iff`) -/
def contextEffect (ctx : Context) (sig : BitVec 64) (info : SignalInfo) (s : Sys) : SignalEffect :=
  if ctx.signalMask &&& signalBit sig ≠ 0 then .queue ctx.tid { sig := sig, info := info }
  else if !(s.jos.signalActions sig).hasHandler then .nothing
  else if (deliverSignal ctx sig info (s.jos.signalActions sig) s).1.isOk then
    .enter ctx.tid ((s.jos.signalActions sig).mask ||| signalBit sig)
  else .nothing

/-- what a signal sent to `tid` does -/
def sendEffect (tid sig : BitVec 64) (s : Sys) : SignalEffect :=
  if !signalValid sig then .nothing
  else
    match s.jos.contexts tid with
    | none => .nothing
    | some ctx =>
      if ctx.state = .exited then .nothing
      else contextEffect ctx sig { signo := sig, code := 0, pid := s.jos.pid, uid := 0, addr := 0 } s

/-- the new action that `rt_sigaction` is given, if it is given one -/
def readAction (sig actAddr oldAddr sigsetSize : BitVec 64) : Call (Option SignalAction) := do
  failIf (!signalValid sig ∨ sigsetSize ≠ 8) errEINVAL
  let old ← Exec.gets fun s => s.jos.signalActions sig
  when (oldAddr ≠ 0) (storeSignalAction oldAddr old)
  if actAddr ≠ 0 then do
    let action ← loadSignalAction actAddr
    pure (some action)
  else pure none

/-- what the call does to the signals, from the state before it (`deliverPendingSignals_isOk_iff`) -/
def SignalCall.effect (s : Sys) : SignalCall → SignalEffect
  | .kill pid sig =>
    if sig = 0 then .nothing
    else if pid ≠ s.jos.pid then .nothing
    else sendEffect s.jos.currentTID sig s.ensureScheduler
  | .tkill tid sig => if sig = 0 then .nothing else sendEffect tid sig s.ensureScheduler
  | .tgkill pid tid sig =>
    if sig = 0 then .nothing
    else if pid ≠ s.jos.pid then .nothing
    else sendEffect tid sig s.ensureScheduler
  | .procmask how setAddr oldAddr sigsetSize =>
    match prepareSigprocmask how setAddr oldAddr sigsetSize s.ensureScheduler with
    | (.error _, _) => .nothing
    | (.ok (), s') =>
      match s'.jos.current with
      | none => .nothing
      | some ctx => .settle s.jos.currentTID ctx.signalMask (deliverPendingSignals ctx (s'.setReg 10 0)).1.isOk
  | .sigaction sig actAddr oldAddr sigsetSize =>
    match (readAction sig actAddr oldAddr sigsetSize s).1 with
    | .ok (some action) => .install sig action
    | _ => .nothing
  | .sigreturn =>
    match s.ensureScheduler.jos.findSignalFrame s.jos.currentTID (s.cpu.x 2) with
    | none => .nothing
    | some (key, frame) =>
      match (loadSignalUContext (key.sp + signalFrameUctxOff) frame.snapshot s.ensureScheduler).1 with
      | .error _ => .nothing
      | .ok (_, mask) => .restore s.jos.currentTID mask

theorem returnSaved_signals {s : Sys} (v : BitVec 64) : (s.returnSaved v).2.jos.signals = s.jos.signals :=
  (s.setReg 10 v).saveCurrent_signals

theorem signalBit_ne_zero {sig : BitVec 64} (h : signalValid sig = true) : signalBit sig ≠ 0 := by
  obtain ⟨hpos, hle⟩ : 0 < sig ∧ sig ≤ 64 := of_decide_eq_true h
  have hlow : ¬ (sig = 0 ∨ sig > 64) := by
    rintro (rfl | hgt)
    · exact absurd hpos (by decide)
    · exact absurd hle (BitVec.not_le.mpr hgt)
  unfold signalBit
  rw [if_neg hlow]
  intro hzero
  have hlt : sig.toNat - 1 < 64 := by
    have : sig.toNat ≤ 64 := hle
    have : 0 < sig.toNat := hpos
    omega
  have hbit := congrArg (BitVec.getLsbD · (sig.toNat - 1)) hzero
  simp [hlt] at hbit

theorem signalContext_signals {sig : BitVec 64} {s : Sys} {ctx : Context} (info : SignalInfo)
    (hctx : s.jos.contexts ctx.tid = some ctx)
    (hsig : signalValid sig = true) :
    (signalContext ctx sig info s).2.jos.signals = (contextEffect ctx sig info s).apply s.jos.signals := by
  unfold signalContext contextEffect
  rw [if_neg (signalBit_ne_zero hsig)]
  by_cases hblocked : ctx.signalMask &&& signalBit sig ≠ 0
  · rw [if_pos hblocked, if_pos hblocked]
    have hthread : s.jos.signals.threads ctx.tid = some ctx.signals := congrArg (Option.map Context.signals) hctx
    have hset : (s.jos.setPending ctx.tid (ctx.pendingSignals ++ [{ sig := sig, info := info }])).signals
        = s.jos.signals.change ctx.tid fun t => (t.1, ctx.pendingSignals ++ [{ sig := sig, info := info }]) :=
      signals_modifyContext fun _ => rfl
    exact hset.trans (SignalView.change_congr hthread rfl)
  · rw [if_neg hblocked, if_neg hblocked]
    cases (s.jos.signalActions sig).hasHandler with
    | false => rfl
    | true =>
      have hdeliver := deliverSignal_signals ctx sig info (s.jos.signalActions sig) s
      obtain ⟨-, hstate⟩ := isOk_bind_pure (deliverSignal ctx sig info (s.jos.signalActions sig)) true s
      refine (congrArg (fun s' : Sys => s'.jos.signals) hstate).trans (hdeliver.trans ?_)
      rw [if_neg (by decide : ¬ (!true) = true)]
      split_ifs <;> rfl

theorem signalTIDSyscall_signals {s : Sys} (h : s.Running) (tid sig : BitVec 64) :
    (signalTIDSyscall tid sig s).2.jos.signals = (sendEffect tid sig s.ensureScheduler).apply s.jos.signals := by
  have hown := h.ensureScheduler.tidy.queues.own
  rw [← h.ensureScheduler_signals]
  unfold signalTIDSyscall sendEffect
  cases hvalid : signalValid sig with
  | false => exact h.ensureScheduler_signals.symm
  | true =>
    dsimp only
    generalize s.ensureScheduler = s at hown ⊢
    cases hctx : s.jos.contexts tid with
    | none => rfl
    | some ctx =>
      obtain rfl := hown tid ctx hctx
      simp only [Bool.not_true, Bool.false_eq_true, if_false]
      by_cases hstate : ctx.state = .exited
      · rw [if_pos hstate, if_pos hstate]
        rfl
      · rw [if_neg hstate, if_neg hstate,
          ← signalContext_signals { signo := sig, code := 0, pid := s.jos.pid, uid := 0, addr := 0 } hctx hvalid]
        rcases signalContext ctx sig { signo := sig, code := 0, pid := s.jos.pid, uid := 0, addr := 0 } s with
          ⟨errno | delivered, s'⟩
        · rfl
        · dsimp only
          split_ifs
          · rfl
          · exact returnSaved_signals 0

/-- the current thread has another mask, unless the call has failed -/
structure Masked (s : Sys) (r : Except (BitVec 64) Unit × Sys) : Prop where
  current : r.2.jos.currentTID = s.jos.currentTID
  changed : ∃ f : BitVec 64 → BitVec 64, r.2.jos.signals = s.jos.signals.change s.jos.currentTID fun t => (f t.1, t.2)
  failed : ∀ errno, r.1 = .error errno → r.2.jos.signals = s.jos.signals

namespace Masked

theorem of_jos {s s' : Sys} (h : s'.jos = s.jos) (a : Except (BitVec 64) Unit) : Masked s (a, s') where
  current := congrArg currentTID h
  changed := ⟨id, (congrArg Jea9Linux.signals h).trans (SignalView.change_id fun _ => rfl).symm⟩
  failed _ _ := congrArg Jea9Linux.signals h

theorem congr_jos {s s' : Sys} {r : Except (BitVec 64) Unit × Sys} (h : s'.jos = s.jos) (hr : Masked s' r) :
    Masked s r where
  current := hr.current.trans (congrArg currentTID h)
  changed := by rw [← h]; exact hr.changed
  failed := by rw [← h]; exact hr.failed

theorem bind {s : Sys} {α : Type} {m : Call α} {k : α → Call Unit} (hm : (m s).2.jos = s.jos)
    (hk : ∀ a s', Masked s' (k a s')) : Masked s ((m >>= k) s) := by
  rcases hr : m s with ⟨errno | a, s'⟩
  · rw [Exec.bind_of_error hr]
    rw [hr] at hm
    exact of_jos hm _
  · rw [Exec.bind_of_ok hr]
    rw [hr] at hm
    exact congr_jos hm (hk a s')

end Masked

theorem changeSignalMask_masked (how setAddr : BitVec 64) (s : Sys) : Masked s (changeSignalMask how setAddr s) := by
  unfold changeSignalMask when
  split_ifs
  · refine .bind (mem_jos _ _ s) fun mask s' => ?_
    rw [Exec.gets_bind_run]
    cases s'.jos.current.bind fun ctx => nextSignalMask how ctx.signalMask mask with
    | none => exact .of_jos rfl _
    | some next => exact ⟨rfl, ⟨fun _ => next, signals_modifyContext fun _ => rfl⟩, fun _ h => nomatch h⟩
  · exact .of_jos rfl _

theorem prepareSigprocmask_masked (how setAddr oldAddr sigsetSize : BitVec 64) (s : Sys) :
    Masked s (prepareSigprocmask how setAddr oldAddr sigsetSize s) := by
  have hold : Call.Leaves (when (oldAddr ≠ 0) (onCurrent fun ctx =>
      mem errEFAULT (GuestMemory.store64 oldAddr ctx.signalMask))) := by
    refine .when fun s => ?_
    unfold onCurrent
    cases s.jos.current with
    | none => rfl
    | some ctx => exact mem_jos _ _ s
  exact .bind (Call.Leaves.failIf _ _ s) fun _ s₁ => .bind (hold s₁) fun _ s₂ => changeSignalMask_masked how setAddr s₂

theorem sysRtSigprocmask_signals {s : Sys} (h : s.Running) (how setAddr oldAddr sigsetSize : BitVec 64) :
    (sysRtSigprocmask how setAddr oldAddr sigsetSize s).2.jos.signals
      = ((SignalCall.procmask how setAddr oldAddr sigsetSize).effect s).apply s.jos.signals := by
  have hmasked := prepareSigprocmask_masked how setAddr oldAddr sigsetSize s.ensureScheduler
  have hcurrent := h.ensureScheduler_advances.toMoves.current
  have hrun := (prepareSigprocmask_advances how setAddr oldAddr sigsetSize).running h.ensureScheduler
  rw [← h.ensureScheduler_signals]
  unfold sysRtSigprocmask SignalCall.effect
  dsimp only
  generalize prepareSigprocmask how setAddr oldAddr sigsetSize s.ensureScheduler = r at hmasked hrun ⊢
  obtain ⟨errno | _, s'⟩ := r
  · exact hmasked.failed errno rfl
  · obtain ⟨ctx, hctx, -⟩ := exists_of_isRunnable hrun.runnable
    have htid : ctx.tid = s.jos.currentTID := (hrun.tidy.queues.own _ ctx hctx).trans (hmasked.current.trans hcurrent)
    obtain ⟨f, hf⟩ := hmasked.changed
    have hcur : s'.jos.current = some ctx := hctx
    have hthread : s'.jos.signals.threads ctx.tid = some ctx.signals := by
      rw [hrun.tidy.queues.own _ ctx hctx]
      exact congrArg (Option.map Context.signals) hctx
    have hdeliver := deliverPending_signals ctx [] ctx.pendingSignals (s := s'.setReg 10 0) hthread rfl
    have honcurrent :
        onCurrent deliverPendingSignals (s'.setReg 10 0) = deliverPendingSignals ctx (s'.setReg 10 0) := by
      unfold onCurrent
      rw [show (s'.setReg 10 0).jos.current = some ctx from hcur]
    have heffect : s'.jos.signals.change ctx.tid (fun _ => settlePending s'.jos.signalActions ctx.signalMask
          (deliverPendingSignals ctx (s'.setReg 10 0)).1.isOk ctx.pendingSignals)
        = (SignalEffect.settle s.jos.currentTID ctx.signalMask
          (deliverPendingSignals ctx (s'.setReg 10 0)).1.isOk).apply s.ensureScheduler.jos.signals := by
      have hactions : s'.jos.signalActions = s.ensureScheduler.jos.signals.actions := congrArg SignalView.actions hf
      rw [htid, hf] at hthread
      rw [hcurrent] at hf hthread
      rw [SignalView.threads_change_self] at hthread
      obtain ⟨t, ht, hsignals⟩ := Option.map_eq_some_iff.mp hthread
      have hpending : t.2 = ctx.pendingSignals := congrArg Prod.snd hsignals
      rw [htid, hf, hactions, SignalView.change_change]
      exact SignalView.change_congr ht (by rw [hpending])
    dsimp only
    rw [hcur, honcurrent]
    dsimp only
    rw [← heffect]
    refine .trans ?_ hdeliver
    show _ = (deliverPendingSignals ctx (s'.setReg 10 0)).2.jos.signals
    generalize deliverPendingSignals ctx (s'.setReg 10 0) = r
    obtain ⟨errno | _ | _, s''⟩ := r
    · exact returnSaved_signals errno
    · exact s''.saveCurrent_signals
    · rfl

/-! ## Actions and returns -/

/-- the action that was read is installed -/
def installAction (sig : BitVec 64) : Option SignalAction → Call (BitVec 64)
  | none => pure 0
  | some action => do
    Exec.modify fun s => s.mapJos fun jos => { jos with signalActions := update jos.signalActions sig action }
    pure 0

theorem sysRtSigaction_eq (sig actAddr oldAddr sigsetSize : BitVec 64) :
    sysRtSigaction sig actAddr oldAddr sigsetSize = readAction sig actAddr oldAddr sigsetSize >>=
      installAction sig := by
  unfold sysRtSigaction readAction
  simp only [Exec.bind_assoc]
  refine congrArg (_ >>= ·)
    (funext fun _ => congrArg (_ >>= ·) (funext fun old => congrArg (_ >>= ·) (funext fun _ => ?_)))
  unfold when
  split_ifs
  · rw [Exec.bind_assoc, Exec.bind_assoc]
    rfl
  · rfl

theorem readAction_leaves (sig actAddr oldAddr sigsetSize : BitVec 64) :
    Call.Leaves (readAction sig actAddr oldAddr sigsetSize) :=
  .bind (.failIf _ _) fun _ => .bind (.gets _) fun _ => .bind (.when (storeSignalAction_leaves _ _)) fun _ =>
    .ite (.bind (loadSignalAction_leaves _) fun _ => .pure _) (.pure _)

theorem sysRtSigaction_signals {s : Sys} (sig actAddr oldAddr sigsetSize : BitVec 64) :
    (s.answer (sysRtSigaction sig actAddr oldAddr sigsetSize)).2.jos.signals
      = ((SignalCall.sigaction sig actAddr oldAddr sigsetSize).effect s).apply s.jos.signals := by
  have hread := congrArg Jea9Linux.signals (readAction_leaves sig actAddr oldAddr sigsetSize s)
  have hanswer : (s.answer (sysRtSigaction sig actAddr oldAddr sigsetSize)).2.jos
      = (sysRtSigaction sig actAddr oldAddr sigsetSize s).2.jos := by rw [← result_snd]; rfl
  rw [hanswer, sysRtSigaction_eq]
  unfold SignalCall.effect
  dsimp only
  rcases hrun : readAction sig actAddr oldAddr sigsetSize s with ⟨errno | _ | action, s'⟩
  · rw [Exec.bind_of_error hrun]
    rw [hrun] at hread
    exact hread
  · rw [Exec.bind_of_ok hrun]
    rw [hrun] at hread
    exact hread
  · rw [Exec.bind_of_ok hrun]
    rw [hrun] at hread
    exact congrArg (SignalEffect.apply · (.install sig action)) hread

theorem restoreFrame_signals (key : SignalFrameKey) (snap : CPUSnapshot) (mask : BitVec 64) (s : Sys) :
    (restoreFrame key snap mask s).jos.signals = s.jos.signals.change s.jos.currentTID fun t => (mask, t.2) := by
  have hmask : ((s.jos.deleteSignalFrame key).modifyContext s.jos.currentTID fun c =>
      { c with signalMask := mask, syscallTrap := .idle }).signals
        = (s.jos.deleteSignalFrame key).signals.change s.jos.currentTID fun t => (mask, t.2) :=
    signals_modifyContext fun _ => rfl
  exact (Sys.saveCurrent_signals _).trans hmask

theorem sysRtSigreturn_signals {s : Sys} (h : s.Running) :
    (sysRtSigreturn s).2.jos.signals = (SignalCall.sigreturn.effect s).apply s.jos.signals := by
  have hcurrent := h.ensureScheduler_advances.toMoves.current
  rw [← h.ensureScheduler_signals]
  unfold sysRtSigreturn SignalCall.effect
  dsimp only
  rw [hcurrent, show s.ensureScheduler.cpu.x 2 = s.cpu.x 2 from rfl]
  rcases s.ensureScheduler.jos.findSignalFrame s.jos.currentTID (s.cpu.x 2) with _ | ⟨key, frame⟩
  · rfl
  · have hload := loadSignalUContext_leaves (key.sp + signalFrameUctxOff) frame.snapshot s.ensureScheduler
    dsimp only
    generalize loadSignalUContext (key.sp + signalFrameUctxOff) frame.snapshot s.ensureScheduler = r at hload ⊢
    obtain ⟨errno | ⟨snap, mask⟩, s'⟩ := r
    · exact congrArg Jea9Linux.signals hload
    · refine (restoreFrame_signals key snap mask s').trans ?_
      rw [hload, hcurrent]
      rfl

/-- **What a call does to the signals** can be read off the state before it. -/
theorem SignalCall.run_signals {s : Sys} (h : s.Running) (c : SignalCall) :
    (c.run s).jos.signals = (c.effect s).apply s.jos.signals := by
  cases c with
  | kill pid sig =>
    unfold run effect sysKill
    dsimp only
    split_ifs
    · rfl
    · rfl
    · exact signalTIDSyscall_signals h _ _
  | tkill tid sig =>
    unfold run effect sysTkill
    dsimp only
    split_ifs
    · rfl
    · exact signalTIDSyscall_signals h _ _
  | tgkill pid tid sig =>
    unfold run effect sysTgkill
    dsimp only
    split_ifs
    · rfl
    · rfl
    · exact signalTIDSyscall_signals h _ _
  | procmask how setAddr oldAddr sigsetSize => exact sysRtSigprocmask_signals h how setAddr oldAddr sigsetSize
  | sigaction sig actAddr oldAddr sigsetSize => exact sysRtSigaction_signals sig actAddr oldAddr sigsetSize
  | sigreturn => exact sysRtSigreturn_signals h

theorem sendEffect_sound {s : Sys} (h : s.Running) (tid sig : BitVec 64) :
    (sendEffect tid sig s.ensureScheduler).Sound s.jos.signals := by
  have hown := h.ensureScheduler.tidy.queues.own
  rw [← h.ensureScheduler_signals]
  generalize s.ensureScheduler = s at hown ⊢
  unfold sendEffect
  split_ifs
  · trivial
  · cases hctx : s.jos.contexts tid with
    | none => trivial
    | some ctx =>
      dsimp only
      unfold contextEffect
      split_ifs with _ hblocked
      · trivial
      · intro mask pending hthread
        rw [hown tid ctx hctx] at hthread
        have hsignals :
            some ctx.signals = some (mask, pending) := (congrArg (Option.map Context.signals) hctx).symm.trans hthread
        have hmask : ctx.signalMask = mask := congrArg Prod.fst (Option.some.inj hsignals)
        rw [← hmask]
        exact decide_eq_true hblocked
      · trivial
      · trivial
      · trivial

theorem SignalCall.effect_sound {s : Sys} (h : s.Running) (c : SignalCall) : (c.effect s).Sound s.jos.signals := by
  cases c with
  | kill pid sig =>
    unfold effect
    dsimp only
    split_ifs
    · trivial
    · trivial
    · exact sendEffect_sound h _ _
  | tkill tid sig =>
    unfold effect
    dsimp only
    split_ifs
    · trivial
    · exact sendEffect_sound h _ _
  | tgkill pid tid sig =>
    unfold effect
    dsimp only
    split_ifs
    · trivial
    · trivial
    · exact sendEffect_sound h _ _
  | procmask how setAddr oldAddr sigsetSize =>
    unfold effect
    dsimp only
    split
    · trivial
    · split <;> trivial
  | sigaction sig actAddr oldAddr sigsetSize =>
    unfold effect
    dsimp only
    split <;> trivial
  | sigreturn =>
    unfold effect
    dsimp only
    split
    · trivial
    · split <;> trivial

theorem SignalCall.run_running {s : Sys} (h : s.Running) (c : SignalCall) : (c.run s).Running := by
  cases c with
  | kill pid sig => exact (sysKill_advances h pid sig).running h
  | tkill tid sig => exact (sysTkill_advances h tid sig).running h
  | tgkill pid tid sig => exact (sysTgkill_advances h pid tid sig).running h
  | procmask how setAddr oldAddr sigsetSize =>
      exact (sysRtSigprocmask_advances h how setAddr oldAddr sigsetSize).running h
  | sigaction sig actAddr oldAddr sigsetSize =>
    exact (answer_advances (sysRtSigaction_advances sig actAddr oldAddr sigsetSize) h).running h
  | sigreturn => exact (sysRtSigreturn_advances h).running h

/-! ## Sequences of calls -/

/-- after the call no signal is stranded, but for those that became deliverable in the thread that enters a handler -/
def LeavesNothing (s : Sys) (c : SignalCall) : Prop :=
  ∀ t p, (c.run s).jos.signals.Stranded t p → (c.effect s).enters s.jos.signals = some t ∧ ¬ s.jos.signals.Stranded t p

/-- the call strands nothing, as far as can be told before it -/
def StrandsNothing (s : Sys) (c : SignalCall) : Prop := (c.effect s).Safe s.jos.signals

/-- guest code runs, which the personality does not see -/
def Sys.guest (s : Sys) (code : Cpu → Cpu) : Sys := { s with cpu := code s.cpu }

/-- guest code and calls in turn: what holds of every call, in the state in which it is made -/
def EachCall (P : Sys → SignalCall → Prop) : Sys → List ((Cpu → Cpu) × SignalCall) → Prop
  | _, [] => True
  | s, (code, c) :: rest => P (s.guest code) c ∧ EachCall P (c.run (s.guest code)) rest

theorem leavesNothing_iff {s : Sys} (h : s.Running) (c : SignalCall) : LeavesNothing s c ↔ StrandsNothing s c := by
  unfold LeavesNothing StrandsNothing
  rw [c.run_signals h, ← SignalEffect.leaves_iff (c.effect_sound h)]
  exact .rfl

/-- **When no signal is left behind.**  In a sequence of calls on signals every one leaves nothing stranded just if
every one is safe in the state in which it is made: nothing is stranded before it, `rt_sigreturn` does not unblock a
pending signal that has a handler, `rt_sigaction` does not install a handler for one that is pending and unblocked,
and a handler for which there is no room does not leave others behind. -/
theorem nothing_stranded_iff {s : Sys} (h : s.Running) (calls : List ((Cpu → Cpu) × SignalCall)) :
    EachCall LeavesNothing s calls ↔ EachCall StrandsNothing s calls := by
  induction calls generalizing s with
  | nil => exact .rfl
  | cons call rest ih =>
    obtain ⟨code, c⟩ := call
    have hguest : (s.guest code).Running := ⟨h.tidy, h.runnable⟩
    exact and_congr (leavesNothing_iff hguest c) (ih (c.run_running hguest))

theorem SignalEffect.safe_of_none {v : SignalView}
    (h : ∀ t mask pending, v.threads t = some (mask, pending) → pending = [])
    (e : SignalEffect) : e.Safe v := by
  have hnone (t : Tid) (p : PendingSignal) : ¬ v.Stranded t p := by
    rintro ⟨mask, pending, hthread, hmem, -⟩
    rw [h t mask pending hthread] at hmem
    exact List.not_mem_nil hmem
  cases e with
  | nothing => exact hnone
  | queue tid p => exact hnone
  | enter tid blocked => exact fun t p hstranded => absurd hstranded (hnone t p)
  | settle tid mask fits =>
    refine ⟨fun t p _ => hnone t p, fun old pending hthread => ?_⟩
    rw [h tid old pending hthread]
    trivial
  | install sig action =>
    intro t p mask pending hthread hmem
    rw [h t mask pending hthread] at hmem
    exact absurd hmem List.not_mem_nil
  | restore tid mask =>
    refine ⟨fun t p _ => hnone t p, fun old pending hthread p hmem => ?_⟩
    rw [h tid old pending hthread] at hmem
    exact absurd hmem List.not_mem_nil

def Jea9Linux.nonePending (jos : Jea9Linux) : Bool :=
  jos.contextOrder.all fun tid => (jos.contexts tid).all fun c => c.pendingSignals.isEmpty

theorem strandsNothing_of_nonePending {s : Sys} (h : s.Running) (hnone : s.jos.nonePending = true) (c : SignalCall) :
    StrandsNothing s c := by
  refine SignalEffect.safe_of_none (fun t mask pending hthread => ?_) _
  obtain ⟨ctx, hctx, hsignals⟩ := Option.map_eq_some_iff.mp hthread
  have hmem : t ∈ s.jos.contextOrder := (h.tidy.queues.keys t).mpr (by rw [hctx]; rfl)
  have hempty := List.all_eq_true.mp hnone t hmem
  rw [hctx] at hempty
  have hpending : ctx.pendingSignals = pending := congrArg Prod.snd hsignals
  rw [← hpending]
  exact List.isEmpty_iff.mp hempty

/-- a handler at 0x1000 for signal 10 -/
def handlerInstalled : List Act := [.store 0x5000 0x1000, .store 0x5010 0x1100, ask 134 10 0x5000 0 8]

/-- the guest sends itself the signal, and the handler returns … -/
theorem nothing_stranded_handled :
    EachCall LeavesNothing (runActs handlerInstalled smallBoot).2 [(id, .kill 1 10), (id, .sigreturn)] := by
  obtain ⟨hgoes, hbefore, hafter⟩ : (runActs handlerInstalled smallBoot).1 = true ∧
      (runActs handlerInstalled smallBoot).2.jos.nonePending = true ∧
      ((SignalCall.kill 1 10).run (runActs handlerInstalled smallBoot).2).jos.nonePending = true := by decide +kernel
  have hreached := runActs_reached handlerInstalled smallBoot_reached
  rw [hgoes] at hreached
  have hrun := hreached.loaded.running rfl
  generalize (runActs handlerInstalled smallBoot).2 = s at hbefore hafter hrun ⊢
  exact (nothing_stranded_iff hrun _).mpr ⟨strandsNothing_of_nonePending hrun hbefore _,
    strandsNothing_of_nonePending ((SignalCall.kill 1 10).run_running hrun) hafter _, trivial⟩

/-- a handler runs, and its signal was sent again -/
def queuedAgain : Sys := (runActs (handlerInstalled ++ [ask 129 1 10, ask 129 1 10]) smallBoot).2

/-- … but if the handler is sent the signal once more, its return unblocks the signal and leaves it pending -/
theorem sigreturn_strands :
    Reached smallOptions true queuedAgain ∧
    (queuedAgain.jos.contexts 1).map (fun c => (c.signalMask, c.pendingSignals.map PendingSignal.sig)) = some
      (0x200, [10]) ∧
    ((runActs [ask 139] queuedAgain).2.jos.contexts 1).map
      (fun c => (c.signalMask, c.pendingSignals.map PendingSignal.sig))
      = some (0, [10]) ∧
    ((SignalCall.sigreturn.run queuedAgain).jos.contexts 1).map
      (fun c => (c.signalMask, c.pendingSignals.map PendingSignal.sig)) = some (0, [10]) ∧
    ¬ LeavesNothing queuedAgain .sigreturn := by
  obtain ⟨hgoes, hhandler, henters⟩ :
      (runActs (handlerInstalled ++ [ask 129 1 10, ask 129 1 10]) smallBoot).1 = true ∧
      ((SignalCall.sigreturn.run queuedAgain).jos.signalActions 10).hasHandler = true ∧
      (SignalCall.sigreturn.effect queuedAgain).enters queuedAgain.jos.signals = none := by decide +kernel
  have hreached := runActs_reached (handlerInstalled ++ [ask 129 1 10, ask 129 1 10]) smallBoot_reached
  rw [hgoes] at hreached
  refine ⟨hreached, ?_⟩
  simp only [← and_assoc]
  refine (fun hfacts => ⟨hfacts, fun hleaves => ?_⟩) (by decide +kernel)
  obtain ⟨-, hafter⟩ := hfacts
  unfold LeavesNothing at hleaves
  rw [henters] at hleaves
  generalize SignalCall.sigreturn.run queuedAgain = s at hafter hhandler hleaves
  obtain ⟨ctx, hctx, hdata⟩ := Option.map_eq_some_iff.mp hafter
  obtain ⟨hmask, hpending⟩ :
      ctx.signalMask = 0 ∧ ctx.pendingSignals.map PendingSignal.sig = [10] := by simpa using hdata
  obtain ⟨p, hp, hsig⟩ := List.map_eq_singleton_iff.mp hpending
  have hstranded : s.jos.signals.Stranded 1 p := by
    refine ⟨ctx.signalMask, ctx.pendingSignals, congrArg (Option.map Context.signals) hctx, ?_, ?_, ?_⟩
    · rw [hp]
      exact List.mem_singleton.mpr rfl
    · rw [PendingSignal.blockedBy, hmask, hsig]
      decide
    · rw [hsig]
      exact hhandler
  cases (hleaves 1 p hstranded).1

end RiscvEmu.Linux
