/-
The monotonic clock of the guest (`jea9linux.go`: `advanceVirtualClockForSchedulerEvent`,
`advanceVirtualClockTowardDeadline`, `accountInsAttempts`, `clockNow`) over whole runs in virtual time.

Two policies go to a deadline, and the clock never goes back under them. The other two add a step to it, the fixed one
or a random one, and nothing checks the sign of the step or of the sum: `Paced n` says that the clock can take `n`
more steps. One event makes it take two at most, on the way to its own deadline and when nobody can run.

`clock_never_back`: along a run the clock does not go back, if the steps are not negative and not absurdly long.
-/
import RiscvEmu.Linux.Timeouts

namespace RiscvEmu.Linux

open Jea9Linux Exec BitVec Option

/-! ## Steps of the clock -/

/-- the longest step that two of them cannot make the clock overflow with, from below `2 ^ 62` -/
def longestStep : Int := 2 ^ 61

theorem int64_lt (x : Int) : int64 x < 2 ^ 63 := by
  have hcases := int64_cases x
  omega

theorem int64_of_fits {x : Int} (hlow : 0 ≤ x) (hhigh : x < 2 ^ 63) : int64 x = x := by
  have hcases := int64_cases x
  omega

namespace Jea9Linux

variable {jos jos' : Jea9Linux}

/-- the policy adds a step to the clock -/
def Paces (jos : Jea9Linux) : Prop := jos.clockPolicy = .prng ∨ jos.clockPolicy = .fixed

/-- the steps of the policy go forward and are not too long -/
structure Forward (jos : Jea9Linux) : Prop where
  fixed : jos.clockPolicy = .fixed → 0 ≤ jos.clockFixedAdvanceNS ∧ jos.clockFixedAdvanceNS ≤ longestStep
  prng : jos.clockPolicy = .prng → jos.clockPRNGMinNS ≤ longestStep ∧ jos.clockPRNGMaxNS ≤ longestStep

/-- virtual time, and room for `n` more steps of the clock -/
structure Paced (n : Nat) (jos : Jea9Linux) : Prop where
  orderly : Orderly jos
  hermit : jos.timeMode = .hermitTime
  forward : jos.Forward
  room : jos.Paces → 0 ≤ jos.monotonicNS ∧ jos.monotonicNS + n * longestStep < 2 ^ 63
  deadlines : jos.Paces → ∀ d ∈ jos.waitDeadlines, d < 2 ^ 63

theorem Forward.settings (h : jos.Forward) (hs : SameSettings jos jos') : jos'.Forward := by
  have hfixed : jos'.clockFixedAdvanceNS = jos.clockFixedAdvanceNS := congrArg Prod.fst hs.config
  have hmin : jos'.clockPRNGMinNS = jos.clockPRNGMinNS := congrArg (fun c => c.2.1) hs.config
  have hmax : jos'.clockPRNGMaxNS = jos.clockPRNGMaxNS := congrArg (fun c => c.2.2) hs.config
  refine ⟨fun hp => ?_, fun hp => ?_⟩
  · rw [hfixed]
    exact h.fixed (hs.clockPolicy ▸ hp)
  · rw [hmin, hmax]
    exact h.prng (hs.clockPolicy ▸ hp)

namespace Paced

variable {n m : Nat}

theorem paces_iff (hs : SameSettings jos jos') : jos'.Paces ↔ jos.Paces := by
  unfold Paces
  rw [hs.clockPolicy]

theorem next (h : Paced n jos) (hm : Moves jos jos')
    (hroom : jos.Paces → 0 ≤ jos'.monotonicNS ∧ jos'.monotonicNS + m * longestStep < 2 ^ 63)
    (hdeadlines : jos.Paces → ∀ d ∈ jos'.waitDeadlines, d < 2 ^ 63) : Paced m jos' :=
  ⟨hm.settings.orderly h.orderly (hm.tidy h.orderly.queues), hm.settings.timeMode.trans h.hermit,
    h.forward.settings hm.settings,
    fun hp => hroom ((paces_iff hm.settings).1 hp), fun hp => hdeadlines ((paces_iff hm.settings).1 hp)⟩

theorem still (h : Paced n jos) (hs : Still jos jos') : Paced n jos' := by
  refine h.next hs.toSameWaits.advances.toMoves (fun hp => ?_) fun hp => ?_
  · rw [hs.kept.clock h.hermit]
    exact h.room hp
  · rw [hs.waitDeadlines]
    exact h.deadlines hp

theorem fewer (h : Paced (n + 1) jos) : Paced n jos := by
  refine h.next (Advances.refl jos).toMoves (fun hp => ?_) h.deadlines
  have hroom := h.room hp
  unfold longestStep at hroom ⊢
  push_cast at hroom ⊢
  omega

theorem calm (h : Paced n jos) (hp : jos.Paces) : jos.chaosActive = false :=
  h.orderly.calm fun hchaos => by
    rcases hp with hp | hp <;> rw [hp] at hchaos <;> cases hchaos

end Paced

theorem schedN_lt {n : BitVec 64} (hn : n ≠ 0) : (jos.schedN n).1 < n := by
  unfold schedN
  rw [if_neg hn]
  exact BitVec.umod_lt _ ((BitVec.pos_iff_ne_zero n).2 hn)

theorem clockPRNGStep_fits (hmin : jos.clockPRNGMinNS ≤ longestStep) (hmax : jos.clockPRNGMaxNS ≤ longestStep) :
    0 < jos.clockPRNGStep.1 ∧ jos.clockPRNGStep.1 ≤ longestStep := by
  unfold clockPRNGStep
  dsimp only
  have hlow : 0 < (if jos.clockPRNGMinNS ≤ 0 then 1000000 else jos.clockPRNGMinNS) ∧
      (if jos.clockPRNGMinNS ≤ 0 then 1000000 else jos.clockPRNGMinNS) ≤ longestStep := by
    unfold longestStep at hmin ⊢
    split_ifs <;> omega
  generalize (if jos.clockPRNGMinNS ≤ 0 then 1000000 else jos.clockPRNGMinNS) = low at hlow
  have hhigh : low ≤ (if jos.clockPRNGMaxNS < low then low else jos.clockPRNGMaxNS) ∧
      (if jos.clockPRNGMaxNS < low then low else jos.clockPRNGMaxNS) ≤ longestStep := by
    split_ifs <;> omega
  generalize (if jos.clockPRNGMaxNS < low then low else jos.clockPRNGMaxNS) = high at hhigh
  unfold longestStep at hlow hhigh ⊢
  have hspan : (BitVec.ofInt 64 (high - low + 1)).toNat = (high - low + 1).toNat := by
    rw [toNat_ofInt]
    omega
  have hnonzero : BitVec.ofInt 64 (high - low + 1) ≠ 0 := by
    intro hzero
    have := congrArg BitVec.toNat hzero
    rw [hspan] at this
    change (high - low + 1).toNat = 0 at this
    omega
  have hdraw := lt_def.1 (@schedN_lt jos _ hnonzero)
  rw [hspan] at hdraw
  generalize (jos.schedN (BitVec.ofInt 64 (high - low + 1))).1 = draw at hdraw
  have hint : draw.toInt = draw.toNat := toInt_eq_toNat_of_lt (by omega)
  rw [hint, int64_of_fits (by omega) (by omega)]
  omega

/-! ## Moving the clock -/

section Moving

variable (env : Env) {n : Nat}

theorem timeout_waiting {c : Context} {now : Int} {kind : WaitKind} {retval : BitVec 64}
    (h : (c.timeout kind now retval).state = .waiting) : c.timeout kind now retval = c := by
  cases hdue : c.dueFor kind now with
  | false => exact c.timeout_of_not hdue retval
  | true =>
    rw [c.timeout_of_due hdue, c.woken_state] at h
    cases h

theorem expire_waiting {c : Context} {now : Int} (h : (c.expire now).state = .waiting) : c.expire now = c := by
  unfold Context.expire at h ⊢
  have hlast := timeout_waiting h
  rw [hlast] at h ⊢
  have hmiddle := timeout_waiting h
  rw [hmiddle] at h ⊢
  exact timeout_waiting h

theorem refreshBlocked_deadlines (h : Tidy jos jos.futexWaiters) (hhermit : jos.timeMode = .hermitTime) {d : Int}
    (hd : d ∈ (jos.refreshBlocked env).waitDeadlines) : d ∈ jos.waitDeadlines := by
  have htidy := (jos.refreshBlocked_advances env).tidy h
  obtain ⟨-, -, hcontexts⟩ := refreshBlocked_spec env h hhermit
  obtain ⟨tid, ctx, hctx, hw, hhas, hat⟩ := (mem_waitDeadlines_iff htidy d).1 hd
  rw [hcontexts] at hctx
  obtain ⟨c, hc, rfl⟩ := map_eq_some_iff.1 hctx
  have hsame := expire_waiting hw
  rw [hsame] at hw hhas hat
  exact (mem_waitDeadlines_iff h d).2 ⟨tid, c, hc, hw, hhas, hat⟩

theorem refreshChaosWindow_still (jos : Jea9Linux) : Still jos jos.refreshChaosWindow :=
  .of_seen jos.refreshChaosWindow_same (refreshChaosWindow_seen jos)

theorem settle_spec (h : Tidy jos jos.futexWaiters) (hhermit : jos.timeMode = .hermitTime) (ns : Int) :
    ((jos.setClock ns).refreshBlocked env).monotonicNS = ns ∧
      ∀ d ∈ ((jos.setClock ns).refreshBlocked env).waitDeadlines, d ∈ jos.waitDeadlines := by
  have htidy := (jos.setClock_moves ns).tidy h
  obtain ⟨hclock, -, -⟩ := refreshBlocked_spec env htidy hhermit
  exact ⟨hclock, fun d hd => refreshBlocked_deadlines env htidy hhermit hd⟩

theorem settleWindow_spec (h : Tidy jos jos.futexWaiters) (hhermit : jos.timeMode = .hermitTime) (ns : Int) :
    ((jos.setClock ns).refreshChaosWindow.refreshBlocked env).monotonicNS = ns ∧
      ∀ d ∈ ((jos.setClock ns).refreshChaosWindow.refreshBlocked env).waitDeadlines, d ∈ jos.waitDeadlines := by
  have hstill := refreshChaosWindow_still (jos.setClock ns)
  have htidy := hstill.toSameWaits.advances.tidy ((jos.setClock_moves ns).tidy h)
  have hhermit' : (jos.setClock ns).refreshChaosWindow.timeMode = .hermitTime := hstill.kept.timeMode.trans hhermit
  obtain ⟨hclock, -, -⟩ := refreshBlocked_spec env htidy hhermit'
  refine ⟨hclock.trans (hstill.kept.clock hhermit), fun d hd => ?_⟩
  have hd' := refreshBlocked_deadlines env htidy hhermit' hd
  rw [hstill.waitDeadlines] at hd'
  exact hd'

theorem Paced.stepToward_fits (h : Paced (n + 1) jos) (hp : jos.Paces) {target ns : Int}
    (hpast : jos.monotonicNS < target)
    (htarget : target < 2 ^ 63) (hstep : (jos.stepToward target).1 = some ns) :
    jos.monotonicNS ≤ ns ∧ ns ≤ jos.monotonicNS + longestStep := by
  obtain ⟨hstart, hroom⟩ := h.room hp
  have hlimit : jos.monotonicNS + longestStep < 2 ^ 63 := by
    unfold longestStep at hroom ⊢
    push_cast at hroom
    omega
  have hdistance : int64 (target - jos.monotonicNS) = target - jos.monotonicNS := int64_of_fits (by omega) (by omega)
  have hsum (step : Int) (hpos : 0 < step) (hlong : step ≤ longestStep) :
      int64 (jos.monotonicNS + min step (target - jos.monotonicNS)) = jos.monotonicNS + min step
        (target - jos.monotonicNS) :=
    int64_of_fits (by omega) (by omega)
  unfold stepToward at hstep
  rw [hdistance] at hstep
  rcases hp with hp | hp
  · rw [hp] at hstep
    dsimp only at hstep
    obtain ⟨hpos, hlong⟩ := clockPRNGStep_fits (h.forward.prng hp).1 (h.forward.prng hp).2
    rw [if_neg (by omega), hsum _ hpos hlong] at hstep
    have hns := some.inj hstep
    omega
  · rw [hp] at hstep
    dsimp only at hstep
    obtain ⟨-, hlong⟩ := h.forward.fixed hp
    by_cases hzero : jos.clockFixedAdvanceNS ≤ 0
    · rw [if_pos hzero] at hstep
      cases hstep
    · rw [if_neg hzero, hsum _ (by omega) hlong] at hstep
      have hns := some.inj hstep
      omega

/-- **Towards a deadline.** The clock does not go back, and one step less is left. -/
theorem Paced.toward (h : Paced (n + 1) jos) {deadline : Int} (hdeadline : jos.Paces → deadline < 2 ^ 63) :
    jos.monotonicNS ≤ (jos.advanceVirtualClockTowardDeadline env deadline).2.monotonicNS ∧
      Paced n (jos.advanceVirtualClockTowardDeadline env deadline).2 := by
  have hmoves := jos.advanceVirtualClockTowardDeadline_moves env deadline
  revert hmoves
  unfold advanceVirtualClockTowardDeadline
  rw [h.hermit]
  dsimp only
  by_cases hpast : deadline ≤ jos.monotonicNS
  · rw [if_pos hpast]
    exact fun _ => ⟨le_refl _, h.fewer⟩
  rw [if_neg hpast]
  -- the end of a chaos window may come first; under a policy that paces there is none
  have htarget :
      jos.monotonicNS < (if jos.chaosActive ∧ jos.chaosUntilNS > jos.monotonicNS ∧ jos.chaosUntilNS < deadline then
      jos.chaosUntilNS else deadline) := by
    split_ifs with hwindow
    · exact hwindow.2.1
    · omega
  have hcalm (hp : jos.Paces) :
      (if jos.chaosActive ∧ jos.chaosUntilNS > jos.monotonicNS ∧ jos.chaosUntilNS < deadline then
      jos.chaosUntilNS else deadline) = deadline := by
    rw [if_neg fun hwindow => by rw [h.calm hp] at hwindow; cases hwindow.1]
  generalize (if jos.chaosActive ∧ jos.chaosUntilNS > jos.monotonicNS ∧ jos.chaosUntilNS < deadline then
    jos.chaosUntilNS else deadline) = target at htarget hcalm
  obtain ⟨k, hk⟩ := jos.stepToward_snd target
  have hfits (hp : jos.Paces) {ns : Int} (hstep : (jos.stepToward target).1 = some ns) :=
    h.stepToward_fits hp htarget (by rw [hcalm hp]; exact hdeadline hp) hstep
  have hjump (hp : ¬ jos.Paces) : (jos.stepToward target).1 = some target := by
    unfold stepToward
    unfold Paces at hp
    cases hpolicy : jos.clockPolicy <;> rw [hpolicy] at hp <;> simp_all
  have hstill : Still jos (jos.withDraws k) := .of_seen (hk ▸ jos.stepToward_same target) rfl
  generalize jos.stepToward target = r at hk hfits hjump
  obtain ⟨_ | ns, jos'⟩ := r
  · obtain rfl : jos' = jos.withDraws k := hk
    exact fun _ => ⟨le_refl _, (h.still hstill).fewer⟩
  · obtain rfl : jos' = jos.withDraws k := hk
    intro hmoves
    obtain ⟨hclock, hdeadlines⟩ := settleWindow_spec env (h.still hstill).orderly.queues (h.still hstill).hermit ns
    have hforward : jos.monotonicNS ≤ ns := by
      by_cases hp : jos.Paces
      · exact (hfits hp rfl).1
      · obtain rfl := some.inj (hjump hp)
        exact le_of_lt htarget
    refine ⟨hforward.trans (le_of_eq hclock.symm), h.next hmoves (fun hp => ?_) fun hp d hd => h.deadlines hp d
      (hdeadlines d hd)⟩
    obtain ⟨hlow, hhigh⟩ := hfits hp rfl
    obtain ⟨hstart, hroom⟩ := h.room hp
    have hclock' :
        ((jos.withDraws k).setClock ns |>.refreshChaosWindow |>.refreshBlocked env).monotonicNS = ns := hclock
    rw [hclock']
    unfold longestStep at hroom hhigh ⊢
    push_cast at hroom ⊢
    omega

/-- **A scheduler event.** The clock does not go back. -/
theorem Paced.schedulerEvent (h : Paced (n + 1) jos) :
    jos.monotonicNS ≤ (jos.advanceVirtualClockForSchedulerEvent env).2.monotonicNS := by
  have hlimit (hp : jos.Paces) (step : Int) (hpos : 0 ≤ step) (hlong : step ≤ longestStep) :
      int64 (jos.monotonicNS + step) = jos.monotonicNS + step := by
    obtain ⟨hstart, hroom⟩ := h.room hp
    unfold longestStep at hroom hlong
    push_cast at hroom
    exact int64_of_fits (by omega) (by omega)
  have hjump : jos.monotonicNS ≤ (jos.jumpIfIdle env).2.monotonicNS := by
    have hsame := jos.hasRunnableClockCandidate_same
    have hclock := hsame.kept.clock h.hermit
    unfold jumpIfIdle
    dsimp only
    split
    · exact le_of_eq hclock.symm
    · cases jos.hasRunnableClockCandidate.2.nextWaitDeadline with
      | none => exact le_of_eq hclock.symm
      | some deadline =>
        obtain ⟨hset, -⟩ := settle_spec env (hsame.advances.tidy h.orderly.queues) (hsame.kept.timeMode.trans h.hermit)
          (max deadline jos.hasRunnableClockCandidate.2.monotonicNS)
        refine le_trans ?_ (le_of_eq hset.symm)
        rw [hclock]
        exact le_max_right _ _
  unfold advanceVirtualClockForSchedulerEvent
  rw [h.hermit]
  dsimp only
  cases hpolicy : jos.clockPolicy with
  | onlyDeadlockAdvances => exact hjump
  | chaos => exact hjump
  | prng =>
    have hstep := clockPRNGStep_fits (h.forward.prng hpolicy).1 (h.forward.prng hpolicy).2
    have hsame := jos.clockPRNGStep_same
    have hclock := hsame.kept.clock h.hermit
    obtain ⟨hset, -⟩ := settle_spec env (hsame.advances.tidy h.orderly.queues) (hsame.kept.timeMode.trans h.hermit)
      (int64 (jos.clockPRNGStep.2.monotonicNS + jos.clockPRNGStep.1))
    refine le_trans ?_ (le_of_eq hset.symm)
    rw [hclock, hlimit (.inl hpolicy) _ (le_of_lt hstep.1) hstep.2]
    omega
  | fixed =>
    have hstep := h.forward.fixed hpolicy
    obtain ⟨hset, -⟩ := settle_spec env h.orderly.queues h.hermit (int64 (jos.monotonicNS + jos.clockFixedAdvanceNS))
    refine le_trans ?_ (le_of_eq hset.symm)
    rw [hlimit (.inr hpolicy) _ hstep.1 hstep.2]
    omega

/-- **Nobody can run.** The clock does not go back. -/
theorem Paced.whenIdle (h : Paced (n + 1) jos) :
    jos.monotonicNS ≤ (jos.advanceVirtualClockWhenNoRunnableCandidate env).2.monotonicNS := by
  unfold advanceVirtualClockWhenNoRunnableCandidate
  rw [h.hermit]
  dsimp only
  cases hevent : jos.nextClockEvent with
  | none =>
    cases jos.clockPolicy with
    | onlyDeadlockAdvances => exact le_refl _
    | chaos => exact le_refl _
    | prng => exact h.schedulerEvent env
    | fixed => exact h.schedulerEvent env
  | some deadline =>
    have hdeadline (hp : jos.Paces) : deadline < 2 ^ 63 := by
      unfold nextClockEvent at hevent
      rw [h.calm hp] at hevent
      simp only [Bool.false_eq_true, false_and, if_false] at hevent
      cases hnext : jos.nextWaitDeadline with
      | none =>
        rw [hnext] at hevent
        cases hevent
      | some d =>
        rw [hnext] at hevent
        cases hevent
        rw [nextWaitDeadline_eq] at hnext
        exact h.deadlines hp _ (List.min?_mem hnext)
    have hforward := (h.toward env hdeadline).1
    dsimp only
    split_ifs
    · exact hforward
    · exact hforward

end Moving

end Jea9Linux

/-! ## Waiting -/

namespace Sys

variable {s : Sys} (env : Env)

open Jea9Linux (Paced)

theorem goOnOr_onward {r : Bool × Sys} {k : Sys → NoteDisposition × Sys} {ns : Int} (hr : ns ≤ r.2.jos.monotonicNS)
    (hk : ns ≤ (k r.2).2.jos.monotonicNS) : ns ≤ (goOnOr r k).2.jos.monotonicNS := by
  unfold goOnOr
  split_ifs
  · exact hr
  · exact hk

theorem loadFirstRunnable_clock (hhermit : s.jos.timeMode = .hermitTime) :
    s.loadFirstRunnableAfterBlocked.2.jos.monotonicNS = s.jos.monotonicNS := by
  rw [loadFirstRunnableAfterBlocked, loadUnblocked_clock]
  exact s.jos.refreshChaosWindow_same.kept.clock hhermit

theorem scheduleAtDeadline_onward (h : Paced 1 s.jos) :
    s.jos.monotonicNS ≤ (s.scheduleAtDeadline env).2.jos.monotonicNS := by
  have hidle := h.whenIdle env
  have hmode := (s.jos.advanceVirtualClockWhenNoRunnableCandidate_moves env).settings.timeMode.trans h.hermit
  have hload :=
      @loadFirstRunnable_clock (s.mapJos fun jos => (jos.advanceVirtualClockWhenNoRunnableCandidate env).2) hmode
  unfold scheduleAtDeadline
  split_ifs
  · exact goOnOr_onward (hidle.trans (le_of_eq hload.symm)) (hidle.trans (le_of_eq hload.symm))
  · exact le_refl _

theorem scheduleAfterCurrentBlocked_onward (h : Paced 1 s.jos) :
    s.jos.monotonicNS ≤ (s.scheduleAfterCurrentBlocked env).2.jos.monotonicNS := by
  have hsearch : Still s.jos s.jos.nextRunnableByPolicyAfterCurrent.2 := s.jos.refreshChaosWindow_still
  have hclock := hsearch.kept.clock h.hermit
  rw [scheduleAfterCurrentBlocked, h.hermit]
  dsimp only
  rw [scheduleNext]
  have hload := s.loadUnblocked_clock s.jos.nextRunnableByPolicyAfterCurrent
  rcases hr : s.jos.nextRunnableByPolicyAfterCurrent with ⟨_ | tid, jos⟩
  · rw [hr] at hsearch hclock
    exact goOnOr_onward (le_of_eq hclock.symm) ((le_of_eq hclock.symm).trans
      (scheduleAtDeadline_onward env (h.still hsearch) (s := { s with jos := jos })))
  · rw [hr] at hload hclock
    show s.jos.monotonicNS ≤ (s.loadUnblocked (some tid, jos)).2.jos.monotonicNS
    rw [hload]
    exact le_of_eq hclock.symm

theorem beginWait_paced {w : Wait} (h : s.Running) {n : Nat} (hp : Paced n s.jos)
    (hw : ∀ d, w.deadline = some d → d < 2 ^ 63) :
    Paced n (s.beginWait w).jos := by
  have hkept := beginWait_kept h w
  have hpaces := @Paced.paces_iff s.jos (s.beginWait w).jos hkept.toSameSettings
  refine ⟨beginWait_tidy h w, hkept.timeMode.trans hp.hermit, hp.forward.settings hkept.toSameSettings, fun hpace => ?_,
    fun hpace d hd => ?_⟩
  · rw [hkept.clock hp.hermit]
    exact hp.room (hpaces.1 hpace)
  · rcases List.mem_append.1 ((beginWait_deadlines h w d).1 hd) with hown | hold
    · exact hw d (mem_toList.1 hown)
    · exact hp.deadlines (hpaces.1 hpace) d hold

theorem block_onward {w : Wait} (h : s.Running) (hp : Paced 1 s.jos) (hw : ∀ d, w.deadline = some d → d < 2 ^ 63) :
    s.jos.monotonicNS ≤ ((s.beginWait w).scheduleAfterCurrentBlocked env).2.jos.monotonicNS :=
  ((le_of_eq ((beginWait_kept h w).clock hp.hermit).symm)).trans
    (scheduleAfterCurrentBlocked_onward env (beginWait_paced h hp hw))

theorem advanceToDeadline_onward {jos : Jea9Linux} (h : Paced 2 jos) {deadline : Option Int}
    (hdeadline : ∀ d, deadline = some d → d < 2 ^ 63) :
    jos.monotonicNS ≤ (jos.advanceToDeadline env deadline).2.monotonicNS ∧
      Paced 1 (jos.advanceToDeadline env deadline).2 := by
  cases deadline with
  | none => exact ⟨le_refl _, h.fewer⟩
  | some d =>
    have hsearch : Still jos jos.nextRunnableByPolicyAfterCurrent.2 := jos.refreshChaosWindow_still
    have hclock := hsearch.kept.clock h.hermit
    show _ ≤ (jos.advanceIfAlone env d).2.monotonicNS ∧ Paced 1 (jos.advanceIfAlone env d).2
    unfold advanceIfAlone
    generalize jos.nextRunnableByPolicyAfterCurrent = r at hsearch hclock
    obtain ⟨_ | tid, jos'⟩ := r
    · obtain ⟨hforward, hpaced⟩ := (h.still hsearch).toward env fun _ => hdeadline d rfl
      exact ⟨(le_of_eq hclock.symm).trans hforward, hpaced⟩
    · exact ⟨le_of_eq hclock.symm, (h.still hsearch).fewer⟩

theorem reach_onward {w : Wait} (h : s.Running) (hp : Paced 2 s.jos) (hw : ∀ d, w.deadline = some d → d < 2 ^ 63)
    (v : BitVec 64) :
    s.jos.monotonicNS ≤ (s.reach env w v).2.jos.monotonicNS := by
  obtain ⟨hforward, hpaced⟩ := advanceToDeadline_onward env hp hw
  have hrun : Sys.Running { s with jos := (s.jos.advanceToDeadline env w.deadline).2 } :=
    (advanceToDeadline_moves env s.jos w.deadline).running h
  unfold reach
  split_ifs
  · exact hforward
  · exact hforward.trans (block_onward env hrun hpaced hw)

end Sys

/-! ## Calls -/

section Calls

variable {s : Sys} (env : Env)

open Jea9Linux (Paced)

theorem Pauses.onward {jos : Jea9Linux} {i : Intent} {r : NoteDisposition × Sys} (h : Pauses env jos i r)
    (hp : Paced 2 jos) : jos.monotonicNS ≤ r.2.jos.monotonicNS := by
  have hlt {deadline : Option Int} (hw : OnClock deadline) (d : Int) (hd : deadline = some d) : d < 2 ^ 63 := by
    obtain ⟨x, rfl⟩ := hw d hd
    exact int64_lt x
  cases h with
  | returns _ hr => exact hr.ge
  | reaches w v hs h hw =>
    rw [← h.kept.clock hp.hermit]
    exact Sys.reach_onward env hs (hp.still h) (hlt hw) v
  | waits w hs h hw =>
    rw [← h.kept.clock hp.hermit]
    exact Sys.block_onward env hs (hp.still h).fewer (hlt hw)
  | @yields s r hs h hr =>
    rw [hr, ← h.kept.clock hp.hermit]
    unfold advanceIdleClockToNextDeadline
    cases s.jos.clockMode with
    | idleJump => exact (hp.still h).schedulerEvent env
    | icTick => exact le_refl _

theorem expireSchedulerQuantum_onward (h : s.Running) (hp : Paced 2 s.jos) :
    s.jos.monotonicNS ≤ (expireSchedulerQuantum env s).jos.monotonicNS := by
  have hstill := prepareQuantum_still h
  have hp' := hp.still hstill
  have hclock := hstill.kept.clock hp.hermit
  have hinstall (s' : Sys) := installNextSchedulerQuantum_clock s'.jos s'.cpu.riscvInstrRetired
  refine (le_of_eq hclock.symm).trans (le_trans ?_ (le_of_eq (hinstall _).symm))
  generalize prepareQuantum s = s' at hp'
  have hsearch : Still s'.jos s'.jos.nextRunnableByPolicyAfterCurrent.2 := s'.jos.refreshChaosWindow_still
  have hfound := s'.loadIfFound_clock s'.jos.nextRunnableByPolicyAfterCurrent
  have hsame := hsearch.kept.clock hp'.hermit
  unfold switchAfterQuantum
  rcases hr : s'.jos.nextRunnableByPolicyAfterCurrent with ⟨_ | tid, jos⟩
  · rw [hr] at hsearch hsame
    have hidle := (hp'.still hsearch).whenIdle env
    have hmode := (jos.advanceVirtualClockWhenNoRunnableCandidate_moves env).settings.timeMode.trans
        (hp'.still hsearch).hermit
    have hnone : s'.loadIfFound (none, jos) = (false, { s' with jos := jos }) := rfl
    rw [hnone]
    dsimp only
    have hforward := (le_of_eq hsame.symm).trans hidle
    generalize jos.advanceVirtualClockWhenNoRunnableCandidate env = r at hforward hmode
    obtain ⟨⟨d, _ | _⟩, jos'⟩ := r
    · exact hforward
    · dsimp only
      rw [Sys.loadIfFound_clock]
      exact hforward.trans (le_of_eq (jos'.refreshChaosWindow_same.kept.clock hmode).symm)
  · rw [hr] at hfound hsame
    refine (le_of_eq hsame.symm).trans (le_of_eq ?_)
    exact hfound.symm

theorem boundary_clock (hhermit : s.jos.timeMode = .hermitTime) :
    (boundary env s).2.jos.monotonicNS = s.jos.monotonicNS := by
  have hbetween := betweenSlices_advances env s
  have hclock := hbetween.clock hhermit
  have hmode := hbetween.settings.timeMode.trans hhermit
  unfold boundary
  dsimp only
  generalize (((s.drainExternalEvents env).refreshEpollReadiness env).mapJos fun jos => jos.refreshBlocked env) =
    s' at hclock hmode
  have hload := @Sys.loadFirstRunnable_clock s' hmode
  by_cases hblocked : s.jos.blocked
  · rw [if_pos hblocked]
    generalize s'.loadFirstRunnableAfterBlocked = l at hload
    obtain ⟨_ | _, s''⟩ := l
    · exact hload.trans hclock
    · exact hload.trans hclock
  · rw [if_neg hblocked]
    exact hclock

end Calls

/-! ## Runs -/

/-- what happens to the personality in virtual time, the setting of the clock by the host apart -/
inductive Turn
  | guest (c : Cpu)
  | note (env : Env) (sv : Services) (n : Note)
  | quantum (env : Env)
  | budget
  | remaining
  | account (attempts : BitVec 64)
  | boundary (env : Env)

namespace Turn

/-- guest code has to run for it -/
def needsGuest : Turn → Bool
  | .account _ | .boundary _ => false
  | _ => true

/-- whether guest code runs afterwards, and the state -/
def run : Turn → Bool × Sys → Bool × Sys
  | .guest c, p => (p.1, { p.2 with cpu := c })
  | .note env sv n, p => ((handle env sv n p.2).1 = .handled, (handle env sv n p.2).2)
  | .quantum env, p => (true, expireSchedulerQuantum env p.2)
  | .budget, p => (true, expireBudget p.2)
  | .remaining, p => (true, (schedulerRemainingRetired p.2).2)
  | .account attempts, p => (p.1, p.2.mapJos fun jos => jos.accountInsAttempts attempts)
  | .boundary env,
      p => (((Linux.boundary env p.2).1 = .again ∨ (p.1 = true ∧ (Linux.boundary env p.2).1 = .goOn) : Bool),
      (Linux.boundary env p.2).2)

/-- the nanoseconds of the instructions that are accounted for go forward and are not too many -/
def Ticks (jos : Jea9Linux) : Turn → Prop
  | .account attempts => jos.clockMode = .icTick →
      0 ≤ jos.monotonicNS ∧ 0 ≤ attempts.toInt * jos.nsPerInstruction ∧
        attempts.toInt * jos.nsPerInstruction ≤ longestStep
  | _ => True

/-- before the turn: virtual time, the clock below `2 ^ 62`, steps forward, and deadlines that are `int64` values, as in
Go -/
structure Safe (t : Turn) (jos : Jea9Linux) : Prop where
  hermit : jos.timeMode = .hermitTime
  below : jos.monotonicNS < 2 ^ 62
  forward : jos.Forward
  ticks : t.Ticks jos
  start : jos.Paces → 0 ≤ jos.monotonicNS
  deadlines : jos.Paces → ∀ d ∈ jos.waitDeadlines, d < 2 ^ 63

theorem Safe.paced {t : Turn} {jos : Jea9Linux} (h : t.Safe jos) (horderly : Orderly jos) : Jea9Linux.Paced 2 jos := by
  refine ⟨horderly, h.hermit, h.forward, fun hp => ⟨h.start hp, ?_⟩, h.deadlines⟩
  have := h.below
  unfold longestStep
  push_cast
  omega

theorem account_onward {jos : Jea9Linux} {attempts : BitVec 64} (h : Safe (.account attempts) jos) :
    jos.monotonicNS ≤ (jos.accountInsAttempts attempts).monotonicNS := by
  unfold accountInsAttempts
  rw [h.hermit]
  cases hmode : jos.clockMode with
  | idleJump => exact le_refl _
  | icTick =>
    obtain ⟨hstart, hpos, hlong⟩ := h.ticks hmode
    have hbelow := h.below
    unfold longestStep at hlong
    show jos.monotonicNS ≤ int64 (jos.monotonicNS + int64 (attempts.toInt * jos.nsPerInstruction))
    rw [int64_of_fits hpos (by omega), int64_of_fits (by omega) (by omega)]
    omega

/-- **One turn.** The clock does not go back, and the personality stays in order. -/
theorem run_onward {t : Turn} {p : Bool × Sys} (h : Sys.Loaded p) (hguest : t.needsGuest = true → p.1 = true)
    (hsafe : t.Safe p.2.jos) : p.2.jos.monotonicNS ≤ (t.run p).2.jos.monotonicNS ∧ Sys.Loaded (t.run p) := by
  have hpaced := hsafe.paced h.tidy
  cases t with
  | guest c => exact ⟨le_refl _, ⟨h.tidy, fun hr => ⟨(h.running hr).tidy, (h.running hr).runnable⟩⟩⟩
  | note env sv n =>
    have hrun := h.running (hguest rfl)
    have hsettled := handle_settled env sv hrun n
    obtain ⟨r, hr, hpauses⟩ := handle_pauses env sv hrun hpaced.hermit n
    have hclock : ((Turn.note env sv n).run p).2.jos.monotonicNS = r.2.jos.monotonicNS :=
      (congrArg (fun r => r.2.jos.monotonicNS) hr).trans (noteEnd_clock n p.2 r)
    exact ⟨hclock ▸ hpauses.onward env hpaced,
      ⟨hsettled.tidy, fun hr => ⟨hsettled.tidy, hsettled.runnable (of_decide_eq_true hr)⟩⟩⟩
  | quantum env =>
    have hrun := h.running (hguest rfl)
    have hrun' := expireSchedulerQuantum_running env hrun
    exact ⟨expireSchedulerQuantum_onward env hrun hpaced, ⟨hrun'.tidy, fun _ => hrun'⟩⟩
  | budget =>
    have hrun := h.running (hguest rfl)
    have hrun' := expireBudget_running hrun
    have hstill := ((ensureScheduler_still hrun).trans (keepRunning_still hrun.ensureScheduler)).trans
        (saveCurrent_still _)
    exact ⟨le_of_eq (hstill.kept.clock hsafe.hermit).symm, ⟨hrun'.tidy, fun _ => hrun'⟩⟩
  | remaining =>
    have hsame := schedulerRemainingRetired_same p.2
    have hloaded := hsame.advances.toMoves.loaded h
    exact ⟨le_of_eq (hsame.kept.clock hsafe.hermit).symm, ⟨hloaded.tidy, fun _ => hloaded.running (hguest rfl)⟩⟩
  | account attempts => exact ⟨account_onward hsafe, (accountInsAttempts_moves _ attempts).loaded h⟩
  | boundary env => exact ⟨le_of_eq (boundary_clock env hsafe.hermit).symm, boundary_loaded env h⟩

/-- turns that can happen one after the other, each of which satisfies `P` in the state before it -/
inductive Runs (P : Turn → Jea9Linux → Prop) : Bool × Sys → Bool × Sys → Prop
  | refl (p : Bool × Sys) : Runs P p p
  | step {p q : Bool × Sys} (t : Turn) (before : Runs P p q) (guest : t.needsGuest = true → q.1 = true)
      (holds : P t q.2.jos) :
      Runs P p (t.run q)

theorem Runs.onward {p q : Bool × Sys} (hrun : Runs Safe p q) (h : Sys.Loaded p) :
    p.2.jos.monotonicNS ≤ q.2.jos.monotonicNS ∧ Sys.Loaded q := by
  induction hrun with
  | refl => exact ⟨le_refl _, h⟩
  | step t _ guest holds ih =>
    obtain ⟨hforward, hloaded⟩ := ih
    obtain ⟨hstep, hloaded'⟩ := run_onward hloaded guest holds
    exact ⟨hforward.trans hstep, hloaded'⟩

end Turn

/-! ## What the guest reads -/

/-- seconds and nanoseconds of a time -/
def splitLinuxNS (ns : Int) : Int × Int :=
  let sec := ns.tdiv 1000000000
  let nsec := ns.tmod 1000000000
  if nsec < 0 then (sec - 1, nsec + 1000000000) else (sec, nsec)

/-- the timespec that `clock_gettime(CLOCK_MONOTONIC)` stores -/
def clockGettime (env : Env) (s : Sys) : Int × Int := splitLinuxNS (s.jos.syncRealClock env).monotonicNS

/-- not later, as timespecs are compared -/
def NotLater (a b : Int × Int) : Prop := a.1 < b.1 ∨ (a.1 = b.1 ∧ a.2 ≤ b.2)

instance (a b : Int × Int) : Decidable (NotLater a b) := inferInstanceAs (Decidable (_ ∨ _))

theorem splitLinuxNS_eq (ns : Int) : splitLinuxNS ns = (ns / 1000000000, ns % 1000000000) := by
  have hmod := Int.tmod_add_mul_tdiv ns 1000000000
  have hbound := Int.tmod_lt_of_pos ns (show (0 : Int) < 1000000000 by decide)
  have hlow : -1000000000 < ns.tmod 1000000000 := by
    have := Int.tmod_lt_of_pos (-ns) (show (0 : Int) < 1000000000 by decide)
    rw [Int.neg_tmod] at this
    omega
  unfold splitLinuxNS
  dsimp only
  split_ifs with hneg
  · exact Prod.ext (by dsimp only; omega) (by dsimp only; omega)
  · exact Prod.ext (by dsimp only; omega) (by dsimp only; omega)

theorem splitLinuxNS_mono {a b : Int} (h : a ≤ b) : NotLater (splitLinuxNS a) (splitLinuxNS b) := by
  rw [splitLinuxNS_eq, splitLinuxNS_eq]
  unfold NotLater
  dsimp only
  omega

/-- a process with any range of the clock's generator -/
def bootWithRange (o : Options) (minNS maxNS : Int) (c : Cpu) : Sys :=
  (boot o c).mapJos fun jos => { jos with clockPRNGMinNS := minNS, clockPRNGMaxNS := maxNS }

theorem bootWithRange_loaded (o : Options) (minNS maxNS : Int) (c : Cpu) :
    Sys.Loaded (true, bootWithRange o minNS maxNS c) := by
  have hrun := boot_running o c
  have htidy : (bootWithRange o minNS maxNS c).Tidy :=
    ⟨⟨hrun.tidy.queues.nodup, hrun.tidy.queues.keys, hrun.tidy.queues.own, hrun.tidy.queues.idle,
      hrun.tidy.queues.queued,
      fun kind hk => by cases kind <;> exact hrun.tidy.queues.timed _ hk⟩, hrun.tidy.calm⟩
  exact ⟨htidy, fun _ => ⟨htidy, hrun.runnable⟩⟩

/-- **The clock never goes back.**  Whatever the policy, the mode and the settings of a process are: if the steps of the
clock go forward in every state that the run goes through, a time that is read later is not earlier. -/
theorem clock_never_back (env : Env) (o : Options) (minNS maxNS : Int) (c : Cpu) {p q : Bool × Sys}
    (hp : Turn.Runs Turn.Safe (true, bootWithRange o minNS maxNS c) p) (hq : Turn.Runs Turn.Safe p q)
    (hermit : p.2.jos.timeMode = .hermitTime) (hermit' : q.2.jos.timeMode = .hermitTime) :
    NotLater (clockGettime env p.2) (clockGettime env q.2) := by
  obtain ⟨hforward, -⟩ := hq.onward (hp.onward (bootWithRange_loaded o minNS maxNS c)).2
  unfold clockGettime syncRealClock
  rw [hermit, hermit']
  exact splitLinuxNS_mono hforward

def steppingOptions (ns : Int) : Options := { smallOptions with clockPolicy := .fixed, clockFixedAdvanceNS := ns }

def smallHart : Cpu := newCPU (GuestMemory.newGuestMemoryWithModel 24 .linear false)

/-- a process whose clock is moved by `ns` when the guest yields -/
def steppingBoot (ns : Int) : Sys := bootWithRange (steppingOptions ns) 0 0 smallHart

/-- the guest is about to make the call `sched_yield` -/
def yielding : Turn :=
  .guest (calling { num := 124, a0 := 0, a1 := 0, a2 := 0, a3 := 0, a4 := 0, a5 := 0 } smallHart)

def yields : Turn := .note quietEnv noServices (ecallAt 0)

theorem clock_never_back_yield :
    clockGettime quietEnv (steppingBoot 1000) = (0, 0) ∧
    clockGettime quietEnv (yields.run (yielding.run (true, steppingBoot 1000))).2 = (0, 1000) ∧
    NotLater (clockGettime quietEnv (steppingBoot 1000))
      (clockGettime quietEnv (yields.run (yielding.run (true, steppingBoot 1000))).2) := by
  have hsafe (t : Turn) (p : Bool × Sys) (hjos : p.2.jos = (steppingBoot 1000).jos) (hticks : t.Ticks p.2.jos) :
      t.Safe p.2.jos := by
    have hnone : (steppingBoot 1000).jos.waitDeadlines = [] := by decide +kernel
    have hpolicy : (steppingBoot 1000).jos.clockPolicy ≠ .prng := by decide +kernel
    rw [hjos] at hticks ⊢
    refine ⟨by decide +kernel, by decide +kernel, ⟨fun _ => by decide +kernel, fun h => absurd h hpolicy⟩, hticks,
      fun _ => by decide +kernel, fun _ d hd => ?_⟩
    rw [hnone] at hd
    exact absurd hd List.not_mem_nil
  have hfirst : Turn.Runs Turn.Safe (true, steppingBoot 1000) (yielding.run (true, steppingBoot 1000)) :=
    .step yielding (.refl _) (fun _ => rfl) (hsafe yielding (true, steppingBoot 1000) rfl trivial)
  have hsecond : Turn.Runs Turn.Safe (true, steppingBoot 1000) (yields.run (yielding.run (true, steppingBoot 1000))) :=
    .step yields hfirst (fun _ => rfl) (hsafe yields (yielding.run (true, steppingBoot 1000)) rfl trivial)
  have hmode : (steppingBoot 1000).jos.timeMode = .hermitTime := by decide +kernel
  have hmode' : (yields.run (yielding.run (true, steppingBoot 1000))).2.jos.timeMode = .hermitTime := by decide +kernel
  have hread := @clock_never_back quietEnv (steppingOptions 1000) 0 0 smallHart (true, steppingBoot 1000)
    (yields.run (yielding.run (true, steppingBoot 1000))) (.refl _) hsecond hmode hmode'
  refine ⟨?_, ?_, hread⟩
  · decide +kernel
  · decide +kernel

/-- with a negative step the second time is earlier than the first -/
theorem clock_goes_back :
    (steppingBoot (-1)).jos.timeMode = .hermitTime ∧ (steppingBoot (-1)).jos.monotonicNS < 2 ^ 62 ∧
    (yields.run (yielding.run (true, steppingBoot (-1)))).2.jos.monotonicNS < 2 ^ 62 ∧
    clockGettime quietEnv (steppingBoot (-1)) = (0, 0) ∧
    clockGettime quietEnv (yields.run (yielding.run (true, steppingBoot (-1)))).2 = (-1, 999999999) ∧
    ¬ NotLater (clockGettime quietEnv (steppingBoot (-1)))
      (clockGettime quietEnv (yields.run (yielding.run (true, steppingBoot (-1)))).2) := by
  decide +kernel

end RiscvEmu.Linux
